import Mcplica.Runtime.Styles
import Mcplica.Runtime.Substitution

/-! # What a tool does

A call of an operation in its own terms, and the request that the operation describes for it. The tool that the compiler
makes of the operation, run by the runtime, sends these requests and no others. -/

namespace Mcplica.Runtime

open Mcplica.Library Mcplica.Contracts Mcplica.Compilers

/-! ## Calls -/

/-- A call of an operation: what is given for its parameters and its body. -/
structure OperationCall where
  argument : CanonicalParameter → Option Json
  body : Option Json

/-- What is sent for an argument: nothing for one that is left out, which a required one cannot be. -/
def sent {α : Type} (make : Json → Option (List α)) (required : Bool) : Option Json → Option (List α)
  | none => if required then none else some []
  | some value => make value

section

variable (platform : Platform)

/-- The parameters of a place that the caller gives, by name. -/
def placed (hasCredential : Bool) (operation : CanonicalOperation) (location : ParameterLocation) :
    List CanonicalParameter :=
  (callerParameters platform hasCredential (orderedParameters platform operation)).filter (·.location = location)

def bodySent (operation : CanonicalOperation) (given : Option Json) : Option RequestBody :=
  match operation.requestBody, given with
  | none, _ => some {}
  | some body, none => if body.required then none else some {}
  | some body, some value => do
    let media ← (selectRequestMedia platform operation body).toOption
    let mediaType ← literalMediaType media.mediaType
    match mediaType with
    | .json => return { jsonBody := some value, contentType := some SupportedMediaType.json.value }
    | .formUrlencoded => do
      let fields ← (formFields platform value).toOption
      return { formBody := some fields, contentType := some SupportedMediaType.formUrlencoded.value }
    | .multipart => do
      let parts ← (multipartParts platform { toolField := [], mediaType, multipartFiles := multipartFiles media } value).toOption
      return { multipartBody := some parts }

/-- The request that an operation describes for a call, if it has one. -/
def describedRequest (hasCredential : Bool) (operation : CanonicalOperation) (call : OperationCall)
    (policy : UpstreamUrlPolicy) (auth : AuthInjection) : Option BuiltRequest := do
  let encoded ← (placed platform hasCredential operation .path).mapM fun parameter =>
    (call.argument parameter).bind (pathSent platform parameter)
  let path := Template.substitute (fun name => (encoded.lookup name).getD (placeholder name)) none operation.pathTemplate
  let query ← (placed platform hasCredential operation .query).mapM fun parameter =>
    sent (querySent parameter) parameter.required (call.argument parameter)
  let headers ← (placed platform hasCredential operation .header).mapM fun parameter =>
    sent (headerSent platform parameter) parameter.required (call.argument parameter)
  let body ← bodySent platform operation call.body
  let bodyHeaders := body.contentType.toList.map fun contentType => (("Content-Type" : Text), contentType)
  let merged ← (applyAuth platform (acceptHeader :: headers.flatten ++ bodyHeaders) query.flatten auth).toOption
  let server ← operation.serverRef
  let url ← (policy.resolve server path).toOption
  return {
    method := operation.method.value
    url
    headers := merged.1
    query := merged.2
    jsonBody := body.jsonBody
    formBody := body.formBody
    multipartBody := body.multipartBody }

end

/-- The call that an argument object makes with the fields of a tool. -/
def callOf (tool : MCPTool) (arguments : JsonObject) : OperationCall where
  argument parameter := (tool.requestMapping.parameters.find? fun mapping =>
    parameter.location.target = some mapping.target && mapping.sourceName = parameter.name).bind fun mapping =>
      Json.get arguments mapping.toolField
  body := tool.requestMapping.body.bind fun mapping => Json.get arguments mapping.toolField

/-! ## The loop over the parameters -/

section

variable {platform : Platform} {arguments : JsonObject}

def queryOf (arguments : JsonObject) (platform : Platform) (mapping : ParameterMapping) : Option (List QueryParameter) :=
  sent (fun value => (queryValues platform mapping value).toOption) mapping.required
    (Json.get arguments mapping.toolField)

def headerOf (arguments : JsonObject) (platform : Platform) (mapping : ParameterMapping) : Option (List (Text × Text)) :=
  sent (fun value => do
    let _ ← allowedHeader platform mapping.sourceName
    let text ← (headerValue platform mapping value).toOption
    let _ ← (validateHeader mapping.sourceName text).toOption
    return [(mapping.sourceName, text)]) mapping.required (Json.get arguments mapping.toolField)

theorem toOption_addParameter_query {parts : RequestParts} {mapping : ParameterMapping} (target : mapping.target = .query) :
    (addParameter platform arguments parts mapping).toOption =
      (queryOf arguments platform mapping).map fun values => { parts with query := parts.query ++ values } := by
  unfold addParameter queryOf
  cases Json.get arguments mapping.toolField with
  | none => cases mapping.required <;> simp [sent, toOption_ok, toOption_error]
  | some value =>
    simp only [sent, addArgument, target, toOption_bind]
    cases (queryValues platform mapping value).toOption <;> rfl

theorem toOption_addParameter_header {parts : RequestParts} {mapping : ParameterMapping}
    (target : mapping.target = .header) :
    (addParameter platform arguments parts mapping).toOption =
      (headerOf arguments platform mapping).map fun headers => { parts with headers := parts.headers ++ headers } := by
  unfold addParameter headerOf
  cases Json.get arguments mapping.toolField with
  | none => cases mapping.required <;> simp [sent, toOption_ok, toOption_error]
  | some value =>
    simp only [sent, addArgument, target, toOption_bind, toOption_ensure, allowedHeader]
    cases Contracts.forbiddenCallerHeaders.contains (mapping.sourceName.lower platform.unicode) with
    | true => rfl
    | false =>
      simp only [Bool.not_false, if_true, Option.bind_some, Option.bind_eq_bind]
      cases (headerValue platform mapping value).toOption with
      | none => rfl
      | some text =>
        simp only [Option.bind_some]
        cases (validateHeader mapping.sourceName text).toOption <;> rfl

/-- The query and the headers are written one after another, the path is left as it is. -/
theorem toOption_foldlM_addParameter {mappings : List ParameterMapping}
    (others : ∀ mapping ∈ mappings, mapping.target ≠ .path) (parts : RequestParts) :
    (mappings.foldlM (addParameter platform arguments) parts).toOption = do
      let query ← (mappings.filter (·.target = .query)).mapM (queryOf arguments platform)
      let headers ← (mappings.filter (·.target = .header)).mapM (headerOf arguments platform)
      return ⟨parts.path, parts.query ++ query.flatten, parts.headers ++ headers.flatten⟩ := by
  induction mappings generalizing parts with
  | nil => simp [toOption_pure]
  | cons mapping rest ih =>
    have later := ih fun other member => others other (List.mem_cons_of_mem mapping member)
    rw [List.foldlM_cons, toOption_bind]
    cases isTarget : mapping.target with
    | path => exact absurd isTarget (others mapping List.mem_cons_self)
    | query =>
      rw [toOption_addParameter_query isTarget, List.filter_cons_of_pos (by simpa using isTarget),
        List.filter_cons_of_neg (by simp [isTarget]), List.mapM_cons]
      cases queryOf arguments platform mapping with
      | none => rfl
      | some values =>
        simp only [Option.map_some, Option.bind_some, later, Option.bind_eq_bind]
        cases (rest.filter (·.target = .query)).mapM (queryOf arguments platform) with
        | none => rfl
        | some query => simp [List.append_assoc]
    | header =>
      rw [toOption_addParameter_header isTarget, List.filter_cons_of_neg (by simp [isTarget]),
        List.filter_cons_of_pos (by simpa using isTarget), List.mapM_cons]
      cases headerOf arguments platform mapping with
      | none => cases (rest.filter (·.target = .query)).mapM (queryOf arguments platform) <;> rfl
      | some values =>
        simp only [Option.map_some, Option.bind_some, later, Option.bind_eq_bind]
        cases (rest.filter (·.target = .query)).mapM (queryOf arguments platform) with
        | none => rfl
        | some query =>
          cases (rest.filter (·.target = .header)).mapM (headerOf arguments platform) with
          | none => rfl
          | some headers => simp [List.append_assoc]

end

/-! ## A compiled tool -/

section

variable {platform : Platform} {arguments : JsonObject} {tool : MCPTool} {operation : CanonicalOperation}
  {hasCredential : Bool}

/-- What a tool sends as its body, for a value in the body's field. -/
def mappedBody (platform : Platform) (mapping : Option RequestBodyMapping) (given : Option Json) : Option RequestBody :=
  match mapping, given with
  | none, _ => some {}
  | some mapping, none => if mapping.required then none else some {}
  | some mapping, some value => (buildBody platform [(mapping.toolField, value)] (some mapping)).toOption

/-- The mappings of a tool are those of the caller's parameters, and its body is the operation's. -/
structure Compiled (platform : Platform) (hasCredential : Bool) (operation : CanonicalOperation) (tool : MCPTool) : Prop where
  carries : List.Forall₂ Carries (callerParameters platform hasCredential (orderedParameters platform operation))
    tool.requestMapping.parameters
  body : ∀ given, bodySent platform operation given = mappedBody platform tool.requestMapping.body given
  method : tool.requestMapping.method = operation.method
  path : tool.requestMapping.path = operation.pathTemplate
  server : operation.serverRef = some tool.requestMapping.serverRef
  unique : (mappedFields tool.requestMapping).Nodup

theorem multipartParts_congr {mapping other : RequestBodyMapping} (same : mapping.multipartFiles = other.multipartFiles)
    (value : Json) : multipartParts platform mapping value = multipartParts platform other value := by
  unfold multipartParts
  rw [same]

theorem compiled_of_compileTool {options : CompilerOptions} {profileRefs : List (Text × Text)} {toolName : Text}
    (ran : compileTool platform options profileRefs toolName operation = .ok tool) :
    Compiled platform (profileRefs.lookup operation.key).isSome operation tool := by
  obtain ⟨fields, body, responses, isCompiled⟩ := compileTool_spec ran
  refine ⟨?_, fun given => ?_, isCompiled.method, isCompiled.path, isCompiled.server, ?_⟩
  · rw [isCompiled.parameters]
    exact (requestFields_carried isCompiled.request).1
  · rw [isCompiled.body]
    have request := isCompiled.request
    simp only [requestFields, bind_eq_ok] at request
    obtain ⟨parameters, -, made⟩ := request
    unfold bodySent
    split at made
    · rename_i missing
      cases made
      rw [missing]
      rfl
    · rename_i source isSource
      simp only [addBody, bind_eq_ok, obtain?_eq_ok] at made
      obtain ⟨⟨next, mapping⟩, ⟨media, isMedia, ⟨schema, definitions⟩, -, mediaType, isLiteral, added⟩, same⟩ := made
      cases same
      cases added
      rw [isSource]
      cases given with
      | none => rfl
      | some value =>
        simp only [isMedia, toOption_ok, isLiteral, Option.bind_eq_bind, Option.bind_some, mappedBody, buildBody, Json.get,
          List.lookup_cons_self]
        cases mediaType with
        | json => rfl
        | formUrlencoded =>
          rw [toOption_bind]
          rfl
        | multipart =>
          rw [toOption_bind, multipartParts_congr rfl]
          rfl
  · rw [isCompiled.mappedFields_eq]
    exact (requestFields_spec isCompiled.request).unique

/-! ## Fields and parameters -/

theorem argument_of_carries (distinct : (tool.requestMapping.parameters.map (destination platform)).Nodup)
    {parameter : CanonicalParameter} {mapping : ParameterMapping} (carries : Carries parameter mapping)
    (member : mapping ∈ tool.requestMapping.parameters) :
    (callOf tool arguments).argument parameter = Json.get arguments mapping.toolField := by
  have found : (tool.requestMapping.parameters.find? fun other =>
      parameter.location.target = some other.target && other.sourceName = parameter.name) = some mapping := by
    cases search : tool.requestMapping.parameters.find? fun other =>
        parameter.location.target = some other.target && other.sourceName = parameter.name with
    | none =>
      have refused := List.find?_eq_none.mp search mapping member
      simp [carries.target, carries.name] at refused
    | some other =>
      have matching := List.find?_some search
      simp only [Bool.and_eq_true, decide_eq_true_eq] at matching
      have sameTarget : other.target = mapping.target :=
        Option.some.inj (matching.1.symm.trans carries.target)
      have sameDestination : destination platform other = destination platform mapping := by
        rw [destination, destination, sameTarget, matching.2, carries.name]
      rw [List.inj_on_of_nodup_map distinct (List.mem_of_find?_eq_some search) member sameDestination]
  exact congrArg (Option.bind · fun found => Json.get arguments found.toolField) found

/-- The parameters of a place and the mappings to it, each with the argument of its field. -/
def Given (tool : MCPTool) (arguments : JsonObject) (parameter : CanonicalParameter) (mapping : ParameterMapping) : Prop :=
  Carries parameter mapping ∧ (callOf tool arguments).argument parameter = Json.get arguments mapping.toolField

theorem placed_forall₂ (arguments : JsonObject) (compiled : Compiled platform hasCredential operation tool)
    (distinct : (tool.requestMapping.parameters.map (destination platform)).Nodup) {location : ParameterLocation}
    {target : ParameterTarget} (isTarget : location.target = some target) :
    List.Forall₂ (Given tool arguments) (placed platform hasCredential operation location)
      (tool.requestMapping.parameters.filter (·.target = target)) := by
  have related : List.Forall₂ (Given tool arguments)
      (callerParameters platform hasCredential (orderedParameters platform operation)) tool.requestMapping.parameters := by
    have known : ∀ mappings ⊆ tool.requestMapping.parameters, ∀ parameters, List.Forall₂ Carries parameters mappings →
        List.Forall₂ (Given tool arguments) parameters mappings := by
      intro mappings subset parameters carried
      induction carried with
      | nil => exact .nil
      | @cons parameter mapping _ _ carries _ ih =>
        have member : mapping ∈ tool.requestMapping.parameters := subset List.mem_cons_self
        exact .cons ⟨carries, argument_of_carries distinct carries member⟩
          (ih fun other isOther => subset (List.mem_cons_of_mem _ isOther))
    exact known _ (fun _ member => member) _ compiled.carries
  refine filter_forall₂ related fun parameter mapping given => decide_eq_decide.mpr ?_
  have located := given.1.target
  constructor
  · rintro rfl
    exact Option.some.inj (located.symm.trans isTarget)
  · rintro rfl
    exact target_injective located isTarget

/-- The encoded argument of a path mapping. -/
def pathOf (arguments : JsonObject) (platform : Platform) (mapping : ParameterMapping) : Option Text :=
  (Json.get arguments mapping.toolField).bind fun value => (pathValue platform mapping value).toOption

theorem lookup_mapM {mappings : List ParameterMapping} {encoded : List (Text × Text)}
    (made : mappings.mapM (fun mapping => (pathOf arguments platform mapping).map fun text => (mapping.sourceName, text)) =
      some encoded) (name : Text) :
    encoded.lookup name = (mappings.find? fun mapping => mapping.sourceName = name).bind (pathOf arguments platform) := by
  rw [mapM_eq_some] at made
  induction made with
  | nil => rfl
  | @cons mapping entry _ _ isEntry _ ih =>
    obtain ⟨text, isText, rfl⟩ := Option.map_eq_some_iff.mp isEntry
    by_cases same : mapping.sourceName = name
    · subst same
      rw [List.lookup_cons_self, List.find?_cons_of_pos (by simp), Option.bind_some, isText]
    · rw [List.lookup_cons, beq_eq_false_iff_ne.mpr (Ne.symm same), List.find?_cons_of_neg (by simpa using same)]
      exact ih

theorem pathEncoding_eq (mappings : List ParameterMapping) (name : Text) :
    pathEncoding platform mappings arguments name =
      ((mappings.filter (·.target = .path)).find? fun mapping => mapping.sourceName = name).bind
        (pathOf arguments platform) := by
  unfold pathEncoding
  simp only [List.find?_filter, decide_eq_true_eq, Bool.decide_and]
  rfl

/-- The arguments of the path, as the operation and as the tool read them. -/
theorem mapM_pathSent (compiled : Compiled platform hasCredential operation tool)
    (distinct : (tool.requestMapping.parameters.map (destination platform)).Nodup) :
    ((placed platform hasCredential operation .path).mapM fun parameter =>
      ((callOf tool arguments).argument parameter).bind (pathSent platform parameter)) =
    (tool.requestMapping.parameters.filter (·.target = .path)).mapM fun mapping =>
      (pathOf arguments platform mapping).map fun text => (mapping.sourceName, text) := by
  refine mapM_eq_of_forall₂ (placed_forall₂ arguments compiled distinct rfl) fun parameter mapping given => ?_
  rw [given.2, pathOf, given.1.name]
  cases Json.get arguments mapping.toolField with
  | none => rfl
  | some value => exact (toOption_pathValue given.1 value).symm

theorem mapM_querySent (compiled : Compiled platform hasCredential operation tool)
    (distinct : (tool.requestMapping.parameters.map (destination platform)).Nodup) :
    ((placed platform hasCredential operation .query).mapM fun parameter =>
      sent (querySent parameter) parameter.required ((callOf tool arguments).argument parameter)) =
    (tool.requestMapping.parameters.filter (·.target = .query)).mapM (queryOf arguments platform) := by
  refine mapM_eq_of_forall₂ (placed_forall₂ arguments compiled distinct rfl) fun parameter mapping given => ?_
  rw [given.2, queryOf, given.1.required]
  refine congrArg (sent · parameter.required _) (funext fun value => ?_)
  exact (toOption_queryValues given.1 value).symm

theorem mapM_headerSent (compiled : Compiled platform hasCredential operation tool)
    (distinct : (tool.requestMapping.parameters.map (destination platform)).Nodup) :
    ((placed platform hasCredential operation .header).mapM fun parameter =>
      sent (headerSent platform parameter) parameter.required ((callOf tool arguments).argument parameter)) =
    (tool.requestMapping.parameters.filter (·.target = .header)).mapM (headerOf arguments platform) := by
  refine mapM_eq_of_forall₂ (placed_forall₂ arguments compiled distinct rfl) fun parameter mapping given => ?_
  rw [given.2, headerOf, given.1.required, given.1.name]
  refine congrArg (sent · parameter.required _) (funext fun value => ?_)
  rw [toOption_headerValue given.1, headerSent]
  cases ifSimple parameter (shape value) <;> rfl

theorem toOption_buildBody (compiled : Compiled platform hasCredential operation tool) :
    (buildBody platform arguments tool.requestMapping.body).toOption =
      bodySent platform operation (callOf tool arguments).body := by
  rw [compiled.body]
  cases isBody : tool.requestMapping.body with
  | none => rfl
  | some mapping =>
    have given : (callOf tool arguments).body = Json.get arguments mapping.toolField := by
      rw [callOf, isBody]
      rfl
    rw [given]
    cases found : Json.get arguments mapping.toolField with
    | none =>
      simp only [buildBody, found, mappedBody]
      cases mapping.required <;> rfl
    | some value =>
      have single : Json.get [(mapping.toolField, value)] mapping.toolField = some value := List.lookup_cons_self
      simp only [buildBody, found, mappedBody, single]

/-! ## The request of a compiled tool -/

/-- A parameter of the path that could be put in has an argument. -/
theorem encodable_of_foldlM {mappings : List ParameterMapping} {before parts : RequestParts}
    (required : ∀ mapping ∈ mappings, mapping.target = .path → mapping.required = true)
    (ran : mappings.foldlM (addParameter platform arguments) before = .ok parts) :
    PathEncodable platform mappings arguments := by
  refine foldlM_induction (fun read _ => (∀ mapping ∈ read, mapping.target = .path → mapping.required = true) →
    PathEncodable platform read arguments) (fun _ mapping member => by cases member) ?_ ran required
  intro read state mapping next holds stepped asked other member isPath
  rcases List.mem_append.mp member with earlier | last
  · exact holds (fun known isKnown => asked known (List.mem_append_left _ isKnown)) other earlier isPath
  · obtain rfl := List.mem_singleton.mp last
    cases parameterStep_iff.mp stepped with
    | absent missing optional =>
      rw [asked other member isPath] at optional
      cases optional
    | path given target includes isEncoded => exact ⟨_, _, given, isEncoded⟩
    | query given target isValues =>
      rw [isPath] at target
      cases target
    | header given target allowed isText valid =>
      rw [isPath] at target
      cases target

theorem encodable_iff {mappings : List ParameterMapping} :
    PathEncodable platform mappings arguments ↔ ∃ encoded, (mappings.filter (·.target = .path)).mapM (fun mapping =>
      (pathOf arguments platform mapping).map fun text => (mapping.sourceName, text)) = some encoded := by
  have single : ∀ mapping, (∃ value encoded, Json.get arguments mapping.toolField = some value ∧
      pathValue platform mapping value = .ok encoded) ↔ ∃ text, pathOf arguments platform mapping = some text := by
    intro mapping
    simp only [pathOf, Option.bind_eq_some_iff, toOption_eq_some]
    constructor
    · rintro ⟨value, text, given, isText⟩
      exact ⟨text, value, given, isText⟩
    · rintro ⟨text, value, given, isText⟩
      exact ⟨value, text, given, isText⟩
  constructor
  · intro encodable
    have each : ∀ mapping ∈ mappings.filter (·.target = .path), ∃ text, pathOf arguments platform mapping = some text := by
      intro mapping member
      obtain ⟨isMember, isPath⟩ := List.mem_filter.mp member
      exact (single mapping).mp (encodable mapping isMember (of_decide_eq_true isPath))
    generalize mappings.filter (·.target = .path) = paths at each
    induction paths with
    | nil => exact ⟨[], rfl⟩
    | cons mapping rest ih =>
      obtain ⟨text, isText⟩ := each mapping List.mem_cons_self
      obtain ⟨texts, areTexts⟩ := ih fun other member => each other (List.mem_cons_of_mem _ member)
      exact ⟨(mapping.sourceName, text) :: texts, by rw [List.mapM_cons, isText, areTexts]; rfl⟩
  · rintro ⟨encoded, made⟩ mapping member isPath
    rw [mapM_eq_some] at made
    obtain ⟨entry, -, isEntry⟩ := exists_of_forall₂_left made (List.mem_filter.mpr ⟨member, decide_eq_true isPath⟩)
    obtain ⟨text, isText, -⟩ := Option.map_eq_some_iff.mp isEntry
    exact (single mapping).mpr ⟨text, isText⟩

/-- What the contract says about the mappings. -/
theorem nodup_destinations {manifest : MCPManifest} (contract : validateTool platform manifest tool = .ok ()) :
    (tool.requestMapping.parameters.map (destination platform)).Nodup := by
  simp only [validateTool, validateToolMapping, validateMappedFields, bind_eq_ok, ensure_eq_ok, decide_eq_true_eq,
    repeated_eq_nil] at contract
  obtain ⟨_, _, _, _, _, _, _, ⟨_, _, distinct⟩, _⟩ := contract
  exact distinct

theorem required_of_path (valid : operation.Valid) (compiled : Compiled platform hasCredential operation tool) :
    ∀ mapping ∈ tool.requestMapping.parameters, mapping.target = .path → mapping.required = true := by
  intro mapping member isPath
  obtain ⟨parameter, isCaller, carries⟩ := exists_of_forall₂_right compiled.carries member
  have isParameter : parameter ∈ operation.parameters :=
    (perm_orderedParameters platform operation).mem_iff.mp (List.mem_filter.mp isCaller).1
  rw [carries.required]
  exact valid.pathParametersRequired parameter isParameter (target_injective (carries.target.trans (congrArg some isPath)) rfl)

theorem filter_others {mappings : List ParameterMapping} {target : ParameterTarget} (notPath : target ≠ .path) :
    (mappings.filter (·.target ≠ .path)).filter (·.target = target) = mappings.filter (·.target = target) := by
  rw [List.filter_filter]
  refine List.filter_congr fun mapping _ => ?_
  by_cases isTarget : mapping.target = target
  · simp [isTarget, notPath]
  · simp [isTarget]

theorem toOption_buildRequest {manifest : MCPManifest} (valid : operation.Valid)
    (compiled : Compiled platform hasCredential operation tool) (contract : validateTool platform manifest tool = .ok ())
    (policy : UpstreamUrlPolicy) (auth : AuthInjection)
    (declared : ∀ field ∈ arguments.map Prod.fst, field ∈ mappedFields tool.requestMapping) :
    (buildRequest platform tool arguments policy auth).toOption =
      describedRequest platform hasCredential operation (callOf tool arguments) policy auth := by
  have distinct := nodup_destinations contract
  unfold describedRequest
  rw [mapM_pathSent compiled distinct, mapM_querySent compiled distinct, mapM_headerSent compiled distinct,
    ← toOption_buildBody compiled, compiled.server]
  by_cases encodable : PathEncodable platform tool.requestMapping.parameters arguments
  · obtain ⟨distinctNames, pieces, isValid, isSource, named⟩ := pathMapped_of_validateTool contract
    obtain ⟨encoded, isEncoded⟩ := encodable_iff.mp encodable
    have samePath : substitutedPath platform tool.requestMapping arguments =
        Template.substitute (fun name => (encoded.lookup name).getD (placeholder name)) none operation.pathTemplate := by
      unfold substitutedPath
      rw [compiled.path]
      refine congrArg (Template.substitute · none operation.pathTemplate) (funext fun name => ?_)
      rw [pathEncoding_eq, lookup_mapM isEncoded]
    have allDeclared : ((arguments.map Prod.fst).filter fun field =>
        !(mappedFields tool.requestMapping).contains field).isEmpty = true := by
      rw [List.isEmpty_iff, List.filter_eq_nil_iff]
      intro field member
      simpa using declared field member
    rw [buildRequest_of_pieces policy auth isValid isSource distinctNames named encodable, samePath, isEncoded]
    unfold buildWithPath
    dsimp only
    rw [allDeclared]
    simp only [toOption_bind, toOption_ensure, if_true, Option.bind_some, Option.bind_eq_bind]
    rw [toOption_foldlM_addParameter fun mapping member => by simpa using (List.mem_filter.mp member).2]
    rw [filter_others (by decide), filter_others (by decide), compiled.method]
    cases (tool.requestMapping.parameters.filter (·.target = .query)).mapM (queryOf arguments platform) with
    | none => rfl
    | some query => cases (tool.requestMapping.parameters.filter (·.target = .header)).mapM (headerOf arguments platform) <;> rfl
  · have notBuilt : (buildRequest platform tool arguments policy auth).toOption = none := by
      cases built : buildRequest platform tool arguments policy auth with
      | error message => rfl
      | ok request =>
        obtain ⟨parts, body, isBuilt⟩ := built_of_buildRequest built
        exact absurd (encodable_of_foldlM (required_of_path valid compiled) isBuilt.parameters) encodable
    have notEncoded : (tool.requestMapping.parameters.filter (·.target = .path)).mapM (fun mapping =>
        (pathOf arguments platform mapping).map fun text => (mapping.sourceName, text)) = none := by
      cases made : (tool.requestMapping.parameters.filter (·.target = .path)).mapM fun mapping =>
          (pathOf arguments platform mapping).map fun text => (mapping.sourceName, text) with
      | none => rfl
      | some encoded => exact absurd (encodable_iff.mpr ⟨encoded, made⟩) encodable
    rw [notBuilt, notEncoded]
    rfl

/-! ## Every call -/

section

variable (platform : Platform) (hasCredential : Bool) (operation : CanonicalOperation) (tool : MCPTool) (call : OperationCall)

/-- What a call gives, under the fields of the tool. -/
def fieldEntries : List (Text × Option Json) :=
  (List.zipWith (fun parameter (mapping : ParameterMapping) => (mapping.toolField, call.argument parameter))
    (callerParameters platform hasCredential (orderedParameters platform operation)) tool.requestMapping.parameters) ++
  tool.requestMapping.body.toList.map fun mapping => (mapping.toolField, call.body)

def argumentsFor : JsonObject :=
  presentEntries (fieldEntries platform hasCredential operation tool call)

end

theorem zipWith_fst {parameters : List CanonicalParameter} {mappings : List ParameterMapping} {call : OperationCall}
    (carried : List.Forall₂ Carries parameters mappings) :
    (List.zipWith (fun parameter (mapping : ParameterMapping) => (mapping.toolField, call.argument parameter)) parameters
      mappings).map Prod.fst = mappings.map ParameterMapping.toolField := by
  induction carried with
  | nil => rfl
  | cons _ _ ih => rw [List.zipWith_cons_cons, List.map_cons, List.map_cons, ih]

theorem mem_zipWith (call : OperationCall) {parameters : List CanonicalParameter} {mappings : List ParameterMapping}
    (carried : List.Forall₂ Carries parameters mappings) {parameter : CanonicalParameter} (member : parameter ∈ parameters) :
    ∃ mapping ∈ mappings, Carries parameter mapping ∧ (mapping.toolField, call.argument parameter) ∈
      List.zipWith (fun parameter (mapping : ParameterMapping) => (mapping.toolField, call.argument parameter)) parameters
        mappings := by
  induction carried with
  | nil => cases member
  | cons carries _ ih =>
    rcases List.mem_cons.mp member with rfl | later
    · exact ⟨_, List.mem_cons_self, carries, List.mem_cons_self⟩
    · obtain ⟨mapping, isMapping, isCarried, isEntry⟩ := ih later
      exact ⟨mapping, List.mem_cons_of_mem _ isMapping, isCarried, List.mem_cons_of_mem _ isEntry⟩

/-- What a call says of the caller's parameters and the body is all that counts. -/
theorem describedRequest_congr {call other : OperationCall} {policy : UpstreamUrlPolicy} {auth : AuthInjection}
    (sameArguments : ∀ parameter ∈ callerParameters platform hasCredential (orderedParameters platform operation),
      call.argument parameter = other.argument parameter)
    (sameBody : bodySent platform operation call.body = bodySent platform operation other.body) :
    describedRequest platform hasCredential operation call policy auth =
      describedRequest platform hasCredential operation other policy auth := by
  have placedSame : ∀ {β : Type} (location : ParameterLocation) (make : CanonicalParameter → Option Json → Option β),
      (placed platform hasCredential operation location).mapM (fun parameter => make parameter (call.argument parameter)) =
        (placed platform hasCredential operation location).mapM
          (fun parameter => make parameter (other.argument parameter)) := by
    intro β location make
    have related : List.Forall₂ (fun first second => first = second ∧ call.argument first = other.argument second)
        (placed platform hasCredential operation location) (placed platform hasCredential operation location) :=
      List.forall₂_same.mpr fun parameter member => ⟨rfl, sameArguments parameter (List.mem_filter.mp member).1⟩
    refine mapM_eq_of_forall₂ related fun parameter another same => ?_
    rw [same.2, same.1]
  unfold describedRequest
  rw [placedSame .path fun parameter given => given.bind (pathSent platform parameter),
    placedSame .query fun parameter given => sent (querySent parameter) parameter.required given,
    placedSame .header fun parameter given => sent (headerSent platform parameter) parameter.required given, sameBody]

theorem keys_fieldEntries (compiled : Compiled platform hasCredential operation tool) (call : OperationCall) :
    (fieldEntries platform hasCredential operation tool call).map Prod.fst = mappedFields tool.requestMapping := by
  rw [fieldEntries, List.map_append, zipWith_fst compiled.carries, List.map_map]
  rfl

theorem get_argumentsFor (compiled : Compiled platform hasCredential operation tool)
    {call : OperationCall} {field : Text} {given : Option Json}
    (member : (field, given) ∈ fieldEntries platform hasCredential operation tool call) :
    Json.get (argumentsFor platform hasCredential operation tool call) field = given := by
  have distinct := (keys_fieldEntries compiled call).symm ▸ compiled.unique
  rw [Json.get, argumentsFor, lookup_presentEntries distinct, lookup_of_mem distinct member]
  rfl

/-- Every call can be made with the fields of the tool. -/
theorem describedRequest_argumentsFor (compiled : Compiled platform hasCredential operation tool)
    (distinct : (tool.requestMapping.parameters.map (destination platform)).Nodup) (call : OperationCall) (policy : UpstreamUrlPolicy)
    (auth : AuthInjection) :
    describedRequest platform hasCredential operation
        (callOf tool (argumentsFor platform hasCredential operation tool call)) policy auth =
      describedRequest platform hasCredential operation call policy auth := by
  refine describedRequest_congr (fun parameter member => ?_) ?_
  · obtain ⟨mapping, isMapping, carries, isEntry⟩ := mem_zipWith call compiled.carries member
    rw [argument_of_carries distinct carries isMapping]
    exact get_argumentsFor compiled (List.mem_append_left _ isEntry)
  · rw [compiled.body, compiled.body]
    cases isBody : tool.requestMapping.body with
    | none => rfl
    | some mapping =>
      have given : (callOf tool (argumentsFor platform hasCredential operation tool call)).body =
          Json.get (argumentsFor platform hasCredential operation tool call) mapping.toolField := by
        rw [callOf, isBody]
        rfl
      have isEntry : (mapping.toolField, call.body) ∈ fieldEntries platform hasCredential operation tool call := by
        refine List.mem_append_right _ ?_
        rw [isBody]
        exact List.mem_singleton.mpr rfl
      rw [given, get_argumentsFor compiled isEntry]

/-- A tool does what its operation describes: its arguments are the calls of the operation, each of them can be made, and
what is sent is the request that the operation describes for the call. -/
theorem compiled_tool_sends_described_requests {options : CompilerOptions} {profileRefs : List (Text × Text)}
    {toolName : Text} {manifest : MCPManifest} (valid : operation.Valid)
    (ran : compileTool platform options profileRefs toolName operation = .ok tool)
    (contract : validateTool platform manifest tool = .ok ()) (policy : UpstreamUrlPolicy) (auth : AuthInjection) :
    (∀ arguments : JsonObject, (buildRequest platform tool arguments policy auth).toOption =
      if ∀ field ∈ arguments.map Prod.fst, field ∈ mappedFields tool.requestMapping then
        describedRequest platform (profileRefs.lookup operation.key).isSome operation (callOf tool arguments) policy auth
      else none) ∧
    ∀ request, (∃ arguments, buildRequest platform tool arguments policy auth = .ok request) ↔
      ∃ call, describedRequest platform (profileRefs.lookup operation.key).isSome operation call policy auth =
        some request := by
  have compiled := compiled_of_compileTool ran
  have sends : ∀ arguments : JsonObject, (buildRequest platform tool arguments policy auth).toOption =
      if ∀ field ∈ arguments.map Prod.fst, field ∈ mappedFields tool.requestMapping then
        describedRequest platform (profileRefs.lookup operation.key).isSome operation (callOf tool arguments) policy auth
      else none := by
    intro arguments
    split
    · rename_i declared
      exact toOption_buildRequest valid compiled contract policy auth declared
    · rename_i undeclared
      cases built : buildRequest platform tool arguments policy auth with
      | error message => rfl
      | ok request =>
        obtain ⟨parts, body, isBuilt⟩ := built_of_buildRequest built
        exact absurd isBuilt.declared undeclared
  refine ⟨sends, fun request => ⟨?_, ?_⟩⟩
  · rintro ⟨arguments, built⟩
    have described := sends arguments
    rw [built, toOption_ok] at described
    split at described
    · exact ⟨callOf tool arguments, described.symm⟩
    · cases described
  · rintro ⟨call, described⟩
    refine ⟨argumentsFor platform (profileRefs.lookup operation.key).isSome operation tool call, toOption_eq_some.mp ?_⟩
    rw [sends, if_pos fun field member => keys_fieldEntries compiled call ▸ keys_presentEntries _ member,
      describedRequest_argumentsFor compiled (nodup_destinations contract)]
    exact described

end

theorem clashingOperation_valid : clashingOperation.Valid where
  rooted := rfl
  candidates nothing := by cases nothing
  pathParametersRequired := by
    intro parameter member isPath
    simp only [clashingOperation, List.mem_cons, List.not_mem_nil, or_false] at member
    rcases member with rfl | rfl | rfl | rfl | rfl
    · rfl
    all_goals cases isPath
  placeholders := ⟨["id"], by rfl, fun name => by rfl⟩
  body := by
    intro body isBody
    cases isBody
    exact List.cons_ne_nil _ _
  dictionaries := by
    intro schema isSchema
    simp only [CanonicalOperation.schemas, clashingOperation, Option.toList_some, List.flatMap_cons, List.flatMap_nil,
      List.map_cons, List.map_nil, List.append_nil, List.cons_append, List.nil_append, List.mem_cons, List.not_mem_nil,
      or_false, namedParameter] at isSchema
    rcases isSchema with rfl | rfl | rfl | rfl | rfl | rfl
    all_goals exact ⟨List.nodup_singleton _, trivial, trivial⟩

/-- The contract accepts the tool of the operation with the clashing names. -/
def clashingAccepted : Bool :=
  match compileManifest plainPlatform zeroHashing petsOptions (petsApi "X-Request-Id") (fun _ => none) [],
    compileTool plainPlatform petsOptions [] "put_pet" clashingOperation with
  | .ok manifest, .ok tool => (validateTool plainPlatform manifest tool).isOk
  | _, _ => false

/-- Also where the names of the parameters look like names that the compiler makes up. -/
theorem clashing_tool_sends_described_requests :
    ∃ tool, compileTool plainPlatform petsOptions [] "put_pet" clashingOperation = .ok tool ∧
      ∀ request, (∃ arguments, buildRequest plainPlatform tool arguments
          ⟨[("main", ⟨"https", "api.example.com", 443, []⟩)], [], []⟩ {} = .ok request) ↔
        ∃ call, describedRequest plainPlatform false clashingOperation call
          ⟨[("main", ⟨"https", "api.example.com", 443, []⟩)], [], []⟩ {} = some request := by
  have accepted : clashingAccepted = true := by decide +kernel
  unfold clashingAccepted at accepted
  split at accepted
  · rename_i manifest tool isManifest isTool
    obtain ⟨_, contract⟩ := exists_ok_of_isOk accepted
    exact ⟨tool, isTool, (compiled_tool_sends_described_requests clashingOperation_valid isTool contract _ {}).2⟩
  · cases accepted

end Mcplica.Runtime
