import Mcplica.Contracts.PathTemplate
import Mcplica.Runtime.Requests

/-! # The path of a request

`build_request` puts the path arguments into the template one after another. For a tool that the contract accepts this is
the substitution of all of them at once. -/

namespace Mcplica.Runtime

open Mcplica.Library Mcplica.Contracts
open Mcplica.Library.Template (Piece NoBraces braced)

/-! ## Encoded values -/

section Encoded

variable {platform : Platform} {parameter : ParameterMapping} {value : Json} {text encoded : Text}

theorem noBraces_encodePathValue (isEncoded : encodePathValue text = .ok encoded) : NoBraces encoded := by
  simp only [encodePathValue, bind_eq_ok, ensure_eq_ok] at isEncoded
  obtain ⟨-, -, same⟩ := isEncoded
  cases same
  exact ⟨Text.not_mem_quote (by decide) (by decide) (by decide), Text.not_mem_quote (by decide) (by decide) (by decide)⟩

theorem noBraces_join {texts : List Text} (clean : ∀ text ∈ texts, NoBraces text) : NoBraces (Text.join "," texts) := by
  constructor
  · intro member
    rcases Text.mem_join member with inSeparator | ⟨text, isText, inText⟩
    · revert inSeparator
      decide
    · exact (clean text isText).1 inText
  · intro member
    rcases Text.mem_join member with inSeparator | ⟨text, isText, inText⟩
    · revert inSeparator
      decide
    · exact (clean text isText).2 inText

theorem noBraces_mapM {α : Type} {values : List α} {make : α → Except Text Text} {texts : List Text}
    (clean : ∀ value text, make value = .ok text → NoBraces text) (made : values.mapM make = .ok texts) :
    NoBraces (Text.join "," texts) := by
  refine noBraces_join fun text member => ?_
  obtain ⟨value, -, isText⟩ := exists_of_mapM_result made member
  exact clean value text isText

/-- What is put into the path has no braces. -/
theorem noBraces_pathValue (isEncoded : pathValue platform parameter value = .ok encoded) : NoBraces encoded := by
  unfold pathValue at isEncoded
  simp only [bind_eq_ok, ensure_eq_ok] at isEncoded
  obtain ⟨-, -, isEncoded⟩ := isEncoded
  cases value with
  | array items =>
    simp only [bind_eq_ok] at isEncoded
    obtain ⟨texts, made, same⟩ := isEncoded
    cases same
    exact noBraces_mapM (fun _ _ => noBraces_encodePathValue) made
  | object fields =>
    simp only [bind_eq_ok] at isEncoded
    obtain ⟨items, -, isEncoded⟩ := isEncoded
    split at isEncoded
    · simp only [bind_eq_ok] at isEncoded
      obtain ⟨texts, made, same⟩ := isEncoded
      cases same
      refine noBraces_mapM (fun pair text isText => ?_) made
      simp only [bind_eq_ok] at isText
      obtain ⟨name, isName, item, isItem, same⟩ := isText
      cases same
      have cleanName := noBraces_encodePathValue isName
      have cleanItem := noBraces_encodePathValue isItem
      exact ⟨by simp [cleanName.1, cleanItem.1], by simp [cleanName.2, cleanItem.2]⟩
    · simp only [bind_eq_ok] at isEncoded
      obtain ⟨texts, made, same⟩ := isEncoded
      cases same
      exact noBraces_mapM (fun _ _ => noBraces_encodePathValue) made
  | null | bool | number | string =>
    simp only [bind_eq_ok] at isEncoded
    obtain ⟨text, -, isEncoded⟩ := isEncoded
    exact noBraces_encodePathValue isEncoded

end Encoded

/-! ## The substitution -/

section Substitution

variable (platform : Platform)

/-- The encoded argument of the path parameter with a name. -/
def pathEncoding (parameters : List ParameterMapping) (arguments : JsonObject) (name : Text) : Option Text := do
  let parameter ← parameters.find? fun parameter => parameter.target = .path && parameter.sourceName = name
  let value ← Json.get arguments parameter.toolField
  (pathValue platform parameter value).toOption

/-- The template with all its placeholders replaced at once. -/
def substitutedPath (mapping : RequestMapping) (arguments : JsonObject) : Text :=
  Template.substitute (fun name => (pathEncoding platform mapping.parameters arguments name).getD (placeholder name)) none
    mapping.path

/-- `build_request` with a path that is given. -/
def buildWithPath (tool : MCPTool) (arguments : JsonObject) (policy : UpstreamUrlPolicy) (auth : AuthInjection) (path : Text) :
    Except Text BuiltRequest := do
  let mapping := tool.requestMapping
  let undeclared := (arguments.map Prod.fst).filter fun field => !(mappedFields mapping).contains field
  ensure undeclared.isEmpty
    (("Undeclared tool arguments are forbidden: " : Text) ++ Text.reprList platform.unicode (Text.sorted undeclared))
  let parts ← (mapping.parameters.filter (·.target ≠ .path)).foldlM (addParameter platform arguments)
    ⟨path, [], [acceptHeader]⟩
  let body ← buildBody platform arguments mapping.body
  let bodyHeaders := body.contentType.toList.map fun contentType => (("Content-Type" : Text), contentType)
  let (headers, query) ← applyAuth platform (parts.headers ++ bodyHeaders) parts.query auth
  let url ← policy.resolve mapping.serverRef path
  return {
    method := mapping.method.value
    url
    headers
    query
    jsonBody := body.jsonBody
    formBody := body.formBody
    multipartBody := body.multipartBody }

/-- Every path field is there and can be encoded. -/
def PathEncodable (parameters : List ParameterMapping) (arguments : JsonObject) : Prop :=
  ∀ parameter ∈ parameters, parameter.target = .path → ∃ value encoded,
    Json.get arguments parameter.toolField = some value ∧ pathValue platform parameter value = .ok encoded

variable {platform} {arguments : JsonObject} {parameters rest : List ParameterMapping} {parameter : ParameterMapping}
  {values : Text → Text} {pieces : List Piece}

/-- A parameter that is not for the path does not look at it. -/
theorem addParameter_of_not_path (notPath : parameter.target ≠ .path) (path other : Text) (query : List QueryParameter)
    (headers : List (Text × Text)) :
    addParameter platform arguments ⟨path, query, headers⟩ parameter =
      (addParameter platform arguments ⟨other, query, headers⟩ parameter).map ({ · with path }) := by
  unfold addParameter
  split
  · split <;> rfl
  · rename_i value given
    unfold addArgument
    split
    · rename_i isPath
      exact absurd isPath notPath
    · cases queryValues platform parameter value <;> rfl
    · simp only [ensure]
      split
      · cases headerValue platform parameter value with
        | error message => rfl
        | ok text =>
          show (validateHeader parameter.sourceName text >>= _) = Except.map _ (validateHeader parameter.sourceName text >>= _)
          cases validateHeader parameter.sourceName text <;> rfl
      · rfl

theorem path_of_addParameter {parts next : RequestParts} (notPath : parameter.target ≠ .path)
    (added : addParameter platform arguments parts parameter = .ok next) : next.path = parts.path := by
  cases parameterStep_iff.mp added with
  | absent | query | header => rfl
  | path given target includes isEncoded => exact absurd target notPath

theorem find_pathParameter (distinct : ((parameters.filter (·.target = .path)).map ParameterMapping.sourceName).Nodup)
    (member : parameter ∈ parameters) (isPath : parameter.target = .path) :
    parameters.find? (fun other => other.target = .path && other.sourceName = parameter.sourceName) = some parameter := by
  cases found : parameters.find? fun other => other.target = .path && other.sourceName = parameter.sourceName with
  | none =>
    have refused := List.find?_eq_none.mp found parameter member
    simp [isPath] at refused
  | some other =>
    have matching := List.find?_some found
    simp only [Bool.and_eq_true, decide_eq_true_eq] at matching
    have inPaths {candidate : ParameterMapping} (isMember : candidate ∈ parameters) (target : candidate.target = .path) :
        candidate ∈ parameters.filter (·.target = .path) := List.mem_filter.mpr ⟨isMember, by simpa using target⟩
    rw [List.inj_on_of_nodup_map distinct (inPaths (List.mem_of_find?_eq_some found) matching.1) (inPaths member isPath)
      matching.2]

theorem pathEncoding_of_absent {name : Text}
    (absent : ∀ other ∈ rest, other.target = .path → other.sourceName ≠ name) :
    pathEncoding platform rest arguments name = none := by
  have notFound : rest.find? (fun other => other.target = .path && other.sourceName = name) = none := by
    rw [List.find?_eq_none]
    intro other member
    simpa using absent other member
  simp [pathEncoding, notFound]

theorem pathEncoding_cons_of_ne {name : Text} (skipped : parameter.target = .path → parameter.sourceName ≠ name) :
    pathEncoding platform (parameter :: rest) arguments name = pathEncoding platform rest arguments name := by
  have found : (parameter :: rest).find? (fun other => other.target = .path && other.sourceName = name) =
      rest.find? fun other => other.target = .path && other.sourceName = name :=
    List.find?_cons_of_neg (by simpa using skipped)
  unfold pathEncoding
  rw [found]

/-- The order of the mappings does not matter to the encoded arguments. -/
theorem pathEncoding_perm {order : List ParameterMapping} (perm : order.Perm parameters)
    (distinct : ((parameters.filter (·.target = .path)).map ParameterMapping.sourceName).Nodup) (name : Text) :
    pathEncoding platform order arguments name = pathEncoding platform parameters arguments name := by
  have orderDistinct : ((order.filter (·.target = .path)).map ParameterMapping.sourceName).Nodup :=
    (((perm.filter _).map _).nodup_iff).mpr distinct
  have same : order.find? (fun other => other.target = .path && other.sourceName = name) =
      parameters.find? fun other => other.target = .path && other.sourceName = name := by
    cases found : parameters.find? fun other => other.target = .path && other.sourceName = name with
    | none =>
      rw [List.find?_eq_none] at found ⊢
      exact fun other member => found other (perm.mem_iff.mp member)
    | some parameter =>
      have matching := List.find?_some found
      simp only [Bool.and_eq_true, decide_eq_true_eq] at matching
      have member := perm.mem_iff.mpr (List.mem_of_find?_eq_some found)
      rw [← matching.2]
      exact find_pathParameter orderDistinct member matching.1
  unfold pathEncoding
  rw [same]

/-- The parameters of the path can be put in first, all at once. -/
theorem foldlM_addParameter (valid : ∀ piece ∈ pieces, piece.Valid) (partly : Template.Partly values)
    (distinct : ((rest.filter (·.target = .path)).map ParameterMapping.sourceName).Nodup)
    (present : ∀ parameter ∈ rest, parameter.target = .path →
      parameter.sourceName ∈ Template.names pieces ∧ values parameter.sourceName = braced parameter.sourceName)
    (noBraces : ∀ name ∈ Template.names pieces, NoBraces name) (encodable : PathEncodable platform rest arguments)
    (query : List QueryParameter) (headers : List (Text × Text)) :
    rest.foldlM (addParameter platform arguments) ⟨Template.render values pieces, query, headers⟩ =
      (rest.filter (·.target ≠ .path)).foldlM (addParameter platform arguments)
        ⟨Template.render (fun name => (pathEncoding platform rest arguments name).getD (values name)) pieces, query, headers⟩ := by
  induction rest generalizing values query headers with
  | nil => rfl
  | cons parameter rest ih =>
    have laterEncodable : PathEncodable platform rest arguments :=
      fun other member => encodable other (List.mem_cons_of_mem parameter member)
    by_cases isPath : parameter.target = .path
    · obtain ⟨inTemplate, isPresent⟩ := present parameter List.mem_cons_self isPath
      obtain ⟨value, encoded, given, isEncoded⟩ := encodable parameter List.mem_cons_self isPath
      have cleanName := noBraces parameter.sourceName inTemplate
      have clean := noBraces_pathValue isEncoded
      rw [List.filter_cons_of_pos (by simpa using isPath), List.map_cons, List.nodup_cons] at distinct
      have elsewhere : ∀ other ∈ rest, other.target = .path → other.sourceName ≠ parameter.sourceName := by
        intro other member target same
        exact distinct.1 (same ▸ List.mem_map_of_mem (List.mem_filter.mpr ⟨member, by simpa using target⟩))
      have stepped : addParameter platform arguments ⟨Template.render values pieces, query, headers⟩ parameter =
          .ok ⟨Template.render (Function.update values parameter.sourceName encoded) pieces, query, headers⟩ := by
        have includes : (Template.render values pieces).includes (placeholder parameter.sourceName) = true :=
          Text.includes_iff.mpr (Template.braced_infix_render inTemplate isPresent)
        have replaced : Text.replace (braced parameter.sourceName) encoded (Template.render values pieces) =
            Template.render (Function.update values parameter.sourceName encoded) pieces :=
          Template.replace_render valid partly cleanName isPresent
        rw [← replaced]
        exact parameterStep_iff.mpr (.path given isPath includes isEncoded)
      have finalValues : (fun name => (pathEncoding platform (parameter :: rest) arguments name).getD (values name)) =
          fun name => (pathEncoding platform rest arguments name).getD
            (Function.update values parameter.sourceName encoded name) := by
        funext name
        by_cases same : name = parameter.sourceName
        · subst same
          have here : pathEncoding platform (parameter :: rest) arguments parameter.sourceName = some encoded := by
            simp [pathEncoding, isPath, given, isEncoded, Except.toOption]
          rw [here, pathEncoding_of_absent elsewhere, Function.update_self]
          rfl
        · rw [pathEncoding_cons_of_ne fun _ => Ne.symm same, Function.update_of_ne same]
      rw [List.foldlM_cons, stepped, List.filter_cons_of_neg (by simpa using isPath), finalValues]
      refine ih (partly.update clean) distinct.2 ?_ laterEncodable query headers
      intro other member target
      have before := present other (List.mem_cons_of_mem parameter member) target
      exact ⟨before.1, by rw [Function.update_of_ne (elsewhere other member target), before.2]⟩
    · rw [List.filter_cons_of_neg (by simpa using isPath)] at distinct
      have finalValues (name : Text) :
          pathEncoding platform (parameter :: rest) arguments name = pathEncoding platform rest arguments name :=
        pathEncoding_cons_of_ne fun target => absurd target isPath
      simp only [finalValues]
      rw [List.filter_cons_of_pos (by simpa using isPath), List.foldlM_cons, List.foldlM_cons,
        addParameter_of_not_path isPath (Template.render values pieces) (Template.render
          (fun name => (pathEncoding platform rest arguments name).getD (values name)) pieces)]
      cases added : addParameter platform arguments ⟨Template.render
          (fun name => (pathEncoding platform rest arguments name).getD (values name)) pieces, query, headers⟩ parameter with
      | error message => rfl
      | ok parts =>
        have samePath := path_of_addParameter isPath added
        obtain ⟨path, nextQuery, nextHeaders⟩ := parts
        cases samePath
        exact ih partly distinct
          (fun other member => present other (List.mem_cons_of_mem parameter member)) laterEncodable nextQuery nextHeaders

/-! ## Contract-valid tools -/

/-- What the contract says about the path of a tool. -/
theorem pathMapped_of_validateTool {manifest : MCPManifest} {tool : MCPTool}
    (valid : validateTool platform manifest tool = .ok ()) :
    ((tool.requestMapping.parameters.filter (·.target = .path)).map ParameterMapping.sourceName).Nodup ∧
      ∃ pieces : List Piece, (∀ piece ∈ pieces, piece.Valid) ∧ Template.source pieces = tool.requestMapping.path ∧
        ∀ name, name ∈ Template.names pieces ↔ name ∈ pathSources tool.requestMapping := by
  simp only [validateTool, validateToolMapping, validateMappedFields, bind_eq_ok, ensure_eq_ok, decide_eq_true_eq,
    repeated_eq_nil, Bool.and_eq_true, List.all_eq_true, List.contains_iff_mem] at valid
  obtain ⟨_, _, _, _, _, _, _, ⟨_, _, distinct⟩, _, _, _, _, _, _, names, scanned, _, same, _⟩ := valid
  constructor
  · have paths := (List.filter_sublist (p := fun parameter : ParameterMapping => parameter.target = .path)).map
      (destination platform) |>.nodup distinct
    have asNames : (tool.requestMapping.parameters.filter (·.target = .path)).map (destination platform) =
        ((tool.requestMapping.parameters.filter (·.target = .path)).map ParameterMapping.sourceName).map
          fun name => (ParameterTarget.path, name.lower platform.unicode) := by
      rw [List.map_map]
      refine List.map_congr_left fun parameter member => ?_
      have isPath := of_decide_eq_true (List.mem_filter.mp member).2
      simp [destination, isPath]
    rw [asNames] at paths
    exact paths.of_map
  · obtain ⟨pieces, ⟨isValid, -⟩, isSource, areNames⟩ := exists_template scanned
    refine ⟨pieces, isValid, isSource, fun name => ?_⟩
    rw [areNames]
    exact ⟨same.1 name, same.2 name⟩

/-! ## Errors that cannot occur -/

/-- The message is neither of the two that say that the path does not fit the mappings. -/
def Unrelated (message : Text) : Prop :=
  message ≠ "Manifest path mapping is inconsistent" ∧ message ≠ "Not all path parameters were resolved"

/-- Every error of the computation is unrelated to the path. -/
def RaisesUnrelated {α : Type} (result : Except Text α) : Prop :=
  ∀ message, result = .error message → Unrelated message

/-- A message is told from the two by its first characters. -/
theorem unrelated_of_start (start : Text) {message : Text} (starts : message.take start.length = start)
    (notFirst : ("Manifest path mapping is inconsistent" : Text).take start.length ≠ start)
    (notSecond : ("Not all path parameters were resolved" : Text).take start.length ≠ start) : Unrelated message := by
  constructor
  · rintro rfl
    exact notFirst starts
  · rintro rfl
    exact notSecond starts

section Raises

variable {α β : Type}

theorem raisesUnrelated_ok (value : α) : RaisesUnrelated (.ok value) := by
  intro message raised
  cases raised

theorem raisesUnrelated_error {message : Text} (unrelated : Unrelated message) :
    RaisesUnrelated (.error message : Except Text α) := by
  intro other raised
  cases raised
  exact unrelated

theorem RaisesUnrelated.bind {first : Except Text α} {next : α → Except Text β} (here : RaisesUnrelated first)
    (later : ∀ value, RaisesUnrelated (next value)) : RaisesUnrelated (first >>= next) := by
  cases first with
  | ok value => exact later value
  | error message => exact raisesUnrelated_error (here message rfl)

theorem raisesUnrelated_ensure {condition : Bool} {message : Text} (unrelated : Unrelated message) :
    RaisesUnrelated (ensure condition message) := by
  unfold ensure
  split
  · exact raisesUnrelated_ok ()
  · exact raisesUnrelated_error unrelated

theorem raisesUnrelated_obtain? {value : Option α} {message : Text} (unrelated : Unrelated message) :
    RaisesUnrelated (obtain? value message) := by
  cases value with
  | none => exact raisesUnrelated_error unrelated
  | some value => exact raisesUnrelated_ok value

theorem raisesUnrelated_mapM {values : List α} {make : α → Except Text β} (each : ∀ value, RaisesUnrelated (make value)) :
    RaisesUnrelated (values.mapM make) := by
  intro message raised
  obtain ⟨value, -, isRaised⟩ := exists_of_mapM_error raised
  exact each value message isRaised

theorem raisesUnrelated_foldlM {values : List α} {step : β → α → Except Text β} {initial : β}
    (each : ∀ state, ∀ value ∈ values, RaisesUnrelated (step state value)) :
    RaisesUnrelated (values.foldlM step initial) := by
  induction values generalizing initial with
  | nil => exact raisesUnrelated_ok initial
  | cons value values ih =>
    rw [List.foldlM_cons]
    exact (each initial value List.mem_cons_self).bind fun state =>
      ih fun state other member => each state other (List.mem_cons_of_mem value member)

end Raises

theorem raisesUnrelated_scalar (field : Text) (value : Json) : RaisesUnrelated (scalar platform field value) := by
  cases value with
  | bool value => cases value <;> exact raisesUnrelated_ok _
  | null | number | string => exact raisesUnrelated_ok _
  | array | object => exact raisesUnrelated_error (unrelated_of_start "Field" rfl (by decide) (by decide))

instance (message : Text) : Decidable (Unrelated message) :=
  inferInstanceAs (Decidable (_ ∧ _))

theorem raisesUnrelated_objectValues (field : Text) (fields : JsonObject) :
    RaisesUnrelated (objectValues platform field fields) :=
  raisesUnrelated_mapM fun _ => (raisesUnrelated_scalar field _).bind fun _ => raisesUnrelated_ok _

theorem raisesUnrelated_queryValues (parameter : ParameterMapping) (value : Json) :
    RaisesUnrelated (queryValues platform parameter value) := by
  unfold queryValues
  dsimp only
  split
  · refine (raisesUnrelated_mapM (raisesUnrelated_scalar _)).bind fun values => ?_
    split
    · exact raisesUnrelated_ok _
    · exact (raisesUnrelated_obtain? (by decide)).bind fun _ => raisesUnrelated_ok _
  · refine (raisesUnrelated_objectValues _ _).bind fun items => ?_
    split
    · exact raisesUnrelated_ok _
    split
    · exact raisesUnrelated_ok _
    · exact (raisesUnrelated_obtain? (by decide)).bind fun _ => raisesUnrelated_ok _
  · exact (raisesUnrelated_ensure (by decide)).bind fun _ =>
      (raisesUnrelated_scalar _ _).bind fun _ => raisesUnrelated_ok _

theorem raisesUnrelated_headerValue (parameter : ParameterMapping) (value : Json) :
    RaisesUnrelated (headerValue platform parameter value) := by
  unfold headerValue
  obtain ⟨style, explode⟩ := serialization parameter
  refine (raisesUnrelated_ensure (by decide)).bind fun _ => ?_
  split
  · exact (raisesUnrelated_mapM (raisesUnrelated_scalar _)).bind fun _ => raisesUnrelated_ok _
  · refine (raisesUnrelated_objectValues _ _).bind fun items => ?_
    split
    · exact raisesUnrelated_ok _
    · exact raisesUnrelated_ok _
  · exact raisesUnrelated_scalar _ _

theorem raisesUnrelated_validateHeader (name value : Text) : RaisesUnrelated (validateHeader name value) :=
  (raisesUnrelated_ensure (by decide)).bind fun _ => raisesUnrelated_ensure (by decide)

theorem raisesUnrelated_addParameter {parts : RequestParts} (notPath : parameter.target ≠ .path) :
    RaisesUnrelated (addParameter platform arguments parts parameter) := by
  unfold addParameter
  split
  · split
    · exact raisesUnrelated_error (unrelated_of_start "Missing" rfl (by decide) (by decide))
    · exact raisesUnrelated_ok _
  · rename_i value given
    unfold addArgument
    split
    · rename_i isPath
      exact absurd isPath notPath
    · exact (raisesUnrelated_queryValues _ _).bind fun _ => raisesUnrelated_ok _
    · exact (raisesUnrelated_ensure (by decide)).bind fun _ => (raisesUnrelated_headerValue _ _).bind fun _ =>
        (raisesUnrelated_validateHeader _ _).bind fun _ => raisesUnrelated_ok _

/-! ### Bodies -/

theorem raisesUnrelated_formFields (body : Json) : RaisesUnrelated (formFields platform body) := by
  unfold formFields
  split
  · refine (raisesUnrelated_mapM fun field => ?_).bind fun _ => raisesUnrelated_ok _
    obtain ⟨name, value⟩ := field
    dsimp only
    split
    · exact raisesUnrelated_mapM fun _ => (raisesUnrelated_scalar _ _).bind fun _ => raisesUnrelated_ok _
    · exact (raisesUnrelated_scalar _ _).bind fun _ => raisesUnrelated_ok _
  · exact raisesUnrelated_error (by decide)

theorem raisesUnrelated_requireText {value : Option Json} {valid : Text → Bool} {message : Text}
    (unrelated : Unrelated message) : RaisesUnrelated (requireText value valid message) := by
  unfold requireText
  split
  · split
    · exact raisesUnrelated_ok _
    · exact raisesUnrelated_error unrelated
  · exact raisesUnrelated_error unrelated

theorem raisesUnrelated_multipartFile (values : JsonObject) (mapping : MultipartFileMapping) :
    RaisesUnrelated (multipartFile platform values mapping) := by
  have missing : RaisesUnrelated (if mapping.required then
      .error (("Missing multipart file field " : Text) ++ mapping.contentField.repr platform.unicode)
    else .ok none : Except Text (Option (MultipartPart × List Text))) := by
    split
    · exact raisesUnrelated_error (unrelated_of_start "Missing" rfl (by decide) (by decide))
    · exact raisesUnrelated_ok _
  unfold multipartFile
  split
  · exact missing
  · exact missing
  · refine (raisesUnrelated_obtain? (by decide)).bind fun content => ?_
    refine (raisesUnrelated_requireText (by decide)).bind fun filename => ?_
    refine (raisesUnrelated_ensure (by decide)).bind fun _ => ?_
    exact (raisesUnrelated_requireText (by decide)).bind fun contentType => raisesUnrelated_ok _
  · exact raisesUnrelated_error (by decide)

theorem raisesUnrelated_multipartParts (mapping : RequestBodyMapping) (body : Json) :
    RaisesUnrelated (multipartParts platform mapping body) := by
  unfold multipartParts
  split
  · refine (raisesUnrelated_mapM (raisesUnrelated_multipartFile _)).bind fun files => ?_
    refine (raisesUnrelated_mapM fun field => ?_).bind fun _ => raisesUnrelated_ok _
    obtain ⟨name, value⟩ := field
    dsimp only
    split
    · exact raisesUnrelated_mapM fun _ => (raisesUnrelated_scalar _ _).bind fun _ => raisesUnrelated_ok _
    · exact (raisesUnrelated_scalar _ _).bind fun _ => raisesUnrelated_ok _
  · exact raisesUnrelated_error (by decide)

theorem raisesUnrelated_buildBody (mapping : Option RequestBodyMapping) :
    RaisesUnrelated (buildBody platform arguments mapping) := by
  unfold buildBody
  split
  · exact raisesUnrelated_ok _
  split
  · split
    · exact raisesUnrelated_error (unrelated_of_start "Missing" rfl (by decide) (by decide))
    · exact raisesUnrelated_ok _
  split
  · exact raisesUnrelated_ok _
  · exact (raisesUnrelated_formFields _).bind fun _ => raisesUnrelated_ok _
  · exact (raisesUnrelated_multipartParts _ _).bind fun _ => raisesUnrelated_ok _

/-! ### The whole -/

theorem raisesUnrelated_applyAuth {headers : List (Text × Text)} {query : List QueryParameter} {auth : AuthInjection} :
    RaisesUnrelated (applyAuth platform headers query auth) := by
  refine (raisesUnrelated_foldlM fun state header _ => ?_).bind fun headers => ?_
  · exact (raisesUnrelated_validateHeader _ _).bind fun _ =>
      (raisesUnrelated_ensure (by decide)).bind fun _ => raisesUnrelated_ok _
  · refine (raisesUnrelated_foldlM fun state parameter _ => ?_).bind fun query => raisesUnrelated_ok _
    exact (raisesUnrelated_ensure (by decide)).bind fun _ => raisesUnrelated_ok _

theorem raisesUnrelated_resolve (policy : UpstreamUrlPolicy) (serverRef path : Text) :
    RaisesUnrelated (policy.resolve serverRef path) := by
  refine (raisesUnrelated_obtain? (by decide)).bind fun origin => ?_
  exact (raisesUnrelated_ensure (by decide)).bind fun _ => raisesUnrelated_ok _

theorem raisesUnrelated_buildWithPath (tool : MCPTool) (policy : UpstreamUrlPolicy) (auth : AuthInjection) (path : Text) :
    RaisesUnrelated (buildWithPath platform tool arguments policy auth path) := by
  refine (raisesUnrelated_ensure (unrelated_of_start "Undeclared" rfl (by decide) (by decide))).bind fun _ => ?_
  refine (raisesUnrelated_foldlM fun parts parameter member => ?_).bind fun parts => ?_
  · exact raisesUnrelated_addParameter (by simpa using (List.mem_filter.mp member).2)
  refine (raisesUnrelated_buildBody _).bind fun body => ?_
  refine raisesUnrelated_applyAuth.bind fun merged => ?_
  exact (raisesUnrelated_resolve _ _ _).bind fun url => raisesUnrelated_ok _

/-! ## All at once -/

/-- The tool with its parameters mapped in another order. -/
def withParameters (tool : MCPTool) (parameters : List ParameterMapping) : MCPTool :=
  { tool with requestMapping := { tool.requestMapping with parameters } }

/-- `build_request` of a template whose placeholders are the path parameters. -/
theorem buildRequest_of_pieces {tool : MCPTool} (policy : UpstreamUrlPolicy) (auth : AuthInjection)
    (valid : ∀ piece ∈ pieces, piece.Valid) (isSource : Template.source pieces = tool.requestMapping.path)
    (distinct : ((tool.requestMapping.parameters.filter (·.target = .path)).map ParameterMapping.sourceName).Nodup)
    (named : ∀ name, name ∈ Template.names pieces ↔ name ∈ pathSources tool.requestMapping)
    (encodable : PathEncodable platform tool.requestMapping.parameters arguments) :
    buildRequest platform tool arguments policy auth =
      buildWithPath platform tool arguments policy auth (substitutedPath platform tool.requestMapping arguments) := by
  have noBraces : ∀ name ∈ Template.names pieces, NoBraces name := by
    intro name member
    obtain ⟨piece, isPiece, isName⟩ := List.mem_flatMap.mp member
    cases piece with
    | literal character => cases isName
    | name text =>
      rw [List.mem_singleton.mp isName]
      exact valid _ isPiece
  have isPath : substitutedPath platform tool.requestMapping arguments = Template.render
      (fun name => (pathEncoding platform tool.requestMapping.parameters arguments name).getD (braced name)) pieces := by
    unfold substitutedPath
    rw [← isSource, Template.substitute_source valid]
    rfl
  have folded := foldlM_addParameter valid Template.partly_braced distinct
    (fun parameter member target => ⟨(named _).mpr (List.mem_map_of_mem
      (List.mem_filter.mpr ⟨member, by simpa using target⟩)), rfl⟩) noBraces encodable [] [acceptHeader]
  rw [← isPath, show Template.render braced pieces = tool.requestMapping.path from isSource] at folded
  have clean : NoBraces (substitutedPath platform tool.requestMapping arguments) := by
    rw [isPath]
    refine Template.noBraces_render valid fun name member => ?_
    obtain ⟨parameter, isParameter, rfl⟩ := List.mem_map.mp ((named name).mp member)
    obtain ⟨isMember, target⟩ := List.mem_filter.mp isParameter
    obtain ⟨value, encoded, given, isEncoded⟩ := encodable parameter isMember (by simpa using target)
    have found : pathEncoding platform tool.requestMapping.parameters arguments parameter.sourceName = some encoded := by
      simp only [pathEncoding, find_pathParameter distinct isMember (by simpa using target), Option.bind_eq_bind,
        Option.bind_some, given, isEncoded]
      rfl
    rw [found]
    exact noBraces_pathValue isEncoded
  unfold buildRequest buildWithPath
  dsimp only
  rw [folded]
  refine congrArg _ (funext fun _ => ?_)
  cases ran : (tool.requestMapping.parameters.filter (·.target ≠ .path)).foldlM (addParameter platform arguments)
      ⟨substitutedPath platform tool.requestMapping arguments, [], [acceptHeader]⟩ with
  | error message => rfl
  | ok parts =>
    -- The other parameters leave the path as it was given to them.
    have kept : parts.path = substitutedPath platform tool.requestMapping arguments := by
      refine foldlM_induction (fun read state => (∀ parameter ∈ read, parameter.target ≠ .path) →
        state.path = substitutedPath platform tool.requestMapping arguments) (fun _ => rfl) ?_ ran ?_
      · intro read state parameter next holds stepped others
        rw [path_of_addParameter (others parameter (by simp)) stepped]
        exact holds fun other member => others other (List.mem_append_left _ member)
      · intro parameter member
        simpa using (List.mem_filter.mp member).2
    have checked : ensure (!(parts.path.contains '{' || parts.path.contains '}'))
        ("Not all path parameters were resolved" : Text) = .ok () := by
      rw [ensure_eq_ok, kept]
      simp [clean.1, clean.2]
    show (ensure _ _ >>= fun _ => _) = (buildBody platform arguments tool.requestMapping.body >>= fun _ => _)
    rw [checked, kept]
    rfl

/-- The path of a contract-valid tool whose path fields are all given: every placeholder is replaced at once by its
encoded argument, whatever the order of the mappings is, and the path always fits them. -/
theorem path_substituted_at_once (manifest : MCPManifest) (tool : MCPTool) (arguments : JsonObject)
    (policy : UpstreamUrlPolicy) (auth : AuthInjection) (valid : validateTool platform manifest tool = .ok ())
    (encodable : PathEncodable platform tool.requestMapping.parameters arguments) :
    ∀ order : List ParameterMapping, order.Perm tool.requestMapping.parameters →
      buildRequest platform (withParameters tool order) arguments policy auth =
        buildWithPath platform (withParameters tool order) arguments policy auth
          (substitutedPath platform tool.requestMapping arguments) ∧
      ∀ message, buildRequest platform (withParameters tool order) arguments policy auth = .error message →
        message ≠ "Manifest path mapping is inconsistent" ∧ message ≠ "Not all path parameters were resolved" := by
  intro order perm
  obtain ⟨distinct, pieces, isValid, isSource, named⟩ := pathMapped_of_validateTool valid
  have sameSources : ((order.filter (·.target = .path)).map ParameterMapping.sourceName).Perm
      ((tool.requestMapping.parameters.filter (·.target = .path)).map ParameterMapping.sourceName) := (perm.filter _).map _
  have orderNamed : ∀ name, name ∈ Template.names pieces ↔ name ∈ pathSources (withParameters tool order).requestMapping := by
    intro name
    rw [named name]
    exact sameSources.mem_iff.symm
  have built : buildRequest platform (withParameters tool order) arguments policy auth =
      buildWithPath platform (withParameters tool order) arguments policy auth
        (substitutedPath platform (withParameters tool order).requestMapping arguments) :=
    buildRequest_of_pieces policy auth isValid isSource (sameSources.nodup_iff.mpr distinct) orderNamed
      fun parameter member => encodable parameter (perm.mem_iff.mp member)
  have samePath : substitutedPath platform (withParameters tool order).requestMapping arguments =
      substitutedPath platform tool.requestMapping arguments := by
    unfold substitutedPath
    refine congrArg (Template.substitute · none tool.requestMapping.path) (funext fun name => ?_)
    exact congrArg (Option.getD · _) (pathEncoding_perm perm distinct name)
  rw [samePath] at built
  refine ⟨built, fun message raised => ?_⟩
  rw [built] at raised
  exact raisesUnrelated_buildWithPath _ policy auth _ message raised

end Substitution

/-- Two placeholders in one segment, and a name that begins like another. -/
def petTool : MCPTool where
  name := "get_pet"
  title := "get"
  description := "Get"
  inputSchema := [("type", .text "object"),
    ("properties", .object [("id", .object []), ("id2", .object [])])]
  operationKey := "get"
  requestMapping := {
    serverRef := "main"
    method := .get
    path := "/pets/\x7bid\x7d-\x7bid2\x7d/\x7bid\x7d"
    parameters := [{ toolField := "id", sourceName := "id", target := .path, required := true },
      { toolField := "id2", sourceName := "id2", target := .path, required := true }] }

def petArguments : JsonObject :=
  [("id", .text "\x7bid2\x7d"), ("id2", .array [.integer 7, .text "a/b"])]

/-- An argument that reads like a placeholder is text. -/
theorem placeholder_as_argument :
    buildRequest plainPlatform petTool petArguments ⟨[("main", ⟨"https", "api.example.com", 443, []⟩)], [], []⟩ {} =
      buildWithPath plainPlatform petTool petArguments ⟨[("main", ⟨"https", "api.example.com", 443, []⟩)], [], []⟩ {}
        "/pets/%7Bid2%7D-7,a%2Fb/%7Bid2%7D" := by
  have encodable : PathEncodable plainPlatform petTool.requestMapping.parameters petArguments := by
    intro parameter member _
    rcases List.mem_cons.mp member with rfl | later
    · exact ⟨.text "\x7bid2\x7d", "%7Bid2%7D", rfl, rfl⟩
    · rw [List.mem_singleton.mp later]
      exact ⟨.array [.integer 7, .text "a/b"], "7,a%2Fb", rfl, rfl⟩
  have path : substitutedPath plainPlatform petTool.requestMapping petArguments = "/pets/%7Bid2%7D-7,a%2Fb/%7Bid2%7D" := by
    decide +kernel
  rw [← path]
  exact (path_substituted_at_once (sampleManifest []) petTool petArguments _ _ (by decide +kernel) encodable
    petTool.requestMapping.parameters (List.Perm.refl _)).1

end Mcplica.Runtime
