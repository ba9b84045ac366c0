import Mcplica.Compilers.Gate

/-! # The input mapping of a tool

How the fields of a tool's input schema correspond to the parameters and the body of its operation: every field
stands for one of them, every one of them has a field, and the schema asks for the fields of the required ones. -/

namespace Mcplica.Compilers

open Mcplica.Library Mcplica.Contracts
open Mcplica.Contracts.Json (entry)

variable {platform : Platform}

/-! ## Fields of the parameters -/

/-- The mapping says of the parameter all that the request needs. -/
structure Carries (parameter : CanonicalParameter) (mapping : ParameterMapping) : Prop
    extends Repeats parameter mapping where
  explode : mapping.explode = parameter.explode

/-- The tool fields of the required mappings. -/
def requiredFields (mappings : List ParameterMapping) : List Text :=
  (mappings.filter ParameterMapping.required).map ParameterMapping.toolField

structure CarriedBy (platform : Platform) (hasCredential : Bool) (read : List CanonicalParameter)
    (fields : RequestFields) : Prop where
  carries : List.Forall₂ Carries (callerParameters platform hasCredential read) fields.mappings
  required : fields.required = requiredFields fields.mappings

section

variable {operation : CanonicalOperation} {hasCredential : Bool} {read : List CanonicalParameter}
  {fields next : RequestFields} {parameter : CanonicalParameter}

theorem CarriedBy.addField (carried : CarriedBy platform hasCredential read fields) {target : ParameterTarget}
    (isTarget : parameter.location.target = some target)
    (callers : replacedByCredential platform hasCredential parameter = false)
    (added : addField platform operation fields parameter target = .ok next) :
    CarriedBy platform hasCredential (read ++ [parameter]) next := by
  simp only [Compilers.addField, bind_eq_ok] at added
  obtain ⟨⟨schema, definitions⟩, -, same⟩ := added
  cases same
  constructor
  · rw [callerParameters_append callers]
    exact List.rel_append carried.carries (.cons ⟨⟨rfl, isTarget, rfl, rfl, rfl⟩, rfl⟩ .nil)
  · simp only [requiredFields, List.filter_append, List.map_append]
    cases isRequired : parameter.required with
    | false => simpa [isRequired, requiredFields] using carried.required
    | true => simpa [isRequired, requiredFields] using carried.required

theorem CarriedBy.addParameter (carried : CarriedBy platform hasCredential read fields)
    (added : addParameter platform operation hasCredential fields parameter = .ok next) :
    CarriedBy platform hasCredential (read ++ [parameter]) next := by
  rcases addParameter_cases added with ⟨replaced, rfl⟩ | ⟨callers, target, isTarget, added⟩
  · exact { carried with carries := by rw [callerParameters_replaced replaced]; exact carried.carries }
  · exact carried.addField isTarget callers added

end

theorem parameterFields_carried {operation : CanonicalOperation} {hasCredential : Bool} {fields : RequestFields}
    (made : parameterFields platform operation hasCredential = .ok fields) :
    CarriedBy platform hasCredential (orderedParameters platform operation) fields :=
  foldlM_induction (CarriedBy platform hasCredential) ⟨.nil, rfl⟩
    (fun _ _ _ _ carried added => carried.addParameter added) made

/-! ## Fields of a whole request -/

/-- The tool field of a body that is required. -/
def requiredBody (body : Option RequestBodyMapping) : List Text :=
  (body.toList.filter RequestBodyMapping.required).map RequestBodyMapping.toolField

theorem requestFields_carried {operation : CanonicalOperation} {hasCredential : Bool} {fields : RequestFields}
    {body : Option RequestBodyMapping} (made : requestFields platform operation hasCredential = .ok (fields, body)) :
    List.Forall₂ Carries (callerParameters platform hasCredential (orderedParameters platform operation)) fields.mappings ∧
    fields.required = requiredFields fields.mappings ++ requiredBody body := by
  simp only [requestFields, bind_eq_ok] at made
  obtain ⟨parameters, isParameters, made⟩ := made
  have carried := parameterFields_carried isParameters
  split at made
  · cases made
    exact ⟨carried.carries, by simpa [requiredBody] using carried.required⟩
  · rename_i source given
    simp only [addBody, bind_eq_ok, obtain?_eq_ok] at made
    obtain ⟨⟨next, mapping⟩, ⟨media, -, ⟨schema, definitions⟩, -, mediaType, -, added⟩, same⟩ := made
    cases same
    cases added
    refine ⟨carried.carries, ?_⟩
    cases isRequired : source.required with
    | false => simpa [requiredBody, isRequired] using carried.required
    | true => simpa [requiredBody, isRequired] using carried.required

/-! ## The required fields of the schema -/

/-- The fields that an input schema asks for. -/
def schemaRequired (schema : JsonObject) : List Json :=
  match Json.get schema "required" with
  | some (.array items) => items
  | _ => []

theorem schemaRequired_inputSchema (fields : RequestFields) :
    schemaRequired (inputSchema fields) = (Text.sorted fields.required.dedup).map .string := by
  cases isRequired : fields.required with
  | nil =>
    simp only [inputSchema, isRequired, List.isEmpty_nil, if_true, List.append_nil]
    cases fields.definitions with
    | nil => rfl
    | cons definition rest => rfl
  | cons first rest =>
    simp only [inputSchema, isRequired, List.isEmpty_cons]
    rfl

theorem mem_schemaRequired_inputSchema {fields : RequestFields} {field : Text} :
    Json.string field ∈ schemaRequired (inputSchema fields) ↔ field ∈ fields.required := by
  have sorted : field ∈ Text.sorted fields.required.dedup ↔ field ∈ fields.required.dedup :=
    (Text.perm_sortedBy id _).mem_iff
  rw [schemaRequired_inputSchema, List.mem_map_of_injective (fun _ _ same => Json.string.inj same), sorted,
    List.mem_dedup]

/-! ## The mapping -/

/-- The fields of the tool stand for the caller's parameters and the body of the operation, one for one. -/
structure MapsInput (platform : Platform) (hasCredential : Bool) (operation : CanonicalOperation) (tool : MCPTool) :
    Prop where
  unique : (mappedFields tool.requestMapping).Nodup
  properties : ∃ properties, schemaProperties tool.inputSchema = some properties ∧
    properties.map Prod.fst = mappedFields tool.requestMapping
  /-- In some order, the parameters and the mappings correspond place by place. -/
  parameters : ∃ order, order.Perm (callerParameters platform hasCredential operation.parameters) ∧
    List.Forall₂ Carries order tool.requestMapping.parameters
  body : tool.requestMapping.body.map RequestBodyMapping.required =
    operation.requestBody.map CanonicalRequestBody.required
  required : ∀ field, Json.string field ∈ schemaRequired tool.inputSchema ↔
    (∃ mapping ∈ tool.requestMapping.parameters, mapping.toolField = field ∧ mapping.required = true) ∨
    ∃ mapping ∈ tool.requestMapping.body, mapping.toolField = field ∧ mapping.required = true

theorem mem_requiredFields {mappings : List ParameterMapping} {field : Text} :
    field ∈ requiredFields mappings ↔ ∃ mapping ∈ mappings, mapping.toolField = field ∧ mapping.required = true := by
  simp only [requiredFields, List.mem_map, List.mem_filter]
  constructor
  · rintro ⟨mapping, ⟨member, isRequired⟩, named⟩
    exact ⟨mapping, member, named, isRequired⟩
  · rintro ⟨mapping, member, named, isRequired⟩
    exact ⟨mapping, ⟨member, isRequired⟩, named⟩

theorem mem_requiredBody {body : Option RequestBodyMapping} {field : Text} :
    field ∈ requiredBody body ↔ ∃ mapping ∈ body, mapping.toolField = field ∧ mapping.required = true := by
  cases body with
  | none => simp [requiredBody]
  | some mapping =>
    cases isRequired : mapping.required with
    | false => simp [requiredBody, isRequired]
    | true =>
      have only : requiredBody (some mapping) = [mapping.toolField] := by simp [requiredBody, isRequired]
      rw [only, List.mem_singleton]
      constructor
      · intro same
        exact ⟨mapping, rfl, same.symm, isRequired⟩
      · intro ⟨other, isOther, named, _⟩
        rw [← named, Option.some.inj isOther]

/-- Whatever the names of its parameters are, the input of a compiled tool maps to its operation one for one. -/
theorem compiled_input_maps_operation {options : CompilerOptions} {profileRefs : List (Text × Text)} {toolName : Text}
    {operation : CanonicalOperation} {tool : MCPTool}
    (compiled : compileTool platform options profileRefs toolName operation = .ok tool) :
    MapsInput platform (profileRefs.lookup operation.key).isSome operation tool := by
  obtain ⟨fields, body, responses, isCompiled⟩ := compileTool_spec compiled
  have requestOf := requestFields_spec isCompiled.request
  obtain ⟨carries, required⟩ := requestFields_carried isCompiled.request
  constructor
  · rw [isCompiled.mappedFields_eq]
    exact requestOf.unique
  · refine ⟨fields.properties, ?_, ?_⟩
    · rw [isCompiled.inputSchema, schemaProperties_inputSchema]
    · rw [isCompiled.mappedFields_eq, requestOf.names]
  · refine ⟨_, (perm_orderedParameters platform operation).filter _, ?_⟩
    rw [isCompiled.parameters]
    exact carries
  · rw [isCompiled.body]
    exact requestOf.bodyRequired
  · intro field
    rw [isCompiled.inputSchema, mem_schemaRequired_inputSchema, required, isCompiled.parameters, isCompiled.body,
      List.mem_append, mem_requiredFields, mem_requiredBody]

/-! ## An `Authorization` header without a credential for it -/

/-- The runtime sends the credential of the profile as an `Authorization` header. -/
def suppliesAuthorization (platform : Platform) (profile : AuthProfile) : Bool :=
  let named := (profile.name.getD []).casefold platform.unicode = "authorization"
  match profile.type with
  | .none => false
  | .bearer | .basic | .oauth2ClientCredentials => true
  | .apiKey => profile.location = some .header && named
  | .staticHeader => named

/-- The operation takes an `Authorization` header and is secured by a key in the query. -/
def keyedApi : CanonicalApi :=
  { petsApi "Authorization" with
    securitySchemes := [("key", { type := .apiKey, location := some .query, name := some "api_key", sourceRef :=
      ⟨"v1", "#/components/securitySchemes/key"⟩ })]
    operations := [{ petsOperation "Authorization" with
      security := [⟨[("key", [])], ⟨"v1", "#/paths/~1pets/get/security/0"⟩⟩] }] }

theorem keyedApi_valid : keyedApi.Valid plainPlatform.urls where
  servers := (petsApi_valid "Authorization").servers
  serverKeys := List.nodup_singleton _
  operationKeys := List.nodup_singleton _
  operations := by
    have valid := (petsApi_valid "Authorization").operations _ List.mem_cons_self
    intro operation member
    rw [List.mem_singleton.mp member]
    exact ⟨valid.rooted, valid.candidates, valid.pathParametersRequired, valid.placeholders, valid.body,
      valid.dictionaries⟩
  serverRefs := by
    intro operation member ref isRef
    rw [List.mem_singleton.mp member] at isRef
    cases isRef
    exact List.mem_singleton.mpr rfl
  tokenUrls := by
    intro scheme member url isUrl
    rw [List.mem_singleton.mp member] at isUrl
    cases isUrl
  sourceFingerprint := (petsApi_valid "Authorization").sourceFingerprint

def keySelection (operationKey : Text) : Option BuildSecuritySelection :=
  if operationKey = "op1" then some { schemeName := "key", credentialRef := "PETS_KEY" } else none

/-- The manifest maps no parameter, and its only profile supplies no `Authorization` header. -/
def headerLost (manifest : MCPManifest) : Bool :=
  manifest.tools.all (fun tool => tool.requestMapping.parameters.isEmpty && tool.operationKey = "op1") &&
    !manifest.tools.isEmpty && manifest.authProfiles.all fun profile => !suppliesAuthorization plainPlatform profile

/-- With a key in the query, the `Authorization` header of the operation is dropped all the same. -/
theorem keyed_authorization_header_dropped :
    ¬ ∀ (platform : Platform) (hashing : Hashing) (options : CompilerOptions) (api : CanonicalApi)
      (selections : Text → Option BuildSecuritySelection) (excluded : List Text) (manifest : MCPManifest),
      api.Valid platform.urls → compileManifest platform hashing options api selections excluded = .ok manifest →
      ∀ operation ∈ executableOperations api excluded, ∀ tool ∈ manifest.tools, tool.operationKey = operation.key →
      ∀ parameter ∈ operation.parameters, parameter.location ≠ .cookie →
      (¬ (parameter.location = .header ∧ parameter.name.casefold platform.unicode = "authorization" ∧
        ∃ profile ∈ manifest.authProfiles, tool.securityProfileRef = some profile.id ∧
          suppliesAuthorization platform profile = true)) →
      ∃ mapping ∈ tool.requestMapping.parameters, Carries parameter mapping := by
  intro always
  have compiles : (compileManifest plainPlatform zeroHashing petsOptions keyedApi keySelection []).map headerLost =
      .ok true := by rfl
  cases isCompiled : compileManifest plainPlatform zeroHashing petsOptions keyedApi keySelection [] with
  | error failure =>
    rw [isCompiled] at compiles
    cases compiles
  | ok manifest =>
    rw [isCompiled] at compiles
    have lost : headerLost manifest = true := Except.ok.inj compiles
    simp only [headerLost, Bool.and_eq_true, List.all_eq_true, Bool.not_eq_true', decide_eq_true_eq] at lost
    obtain ⟨⟨tools, notEmpty⟩, profiles⟩ := lost
    obtain ⟨tool, isTool⟩ := List.exists_mem_of_ne_nil manifest.tools (by simpa using notEmpty)
    obtain ⟨noMapping, named⟩ := tools tool isTool
    obtain ⟨mapping, isMapping, -⟩ := always _ _ _ _ _ _ manifest keyedApi_valid isCompiled _ List.mem_cons_self
      tool isTool named (petsHeader "Authorization") List.mem_cons_self (by decide) (by
        rintro ⟨-, -, profile, isProfile, -, supplies⟩
        rw [profiles profile isProfile] at supplies
        cases supplies)
    rw [List.isEmpty_iff.mp noMapping] at isMapping
    cases isMapping

/-! ## Names that look generated -/

def namedParameter (name : Text) (location : ParameterLocation) (required : Bool) : CanonicalParameter where
  name
  location
  required
  schema := [entry "type" (.text "string")]
  sourceRef := ⟨"v1", "#/paths/~1pets~1{id}/put/parameters"⟩

/-- The parameters have the names that the compiler would make up. -/
def clashingOperation : CanonicalOperation where
  key := "op1"
  toolNameSeed := "put_pet"
  method := .put
  pathTemplate := "/pets/\x7bid\x7d"
  serverRef := some "main"
  serverCandidates := ["main"]
  parameters := [namedParameter "id" .path true, namedParameter "id" .query false, namedParameter "query_id" .query true,
    namedParameter "body" .header true, namedParameter "query_body" .query false]
  requestBody := some {
    required := true
    content := [{
      mediaType := "application/json"
      schema := [entry "type" (.text "object")]
      sourceRef := ⟨"v1", "#/paths/~1pets~1{id}/put/requestBody/content/application~1json"⟩ }]
    sourceRef := ⟨"v1", "#/paths/~1pets~1{id}/put/requestBody"⟩ }
  provenance := ⟨⟨"v1", "#/paths/~1pets~1{id}/put"⟩, []⟩

theorem clashing_names_map :
    ∃ tool, compileTool plainPlatform petsOptions [] "put_pet" clashingOperation = .ok tool ∧
      mappedFields tool.requestMapping = ["body", "id", "query_id", "query_body", "query_query_id", "query_body_2"] ∧
      MapsInput plainPlatform false clashingOperation tool := by
  have compiles : (compileTool plainPlatform petsOptions [] "put_pet" clashingOperation).map
      (fun tool => mappedFields tool.requestMapping) =
      .ok ["body", "id", "query_id", "query_body", "query_query_id", "query_body_2"] := by rfl
  cases isCompiled : compileTool plainPlatform petsOptions [] "put_pet" clashingOperation with
  | error failure =>
    rw [isCompiled] at compiles
    cases compiles
  | ok tool =>
    rw [isCompiled] at compiles
    exact ⟨tool, rfl, Except.ok.inj compiles, compiled_input_maps_operation isCompiled⟩

end Mcplica.Compilers
