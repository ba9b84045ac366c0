import Mcplica.Compilers.ShownSchemas
import Mcplica.Contracts.PathTemplate

/-! # Compiled tools and the manifest contract

Which operations compile to a tool that the contract accepts. -/

namespace Mcplica.Compilers

open Mcplica.Library Mcplica.Contracts
open Mcplica.Contracts.Json (entry)

variable {platform : Platform}

/-! ## Placeholders -/

theorem includes_placeholder {path name : Text} {names : List Text} (scanned : pathParameterNames path = .ok names)
    (member : name ∈ names) : path.includes ('{' :: name ++ ['}']) = true := by
  obtain ⟨pieces, -, rfl, rfl⟩ := exists_template scanned
  exact Text.includes_iff.mpr (Template.braced_infix_render member rfl)

/-! ## One tool -/

/-- What the compiler writes into the tool of an operation. -/
structure CompiledTool (platform : Platform) (authRef : Option Text) (operation : CanonicalOperation) (tool : MCPTool)
    (fields : RequestFields) (body : Option RequestBodyMapping) (responses : ResponseFields) : Prop where
  request : requestFields platform operation authRef.isSome = .ok (fields, body)
  response : responseFields platform operation = .ok responses
  server : operation.serverRef = some tool.requestMapping.serverRef
  method : tool.requestMapping.method = operation.method
  path : tool.requestMapping.path = operation.pathTemplate
  parameters : tool.requestMapping.parameters = fields.mappings
  body : tool.requestMapping.body = body
  inputSchema : tool.inputSchema = inputSchema fields
  outputSchema : tool.outputSchema = responseEnvelopeSchema responses
  responses : tool.responses = responses.definitions
  operationKey : tool.operationKey = operation.key
  securityProfileRef : tool.securityProfileRef = authRef
  enabled : tool.enabled = true

theorem compileTool_spec {options : CompilerOptions} {profileRefs : List (Text × Text)} {toolName : Text}
    {operation : CanonicalOperation} {tool : MCPTool}
    (compiled : compileTool platform options profileRefs toolName operation = .ok tool) :
    ∃ fields body responses,
      CompiledTool platform (profileRefs.lookup operation.key) operation tool fields body responses := by
  simp only [compileTool, bind_eq_ok, obtain?_eq_ok, validated_eq_ok] at compiled
  obtain ⟨serverRef, isServer, ⟨fields, body⟩, request, responses, response, -, -, same⟩ := compiled
  cases same
  exact ⟨fields, body, responses, request, response, isServer, rfl, rfl, rfl, rfl, rfl, rfl, rfl, rfl, rfl, rfl⟩

/-- The schemas that the tool of an operation shows. -/
def toolSchemas (platform : Platform) (hasCredential : Bool) (operation : CanonicalOperation) : List JsonObject :=
  inputDocument ((fieldSources platform hasCredential operation).foldl nameField []) ::
    (envelopeDocument (successBodies platform
      (Text.sortedBy CanonicalResponse.statusCode operation.responses))).toList ++
    (operation.responses.flatMap CanonicalResponse.content).map CanonicalMediaType.schema

/-- What the contract asks of an operation and the compiler does not look at. -/
structure Servable (platform : Platform) (hasCredential : Bool) (operation : CanonicalOperation) : Prop where
  path : validateOperationPath operation.pathTemplate = .ok ()
  destinations : ((callerParameters platform hasCredential operation.parameters).map fun parameter =>
    (parameter.location, parameter.name.lower platform.unicode)).Nodup
  headers : ∀ parameter ∈ callerParameters platform hasCredential operation.parameters, parameter.location = .header →
    parameter.name.lower platform.unicode ∉ Contracts.forbiddenCallerHeaders
  serialization : ∀ parameter ∈ callerParameters platform hasCredential operation.parameters,
    parameter.location ≠ .query →
      (parameter.style = none ∨ parameter.style = some ("simple" : Text)) ∧ parameter.allowReserved = false
  references : ∀ schema ∈ toolSchemas platform hasCredential operation, ReferencesResolve platform schema

section

variable {authRef : Option Text} {operation : CanonicalOperation} {tool : MCPTool} {fields : RequestFields}
  {body : Option RequestBodyMapping} {responses : ResponseFields}

theorem CompiledTool.mappedFields_eq (compiled : CompiledTool platform authRef operation tool fields body responses) :
    mappedFields tool.requestMapping = fieldNames fields ++ body.toList.map RequestBodyMapping.toolField := by
  rw [mappedFields, compiled.parameters, compiled.body, fieldNames]

/-- Every mapping comes from a parameter of the caller. -/
theorem exists_parameter_of_mapping {hasCredential : Bool} (requestOf : RequestOf platform hasCredential operation fields body)
    {mapping : ParameterMapping} (member : mapping ∈ fields.mappings) :
    ∃ parameter ∈ callerParameters platform hasCredential operation.parameters, Repeats parameter mapping := by
  obtain ⟨parameter, isCaller, repeats⟩ := exists_of_forall₂_right requestOf.repeats member
  exact ⟨parameter, ((perm_orderedParameters platform operation).filter _).mem_iff.mp isCaller, repeats⟩

theorem exists_mapping_of_parameter {hasCredential : Bool} (requestOf : RequestOf platform hasCredential operation fields body)
    {parameter : CanonicalParameter} (member : parameter ∈ callerParameters platform hasCredential operation.parameters) :
    ∃ mapping ∈ fields.mappings, Repeats parameter mapping := by
  obtain ⟨mapping, isMapping, repeats⟩ := exists_of_forall₂_left requestOf.repeats
    (((perm_orderedParameters platform operation).filter _).mem_iff.mpr member)
  exact ⟨mapping, isMapping, repeats⟩

/-! ### The mapping -/

theorem target_injective {left right : ParameterLocation} {target : ParameterTarget} (isLeft : left.target = some target)
    (isRight : right.target = some target) : left = right := by
  cases left <;> cases right <;> simp_all [ParameterLocation.target] <;> cases isLeft <;> cases isRight

/-- The destinations of the mappings are distinct when those of the parameters are. -/
theorem nodup_destinations_iff {hasCredential : Bool}
    (requestOf : RequestOf platform hasCredential operation fields body) :
    (fields.mappings.map (destination platform)).Nodup ↔
      ((callerParameters platform hasCredential operation.parameters).map fun parameter =>
        (parameter.location, parameter.name.lower platform.unicode)).Nodup := by
  have perm := ((perm_orderedParameters platform operation).filter fun parameter =>
    !replacedByCredential platform hasCredential parameter).map fun parameter =>
      (parameter.location, parameter.name.lower platform.unicode)
  show _ ↔ (List.map _ (operation.parameters.filter _)).Nodup
  rw [← perm.nodup_iff]
  unfold List.Nodup
  rw [List.pairwise_map, List.pairwise_map]
  refine pairwise_iff_of_forall₂ requestOf.repeats ?_
  intro parameter mapping other otherMapping repeats otherRepeats
  apply not_congr
  simp only [destination, Prod.mk.injEq, repeats.name, otherRepeats.name]
  refine and_congr_left fun _ => ⟨?_, ?_⟩
  · intro same
    exact target_injective repeats.target (same ▸ otherRepeats.target)
  · intro same
    have targets := repeats.target
    rw [same, otherRepeats.target] at targets
    exact (Option.some.inj targets).symm

theorem mem_properties_of_mapping {hasCredential : Bool}
    (requestOf : RequestOf platform hasCredential operation fields body) {mapping : ParameterMapping}
    (member : mapping ∈ fields.mappings) : (Json.get fields.properties mapping.toolField).isSome = true := by
  rw [Json.get_isSome, requestOf.names]
  exact List.mem_append_left _ (List.mem_map_of_mem member)

/-- The contract's check of one mapping, in terms of its parameter. -/
theorem validateParameter_iff {properties : JsonObject} {parameter : CanonicalParameter} {mapping : ParameterMapping}
    (repeats : Repeats parameter mapping) (present : (Json.get properties mapping.toolField).isSome = true)
    (placed : parameter.location = .path → tool.requestMapping.path.includes ('{' :: parameter.name ++ ['}']) = true) :
    validateParameter platform tool properties mapping = .ok () ↔
      (parameter.location = .header → parameter.name.lower platform.unicode ∉ Contracts.forbiddenCallerHeaders) ∧
      (parameter.location ≠ .query →
        (parameter.style = none ∨ parameter.style = some ("simple" : Text)) ∧ parameter.allowReserved = false) := by
  simp only [validateParameter, bind_eq_ok, ensure_eq_ok, exists_const_unit, present, true_and, repeats.name, repeats.style,
    repeats.allowReserved]
  have target := repeats.target
  generalize ("simple" : Text) = simple
  cases isLocation : parameter.location with
  | path =>
    rw [isLocation] at target
    have isPath : mapping.target = .path := (Option.some.inj target).symm
    have inPath : tool.requestMapping.path.includes ('{' :: (parameter.name ++ ['}'])) = true := placed isLocation
    simp [isPath, inPath]
  | query =>
    rw [isLocation] at target
    have isQuery : mapping.target = .query := (Option.some.inj target).symm
    simp [isQuery]
  | header =>
    rw [isLocation] at target
    have isHeader : mapping.target = .header := (Option.some.inj target).symm
    simp [isHeader]
  | cookie =>
    rw [isLocation] at target
    cases target

theorem mem_pathSources_iff {hasCredential : Bool} {mapping : RequestMapping}
    (requestOf : RequestOf platform hasCredential operation fields body) (isMappings : mapping.parameters = fields.mappings)
    {name : Text} : name ∈ pathSources mapping ↔ name ∈ operation.pathParameters := by
  simp only [pathSources, isMappings, CanonicalOperation.pathParameters, List.mem_map, List.mem_filter, decide_eq_true_eq]
  constructor
  · rintro ⟨parameterMapping, ⟨member, isPath⟩, rfl⟩
    obtain ⟨parameter, isCaller, repeats⟩ := exists_parameter_of_mapping requestOf member
    refine ⟨parameter, ⟨List.mem_of_mem_filter isCaller, ?_⟩, repeats.name.symm⟩
    exact target_injective repeats.target (isPath ▸ rfl)
  · rintro ⟨parameter, ⟨member, isPath⟩, rfl⟩
    have isCaller : parameter ∈ callerParameters platform hasCredential operation.parameters := by
      refine List.mem_filter.mpr ⟨member, ?_⟩
      simp [replacedByCredential, isPath]
    obtain ⟨parameterMapping, isMapping, repeats⟩ := exists_mapping_of_parameter requestOf isCaller
    refine ⟨parameterMapping, ⟨isMapping, ?_⟩, repeats.name⟩
    have target := repeats.target
    rw [isPath] at target
    exact (Option.some.inj target).symm

/-- The contract's checks of the mapping: those the compiler does not make are left. -/
theorem validateToolMapping_iff (valid : operation.Valid)
    (compiled : CompiledTool platform authRef operation tool fields body responses) :
    validateToolMapping platform tool = .ok () ↔
      validateOperationPath operation.pathTemplate = .ok () ∧
      ((callerParameters platform authRef.isSome operation.parameters).map fun parameter =>
        (parameter.location, parameter.name.lower platform.unicode)).Nodup ∧
      ∀ parameter ∈ callerParameters platform authRef.isSome operation.parameters,
        (parameter.location = .header → parameter.name.lower platform.unicode ∉ Contracts.forbiddenCallerHeaders) ∧
        (parameter.location ≠ .query →
          (parameter.style = none ∨ parameter.style = some ("simple" : Text)) ∧ parameter.allowReserved = false) := by
  have requestOf := requestFields_spec compiled.request
  obtain ⟨names, scanned, arePathParameters⟩ := valid.placeholders
  have fieldsUnique : repeated (mappedFields tool.requestMapping) = [] := by
    rw [repeated_eq_nil, compiled.mappedFields_eq]
    exact requestOf.unique
  have allMapped : (fields.properties.map Prod.fst).filter (fun field =>
      !(mappedFields tool.requestMapping).contains field) = [] := by
    rw [requestOf.names, ← compiled.mappedFields_eq, List.filter_eq_nil_iff]
    intro field member
    simpa using member
  have placed : ∀ parameter ∈ callerParameters platform authRef.isSome operation.parameters, parameter.location = .path →
      tool.requestMapping.path.includes ('{' :: parameter.name ++ ['}']) = true := by
    intro parameter isCaller isPath
    rw [compiled.path]
    refine includes_placeholder scanned ((arePathParameters _).mpr (List.mem_map_of_mem ?_))
    exact List.mem_filter.mpr ⟨List.mem_of_mem_filter isCaller, by simpa using isPath⟩
  have samePlaceholders : (names.all (pathSources tool.requestMapping).contains &&
      (pathSources tool.requestMapping).all names.contains) = true := by
    have sources : ∀ name, name ∈ pathSources tool.requestMapping ↔ name ∈ names := fun name =>
      (mem_pathSources_iff requestOf compiled.parameters).trans (arePathParameters name).symm
    simp only [Bool.and_eq_true, List.all_eq_true, List.contains_iff_mem]
    exact ⟨fun name member => (sources name).mpr member, fun name member => (sources name).mp member⟩
  have bodyChecks : ∀ mapping ∈ body.toList, (Json.get fields.properties mapping.toolField).isSome = true ∧
      (mapping.multipartFiles.map MultipartFileMapping.contentField).Nodup := by
    intro mapping member
    refine ⟨?_, requestOf.files valid mapping (Option.mem_toList.mp member)⟩
    rw [Json.get_isSome, requestOf.names]
    exact List.mem_append_right _ (List.mem_map_of_mem member)
  have parameterChecks : (∀ mapping ∈ fields.mappings, validateParameter platform tool fields.properties mapping = .ok ()) ↔
      ∀ parameter ∈ callerParameters platform authRef.isSome operation.parameters,
        (parameter.location = .header → parameter.name.lower platform.unicode ∉ Contracts.forbiddenCallerHeaders) ∧
        (parameter.location ≠ .query →
          (parameter.style = none ∨ parameter.style = some ("simple" : Text)) ∧ parameter.allowReserved = false) := by
    constructor
    · intro each parameter isCaller
      obtain ⟨mapping, member, repeats⟩ := exists_mapping_of_parameter requestOf isCaller
      exact (validateParameter_iff repeats (mem_properties_of_mapping requestOf member) (placed parameter isCaller)).mp
        (each mapping member)
    · intro each mapping member
      obtain ⟨parameter, isCaller, repeats⟩ := exists_parameter_of_mapping requestOf member
      exact (validateParameter_iff repeats (mem_properties_of_mapping requestOf member) (placed parameter isCaller)).mpr
        (each parameter isCaller)
  rw [← parameterChecks, ← nodup_destinations_iff requestOf]
  simp only [validateToolMapping, validateMappedFields, bind_eq_ok, ensure_eq_ok, obtain?_eq_ok, forM_eq_ok,
    compiled.inputSchema, schemaProperties_inputSchema, compiled.path, compiled.parameters, compiled.body, fieldsUnique,
    repeated_eq_nil, Option.some.injEq, exists_eq_left', allMapped, scanned, Except.ok.injEq, samePlaceholders,
    decide_eq_true_eq, exists_const_unit, Text.sorted_eq_nil]
  simp only [true_and]
  constructor
  · rintro ⟨⟨⟩, path, destinations, parameters, -⟩
    exact ⟨path, destinations, parameters⟩
  · rintro ⟨path, destinations, parameters⟩
    exact ⟨(), path, destinations, parameters, bodyChecks⟩

/-! ### The schemas -/

theorem validateToolSchemas_iff (schemasPass : ∀ schema ∈ operation.schemas, platform.checkSchema schema = true)
    (compiled : CompiledTool platform authRef operation tool fields body responses) :
    validateToolSchemas platform tool = .ok () ↔
      ∀ schema ∈ toolSchemas platform authRef.isSome operation, ReferencesResolve platform schema := by
  have responsesOf := responseFields_spec compiled.response
  have mediaPass : ∀ media ∈ orderedMedia operation, platform.checkSchema media.schema = true := by
    intro media member
    obtain ⟨response, isResponse, inResponse⟩ := mem_orderedMedia.mp member
    refine schemasPass _ (List.mem_append_right _ (List.mem_map_of_mem ?_))
    exact List.mem_flatMap.mpr ⟨response, isResponse, inResponse⟩
  have outputShape : tool.outputSchema.all isObjectSchema = true := by
    rw [compiled.outputSchema]
    cases made : responseEnvelopeSchema responses with
    | none => rfl
    | some schema => exact (checkSchema_envelope (responsesOf.passes mediaPass) made).2
  have schemas : toolSchemas platform authRef.isSome operation = [inputSchema fields] ++
      (responseEnvelopeSchema responses).toList ++
        (operation.responses.flatMap CanonicalResponse.content).map CanonicalMediaType.schema := by
    rw [toolSchemas, ← inputSchema_eq_inputDocument compiled.request,
      ← responseEnvelopeSchema_eq_envelopeDocument compiled.response]
    rfl
  have responseSchemas : (∀ response ∈ responses.definitions, ∀ schema ∈ response.schema.toList,
      ReferencesResolve platform schema) ↔
        ∀ schema ∈ (operation.responses.flatMap CanonicalResponse.content).map CanonicalMediaType.schema,
          ReferencesResolve platform schema := by
    have same : ∀ schema, (∃ response ∈ responses.definitions, schema ∈ response.schema.toList) ↔
        schema ∈ (operation.responses.flatMap CanonicalResponse.content).map CanonicalMediaType.schema := by
      intro schema
      have listed := responsesOf.schemas schema
      simp only [definitionSchemas, List.mem_filterMap] at listed
      simp only [Option.mem_toList, listed, List.mem_map, List.mem_flatMap, mem_orderedMedia]
    constructor
    · intro each schema member
      obtain ⟨response, isResponse, inResponse⟩ := (same schema).mpr member
      exact each response isResponse schema inResponse
    · intro each response isResponse schema inResponse
      exact each schema ((same schema).mp ⟨response, isResponse, inResponse⟩)
  rw [compiled.outputSchema] at outputShape
  rw [schemas]
  simp only [List.forall_mem_append, ← responseSchemas]
  simp only [validateToolSchemas, bind_eq_ok, ensure_eq_ok, forM_eq_ok, outputShape, compiled.inputSchema,
    isObjectSchema_inputSchema, compiled.outputSchema, compiled.responses, validateLocalSchemaReferences_iff,
    exists_const_unit, true_and, List.forall_mem_singleton]
  constructor
  · rintro ⟨_, input, output, response⟩
    exact ⟨⟨validateLocalSchemaReferences_iff.mp input, output⟩, response⟩
  · rintro ⟨⟨input, output⟩, response⟩
    exact ⟨(), validateLocalSchemaReferences_iff.mpr input, output, response⟩

/-- The contract accepts the tool of an operation when the operation is servable. -/
theorem validateTool_iff {manifest : MCPManifest} (valid : operation.Valid)
    (schemasPass : ∀ schema ∈ operation.schemas, platform.checkSchema schema = true)
    (compiled : CompiledTool platform authRef operation tool fields body responses)
    (knownServer : tool.requestMapping.serverRef ∈ manifest.serverIds)
    (knownProfile : (tool.securityProfileRef.all fun ref => ref = [] || manifest.authIds.contains ref) = true) :
    validateTool platform manifest tool = .ok () ↔ Servable platform authRef.isSome operation := by
  have references : validateToolReferences platform manifest tool = .ok () := by
    simp only [validateToolReferences, bind_eq_ok, ensure_eq_ok, exists_const_unit]
    exact ⟨List.contains_iff_mem.mpr knownServer, knownProfile⟩
  have unfolded : validateTool platform manifest tool = .ok () ↔
      validateToolSchemas platform tool = .ok () ∧ validateToolMapping platform tool = .ok () := by
    simp only [validateTool, bind_eq_ok, references]
    constructor
    · rintro ⟨_, _, _, schemas, mapping⟩
      exact ⟨schemas, mapping⟩
    · rintro ⟨schemas, mapping⟩
      exact ⟨(), trivial, (), schemas, mapping⟩
  rw [unfolded, validateToolSchemas_iff schemasPass compiled, validateToolMapping_iff valid compiled]
  constructor
  · rintro ⟨resolve, path, destinations, parameters⟩
    exact ⟨path, destinations, fun parameter member => (parameters parameter member).1,
      fun parameter member => (parameters parameter member).2, resolve⟩
  · intro servable
    exact ⟨servable.references, servable.path, servable.destinations, fun parameter member =>
      ⟨servable.headers parameter member, servable.serialization parameter member⟩⟩

end

end Mcplica.Compilers
