import Mcplica.Compilers.Compiler

/-! # The fields of a compiled tool

What the compiler guarantees of the fields it makes of an operation's parameters and body: their names are
distinct, every mapping repeats its parameter, and the assembled schemas pass the meta-schema. -/

namespace Mcplica.Compilers

open Mcplica.Library Mcplica.Contracts
open Mcplica.Contracts.Json (entry)

variable {platform : Platform}

/-! ## Field names -/

theorem nodup_numberedNames (base : Text) (count : Nat) : (numberedNames base count).Nodup := by
  refine List.nodup_cons.mpr ⟨?_, (List.nodup_range).map ?_⟩
  · intro member
    obtain ⟨index, -, same⟩ := List.mem_map.mp member
    have lengths := congrArg List.length same
    simp at lengths
  · intro left right same
    have suffixes := List.append_cancel_left same
    rw [List.cons.injEq] at suffixes
    have numbers := Text.ofNat_injective suffixes.2
    omega

theorem freeName_not_mem (base : Text) (used : List Text) : freeName base used ∉ used := by
  unfold freeName
  cases found : (numberedNames base used.length).find? (fun candidate => !used.contains candidate) with
  | none =>
    -- All candidates would be used, but there is one more of them.
    have taken : numberedNames base used.length ⊆ used := by
      intro candidate member
      simpa using List.find?_eq_none.mp found candidate member
    have fits := (List.subperm_of_subset (nodup_numberedNames base used.length) taken).length_le
    simp only [numberedNames, List.length_cons, List.length_map, List.length_range] at fits
    omega
  | some candidate => simpa using List.find?_some found

theorem uniqueFieldName_not_mem (name : Text) (location : ParameterLocation) (used : List Text) :
    uniqueFieldName name location used ∉ used :=
  freeName_not_mem _ used

/-! ## Definitions -/

/-- Every value of the dictionary passes the meta-schema. -/
def SchemasPass (platform : Platform) (fields : JsonObject) : Prop :=
  ∀ field ∈ fields, platform.metaSchema.check field.2 = true

/-- Every keyword of the schema passes the meta-schema. -/
theorem checkSchema_iff {schema : JsonObject} : platform.checkSchema schema = true ↔
    ∀ field ∈ schema, platform.metaSchema.keyword field.1 field.2 = true := by
  unfold Platform.checkSchema
  rw [platform.metaSchema.object, List.all_eq_true]

theorem keyword_schemaMap {key : Text} (isMap : key ∈ schemaMapKeywords) {fields : JsonObject} :
    platform.metaSchema.keyword key (.object fields) = true ↔ SchemasPass platform fields := by
  rw [platform.metaSchema.schemaMap key isMap, List.all_eq_true]
  rfl

theorem properties_mem_schemaMapKeywords : ("properties" : Text) ∈ schemaMapKeywords := by decide

theorem defs_mem_schemaMapKeywords : ("$defs" : Text) ∈ schemaMapKeywords := by decide

theorem checkSchema_pop {schema : JsonObject} (passes : platform.checkSchema schema = true) (key : Text) :
    platform.checkSchema (Json.pop schema key) = true := by
  rw [checkSchema_iff] at passes ⊢
  exact fun field member => passes field (List.mem_of_mem_filter member)

theorem checkSchema_set {schema : JsonObject} {key : Text} {value : Json} (passes : platform.checkSchema schema = true)
    (keyword : platform.metaSchema.keyword key value = true) : platform.checkSchema (Json.set schema key value) = true := by
  rw [checkSchema_iff] at passes ⊢
  intro field member
  rcases Json.mem_set member with rfl | old
  · exact keyword
  · exact passes field old

theorem schemasPass_set {fields : JsonObject} {key : Text} {value : Json} (passes : SchemasPass platform fields)
    (checked : platform.metaSchema.check value = true) : SchemasPass platform (Json.set fields key value) := by
  intro field member
  rcases Json.mem_set member with rfl | old
  · exact checked
  · exact passes field old

theorem addDefinition_eq {operation : CanonicalOperation} {definitions next : JsonObject} {field : Text × Json}
    (added : addDefinition platform operation definitions field = .ok next) :
    next = Json.set definitions field.1 field.2 := by
  unfold addDefinition at added
  split at added
  · cases added
    rfl
  · cases added
    rfl
  · split at added
    · cases added
      rfl
    · cases added

theorem hoistDefinitions_spec {operation : CanonicalOperation} {schema definitions rest next : JsonObject}
    (hoisted : hoistDefinitions platform operation schema definitions = .ok (rest, next))
    (passes : platform.checkSchema schema = true) (definitionsPass : SchemasPass platform definitions) :
    rest = Json.pop schema "$defs" ∧ platform.checkSchema rest = true ∧ SchemasPass platform next := by
  unfold hoistDefinitions at hoisted
  split at hoisted
  · cases hoisted
    exact ⟨rfl, checkSchema_pop passes _, definitionsPass⟩
  · cases hoisted
    exact ⟨rfl, checkSchema_pop passes _, definitionsPass⟩
  · rename_i rawDefinitions found
    rw [bind_eq_ok] at hoisted
    obtain ⟨merged, ran, same⟩ := hoisted
    cases same
    have rawPass : SchemasPass platform rawDefinitions :=
      (keyword_schemaMap defs_mem_schemaMapKeywords).mp (checkSchema_iff.mp passes _ (Json.mem_of_get found))
    refine ⟨rfl, checkSchema_pop passes _, ?_⟩
    refine foldlM_induction (fun read merged => SchemasPass platform read → SchemasPass platform merged)
      (fun _ => definitionsPass) ?_ ran rawPass
    intro read merged field next holds added readPass
    rw [addDefinition_eq added]
    refine schemasPass_set (holds fun other member => readPass other (List.mem_append_left _ member)) ?_
    exact readPass field (List.mem_append_right _ List.mem_cons_self)
  · cases hoisted

/-! ## Parameters -/

/-- The parameters that the caller supplies. -/
def callerParameters (platform : Platform) (hasCredential : Bool) (parameters : List CanonicalParameter) :
    List CanonicalParameter :=
  parameters.filter fun parameter => !replacedByCredential platform hasCredential parameter

/-- The mapping repeats what the parameter says. -/
structure Repeats (parameter : CanonicalParameter) (mapping : ParameterMapping) : Prop where
  name : mapping.sourceName = parameter.name
  target : parameter.location.target = some mapping.target
  required : mapping.required = parameter.required
  style : mapping.style = parameter.style
  allowReserved : mapping.allowReserved = parameter.allowReserved

def fieldNames (fields : RequestFields) : List Text :=
  fields.mappings.map ParameterMapping.toolField

structure FieldsOf (platform : Platform) (hasCredential : Bool) (read : List CanonicalParameter)
    (fields : RequestFields) : Prop where
  repeats : List.Forall₂ Repeats (callerParameters platform hasCredential read) fields.mappings
  names : fields.properties.map Prod.fst = fieldNames fields
  used : ∀ name ∈ fieldNames fields, name ∈ fields.usedFields
  unique : (fieldNames fields).Nodup
  passes : (∀ parameter ∈ read, platform.checkSchema parameter.schema = true) →
    SchemasPass platform fields.properties ∧ SchemasPass platform fields.definitions

theorem fieldsOf_empty (platform : Platform) (hasCredential : Bool) : FieldsOf platform hasCredential [] {} where
  repeats := .nil
  names := rfl
  used _ member := by cases member
  unique := List.nodup_nil
  passes _ := ⟨(fun _ member => by cases member), (fun _ member => by cases member)⟩

theorem checkSchema_describe {schema : JsonObject} (passes : platform.checkSchema schema = true)
    (description : Option Text) : platform.checkSchema (describe schema description) = true := by
  unfold describe
  split
  · split
    · exact checkSchema_set passes (platform.metaSchema.description _)
    · exact passes
  · exact passes

theorem checkSchema_type {name : String} (isType : name.toList ∈ simpleTypes) :
    platform.checkSchema [entry "type" (.text name)] = true := by
  rw [checkSchema_iff]
  intro field member
  rw [List.mem_singleton.mp member]
  exact platform.metaSchema.type _ isType

section AddField

variable {operation : CanonicalOperation} {hasCredential : Bool} {read : List CanonicalParameter}
  {fields next : RequestFields} {parameter : CanonicalParameter}

theorem callerParameters_replaced (replaced : replacedByCredential platform hasCredential parameter = true) :
    callerParameters platform hasCredential (read ++ [parameter]) = callerParameters platform hasCredential read := by
  simp [callerParameters, replaced]

theorem callerParameters_append (callers : replacedByCredential platform hasCredential parameter = false) :
    callerParameters platform hasCredential (read ++ [parameter]) =
      callerParameters platform hasCredential read ++ [parameter] := by
  simp [callerParameters, callers]

theorem FieldsOf.addField (fieldsOf : FieldsOf platform hasCredential read fields) {target : ParameterTarget}
    (isTarget : parameter.location.target = some target)
    (callers : replacedByCredential platform hasCredential parameter = false)
    (added : addField platform operation fields parameter target = .ok next) :
    FieldsOf platform hasCredential (read ++ [parameter]) next := by
  simp only [Compilers.addField, bind_eq_ok] at added
  obtain ⟨⟨schema, definitions⟩, hoisted, same⟩ := added
  cases same
  have fresh := uniqueFieldName_not_mem parameter.name parameter.location fields.usedFields
  have absent : uniqueFieldName parameter.name parameter.location fields.usedFields ∉ fieldNames fields :=
    fun member => fresh (fieldsOf.used _ member)
  have written : ∀ value, Json.set fields.properties
      (uniqueFieldName parameter.name parameter.location fields.usedFields) value = fields.properties ++
        [(uniqueFieldName parameter.name parameter.location fields.usedFields, value)] :=
    Json.set_of_not_mem (by rw [fieldsOf.names]; exact absent)
  refine ⟨?_, ?_, ?_, ?_, ?_⟩
  · rw [callerParameters_append callers]
    exact List.rel_append fieldsOf.repeats (.cons ⟨rfl, isTarget, rfl, rfl, rfl⟩ .nil)
  · simp only [written, List.map_append, fieldNames, List.map_cons, List.map_nil]
    rw [fieldsOf.names]
    rfl
  · intro name member
    simp only [fieldNames, List.map_append, List.mem_append, List.map_cons, List.map_nil, List.mem_singleton] at member
    rcases member with old | rfl
    · exact List.mem_cons_of_mem _ (fieldsOf.used name old)
    · exact List.mem_cons_self
  · simp only [fieldNames, List.map_append, List.map_cons, List.map_nil]
    exact fieldsOf.unique.append (List.nodup_singleton _) (by simpa using absent)
  · intro readPass
    obtain ⟨propertiesPass, definitionsPass⟩ :=
      fieldsOf.passes fun other member => readPass other (List.mem_append_left _ member)
    obtain ⟨-, restPasses, nextPasses⟩ := hoistDefinitions_spec hoisted
      (readPass parameter (List.mem_append_right _ List.mem_cons_self)) definitionsPass
    refine ⟨schemasPass_set propertiesPass ?_, nextPasses⟩
    split
    · exact checkSchema_type (by decide)
    · exact checkSchema_describe restPasses parameter.description

/-- A parameter is left to the credential, or it becomes a field. -/
theorem addParameter_cases (added : addParameter platform operation hasCredential fields parameter = .ok next) :
    (replacedByCredential platform hasCredential parameter = true ∧ next = fields) ∨
    (replacedByCredential platform hasCredential parameter = false ∧ ∃ target,
      parameter.location.target = some target ∧ addField platform operation fields parameter target = .ok next) := by
  unfold Compilers.addParameter at added
  dsimp only at added
  split at added
  · cases added
  · split at added
    · cases added
    · rename_i target isTarget
      split at added
      · split at added
        · rename_i replaced
          cases added
          exact .inl ⟨replaced, rfl⟩
        · cases added
      · rename_i allowed
        refine .inr ⟨?_, target, isTarget, added⟩
        -- A header that a credential replaces is one of the forbidden ones.
        by_contra replaced
        rw [Bool.not_eq_false] at replaced
        simp only [replacedByCredential, Bool.and_eq_true, decide_eq_true_eq] at replaced
        apply allowed
        simp only [Bool.and_eq_true, decide_eq_true_eq]
        refine ⟨replaced.1.1, ?_⟩
        rw [replaced.1.2]
        decide

theorem FieldsOf.addParameter (fieldsOf : FieldsOf platform hasCredential read fields)
    (added : addParameter platform operation hasCredential fields parameter = .ok next) :
    FieldsOf platform hasCredential (read ++ [parameter]) next := by
  rcases addParameter_cases added with ⟨replaced, rfl⟩ | ⟨callers, target, isTarget, added⟩
  · exact { fieldsOf with
      repeats := by rw [callerParameters_replaced replaced]; exact fieldsOf.repeats
      passes := fun readPass => fieldsOf.passes fun other member => readPass other (List.mem_append_left _ member) }
  · exact fieldsOf.addField isTarget callers added

end AddField

/-- The parameters of the operation in the order in which the compiler reads them. -/
def orderedParameters (platform : Platform) (operation : CanonicalOperation) : List CanonicalParameter :=
  operation.parameters.insertionSort fun left right => parameterBefore platform left right

theorem perm_orderedParameters (platform : Platform) (operation : CanonicalOperation) :
    (orderedParameters platform operation).Perm operation.parameters :=
  List.perm_insertionSort _ _

theorem parameterFields_spec {operation : CanonicalOperation} {hasCredential : Bool} {fields : RequestFields}
    (made : parameterFields platform operation hasCredential = .ok fields) :
    FieldsOf platform hasCredential (orderedParameters platform operation) fields :=
  foldlM_induction (FieldsOf platform hasCredential) (fieldsOf_empty platform hasCredential)
    (fun _ _ _ _ fieldsOf added => fieldsOf.addParameter added) made

/-! ## Bodies -/

theorem contentField_of_file {requiredNames : List Text} {property : Text × Json} {file : MultipartFileMapping}
    (made : (match property.2 with
      | .object fields => if isBinary fields then some ({
          partName := property.1
          contentField := property.1
          defaultFilename := property.1 ++ (".bin" : Text)
          required := requiredNames.contains property.1 } : MultipartFileMapping) else none
      | _ => none) = some file) :
    file.contentField = property.1 := by
  split at made
  · split at made
    · cases made
      rfl
    · cases made
  · cases made

theorem nodup_multipartFiles {media : CanonicalMediaType} (dictionary : (Json.object media.schema).WellFormed) :
    ((multipartFiles media).map MultipartFileMapping.contentField).Nodup := by
  unfold multipartFiles
  split
  · rename_i properties found
    have inner : (Json.object properties).WellFormed := Json.wellFormed_of_mem dictionary.2 (Json.mem_of_get found)
    have keys : (Text.sortedBy Prod.fst properties).Pairwise fun left right => left.1 ≠ right.1 :=
      List.pairwise_map.mp (((Text.perm_sortedBy Prod.fst properties).map Prod.fst).nodup_iff.mpr inner.1)
    refine List.pairwise_map.mpr (keys.filterMap _ ?_)
    intro left right different file isFile other isOther same
    apply different
    rw [← contentField_of_file isFile, ← contentField_of_file isOther]
    exact same
  · exact List.nodup_nil

theorem checkSchema_encodeBinaryProperties {schema : JsonObject} (passes : platform.checkSchema schema = true) :
    platform.checkSchema (encodeBinaryProperties schema) = true := by
  unfold encodeBinaryProperties
  split
  · rename_i properties found
    have propertiesPass : SchemasPass platform properties :=
      (keyword_schemaMap properties_mem_schemaMapKeywords).mp (checkSchema_iff.mp passes _ (Json.mem_of_get found))
    refine checkSchema_set passes ((keyword_schemaMap properties_mem_schemaMapKeywords).mpr ?_)
    intro field member
    obtain ⟨⟨name, value⟩, valueMember, rfl⟩ := List.mem_map.mp member
    have valuePasses := propertiesPass _ valueMember
    show platform.metaSchema.check (encodeBinary value) = true
    unfold encodeBinary
    split
    · split
      · exact checkSchema_set valuePasses (platform.metaSchema.contentEncoding _)
      · exact valuePasses
    · exact valuePasses
  · exact passes

theorem selectRequestMedia_mem {operation : CanonicalOperation} {body : CanonicalRequestBody} {media : CanonicalMediaType}
    (selected : selectRequestMedia platform operation body = .ok media) : media ∈ body.content := by
  simp only [selectRequestMedia, obtain?_eq_ok] at selected
  obtain ⟨mediaType, -, found⟩ := List.exists_of_findSome?_eq_some selected
  exact List.mem_reverse.mp (List.mem_of_find?_eq_some found)

/-- The fields of a whole tool. -/
structure RequestOf (platform : Platform) (hasCredential : Bool) (operation : CanonicalOperation)
    (fields : RequestFields) (body : Option RequestBodyMapping) : Prop where
  repeats : List.Forall₂ Repeats (callerParameters platform hasCredential (orderedParameters platform operation))
    fields.mappings
  names : fields.properties.map Prod.fst = fieldNames fields ++ body.toList.map RequestBodyMapping.toolField
  unique : (fieldNames fields ++ body.toList.map RequestBodyMapping.toolField).Nodup
  passes : (∀ schema ∈ operation.schemas, platform.checkSchema schema = true) →
    SchemasPass platform fields.properties ∧ SchemasPass platform fields.definitions
  bodyRequired : body.map RequestBodyMapping.required = operation.requestBody.map CanonicalRequestBody.required
  files : operation.Valid → ∀ mapping ∈ body, (mapping.multipartFiles.map MultipartFileMapping.contentField).Nodup

theorem parameterSchema_mem {operation : CanonicalOperation} {parameter : CanonicalParameter}
    (member : parameter ∈ orderedParameters platform operation) : parameter.schema ∈ operation.schemas := by
  refine List.mem_append_left _ (List.mem_append_left _ (List.mem_map_of_mem ?_))
  exact (perm_orderedParameters platform operation).mem_iff.mp member

theorem bodySchema_mem {operation : CanonicalOperation} {body : CanonicalRequestBody} {media : CanonicalMediaType}
    (given : operation.requestBody = some body) (member : media ∈ body.content) :
    media.schema ∈ operation.schemas := by
  refine List.mem_append_left _ (List.mem_append_right _ (List.mem_map_of_mem ?_))
  exact List.mem_flatMap.mpr ⟨body, by rw [given]; exact List.mem_singleton.mpr rfl, member⟩

theorem requestFields_spec {operation : CanonicalOperation} {hasCredential : Bool} {fields : RequestFields}
    {body : Option RequestBodyMapping} (made : requestFields platform operation hasCredential = .ok (fields, body)) :
    RequestOf platform hasCredential operation fields body := by
  simp only [requestFields, bind_eq_ok] at made
  obtain ⟨parameters, isParameters, made⟩ := made
  have fieldsOf := parameterFields_spec isParameters
  have parametersPass (all : ∀ schema ∈ operation.schemas, platform.checkSchema schema = true) :=
    fieldsOf.passes fun parameter member => all _ (parameterSchema_mem member)
  split at made
  · rename_i without
    cases made
    refine ⟨fieldsOf.repeats, ?_, ?_, parametersPass, ?_, ?_⟩
    · simpa using fieldsOf.names
    · simpa using fieldsOf.unique
    · rw [without]
      rfl
    · intro _ mapping member
      cases member
  · rename_i source given
    simp only [addBody, bind_eq_ok, obtain?_eq_ok] at made
    obtain ⟨⟨next, mapping⟩, ⟨media, selected, ⟨schema, definitions⟩, hoisted, mediaType, -, added⟩, same⟩ := made
    cases same
    cases added
    have member := selectRequestMedia_mem selected
    have fresh := uniqueFieldName_not_mem "body" .query parameters.usedFields
    have absent : uniqueFieldName "body" .query parameters.usedFields ∉ fieldNames parameters :=
      fun used => fresh (fieldsOf.used _ used)
    refine ⟨fieldsOf.repeats, ?_, ?_, ?_, ?_, ?_⟩
    · show (Json.set _ _ _).map Prod.fst = _
      rw [Json.set_of_not_mem (by rw [fieldsOf.names]; exact absent), List.map_append, fieldsOf.names]
      rfl
    · exact fieldsOf.unique.append (List.nodup_singleton _) (by simpa using absent)
    · intro all
      obtain ⟨propertiesPass, definitionsPass⟩ := parametersPass all
      obtain ⟨-, restPasses, nextPasses⟩ :=
        hoistDefinitions_spec hoisted (all _ (bodySchema_mem given member)) definitionsPass
      refine ⟨schemasPass_set propertiesPass ?_, nextPasses⟩
      split
      · exact checkSchema_encodeBinaryProperties restPasses
      · exact restPasses
    · rw [given]
      rfl
    · intro valid mapping isMapping
      cases isMapping
      exact nodup_multipartFiles (valid.dictionaries _ (bodySchema_mem given member))

/-! ## The input schema -/

theorem checkSchema_inputSchema {fields : RequestFields} (propertiesPass : SchemasPass platform fields.properties)
    (definitionsPass : SchemasPass platform fields.definitions) : platform.checkSchema (inputSchema fields) = true := by
  have nodup : (Text.sorted fields.required.dedup).Nodup :=
    (Text.perm_sortedBy id _).nodup_iff.mpr (List.nodup_dedup _)
  rw [checkSchema_iff]
  intro field member
  simp only [inputSchema, List.mem_append, List.mem_cons, List.not_mem_nil, or_false] at member
  rcases member with ((rfl | rfl | rfl) | isRequired) | isDefinitions
  · exact platform.metaSchema.type _ (by decide)
  · exact (keyword_schemaMap properties_mem_schemaMapKeywords).mpr propertiesPass
  · rw [show (entry "additionalProperties" (.bool false)).1 = ("additionalProperties" : Text) from rfl,
      platform.metaSchema.additionalProperties]
    exact platform.metaSchema.boolean false
  · split at isRequired
    · cases isRequired
    · rw [List.mem_singleton.mp isRequired]
      exact platform.metaSchema.required _ nodup
  · split at isDefinitions
    · cases isDefinitions
    · rw [List.mem_singleton.mp isDefinitions]
      exact (keyword_schemaMap defs_mem_schemaMapKeywords).mpr definitionsPass

theorem isObjectSchema_inputSchema (fields : RequestFields) : isObjectSchema (inputSchema fields) = true := rfl

theorem schemaProperties_inputSchema (fields : RequestFields) :
    schemaProperties (inputSchema fields) = some fields.properties := rfl

end Mcplica.Compilers
