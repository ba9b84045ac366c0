import Mcplica.Compilers.Responses

/-! # The schemas that a tool shows

The input schema and the response envelope of a tool, put together from the schemas of its operation, and what the
contract asks of the references in a schema. -/

namespace Mcplica.Compilers

open Mcplica.Library Mcplica.Contracts
open Mcplica.Contracts.Json (entry)

variable {platform : Platform}

/-! ## References -/

/-- Somewhere in the value a member `$ref` has this value; null stands for no reference. -/
inductive Refers : Json → Json → Prop
  | own {fields reference} : Json.get fields "$ref" = some reference → reference ≠ .null → Refers (.object fields) reference
  | member {fields field reference} : field ∈ fields → Refers field.2 reference → Refers (.object fields) reference
  | item {items item reference} : item ∈ items → Refers item reference → Refers (.array items) reference

theorem refers_of_mem {value reference : Json} (found : reference ∈ value.references) : Refers value reference := by
  match value with
  | .object fields =>
    rcases Json.mem_references_object.mp found with ⟨isOwn, given⟩ | ⟨field, member, inField⟩
    · exact .own isOwn given
    · have smaller : sizeOf field.2 < 1 + sizeOf fields := by
        have inFields := List.sizeOf_lt_of_mem member
        obtain ⟨key, inner⟩ := field
        simp only [Prod.mk.sizeOf_spec] at inFields ⊢
        omega
      exact .member member (refers_of_mem inField)
  | .array items =>
    obtain ⟨item, member, inItem⟩ := Json.mem_references_array.mp found
    have smaller : sizeOf item < 1 + sizeOf items := by
      have inItems := List.sizeOf_lt_of_mem member
      omega
    exact .item member (refers_of_mem inItem)
  | .null | .bool _ | .number _ _ | .string _ => cases found
termination_by sizeOf value

theorem mem_references_iff {value reference : Json} : reference ∈ value.references ↔ Refers value reference := by
  refine ⟨refers_of_mem, fun refers => ?_⟩
  induction refers with
  | own isOwn given => exact Json.mem_references_object.mpr (.inl ⟨isOwn, given⟩)
  | member isField _ ih => exact Json.mem_references_object.mpr (.inr ⟨_, isField, ih⟩)
  | item isItem _ ih => exact Json.mem_references_array.mpr ⟨_, isItem, ih⟩

/-- The tokens lead from the value to something in it. -/
inductive Leads (unicode : Unicode) : Json → List Text → Prop
  | here {node} : Leads unicode node []
  | member {fields token value rest} : Json.get fields token = some value → Leads unicode value rest →
      Leads unicode (.object fields) (token :: rest)
  | item {items token index value rest} : token.isDigit unicode = true → token.int unicode = some index →
      items[index]? = some value → Leads unicode value rest → Leads unicode (.array items) (token :: rest)

theorem followTokens_iff {label : Text} {tokens : List Text} {value : Json} :
    followTokens platform label value tokens = .ok () ↔ Leads platform.unicode value tokens := by
  constructor
  · intro followed
    induction tokens generalizing value with
    | nil => exact .here
    | cons token rest ih =>
      cases value with
      | object fields =>
        simp only [followTokens] at followed
        split at followed
        · rename_i isMember
          exact .member isMember (ih followed)
        · cases followed
      | array items =>
        simp only [followTokens] at followed
        split at followed
        · rename_i isDigit
          split at followed
          · cases followed
          · rename_i isIndex
            split at followed
            · rename_i isItem
              exact .item isDigit isIndex isItem (ih followed)
            · cases followed
        · cases followed
      | null | bool | number | string => cases followed
  · intro leads
    induction leads with
    | here => simp only [followTokens]
    | member isMember _ ih => simp only [followTokens, isMember, ih]
    | item isDigit isIndex isItem _ ih => simp only [followTokens, isDigit, isIndex, isItem, ih, if_true]

/-- Every reference in the schema is to the schema itself or points into it. -/
def ReferencesResolve (platform : Platform) (schema : JsonObject) : Prop :=
  ∀ reference, Refers (.object schema) reference → reference = .text "#" ∨ ∃ pointer,
    reference = .string ('#' :: '/' :: pointer) ∧
      Leads platform.unicode (.object schema) ((pointer.splitOn '/').map decodeToken)

theorem resolveLocalSchemaReference_iff {schema : JsonObject} {label reference : Text} :
    resolveLocalSchemaReference platform schema label reference = .ok () ↔ reference = "#" ∨ ∃ pointer,
      reference = '#' :: '/' :: pointer ∧ Leads platform.unicode (.object schema) ((pointer.splitOn '/').map decodeToken) := by
  unfold resolveLocalSchemaReference
  split
  · rename_i isRoot
    exact ⟨fun _ => .inl isRoot, fun _ => rfl⟩
  · rename_i notRoot
    simp only [bind_eq_ok, ensure_eq_ok, exists_const_unit, followTokens_iff, notRoot, false_or]
    constructor
    · rintro ⟨isPointer, leads⟩
      obtain ⟨pointer, rfl⟩ := List.isPrefixOf_iff_prefix.mp isPointer
      exact ⟨pointer, rfl, leads⟩
    · rintro ⟨pointer, rfl, leads⟩
      exact ⟨rfl, leads⟩

theorem validateLocalSchemaReferences_iff {schema : JsonObject} {label : Text} :
    validateLocalSchemaReferences platform schema label = .ok () ↔ ReferencesResolve platform schema := by
  simp only [validateLocalSchemaReferences, forM_eq_ok, ReferencesResolve, mem_references_iff]
  refine forall_congr' fun reference => imp_congr_right fun _ => ?_
  cases reference with
  | string reference =>
    simp only [bind_eq_ok, ensure_eq_ok, exists_const_unit, resolveLocalSchemaReference_iff, Json.text, Json.string.injEq]
    refine ⟨fun passed => passed.2, fun resolves => ⟨?_, resolves⟩⟩
    rcases resolves with rfl | ⟨pointer, rfl, -⟩ <;> rfl
  | null | bool | number | array | object => simp [Json.text]

/-! ## Definitions -/

/-- The `$defs` that a schema brings with it. -/
def ownDefinitions (schema : JsonObject) : JsonObject :=
  match Json.get schema "$defs" with
  | some (.object definitions) => definitions
  | _ => []

def withoutDefinitions (schema : JsonObject) : JsonObject :=
  schema.filter fun field => field.1 ≠ "$defs"

/-- The definitions of all schemas in one dictionary. -/
def sharedDefinitions (schemas : List JsonObject) : JsonObject :=
  (schemas.flatMap ownDefinitions).foldl (fun shared field => Json.set shared field.1 field.2) []

theorem sharedDefinitions_append (schemas : List JsonObject) (schema : JsonObject) :
    sharedDefinitions (schemas ++ [schema]) =
      (ownDefinitions schema).foldl (fun shared field => Json.set shared field.1 field.2) (sharedDefinitions schemas) := by
  rw [sharedDefinitions, List.flatMap_append, List.foldl_append, List.flatMap_singleton]
  rfl

theorem hoistDefinitions_eq {operation : CanonicalOperation} {schema definitions rest next : JsonObject}
    (hoisted : hoistDefinitions platform operation schema definitions = .ok (rest, next)) :
    rest = withoutDefinitions schema ∧
      next = (ownDefinitions schema).foldl (fun shared field => Json.set shared field.1 field.2) definitions := by
  unfold hoistDefinitions at hoisted
  unfold ownDefinitions
  split at hoisted
  · rename_i absent
    cases hoisted
    rw [absent]
    exact ⟨rfl, rfl⟩
  · rename_i isNull
    cases hoisted
    rw [isNull]
    exact ⟨rfl, rfl⟩
  · rename_i own isOwn
    rw [bind_eq_ok] at hoisted
    obtain ⟨merged, ran, same⟩ := hoisted
    cases same
    rw [isOwn]
    refine ⟨rfl, foldlM_induction (fun read merged => merged = read.foldl _ definitions) rfl ?_ ran⟩
    intro read merged field next holds added
    rw [addDefinition_eq added, holds, List.foldl_append]
    rfl
  · cases hoisted

/-! ## The input -/

/-- A parameter or the body as a field of the input. -/
structure FieldSource where
  name : Text
  location : ParameterLocation
  required : Bool
  /-- The schema as the operation has it. -/
  schema : JsonObject
  /-- What the input shows of it. -/
  shown : JsonObject

def parameterSource (parameter : CanonicalParameter) : FieldSource :=
  let own := withoutDefinitions parameter.schema
  let described := match parameter.description, Json.get own "description" with
    | some (first :: rest), none => own ++ [(("description" : Text), .string (first :: rest))]
    | _, _ => own
  { name := parameter.name
    location := parameter.location
    required := parameter.required
    schema := parameter.schema
    shown := if described.isEmpty then [entry "type" (.text "string")] else described }

/-- The content of the body in the first of the supported media types. -/
def chosenMedia (platform : Platform) (body : CanonicalRequestBody) : Option CanonicalMediaType :=
  [("application/json" : Text), "application/x-www-form-urlencoded", "multipart/form-data"].findSome? fun mediaType =>
    body.content.reverse.find? fun item => item.mediaType.casefold platform.unicode = mediaType

def bodySource (body : CanonicalRequestBody) (media : CanonicalMediaType) : FieldSource :=
  let own := withoutDefinitions media.schema
  { name := "body"
    location := .query
    required := body.required
    schema := media.schema
    shown := if media.mediaType = "multipart/form-data" then encodeBinaryProperties own else own }

/-- The caller's parameters in their order, then the body. -/
def fieldSources (platform : Platform) (hasCredential : Bool) (operation : CanonicalOperation) : List FieldSource :=
  (callerParameters platform hasCredential (orderedParameters platform operation)).map parameterSource ++
    operation.requestBody.toList.flatMap fun body => (chosenMedia platform body).toList.map (bodySource body)

/-- A field gets the first name for it that no field before it has. -/
def nameField (named : List (Text × FieldSource)) (source : FieldSource) : List (Text × FieldSource) :=
  named ++ [(uniqueFieldName source.name source.location (named.map Prod.fst).reverse, source)]

/-- The schema of an input with these fields. -/
def inputDocument (named : List (Text × FieldSource)) : JsonObject :=
  let required := (named.filter fun field => field.2.required).map Prod.fst
  let definitions := sharedDefinitions (named.map fun field => field.2.schema)
  [entry "type" (.text "object"), entry "properties" (.object (named.map fun field => (field.1, .object field.2.shown))),
    entry "additionalProperties" (.bool false)] ++
    (if required.isEmpty then [] else [entry "required" (.array ((Text.sorted required.dedup).map .string))]) ++
    (if definitions.isEmpty then [] else [entry "$defs" (.object definitions)])

/-- The fields of the compiler are the named ones. -/
structure ShownBy (named : List (Text × FieldSource)) (fields : RequestFields) : Prop where
  properties : fields.properties = named.map fun field => (field.1, .object field.2.shown)
  definitions : fields.definitions = sharedDefinitions (named.map fun field => field.2.schema)
  required : fields.required = (named.filter fun field => field.2.required).map Prod.fst
  used : fields.usedFields = (named.map Prod.fst).reverse

section

variable {operation : CanonicalOperation} {hasCredential : Bool} {named : List (Text × FieldSource)} {fields : RequestFields}

theorem ShownBy.nameField (shownBy : ShownBy named fields) (source : FieldSource) {rest next : JsonObject}
    (hoisted : hoistDefinitions platform operation source.schema fields.definitions = .ok (rest, next))
    (mappings : List ParameterMapping) :
    let name := uniqueFieldName source.name source.location fields.usedFields
    ShownBy (nameField named source) {
      properties := Json.set fields.properties name (.object source.shown)
      definitions := next
      required := if source.required then fields.required ++ [name] else fields.required
      mappings
      usedFields := name :: fields.usedFields } := by
  have fresh := uniqueFieldName_not_mem source.name source.location fields.usedFields
  have names : fields.properties.map Prod.fst = named.map Prod.fst := by
    rw [shownBy.properties, List.map_map]
    rfl
  have absent : uniqueFieldName source.name source.location fields.usedFields ∉ fields.properties.map Prod.fst := by
    rw [names, ← List.mem_reverse, ← shownBy.used]
    exact fresh
  refine ⟨?_, ?_, ?_, ?_⟩
  · show Json.set fields.properties _ _ = _
    rw [Json.set_of_not_mem absent, shownBy.properties, Compilers.nameField, List.map_append, ← shownBy.used]
    rfl
  · rw [Compilers.nameField, List.map_append, List.map_singleton, sharedDefinitions_append, ← shownBy.definitions]
    exact (hoistDefinitions_eq hoisted).2
  · rw [Compilers.nameField, List.filter_append, List.map_append, ← shownBy.required, ← shownBy.used]
    cases isRequired : source.required <;> simp [isRequired]
  · simp [Compilers.nameField, shownBy.used]

theorem shown_parameterSource (parameter : CanonicalParameter) {rest : JsonObject}
    (isRest : rest = withoutDefinitions parameter.schema) :
    (if (describe rest parameter.description).isEmpty then [entry "type" (.text "string")]
      else describe rest parameter.description) = (parameterSource parameter).shown := by
  subst isRest
  unfold parameterSource describe
  dsimp only
  generalize withoutDefinitions parameter.schema = own
  generalize ("description" : Text) = key
  cases parameter.description with
  | none => rfl
  | some text =>
    cases isGiven : Json.get own key with
    | some value => simp
    | none =>
      have absent : key ∉ own.map Prod.fst := by
        rw [← Json.get_isSome, isGiven]
        exact Bool.false_ne_true
      cases text with
      | nil => simp
      | cons first rest => simp [Json.set_of_not_mem absent]

theorem shownBy_parameterFields (made : parameterFields platform operation hasCredential = .ok fields) :
    ShownBy (((callerParameters platform hasCredential (orderedParameters platform operation)).map
      parameterSource).foldl nameField []) fields := by
  refine foldlM_induction (fun read fields => ShownBy (((callerParameters platform hasCredential read).map
    parameterSource).foldl nameField []) fields) ⟨rfl, rfl, rfl, rfl⟩ ?_ made
  intro read fields parameter next shownBy added
  rcases addParameter_cases added with ⟨replaced, rfl⟩ | ⟨callers, target, -, added⟩
  · rw [callerParameters_replaced replaced]
    exact shownBy
  · simp only [addField, bind_eq_ok] at added
    obtain ⟨⟨rest, definitions⟩, hoisted, same⟩ := added
    cases same
    rw [callerParameters_append callers, List.map_append, List.foldl_append,
      shown_parameterSource parameter (hoistDefinitions_eq hoisted).1]
    exact shownBy.nameField (parameterSource parameter) hoisted _

/-- The input schema of the compiler. -/
theorem inputSchema_eq_inputDocument {body : Option RequestBodyMapping}
    (made : requestFields platform operation hasCredential = .ok (fields, body)) :
    inputSchema fields = inputDocument ((fieldSources platform hasCredential operation).foldl nameField []) := by
  have shownBy : ShownBy ((fieldSources platform hasCredential operation).foldl nameField []) fields := by
    simp only [requestFields, bind_eq_ok] at made
    obtain ⟨parameters, isParameters, made⟩ := made
    have before := shownBy_parameterFields isParameters
    unfold fieldSources
    split at made
    · rename_i without
      cases made
      rw [without]
      simpa using before
    · rename_i source given
      simp only [addBody, bind_eq_ok, obtain?_eq_ok] at made
      obtain ⟨⟨next, mapping⟩, ⟨media, selected, ⟨rest, definitions⟩, hoisted, mediaType, -, added⟩, same⟩ := made
      cases same
      cases added
      have chosen : chosenMedia platform source = some media := by
        simp only [selectRequestMedia, obtain?_eq_ok] at selected
        exact selected
      rw [given]
      simp only [Option.toList_some, List.flatMap_singleton, chosen, List.map_singleton, List.foldl_append,
        List.foldl_cons, List.foldl_nil]
      obtain ⟨rfl, -⟩ := hoistDefinitions_eq hoisted
      exact before.nameField (bodySource source media) hoisted parameters.mappings
  unfold inputSchema inputDocument
  rw [shownBy.properties, shownBy.definitions, shownBy.required]

end

/-! ## The envelope -/

/-- The schema of a successful response in one of its media types. -/
def mediaBody (platform : Platform) (media : CanonicalMediaType) : JsonObject :=
  if media.schema.isEmpty && (normalizedMedia platform media.mediaType).startsWith "text/" then
    [entry "type" (.text "string")]
  else media.schema

def responseBodies (platform : Platform) (response : CanonicalResponse) : List JsonObject :=
  if !responseCanBeSuccess platform response.statusCode then []
  else if response.content.isEmpty then [[entry "type" (.text "null")]]
  else (Text.sortedBy CanonicalMediaType.mediaType response.content).map (mediaBody platform)

def successBodies (platform : Platform) (responses : List CanonicalResponse) : List JsonObject :=
  responses.flatMap (responseBodies platform)

/-- The schema of an envelope of these bodies, if there are any. -/
def envelopeDocument (bodies : List JsonObject) : Option JsonObject :=
  let definitions := sharedDefinitions bodies
  match uniqueSchemas (bodies.map withoutDefinitions) with
  | [] => none
  | first :: others => some (
      [entry "type" (.text "object"), entry "additionalProperties" (.bool false),
        entry "required" (.array [.text "status", .text "contentType", .text "body"]),
        entry "properties" (.object [
          entry "status" (.object [entry "type" (.text "integer"), entry "minimum" (.integer 200), entry "maximum" (.integer 299)]),
          entry "contentType" (.object [entry "type" (.text "string")]),
          entry "body" (if others.isEmpty then .object first
            else .object [entry "anyOf" (.array ((first :: others).map .object))])])] ++
      (if definitions.isEmpty then [] else [entry "$defs" (.object definitions)]))

structure EnvelopeOf (bodies : List JsonObject) (fields : ResponseFields) : Prop where
  schemas : fields.successBodySchemas = bodies.map withoutDefinitions
  definitions : fields.envelopeDefinitions = sharedDefinitions bodies

section

variable {operation : CanonicalOperation} {response : CanonicalResponse} {bodies : List JsonObject}
  {fields next : ResponseFields}

theorem EnvelopeOf.addMedia {media : CanonicalMediaType} (envelopeOf : EnvelopeOf bodies fields)
    (added : addMedia platform operation response fields media = .ok next) :
    EnvelopeOf (bodies ++ if responseCanBeSuccess platform response.statusCode then [mediaBody platform media] else [])
      next := by
  simp only [Compilers.addMedia, bind_eq_ok, ensure_eq_ok, validated_eq_ok] at added
  obtain ⟨-, -, definition, -, added⟩ := added
  split at added
  · rename_i success
    rw [bind_eq_ok] at added
    obtain ⟨⟨rest, definitions⟩, hoisted, same⟩ := added
    cases same
    have isBody : (if !media.schema.isEmpty then media.schema
        else if (normalizedMedia platform media.mediaType).startsWith "text/" then [entry "type" (.text "string")]
        else []) = mediaBody platform media := by
      unfold mediaBody
      cases isEmpty : media.schema.isEmpty with
      | false => simp
      | true => simp [List.isEmpty_iff.mp isEmpty]
    rw [isBody] at hoisted
    obtain ⟨isRest, isNext⟩ := hoistDefinitions_eq hoisted
    rw [if_pos success]
    refine ⟨?_, ?_⟩
    · rw [List.map_append, ← envelopeOf.schemas, isRest]
      rfl
    · rw [sharedDefinitions_append, ← envelopeOf.definitions]
      exact isNext
  · rename_i failure
    cases added
    rw [if_neg failure, List.append_nil]
    exact ⟨envelopeOf.schemas, envelopeOf.definitions⟩

theorem EnvelopeOf.addResponse (envelopeOf : EnvelopeOf bodies fields)
    (added : addResponse platform operation fields response = .ok next) :
    EnvelopeOf (bodies ++ responseBodies platform response) next := by
  unfold Compilers.addResponse at added
  unfold responseBodies
  split at added
  · rename_i nothing
    simp only [bind_eq_ok, validated_eq_ok] at added
    obtain ⟨definition, -, same⟩ := added
    cases same
    rw [if_pos nothing]
    cases responseCanBeSuccess platform response.statusCode with
    | false => simpa using ⟨envelopeOf.schemas, envelopeOf.definitions⟩
    | true =>
      refine ⟨?_, ?_⟩
      · simp only [Bool.not_true, Bool.false_eq_true, if_true, if_false, List.map_append, ← envelopeOf.schemas]
        rfl
      · simp only [Bool.not_true, Bool.false_eq_true, if_false, sharedDefinitions_append, ← envelopeOf.definitions]
        rfl
  · rename_i given
    rw [if_neg given]
    have media := foldlM_induction (fun contents state => EnvelopeOf
      (bodies ++ if responseCanBeSuccess platform response.statusCode then contents.map (mediaBody platform) else []) state)
      (by simpa using envelopeOf) ?_ added
    · cases success : responseCanBeSuccess platform response.statusCode <;> simpa [success] using media
    · intro contents state media next holds step
      have after := holds.addMedia step
      cases success : responseCanBeSuccess platform response.statusCode <;> simpa [success] using after

/-- The response envelope of the compiler. -/
theorem responseEnvelopeSchema_eq_envelopeDocument (made : responseFields platform operation = .ok fields) :
    responseEnvelopeSchema fields = envelopeDocument
      (successBodies platform (Text.sortedBy CanonicalResponse.statusCode operation.responses)) := by
  have envelopeOf := foldlM_induction (fun read state => EnvelopeOf (successBodies platform read) state) ⟨rfl, rfl⟩
    (fun read state response next holds step => by
      rw [successBodies, List.flatMap_append, List.flatMap_singleton]
      exact holds.addResponse step) made
  have schemas := envelopeOf.schemas
  have definitions := envelopeOf.definitions
  unfold responseEnvelopeSchema envelopeDocument
  generalize fields.successBodySchemas = given at schemas
  generalize fields.envelopeDefinitions = shared at definitions
  subst schemas definitions
  rfl

end

end Mcplica.Compilers
