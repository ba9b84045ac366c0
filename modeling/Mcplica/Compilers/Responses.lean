import Mcplica.Compilers.Fields

/-! # The responses of a compiled tool

The definitions carry the schemas of the operation's responses, and the envelope of the successful ones
passes the meta-schema. -/

namespace Mcplica.Compilers

open Mcplica.Library Mcplica.Contracts
open Mcplica.Contracts.Json (entry)

variable {platform : Platform}

/-- The schemas of the response definitions. -/
def definitionSchemas (fields : ResponseFields) : List JsonObject :=
  fields.definitions.filterMap ResponseDefinition.schema

structure ResponsesPass (platform : Platform) (fields : ResponseFields) : Prop where
  bodies : ∀ schema ∈ fields.successBodySchemas, platform.checkSchema schema = true
  definitions : SchemasPass platform fields.envelopeDefinitions

/-- What the responses read so far have contributed. -/
structure ResponsesOf (platform : Platform) (read : List CanonicalMediaType) (fields : ResponseFields) : Prop where
  schemas : ∀ schema, schema ∈ definitionSchemas fields ↔ schema ∈ read.map CanonicalMediaType.schema
  passes : (∀ media ∈ read, platform.checkSchema media.schema = true) → ResponsesPass platform fields

theorem responseDefinition_schema {unicode : Unicode} {statusCode : Text} {mediaType : Option Text}
    {schema : Option JsonObject} {description : Option Text} {definition : ResponseDefinition}
    (made : ResponseDefinition.make unicode statusCode mediaType schema description = .ok definition) :
    definition.schema = schema := by
  simp only [ResponseDefinition.make, bind_eq_ok] at made
  obtain ⟨_, _, _, _, same⟩ := made
  cases same
  rfl

theorem definitionSchemas_append (fields : ResponseFields) (definition : ResponseDefinition) :
    definitionSchemas { fields with definitions := fields.definitions ++ [definition] } =
      definitionSchemas fields ++ definition.schema.toList := by
  cases given : definition.schema <;> simp [definitionSchemas, given]

section

variable {operation : CanonicalOperation} {response : CanonicalResponse} {read : List CanonicalMediaType}
  {fields next : ResponseFields} {media : CanonicalMediaType}

theorem ResponsesOf.addMedia (responsesOf : ResponsesOf platform read fields)
    (added : addMedia platform operation response fields media = .ok next) :
    ResponsesOf platform (read ++ [media]) next := by
  simp only [Compilers.addMedia, bind_eq_ok, ensure_eq_ok, validated_eq_ok] at added
  obtain ⟨-, -, definition, made, added⟩ := added
  have schema := responseDefinition_schema made
  have schemas : ∀ other, other ∈ definitionSchemas { fields with definitions := fields.definitions ++ [definition] } ↔
      other ∈ (read ++ [media]).map CanonicalMediaType.schema := by
    intro other
    rw [definitionSchemas_append, schema, List.map_append, List.mem_append, List.mem_append,
      responsesOf.schemas]
    simp
  split at added
  · rw [bind_eq_ok] at added
    obtain ⟨⟨envelope, envelopeDefinitions⟩, hoisted, same⟩ := added
    cases same
    refine ⟨schemas, fun readPass => ?_⟩
    have before := responsesOf.passes fun other member => readPass other (List.mem_append_left _ member)
    have envelopePasses : platform.checkSchema
        (if !media.schema.isEmpty then media.schema
          else if (normalizedMedia platform media.mediaType).startsWith "text/" then [entry "type" (.text "string")]
          else []) = true := by
      split
      · exact readPass media (List.mem_append_right _ List.mem_cons_self)
      · split
        · exact checkSchema_type (by decide)
        · exact checkSchema_iff.mpr fun _ member => by cases member
    obtain ⟨-, restPasses, nextPasses⟩ := hoistDefinitions_spec hoisted envelopePasses before.definitions
    refine ⟨?_, nextPasses⟩
    intro other member
    rcases List.mem_append.mp member with old | isNew
    · exact before.bodies other old
    · rw [List.mem_singleton.mp isNew]
      exact restPasses
  · cases added
    refine ⟨schemas, fun readPass => ?_⟩
    have before := responsesOf.passes fun other member => readPass other (List.mem_append_left _ member)
    exact ⟨before.bodies, before.definitions⟩

theorem ResponsesOf.addResponse (responsesOf : ResponsesOf platform read fields)
    (added : addResponse platform operation fields response = .ok next) :
    ResponsesOf platform (read ++ Text.sortedBy CanonicalMediaType.mediaType response.content) next := by
  unfold Compilers.addResponse at added
  split at added
  · rename_i nothing
    simp only [bind_eq_ok, validated_eq_ok] at added
    obtain ⟨definition, made, same⟩ := added
    cases same
    have schema := responseDefinition_schema made
    rw [List.isEmpty_iff.mp nothing]
    refine ⟨?_, ?_⟩
    · intro other
      have unchanged : definitionSchemas { fields with definitions := fields.definitions ++ [definition] } =
          definitionSchemas fields := by
        rw [definitionSchemas_append, schema]
        simp
      simpa [Text.sortedBy, definitionSchemas, schema] using responsesOf.schemas other
    · intro readPass
      have before := responsesOf.passes fun other member => readPass other (List.mem_append_left _ member)
      refine ⟨?_, before.definitions⟩
      intro other member
      split at member
      · rcases List.mem_append.mp member with old | isNull
        · exact before.bodies other old
        · rw [List.mem_singleton.mp isNull]
          exact checkSchema_type (by decide)
      · exact before.bodies other member
  · refine foldlM_induction (fun contents state => ResponsesOf platform (read ++ contents) state)
      (by rw [List.append_nil]; exact responsesOf) ?_ added
    intro contents state media next holds step
    rw [← List.append_assoc]
    exact holds.addMedia step

end

/-- The media types of all responses in the order in which the compiler reads them. -/
def orderedMedia (operation : CanonicalOperation) : List CanonicalMediaType :=
  (Text.sortedBy CanonicalResponse.statusCode operation.responses).flatMap fun response =>
    Text.sortedBy CanonicalMediaType.mediaType response.content

theorem mem_orderedMedia {operation : CanonicalOperation} {media : CanonicalMediaType} :
    media ∈ orderedMedia operation ↔ ∃ response ∈ operation.responses, media ∈ response.content := by
  simp [orderedMedia]

theorem responseFields_spec {operation : CanonicalOperation} {fields : ResponseFields}
    (made : responseFields platform operation = .ok fields) :
    ResponsesOf platform (orderedMedia operation) fields := by
  refine foldlM_induction (fun responses state => ResponsesOf platform
    (responses.flatMap fun response => Text.sortedBy CanonicalMediaType.mediaType response.content) state) ?_ ?_ made
  · exact ⟨fun _ => Iff.rfl, fun _ => ⟨(fun _ member => by cases member), (fun _ member => by cases member)⟩⟩
  · intro responses state response next holds step
    rw [List.flatMap_append, List.flatMap_singleton]
    exact holds.addResponse step

/-! ## The envelope -/

theorem uniqueSchemas_subset (schemas : List JsonObject) : uniqueSchemas schemas ⊆ schemas := by
  induction schemas with
  | nil => exact List.Subset.refl _
  | cons schema rest ih =>
    intro other member
    rcases List.mem_cons.mp member with rfl | later
    · exact List.mem_cons_self
    · exact List.mem_cons_of_mem _ (ih (List.mem_of_mem_filter later))

/-- The schema of the body in the envelope: the one there is, or any of them. -/
theorem check_bodySchema {schemas : List JsonObject} {first : JsonObject} {others : List JsonObject}
    (pass : ∀ schema ∈ schemas, platform.checkSchema schema = true) (unique : uniqueSchemas schemas = first :: others) :
    platform.metaSchema.check (if others.isEmpty then .object first
      else .object [entry "anyOf" (.array ((first :: others).map .object))]) = true := by
  have each : ∀ schema ∈ first :: others, platform.metaSchema.check (.object schema) = true := by
    intro schema member
    rw [← unique] at member
    exact pass schema (uniqueSchemas_subset schemas member)
  split
  · exact each first List.mem_cons_self
  · refine checkSchema_iff.mpr fun field member => ?_
    rw [List.mem_singleton.mp member, show (entry "anyOf" (.array ((first :: others).map .object))) =
      (("anyOf" : Text), .array ((first :: others).map .object)) from rfl, platform.metaSchema.anyOf]
    simp only [List.map_cons, List.isEmpty_cons, Bool.not_false, Bool.true_and, List.all_eq_true]
    intro value isValue
    rw [← List.map_cons] at isValue
    obtain ⟨schema, schemaMember, rfl⟩ := List.mem_map.mp isValue
    exact each schema schemaMember

theorem checkSchema_envelope {fields : ResponseFields} {schema : JsonObject} (pass : ResponsesPass platform fields)
    (made : responseEnvelopeSchema fields = some schema) :
    platform.checkSchema schema = true ∧ isObjectSchema schema = true := by
  unfold responseEnvelopeSchema at made
  split at made
  · cases made
  · rename_i first others unique
    cases made
    have bodyPasses := check_bodySchema pass.bodies unique
    refine ⟨checkSchema_iff.mpr ?_, rfl⟩
    intro field member
    simp only [List.mem_append, List.mem_cons, List.not_mem_nil, or_false] at member
    rcases member with (rfl | rfl | rfl | rfl) | isDefinitions
    · exact platform.metaSchema.type _ (by decide)
    · exact (platform.metaSchema.additionalProperties _).trans (platform.metaSchema.boolean false)
    · exact platform.metaSchema.required ["status".toList, "contentType".toList, "body".toList] (by decide)
    · refine (keyword_schemaMap properties_mem_schemaMapKeywords).mpr ?_
      intro property isProperty
      simp only [List.mem_cons, List.not_mem_nil, or_false] at isProperty
      rcases isProperty with rfl | rfl | rfl
      · refine checkSchema_iff.mpr fun keyword isKeyword => ?_
        simp only [List.mem_cons, List.not_mem_nil, or_false] at isKeyword
        rcases isKeyword with rfl | rfl | rfl
        · exact platform.metaSchema.type _ (by decide)
        · exact (platform.metaSchema.bounds _ _).1
        · exact (platform.metaSchema.bounds _ _).2
      · exact checkSchema_type (by decide)
      · exact bodyPasses
    · split at isDefinitions
      · cases isDefinitions
      · rw [List.mem_singleton.mp isDefinitions]
        exact (keyword_schemaMap defs_mem_schemaMapKeywords).mpr pass.definitions

end Mcplica.Compilers
