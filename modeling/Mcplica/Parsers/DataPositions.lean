import Mcplica.Parsers.Inventory
import Mcplica.Parsers.OpenApiSchemas
import Mcplica.Parsers.Pointers
import Mcplica.Parsers.Resolution
import Mcplica.Parsers.SchemaPositions

/-! # Data in OpenAPI schemas

What `materialize_schema` does with the parts of a schema that are no schemas. It is compared with the same
materialization under the walk of the API Inventory parser, which leaves data as they are. -/

namespace Mcplica.Parsers

open Mcplica.Library
open Mcplica.Contracts
open Mcplica.Domain

/-! ## Materialization under either walk -/

abbrev OpenApiMaterializer := Materializer OpenApiContext ReferenceTarget (Uuid × Text)

/-- The OpenAPI parser with the walk that knows where schemas stand. -/
def schemaAwareParser (sha256 : Text → Text) (scope : ReferenceScope) (location : Text) : OpenApiMaterializer :=
  { openApiParser sha256 scope location with descent := inventoryDescent }

def materializeWith (parser : OpenApiMaterializer) (location : Text) (fuel : Nat) (value : Json) (context : OpenApiContext) :
    Except SourceError JsonObject :=
  attributed context.sourceVersionId location do
    let root ← jsonObject location value
    let (materialized, definitions) ← parser.walk fuel [] context (.object root) []
    let materialized ← jsonObject location materialized
    addDefinitions location materialized definitions

theorem materializeSchema_eq (sha256 : Text → Text) (scope : ReferenceScope) (fuel : Nat) (value : Json)
    (context : OpenApiContext) (location : Text) : materializeSchema sha256 scope fuel value context location =
      materializeWith (openApiParser sha256 scope location) location fuel value context := rfl

/-- The members of a rewritten schema. -/
def rewrittenFields (parser : OpenApiMaterializer) (context : OpenApiContext) (schema : JsonObject) : JsonObject :=
  rewrittenReference (parser.keyOf context) (Json.get schema "$ref") ++
    rewriteFields parser.descent (parser.keyOf context) schema

section Spec

variable {parser : OpenApiMaterializer} {location : Text} {fuel : Nat} {context : OpenApiContext} {schema out : JsonObject}

theorem rewriting_object : parser.rewriting context (.object schema) = .object (rewrittenFields parser context schema) := by
  rw [Materializer.rewriting, rewrite, rewrittenFields]

theorem materializeWith_eq_ok : materializeWith parser location fuel (.object schema) context = .ok out ↔
    ∃ places after, parser.placesOf context (.object schema) = some places ∧
      ReferenceGraph.Explores parser.graph fuel [] [] places after ∧
      addDefinitions location (rewrittenFields parser context schema) after = .ok out := by
  unfold materializeWith
  simp only [attributed_eq_ok, bind_eq_ok, jsonObject, Except.ok.injEq, exists_eq_left']
  constructor
  · rintro ⟨⟨materialized, after⟩, walked, fields, isObject, added⟩
    obtain ⟨places, arePlaces, rfl, run⟩ := (parser.walksExpand fuel _ _ _ _ _ _).mp walked
    rw [rewriting_object] at isObject
    cases isObject
    exact ⟨places, after, arePlaces, run, added⟩
  · rintro ⟨places, after, arePlaces, run, added⟩
    refine ⟨(_, after), (parser.walksExpand fuel _ _ _ _ _ _).mpr ⟨places, arePlaces, rfl, run⟩, _, ?_, added⟩
    rw [rewriting_object]

end Spec

/-! ## Definitions -/

section Definitions

variable {location key : Text} {fields definitions out existing others : JsonObject} {field : Text × Json}

theorem mem_set_of_ne {value : Json} (member : field ∈ fields) (different : field.1 ≠ key) :
    field ∈ Json.set fields key value := by
  unfold Json.set
  split
  · exact List.mem_map.mpr ⟨field, member, if_neg different⟩
  · exact List.mem_append_left _ member

theorem keys_subset_set {value : Json} : fields.map Prod.fst ⊆ (Json.set fields key value).map Prod.fst := by
  intro name member
  obtain ⟨field, isField, rfl⟩ := List.mem_map.mp member
  by_cases same : field.1 = key
  · rw [same]
    exact Json.get_isSome.mp (by rw [Json.get_set_self]; rfl)
  · exact List.mem_map.mpr ⟨field, mem_set_of_ne isField same, rfl⟩

theorem mem_mergeFields (member : field ∈ mergeFields existing others) : field ∈ existing ∨ field ∈ others := by
  induction others generalizing existing with
  | nil => exact .inl member
  | cons first rest ih =>
    rcases ih member with before | later
    · rcases Json.mem_set before with isFirst | old
      · exact .inr (by rw [isFirst]; exact List.mem_cons_self)
      · exact .inl old
    · exact .inr (List.mem_cons_of_mem _ later)

theorem mem_mergeFields_of_ne (member : field ∈ existing) (absent : field.1 ∉ others.map Prod.fst) :
    field ∈ mergeFields existing others := by
  induction others generalizing existing with
  | nil => exact member
  | cons first rest ih =>
    rw [List.map_cons, List.mem_cons, not_or] at absent
    exact ih (mem_set_of_ne member absent.1) absent.2

theorem keys_subset_mergeFields : existing.map Prod.fst ⊆ (mergeFields existing others).map Prod.fst := by
  induction others generalizing existing with
  | nil => exact List.Subset.refl _
  | cons first rest ih => exact List.Subset.trans keys_subset_set ih

theorem keys_mergeFields : others.map Prod.fst ⊆ (mergeFields existing others).map Prod.fst := by
  induction others generalizing existing with
  | nil => exact List.nil_subset _
  | cons first rest ih =>
    intro name member
    rcases List.mem_cons.mp member with isFirst | later
    · rw [isFirst]
      have entered : first.1 ∈ (Json.set existing first.1 first.2).map Prod.fst :=
        Json.get_isSome.mp (by rw [Json.get_set_self]; rfl)
      exact @keys_subset_mergeFields _ rest _ entered
    · exact ih later

/-- The definitions of a schema with those that are added. -/
def mergedDefinitions (fields definitions : JsonObject) : JsonObject :=
  match Json.get fields "$defs" with
  | some (.object existing) => mergeFields existing definitions
  | _ => definitions

/-- The members of a schema with its definitions. -/
def withDefinitions (fields definitions : JsonObject) : JsonObject :=
  if definitions.isEmpty then fields else Json.set fields "$defs" (.object (mergedDefinitions fields definitions))

theorem addDefinitions_eq_ok (added : addDefinitions location fields definitions = .ok out) :
    out = withDefinitions fields definitions := by
  unfold addDefinitions at added
  unfold withDefinitions mergedDefinitions
  split at added
  · rename_i isEmpty
    cases added
    rw [if_pos isEmpty]
  · rename_i some_
    rw [if_neg some_]
    split at added
    · rename_i isNone
      cases added
      rw [isNone]
    · rename_i isNull
      cases added
      rw [isNull]
    · rename_i existing isObject
      cases added
      rw [isObject]
    · cases added

theorem addDefinitions_of_valid (valid : ∀ value, Json.get fields "$defs" = some value → ∃ existing, value = .object existing) :
    addDefinitions location fields definitions = .ok (withDefinitions fields definitions) := by
  unfold addDefinitions withDefinitions mergedDefinitions
  split
  · rfl
  · cases found : Json.get fields "$defs" with
    | none => rfl
    | some value =>
      obtain ⟨existing, rfl⟩ := valid value found
      rfl

theorem keys_mergedDefinitions : definitions.map Prod.fst ⊆ (mergedDefinitions fields definitions).map Prod.fst := by
  unfold mergedDefinitions
  split
  · exact keys_mergeFields
  · exact List.Subset.refl _

theorem mem_mergedDefinitions (member : field ∈ mergedDefinitions fields definitions) :
    (∃ existing, Json.get fields "$defs" = some (.object existing) ∧ field ∈ existing) ∨ field ∈ definitions := by
  unfold mergedDefinitions at member
  split at member
  · rename_i existing isObject
    exact (mem_mergeFields member).imp_left fun old => ⟨existing, isObject, old⟩
  · exact .inr member

/-- The definition of every key is found. -/
theorem get_withDefinitions (isKey : key ∈ definitions.map Prod.fst) : ∃ entries value,
    Json.get (withDefinitions fields definitions) "$defs" = some (.object entries) ∧ Json.get entries key = some value := by
  have some_ : definitions.isEmpty = false := by
    cases definitions with
    | nil => cases isKey
    | cons first rest => rfl
  obtain ⟨value, found⟩ := Option.isSome_iff_exists.mp
    (Json.get_isSome.mpr (@keys_mergedDefinitions fields definitions key isKey))
  refine ⟨_, value, ?_, found⟩
  rw [withDefinitions, some_, if_neg (by decide)]
  exact Json.get_set_self _ _ _

/-- What holds of every reference of the members and of the definitions holds of every reference of the whole. -/
theorem everyReference_withDefinitions {holds : Json → Prop} (inFields : EveryReferenceOfFields holds fields)
    (inDefinitions : ∀ entry ∈ definitions, entry.1 ≠ "$ref" ∧ EveryReference holds entry.2) :
    EveryReference holds (.object (withDefinitions fields definitions)) := by
  rw [everyReferenceOfFields_iff] at inFields
  rw [everyReference_object]
  intro field member
  unfold withDefinitions at member
  split at member
  · exact inFields field member
  · rcases Json.mem_set member with rfl | old
    · have notReference : ("$defs" : Text) ≠ "$ref" := by decide
      refine ⟨fun impossible => absurd impossible notReference, everyReference_object.mpr fun entry isEntry => ?_⟩
      rcases mem_mergedDefinitions isEntry with ⟨existing, found, before⟩ | generated
      · exact everyReference_object.mp (inFields _ (Json.mem_of_get found)).2 entry before
      · exact ⟨fun impossible => absurd impossible (inDefinitions entry generated).1, (inDefinitions entry generated).2⟩
    · exact inFields field old

end Definitions

/-! ## The references of a result -/

/-- The digests are written in hexadecimal digits. -/
def IsHexDigest (sha256 : Text → Text) : Prop :=
  ∀ text, ∀ character ∈ sha256 text, character ∈ ("0123456789abcdef" : Text)

section Results

variable {sha256 : Text → Text} {scope : ReferenceScope} {location label : Text} {fuel : Nat} {context : OpenApiContext}
  {schema out : JsonObject} {places : List ReferenceTarget} {holds : Json → Prop}

theorem placesOf_eq_some {parser : OpenApiMaterializer} {node : Json} : parser.placesOf context node = some places ↔
    ∃ references, schemaReferences parser.descent node = some references ∧
      List.Forall₂ (fun reference place => parser.locate context reference = .ok place) references places := by
  unfold Materializer.placesOf
  simp only [Option.bind_eq_bind, Option.bind_eq_some_iff, mapM_eq_some]
  have located : ∀ reference place, (parser.locate context reference).toOption = some place ↔
      parser.locate context reference = .ok place := by
    intro reference place
    cases parser.locate context reference <;> simp [Except.toOption]
  simp only [located]

theorem rewritten_of_places {parser : OpenApiMaterializer} {node : Json} (walksEverywhere : parser.descent = everywhere)
    (arePlaces : parser.placesOf context node = some places)
    (each : ∀ place ∈ places, holds (definitionReference (parser.key place))) :
    EveryReference holds (parser.rewriting context node) := by
  obtain ⟨references, collected, located⟩ := placesOf_eq_some.mp arePlaces
  rw [Materializer.rewriting, walksEverywhere]
  rw [walksEverywhere] at collected
  refine everyReference_rewrite ⟨references, collected, fun reference member => ?_⟩
  obtain ⟨place, isPlace, isLocated⟩ := exists_of_forall₂_left located member
  rw [Materializer.keyOf, isLocated]
  exact each place isPlace

/-- Every reference of a result is one to a definition that was made. -/
theorem everyReference_of_explores {after : JsonObject}
    (arePlaces : (openApiParser sha256 scope location).placesOf context (.object schema) = some places)
    (run : ReferenceGraph.Explores (openApiParser sha256 scope location).graph fuel [] [] places after)
    (each : ∀ key ∈ after.map Prod.fst, holds (definitionReference key)) :
    EveryReference holds (.object (withDefinitions (rewrittenFields (openApiParser sha256 scope location) context schema) after)) := by
  have extended := run.extends List.nodup_nil
  refine everyReference_withDefinitions ?_ ?_
  · have rewritten := rewritten_of_places rfl arePlaces fun place member => each _ (extended.covers place member)
    rw [rewriting_object] at rewritten
    exact rewritten
  · intro entry member
    have isKey : entry.1 ∈ after.map Prod.fst := List.mem_map.mpr ⟨entry, member, rfl⟩
    constructor
    · obtain ⟨place, isPlace⟩ := (run.keys_of_places _ isKey).resolve_left List.not_mem_nil
      rw [isPlace]
      intro impossible
      cases impossible
    · rcases run.entry_cases List.nodup_nil entry member with impossible | isPlaceholder | ⟨place, references, read, rfl, covered⟩
      · cases impossible
      · rw [isPlaceholder]
        trivial
      · obtain ⟨target, isTarget⟩ := Materializer.exists_schema read
        rw [Materializer.references_graph isTarget] at read
        rw [Materializer.definition_eq isTarget]
        exact rewritten_of_places rfl read fun other isReference => each _ (covered other isReference)

/-- The characters of the keys of definitions. -/
def definitionCharacters : Text :=
  "mcplica_ref_0123456789abcdef"

theorem openApiKey_characters (hex : IsHexDigest sha256) (place : ReferenceTarget) :
    ∀ character ∈ openApiKey sha256 place, character ∈ definitionCharacters := by
  intro character member
  rcases List.mem_append.mp member with inName | inDigest
  · have names : ∀ other ∈ ("mcplica_ref_" : Text), other ∈ definitionCharacters := Text.forall_of_all (by decide)
    exact names character inName
  · have digits : ∀ other ∈ ("0123456789abcdef" : Text), other ∈ definitionCharacters := Text.forall_of_all (by decide)
    exact digits character (hex _ character (List.mem_of_mem_take inDigest))

theorem decodedTokens_definition {key : Text} (characters : ∀ character ∈ key, character ∈ definitionCharacters) :
    decodedTokens (("/$defs/" : Text) ++ key) = some [("$defs" : Text), key] := by
  have plain : ∀ character ∈ definitionCharacters, character.toNat < 0x80 ∧ character ∉ ("/%~" : Text) :=
    Text.forall_of_all (by decide)
  have absent : ∀ special ∈ ("/%~" : Text), special ∉ key := fun special isSpecial member =>
    (plain special (characters special member)).2 isSpecial
  have isSplit : (("$defs" : Text) ++ '/' :: key).splitOn '/' = [("$defs" : Text), key] := by
    rw [List.splitOn_append_cons_self, List.splitOn_eq_singleton (absent '/' (by decide))]
    rfl
  have decoded : decodeToken key = key := by
    have unquoted : Text.unquote key = key := by
      refine Text.unquote_of_noSign (List.all_eq_true.mpr fun character member => ?_) (absent '%' (by decide))
      exact decide_eq_true (plain character (characters character member)).1
    have noTilde := absent '~' (by decide)
    rw [decodeToken, unquoted, Text.replacePair_of_not_mem noTilde, Text.replacePair_of_not_mem noTilde]
  show some (((("$defs" : Text) ++ '/' :: key).splitOn '/').map decodeToken) = _
  rw [isSplit, List.map_cons, List.map_cons, List.map_nil, decoded]
  rfl

/-- The contract accepts every result. -/
theorem validateLocalSchemaReferences_of_explores (platform : Platform) (hex : IsHexDigest sha256) {after : JsonObject}
    (arePlaces : (openApiParser sha256 scope location).placesOf context (.object schema) = some places)
    (run : ReferenceGraph.Explores (openApiParser sha256 scope location).graph fuel [] [] places after) :
    validateLocalSchemaReferences platform
      (withDefinitions (rewrittenFields (openApiParser sha256 scope location) context schema) after) label = .ok () := by
  have every : EveryReference (fun value => ∃ key ∈ after.map Prod.fst, value = definitionReference key) _ :=
    everyReference_of_explores arePlaces run fun key isKey => ⟨key, isKey, rfl⟩
  rw [validateLocalSchemaReferences, forM_eq_ok]
  intro reference member
  obtain ⟨key, isKey, rfl⟩ := every.references reference member
  obtain ⟨place, isPlace⟩ := (run.keys_of_places _ isKey).resolve_left List.not_mem_nil
  have decoded : decodedTokens (("/$defs/" : Text) ++ key) = some [("$defs" : Text), key] := by
    refine decodedTokens_definition ?_
    rw [isPlace]
    exact openApiKey_characters hex place
  obtain ⟨entries, value, isDefinitions, isDefinition⟩ :=
    @get_withDefinitions key (rewrittenFields (openApiParser sha256 scope location) context schema) after isKey
  show (do
    ensure (Text.startsWith ('#' :: (("/$defs/" : Text) ++ key)) "#") _
    resolveLocalSchemaReference platform _ label ('#' :: (("/$defs/" : Text) ++ key))) = _
  refine bind_eq_ok.mpr ⟨(), rfl, resolveLocalSchemaReference_eq_ok.mpr ⟨value, [.member "$defs", .member key], ?_⟩⟩
  rw [contractNode, decoded]
  refine walk_object.mpr ⟨_, [.member key], isDefinitions, ?_, rfl⟩
  exact walk_object.mpr ⟨value, [], isDefinition, rfl, rfl⟩

end Results

/-! ## The schemas that a schema refers to -/

section Reached

variable (scope : ReferenceScope) (context : OpenApiContext) (root : JsonObject)

/-- The schemas that are reached through references where schemas stand, each with the document it stands in. -/
inductive SchemaReached : OpenApiContext → JsonObject → Prop
  | root : SchemaReached context root
  | reference {inside : OpenApiContext} {schema target : JsonObject} {references : List Text} {reference : Text}
      {place : ReferenceTarget} (reached : SchemaReached inside schema)
      (collected : schemaReferences inventoryDescent (.object schema) = some references) (member : reference ∈ references)
      (located : scope.target reference inside.document inside.sourceVersionId = .ok place)
      (found : pointer place.document place.pointer = .ok (.object target)) :
      SchemaReached ⟨place.document, place.sourceVersionId⟩ target

/-- The schemas are dictionaries, their definitions are objects, and all their references resolve to schemas. -/
structure Materializable : Prop where
  dictionaries : ∀ {inside schema}, SchemaReached scope context root inside schema → (schema.map Prod.fst).Nodup
  definitions : ∀ {inside schema value}, SchemaReached scope context root inside schema →
    Json.get schema "$defs" = some value → ∃ existing, value = .object existing
  resolves : ∀ {inside schema}, SchemaReached scope context root inside schema → ∃ references,
    schemaReferences inventoryDescent (.object schema) = some references ∧ ∀ reference ∈ references, ∃ place target,
      scope.target reference inside.document inside.sourceVersionId = .ok place ∧
        pointer place.document place.pointer = .ok (.object target)

/-- A reference where a schema stands leads to the place. -/
def Referenced (place : ReferenceTarget) : Prop :=
  ∃ inside schema references reference, SchemaReached scope context root inside schema ∧
    schemaReferences inventoryDescent (.object schema) = some references ∧ reference ∈ references ∧
    scope.target reference inside.document inside.sourceVersionId = .ok place

end Reached

section Runs

variable {sha256 : Text → Text} {scope : ReferenceScope} {location : Text} {context inside : OpenApiContext}
  {root schema : JsonObject} {places : List ReferenceTarget} {place : ReferenceTarget}

theorem schemaAt_eq_ok : (openApiParser sha256 scope location).schemaAt place = .ok schema ↔
    pointer place.document place.pointer = .ok (.object schema) := by
  show attributed _ _ _ = _ ↔ _
  rw [attributed_eq_ok, bind_eq_ok]
  constructor
  · rintro ⟨node, found, isObject⟩
    cases node with
    | object fields =>
      cases isObject
      exact found
    | null | bool | number | string | array => cases isObject
  · intro found
    exact ⟨_, found, rfl⟩

theorem schemaAt_aware (found : pointer place.document place.pointer = .ok (.object schema)) :
    (schemaAwareParser sha256 scope location).schemaAt place = .ok schema :=
  (@schemaAt_eq_ok sha256 scope location schema place).mpr found

theorem Referenced.target (materializable : Materializable scope context root) (referenced : Referenced scope context root place) :
    ∃ target, pointer place.document place.pointer = .ok (.object target) ∧
      SchemaReached scope context root ⟨place.document, place.sourceVersionId⟩ target := by
  obtain ⟨inside, schema, references, reference, reached, collected, member, located⟩ := referenced
  obtain ⟨others, alsoCollected, resolves⟩ := materializable.resolves reached
  rw [collected] at alsoCollected
  cases alsoCollected
  obtain ⟨other, target, alsoLocated, found⟩ := resolves reference member
  rw [located] at alsoLocated
  cases alsoLocated
  exact ⟨target, found, .reference reached collected member located found⟩

theorem exists_placesOf (materializable : Materializable scope context root)
    (reached : SchemaReached scope context root inside schema) :
    ∃ places, (schemaAwareParser sha256 scope location).placesOf inside (.object schema) = some places := by
  obtain ⟨references, collected, resolves⟩ := materializable.resolves reached
  have located : ∃ places, List.Forall₂ (fun reference place =>
      scope.target reference inside.document inside.sourceVersionId = .ok place) references places := by
    clear collected
    induction references with
    | nil => exact ⟨[], .nil⟩
    | cons reference rest ih =>
      obtain ⟨place, -, isLocated, -⟩ := resolves reference List.mem_cons_self
      obtain ⟨places, others⟩ := ih fun other later => resolves other (List.mem_cons_of_mem _ later)
      exact ⟨place :: places, .cons isLocated others⟩
  obtain ⟨places, located⟩ := located
  exact ⟨places, placesOf_eq_some.mpr ⟨references, collected, located⟩⟩

theorem referenced_of_placesOf (reached : SchemaReached scope context root inside schema)
    (arePlaces : (schemaAwareParser sha256 scope location).placesOf inside (.object schema) = some places)
    (member : place ∈ places) : Referenced scope context root place := by
  obtain ⟨references, collected, located⟩ := placesOf_eq_some.mp arePlaces
  obtain ⟨reference, isReference, isLocated⟩ := exists_of_forall₂_right located member
  exact ⟨inside, schema, references, reference, reached, collected, isReference, isLocated⟩

theorem referenced_of_reaches (materializable : Materializable scope context root)
    (reached : SchemaReached scope context root inside schema)
    (arePlaces : (schemaAwareParser sha256 scope location).placesOf inside (.object schema) = some places)
    (reaches : ReferenceGraph.Reaches (schemaAwareParser sha256 scope location).graph places place) :
    Referenced scope context root place := by
  induction reaches with
  | start member => exact referenced_of_placesOf reached arePlaces member
  | next _ read member ih =>
    obtain ⟨target, found, targetReached⟩ := ih.target materializable
    rw [Materializer.references_graph (schemaAt_aware found)] at read
    exact referenced_of_placesOf targetReached read member

/-! ### Finitely many places -/

/-- Where the search starts. -/
def startPlace (context : OpenApiContext) (root : JsonObject) : Place :=
  ⟨.object root, context.document, context.sourceVersionId, []⟩

variable {resolver : OpenApiReferenceResolver} {unicode : Unicode}

theorem stays_reached (reached : SchemaReached (resolver.scope unicode) context root inside schema) :
    inside.document ∈ resolver.documents (startPlace context root) ∧
      inside.sourceVersionId ∈ resolver.sources (startPlace context root) ∧
      (Json.object schema).references ⊆ resolver.written (startPlace context root) := by
  induction reached with
  | root => exact ⟨List.mem_cons_self, List.mem_cons_self, List.subset_append_left _ _⟩
  | reference _ collected member located found ih =>
    obtain ⟨isDocument, isSource, isWritten⟩ := ih
    obtain ⟨targetDocument, targetSource, -⟩ := OpenApiReferenceResolver.target_stays isDocument isSource
      (isWritten (string_mem_references collected _ member)) located
    exact ⟨targetDocument, targetSource, OpenApiReferenceResolver.found_written targetDocument found⟩

theorem Referenced.identity (referenced : Referenced (resolver.scope unicode) context root place) :
    (place.sourceVersionId, place.pointer) ∈ resolver.identities unicode (startPlace context root) := by
  obtain ⟨inside, schema, references, reference, reached, collected, member, located⟩ := referenced
  obtain ⟨isDocument, isSource, isWritten⟩ := stays_reached reached
  exact (OpenApiReferenceResolver.target_stays isDocument isSource
    (isWritten (string_mem_references collected _ member)) located).2.2

/-- The key of an identity. -/
def identityKey (sha256 : Text → Text) (identity : Uuid × Text) : Text :=
  openApiKey sha256 ⟨[], identity.1, identity.2⟩

/-- The search through the schemas that are reached ends. -/
theorem exists_aware_run (sha256 : Text → Text) (location : Text)
    (materializable : Materializable (resolver.scope unicode) context root)
    (reached : SchemaReached (resolver.scope unicode) context root inside schema) :
    ∃ places bound after,
      (schemaAwareParser sha256 (resolver.scope unicode) location).placesOf inside (.object schema) = some places ∧
      ∀ fuel ≥ bound, ReferenceGraph.Explores (schemaAwareParser sha256 (resolver.scope unicode) location).graph fuel [] []
        places after := by
  obtain ⟨places, arePlaces⟩ := exists_placesOf materializable reached
  let keys := ((resolver.identities unicode (startPlace context root)).map (identityKey sha256)).toFinset
  have all : ∀ place, ReferenceGraph.Reaches (schemaAwareParser sha256 (resolver.scope unicode) location).graph places place →
      (schemaAwareParser sha256 (resolver.scope unicode) location).graph.key place ∈ keys ∧
        ∃ references, (schemaAwareParser sha256 (resolver.scope unicode) location).graph.references place = some references := by
    intro place reaches
    have referenced := referenced_of_reaches materializable reached arePlaces reaches
    refine ⟨List.mem_toFinset.mpr (List.mem_map.mpr ⟨_, referenced.identity, rfl⟩), ?_⟩
    obtain ⟨target, found, targetReached⟩ := referenced.target materializable
    rw [Materializer.references_graph (schemaAt_aware found)]
    exact exists_placesOf materializable targetReached
  obtain ⟨after, run⟩ := ReferenceGraph.exists_explores all keys.card [] places []
    (fun place member => .start member) List.nodup_nil (Finset.card_le_card Finset.sdiff_subset)
  exact ⟨places, keys.card, after, arePlaces, fun fuel enough => run.more_fuel enough⟩

/-! ### Where the walks do the same -/

theorem placesOf_separated (separated : Separated inventoryDescent.position (.object schema)) :
    (openApiParser sha256 scope location).placesOf inside (.object schema) =
      (schemaAwareParser sha256 scope location).placesOf inside (.object schema) := by
  have same : schemaReferences everywhere (.object schema) = schemaReferences inventoryDescent (.object schema) :=
    (@walk_separated inventoryDescent.position id _ separated).1
  show (do
    let references ← schemaReferences everywhere (.object schema)
    references.mapM _) = _
  rw [same]
  rfl

theorem rewriting_separated (separated : Separated inventoryDescent.position (.object schema)) :
    (openApiParser sha256 scope location).rewriting inside (.object schema) =
      (schemaAwareParser sha256 scope location).rewriting inside (.object schema) :=
  (@walk_separated inventoryDescent.position _ _ separated).2

theorem explores_separated (materializable : Materializable scope context root)
    (separated : ∀ {inside schema}, SchemaReached scope context root inside schema →
      Separated inventoryDescent.position (.object schema))
    (reached : SchemaReached scope context root inside schema)
    (arePlaces : (schemaAwareParser sha256 scope location).placesOf inside (.object schema) = some places)
    {fuel : Nat} {after : JsonObject}
    (run : ReferenceGraph.Explores (schemaAwareParser sha256 scope location).graph fuel [] [] places after) :
    ReferenceGraph.Explores (openApiParser sha256 scope location).graph fuel [] [] places after := by
  refine run.congr (fun place reaches => ?_) fun place member => .start member
  obtain ⟨target, found, targetReached⟩ := (referenced_of_reaches materializable reached arePlaces reaches).target materializable
  have isSchema : (openApiParser sha256 scope location).schemaAt place = .ok target := schemaAt_eq_ok.mpr found
  have isSeparated := separated targetReached
  constructor
  · rw [Materializer.references_graph (schemaAt_aware found)]
    exact (Materializer.references_graph isSchema).trans (placesOf_separated isSeparated)
  · rw [Materializer.definition_eq (schemaAt_aware found)]
    exact (Materializer.definition_eq isSchema).trans (rewriting_separated isSeparated)

end Runs

/-! ## Data are left alone -/

/-- Under every digest the schema is materialized as by the walk that knows where schemas stand, and the contract accepts
the result. -/
def LeavesDataAlone (platform : Platform) (scope : ReferenceScope) (location label : Text) (context : OpenApiContext)
    (schema : JsonObject) : Prop :=
  ∀ sha256, IsHexDigest sha256 → ∃ bound out, (∀ fuel ≥ bound,
    materializeSchema sha256 scope fuel (.object schema) context location = .ok out ∧
      materializeWith (schemaAwareParser sha256 scope location) location fuel (.object schema) context = .ok out) ∧
    validateLocalSchemaReferences platform out label = .ok ()

section Alone

variable {platform : Platform} {scope : ReferenceScope} {location label : Text} {context inside : OpenApiContext}
  {root schema : JsonObject}

theorem get_rewriteFields {descent : Descent} (keyOf : Text → Text) (isMap : descent.position "$defs" = .schemaMap)
    (schema : JsonObject) : Json.get (rewriteFields descent keyOf schema) "$defs" =
      (Json.get schema "$defs").map (rewriteMap descent keyOf) := by
  induction schema with
  | nil => rfl
  | cons field rest ih =>
    obtain ⟨key, item⟩ := field
    rw [rewriteFields]
    by_cases isReference : key = "$ref"
    · have different : (("$defs" : Text) == key) = false := by
        rw [isReference]
        decide
      rw [if_pos isReference, ih, Json.get, Json.get, List.lookup_cons, different]
    · rw [if_neg isReference]
      by_cases isDefinitions : key = "$defs"
      · subst isDefinitions
        rw [Json.get, Json.get, List.lookup_cons, List.lookup_cons, beq_self_eq_true, isMap]
        rfl
      · have different : (("$defs" : Text) == key) = false := by simpa using Ne.symm isDefinitions
        rw [Json.get, Json.get, List.lookup_cons, List.lookup_cons, different]
        exact ih

theorem get_rewrittenFields (sha256 : Text → Text) (scope : ReferenceScope) (location : Text) (inside : OpenApiContext)
    (schema : JsonObject) : Json.get (rewrittenFields (schemaAwareParser sha256 scope location) inside schema) "$defs" =
      (Json.get schema "$defs").map (rewriteMap inventoryDescent ((schemaAwareParser sha256 scope location).keyOf inside)) := by
  have isMap : inventoryDescent.position "$defs" = .schemaMap := by decide
  rw [← get_rewriteFields _ isMap, rewrittenFields]
  cases Json.get schema "$ref" with
  | none => rfl
  | some own => cases own <;> rfl

theorem leavesDataAlone_of_separated {resolver : OpenApiReferenceResolver} {unicode : Unicode}
    (materializable : Materializable (resolver.scope unicode) context root)
    (separated : ∀ {inside schema}, SchemaReached (resolver.scope unicode) context root inside schema →
      Separated inventoryDescent.position (.object schema))
    (reached : SchemaReached (resolver.scope unicode) context root inside schema) :
    LeavesDataAlone platform (resolver.scope unicode) location label inside schema := by
  intro sha256 hex
  obtain ⟨places, bound, after, arePlaces, runs⟩ := exists_aware_run sha256 location materializable reached
  have isSeparated := separated reached
  have openApiPlaces := (placesOf_separated isSeparated).trans arePlaces
  have openApiRun : ∀ fuel ≥ bound, _ := fun fuel enough =>
    explores_separated materializable separated reached arePlaces (runs fuel enough)
  have sameFields : rewrittenFields (openApiParser sha256 (resolver.scope unicode) location) inside schema =
      rewrittenFields (schemaAwareParser sha256 (resolver.scope unicode) location) inside schema := by
    have same := @rewriting_separated sha256 (resolver.scope unicode) location inside schema isSeparated
    rw [rewriting_object, rewriting_object, Json.object.injEq] at same
    exact same
  have added : addDefinitions location (rewrittenFields (schemaAwareParser sha256 (resolver.scope unicode) location) inside schema)
      after = .ok (withDefinitions (rewrittenFields (schemaAwareParser sha256 (resolver.scope unicode) location) inside schema)
        after) := by
    refine addDefinitions_of_valid fun value found => ?_
    rw [get_rewrittenFields, Option.map_eq_some_iff] at found
    obtain ⟨source, isSource, rfl⟩ := found
    obtain ⟨existing, rfl⟩ := materializable.definitions reached isSource
    exact ⟨_, rfl⟩
  refine ⟨bound, withDefinitions (rewrittenFields (schemaAwareParser sha256 (resolver.scope unicode) location) inside schema)
    after, fun fuel enough => ⟨?_, ?_⟩, ?_⟩
  · rw [materializeSchema_eq]
    exact materializeWith_eq_ok.mpr ⟨places, after, openApiPlaces, openApiRun fuel enough, sameFields ▸ added⟩
  · exact materializeWith_eq_ok.mpr ⟨places, after, arePlaces, runs fuel enough, added⟩
  · rw [← sameFields]
    exact validateLocalSchemaReferences_of_explores platform hex openApiPlaces (openApiRun bound le_rfl)

/-! ### Constant digests

Under a digest that is always the same, all references of a result are the same. Two of these digests tell references
apart from data, and a third one makes up for definitions that are replaced because they have the name of a digest. -/

def constantDigest (digit : Char) : Text → Text :=
  fun _ => [digit]

def constantKey (digit : Char) : Text :=
  ("mcplica_ref_" : Text) ++ [digit]

def constantReference (digit : Char) : Text :=
  ("#/$defs/" : Text) ++ constantKey digit

/-- What a schema shows of its data under a constant digest. -/
structure Shows (scope : ReferenceScope) (location : Text) (inside : OpenApiContext) (schema : JsonObject) (digit : Char) :
    Prop where
  fields : ∀ field ∈ schema, field.1 ≠ "$defs" → EveryReferenceOfFields (fun value => value = .string (constantReference digit))
    (rewriteFields inventoryDescent ((schemaAwareParser (constantDigest digit) scope location).keyOf inside) [field])
  definitions : ∀ existing, Json.get schema "$defs" = some (.object existing) → ∀ entry ∈ existing,
    entry.1 ≠ constantKey digit → EveryReferenceOfFields (fun value => value = .string (constantReference digit))
      (rewriteEntries inventoryDescent ((schemaAwareParser (constantDigest digit) scope location).keyOf inside) [entry])

theorem rewriteFields_subset {descent : Descent} {keyOf : Text → Text} {field : Text × Json} (member : field ∈ schema) :
    rewriteFields descent keyOf [field] ⊆ rewriteFields descent keyOf schema := by
  induction schema with
  | nil => cases member
  | cons first rest ih =>
    obtain ⟨key, item⟩ := first
    rcases List.mem_cons.mp member with rfl | later
    · rw [rewriteFields, rewriteFields, rewriteFields]
      split
      · exact List.nil_subset _
      · exact List.cons_subset_cons _ (List.nil_subset _)
    · have inRest := ih later
      conv => rhs; rw [rewriteFields]
      split
      · exact inRest
      · exact List.subset_cons_of_subset _ inRest

theorem rewriteFields_key {descent : Descent} {keyOf : Text → Text} {field other : Text × Json}
    (member : other ∈ rewriteFields descent keyOf [field]) : other.1 = field.1 := by
  obtain ⟨key, item⟩ := field
  rw [rewriteFields] at member
  split at member
  · cases member
  · rw [rewriteFields, List.mem_singleton] at member
    rw [member]

theorem rewriteEntries_subset {descent : Descent} {keyOf : Text → Text} {entry : Text × Json} {entries : JsonObject}
    (member : entry ∈ entries) : (entry.1, rewrite descent keyOf entry.2) ∈ rewriteEntries descent keyOf entries := by
  induction entries with
  | nil => cases member
  | cons first rest ih =>
    obtain ⟨name, item⟩ := first
    rw [rewriteEntries]
    rcases List.mem_cons.mp member with rfl | later
    · exact List.mem_cons_self
    · exact List.mem_cons_of_mem _ (ih later)

theorem shows_of_everyReference {digit : Char} {after : JsonObject}
    (keys : ∀ key ∈ after.map Prod.fst, key = constantKey digit)
    (every : EveryReferenceIs (constantReference digit) (.object (withDefinitions
      (rewrittenFields (schemaAwareParser (constantDigest digit) scope location) inside schema) after))) :
    Shows scope location inside schema digit := by
  rw [EveryReferenceIs, everyReference_object] at every
  unfold withDefinitions at every
  constructor
  · intro field isField notDefinitions
    refine everyReferenceOfFields_iff.mpr fun other member => ?_
    have rewritten : other ∈ rewrittenFields (schemaAwareParser (constantDigest digit) scope location) inside schema :=
      List.mem_append_right _ (rewriteFields_subset isField member)
    split at every
    · exact every other rewritten
    · refine every other (mem_set_of_ne rewritten ?_)
      rw [rewriteFields_key member]
      exact notDefinitions
  · intro existing isObject entry isEntry notKey
    have found : Json.get (rewrittenFields (schemaAwareParser (constantDigest digit) scope location) inside schema) "$defs" =
        some (.object (rewriteEntries inventoryDescent
          ((schemaAwareParser (constantDigest digit) scope location).keyOf inside) existing)) := by
      rw [get_rewrittenFields, isObject]
      rfl
    have rewritten := @rewriteEntries_subset inventoryDescent
      ((schemaAwareParser (constantDigest digit) scope location).keyOf inside) entry existing isEntry
    refine everyReferenceOfFields_iff.mpr fun other member => ?_
    rw [rewriteEntries, rewriteEntries, List.mem_singleton] at member
    subst member
    split at every
    · have inside := (every _ (Json.mem_of_get found)).2
      exact everyReference_object.mp inside _ rewritten
    · have whole := (every _ (Json.mem_of_get (Json.get_set_self _ _ _))).2
      rw [mergedDefinitions, found] at whole
      refine everyReference_object.mp whole _ (mem_mergeFields_of_ne rewritten fun isKey => notKey ?_)
      exact keys _ isKey

theorem shows_of_leavesDataAlone {digit : Char} (isDigit : digit ∈ ("0123456789abcdef" : Text))
    (alone : LeavesDataAlone platform scope location label inside schema) : Shows scope location inside schema digit := by
  have hex : IsHexDigest (constantDigest digit) := by
    intro text character member
    rw [List.mem_singleton.mp member]
    exact isDigit
  obtain ⟨bound, out, results, -⟩ := alone (constantDigest digit) hex
  obtain ⟨openApi, aware⟩ := results bound le_rfl
  rw [materializeSchema_eq] at openApi
  obtain ⟨places, after, arePlaces, run, added⟩ := materializeWith_eq_ok.mp openApi
  obtain ⟨awarePlaces, awareAfter, -, awareRun, awareAdded⟩ := materializeWith_eq_ok.mp aware
  have every : EveryReferenceIs (constantReference digit) (.object out) := by
    rw [addDefinitions_eq_ok added]
    refine everyReference_of_explores arePlaces run fun key isKey => ?_
    obtain ⟨place, rfl⟩ := (run.keys_of_places _ isKey).resolve_left List.not_mem_nil
    rfl
  rw [addDefinitions_eq_ok awareAdded] at every
  refine shows_of_everyReference (fun key isKey => ?_) every
  obtain ⟨place, rfl⟩ := (awareRun.keys_of_places _ isKey).resolve_left List.not_mem_nil
  rfl

theorem separatedFields_of_each {position : Text → Position} {fields : JsonObject}
    (each : ∀ field ∈ fields, SeparatedFields position [field]) : SeparatedFields position fields := by
  induction fields with
  | nil => trivial
  | cons field rest ih =>
    exact ⟨(each field List.mem_cons_self).1,
      ih fun other later => each other (List.mem_cons_of_mem _ later)⟩

theorem separatedEntries_of_each {position : Text → Position} {entries : JsonObject}
    (each : ∀ entry ∈ entries, SeparatedEntries position [entry]) : SeparatedEntries position entries := by
  induction entries with
  | nil => trivial
  | cons entry rest ih =>
    have first := each entry List.mem_cons_self
    exact ⟨first.1, first.2.1, ih fun other later => each other (List.mem_cons_of_mem _ later)⟩

theorem separated_of_shows (dictionary : (schema.map Prod.fst).Nodup)
    (valid : ∀ value, Json.get schema "$defs" = some value → ∃ existing, value = .object existing)
    (first : Shows scope location inside schema '1') (second : Shows scope location inside schema '2')
    (third : Shows scope location inside schema '3') : Separated inventoryDescent.position (.object schema) := by
  refine separatedFields_of_each fun field member => ?_
  by_cases isDefinitions : field.1 = "$defs"
  · obtain ⟨key, item⟩ := field
    dsimp only at isDefinitions
    subst isDefinitions
    have found : Json.get schema "$defs" = some item := lookup_of_mem dictionary member
    obtain ⟨existing, rfl⟩ := valid item found
    refine ⟨.inr ?_, trivial⟩
    show SeparatedEntries inventoryDescent.position existing
    refine separatedEntries_of_each fun entry isEntry => ?_
    -- At most one of the digests has the name of the definition.
    by_cases isFirst : entry.1 = constantKey '1'
    · refine separatedEntries_of_rewrites (by decide) (second.definitions existing found entry isEntry ?_)
        (third.definitions existing found entry isEntry ?_)
      · rw [isFirst]
        decide
      · rw [isFirst]
        decide
    · by_cases isSecond : entry.1 = constantKey '2'
      · refine separatedEntries_of_rewrites (by decide) (first.definitions existing found entry isEntry isFirst)
          (third.definitions existing found entry isEntry ?_)
        rw [isSecond]
        decide
      · exact separatedEntries_of_rewrites (by decide) (first.definitions existing found entry isEntry isFirst)
          (second.definitions existing found entry isEntry isSecond)
  · exact separatedFields_of_rewrites (by decide) (first.fields field member isDefinitions)
      (second.fields field member isDefinitions)

end Alone

/-- Every schema that is reached is materialized with its data left alone exactly when none of them has data with a
member `$ref` or a property of that name. -/
theorem data_left_alone_iff (platform : Platform) (resolver : OpenApiReferenceResolver) (unicode : Unicode)
    (location label : Text) {context : OpenApiContext} {root : JsonObject}
    (materializable : Materializable (resolver.scope unicode) context root) :
    (∀ inside schema, SchemaReached (resolver.scope unicode) context root inside schema →
      LeavesDataAlone platform (resolver.scope unicode) location label inside schema) ↔
    ∀ inside schema, SchemaReached (resolver.scope unicode) context root inside schema →
      Separated inventoryDescent.position (.object schema) := by
  constructor
  · intro alone inside schema reached
    have shows : ∀ digit ∈ ("0123456789abcdef" : Text), Shows (resolver.scope unicode) location inside schema digit :=
      fun digit isDigit => shows_of_leavesDataAlone isDigit (alone inside schema reached)
    exact separated_of_shows (materializable.dictionaries reached) (fun value => materializable.definitions reached)
      (shows '1' (by decide)) (shows '2' (by decide)) (shows '3' (by decide))
  · intro separated inside schema reached
    exact leavesDataAlone_of_separated materializable (fun {inside} {schema} => separated inside schema) reached

section Pets

def petDefinition : JsonObject :=
  [Json.entry "type" (.text "object")]

def petResolver : OpenApiReferenceResolver :=
  ⟨[Json.entry "Pet" (.object petDefinition)], 1, []⟩

def petContext : OpenApiContext :=
  ⟨petResolver.rootDocument, 1⟩

/-- A schema with a reference and with a value that has none. -/
def ownerSchema : JsonObject :=
  [Json.entry "properties" (.object [Json.entry "pet" (.object [Json.entry "$ref" (.text "#/Pet")])]),
    Json.entry "default" (.object [Json.entry "pet" (.object [])])]

theorem ownerSchema_reached {inside : OpenApiContext} {schema : JsonObject}
    (reached : SchemaReached (petResolver.scope asciiUnicode) petContext ownerSchema inside schema) :
    inside = petContext ∧ (schema = ownerSchema ∨ schema = petDefinition) := by
  induction reached with
  | root => exact ⟨rfl, .inl rfl⟩
  | reference _ collected member located found ih =>
    obtain ⟨rfl, rfl | rfl⟩ := ih
    · cases collected
      cases List.mem_singleton.mp member
      cases located
      cases found
      exact ⟨rfl, .inr rfl⟩
    · cases collected
      cases member

theorem ownerSchema_materializable : Materializable (petResolver.scope asciiUnicode) petContext ownerSchema where
  dictionaries reached := by
    obtain ⟨-, rfl | rfl⟩ := ownerSchema_reached reached
    · decide
    · decide
  definitions reached found := by
    obtain ⟨-, rfl | rfl⟩ := ownerSchema_reached reached
    · cases found
    · cases found
  resolves reached := by
    obtain ⟨rfl, rfl | rfl⟩ := ownerSchema_reached reached
    · refine ⟨["#/Pet"], rfl, fun reference member => ?_⟩
      rw [List.mem_singleton.mp member]
      exact ⟨_, petDefinition, rfl, rfl⟩
    · exact ⟨[], rfl, fun reference member => by cases member⟩

/-- The schema is materialized as it should be. -/
theorem ownerSchema_left_alone : Materializable (petResolver.scope asciiUnicode) petContext ownerSchema ∧
    LeavesDataAlone plainPlatform (petResolver.scope asciiUnicode) "#/Owner" "schema" petContext ownerSchema := by
  refine ⟨ownerSchema_materializable, ?_⟩
  refine (data_left_alone_iff plainPlatform petResolver asciiUnicode "#/Owner" "schema" ownerSchema_materializable).mpr ?_
    petContext ownerSchema .root
  intro inside schema reached
  obtain ⟨-, rfl | rfl⟩ := ownerSchema_reached reached
  · have properties : SeparatedEntries inventoryDescent.position
        [Json.entry "pet" (.object [Json.entry "$ref" (.text "#/Pet")])] :=
      ⟨by decide, ⟨.inl rfl, trivial⟩, trivial⟩
    have default : Unreferring (.object [Json.entry "pet" (.object [])]) :=
      ⟨fun impossible => absurd impossible (by decide), trivial, trivial⟩
    exact ⟨.inr properties, .inr default, trivial⟩
  · exact ⟨.inr trivial, trivial⟩

/-- A default that looks like a reference. -/
def referringDefault : JsonObject :=
  [Json.entry "type" (.text "object"), Json.entry "default" (.object [Json.entry "$ref" (.text "pets.json")])]

/-- A property with the name `$ref`. -/
def referringProperty : JsonObject :=
  [Json.entry "properties" (.object [Json.entry "$ref" (.object [Json.entry "type" (.text "string")])])]

theorem materializable_of_closed {scope : ReferenceScope} {context : OpenApiContext} {root : JsonObject}
    (closed : schemaReferences inventoryDescent (.object root) = some []) (dictionary : (root.map Prod.fst).Nodup)
    (noDefinitions : Json.get root "$defs" = none) : Materializable scope context root := by
  have only : ∀ {inside schema}, SchemaReached scope context root inside schema → schema = root := by
    intro inside schema reached
    induction reached with
    | root => rfl
    | reference _ collected member _ _ ih =>
      rw [ih, closed] at collected
      cases collected
      cases member
  constructor
  · intro inside schema reached
    rw [only reached]
    exact dictionary
  · intro inside schema value reached found
    rw [only reached, noDefinitions] at found
    cases found
  · intro inside schema reached
    rw [only reached]
    exact ⟨[], closed, fun reference member => by cases member⟩

theorem not_leavesDataAlone_of_error {platform : Platform} {scope : ReferenceScope} {location label : Text}
    {context : OpenApiContext} {schema : JsonObject}
    (fails : ∀ sha256 fuel, ∃ error, materializeSchema sha256 scope fuel (.object schema) context location = .error error) :
    ¬ LeavesDataAlone platform scope location label context schema := by
  intro alone
  have hex : IsHexDigest (constantDigest '0') := by
    intro text character member
    rw [List.mem_singleton.mp member]
    decide
  obtain ⟨bound, out, results, -⟩ := alone (constantDigest '0') hex
  obtain ⟨error, failed⟩ := fails (constantDigest '0') bound
  rw [(results bound le_rfl).1] at failed
  cases failed

/-- Neither schema has a reference where a schema stands, and neither is materialized. -/
theorem referring_data_refused :
    Materializable (petResolver.scope asciiUnicode) petContext referringDefault ∧
    Materializable (petResolver.scope asciiUnicode) petContext referringProperty ∧
    (∀ sha256 fuel, ∃ error, materializeSchema sha256 (petResolver.scope asciiUnicode) fuel (.object referringDefault) petContext
      "#/Owner" = .error error) ∧
    (∀ sha256 fuel, ∃ error, materializeSchema sha256 (petResolver.scope asciiUnicode) fuel (.object referringProperty) petContext
      "#/Owner" = .error error) ∧
    ¬ LeavesDataAlone plainPlatform (petResolver.scope asciiUnicode) "#/Owner" "schema" petContext referringDefault ∧
    ¬ LeavesDataAlone plainPlatform (petResolver.scope asciiUnicode) "#/Owner" "schema" petContext referringProperty := by
  have fails : ∀ schema, (∀ sha256, (openApiParser sha256 (petResolver.scope asciiUnicode) "#/Owner").placesOf petContext
      (.object schema) = none) → ∀ sha256 fuel, ∃ error,
        materializeSchema sha256 (petResolver.scope asciiUnicode) fuel (.object schema) petContext "#/Owner" = .error error := by
    intro schema noPlaces sha256 fuel
    cases result : materializeSchema sha256 (petResolver.scope asciiUnicode) fuel (.object schema) petContext "#/Owner" with
    | error error => exact ⟨error, rfl⟩
    | ok out =>
      obtain ⟨places, after, arePlaces, -⟩ := materializeWith_eq_ok.mp result
      rw [noPlaces] at arePlaces
      cases arePlaces
  have defaultFails := fails referringDefault fun sha256 => rfl
  have propertyFails := fails referringProperty fun sha256 => rfl
  exact ⟨materializable_of_closed rfl (by decide) rfl, materializable_of_closed rfl (by decide) rfl, defaultFails,
    propertyFails, not_leavesDataAlone_of_error defaultFails, not_leavesDataAlone_of_error propertyFails⟩

end Pets

end Mcplica.Parsers
