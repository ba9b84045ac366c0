import Mcplica.Builds.ModelDump
import Mcplica.Contracts.JsonText
import Mcplica.Indexing.Chunks
import Mcplica.Parsers.ComponentReferences

/-! # Semantic chunks

`semantic_chunks` renders the operations, schemas and security schemes of a canonical API for the index. The operations
that a schema chunk lists are found by searching their dumps for a reference to the component; the parser, though, has
replaced every such reference by one to a generated definition. -/

namespace Mcplica.Indexing

open Mcplica.Builds Mcplica.Contracts Mcplica.Domain Mcplica.Library Mcplica.Parsers
open Mcplica.Library.Text (ink)

/-! ## The chunks -/

/-- A `DocumentChunk` of the source; its version is written as in the canonical API. -/
structure SemanticChunk where
  chunkId : Text
  projectId : Uuid
  generationId : Uuid
  sourceVersionId : Text
  sourceKind : Text
  title : Text
  sectionPath : List Text
  operationKeys : List Text
  text : Text
  contentSha256 : Text

/-- The arguments of `append`. -/
structure SemanticSource where
  semanticKey : Text
  sourceVersionId : Text
  sourceKind : Text
  title : Text
  sectionPath : List Text
  operationKeys : List Text
  payload : Json

/-- What the function is called with besides the canonical API. -/
structure SemanticIndexing where
  sha256 : Text → Text
  projectId : Uuid
  generationId : Uuid
  maxChars : Nat
  enough : 2 ≤ maxChars

def SemanticIndexing.chunk (indexing : SemanticIndexing) (source : SemanticSource) (part : Text × Nat) : SemanticChunk :=
  let (text, ordinal) := part
  let contentSha256 := indexing.sha256 text
  let identity := Text.join [Char.ofNat 0] [Text.ofUuid indexing.projectId, Text.ofUuid indexing.generationId,
    source.sourceVersionId, source.sourceKind, source.semanticKey, Text.ofNat ordinal, contentSha256]
  { chunkId := ("chunk_" : Text) ++ indexing.sha256 identity
    projectId := indexing.projectId
    generationId := indexing.generationId
    sourceVersionId := source.sourceVersionId
    sourceKind := source.sourceKind
    title := source.title
    sectionPath := source.sectionPath ++ [("Part " : Text) ++ Text.ofNat (ordinal + 1)]
    operationKeys := source.operationKeys
    text
    contentSha256 }

/-- `append` -/
def SemanticIndexing.append (indexing : SemanticIndexing) (source : SemanticSource) : List SemanticChunk :=
  (boundedSemanticText (source.payload.indented 0) indexing.maxChars indexing.enough).zipIdx.map (indexing.chunk source)

/-- `value or other` -/
def orElse (value : Option Text) (other : Text) : Text :=
  (value.filter (· ≠ [])).getD other

def dumps {α : Type} (make : α → Value) (values : List α) : Json :=
  .array (values.map fun value => (make value).modelDump)

def optionalString (value : Option Text) : Json :=
  (Value.optional Value.text value).modelDump

def operationSource (api : CanonicalApi) (operation : CanonicalOperation) : SemanticSource :=
  let schemeNames := Text.sorted
    (operation.security.flatMap fun requirement => requirement.schemeScopes.map Prod.fst).dedup
  let schemes := schemeNames.filterMap fun name =>
    (api.securitySchemes.lookup name).map fun scheme => (name, (Value.ofSecurityScheme scheme).modelDump)
  { semanticKey := ("operation:" : Text) ++ operation.key
    sourceVersionId := operation.provenance.operation.sourceVersionId
    sourceKind := "operation_semantics"
    title := orElse operation.summary (orElse operation.sourceOperationId operation.key)
    sectionPath := ["Source semantics", "Operations", operation.key]
    operationKeys := [operation.key]
    payload := .object [
      Json.entry "kind" (.text "operation_semantics"),
      Json.entry "operation_key" (.string operation.key),
      Json.entry "operation_id" (optionalString operation.sourceOperationId),
      Json.entry "method" (.string operation.method.value),
      Json.entry "path" (.string operation.pathTemplate),
      Json.entry "summary" (optionalString operation.summary),
      Json.entry "description" (optionalString operation.description),
      Json.entry "tags" (Value.texts operation.tags).modelDump,
      Json.entry "parameters" (dumps Value.ofParameter operation.parameters),
      Json.entry "request_body" (Value.optional Value.ofRequestBody operation.requestBody).modelDump,
      Json.entry "responses" (dumps Value.ofResponse operation.responses),
      Json.entry "security_requirements" (dumps Value.ofSecurityRequirement operation.security),
      Json.entry "security_schemes" (.object schemes),
      Json.entry "source_pointer" (.string operation.provenance.operation.pointer)] }

/-- `operation_payloads` -/
def operationPayloads (api : CanonicalApi) : List (Text × Text) :=
  (dictBy CanonicalOperation.key api.operations).map fun entry => (entry.1, (Value.ofOperation entry.2).modelDump.ascii)

/-- The reference that is searched for. -/
def componentReference (schemaKey : Text) : Text :=
  ("#/components/schemas/" : Text) ++ schemaKey

def referencingKeys (api : CanonicalApi) (schemaKey : Text) : List Text :=
  Text.sorted (((operationPayloads api).filter fun entry =>
    Text.includes entry.2 (componentReference schemaKey)).map Prod.fst)

def schemaSource (api : CanonicalApi) (entry : Text × CanonicalSchema) : SemanticSource where
  semanticKey := ("schema:" : Text) ++ entry.1
  sourceVersionId := entry.2.sourceRef.sourceVersionId
  sourceKind := "schema_semantics"
  title := entry.1
  sectionPath := ["Source semantics", "Schemas", entry.1]
  operationKeys := referencingKeys api entry.1
  payload := .object [
    Json.entry "kind" (.text "schema_semantics"),
    Json.entry "schema_key" (.string entry.1),
    Json.entry "schema" (.object entry.2.schema),
    Json.entry "source_pointer" (.string entry.2.sourceRef.pointer)]

def securitySource (api : CanonicalApi) (entry : Text × CanonicalSecurityScheme) : SemanticSource where
  semanticKey := ("security:" : Text) ++ entry.1
  sourceVersionId := entry.2.sourceRef.sourceVersionId
  sourceKind := "security_semantics"
  title := entry.1
  sectionPath := ["Source semantics", "Security", entry.1]
  operationKeys := Text.sorted ((api.operations.filter fun operation =>
    operation.security.any fun requirement => (requirement.schemeScopes.lookup entry.1).isSome).map CanonicalOperation.key)
  payload := .object [
    Json.entry "kind" (.text "security_semantics"),
    Json.entry "scheme_name" (.string entry.1),
    Json.entry "scheme" (Value.ofSecurityScheme entry.2).modelDump,
    Json.entry "source_pointer" (.string entry.2.sourceRef.pointer)]

def semanticSources (api : CanonicalApi) : List SemanticSource :=
  (Text.sortedBy CanonicalOperation.key api.operations).map (operationSource api) ++
    (Text.sortedBy Prod.fst api.schemas).map (schemaSource api) ++
    (Text.sortedBy Prod.fst api.securitySchemes).map (securitySource api)

/-- `semantic_chunks` -/
def semanticChunks (indexing : SemanticIndexing) (api : CanonicalApi) : List SemanticChunk :=
  (semanticSources api).flatMap indexing.append

/-! ## The chunks of a schema -/

section Chunks

variable {indexing : SemanticIndexing} {api : CanonicalApi} {schemaKey key : Text}

/-- Every source has a chunk: what is rendered is not blank. -/
theorem append_ne_nil {source : SemanticSource} {fields : JsonObject} (isObject : source.payload = .object fields) :
    indexing.append source ≠ [] := by
  have content := (boundedSemanticText_spec (source.payload.indented 0) indexing.enough).2
  have begins : ∃ rest, source.payload.indented 0 = Char.ofNat 0x7b :: rest := by
    rw [isObject]
    cases fields with
    | nil => exact ⟨_, rfl⟩
    | cons field rest => exact ⟨_, rfl⟩
  obtain ⟨rest, begins⟩ := begins
  intro nothing
  have noParts : boundedSemanticText (source.payload.indented 0) indexing.maxChars indexing.enough = [] := by
    simpa [SemanticIndexing.append] using nothing
  rw [noParts, begins] at content
  cases content

/-- The chunks of a schema list the operations whose dumps include the reference. -/
theorem operationKeys_of_schemaChunk {chunk : SemanticChunk} (member : chunk ∈ semanticChunks indexing api)
    (isSchema : chunk.sourceKind = "schema_semantics") (isTitle : chunk.title = schemaKey) :
    chunk.operationKeys = referencingKeys api schemaKey := by
  obtain ⟨source, isSource, isChunk⟩ := List.mem_flatMap.mp member
  obtain ⟨part, -, rfl⟩ := List.mem_map.mp isChunk
  rcases List.mem_append.mp isSource with others | isSecurity
  · rcases List.mem_append.mp others with isOperation | ofSchema
    · obtain ⟨operation, -, rfl⟩ := List.mem_map.mp isOperation
      exact absurd isSchema (show ("operation_semantics" : Text) ≠ "schema_semantics" by decide)
    · obtain ⟨entry, -, rfl⟩ := List.mem_map.mp ofSchema
      exact congrArg (referencingKeys api) isTitle
  · obtain ⟨entry, -, rfl⟩ := List.mem_map.mp isSecurity
    exact absurd isSchema (show ("security_semantics" : Text) ≠ "schema_semantics" by decide)

theorem exists_schemaChunk (isKey : schemaKey ∈ api.schemas.map Prod.fst) : ∃ chunk ∈ semanticChunks indexing api,
    chunk.sourceKind = "schema_semantics" ∧ chunk.title = schemaKey := by
  obtain ⟨entry, isEntry, rfl⟩ := List.mem_map.mp isKey
  obtain ⟨chunk, isChunk⟩ := List.exists_mem_of_ne_nil _
    (@append_ne_nil indexing (schemaSource api entry) _ rfl)
  have isSource : schemaSource api entry ∈ semanticSources api :=
    List.mem_append_left _ (List.mem_append_right _ (List.mem_map_of_mem (Text.mem_sortedBy.mpr isEntry)))
  refine ⟨chunk, List.mem_flatMap.mpr ⟨_, isSource, isChunk⟩, ?_⟩
  obtain ⟨part, -, rfl⟩ := List.mem_map.mp isChunk
  exact ⟨rfl, rfl⟩

theorem mem_referencingKeys (distinct : api.operationKeys.Nodup) : key ∈ referencingKeys api schemaKey ↔
    ∃ operation ∈ api.operations, operation.key = key ∧
      componentReference schemaKey <:+: (Value.ofOperation operation).modelDump.ascii := by
  unfold referencingKeys operationPayloads
  simp only [Text.mem_sorted, List.mem_map, List.mem_filter, Text.includes_iff]
  constructor
  · rintro ⟨entry, ⟨⟨dumped, isEntry, rfl⟩, found⟩, rfl⟩
    obtain ⟨isOperation, sameKey⟩ := mem_dictBy isEntry
    exact ⟨dumped.2, isOperation, sameKey, found⟩
  · rintro ⟨operation, member, rfl, found⟩
    exact ⟨_, ⟨⟨_, mem_dictBy_of_mem distinct member, rfl⟩, found⟩, rfl⟩

end Chunks

/-! ## The reference that is searched for -/

theorem escapeAscii_of_isNameCharacter {character : Char} (isName : isNameCharacter character = true) :
    Json.escapeAscii character = [character] ∧ character ∉ '\\' :: Json.delimiters := by
  simp only [isNameCharacter, Bool.or_eq_true, decide_eq_true_eq, isLower_iff, isDigit_iff] at isName
  have plain : ∀ other ∈ '\\' :: Json.delimiters, ¬ (97 ≤ other.toNat ∧ other.toNat ≤ 122) ∧
      ¬ (48 ≤ other.toNat ∧ other.toNat ≤ 57) ∧ other ≠ '_' := Text.forall_of_all (by decide)
  have outside : character ∉ '\\' :: Json.delimiters := by
    intro member
    obtain ⟨notLower, notDigit, notUnderscore⟩ := plain character member
    rcases isName with (lower | digit) | underscore
    · exact notLower lower
    · exact notDigit digit
    · exact notUnderscore underscore
  refine ⟨?_, outside⟩
  have range : 32 ≤ character.toNat ∧ character.toNat ≤ 126 ∧ character.toNat ≠ 8 ∧ character.toNat ≠ 12 ∧
      character ≠ '\n' ∧ character ≠ '\r' ∧ character ≠ '\t' := by
    rcases isName with (lower | digit) | rfl
    · refine ⟨by omega, by omega, by omega, by omega, ?_, ?_, ?_⟩ <;> rintro rfl <;> exact absurd lower (by decide)
    · refine ⟨by omega, by omega, by omega, by omega, ?_, ?_, ?_⟩ <;> rintro rfl <;> exact absurd digit (by decide)
    · decide
  unfold Json.escapeAscii
  split
  · exact absurd List.mem_cons_self (fun member => outside (List.mem_cons_of_mem _ member))
  · exact absurd List.mem_cons_self outside
  · exact absurd rfl range.2.2.2.2.1
  · exact absurd rfl range.2.2.2.2.2.1
  · exact absurd rfl range.2.2.2.2.2.2
  · rw [if_neg range.2.2.1, if_neg range.2.2.2.1, if_pos ⟨range.1, range.2.1⟩]

theorem searchable_componentReference {sha256 : Text → Text} (hex : IsHexDigest sha256) (name : Text) :
    Json.Searchable (componentReference (schemaKey sha256 name)) := by
  refine ⟨⟨_, rfl⟩, fun character member => ?_⟩
  have written : ∀ character ∈ ("#/components/schemas/schema_0123456789abcdef" : Text),
      Json.escapeAscii character = [character] ∧ character ∉ '\\' :: Json.delimiters := Text.forall_of_all (by decide)
  have parts : ("#/components/schemas/schema_0123456789abcdef" : Text) =
      ("#/components/schemas/" : Text) ++ (("schema_" : Text) ++ ("0123456789abcdef" : Text)) := by decide
  rw [parts] at written
  rcases List.mem_append.mp member with inPath | inKey
  · exact written character (List.mem_append_left _ inPath)
  rcases List.mem_append.mp inKey with inFront | inDigest
  · rcases List.mem_append.mp inFront with inStart | inName
    · exact written character (List.mem_append_right _ (List.mem_append_left _ inStart))
    · exact escapeAscii_of_isNameCharacter ((normalizeIdentifier_named (by decide) name).characters character inName)
  · rcases List.mem_cons.mp inDigest with rfl | inDigits
    · exact escapeAscii_of_isNameCharacter (by decide)
    · have isDigit := hex name character (List.mem_of_mem_take inDigits)
      exact written character (List.mem_append_right _ (List.mem_append_right _ isDigit))

/-- A reference to a generated definition is no reference to a component. -/
theorem not_infix_definitionReference {sha256 : Text → Text} (hex : IsHexDigest sha256) (place : ReferenceTarget)
    (schemaKey : Text) : ¬ componentReference schemaKey <:+: ("#/$defs/" : Text) ++ openApiKey sha256 place := by
  have plain : ∀ character ∈ definitionCharacters, character ≠ '#' := Text.forall_of_all (by decide)
  have outside : '#' ∉ ("/$defs/" : Text) ++ openApiKey sha256 place := by
    intro member
    rcases List.mem_append.mp member with inPath | inKey
    · exact absurd inPath (by decide)
    · exact plain '#' (openApiKey_characters hex place '#' inKey) rfl
  intro found
  rcases List.infix_cons_iff.mp found with isPrefix | later
  · have second := (List.cons_prefix_cons.mp (List.cons_prefix_cons.mp isPrefix).2).2
    exact absurd (List.cons_prefix_cons.mp second).1 (by decide)
  · exact outside (later.subset List.mem_cons_self)

/-! ## What the chunks list -/

section Listing

variable (libraries : ParserLibraries) (scope : ReferenceScope) (indexing : SemanticIndexing) (api : CanonicalApi)

/-- The chunks of a component list exactly the operations that refer to it. -/
def ListsReferring (name : Text) : Prop :=
  ∀ chunk ∈ semanticChunks indexing api, chunk.sourceKind = "schema_semantics" →
    chunk.title = schemaKey libraries.sha256 name → ∀ key, key ∈ chunk.operationKeys ↔
      ∃ operation ∈ api.operations, operation.key = key ∧ KeyRefersTo libraries scope key name

/-- A string, a key or a number of the operation has `#/components/schemas/schema_<words>_<digest>` in it, with the words
of the component's name and the first eight digits of its digest. -/
def Spells (operation : CanonicalOperation) (name : Text) : Prop :=
  ∃ token ∈ (Value.ofOperation operation).modelDump.tokens, ∃ before after, token =
    before ++ ("#/components/schemas/schema_" : Text) ++ normalizeIdentifier 80 name ++
      '_' :: (libraries.sha256 name).take 8 ++ after

variable {libraries scope indexing api}

theorem spells_iff {operation : CanonicalOperation} {name : Text} : Spells libraries operation name ↔
    ∃ token ∈ (Value.ofOperation operation).modelDump.tokens,
      componentReference (schemaKey libraries.sha256 name) <:+: token := by
  refine exists_congr fun token => and_congr_right fun _ => ?_
  have same : componentReference (schemaKey libraries.sha256 name) = ("#/components/schemas/schema_" : Text) ++
      normalizeIdentifier 80 name ++ '_' :: (libraries.sha256 name).take 8 := rfl
  rw [same]
  constructor
  · rintro ⟨before, after, rfl⟩
    exact ⟨before, after, by simp only [List.append_assoc, List.cons_append]⟩
  · rintro ⟨before, after, rfl⟩
    exact ⟨before, after, by simp only [List.append_assoc, List.cons_append]⟩

theorem listsReferring_iff (hex : IsHexDigest libraries.sha256) (distinct : api.operationKeys.Nodup) {name : Text}
    (isKey : schemaKey libraries.sha256 name ∈ api.schemas.map Prod.fst) : ListsReferring libraries scope indexing api name ↔
      ∀ operation ∈ api.operations, KeyRefersTo libraries scope operation.key name ↔ Spells libraries operation name := by
  have listed : ∀ operation ∈ api.operations, operation.key ∈ referencingKeys api (schemaKey libraries.sha256 name) ↔
      Spells libraries operation name := by
    intro operation member
    rw [spells_iff, mem_referencingKeys distinct, ← Json.infix_ascii_iff (searchable_componentReference hex name)]
    constructor
    · rintro ⟨other, isOther, sameKey, found⟩
      rwa [List.inj_on_of_nodup_map distinct isOther member sameKey] at found
    · exact fun found => ⟨operation, member, rfl, found⟩
  constructor
  · intro lists operation member
    obtain ⟨chunk, isChunk, isSchema, isTitle⟩ := @exists_schemaChunk indexing api _ isKey
    rw [← listed operation member, ← operationKeys_of_schemaChunk isChunk isSchema isTitle,
      lists chunk isChunk isSchema isTitle]
    constructor
    · exact fun refers => ⟨operation, member, rfl, refers⟩
    · rintro ⟨-, -, -, refers⟩
      exact refers
  · intro spelled chunk isChunk isSchema isTitle key
    rw [operationKeys_of_schemaChunk isChunk isSchema isTitle]
    constructor
    · intro isListed
      obtain ⟨operation, member, rfl, -⟩ := (mem_referencingKeys distinct).mp isListed
      exact ⟨operation, member, rfl, (spelled operation member).mpr ((listed operation member).mp isListed)⟩
    · rintro ⟨operation, member, rfl, refers⟩
      exact (listed operation member).mpr ((spelled operation member).mp refers)

/-- Every component schema is in the canonical API, under its key. -/
theorem mem_keys_schemas {fuel : Nat} (isParsed : IsParsedApi libraries scope fuel api) {name : Text}
    (member : name ∈ componentNames scope.rootDocument) :
    schemaKey libraries.sha256 name ∈ api.schemas.map Prod.fst := by
  obtain ⟨components, trace, areComponents, areSchemas⟩ := isParsed.schemas
  unfold componentNames at member
  split at member
  · rename_i found isComponents
    unfold componentsField at areComponents
    rw [isComponents] at areComponents
    cases areComponents
    split at member
    · rename_i schemas areWritten
      obtain ⟨field, isField, rfl⟩ := List.mem_map.mp member
      unfold componentSchemas componentsField at areSchemas
      rw [areWritten] at areSchemas
      obtain ⟨raw, isRaw, areSchemas⟩ := bind_eq_ok.mp areSchemas
      cases isRaw
      obtain ⟨results, areResults, areSchemas⟩ := bind_eq_ok.mp areSchemas
      obtain ⟨result, isResult, made⟩ := exists_of_forall₂_left (mapM_eq_ok.mp areResults) isField
      obtain ⟨⟨schema, rewrites⟩, -, made⟩ := bind_eq_ok.mp made
      obtain rfl := Except.ok.inj made
      have isSchemas : api.schemas = dictBy CanonicalSchema.key (tracedList results).1 :=
        (congrArg Prod.fst (Except.ok.inj areSchemas)).symm
      rw [isSchemas, (keys_dictBy CanonicalSchema.key _).2]
      exact List.mem_map.mpr ⟨_, mem_tracedList.mpr ⟨rewrites, isResult⟩, rfl⟩
    · cases member
  · cases member

theorem schema_chunks_list_operations (libraries : ParserLibraries) (hex : IsHexDigest libraries.sha256)
    (indexing : SemanticIndexing) (fuel : Nat) (request : ParseRequest) (external : ExternalDocuments)
    (document : JsonObject) (api : CanonicalApi)
    (parsed : parseOpenApi libraries fuel request external document = .ok api) :
    ((∀ name ∈ componentNames document, ListsReferring libraries
        ((OpenApiReferenceResolver.mk document request.sourceVersionId external).scope libraries.unicode) indexing api name) ↔
      ∀ name ∈ componentNames document, ∀ operation ∈ api.operations,
        KeyRefersTo libraries ((OpenApiReferenceResolver.mk document request.sourceVersionId external).scope libraries.unicode)
          operation.key name ↔ Spells libraries operation name) ∧
    ∀ operation ∈ api.operations, ∀ schema ∈ operation.schemas, ∀ reference ∈ (Json.object schema).references,
      ∃ text, reference = .string text ∧ ∀ key, ¬ componentReference key <:+: text := by
  have isParsed := isParsedApi_of_parseOpenApi parsed
  constructor
  · refine forall₂_congr fun name member => ?_
    exact listsReferring_iff hex isParsed.nodup_operationKeys (mem_keys_schemas isParsed member)
  · intro operation member schema isSchema reference isReference
    obtain ⟨place, rfl⟩ := (isParsed.everyReference operation member schema isSchema).references reference isReference
    exact ⟨_, rfl, not_infix_definitionReference hex place⟩

/-! ### A document with a component -/

/-- Libraries whose digests are written in hexadecimal digits. -/
def spellingLibraries : ParserLibraries :=
  { plainParserLibraries with sha256 := spelledOut }

def petReference : JsonObject :=
  [Json.entry "$ref" (.text "#/components/schemas/Pet")]

def petResponse : JsonObject := [
  Json.entry "description" (.text "OK"),
  Json.entry "content" (.object [Json.entry "application/json" (.object [Json.entry "schema" (.object petReference)])])]

/-- The description is the only text of the operation that may spell the reference. -/
def petOperation (description : Text) : JsonObject := [
  Json.entry "operationId" (.text "getPet"),
  Json.entry "description" (.string description),
  Json.entry "responses" (.object [Json.entry "200" (.object petResponse)])]

def petsItem (description : Text) : JsonObject :=
  [Json.entry "get" (.object (petOperation description))]

/-- The only operation returns a pet. -/
def petsDocument (description : Text) : JsonObject := [
  Json.entry "openapi" (.text "3.1.0"),
  Json.entry "info" (.object [Json.entry "title" (.text "Pets")]),
  Json.entry "servers" (.array [.object [Json.entry "url" (.text "https://api.example.com")]]),
  Json.entry "paths" (.object [Json.entry "/pets" (.object (petsItem description))]),
  Json.entry "components" (.object [
    Json.entry "schemas" (.object [Json.entry "Pet" (.object [Json.entry "type" (.text "object")])])])]

def petsRequest : ParseRequest :=
  ⟨1, 2, plainSha256, {}⟩

def petsScope (description : Text) : ReferenceScope :=
  (OpenApiReferenceResolver.mk (petsDocument description) 2 []).scope asciiUnicode

def getPet (description : Text) : WrittenOperation where
  path := "/pets"
  methodName := "get"
  item := ⟨petsItem description, petsDocument description, 2, "#/paths/~1pets"⟩
  resolved := ⟨petOperation description, petsDocument description, 2, "#/paths/~1pets/get"⟩

theorem standsIn_getPet (description : Text) : (getPet description).StandsIn spellingLibraries (petsScope description) := by
  refine ⟨_, .object (petsItem description), "get", .object (petOperation description), rfl, List.mem_cons_self, ⟨0, rfl⟩,
    List.mem_cons_self, ?_, ?_, ⟨0, rfl⟩⟩
  · show Text.casefold spellingLibraries.unicode "get" = "get"
    decide
  · show (httpMethodOf "get").isSome = true
    decide

theorem refersTo_getPet (description : Text) : RefersTo (petsScope description) (getPet description) "Pet" := by
  let response : Resolved := ⟨petResponse, petsDocument description, 2, "#/paths/~1pets/get/responses/200"⟩
  have inResponse : SchemaIn (petsScope description) (getPet description) response.context petReference :=
    .response rfl List.mem_cons_self ⟨0, rfl⟩ List.mem_cons_self
  have leadsToPet : (petsScope description).target "#/components/schemas/Pet" (petsDocument description) 2 =
      .ok ⟨petsDocument description, 2, "#/components/schemas/Pet"⟩ := rfl
  have referenced : Referenced (petsScope description) ⟨petsDocument description, 2⟩ petReference
      ⟨petsDocument description, 2, "#/components/schemas/Pet"⟩ :=
    ⟨_, _, _, _, .root, rfl, List.mem_cons_self, leadsToPet⟩
  have isPet : (("#/components/schemas/Pet" : Text).splitOn '/').map unescapePointerToken =
      [("#" : Text), ("components" : Text), ("schemas" : Text), ("Pet" : Text)] := by
    decide
  exact ⟨_, _, _, inResponse, referenced, rfl, isPet⟩

theorem isHexDigest_spelledOut : IsHexDigest spelledOut := by
  have digits : ∀ count value, ∀ character ∈ Text.hexDigits count value, character ∈ ("0123456789abcdef" : Text) := by
    intro count
    induction count with
    | zero => exact fun value character member => (List.not_mem_nil member).elim
    | succ count ih =>
      intro value character member
      have digit : ∀ digit < 16, Nat.digitChar digit ∈ ("0123456789abcdef" : Text) := by decide
      rcases List.mem_append.mp member with before | last
      · exact ih _ character before
      · rw [List.mem_singleton.mp last]
        exact digit _ (Nat.mod_lt _ (by decide))
  intro text character member
  obtain ⟨source, -, isDigit⟩ := List.mem_flatMap.mp member
  exact digits _ _ character isDigit

/-- A description that happens to spell the derived reference makes the chunk list the operation. -/
theorem schema_chunks_list_operations_pets : ∃ api,
    parseOpenApi spellingLibraries 4 petsRequest [] (petsDocument "See #/components/schemas/schema_pet_00000050.") =
      .ok api ∧
    (∃ operation ∈ api.operations, KeyRefersTo spellingLibraries
      (petsScope "See #/components/schemas/schema_pet_00000050.") operation.key "Pet") ∧
    ∀ name ∈ componentNames (petsDocument "See #/components/schemas/schema_pet_00000050."),
      ListsReferring spellingLibraries (petsScope "See #/components/schemas/schema_pet_00000050.")
        ⟨spelledOut, 1, 3, 1000, by decide⟩ api name := by
  have evaluated : ((parseOpenApi spellingLibraries 4 petsRequest []
      (petsDocument "See #/components/schemas/schema_pet_00000050.")).toOption.any fun api =>
      api.operations.length = 1 && api.operations.all fun operation =>
        operation.key = (getPet "See #/components/schemas/schema_pet_00000050.").key spellingLibraries &&
        (Value.ofOperation operation).modelDump.tokens.any fun token =>
          token = "See #/components/schemas/schema_pet_00000050.") = true := by
    decide +kernel
  cases parsed : parseOpenApi spellingLibraries 4 petsRequest []
      (petsDocument "See #/components/schemas/schema_pet_00000050.") with
  | error error =>
    rw [parsed] at evaluated
    cases evaluated
  | ok api =>
    rw [parsed] at evaluated
    simp only [Except.toOption, Option.any_some, List.all_eq_true, List.any_eq_true, Bool.and_eq_true,
      decide_eq_true_eq] at evaluated
    obtain ⟨single, evaluated⟩ := evaluated
    have refers : ∀ operation ∈ api.operations, KeyRefersTo spellingLibraries
        (petsScope "See #/components/schemas/schema_pet_00000050.") operation.key "Pet" :=
      fun operation member => ⟨_, standsIn_getPet _, (evaluated operation member).1.symm, refersTo_getPet _⟩
    obtain ⟨operation, isOperation⟩ := List.exists_mem_of_length_pos (by omega : 0 < api.operations.length)
    refine ⟨api, rfl, ⟨operation, isOperation, refers operation isOperation⟩, ?_⟩
    refine (schema_chunks_list_operations spellingLibraries isHexDigest_spelledOut ⟨spelledOut, 1, 3, 1000, by decide⟩ 4
      petsRequest [] (petsDocument "See #/components/schemas/schema_pet_00000050.") api parsed).1.mpr ?_
    intro name isName operation member
    obtain rfl : name = "Pet" := List.mem_singleton.mp isName
    obtain ⟨-, token, isToken, rfl⟩ := evaluated operation member
    refine ⟨fun _ => ⟨_, isToken, "See ", ".", by decide⟩, fun _ => refers operation member⟩

/-- The chunk of a component does not list the operation that returns it. -/
theorem not_schema_chunks_list_operations : ¬ ∀ (libraries : ParserLibraries), IsHexDigest libraries.sha256 →
    ∀ (indexing : SemanticIndexing) (fuel : Nat) (request : ParseRequest) (external : ExternalDocuments)
      (document : JsonObject) (api : CanonicalApi), parseOpenApi libraries fuel request external document = .ok api →
      ∀ name ∈ componentNames document, ListsReferring libraries
        ((OpenApiReferenceResolver.mk document request.sourceVersionId external).scope libraries.unicode) indexing api name := by
  intro law
  have unlisted : ((parseOpenApi spellingLibraries 4 petsRequest [] (petsDocument "A pet.")).toOption.any fun api =>
      api.operations.any fun operation => operation.key = (getPet "A pet.").key spellingLibraries &&
        (Value.ofOperation operation).modelDump.tokens.all fun token =>
          !Text.includes token (componentReference (schemaKey spelledOut "Pet"))) = true := by
    decide +kernel
  cases parsed : parseOpenApi spellingLibraries 4 petsRequest [] (petsDocument "A pet.") with
  | error error =>
    rw [parsed] at unlisted
    cases unlisted
  | ok api =>
    rw [parsed] at unlisted
    simp only [Except.toOption, Option.any_some, List.any_eq_true, Bool.and_eq_true, decide_eq_true_eq, List.all_eq_true,
      Bool.not_eq_true'] at unlisted
    obtain ⟨operation, member, isKey, unspelled⟩ := unlisted
    let indexing : SemanticIndexing := ⟨spelledOut, 1, 3, 1000, by decide⟩
    have lists := law spellingLibraries isHexDigest_spelledOut indexing 4 petsRequest [] (petsDocument "A pet.") api parsed "Pet"
      List.mem_cons_self
    have isParsed := isParsedApi_of_parseOpenApi parsed
    have spelled := (listsReferring_iff isHexDigest_spelledOut isParsed.nodup_operationKeys
      (mem_keys_schemas isParsed List.mem_cons_self)).mp lists operation member
    obtain ⟨token, isToken, found⟩ := spells_iff.mp (spelled.mp ⟨_, standsIn_getPet _, isKey.symm, refersTo_getPet _⟩)
    exact Bool.false_ne_true ((unspelled token isToken).symm.trans (Text.includes_iff.mpr found))

end Listing

end Mcplica.Indexing
