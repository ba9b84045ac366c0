import Mcplica.Library.Checks
import Mcplica.Library.Table
import Mcplica.Parsers.Documentation

/-! # Embeddings and their cache

`IndexingService._resolve_embeddings` takes the vectors of chunks from the cache of the project, or has them made in
batches. What the service returns for one text, under the model it names, may differ from call to call. -/

namespace Mcplica.Indexing

open Mcplica.Domain Mcplica.Library Mcplica.Parsers

/-! ## The service -/

inductive Component where
  | finite (value : Rat)
  /-- infinite, or no number -/
  | nonFinite
  deriving Repr, DecidableEq

def Component.isFinite : Component → Bool
  | .finite _ => true
  | .nonFinite => false

abbrev Vector := List Component

structure EmbeddingItem where
  index : Int
  embedding : Vector
  deriving Repr, DecidableEq

/-- A response; a malformed item is `none`. -/
structure EmbeddingResponse where
  model : Option Text
  data : List (Option EmbeddingItem)

structure EmbeddingBatch where
  vectors : List Vector
  model : Text
  dimensions : Nat

/-- `str(response.get("model") or model)` -/
def EmbeddingResponse.resolvedModel (response : EmbeddingResponse) (model : Text) : Text :=
  (response.model.filter (· ≠ [])).getD model

/-- One item of the response, put in the place of its text. -/
def placeItem (vectorsByIndex : List (Option Vector)) (raw : Option EmbeddingItem) :
    Except Text (List (Option Vector)) := do
  let item ← obtain? raw "OpenRouter returned malformed embeddings"
  ensure (item.embedding ≠ []) "OpenRouter returned an empty embedding"
  ensure (0 ≤ item.index && vectorsByIndex[item.index.toNat]? = some none)
    "OpenRouter returned invalid or duplicate embedding indexes"
  return vectorsByIndex.set item.index.toNat (some item.embedding)

/-- `embed` of the provider. -/
def embed (service : List Text → Except Text EmbeddingResponse) (model : Text) (texts : List Text) :
    Except Text EmbeddingBatch := do
  ensure (texts ≠ []) "At least one text is required for embedding"
  let response ← service texts
  ensure (response.data.length = texts.length) "OpenRouter embedding count does not match input count"
  let vectorsByIndex ← response.data.foldlM placeItem (List.replicate texts.length none)
  let vectors ← obtain? (vectorsByIndex.mapM id) "OpenRouter returned incomplete embedding indexes"
  let dimensions := (vectors.head?.map List.length).getD 0
  ensure (vectors.all fun vector => vector.length = dimensions) "OpenRouter returned inconsistent embedding dimensions"
  return ⟨vectors, response.resolvedModel model, dimensions⟩

/-! ## The cache -/

structure CachedEmbedding where
  projectId : Uuid
  modelIdentity : Text
  contentSha256 : Text
  resolvedModel : Text
  dimensions : Nat
  vector : Vector
  deriving Repr, DecidableEq

/-- `uq_embedding_vector_cache_identity` -/
instance : Row CachedEmbedding (Uuid × Text × Text) :=
  ⟨fun row => (row.projectId, row.modelIdentity, row.contentSha256)⟩

abbrev EmbeddingCache := Table CachedEmbedding

/-- `list_cached_embeddings` -/
def EmbeddingCache.listCached (cache : EmbeddingCache) (projectId : Uuid) (modelIdentity : Text)
    (contentSha256s : List Text) : List CachedEmbedding :=
  cache.rows.filter fun row =>
    row.projectId = projectId && row.modelIdentity = modelIdentity && contentSha256s.contains row.contentSha256

/-- `INSERT … ON CONFLICT DO UPDATE` of one row. -/
def EmbeddingCache.upsert (cache : EmbeddingCache) (row : CachedEmbedding) : EmbeddingCache :=
  match cache.insert row with
  | some inserted => inserted
  | none => cache.update (fun old => Row.key old = Row.key row) fun old =>
    { old with resolvedModel := row.resolvedModel, dimensions := row.dimensions, vector := row.vector }

/-- `upsert_cached_embeddings` -/
def EmbeddingCache.upsertAll (cache : EmbeddingCache) (projectId : Uuid) (modelIdentity resolvedModel : Text)
    (dimensions : Nat) (vectorsBySha256 : List (Text × Vector)) : EmbeddingCache :=
  vectorsBySha256.foldl (fun cache (contentSha256, vector) =>
    EmbeddingCache.upsert cache ⟨projectId, modelIdentity, contentSha256, resolvedModel, dimensions, vector⟩) cache

/-! ## Resolution -/

/-- `entries.update(pairs)` -/
def updateEntries {κ ν : Type} [DecidableEq κ] (entries pairs : List (κ × ν)) : List (κ × ν) :=
  pairs.foldl (fun entries pair => setEntry entries pair.1 pair.2) entries

/-- The slices of the chunks from an offset on, with the offsets. -/
def batches (size : Nat) (positive : 0 < size) (offset : Nat) (chunks : List DocumentChunk) :
    List (Nat × List DocumentChunk) :=
  if chunks = [] then []
  else (offset, chunks.take size) :: batches size positive (offset + size) (chunks.drop size)
termination_by chunks.length
decreasing_by
  rename_i nonempty
  have := List.length_pos_iff.mpr nonempty
  rw [List.length_drop]
  omega

/-- What `_resolve_embeddings` is given. The service is called for the batches of one or two attempts. -/
structure EmbeddingRequest where
  sha256 : Text → Text
  service : (attempt offset : Nat) → List Text → Except Text EmbeddingResponse
  model : Text
  projectId : Uuid
  embeddingBatchSize : Nat
  positive : 0 < embeddingBatchSize

namespace EmbeddingRequest

variable (request : EmbeddingRequest)

/-- `_embed_chunks` -/
def embedChunks (attempt : Nat) (chunks : List DocumentChunk) : Except Text (List EmbeddingBatch) :=
  (batches request.embeddingBatchSize request.positive 0 chunks).mapM fun (offset, batch) =>
    embed (request.service attempt offset) request.model (batch.map DocumentChunk.text)

/-- `_embed_unique_chunks` -/
def embedUniqueChunks (attempt : Nat) (chunks : List DocumentChunk) : Except Text (List (Text × Vector) × Text × Nat) := do
  let batches ← request.embedChunks attempt chunks
  match (batches.map EmbeddingBatch.model).dedup, (batches.map EmbeddingBatch.dimensions).dedup with
  | [actualModel], [dimension] => do
    let vectors := batches.flatMap EmbeddingBatch.vectors
    ensure (vectors.length = chunks.length &&
      vectors.all fun vector => vector.length = dimension && vector.all Component.isFinite)
      "Embedding vectors do not match chunk metadata"
    return (updateEntries [] ((chunks.map DocumentChunk.contentSha256).zip vectors), actualModel, dimension)
  | _, _ => .error "Embedding batches returned inconsistent model metadata"

/-- One round of the loop over the chunks. -/
def addUnique (uniqueChunks : List (Text × DocumentChunk)) (chunk : DocumentChunk) :
    Except Text (List (Text × DocumentChunk)) := do
  let contentSha256 := request.sha256 chunk.text
  ensure (contentSha256 = chunk.contentSha256) "Chunk content hash does not match normalized text"
  match uniqueChunks.lookup contentSha256 with
  | some existing => do
    ensure (existing.text = chunk.text) "Chunk content hash collision detected"
    return uniqueChunks
  | none => return uniqueChunks ++ [(contentSha256, chunk)]

/-- What the four cases leave: new vectors, the model and the dimension of all, and the rows that stay in use. -/
structure Resolution where
  fresh : List (Text × Vector)
  resolvedModel : Text
  dimensions : Nat
  cachedBySha256 : List (Text × CachedEmbedding)
  deriving DecidableEq

/-- The case distinction on what was cached. -/
def resolveCached (uniqueChunks : List (Text × DocumentChunk)) (cached : List CachedEmbedding) : Except Text Resolution := do
  let cachedBySha256 := dictBy CachedEmbedding.contentSha256 cached
  ensure (cachedBySha256.length = cached.length) "Embedding cache returned duplicate content identities"
  let cacheModels := (cached.map CachedEmbedding.resolvedModel).dedup
  let cacheDimensions := (cached.map CachedEmbedding.dimensions).dedup
  let missing := uniqueChunks.filter fun entry => (cachedBySha256.lookup entry.1).isNone
  if 1 < cacheModels.length ∨ 1 < cacheDimensions.length then
    let (fresh, resolvedModel, dimensions) ← request.embedUniqueChunks 0 (uniqueChunks.map Prod.snd)
    return ⟨fresh, resolvedModel, dimensions, []⟩
  else if missing ≠ [] then
    let (fresh, resolvedModel, dimensions) ← request.embedUniqueChunks 0 (missing.map Prod.snd)
    -- the service answers with another model than the one whose vectors are cached
    if cached ≠ [] ∧ (cacheModels ≠ [resolvedModel] ∨ cacheDimensions ≠ [dimensions]) then
      let (fresh, resolvedModel, dimensions) ← request.embedUniqueChunks 1 (uniqueChunks.map Prod.snd)
      return ⟨fresh, resolvedModel, dimensions, []⟩
    else
      return ⟨fresh, resolvedModel, dimensions, cachedBySha256⟩
  else
    match cacheModels, cacheDimensions with
    | resolvedModel :: _, dimensions :: _ => return ⟨[], resolvedModel, dimensions, cachedBySha256⟩
    | _, _ => .error "Embedding resolution received no chunks"

/-- The hashes of the chunks, and how they are resolved with the rows that the cache has. -/
def resolveUnique (cache : EmbeddingCache) (chunks : List DocumentChunk) : Except Text (List Text × Resolution) := do
  let uniqueChunks ← chunks.foldlM request.addUnique []
  let contentSha256s := uniqueChunks.map Prod.fst
  let cached := EmbeddingCache.listCached cache request.projectId request.model contentSha256s
  let resolution ← request.resolveCached uniqueChunks cached
  return (contentSha256s, resolution)

/-- The cache once the new vectors are stored, in a transaction of its own. -/
def store (cache : EmbeddingCache) (resolution : Resolution) : EmbeddingCache :=
  EmbeddingCache.upsertAll cache request.projectId request.model resolution.resolvedModel resolution.dimensions
    resolution.fresh

/-- `_resolve_embeddings`: the vectors, their model and dimension, and the cache afterwards. -/
def resolveEmbeddings (cache : EmbeddingCache) (chunks : List DocumentChunk) :
    Except Text ((List Vector × Text × Nat) × EmbeddingCache) := do
  let (contentSha256s, resolution) ← request.resolveUnique cache chunks
  let stored := request.store cache resolution
  let vectorsBySha256 := updateEntries
    (resolution.cachedBySha256.map fun (contentSha256, record) => (contentSha256, record.vector)) resolution.fresh
  ensure ((vectorsBySha256.map Prod.fst).all contentSha256s.contains &&
    contentSha256s.all (vectorsBySha256.map Prod.fst).contains) "Embedding cache did not resolve every chunk"
  let vectors ← chunks.mapM fun chunk => obtain? (vectorsBySha256.lookup chunk.contentSha256) chunk.contentSha256
  return ((vectors, resolution.resolvedModel, resolution.dimensions), stored)

end EmbeddingRequest

/-! ## Dictionaries -/

section

variable {κ ν : Type} [DecidableEq κ] {entries pairs : List (κ × ν)} {key : κ} {value : ν}

/-- What an updated dictionary holds was there before or comes from the update. -/
theorem mem_updateEntries {entry : κ × ν} (member : entry ∈ updateEntries entries pairs) :
    entry ∈ pairs ∨ entry ∈ entries := by
  induction pairs generalizing entries with
  | nil => exact .inr member
  | cons pair rest ih =>
    rcases ih member with later | before
    · exact .inl (List.mem_cons_of_mem _ later)
    · rcases mem_setEntry before with rfl | old
      · exact .inl List.mem_cons_self
      · exact .inr old

theorem mem_keys_updateEntries : key ∈ (updateEntries entries pairs).map Prod.fst ↔
    key ∈ entries.map Prod.fst ∨ key ∈ pairs.map Prod.fst := by
  induction pairs generalizing entries with
  | nil => simp [updateEntries]
  | cons pair rest ih =>
    have keys : key ∈ (setEntry entries pair.1 pair.2).map Prod.fst ↔ key ∈ entries.map Prod.fst ∨ key = pair.1 := by
      rw [keys_setEntry]
      split
      · rename_i present
        exact ⟨.inl, fun either => either.elim id fun same => same ▸ present⟩
      · rw [List.mem_append, List.mem_singleton]
    rw [show updateEntries entries (pair :: rest) = updateEntries (setEntry entries pair.1 pair.2) rest from rfl,
      ih, keys, List.map_cons, List.mem_cons, or_assoc]

end

/-! ## What one call returns -/

section

variable (isVector : Text → Text → Vector → Prop)

/-- The service returns, in the place of each text, a vector for it by the model it names. -/
def EmbeddingRequest.Honest (request : EmbeddingRequest) : Prop :=
  ∀ attempt offset texts response, request.service attempt offset texts = .ok response →
    ∀ item, some item ∈ response.data → 0 ≤ item.index → ∀ text, texts[item.index.toNat]? = some text →
      isVector text (response.resolvedModel request.model) item.embedding

/-- The vector is one for the text, by the model and of the dimension. -/
def Suits (resolvedModel : Text) (dimensions : Nat) (text : Text) (vector : Vector) : Prop :=
  isVector text resolvedModel vector ∧ vector.length = dimensions

end

variable {isVector : Text → Text → Vector → Prop}

theorem placed_of_foldlM {data : List (Option EmbeddingItem)} {count : Nat} {vectorsByIndex : List (Option Vector)}
    (placed : data.foldlM placeItem (List.replicate count none) = .ok vectorsByIndex) :
    vectorsByIndex.length = count ∧ ∀ (index : Nat) (vector : Vector), vectorsByIndex[index]? = some (some vector) →
      ∃ item, some item ∈ data ∧ 0 ≤ item.index ∧ item.index.toNat = index ∧ item.embedding = vector := by
  refine foldlM_induction (fun read state => state.length = count ∧ ∀ (index : Nat) (vector : Vector),
    state[index]? = some (some vector) →
      ∃ item, some item ∈ read ∧ 0 ≤ item.index ∧ item.index.toNat = index ∧ item.embedding = vector) ?_ ?_ placed
  · refine ⟨List.length_replicate, ?_⟩
    intro index vector found
    have member := List.mem_of_getElem? found
    cases (List.mem_replicate.mp member).2
  · rintro read state raw next ⟨sameLength, fromItem⟩ step
    unfold placeItem at step
    obtain ⟨item, isItem, step⟩ := bind_eq_ok.mp step
    obtain ⟨-, step⟩ := check_bind_eq_ok.mp step
    obtain ⟨inRange, step⟩ := check_bind_eq_ok.mp step
    cases step
    rw [ensure_eq_ok, Bool.and_eq_true, decide_eq_true_eq] at inRange
    cases raw with
    | none => cases isItem
    | some raw =>
      cases isItem
      refine ⟨by rw [List.length_set]; exact sameLength, ?_⟩
      intro index vector found
      by_cases isPlace : item.index.toNat = index
      · rw [isPlace, List.getElem?_set_self'] at found
        obtain ⟨old, -, isVector⟩ := Option.map_eq_some_iff.mp found
        exact ⟨item, by simp, inRange.1, isPlace, Option.some.inj isVector⟩
      · rw [List.getElem?_set_ne isPlace] at found
        obtain ⟨other, member, place⟩ := fromItem index vector found
        exact ⟨other, List.mem_append_left _ member, place⟩

theorem embed_spec {request : EmbeddingRequest} (honest : request.Honest isVector) {attempt offset : Nat}
    {texts : List Text} {batch : EmbeddingBatch}
    (returns : embed (request.service attempt offset) request.model texts = .ok batch) :
    List.Forall₂ (Suits isVector batch.model batch.dimensions) texts batch.vectors := by
  unfold embed at returns
  obtain ⟨-, returns⟩ := check_bind_eq_ok.mp returns
  obtain ⟨response, isResponse, returns⟩ := bind_eq_ok.mp returns
  obtain ⟨-, returns⟩ := check_bind_eq_ok.mp returns
  obtain ⟨vectorsByIndex, placed, returns⟩ := bind_eq_ok.mp returns
  obtain ⟨vectors, areVectors, returns⟩ := bind_eq_ok.mp returns
  obtain ⟨sameDimensions, returns⟩ := check_bind_eq_ok.mp returns
  cases returns
  obtain ⟨sameLength, fromItem⟩ := placed_of_foldlM placed
  have filled := mapM_eq_some.mp (obtain?_eq_ok.mp areVectors)
  rw [ensure_eq_ok, List.all_eq_true] at sameDimensions
  rw [List.forall₂_iff_get]
  refine ⟨sameLength.symm.trans filled.length_eq, ?_⟩
  intro index inTexts inVectors
  have place : vectorsByIndex[index]? = some (some (vectors.get ⟨index, inVectors⟩)) := by
    have inPlaces : index < vectorsByIndex.length := by
      rw [filled.length_eq]
      exact inVectors
    rw [List.getElem?_eq_getElem inPlaces, Option.some.injEq]
    exact filled.get inPlaces inVectors
  obtain ⟨item, isItem, nonnegative, isIndex, isEmbedding⟩ := fromItem index _ place
  refine ⟨?_, of_decide_eq_true (sameDimensions _ (List.get_mem _ _))⟩
  rw [← isEmbedding]
  refine honest attempt offset texts response isResponse item isItem nonnegative _ ?_
  rw [isIndex, List.getElem?_eq_getElem inTexts]
  rfl

/-! ## What one attempt returns -/

theorem flatMap_batches (size : Nat) (positive : 0 < size) (offset : Nat) (chunks : List DocumentChunk) :
    (batches size positive offset chunks).flatMap Prod.snd = chunks := by
  induction offset, chunks using batches.induct size positive with
  | case1 offset => rw [batches, if_pos rfl, List.flatMap_nil]
  | case2 offset chunks nonempty ih =>
    rw [batches, if_neg nonempty, List.flatMap_cons, ih]
    exact List.take_append_drop _ _

/-- Pairs that suit in each batch suit in all of them in a row, when the batches name one model and one dimension. -/
theorem forall₂_flatMap {parts : List (Nat × List DocumentChunk)} {made : List EmbeddingBatch} {resolvedModel : Text}
    {dimensions : Nat} (each : List.Forall₂ (fun part batch =>
      List.Forall₂ (Suits isVector batch.model batch.dimensions) (part.2.map DocumentChunk.text) batch.vectors) parts made)
    (oneModel : ∀ batch ∈ made, batch.model = resolvedModel)
    (oneDimension : ∀ batch ∈ made, batch.dimensions = dimensions) :
    List.Forall₂ (fun chunk vector => Suits isVector resolvedModel dimensions chunk.text vector)
      (parts.flatMap Prod.snd) (made.flatMap EmbeddingBatch.vectors) := by
  induction each with
  | nil => exact .nil
  | cons first _ ih =>
    obtain ⟨isModel, restModel⟩ := List.forall_mem_cons.mp oneModel
    obtain ⟨isDimension, restDimension⟩ := List.forall_mem_cons.mp oneDimension
    rw [isModel, isDimension] at first
    exact List.rel_append (List.forall₂_map_left_iff.mp first) (ih restModel restDimension)

theorem eq_of_dedup_eq {α : Type} [DecidableEq α] {values : List α} {only : α} (same : values.dedup = [only]) :
    ∀ value ∈ values, value = only := by
  intro value member
  have isOnly := List.mem_dedup.mpr member
  rw [same] at isOnly
  exact List.mem_singleton.mp isOnly

namespace EmbeddingRequest

variable {request : EmbeddingRequest}

/-- The new vectors are entered under the hashes of exactly the given chunks, each suiting a chunk with that hash. -/
theorem embedUniqueChunks_spec (honest : request.Honest isVector) {attempt : Nat} {chunks : List DocumentChunk}
    {fresh : List (Text × Vector)} {resolvedModel : Text} {dimensions : Nat}
    (returns : request.embedUniqueChunks attempt chunks = .ok (fresh, resolvedModel, dimensions)) :
    (∀ entry ∈ fresh, ∃ chunk ∈ chunks, chunk.contentSha256 = entry.1 ∧
      Suits isVector resolvedModel dimensions chunk.text entry.2) ∧
    ∀ contentSha256, contentSha256 ∈ fresh.map Prod.fst ↔ ∃ chunk ∈ chunks, chunk.contentSha256 = contentSha256 := by
  unfold embedUniqueChunks at returns
  obtain ⟨made, isMade, returns⟩ := bind_eq_ok.mp returns
  split at returns
  · rename_i actualModel dimension models dimensions
    obtain ⟨-, returns⟩ := check_bind_eq_ok.mp returns
    cases returns
    have each := mapM_eq_ok.mp isMade
    have suits := forall₂_flatMap (each.imp fun part batch embeds => embed_spec honest embeds)
      (fun batch member => eq_of_dedup_eq models _ (List.mem_map_of_mem member))
      (fun batch member => eq_of_dedup_eq dimensions _ (List.mem_map_of_mem member))
    rw [flatMap_batches] at suits
    constructor
    · intro entry member
      exact exists_of_mem_zip suits ((mem_updateEntries member).resolve_right List.not_mem_nil)
    · intro contentSha256
      rw [mem_keys_updateEntries, List.map_fst_zip (by rw [List.length_map, suits.length_eq])]
      exact (or_iff_right List.not_mem_nil).trans List.mem_map
  · cases returns

/-- Every chunk has its hash, and stands for one with that hash among the distinct ones. -/
theorem addUnique_spec {chunks : List DocumentChunk} {uniqueChunks : List (Text × DocumentChunk)}
    (ran : chunks.foldlM request.addUnique [] = .ok uniqueChunks) :
    (∀ entry ∈ uniqueChunks, entry.2 ∈ chunks ∧ entry.2.contentSha256 = entry.1) ∧
    ∀ chunk ∈ chunks, request.sha256 chunk.text = chunk.contentSha256 ∧ chunk.contentSha256 ∈ uniqueChunks.map Prod.fst := by
  refine foldlM_induction (fun read state => (∀ entry ∈ state, entry.2 ∈ read ∧ entry.2.contentSha256 = entry.1) ∧
    ∀ chunk ∈ read, request.sha256 chunk.text = chunk.contentSha256 ∧ chunk.contentSha256 ∈ state.map Prod.fst) ?_ ?_ ran
  · exact ⟨fun entry member => (List.not_mem_nil member).elim, fun chunk member => (List.not_mem_nil member).elim⟩
  · rintro read state chunk next ⟨fromRead, hashed⟩ step
    unfold addUnique at step
    obtain ⟨sameHash, step⟩ := check_bind_eq_ok.mp step
    rw [ensure_eq_ok, decide_eq_true_eq] at sameHash
    have kept : ∀ entry ∈ state, entry.2 ∈ read ++ [chunk] ∧ entry.2.contentSha256 = entry.1 := fun entry member =>
      ⟨List.mem_append_left _ (fromRead entry member).1, (fromRead entry member).2⟩
    split at step
    · rename_i existing isExisting
      obtain ⟨-, step⟩ := check_bind_eq_ok.mp step
      cases step
      refine ⟨kept, ?_⟩
      intro other member
      rcases List.mem_append.mp member with before | last
      · exact hashed other before
      · rw [List.mem_singleton.mp last]
        refine ⟨sameHash, ?_⟩
        rw [← sameHash]
        exact List.mem_map_of_mem (mem_of_lookup isExisting)
    · cases step
      constructor
      · intro entry member
        rcases List.mem_append.mp member with before | last
        · exact kept entry before
        · rw [List.mem_singleton.mp last]
          exact ⟨by simp, sameHash.symm⟩
      · intro other member
        rw [List.map_append, List.mem_append]
        rcases List.mem_append.mp member with before | last
        · exact ⟨(hashed other before).1, .inl (hashed other before).2⟩
        · rw [List.mem_singleton.mp last]
          exact ⟨sameHash, .inr (List.mem_singleton.mpr sameHash.symm)⟩

end EmbeddingRequest

/-! ## The cache -/

section

variable {cache : EmbeddingCache} {row : CachedEmbedding}

theorem get?_upsert (key : Uuid × Text × Text) : (EmbeddingCache.upsert cache row).get? key =
    if Row.key row = key then some row else cache.get? key := by
  unfold EmbeddingCache.upsert
  split
  · rename_i inserted isInserted
    exact Table.get?_insert isInserted key
  · rename_i taken
    rw [Table.get?_update]
    unfold Table.insert at taken
    split at taken
    · rename_i present
      obtain ⟨old, isOld, sameKey⟩ := List.mem_map.mp present
      by_cases isKey : Row.key row = key
      · rw [if_pos isKey, Table.get?_eq_some.mpr ⟨isOld, sameKey.trans isKey⟩, Option.map_some, if_pos (by simpa using sameKey)]
        obtain ⟨projectId, modelIdentity, contentSha256, _, _, _⟩ := row
        obtain ⟨sameProject, sameModel, sameHash⟩ : old.projectId = projectId ∧ old.modelIdentity = modelIdentity ∧
            old.contentSha256 = contentSha256 := by simpa [Row.key] using sameKey
        rw [sameProject, sameModel, sameHash]
      · rw [if_neg isKey]
        cases found : cache.get? key with
        | none => rfl
        | some other =>
          have otherKey : ¬ Row.key other = Row.key row := fun same => isKey (same.symm.trans (Table.key_of_get? found))
          rw [Option.map_some, if_neg (by simpa using otherKey)]
    · cases taken

variable {projectId : Uuid} {modelIdentity resolvedModel : Text} {dimensions : Nat} {fresh : List (Text × Vector)}

/-- After the upsert a key has a row that was written, or the row it had before. -/
theorem get?_upsertAll {key : Uuid × Text × Text} (found : (EmbeddingCache.upsertAll cache projectId modelIdentity
    resolvedModel dimensions fresh).get? key = some row) :
    (∃ entry ∈ fresh, row = ⟨projectId, modelIdentity, entry.1, resolvedModel, dimensions, entry.2⟩) ∨
      cache.get? key = some row := by
  induction fresh generalizing cache with
  | nil => exact .inr found
  | cons entry rest ih =>
    rcases ih found with ⟨later, isLater, written⟩ | before
    · exact .inl ⟨later, List.mem_cons_of_mem _ isLater, written⟩
    · rw [get?_upsert] at before
      split at before
      · cases before
        exact .inl ⟨entry, List.mem_cons_self, rfl⟩
      · exact .inr before

/-- The rows of every hash that was written, and of every key that had one, are there. -/
theorem get?_upsertAll_isSome {contentSha256 : Text} (present : contentSha256 ∈ fresh.map Prod.fst ∨
    (cache.get? (projectId, modelIdentity, contentSha256)).isSome = true) : ((EmbeddingCache.upsertAll cache projectId
      modelIdentity resolvedModel dimensions fresh).get? (projectId, modelIdentity, contentSha256)).isSome = true := by
  induction fresh generalizing cache with
  | nil => exact present.resolve_left List.not_mem_nil
  | cons entry rest ih =>
    apply ih
    rw [get?_upsert]
    split
    · exact .inr rfl
    · rename_i differs
      rcases present with written | before
      · rcases List.mem_cons.mp written with isEntry | later
        · exact absurd (congrArg (fun hash => (projectId, modelIdentity, hash)) isEntry.symm) differs
        · exact .inl later
      · exact .inr before

/-- Rows of other projects and models are left alone. -/
theorem get?_upsertAll_of_ne {key : Uuid × Text × Text} (other : key.1 ≠ projectId ∨ key.2.1 ≠ modelIdentity) :
    (EmbeddingCache.upsertAll cache projectId modelIdentity resolvedModel dimensions fresh).get? key = cache.get? key := by
  induction fresh generalizing cache with
  | nil => rfl
  | cons entry rest ih =>
    refine (ih).trans ?_
    rw [get?_upsert, if_neg]
    rintro rfl
    exact other.elim (fun differs => differs rfl) fun differs => differs rfl

end

/-! ## What is resolved -/

namespace EmbeddingRequest

variable {request : EmbeddingRequest}

/-- New vectors and cached rows that stay in use are of the one model and dimension that is returned. -/
structure Uniform (isVector : Text → Text → Vector → Prop) (uniqueChunks : List (Text × DocumentChunk))
    (cached : List CachedEmbedding) (resolution : Resolution) : Prop where
  fresh : ∀ entry ∈ resolution.fresh, ∃ chunk ∈ uniqueChunks.map Prod.snd, chunk.contentSha256 = entry.1 ∧
    Suits isVector resolution.resolvedModel resolution.dimensions chunk.text entry.2
  kept : ∀ entry ∈ resolution.cachedBySha256, entry.2 ∈ cached ∧ entry.2.contentSha256 = entry.1 ∧
    entry.2.resolvedModel = resolution.resolvedModel ∧ entry.2.dimensions = resolution.dimensions

/-- When every chunk is embedded anew, no row stays in use. -/
theorem uniform_of_embedUniqueChunks (honest : request.Honest isVector) {attempt : Nat}
    {uniqueChunks : List (Text × DocumentChunk)} {cached : List CachedEmbedding} {fresh : List (Text × Vector)}
    {resolvedModel : Text} {dimensions : Nat}
    (returns : request.embedUniqueChunks attempt (uniqueChunks.map Prod.snd) = .ok (fresh, resolvedModel, dimensions)) :
    Uniform isVector uniqueChunks cached ⟨fresh, resolvedModel, dimensions, []⟩ :=
  ⟨(embedUniqueChunks_spec honest returns).1, fun _ member => (List.not_mem_nil member).elim⟩

theorem kept_of_dedup {cached : List CachedEmbedding} {resolvedModel : Text} {dimensions : Nat}
    (oneModel : (cached.map CachedEmbedding.resolvedModel).dedup = [resolvedModel] ∨ cached = [])
    (oneDimension : (cached.map CachedEmbedding.dimensions).dedup = [dimensions] ∨ cached = []) :
    ∀ entry ∈ dictBy CachedEmbedding.contentSha256 cached, entry.2 ∈ cached ∧ entry.2.contentSha256 = entry.1 ∧
      entry.2.resolvedModel = resolvedModel ∧ entry.2.dimensions = dimensions := by
  intro entry member
  obtain ⟨isCached, isHash⟩ := mem_dictBy member
  have nonempty : cached ≠ [] := List.ne_nil_of_mem isCached
  exact ⟨isCached, isHash, eq_of_dedup_eq (oneModel.resolve_right nonempty) _ (List.mem_map_of_mem isCached),
    eq_of_dedup_eq (oneDimension.resolve_right nonempty) _ (List.mem_map_of_mem isCached)⟩

theorem uniform_resolveCached (honest : request.Honest isVector) {uniqueChunks : List (Text × DocumentChunk)}
    {cached : List CachedEmbedding} {resolution : Resolution}
    (resolves : request.resolveCached uniqueChunks cached = .ok resolution) :
    Uniform isVector uniqueChunks cached resolution := by
  unfold resolveCached at resolves
  obtain ⟨-, resolves⟩ := check_bind_eq_ok.mp resolves
  dsimp only at resolves
  split at resolves
  · obtain ⟨⟨fresh, resolvedModel, dimensions⟩, returns, resolves⟩ := bind_eq_ok.mp resolves
    cases resolves
    exact uniform_of_embedUniqueChunks honest returns
  · rename_i consistent
    split at resolves
    · obtain ⟨⟨fresh, resolvedModel, dimensions⟩, returns, resolves⟩ := bind_eq_ok.mp resolves
      dsimp only at resolves
      split at resolves
      · obtain ⟨⟨fresh, resolvedModel, dimensions⟩, returns, resolves⟩ := bind_eq_ok.mp resolves
        cases resolves
        exact uniform_of_embedUniqueChunks honest returns
      · rename_i sameModel
        cases resolves
        have one : cached = [] ∨ ((cached.map CachedEmbedding.resolvedModel).dedup = [resolvedModel] ∧
            (cached.map CachedEmbedding.dimensions).dedup = [dimensions]) := by
          by_cases empty : cached = []
          · exact .inl empty
          · refine .inr ⟨?_, ?_⟩
            · exact not_not.mp fun differs => sameModel ⟨empty, .inl differs⟩
            · exact not_not.mp fun differs => sameModel ⟨empty, .inr differs⟩
        refine ⟨?_, kept_of_dedup (one.symm.imp_left And.left) (one.symm.imp_left And.right)⟩
        intro entry member
        obtain ⟨chunk, isMissing, suits⟩ := (embedUniqueChunks_spec honest returns).1 entry member
        exact ⟨chunk, List.map_subset _ (List.filter_subset_self _) isMissing, suits⟩
    · split at resolves
      · rename_i resolvedModel otherModels dimensions otherDimensions models dimensionList
        cases resolves
        -- a consistent cache names one model and one dimension
        rw [models, dimensionList] at consistent
        obtain ⟨fewModels, fewDimensions⟩ := not_or.mp consistent
        rw [List.length_cons] at fewModels fewDimensions
        have noOther : otherModels = [] ∧ otherDimensions = [] :=
          ⟨List.eq_nil_of_length_eq_zero (by omega), List.eq_nil_of_length_eq_zero (by omega)⟩
        rw [noOther.1] at models
        rw [noOther.2] at dimensionList
        exact ⟨fun entry member => (List.not_mem_nil member).elim, kept_of_dedup (.inl models) (.inl dimensionList)⟩
      · cases resolves

/-! ## Resolved embeddings -/

section

variable (isVector : Text → Text → Vector → Prop) (sha256 : Text → Text)

/-- Every row holds a vector of the text with its hash, by the model and of the dimension that it names. -/
def ValidCache (cache : EmbeddingCache) : Prop :=
  ∀ key row, cache.get? key = some row → ∀ text, sha256 text = key.2.2 →
    Suits isVector row.resolvedModel row.dimensions text row.vector

/-- What the cache can hold: calls for any project and model store vectors in it, one call after the other. A call may
have failed after that. -/
inductive Reached : EmbeddingCache → Prop
  | empty : Reached Table.empty
  | stored {cache : EmbeddingCache} (before : Reached cache) (request : EmbeddingRequest)
      (sameHashes : request.sha256 = sha256) (honest : request.Honest isVector) {chunks : List DocumentChunk}
      {contentSha256s : List Text} {resolution : Resolution}
      (resolves : request.resolveUnique cache chunks = .ok (contentSha256s, resolution)) :
      Reached (request.store cache resolution)

/-- What `_resolve_embeddings` promises about its result and the cache it leaves. -/
structure Resolved (request : EmbeddingRequest) (before after : EmbeddingCache) (chunks : List DocumentChunk)
    (vectors : List Vector) (resolvedModel : Text) (dimensions : Nat) : Prop where
  suits : List.Forall₂ (fun chunk vector => Suits isVector resolvedModel dimensions chunk.text vector) chunks vectors
  sameText : ∀ (first second : Nat) (chunk other : DocumentChunk), chunks[first]? = some chunk →
    chunks[second]? = some other → chunk.text = other.text → vectors[first]? = vectors[second]?
  valid : ValidCache isVector request.sha256 after
  stored : ∀ chunk ∈ chunks, (after.get? (request.projectId, request.model, request.sha256 chunk.text)).isSome = true
  others : ∀ key, (key.1 ≠ request.projectId ∨ key.2.1 ≠ request.model) → after.get? key = before.get? key

end

theorem mem_listCached {cache : EmbeddingCache} {contentSha256s : List Text} {row : CachedEmbedding}
    (member : row ∈ EmbeddingCache.listCached cache request.projectId request.model contentSha256s) :
    cache.get? (request.projectId, request.model, row.contentSha256) = some row := by
  obtain ⟨isRow, isListed⟩ := List.mem_filter.mp member
  rw [Bool.and_eq_true, Bool.and_eq_true, decide_eq_true_eq, decide_eq_true_eq] at isListed
  have found := Table.get?_of_mem (Table.mem_rows.mp isRow)
  rw [← isListed.1.1, ← isListed.1.2]
  exact found

section

variable {cache : EmbeddingCache} {chunks : List DocumentChunk} {contentSha256s : List Text} {resolution : Resolution}

/-- Both new vectors and the kept rows hold, under a hash, vectors of the text with that hash; the cache had the kept rows. -/
structure Matches (isVector : Text → Text → Vector → Prop) (request : EmbeddingRequest) (cache : EmbeddingCache)
    (resolution : Resolution) : Prop where
  fresh : ∀ entry ∈ resolution.fresh, ∀ text, request.sha256 text = entry.1 →
    Suits isVector resolution.resolvedModel resolution.dimensions text entry.2
  kept : ∀ entry ∈ resolution.cachedBySha256, ∀ text, request.sha256 text = entry.1 →
    Suits isVector resolution.resolvedModel resolution.dimensions text entry.2.vector
  cached : ∀ entry ∈ resolution.cachedBySha256,
    (cache.get? (request.projectId, request.model, entry.1)).isSome = true

theorem resolveUnique_spec (injective : Function.Injective request.sha256) (honest : request.Honest isVector)
    (valid : ValidCache isVector request.sha256 cache)
    (resolves : request.resolveUnique cache chunks = .ok (contentSha256s, resolution)) :
    (∀ chunk ∈ chunks, request.sha256 chunk.text = chunk.contentSha256 ∧ chunk.contentSha256 ∈ contentSha256s) ∧
      Matches isVector request cache resolution := by
  unfold resolveUnique at resolves
  obtain ⟨uniqueChunks, areUnique, resolves⟩ := bind_eq_ok.mp resolves
  obtain ⟨resolved, isResolution, resolves⟩ := bind_eq_ok.mp resolves
  cases resolves
  obtain ⟨fromChunks, hashed⟩ := addUnique_spec areUnique
  have uniform := uniform_resolveCached honest isResolution
  refine ⟨hashed, ?_, ?_, ?_⟩
  · intro entry member text isHash
    obtain ⟨chunk, isChunk, sameHash, suits⟩ := uniform.fresh entry member
    obtain ⟨uniqueEntry, isEntry, rfl⟩ := List.mem_map.mp isChunk
    have sameText := injective ((hashed _ (fromChunks uniqueEntry isEntry).1).1.trans (sameHash.trans isHash.symm))
    rw [← sameText]
    exact suits
  · intro entry member text isHash
    obtain ⟨isCached, sameHash, sameModel, sameDimensions⟩ := uniform.kept entry member
    rw [← sameModel, ← sameDimensions]
    exact valid _ _ (mem_listCached isCached) text (isHash.trans sameHash.symm)
  · intro entry member
    obtain ⟨isCached, sameHash, -, -⟩ := uniform.kept entry member
    rw [← sameHash, mem_listCached isCached]
    rfl

/-- Storing new vectors keeps the cache valid. -/
theorem validCache_store (valid : ValidCache isVector request.sha256 cache)
    (isMatch : Matches isVector request cache resolution) : ValidCache isVector request.sha256 (request.store cache resolution) := by
  intro key row found text isHash
  rcases get?_upsertAll found with ⟨entry, isFresh, rfl⟩ | before
  · rw [← Table.key_of_get? found] at isHash
    exact isMatch.fresh entry isFresh text isHash
  · exact valid key row before text isHash

end

theorem validCache_of_reached {sha256 : Text → Text} (injective : Function.Injective sha256) {cache : EmbeddingCache}
    (reached : Reached isVector sha256 cache) : ValidCache isVector sha256 cache := by
  induction reached with
  | empty =>
    intro key row found
    cases found
  | stored _ request sameHashes honest resolves ih =>
    subst sameHashes
    exact validCache_store ih (resolveUnique_spec injective honest ih resolves).2

theorem resolve_embeddings_sound (isVector : Text → Text → Vector → Prop) (request : EmbeddingRequest)
    (injective : Function.Injective request.sha256) (honest : request.Honest isVector) {cache after : EmbeddingCache}
    (reached : Reached isVector request.sha256 cache) {chunks : List DocumentChunk} {vectors : List Vector}
    {resolvedModel : Text} {dimensions : Nat}
    (resolves : request.resolveEmbeddings cache chunks = .ok ((vectors, resolvedModel, dimensions), after)) :
    Resolved isVector request cache after chunks vectors resolvedModel dimensions := by
  have valid := validCache_of_reached injective reached
  unfold resolveEmbeddings at resolves
  obtain ⟨⟨contentSha256s, resolution⟩, isResolution, resolves⟩ := bind_eq_ok.mp resolves
  obtain ⟨complete, resolves⟩ := check_bind_eq_ok.mp resolves
  obtain ⟨found, areFound, resolves⟩ := bind_eq_ok.mp resolves
  cases resolves
  obtain ⟨hashed, isMatch⟩ := resolveUnique_spec injective honest valid isResolution
  have lookups := mapM_eq_ok.mp areFound
  rw [ensure_eq_ok, Bool.and_eq_true, List.all_eq_true, List.all_eq_true] at complete
  refine ⟨?_, ?_, validCache_store valid isMatch, ?_, fun key other => get?_upsertAll_of_ne other⟩
  · -- the vector of a chunk is a new one or one that was cached
    refine List.Forall₂.imp ?_ ((List.forall₂_and_left _ _).mpr ⟨hashed, lookups⟩)
    rintro chunk vector ⟨⟨isHash, -⟩, isLookup⟩
    rcases mem_updateEntries (mem_of_lookup (obtain?_eq_ok.mp isLookup)) with isFresh | wasCached
    · exact isMatch.fresh _ isFresh chunk.text isHash
    · obtain ⟨⟨contentSha256, record⟩, isKept, sameEntry⟩ := List.mem_map.mp wasCached
      obtain ⟨rfl, rfl⟩ := Prod.mk.inj sameEntry
      exact isMatch.kept _ isKept chunk.text isHash
  · intro first second chunk other isFirst isSecond sameText
    have sameHash : chunk.contentSha256 = other.contentSha256 := by
      rw [← (hashed chunk (List.mem_of_getElem? isFirst)).1, ← (hashed other (List.mem_of_getElem? isSecond)).1, sameText]
    obtain ⟨vector, isVector, makes⟩ := exists_of_forall₂_getElem? lookups isFirst
    obtain ⟨otherVector, isOther, makesOther⟩ := exists_of_forall₂_getElem? lookups isSecond
    rw [sameHash] at makes
    rw [isVector, isOther]
    exact congrArg some (Except.ok.inj (makes.symm.trans makesOther))
  · intro chunk member
    obtain ⟨isHash, isListed⟩ := hashed chunk member
    have resolved := List.contains_iff_mem.mp (complete.2 _ isListed)
    rw [isHash]
    refine get?_upsertAll_isSome ((mem_keys_updateEntries.mp resolved).symm.imp_right fun wasCached => ?_)
    rw [List.map_map] at wasCached
    obtain ⟨entry, isKept, isKey⟩ := List.mem_map.mp wasCached
    rw [← isKey]
    exact isMatch.cached entry isKept

/-- A chunk that is its text. -/
def textChunk (text : Text) : DocumentChunk :=
  { chunkId := [], projectId := 0, generationId := 0, sourceVersionId := 0, sectionPath := [], text := text,
    contentSha256 := text }

/-- The service of the model counts characters. -/
def countCharacters : EmbeddingRequest where
  sha256 := id
  service _ _ texts := .ok ⟨some "counter", texts.mapIdx fun index text => some ⟨index, [.finite text.length]⟩⟩
  model := "count"
  projectId := 1
  embeddingBatchSize := 1
  positive := Nat.one_pos

def IsCount (text model : Text) (vector : Vector) : Prop :=
  model = ("counter" : Text) ∧ vector = [.finite text.length]

theorem honest_countCharacters : countCharacters.Honest IsCount := by
  intro attempt offset texts response returns item member nonnegative text found
  cases returns
  obtain ⟨index, inRange, isItem⟩ := List.mem_iff_getElem.mp member
  rw [List.getElem_mapIdx] at isItem
  cases isItem
  rw [Int.toNat_natCast, List.getElem?_eq_getElem (by simpa using inRange)] at found
  cases found
  exact ⟨rfl, rfl⟩

/-- The vector of one text is cached, the one of another is made. -/
theorem resolve_embeddings_sound_partial_hit :
    Resolved IsCount countCharacters (countCharacters.store Table.empty ⟨[("a", [.finite 1])], "counter", 1, []⟩)
      (countCharacters.store (countCharacters.store Table.empty ⟨[("a", [.finite 1])], "counter", 1, []⟩)
        ⟨[("bcd", [.finite 3])], "counter", 1, []⟩)
      [textChunk "bcd", textChunk "a", textChunk "bcd"] [[.finite 3], [.finite 1], [.finite 3]] "counter" 1 := by
  have first : countCharacters.resolveUnique Table.empty [textChunk "a"] =
      .ok ([("a" : Text)], ⟨[(("a" : Text), [.finite 1])], "counter", 1, []⟩) := by
    decide +kernel
  have second : countCharacters.resolveUnique
      (countCharacters.store Table.empty ⟨[(("a" : Text), [.finite 1])], "counter", 1, []⟩)
      [textChunk "bcd", textChunk "a", textChunk "bcd"] =
      .ok ([("bcd" : Text), ("a" : Text)], ⟨[(("bcd" : Text), [.finite 3])], "counter", 1,
        [(("a" : Text), ⟨1, "count", "a", "counter", 1, [.finite 1]⟩)]⟩) := by
    decide +kernel
  refine resolve_embeddings_sound IsCount countCharacters Function.injective_id honest_countCharacters
    (.stored .empty countCharacters rfl honest_countCharacters first) ?_
  rw [resolveEmbeddings, second]
  rfl

end EmbeddingRequest

end Mcplica.Indexing
