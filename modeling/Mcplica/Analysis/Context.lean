import Mcplica.Builds.Diff
import Mcplica.Canonicalization.Service
import Mcplica.Contracts.CanonicalText
import Mcplica.Parsers.Documentation

/-! # The context of an analysis

`AnalysisService` sends the facts of an operation and excerpts of what was retrieved to the model, and lets the answer cite
what was retrieved. Excerpts that do not fit are dropped from the context only. -/

namespace Mcplica.Analysis

open Mcplica.Library Mcplica.Contracts Mcplica.Builds Mcplica.Parsers Mcplica.Canonicalization

/-- `RetrievalContext` without the usage of the embedding. -/
structure RetrievalContext where
  chunks : List DocumentChunk

/-- The answer of the model. -/
structure OperationEnrichmentResult where
  operationKey : Text
  title : Option Text := none
  description : Option Text := none
  category : Option Text := none
  keywords : List Text := []
  documentationChunkIds : List Text := []
  relationshipHints : List Text := []
  confidence : Json
  warnings : List Text := []

structure AiAnalysisError where
  message : Text
  /-- the `chunk_ids` of the details -/
  chunkIds : List Text := []
  deriving Repr, DecidableEq

/-! ## The context -/

section

variable (sha256 : Text → Text)

def parameterFacts (parameter : CanonicalParameter) : Json :=
  .object [Json.entry "name" (.string parameter.name), Json.entry "location" (.string parameter.location.value),
    Json.entry "required" (.bool parameter.required),
    Json.entry "schema_sha256" (.string (sha256 (Json.object parameter.schema).canonical))]

/-- `_source_facts` -/
def sourceFacts (operation : CanonicalOperation) : Json :=
  let schemeNames := operation.security.flatMap fun requirement => requirement.schemeScopes.map Prod.fst
  .object [Json.entry "operation_key" (.string operation.key),
    Json.entry "operation_id" (Canonicalization.optionalText operation.sourceOperationId),
    Json.entry "method" (.string operation.method.value), Json.entry "path" (.string operation.pathTemplate),
    Json.entry "summary" (.string ((operation.summary.getD []).take 2000)),
    Json.entry "description" (.string ((operation.description.getD []).take 8000)),
    Json.entry "tags" (.array ((operation.tags.take 50).map .string)),
    Json.entry "parameters" (.array (operation.parameters.map (parameterFacts sha256))),
    Json.entry "request_media_types" (.array ((operation.requestBody.toList.flatMap CanonicalRequestBody.content).map
      fun media => .string media.mediaType)),
    Json.entry "response_statuses" (.array (operation.responses.map fun response => .string response.statusCode)),
    Json.entry "security_schemes" (.array ((Text.sorted schemeNames.dedup).map .string))]

def excerpt (chunk : DocumentChunk) : Json :=
  .object [Json.entry "chunk_id" (.string chunk.chunkId), Json.entry "title" (Canonicalization.optionalText chunk.title),
    Json.entry "section_path" (.array (chunk.sectionPath.map .string)), Json.entry "text" (.string chunk.text)]

/-- The fields of the payload with these excerpts. -/
def payload (operation : CanonicalOperation) (excerpts : List DocumentChunk) : JsonObject :=
  [Json.entry "authoritative_source_facts" (sourceFacts sha256 operation),
    Json.entry "untrusted_documentation_excerpts" (.array (excerpts.map excerpt))]

/-- The payload, encoded. -/
def encode (operation : CanonicalOperation) (excerpts : List DocumentChunk) : Text :=
  (Json.object (payload sha256 operation excerpts)).canonical

/-- The `while` loop: the last excerpt is dropped as long as the payload is too long. -/
def dropExcerpts (operation : CanonicalOperation) (maxContextChars : Nat) (excerpts : List DocumentChunk) :
    List DocumentChunk :=
  if maxContextChars < (encode sha256 operation excerpts).length ∧ excerpts ≠ [] then
    dropExcerpts operation maxContextChars excerpts.dropLast
  else
    excerpts
termination_by excerpts.length
decreasing_by
  rename_i tooLong
  have := List.length_pos_iff.mpr tooLong.2
  rw [List.length_dropLast]
  omega

/-- `_context` -/
def context (operation : CanonicalOperation) (retrieval : RetrievalContext) (maxContextChars : Nat) :
    Except AiAnalysisError Text :=
  let encoded := encode sha256 operation (dropExcerpts sha256 operation maxContextChars retrieval.chunks)
  if maxContextChars < encoded.length then
    .error ⟨"Authoritative operation context exceeds the configured AI limit", []⟩
  else
    .ok encoded

/-! ## The analysis -/

/-- `_validate_result` -/
def validateResult (operation : CanonicalOperation) (result : OperationEnrichmentResult) (retrievedChunkIds : List Text) :
    Except AiAnalysisError Unit :=
  let inventedChunks := (result.documentationChunkIds.filter fun chunkId => !retrievedChunkIds.contains chunkId).dedup
  if result.operationKey ≠ operation.key then
    .error ⟨"AI enrichment changed the operation identity", []⟩
  else if inventedChunks ≠ [] then
    .error ⟨"AI enrichment cited documentation outside the bounded retrieval context", Text.sorted inventedChunks⟩
  else
    .ok ()

/-- What `_save_run` writes about the context and the answer. -/
structure AiRun where
  operationKey : Text
  inputContextSha256 : Text
  retrievedChunkIds : List Text
  response : Option OperationEnrichmentResult
  status : Text

/-- The `id` and the `version` of `OPERATION_ENRICHMENT_PROMPT`. -/
def operationEnrichmentPrompt : Text × Text :=
  ("operation-enrichment", "1.0.0")

/-- `_enrichment` -/
def enrichment (result : OperationEnrichmentResult) (model contextSha256 : Text) (retrievedChunkIds : List Text) :
    OperationEnrichment where
  operationKey := result.operationKey
  title := result.title
  description := result.description
  category := result.category
  keywords := result.keywords
  documentationChunkIds := result.documentationChunkIds
  relationshipHints := result.relationshipHints
  confidence := result.confidence
  warnings := result.warnings
  provenance := ⟨"openrouter", model, operationEnrichmentPrompt.1, operationEnrichmentPrompt.2, contextSha256,
    retrievedChunkIds⟩

/-- `_analyze_operation` when there is neither an earlier run nor an enrichment to reuse: the run that is saved, and what
is returned or raised. Without a context there is no run. -/
def analyzeOperation (operation : CanonicalOperation) (retrieval : RetrievalContext) (maxContextChars : Nat) (model : Text)
    (structuredGenerate : Text → Except AiAnalysisError OperationEnrichmentResult) :
    Except AiAnalysisError (AiRun × Except AiAnalysisError OperationEnrichment) := do
  let encoded ← context sha256 operation retrieval maxContextChars
  let contextSha256 := sha256 encoded
  let chunkIds := retrieval.chunks.map DocumentChunk.chunkId
  let generated : Except AiAnalysisError OperationEnrichmentResult := do
    let value ← structuredGenerate encoded
    validateResult operation value chunkIds
    return value
  match generated with
  | .error error => return (⟨operation.key, contextSha256, chunkIds, none, "failed"⟩, .error error)
  | .ok value =>
    return (⟨operation.key, contextSha256, chunkIds, some value, "succeeded"⟩,
      .ok (enrichment value model contextSha256 chunkIds))

end

/-! ## Reading a context back -/

section

variable {sha256 : Text → Text} {operation other : CanonicalOperation} {excerpts others : List DocumentChunk}

theorem writtenItems_map {α : Type} {make : α → Json} {values : List α} (written : ∀ value, (make value).Written) :
    Json.WrittenItems (values.map make) := by
  induction values with
  | nil => trivial
  | cons value rest ih => exact ⟨written value, ih⟩

theorem written_optionalText (value : Option Text) : (Canonicalization.optionalText value).Written := by
  cases value <;> trivial

theorem written_excerpt (chunk : DocumentChunk) : (excerpt chunk).Written :=
  ⟨trivial, written_optionalText _, writtenItems_map fun _ => trivial, trivial, trivial⟩

theorem written_sourceFacts (operation : CanonicalOperation) : (sourceFacts sha256 operation).Written :=
  ⟨trivial, written_optionalText _, trivial, trivial, trivial, trivial, writtenItems_map fun _ => trivial,
    writtenItems_map fun _ => ⟨trivial, trivial, trivial, trivial, trivial⟩, writtenItems_map fun _ => trivial,
    writtenItems_map fun _ => trivial, writtenItems_map fun _ => trivial, trivial⟩

theorem written_payload (operation : CanonicalOperation) (excerpts : List DocumentChunk) :
    Json.WrittenFields (payload sha256 operation excerpts) :=
  ⟨written_sourceFacts operation, writtenItems_map written_excerpt, trivial⟩

theorem chunkId_of_canonical_eq {chunk another : DocumentChunk}
    (same : (excerpt chunk).canonical = (excerpt another).canonical) : chunk.chunkId = another.chunkId := by
  have sameId := Json.get_of_canonical_eq (written_excerpt chunk) (written_excerpt another)
    (by simp only [Json.entry, List.map_cons, List.map_nil]; decide) same "chunk_id"
  exact Json.string_of_canonical_eq (Option.some.inj sameId)

/-- The text of a context determines the identifiers of its excerpts. -/
theorem chunkIds_of_encode_eq (same : encode sha256 operation excerpts = encode sha256 other others) :
    excerpts.map DocumentChunk.chunkId = others.map DocumentChunk.chunkId := by
  have sameArray := Json.get_of_canonical_eq (written_payload operation excerpts) (written_payload other others)
    (by simp only [payload, Json.entry, List.map_cons, List.map_nil]; decide) same "untrusted_documentation_excerpts"
  have isArray : ∀ (operation : CanonicalOperation) (excerpts : List DocumentChunk),
      Json.get (payload sha256 operation excerpts) "untrusted_documentation_excerpts" =
        some (.array (excerpts.map excerpt)) := fun _ _ => rfl
  rw [isArray, isArray, Option.map_some, Option.map_some, Option.some.injEq] at sameArray
  have sameItems := Json.items_of_canonical_eq (writtenItems_map written_excerpt) (writtenItems_map written_excerpt) sameArray
  rw [Json.canonicalItems_eq_map, Json.canonicalItems_eq_map, List.map_map, List.map_map] at sameItems
  clear sameArray same
  induction excerpts generalizing others with
  | nil =>
    rw [List.map_nil, eq_comm, List.map_eq_nil_iff] at sameItems
    rw [sameItems]
  | cons chunk rest ih =>
    cases others with
    | nil => cases sameItems
    | cons another remaining =>
      obtain ⟨sameChunk, sameRest⟩ := List.cons.inj sameItems
      rw [List.map_cons, List.map_cons, chunkId_of_canonical_eq sameChunk, ih sameRest]

/-! ## The excerpts that are sent -/

theorem encode_dropExcerpts (operation : CanonicalOperation) (maxContextChars : Nat) (excerpts : List DocumentChunk) :
    dropExcerpts sha256 operation maxContextChars excerpts <+: excerpts ∧
      ∀ kept, kept <+: excerpts → (encode sha256 operation kept).length ≤ maxContextChars →
        kept <+: dropExcerpts sha256 operation maxContextChars excerpts := by
  induction excerpts using dropExcerpts.induct sha256 operation maxContextChars with
  | case1 excerpts tooLong ih =>
    obtain ⟨isStart, longest⟩ := ih
    rw [dropExcerpts, if_pos tooLong]
    refine ⟨isStart.trans (List.dropLast_prefix _), ?_⟩
    intro kept isKept fits
    apply longest kept _ fits
    -- what fits is not the whole list, so the last excerpt is none of it
    have shorter : kept.length < excerpts.length := by
      refine lt_of_le_of_ne isKept.length_le fun sameLength => ?_
      rw [isKept.eq_of_length sameLength] at fits
      omega
    refine List.prefix_of_prefix_length_le isKept (List.dropLast_prefix _) ?_
    rw [List.length_dropLast]
    omega
  | case2 excerpts done =>
    rw [dropExcerpts, if_neg done]
    exact ⟨List.prefix_rfl, fun kept isKept _ => isKept⟩

theorem context_eq_ok {retrieval : RetrievalContext} {maxContextChars : Nat} {encoded : Text}
    (sends : context sha256 operation retrieval maxContextChars = .ok encoded) :
    encoded = encode sha256 operation (dropExcerpts sha256 operation maxContextChars retrieval.chunks) ∧
      encoded.length ≤ maxContextChars := by
  unfold context at sends
  dsimp only at sends
  split at sends
  · cases sends
  · rename_i fits
    cases sends
    exact ⟨rfl, by omega⟩

theorem validateResult_eq_ok {result : OperationEnrichmentResult} {retrievedChunkIds : List Text} :
    validateResult operation result retrievedChunkIds = .ok () ↔
      result.operationKey = operation.key ∧ ∀ chunkId ∈ result.documentationChunkIds, chunkId ∈ retrievedChunkIds := by
  unfold validateResult
  dsimp only
  by_cases sameKey : result.operationKey = operation.key
  · rw [if_neg (not_not.mpr sameKey)]
    have invented : (result.documentationChunkIds.filter fun chunkId => !retrievedChunkIds.contains chunkId).dedup ≠ [] ↔
        ¬ ∀ chunkId ∈ result.documentationChunkIds, chunkId ∈ retrievedChunkIds := by
      simp [List.dedup_eq_nil, List.filter_eq_nil_iff]
    split
    · rename_i some
      exact iff_of_false (fun accepted => by cases accepted) (fun accepted => invented.mp some accepted.2)
    · rename_i none
      exact iff_of_true rfl ⟨sameKey, not_not.mp (mt invented.mpr none)⟩
  · rw [if_pos sameKey]
    exact iff_of_false (fun accepted => by cases accepted) (fun accepted => sameKey accepted.1)

end

/-! ## Citations -/

section

variable (sha256 : Text → Text) (operation : CanonicalOperation) (retrieval : RetrievalContext) (maxContextChars : Nat)

/-- An excerpt with the identifier stands in the context. -/
def Presents (encoded chunkId : Text) : Prop :=
  ∃ operation excerpts, encoded = encode sha256 operation excerpts ∧ chunkId ∈ excerpts.map DocumentChunk.chunkId

/-- Whatever the model answers, the run is recorded with the digest of the context and with the identifiers of the excerpts
in it, and an answer about the operation is accepted exactly when it cites nothing else. -/
def LimitsCitations (encoded : Text) : Prop :=
  ∀ model structuredGenerate run outcome,
    analyzeOperation sha256 operation retrieval maxContextChars model structuredGenerate = .ok (run, outcome) →
    run.inputContextSha256 = sha256 encoded ∧
    (∀ chunkId, chunkId ∈ run.retrievedChunkIds ↔ Presents sha256 encoded chunkId) ∧
    ∀ value, structuredGenerate encoded = .ok value → value.operationKey = operation.key →
      ((∃ enriched, outcome = .ok enriched) ↔ ∀ chunkId ∈ value.documentationChunkIds, Presents sha256 encoded chunkId)

/-- The first excerpts, as many as fit, have among them the identifiers of all. -/
def KeepsIdentifiers : Prop :=
  ∃ kept, kept <+: retrieval.chunks ∧ (encode sha256 operation kept).length ≤ maxContextChars ∧
    ∀ chunk ∈ retrieval.chunks, chunk.chunkId ∈ kept.map DocumentChunk.chunkId

end

section

variable {sha256 : Text → Text} {operation : CanonicalOperation} {retrieval : RetrievalContext} {maxContextChars : Nat}

theorem presents_encode {excerpts : List DocumentChunk} {chunkId : Text} :
    Presents sha256 (encode sha256 operation excerpts) chunkId ↔ chunkId ∈ excerpts.map DocumentChunk.chunkId := by
  constructor
  · rintro ⟨other, others, same, member⟩
    rw [chunkIds_of_encode_eq same]
    exact member
  · exact fun member => ⟨operation, excerpts, rfl, member⟩

theorem citations_limited_iff {encoded : Text} (sends : context sha256 operation retrieval maxContextChars = .ok encoded) :
    LimitsCitations sha256 operation retrieval maxContextChars encoded ↔
      KeepsIdentifiers sha256 operation retrieval maxContextChars := by
  obtain ⟨rfl, fits⟩ := context_eq_ok sends
  obtain ⟨isStart, longest⟩ := @encode_dropExcerpts sha256 operation maxContextChars retrieval.chunks
  constructor
  · intro limits
    -- an answer that fails is recorded as well
    have records := (limits [] (fun _ => .error ⟨[], []⟩) _ _
      (by unfold analyzeOperation; rw [sends]; rfl)).2.1
    refine ⟨_, isStart, fits, ?_⟩
    intro chunk member
    exact presents_encode.mp ((records chunk.chunkId).mp (List.mem_map_of_mem member))
  · rintro ⟨kept, isKept, keptFits, covers⟩
    have present_iff : ∀ chunkId, chunkId ∈ retrieval.chunks.map DocumentChunk.chunkId ↔ Presents sha256
        (encode sha256 operation (dropExcerpts sha256 operation maxContextChars retrieval.chunks)) chunkId := by
      intro chunkId
      rw [presents_encode]
      constructor
      · intro member
        obtain ⟨chunk, isChunk, rfl⟩ := List.mem_map.mp member
        exact List.map_subset _ (longest kept isKept keptFits).subset (covers chunk isChunk)
      · exact fun member => List.map_subset _ isStart.subset member
    intro model structuredGenerate run outcome analyzes
    unfold analyzeOperation at analyzes
    rw [sends] at analyzes
    dsimp only [bind, Except.bind] at analyzes
    cases answers : structuredGenerate
        (encode sha256 operation (dropExcerpts sha256 operation maxContextChars retrieval.chunks)) with
    | error error =>
      rw [answers] at analyzes
      cases analyzes
      refine ⟨rfl, present_iff, ?_⟩
      intro value isValue
      cases isValue
    | ok value =>
      rw [answers] at analyzes
      dsimp only at analyzes
      cases accepted : validateResult operation value (retrieval.chunks.map DocumentChunk.chunkId) with
      | error error =>
        rw [accepted] at analyzes
        cases analyzes
        refine ⟨rfl, present_iff, ?_⟩
        intro other isOther sameKey
        cases isOther
        refine iff_of_false (fun ⟨_, succeeds⟩ => by cases succeeds) ?_
        intro cites
        have valid := validateResult_eq_ok.mpr ⟨sameKey, fun chunkId member => (present_iff chunkId).mpr (cites chunkId member)⟩
        rw [accepted] at valid
        cases valid
      | ok _ =>
        rw [accepted] at analyzes
        cases analyzes
        refine ⟨rfl, present_iff, ?_⟩
        intro other isOther sameKey
        cases isOther
        refine iff_of_true ⟨_, rfl⟩ ?_
        exact fun chunkId member => (present_iff chunkId).mp ((validateResult_eq_ok.mp accepted).2 chunkId member)

end

/-! ## A dropped excerpt -/

def ping : CanonicalOperation where
  key := "ping"
  toolNameSeed := "ping"
  method := .get
  pathTemplate := "/ping"
  serverRef := none
  serverCandidates := ["main"]
  responses := [{ statusCode := "200", sourceRef := ⟨"1", "/paths/~1ping/get/responses/200"⟩ }]
  provenance := ⟨⟨"1", "/paths/~1ping/get"⟩, []⟩

def manual : DocumentChunk where
  chunkId := ("chunk_" : Text) ++ List.replicate 64 'a'
  projectId := 1
  generationId := 2
  sourceVersionId := 3
  sectionPath := ["Guide"]
  text := "Ping answers with pong."
  contentSha256 := List.replicate 64 'b'

def appendix : DocumentChunk :=
  { manual with chunkId := ("chunk_" : Text) ++ List.replicate 64 'c', text := "Ping has no parameters." }

/-- The manual is retrieved twice; the second excerpt of it is dropped, and citations are limited to what is left. -/
theorem citations_limited_whole : context id ping ⟨[manual, appendix, manual]⟩ (encode id ping [manual, appendix]).length =
      .ok (encode id ping [manual, appendix]) ∧
    LimitsCitations id ping ⟨[manual, appendix, manual]⟩ (encode id ping [manual, appendix]).length
      (encode id ping [manual, appendix]) := by
  have longer : (encode id ping [manual, appendix]).length < (encode id ping [manual, appendix, manual]).length := by
    decide +kernel
  have kept : dropExcerpts id ping (encode id ping [manual, appendix]).length [manual, appendix, manual] =
      [manual, appendix] := by
    rw [dropExcerpts, if_pos ⟨longer, List.cons_ne_nil _ _⟩]
    show dropExcerpts id ping (encode id ping [manual, appendix]).length [manual, appendix] = [manual, appendix]
    rw [dropExcerpts, if_neg fun tooLong => lt_irrefl _ tooLong.1]
  have sends : context id ping ⟨[manual, appendix, manual]⟩ (encode id ping [manual, appendix]).length =
      .ok (encode id ping [manual, appendix]) := by
    unfold context
    dsimp only
    rw [kept, if_neg (lt_irrefl _)]
  refine ⟨sends, (citations_limited_iff sends).mpr ⟨[manual, appendix], ⟨[manual], rfl⟩, le_refl _, ?_⟩⟩
  intro chunk member
  rcases List.mem_cons.mp member with isManual | later
  · exact isManual ▸ List.mem_cons_self
  · rcases List.mem_cons.mp later with isAppendix | last
    · exact isAppendix ▸ List.mem_cons_of_mem _ List.mem_cons_self
    · exact List.mem_singleton.mp last ▸ List.mem_cons_self

/-- The excerpt is dropped to fit the limit, and may still be cited. -/
theorem not_citations_limited : ¬ ∀ maxContextChars encoded, context id ping ⟨[manual]⟩ maxContextChars = .ok encoded →
    LimitsCitations id ping ⟨[manual]⟩ maxContextChars encoded := by
  intro limits
  have longer : (encode id ping []).length < (encode id ping [manual]).length := by decide +kernel
  have dropped : dropExcerpts id ping (encode id ping []).length [manual] = [] := by
    rw [dropExcerpts, if_pos ⟨longer, List.cons_ne_nil _ _⟩, List.dropLast_singleton, dropExcerpts,
      if_neg (fun tooLong => tooLong.2 rfl)]
  have sends : context id ping ⟨[manual]⟩ (encode id ping []).length = .ok (encode id ping []) := by
    unfold context
    dsimp only
    rw [dropped, if_neg (lt_irrefl _)]
  have records := (limits _ _ sends [] (fun _ => .error ⟨[], []⟩) _ _ (by unfold analyzeOperation; rw [sends]; rfl)).2.1
  have present := presents_encode.mp ((records manual.chunkId).mp List.mem_cons_self)
  exact List.not_mem_nil present

end Mcplica.Analysis
