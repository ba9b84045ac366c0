import Mcplica.Builds.ModelDump
import Mcplica.Builds.Records
import Mcplica.Cleanup.IndexFailure
import Mcplica.Contracts.Equality
import Mcplica.Indexing.SemanticChunks
import Mcplica.Parsers.ParsedSchemas

/-! # Reuse of enrichments

`select_reusable_enrichment` keeps what the analysis of the previous build has said of an operation when the fingerprints
of the operation in both builds are equal. The fingerprint leaves out where the operation comes from, but not where its
parameters, bodies, responses and security requirements come from. -/

namespace Mcplica.Analysis

open Mcplica.Builds Mcplica.Cleanup Mcplica.Contracts Mcplica.Domain Mcplica.Indexing Mcplica.Library Mcplica.Parsers

/-! ## Records -/

inductive BuildTrigger where
  | initial
  | sourceChange
  | manualReview
  | manualRebuild
  deriving Repr, DecidableEq

/-- A build with the fields that decide on reuse. -/
structure BuildRecord extends Build where
  trigger : BuildTrigger
  previousBuildId : Option Uuid := none
  compilerVersion : Text
  analysisModel : Option Text
  promptBundleVersion : Option Text

structure BuildConfiguration where
  includeDocumentationInAnalysis : Bool
  maxContextChars : Nat
  retrievalTopK : Nat
  documentMaxTextChars : Nat
  pdfMaxPages : Nat
  documentationChunkChars : Nat
  documentationChunkOverlapChars : Nat
  maxDocumentChunks : Nat
  deriving Repr, DecidableEq

/-- The arguments of `select_reusable_enrichment`. -/
structure ReuseRequest where
  currentBuild : BuildRecord
  previousBuild : BuildRecord
  currentCanonical : CanonicalApi
  previousCanonical : CanonicalApi
  currentGeneration : IndexGeneration
  previousGeneration : IndexGeneration
  currentConfig : BuildConfiguration
  previousConfig : BuildConfiguration
  previousEnrichment : EnrichmentSnapshot
  promptTemplateId : Text
  promptTemplateVersion : Text

/-! ## Fingerprints -/

def serverOf (api : CanonicalApi) (operation : CanonicalOperation) : Option CanonicalServer :=
  api.servers.find? fun server => some server.key = operation.serverRef

def schemeNames (operation : CanonicalOperation) : List Text :=
  Text.sorted (operation.security.flatMap fun requirement => requirement.schemeScopes.map Prod.fst).dedup

/-- What is hashed. -/
def fingerprintPayload (api : CanonicalApi) (operation : CanonicalOperation) : Json :=
  .object [
    Json.entry "operation" ((Value.ofOperation operation).without ["semantic", "provenance"]).modelDump,
    Json.entry "server" (Value.optional (fun server => (Value.ofServer server).without ["source_ref"])
      (serverOf api operation)).modelDump,
    Json.entry "security_schemes" (.object ((schemeNames operation).map fun name =>
      (name, (Value.optional (fun scheme => (Value.ofSecurityScheme scheme).without ["source_ref"])
        (api.securitySchemes.lookup name)).modelDump)))]

/-- `_operation_fingerprint` -/
def operationFingerprint (sha256 : Text → Text) (api : CanonicalApi) (operation : CanonicalOperation) : Text :=
  sha256 (fingerprintPayload api operation).canonical

/-! ## Selection -/

namespace ReuseRequest

/-- `_analysis_policy_matches` -/
def analysisPolicyMatches (request : ReuseRequest) : Bool :=
  request.currentConfig.includeDocumentationInAnalysis = request.previousConfig.includeDocumentationInAnalysis &&
    request.currentConfig.maxContextChars = request.previousConfig.maxContextChars &&
    request.currentConfig.retrievalTopK = request.previousConfig.retrievalTopK

/-- `_documentation_context_matches` -/
def documentationContextMatches (request : ReuseRequest) : Bool :=
  request.currentGeneration.sourceFingerprint = request.previousGeneration.sourceFingerprint &&
    request.currentGeneration.embeddingModel = request.previousGeneration.embeddingModel &&
    request.currentGeneration.dimensions = request.previousGeneration.dimensions &&
    request.currentBuild.embeddingModel = request.previousBuild.embeddingModel &&
    request.currentConfig.documentMaxTextChars = request.previousConfig.documentMaxTextChars &&
    request.currentConfig.pdfMaxPages = request.previousConfig.pdfMaxPages &&
    request.currentConfig.documentationChunkChars = request.previousConfig.documentationChunkChars &&
    request.currentConfig.documentationChunkOverlapChars = request.previousConfig.documentationChunkOverlapChars &&
    request.currentConfig.maxDocumentChunks = request.previousConfig.maxDocumentChunks

/-- The first condition does not return. -/
def comparable (request : ReuseRequest) : Bool :=
  request.currentBuild.trigger = .sourceChange && request.previousBuild.status = .ready &&
    request.currentBuild.previousBuildId = some request.previousBuild.id && request.currentBuild.analysisModel.isSome &&
    request.currentBuild.analysisModel = request.previousBuild.analysisModel &&
    request.currentBuild.promptBundleVersion = request.previousBuild.promptBundleVersion &&
    request.currentBuild.compilerVersion = request.previousBuild.compilerVersion &&
    request.currentGeneration.status = .ready && request.previousGeneration.status = .ready &&
    request.analysisPolicyMatches

/-- The model and the prompt that the enrichment was made with are those of the current build. -/
def madeAlike (request : ReuseRequest) (enrichment : OperationEnrichment) : Bool :=
  request.currentBuild.analysisModel = some enrichment.provenance.model &&
    enrichment.provenance.promptTemplateId = request.promptTemplateId &&
    enrichment.provenance.promptTemplateVersion = request.promptTemplateVersion

/-- One round of the loop over the operations. -/
def reusableOf (sha256 : Text → Text) (request : ReuseRequest) (operation : CanonicalOperation) :
    Option OperationEnrichment := do
  let priorOperation ← (operationsByKey request.previousCanonical).lookup operation.key
  let priorEnrichment ← request.previousEnrichment.lookup operation.key
  if request.madeAlike priorEnrichment &&
      operationFingerprint sha256 request.currentCanonical operation =
        operationFingerprint sha256 request.previousCanonical priorOperation then
    some priorEnrichment
  else
    none

def reusableEntries (sha256 : Text → Text) (request : ReuseRequest) : EnrichmentSnapshot :=
  request.currentCanonical.operations.foldl (fun reusable operation =>
    match request.reusableOf sha256 operation with
    | some enrichment => setEntry reusable operation.key enrichment
    | none => reusable) []

/-- `select_reusable_enrichment` -/
def selectReusableEnrichment (sha256 : Text → Text) (request : ReuseRequest) : EnrichmentSnapshot :=
  if !request.comparable then []
  else if request.currentConfig.includeDocumentationInAnalysis && !request.documentationContextMatches then []
  else request.reusableEntries sha256

end ReuseRequest

/-! ### What is selected -/

section Selection

variable {sha256 : Text → Text} {request : ReuseRequest}

theorem mem_reusableEntries (distinct : request.currentCanonical.operationKeys.Nodup) {entry : Text × OperationEnrichment} :
    entry ∈ request.reusableEntries sha256 ↔ ∃ operation ∈ request.currentCanonical.operations,
      operation.key = entry.1 ∧ request.reusableOf sha256 operation = some entry.2 := by
  unfold ReuseRequest.reusableEntries
  unfold CanonicalApi.operationKeys at distinct
  generalize request.currentCanonical.operations = operations at distinct ⊢
  have general : ∀ entries : EnrichmentSnapshot, (∀ operation ∈ operations, operation.key ∉ entries.map Prod.fst) →
      (entry ∈ operations.foldl (fun reusable operation =>
        match request.reusableOf sha256 operation with
        | some enrichment => setEntry reusable operation.key enrichment
        | none => reusable) entries ↔ entry ∈ entries ∨ ∃ operation ∈ operations,
          operation.key = entry.1 ∧ request.reusableOf sha256 operation = some entry.2) := by
    induction operations with
    | nil => simp
    | cons operation rest ih =>
      obtain ⟨fresh, restDistinct⟩ := List.nodup_cons.mp distinct
      intro entries absent
      have restAbsent := fun other member => absent other (List.mem_cons_of_mem _ member)
      rw [List.foldl_cons]
      cases reusable : request.reusableOf sha256 operation with
      | none =>
        rw [ih restDistinct entries restAbsent]
        simp [reusable]
      | some enrichment =>
        dsimp only
        rw [setEntry_of_not_mem (absent operation List.mem_cons_self), ih restDistinct]
        · have isFirst : entry ∈ [(operation.key, enrichment)] ↔ operation.key = entry.1 ∧
              request.reusableOf sha256 operation = some entry.2 := by
            rw [reusable, List.mem_singleton, Prod.ext_iff, Option.some.injEq, eq_comm, @eq_comm _ entry.2]
          rw [List.mem_append, isFirst, or_assoc]
          simp only [List.mem_cons, exists_eq_or_imp]
        · intro other member
          rw [List.map_append, List.mem_append, not_or]
          refine ⟨restAbsent other member, ?_⟩
          intro isKey
          have sameKey : other.key = operation.key := List.mem_singleton.mp isKey
          exact fresh (sameKey ▸ List.mem_map_of_mem member)
  exact (general [] (fun _ _ => List.not_mem_nil)).trans (or_iff_right List.not_mem_nil)

/-- What is selected for an operation is what its round selects. -/
theorem lookup_reusableEntries (distinct : request.currentCanonical.operationKeys.Nodup) {operation : CanonicalOperation}
    (isOperation : operation ∈ request.currentCanonical.operations) :
    (request.reusableEntries sha256).lookup operation.key = request.reusableOf sha256 operation := by
  have found : ∀ enrichment, (request.reusableEntries sha256).lookup operation.key = some enrichment →
      request.reusableOf sha256 operation = some enrichment := by
    intro enrichment isFound
    obtain ⟨other, isOther, sameKey, reusable⟩ := (mem_reusableEntries distinct).mp (mem_of_lookup isFound)
    obtain rfl : other = operation := List.inj_on_of_nodup_map distinct isOther isOperation sameKey
    exact reusable
  cases reusable : request.reusableOf sha256 operation with
  | none =>
    by_contra present
    obtain ⟨enrichment, isFound⟩ := Option.ne_none_iff_exists'.mp present
    rw [found enrichment isFound] at reusable
    cases reusable
  | some enrichment =>
    have member : (operation.key, enrichment) ∈ request.reusableEntries sha256 :=
      (mem_reusableEntries distinct).mpr ⟨operation, isOperation, rfl, reusable⟩
    obtain ⟨other, isFound⟩ := Option.isSome_iff_exists.mp (lookup_isSome.mpr (List.mem_map_of_mem member))
    rw [isFound, ← found other isFound, reusable]

/-- A round where everything but the fingerprints agrees. -/
theorem reusableOf_eq (distinct : request.previousCanonical.operationKeys.Nodup) {prior operation : CanonicalOperation}
    {enrichment : OperationEnrichment} (isPrior : prior ∈ request.previousCanonical.operations)
    (sameKey : prior.key = operation.key) (enriched : request.previousEnrichment.lookup operation.key = some enrichment)
    (alike : request.madeAlike enrichment = true) :
    request.reusableOf sha256 operation =
      if operationFingerprint sha256 request.currentCanonical operation =
        operationFingerprint sha256 request.previousCanonical prior then some enrichment else none := by
  have isFound : (operationsByKey request.previousCanonical).lookup operation.key = some prior :=
    sameKey ▸ lookup_of_mem (keys_dictBy _ _).1 (mem_dictBy_of_mem distinct isPrior)
  unfold ReuseRequest.reusableOf
  rw [isFound, Option.bind_eq_bind, Option.bind_some, enriched, Option.bind_eq_bind, Option.bind_some, alike, Bool.true_and]
  simp only [decide_eq_true_eq]

end Selection

/-! ## Outlines

What is left of an operation without its schemas and without the versions of the sources that it comes from. -/

def outlineRef (ref : SourceRef) : SourceRef :=
  { ref with sourceVersionId := [] }

def outlineParameter (parameter : CanonicalParameter) : CanonicalParameter :=
  { parameter with schema := [], sourceRef := outlineRef parameter.sourceRef }

def outlineMediaType (media : CanonicalMediaType) : CanonicalMediaType :=
  { media with schema := [], sourceRef := outlineRef media.sourceRef }

def outlineRequestBody (body : CanonicalRequestBody) : CanonicalRequestBody :=
  { body with content := body.content.map outlineMediaType, sourceRef := outlineRef body.sourceRef }

def outlineResponse (response : CanonicalResponse) : CanonicalResponse :=
  { response with content := response.content.map outlineMediaType, sourceRef := outlineRef response.sourceRef }

def outlineRequirement (requirement : CanonicalSecurityRequirement) : CanonicalSecurityRequirement :=
  { requirement with sourceRef := outlineRef requirement.sourceRef }

def outlineOperation (operation : CanonicalOperation) : CanonicalOperation :=
  { operation with
    parameters := operation.parameters.map outlineParameter
    requestBody := operation.requestBody.map outlineRequestBody
    responses := operation.responses.map outlineResponse
    security := operation.security.map outlineRequirement
    semanticTitle := none
    semanticDescription := none
    provenance := ⟨⟨[], []⟩, []⟩ }

def outlineServer (server : CanonicalServer) : CanonicalServer :=
  { server with sourceRef := ⟨[], []⟩ }

def outlineScheme (scheme : CanonicalSecurityScheme) : CanonicalSecurityScheme :=
  { scheme with sourceRef := ⟨[], []⟩ }

/-- The operation, its server and its security schemes are unchanged: nothing differs but the versions of their sources
and the texts of the schemas, whose definitions are named after those versions. -/
structure Unchanged (previous current : CanonicalApi) (prior operation : CanonicalOperation) : Prop where
  outline : outlineOperation prior = outlineOperation operation
  server : (serverOf previous prior).map outlineServer = (serverOf current operation).map outlineServer
  schemes : ∀ name ∈ schemeNames operation,
    (previous.securitySchemes.lookup name).map outlineScheme = (current.securitySchemes.lookup name).map outlineScheme

/-! ### Versioned parts -/

/-- The text of a schema with the version of its source. -/
abbrev VersionedSchema := Text × Text

/-- The parts of an operation that the versions of its sources are written into. -/
structure VersionedParts where
  parameters : List VersionedSchema
  requestBody : Option (Text × List VersionedSchema)
  responses : List (Text × List VersionedSchema)
  security : List Text
  deriving DecidableEq

def versionedSchema (schema : JsonObject) (ref : SourceRef) : VersionedSchema :=
  ((Json.object schema).canonical, ref.sourceVersionId)

def versionedContent (content : List CanonicalMediaType) : List VersionedSchema :=
  content.map fun media => versionedSchema media.schema media.sourceRef

def versionedParts (operation : CanonicalOperation) : VersionedParts where
  parameters := operation.parameters.map fun parameter => versionedSchema parameter.schema parameter.sourceRef
  requestBody := operation.requestBody.map fun body => (body.sourceRef.sourceVersionId, versionedContent body.content)
  responses := operation.responses.map fun response =>
    (response.sourceRef.sourceVersionId, versionedContent response.content)
  security := operation.security.map fun requirement => requirement.sourceRef.sourceVersionId

/-! ## What the fingerprints compare -/

section Comparison

/-- Lists of the same outlines are written alike exactly when each value is. -/
theorem map_eq_iff_of_alike {α σ β γ : Type} {outline : α → σ} {text : α → β} {versioned : α → γ} {values others : List α}
    (each : ∀ value ∈ values, ∀ other ∈ others, outline value = outline other →
      (text value = text other ↔ versioned value = versioned other))
    (alike : values.map outline = others.map outline) :
    values.map text = others.map text ↔ values.map versioned = others.map versioned := by
  induction values generalizing others with
  | nil =>
    cases others with
    | nil => exact iff_of_true rfl rfl
    | cons other others => cases alike
  | cons value rest ih =>
    cases others with
    | nil => cases alike
    | cons other others =>
      obtain ⟨sameOutline, alike⟩ := List.cons.inj alike
      have here := each value List.mem_cons_self other List.mem_cons_self sameOutline
      have later := ih
        (fun value isValue other isOther => each value (List.mem_cons_of_mem _ isValue) other (List.mem_cons_of_mem _ isOther))
        alike
      rw [List.map_cons, List.map_cons, List.map_cons, List.map_cons, List.cons.injEq, List.cons.injEq, here, later]

/-- The text of a dumped value. -/
def dumped (value : Value) : Text :=
  value.modelDump.canonical

/-- Models of one class have one text exactly when all their fields have. -/
theorem model_eq_iff {fields others : List (Text × Value)} (names : List Text) (distinct : names.Nodup)
    (areNames : fields.map Prod.fst = names) (otherNames : others.map Prod.fst = names)
    (written : (Value.model fields).modelDump.Written) (otherWritten : (Value.model others).modelDump.Written) :
    dumped (.model fields) = dumped (.model others) ↔
      fields.map (fun field => dumped field.2) = others.map fun field => dumped field.2 := by
  have keys : ∀ fields : List (Text × Value), (Value.dumpFields fields).map Prod.fst = fields.map Prod.fst := by
    intro fields
    rw [Value.dumpFields_eq_map, List.map_map]
    rfl
  have texts : ∀ fields : List (Text × Value), Json.canonicalFields (Value.dumpFields fields) =
      (fields.map Prod.fst).zip (fields.map fun field => dumped field.2) := by
    intro fields
    rw [Json.canonicalFields_eq_map, Value.dumpFields_eq_map, List.map_map, List.zip_map']
    rfl
  unfold dumped
  rw [Value.modelDump, Value.modelDump, Json.canonical_object_eq_iff written otherWritten
    (by rw [keys, keys, areNames, otherNames]) (by rw [keys, areNames]; exact distinct), texts, texts, areNames, otherNames]
  constructor
  · intro same
    have seconds := congrArg (List.map Prod.snd) same
    rwa [List.map_snd_zip, List.map_snd_zip] at seconds
    · rw [List.length_map, ← otherNames, List.length_map]
    · rw [List.length_map, ← areNames, List.length_map]
  · intro same
    exact congrArg names.zip same

/-- The values of a list that is dumped. -/
theorem sequence_eq_iff_of_alike {α σ γ : Type} {outline : α → σ} {make : α → Value} {versioned : α → γ}
    {values others : List α} (written : (Value.sequence (values.map make)).modelDump.Written)
    (otherWritten : (Value.sequence (others.map make)).modelDump.Written)
    (each : ∀ value ∈ values, ∀ other ∈ others, (make value).modelDump.Written → (make other).modelDump.Written →
      outline value = outline other → (dumped (make value) = dumped (make other) ↔ versioned value = versioned other))
    (alike : values.map outline = others.map outline) :
    dumped (.sequence (values.map make)) = dumped (.sequence (others.map make)) ↔
      values.map versioned = others.map versioned := by
  have items : ∀ values : List α, (Value.sequence (values.map make)).modelDump =
      .array (values.map fun value => (make value).modelDump) := by
    intro values
    rw [Value.modelDump, Value.dumpItems_eq_map, List.map_map]
    rfl
  unfold dumped at each ⊢
  rw [items] at written otherWritten ⊢
  rw [items]
  have eachWritten := Json.writtenItems_iff.mp written
  have eachOtherWritten := Json.writtenItems_iff.mp otherWritten
  rw [Json.canonical_array_eq_iff written otherWritten, Json.canonicalItems_eq_map, Json.canonicalItems_eq_map,
    List.map_map, List.map_map]
  refine map_eq_iff_of_alike ?_ alike
  intro value isValue other isOther
  exact each value isValue other isOther (eachWritten _ (List.mem_map_of_mem isValue))
    (eachOtherWritten _ (List.mem_map_of_mem isOther))

theorem dumped_text_eq_iff {text other : Text} : dumped (.text text) = dumped (.text other) ↔ text = other :=
  ⟨Json.string_of_canonical_eq, congrArg fun text => dumped (.text text)⟩

theorem dumped_ofSchema (schema : JsonObject) : dumped (Value.ofSchema schema) = (Json.object schema).canonical :=
  congrArg Json.canonical (Value.modelDump_ofJson (.object schema))

theorem written_ofSourceRef (ref : SourceRef) : (Value.ofSourceRef ref).modelDump.Written :=
  ⟨trivial, trivial, trivial⟩

theorem sourceRef_eq_iff {ref other : SourceRef} (alike : outlineRef ref = outlineRef other) :
    dumped (Value.ofSourceRef ref) = dumped (Value.ofSourceRef other) ↔ ref.sourceVersionId = other.sourceVersionId := by
  have samePointer : ref.pointer = other.pointer := (SourceRef.mk.inj alike).2
  refine (model_eq_iff ["source_version_id", "pointer"] (by decide) rfl rfl (written_ofSourceRef ref)
    (written_ofSourceRef other)).trans ?_
  simp only [List.map_cons, List.map_nil, List.cons.injEq, dumped_text_eq_iff, samePointer, and_true]

theorem parameter_eq_iff {parameter other : CanonicalParameter} (written : (Value.ofParameter parameter).modelDump.Written)
    (otherWritten : (Value.ofParameter other).modelDump.Written)
    (alike : outlineParameter parameter = outlineParameter other) :
    dumped (Value.ofParameter parameter) = dumped (Value.ofParameter other) ↔
      versionedSchema parameter.schema parameter.sourceRef = versionedSchema other.schema other.sourceRef := by
  refine (model_eq_iff ["name", "location", "required", "schema", "description", "style", "explode", "allow_reserved",
    "source_ref"] (by decide) rfl rfl written otherWritten).trans ?_
  obtain ⟨name, location, required, schema, description, style, explode, allowReserved, ref⟩ := parameter
  obtain ⟨otherName, otherLocation, otherRequired, otherSchema, otherDescription, otherStyle, otherExplode, otherAllow,
    otherRef⟩ := other
  simp only [outlineParameter, CanonicalParameter.mk.injEq] at alike
  obtain ⟨rfl, rfl, rfl, -, rfl, rfl, rfl, rfl, sameRef⟩ := alike
  simp only [List.map_cons, List.map_nil, List.cons.injEq, true_and, and_true, dumped_ofSchema, sourceRef_eq_iff sameRef,
    versionedSchema, Prod.mk.injEq]

theorem mediaType_eq_iff {media other : CanonicalMediaType} (written : (Value.ofMediaType media).modelDump.Written)
    (otherWritten : (Value.ofMediaType other).modelDump.Written) (alike : outlineMediaType media = outlineMediaType other) :
    dumped (Value.ofMediaType media) = dumped (Value.ofMediaType other) ↔
      versionedSchema media.schema media.sourceRef = versionedSchema other.schema other.sourceRef := by
  refine (model_eq_iff ["media_type", "schema", "examples", "source_ref"] (by decide) rfl rfl written otherWritten).trans ?_
  obtain ⟨mediaType, schema, examples, ref⟩ := media
  obtain ⟨otherMediaType, otherSchema, otherExamples, otherRef⟩ := other
  simp only [outlineMediaType, CanonicalMediaType.mk.injEq] at alike
  obtain ⟨rfl, -, rfl, sameRef⟩ := alike
  simp only [List.map_cons, List.map_nil, List.cons.injEq, true_and, and_true, dumped_ofSchema, sourceRef_eq_iff sameRef,
    versionedSchema, Prod.mk.injEq]

theorem content_eq_iff {content others : List CanonicalMediaType}
    (written : (Value.sequence (content.map Value.ofMediaType)).modelDump.Written)
    (otherWritten : (Value.sequence (others.map Value.ofMediaType)).modelDump.Written)
    (alike : content.map outlineMediaType = others.map outlineMediaType) :
    dumped (.sequence (content.map Value.ofMediaType)) = dumped (.sequence (others.map Value.ofMediaType)) ↔
      versionedContent content = versionedContent others :=
  sequence_eq_iff_of_alike written otherWritten (fun _ _ _ _ => mediaType_eq_iff) alike

theorem requestBody_eq_iff {body other : CanonicalRequestBody} (written : (Value.ofRequestBody body).modelDump.Written)
    (otherWritten : (Value.ofRequestBody other).modelDump.Written)
    (alike : outlineRequestBody body = outlineRequestBody other) :
    dumped (Value.ofRequestBody body) = dumped (Value.ofRequestBody other) ↔
      (body.sourceRef.sourceVersionId, versionedContent body.content) =
        (other.sourceRef.sourceVersionId, versionedContent other.content) := by
  refine (model_eq_iff ["required", "description", "content", "source_ref"] (by decide) rfl rfl written otherWritten).trans ?_
  obtain ⟨required, description, content, ref⟩ := body
  obtain ⟨otherRequired, otherDescription, otherContent, otherRef⟩ := other
  simp only [outlineRequestBody, CanonicalRequestBody.mk.injEq] at alike
  obtain ⟨rfl, rfl, sameContent, sameRef⟩ := alike
  obtain ⟨-, -, contentWritten, -⟩ := written
  obtain ⟨-, -, otherContentWritten, -⟩ := otherWritten
  simp only [List.map_cons, List.map_nil, List.cons.injEq, true_and, and_true, sourceRef_eq_iff sameRef,
    content_eq_iff contentWritten otherContentWritten sameContent, Prod.mk.injEq]
  exact and_comm

theorem response_eq_iff {response other : CanonicalResponse} (written : (Value.ofResponse response).modelDump.Written)
    (otherWritten : (Value.ofResponse other).modelDump.Written) (alike : outlineResponse response = outlineResponse other) :
    dumped (Value.ofResponse response) = dumped (Value.ofResponse other) ↔
      (response.sourceRef.sourceVersionId, versionedContent response.content) =
        (other.sourceRef.sourceVersionId, versionedContent other.content) := by
  refine (model_eq_iff ["status_code", "description", "content", "source_ref"] (by decide) rfl rfl written
    otherWritten).trans ?_
  obtain ⟨statusCode, description, content, ref⟩ := response
  obtain ⟨otherStatusCode, otherDescription, otherContent, otherRef⟩ := other
  simp only [outlineResponse, CanonicalResponse.mk.injEq] at alike
  obtain ⟨rfl, rfl, sameContent, sameRef⟩ := alike
  obtain ⟨-, -, contentWritten, -⟩ := written
  obtain ⟨-, -, otherContentWritten, -⟩ := otherWritten
  simp only [List.map_cons, List.map_nil, List.cons.injEq, true_and, and_true, sourceRef_eq_iff sameRef,
    content_eq_iff contentWritten otherContentWritten sameContent, Prod.mk.injEq]
  exact and_comm

theorem requirement_eq_iff {requirement other : CanonicalSecurityRequirement}
    (written : (Value.ofSecurityRequirement requirement).modelDump.Written)
    (otherWritten : (Value.ofSecurityRequirement other).modelDump.Written)
    (alike : outlineRequirement requirement = outlineRequirement other) :
    dumped (Value.ofSecurityRequirement requirement) = dumped (Value.ofSecurityRequirement other) ↔
      requirement.sourceRef.sourceVersionId = other.sourceRef.sourceVersionId := by
  refine (model_eq_iff ["scheme_scopes", "source_ref"] (by decide) rfl rfl written otherWritten).trans ?_
  obtain ⟨schemeScopes, ref⟩ := requirement
  obtain ⟨otherSchemeScopes, otherRef⟩ := other
  simp only [outlineRequirement, CanonicalSecurityRequirement.mk.injEq] at alike
  obtain ⟨rfl, sameRef⟩ := alike
  simp only [List.map_cons, List.map_nil, List.cons.injEq, true_and, and_true, sourceRef_eq_iff sameRef]

theorem optionalBody_eq_iff {body other : Option CanonicalRequestBody}
    (written : (Value.optional Value.ofRequestBody body).modelDump.Written)
    (otherWritten : (Value.optional Value.ofRequestBody other).modelDump.Written)
    (alike : body.map outlineRequestBody = other.map outlineRequestBody) :
    dumped (Value.optional Value.ofRequestBody body) = dumped (Value.optional Value.ofRequestBody other) ↔
      body.map (fun body => (body.sourceRef.sourceVersionId, versionedContent body.content)) =
        other.map fun body => (body.sourceRef.sourceVersionId, versionedContent body.content) := by
  cases body with
  | none =>
    cases other with
    | none => exact iff_of_true rfl rfl
    | some other => cases alike
  | some body =>
    cases other with
    | none => cases alike
    | some other =>
      exact (requestBody_eq_iff written otherWritten (Option.some.inj alike)).trans (Option.some.injEq _ _).to_iff.symm

/-- What is hashed of an operation. -/
def hashedFields (operation : CanonicalOperation) : List (Text × Value) := [
  ("key", .text operation.key), ("source_operation_id", .optional .text operation.sourceOperationId),
  ("tool_name_seed", .text operation.toolNameSeed), ("method", .text operation.method.value),
  ("path_template", .text operation.pathTemplate), ("server_ref", .optional .text operation.serverRef),
  ("server_candidates", .texts operation.serverCandidates), ("summary", .optional .text operation.summary),
  ("description", .optional .text operation.description),
  ("parameters", .sequence (operation.parameters.map Value.ofParameter)),
  ("request_body", .optional Value.ofRequestBody operation.requestBody),
  ("responses", .sequence (operation.responses.map Value.ofResponse)),
  ("security", .sequence (operation.security.map Value.ofSecurityRequirement)), ("tags", .texts operation.tags)]

theorem ofOperation_without (operation : CanonicalOperation) :
    (Value.ofOperation operation).without ["semantic", "provenance"] = .model (hashedFields operation) := rfl

theorem operation_eq_iff {prior operation : CanonicalOperation}
    (written : (Value.model (hashedFields prior)).modelDump.Written)
    (otherWritten : (Value.model (hashedFields operation)).modelDump.Written)
    (alike : outlineOperation prior = outlineOperation operation) :
    dumped (.model (hashedFields prior)) = dumped (.model (hashedFields operation)) ↔
      versionedParts prior = versionedParts operation := by
  refine (model_eq_iff ["key", "source_operation_id", "tool_name_seed", "method", "path_template", "server_ref",
    "server_candidates", "summary", "description", "parameters", "request_body", "responses", "security", "tags"]
    (by decide) rfl rfl written otherWritten).trans ?_
  obtain ⟨-, -, -, -, -, -, -, -, -, parameters, body, responses, security, -⟩ := written
  obtain ⟨-, -, -, -, -, -, -, -, -, otherParameters, otherBody, otherResponses, otherSecurity, -⟩ := otherWritten
  simp only [outlineOperation, CanonicalOperation.mk.injEq, and_true] at alike
  obtain ⟨sameKey, sameOperationId, sameSeed, sameMethod, samePath, sameServer, sameCandidates, sameSummary,
    sameDescription, alikeParameters, alikeBody, alikeResponses, alikeSecurity, sameTags⟩ := alike
  have parametersIff := sequence_eq_iff_of_alike parameters otherParameters (fun _ _ _ _ => parameter_eq_iff) alikeParameters
  have bodyIff := optionalBody_eq_iff body otherBody alikeBody
  have responsesIff := sequence_eq_iff_of_alike responses otherResponses (fun _ _ _ _ => response_eq_iff) alikeResponses
  have securityIff := sequence_eq_iff_of_alike security otherSecurity (fun _ _ _ _ => requirement_eq_iff) alikeSecurity
  simp only [hashedFields, List.map_cons, List.map_nil, List.cons.injEq, sameKey, sameOperationId, sameSeed, sameMethod,
    samePath, sameServer, sameCandidates, sameSummary, sameDescription, sameTags, true_and, and_true, parametersIff, bodyIff,
    responsesIff, securityIff, versionedParts, VersionedParts.mk.injEq]

end Comparison

/-! ## Equal fingerprints -/

section Fingerprints

variable {previous current : CanonicalApi} {prior operation : CanonicalOperation}

theorem schemeNames_outline (operation : CanonicalOperation) : schemeNames (outlineOperation operation) = schemeNames operation := by
  unfold schemeNames outlineOperation
  rw [List.flatMap_map]
  rfl

/-- Where a model comes from is not hashed. -/
theorem optional_without_eq {α : Type} {make : α → Value} {outline : α → α} {value other : Option α}
    (ignores : ∀ value, (make (outline value)).without ["source_ref"] = (make value).without ["source_ref"])
    (same : value.map outline = other.map outline) :
    Value.optional (fun value => (make value).without ["source_ref"]) value =
      Value.optional (fun value => (make value).without ["source_ref"]) other := by
  have outlined : ∀ value : Option α, Value.optional (fun value => (make value).without ["source_ref"]) value =
      Value.optional (fun value => (make value).without ["source_ref"]) (value.map outline) := by
    intro value
    cases value with
    | none => rfl
    | some value => exact (ignores value).symm
  rw [outlined value, same, ← outlined other]

theorem fingerprintPayload_eq_iff (unchanged : Unchanged previous current prior operation)
    (written : (fingerprintPayload previous prior).Written) (otherWritten : (fingerprintPayload current operation).Written) :
    (fingerprintPayload previous prior).canonical = (fingerprintPayload current operation).canonical ↔
      versionedParts prior = versionedParts operation := by
  have sameNames : schemeNames prior = schemeNames operation := by
    rw [← schemeNames_outline, unchanged.outline, schemeNames_outline]
  have sameServer := @optional_without_eq _ Value.ofServer outlineServer _ _ (fun _ => rfl) unchanged.server
  have sameSchemes := List.map_congr_left fun name member =>
    congrArg (fun scheme : Value => (name, scheme.modelDump))
      (@optional_without_eq _ Value.ofSecurityScheme outlineScheme _ _ (fun _ => rfl) (unchanged.schemes name member))
  have operationWritten := written.1
  have otherOperationWritten := otherWritten.1
  have distinct : (["operation", "server", "security_schemes"] : List Text).Nodup := by decide
  unfold fingerprintPayload at written otherWritten ⊢
  rw [sameNames, sameServer, sameSchemes, ofOperation_without] at written
  rw [ofOperation_without] at otherWritten
  rw [sameNames, sameServer, sameSchemes, ofOperation_without, ofOperation_without,
    Json.canonical_object_eq_iff written otherWritten rfl distinct,
    ← operation_eq_iff operationWritten otherOperationWritten unchanged.outline]
  simp only [Json.canonicalFields_eq_map, List.map_cons, List.map_nil, List.cons.injEq, Json.entry, Prod.mk.injEq, true_and,
    and_true]
  exact Iff.rfl

/-- Operations whose responses come from different versions are told apart. -/
theorem versionedParts_ne {version otherVersion : Text} (differ : version ≠ otherVersion) (someResponse : operation.responses ≠ [])
    (each : ∀ response ∈ operation.responses, response.sourceRef.sourceVersionId = version)
    (eachPrior : ∀ response ∈ prior.responses, response.sourceRef.sourceVersionId = otherVersion) :
    versionedParts prior ≠ versionedParts operation := by
  intro same
  have sameVersions := congrArg (fun parts : VersionedParts => parts.responses.map Prod.fst) same
  simp only [versionedParts, List.map_map] at sameVersions
  obtain ⟨response, member⟩ := List.exists_mem_of_ne_nil _ someResponse
  have isVersion : response.sourceRef.sourceVersionId ∈
      prior.responses.map (Prod.fst ∘ fun response => (response.sourceRef.sourceVersionId, versionedContent response.content)) :=
    sameVersions ▸ List.mem_map.mpr ⟨response, member, rfl⟩
  obtain ⟨other, isOther, isVersion⟩ := List.mem_map.mp isVersion
  have isVersion : other.sourceRef.sourceVersionId = response.sourceRef.sourceVersionId := isVersion
  rw [each response member, eachPrior other isOther] at isVersion
  exact differ isVersion.symm

end Fingerprints

/-! ## Reuse after a new version of the source -/

/-- Builds with the same models, prompts, compiler and policy that documentation takes no part in, whose APIs were parsed
from two versions. -/
structure Reversioned (libraries : ParserLibraries) (current previous : ParseRequest)
    (external previousExternal : ExternalDocuments) (request : ReuseRequest) : Prop where
  parsed : ∃ fuel document, parseOpenApi libraries fuel current external document = .ok request.currentCanonical
  previouslyParsed : ∃ fuel document,
    parseOpenApi libraries fuel previous previousExternal document = .ok request.previousCanonical
  differ : Text.ofUuid current.sourceVersionId ≠ Text.ofUuid previous.sourceVersionId
  comparable : request.comparable = true
  withoutDocumentation : request.currentConfig.includeDocumentationInAnalysis = false

section Reversioned

variable {libraries : ParserLibraries} {current previous : ParseRequest} {external previousExternal : ExternalDocuments}
  {request : ReuseRequest} {prior operation : CanonicalOperation} {enrichment : OperationEnrichment}

theorem Reversioned.select_eq (reversioned : Reversioned libraries current previous external previousExternal request) :
    request.selectReusableEnrichment libraries.sha256 = request.reusableEntries libraries.sha256 := by
  unfold ReuseRequest.selectReusableEnrichment
  rw [reversioned.comparable, reversioned.withoutDocumentation]
  rfl

theorem Reversioned.nodup_operationKeys
    (reversioned : Reversioned libraries current previous external previousExternal request) :
    request.currentCanonical.operationKeys.Nodup ∧ request.previousCanonical.operationKeys.Nodup := by
  obtain ⟨fuel, document, parsed⟩ := reversioned.parsed
  obtain ⟨previousFuel, previousDocument, previouslyParsed⟩ := reversioned.previouslyParsed
  exact ⟨(isParsedApi_of_parseOpenApi parsed).nodup_operationKeys,
    (isParsedApi_of_parseOpenApi previouslyParsed).nodup_operationKeys⟩

/-- Without captured documents every response is of the version that was parsed. -/
theorem Reversioned.versionedParts_ne
    (reversioned : Reversioned libraries current previous external previousExternal request)
    (isOperation : operation ∈ request.currentCanonical.operations) (isPrior : prior ∈ request.previousCanonical.operations)
    (single : external = []) (previouslySingle : previousExternal = []) : versionedParts prior ≠ versionedParts operation := by
  subst single previouslySingle
  obtain ⟨fuel, document, parsed⟩ := reversioned.parsed
  obtain ⟨previousFuel, previousDocument, previouslyParsed⟩ := reversioned.previouslyParsed
  obtain ⟨someResponse, each⟩ :=
    ((isParsedApi_of_parseOpenApi parsed).operations operation isOperation).responses target_sourceVersionId
  obtain ⟨-, eachPrior⟩ :=
    ((isParsedApi_of_parseOpenApi previouslyParsed).operations prior isPrior).responses target_sourceVersionId
  exact Analysis.versionedParts_ne reversioned.differ someResponse each eachPrior

theorem lookup_select (reversioned : Reversioned libraries current previous external previousExternal request)
    (isOperation : operation ∈ request.currentCanonical.operations) (isPrior : prior ∈ request.previousCanonical.operations)
    (unchanged : Unchanged request.previousCanonical request.currentCanonical prior operation)
    (enriched : request.previousEnrichment.lookup operation.key = some enrichment) (alike : request.madeAlike enrichment = true) :
    (request.selectReusableEnrichment libraries.sha256).lookup operation.key =
      if operationFingerprint libraries.sha256 request.currentCanonical operation =
        operationFingerprint libraries.sha256 request.previousCanonical prior then some enrichment else none := by
  have sameKey : prior.key = operation.key := (CanonicalOperation.mk.inj unchanged.outline).1
  obtain ⟨distinct, previouslyDistinct⟩ := reversioned.nodup_operationKeys
  rw [reversioned.select_eq, lookup_reusableEntries distinct isOperation,
    reusableOf_eq previouslyDistinct isPrior sameKey enriched alike]

end Reversioned

theorem operationFingerprint_eq_iff {sha256 : Text → Text} {previous current : CanonicalApi}
    {prior operation : CanonicalOperation} (unchanged : Unchanged previous current prior operation)
    (written : (fingerprintPayload current operation).Written) (priorWritten : (fingerprintPayload previous prior).Written)
    (injective : Function.Injective sha256) :
    operationFingerprint sha256 current operation = operationFingerprint sha256 previous prior ↔
      versionedParts prior = versionedParts operation := by
  rw [← fingerprintPayload_eq_iff unchanged priorWritten written, eq_comm]
  exact injective.eq_iff

/-- The enrichment of an unchanged operation is reused exactly when all the parts of the operation are of the same version
as before and the definitions in their schemas have kept their names; without captured documents none is. -/
theorem reuses_enrichment_of_unchanged_operation_iff {libraries : ParserLibraries} {current previous : ParseRequest}
    {external previousExternal : ExternalDocuments} {request : ReuseRequest} {prior operation : CanonicalOperation}
    {enrichment : OperationEnrichment}
    (reversioned : Reversioned libraries current previous external previousExternal request)
    (isOperation : operation ∈ request.currentCanonical.operations) (isPrior : prior ∈ request.previousCanonical.operations)
    (unchanged : Unchanged request.previousCanonical request.currentCanonical prior operation)
    (enriched : request.previousEnrichment.lookup operation.key = some enrichment) (alike : request.madeAlike enrichment = true)
    (written : (fingerprintPayload request.currentCanonical operation).Written)
    (priorWritten : (fingerprintPayload request.previousCanonical prior).Written)
    (injective : Function.Injective libraries.sha256) :
    ((request.selectReusableEnrichment libraries.sha256).lookup operation.key = some enrichment ↔
      versionedParts prior = versionedParts operation) ∧
    (external = [] → previousExternal = [] →
      (request.selectReusableEnrichment libraries.sha256).lookup operation.key = none) := by
  have selected := lookup_select reversioned isOperation isPrior unchanged enriched alike
  have sameFingerprint := operationFingerprint_eq_iff unchanged written priorWritten injective
  rw [selected]
  constructor
  · rw [← sameFingerprint, ite_eq_left_iff]
    constructor
    · intro impossible
      by_contra different
      cases impossible different
    · exact fun same different => absurd same different
  · intro single previouslySingle
    have different := reversioned.versionedParts_ne isOperation isPrior single previouslySingle
    rw [if_neg (mt sameFingerprint.mp different)]

/-! ### A document that is uploaded twice -/

def itemsBuild (id : Uuid) (previousBuildId : Option Uuid) : BuildRecord where
  id
  projectId := 1
  sequence := id
  status := .ready
  requestedBy := 9
  createdAt := 0
  trigger := .sourceChange
  previousBuildId
  compilerVersion := "0.1.0"
  analysisModel := some "gpt-5"
  promptBundleVersion := some "1"

def itemsGeneration (id : Uuid) : IndexGeneration where
  id
  projectId := 1
  buildId := id
  embeddingModel := none
  generationKey := "generation"
  sourceFingerprint := plainSha256
  status := .ready

def itemsEnrichment : OperationEnrichment where
  operationKey := operationKey spelledOut asciiUnicode "GET" "/items" (some "listItems")
  title := some "List items"
  description := none
  category := none
  keywords := []
  documentationChunkIds := []
  relationshipHints := []
  confidence := .integer 1
  warnings := []
  provenance := ⟨"openai", "gpt-5", "enrich_operation", "1", plainSha256, []⟩

def itemsReuse (current previous : CanonicalApi) : ReuseRequest where
  currentBuild := itemsBuild 5 (some 4)
  previousBuild := itemsBuild 4 none
  currentCanonical := current
  previousCanonical := previous
  currentGeneration := itemsGeneration 5
  previousGeneration := itemsGeneration 4
  currentConfig := ⟨false, 1000, 5, 1000, 10, 100, 10, 100⟩
  previousConfig := ⟨false, 1000, 5, 1000, 10, 100, 10, 100⟩
  previousEnrichment := [(itemsEnrichment.operationKey, itemsEnrichment)]
  promptTemplateId := "enrich_operation"
  promptTemplateVersion := "1"

def itemsRequest (version : Uuid) : ParseRequest :=
  ⟨1, version, plainSha256, {}⟩

/-- The operation is unchanged, and its enrichment is the one that was made. -/
def itemsAlike (sameParts : Bool) (current previous : CanonicalApi) (operation prior : CanonicalOperation) : Bool :=
  outlineOperation prior = outlineOperation operation &&
  (serverOf previous prior).map outlineServer = (serverOf current operation).map outlineServer &&
  (schemeNames operation).isEmpty && operation.key = itemsEnrichment.operationKey &&
  (fingerprintPayload current operation).Written && (fingerprintPayload previous prior).Written &&
  decide (versionedParts prior = versionedParts operation) = sameParts

theorem items_unchanged {external : ExternalDocuments} {document : JsonObject} {sameParts : Bool}
    (computed : ((parseOpenApi spellingLibraries 4 (itemsRequest 3) external document).toOption.any fun current =>
      (parseOpenApi spellingLibraries 4 (itemsRequest 2) external document).toOption.any fun previous =>
        current.operations.any fun operation => previous.operations.any fun prior =>
          itemsAlike sameParts current previous operation prior) = true) :
    ∃ current previous operation prior,
      Reversioned spellingLibraries (itemsRequest 3) (itemsRequest 2) external external (itemsReuse current previous) ∧
      operation ∈ current.operations ∧ prior ∈ previous.operations ∧ Unchanged previous current prior operation ∧
      (itemsReuse current previous).previousEnrichment.lookup operation.key = some itemsEnrichment ∧
      (fingerprintPayload current operation).Written ∧ (fingerprintPayload previous prior).Written ∧
      decide (versionedParts prior = versionedParts operation) = sameParts := by
  have differ : Text.ofUuid (itemsRequest 3).sourceVersionId ≠ Text.ofUuid (itemsRequest 2).sourceVersionId := by
    decide +kernel
  cases parsed : parseOpenApi spellingLibraries 4 (itemsRequest 3) external document with
  | error error =>
    rw [parsed] at computed
    cases computed
  | ok current =>
    cases previouslyParsed : parseOpenApi spellingLibraries 4 (itemsRequest 2) external document with
    | error error =>
      rw [parsed, previouslyParsed] at computed
      cases computed
    | ok previous =>
      rw [parsed, previouslyParsed] at computed
      simp only [Except.toOption, Option.any_some, List.any_eq_true, itemsAlike, Bool.and_eq_true, decide_eq_true_eq,
        List.isEmpty_iff] at computed
      obtain ⟨operation, isOperation, prior, isPrior,
        ⟨⟨⟨⟨⟨⟨sameOutline, sameServer⟩, noSchemes⟩, isKey⟩, written⟩, priorWritten⟩, parts⟩⟩ := computed
      refine ⟨current, previous, operation, prior, ⟨⟨4, document, parsed⟩, ⟨4, document, previouslyParsed⟩, differ,
        rfl, rfl⟩, isOperation, isPrior, ⟨sameOutline, sameServer, ?_⟩, ?_, written, priorWritten, parts⟩
      · intro name member
        rw [noSchemes] at member
        cases member
      · rw [isKey]
        rfl

/-- The response of the operation stands in a document that is captured for both versions. -/
def sharingDocument : JsonObject := [
  Json.entry "openapi" (.text "3.1.0"),
  Json.entry "info" (.object [Json.entry "title" (.text "Items")]),
  Json.entry "servers" (.array [.object [Json.entry "url" (.text "https://api.example.com")]]),
  Json.entry "paths" (.object [
    Json.entry "/items" (.object [
      Json.entry "get" (.object [
        Json.entry "operationId" (.text "listItems"),
        Json.entry "responses" (.object [Json.entry "200" (.object [Json.entry "$ref" (.text "shared.json#/ok")])])])])])]

def sharedDocument : ExternalDocuments :=
  [("shared.json", ⟨[Json.entry "ok" (.object [Json.entry "description" (.text "OK")])], 9⟩)]

/-- The enrichment is reused where all that is versioned comes from the captured document. -/
theorem reuses_enrichment_of_unchanged_operation_iff_items : ∃ current previous operation prior,
    Reversioned spellingLibraries (itemsRequest 3) (itemsRequest 2) sharedDocument sharedDocument
      (itemsReuse current previous) ∧
    operation ∈ current.operations ∧ prior ∈ previous.operations ∧
    ((itemsReuse current previous).selectReusableEnrichment spelledOut).lookup operation.key = some itemsEnrichment := by
  obtain ⟨current, previous, operation, prior, reversioned, isOperation, isPrior, unchanged, enriched, written, priorWritten,
    parts⟩ := @items_unchanged sharedDocument sharingDocument true (by decide +kernel)
  exact ⟨current, previous, operation, prior, reversioned, isOperation, isPrior,
    (reuses_enrichment_of_unchanged_operation_iff reversioned isOperation isPrior unchanged enriched rfl written priorWritten
      spelledOut_injective).1.mpr (of_decide_eq_true parts)⟩

/-- The enrichment is not reused although the document is the same. -/
theorem not_reuses_enrichment_of_unchanged_operation : ¬ ∀ (libraries : ParserLibraries) (current previous : ParseRequest)
    (external previousExternal : ExternalDocuments) (request : ReuseRequest) (prior operation : CanonicalOperation)
    (enrichment : OperationEnrichment), Reversioned libraries current previous external previousExternal request →
    operation ∈ request.currentCanonical.operations → prior ∈ request.previousCanonical.operations →
    Unchanged request.previousCanonical request.currentCanonical prior operation →
    request.previousEnrichment.lookup operation.key = some enrichment → request.madeAlike enrichment = true →
    (request.selectReusableEnrichment libraries.sha256).lookup operation.key = some enrichment := by
  intro law
  obtain ⟨current, previous, operation, prior, reversioned, isOperation, isPrior, unchanged, enriched, written, priorWritten,
    parts⟩ := @items_unchanged [] itemsDocument false (by decide +kernel)
  have reused := law spellingLibraries (itemsRequest 3) (itemsRequest 2) [] [] (itemsReuse current previous) prior operation
    itemsEnrichment reversioned isOperation isPrior unchanged enriched rfl
  have different := mt (operationFingerprint_eq_iff unchanged written priorWritten spelledOut_injective).mp
    (of_decide_eq_false parts)
  rw [lookup_select reversioned isOperation isPrior unchanged enriched rfl] at reused
  cases (if_neg different).symm.trans reused

end Mcplica.Analysis
