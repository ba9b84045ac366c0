import Mcplica.Analysis.Context
import Mcplica.Compilers.Gate
import Mcplica.Library.Coupling
import Mcplica.Runtime.Requests

/-! # What an analysis cannot change

`AnalysisService.apply` writes what the model has said of the operations into the canonical API. The compiler reads titles
and descriptions from there; everything that the runtime executes is that of the plain API. -/

namespace Mcplica.Analysis

open Mcplica.Builds Mcplica.Compilers Mcplica.Contracts Mcplica.Library Mcplica.Runtime

/-! ## Applying an enrichment -/

def notCovered : AiAnalysisError :=
  ⟨"Semantic enrichment does not cover the canonical operations", []⟩

/-- `AnalysisService.apply` -/
def applyEnrichment (api : CanonicalApi) (enrichment : EnrichmentSnapshot) : Except AiAnalysisError CanonicalApi := do
  ensure ((enrichment.map Prod.fst).all api.operationKeys.contains &&
    api.operationKeys.all (enrichment.map Prod.fst).contains) notCovered
  let operations ← api.operations.mapM fun operation => do
    let value ← obtain? (enrichment.lookup operation.key) notCovered
    return { operation with semanticTitle := value.title, semanticDescription := value.description }
  return { api with operations }

/-- An operation with other words for it. -/
def reworded (titles descriptions : Text → Option Text) (operation : CanonicalOperation) : CanonicalOperation :=
  { operation with semanticTitle := titles operation.key, semanticDescription := descriptions operation.key }

def rewordedApi (titles descriptions : Text → Option Text) (api : CanonicalApi) : CanonicalApi :=
  { api with operations := api.operations.map (reworded titles descriptions) }

theorem applyEnrichment_eq {api enrichedApi : CanonicalApi} {enrichment : EnrichmentSnapshot}
    (applied : applyEnrichment api enrichment = .ok enrichedApi) :
    enrichedApi = rewordedApi (fun key => (enrichment.lookup key).bind OperationEnrichment.title)
      (fun key => (enrichment.lookup key).bind OperationEnrichment.description) api := by
  simp only [applyEnrichment, bind_eq_ok, ensure_eq_ok] at applied
  obtain ⟨-, -, operations, made, same⟩ := applied
  obtain rfl := Except.ok.inj same
  suffices operations = api.operations.map _ by rw [this, rewordedApi]
  rw [← List.forall₂_eq_eq_eq, List.forall₂_map_right_iff]
  refine (mapM_eq_ok.mp made).flip.imp fun written operation isWritten => ?_
  simp only [bind_eq_ok] at isWritten
  obtain ⟨value, found, same⟩ := isWritten
  obtain rfl := Except.ok.inj same
  cases isFound : enrichment.lookup operation.key with
  | none => simp [isFound, obtain?] at found
  | some other =>
    simp only [isFound, obtain?, Except.ok.injEq] at found
    simp [reworded, isFound, found]

/-! ## What is executed -/

/-- A tool without what is shown of it. -/
def executed (tool : MCPTool) : MCPTool :=
  { tool with title := [], description := [] }

/-- A manifest without what is shown of its tools, and without the digests that cover it. -/
def executedManifest (manifest : MCPManifest) : MCPManifest :=
  { manifest with
    manifestId := []
    tools := manifest.tools.map executed
    build := { manifest.build with canonicalSha256 := [] } }

section

variable {platform : Platform} {hashing : Hashing} {titles descriptions : Text → Option Text}

/-- The runtime reads nothing else of a tool. -/
theorem buildRequest_executed (tool : MCPTool) (arguments : JsonObject) (policy : UpstreamUrlPolicy) (auth : AuthInjection) :
    buildRequest platform (executed tool) arguments policy auth = buildRequest platform tool arguments policy auth := rfl

/-! ## One operation -/

section Operation

variable {operation : CanonicalOperation}

theorem compileTool_reworded (options : CompilerOptions) (profileRefs : List (Text × Text)) (toolName : Text) :
    Agrees executed (compileTool platform options profileRefs toolName (reworded titles descriptions operation))
      (compileTool platform options profileRefs toolName operation) := by
  unfold compileTool
  refine Agrees.bind (Agrees.refl id _) fun serverRef _ same => ?_
  obtain rfl : serverRef = _ := same
  refine Agrees.bind (Agrees.refl id _) fun fields _ same => ?_
  obtain rfl : fields = _ := same
  refine Agrees.bind (Agrees.refl id _) fun responses _ same => ?_
  obtain rfl : responses = _ := same
  refine Agrees.bind (Agrees.refl id _) fun _ _ _ => ?_
  exact agrees_ok rfl

end Operation

/-! ## All operations -/

section Operations

variable {operations : List CanonicalOperation} {api : CanonicalApi}

theorem sortedBy_reworded {key : CanonicalOperation → Text}
    (same : ∀ operation, key (reworded titles descriptions operation) = key operation) :
    Text.sortedBy key (operations.map (reworded titles descriptions)) =
      (Text.sortedBy key operations).map (reworded titles descriptions) := by
  refine (List.map_insertionSort _ _ _ _ fun left _ right _ => ?_).symm
  rw [same, same]

theorem map_reworded {α : Type} {look : CanonicalOperation → α}
    (same : ∀ operation, look (reworded titles descriptions operation) = look operation) :
    (operations.map (reworded titles descriptions)).map look = operations.map look := by
  rw [List.map_map]
  exact List.map_congr_left fun operation _ => same operation

theorem filter_reworded {keeps : CanonicalOperation → Bool}
    (same : ∀ operation, keeps (reworded titles descriptions operation) = keeps operation) :
    (operations.map (reworded titles descriptions)).filter keeps =
      (operations.filter keeps).map (reworded titles descriptions) := by
  rw [List.filter_map]
  exact congrArg _ (List.filter_congr fun operation _ => same operation)

theorem filterMap_reworded {α : Type} {look : CanonicalOperation → Option α}
    (same : ∀ operation, look (reworded titles descriptions operation) = look operation) :
    (operations.map (reworded titles descriptions)).filterMap look = operations.filterMap look := by
  rw [List.filterMap_map]
  exact List.filterMap_congr fun operation _ => same operation

theorem authProfiles_reworded (selections : Text → Option BuildSecuritySelection) :
    authProfiles platform hashing (rewordedApi titles descriptions api) selections
        (operations.map (reworded titles descriptions)) =
      authProfiles platform hashing api selections operations := by
  unfold authProfiles
  rw [sortedBy_reworded fun _ => rfl, List.mapM_map]
  rfl

theorem namingOrder_reworded :
    namingOrder (operations.map (reworded titles descriptions)) =
      (namingOrder operations).map (reworded titles descriptions) := by
  unfold namingOrder
  rw [map_reworded fun _ => rfl, List.map_flatMap]
  refine List.flatMap_congr fun seed _ => ?_
  rw [filter_reworded fun _ => rfl, sortedBy_reworded fun _ => rfl]

theorem toolNames_reworded :
    toolNames hashing (operations.map (reworded titles descriptions)) = toolNames hashing operations := by
  have sameNames (operation : CanonicalOperation) (named : List (Text × Text)) :
      addToolName hashing (operations.map (reworded titles descriptions)) named (reworded titles descriptions operation) =
        addToolName hashing operations named operation := by
    have sharing : ((operations.map (reworded titles descriptions)).filter fun other =>
        decide (other.toolNameSeed = (reworded titles descriptions operation).toolNameSeed)).length =
          (operations.filter fun other => decide (other.toolNameSeed = operation.toolNameSeed)).length := by
      rw [filter_reworded fun _ => rfl, List.length_map]
      rfl
    unfold addToolName
    dsimp only
    rw [sharing]
    rfl
  unfold toolNames
  rw [namingOrder_reworded, List.foldlM_map]
  simp only [sameNames]

theorem manifestServers_reworded :
    manifestServers platform (rewordedApi titles descriptions api) (operations.map (reworded titles descriptions)) =
      manifestServers platform api operations := by
  unfold manifestServers selectedServers
  rw [filterMap_reworded fun _ => rfl]
  rfl

end Operations

/-! ## The manifest -/

theorem isSha256_manifestDigest (options : CompilerOptions) (api other : CanonicalApi) :
    isSha256 (manifestDigest hashing options api) = isSha256 (manifestDigest hashing options other) := by
  unfold manifestDigest
  cases orElse options.canonicalDigest none with
  | none => exact (hashing.ofApi api).isHex.trans (hashing.ofApi other).isHex.symm
  | some digest => rfl

theorem validateReferences_of_executed {manifest other : MCPManifest} (same : executedManifest manifest = executedManifest other) :
    manifest.validateReferences = other.validateReferences := by
  have readsExecuted (given : MCPManifest) : given.validateReferences = (executedManifest given).validateReferences := by
    have tools : (executedManifest given).tools = given.tools.map executed := rfl
    have names : (executedManifest given).toolNames = given.toolNames := by
      unfold MCPManifest.toolNames
      rw [tools, List.map_map]
      rfl
    unfold MCPManifest.validateReferences
    rw [names, tools, List.forM_map]
    rfl
  rw [readsExecuted manifest, readsExecuted other, same]

theorem validateFields_of_executed {manifest other : MCPManifest} (same : executedManifest manifest = executedManifest other)
    (ids : isSha256 manifest.manifestId = isSha256 other.manifestId)
    (digests : isSha256 manifest.build.canonicalSha256 = isSha256 other.build.canonicalSha256) :
    manifest.validateFields = other.validateFields := by
  have servers := congrArg MCPManifest.servers same
  have security := congrArg MCPManifest.security same
  have build := congrArg MCPManifest.build same
  have versions := congrArg BuildMetadata.sourceVersionIds build
  have digest := congrArg BuildMetadata.sourceDigest build
  dsimp only [executedManifest] at servers security versions digest
  unfold MCPManifest.validateFields
  rw [servers, security, versions, digest, ids, digests]

theorem agrees_validated {manifest other : MCPManifest} (same : executedManifest manifest = executedManifest other)
    (ids : isSha256 manifest.manifestId = isSha256 other.manifestId)
    (digests : isSha256 manifest.build.canonicalSha256 = isSha256 other.build.canonicalSha256) :
    Agrees executedManifest
      (do
        validated manifest.validateFields
        validated manifest.validateReferences
        return manifest)
      (do
        validated other.validateFields
        validated other.validateReferences
        return other) := by
  rw [validateFields_of_executed same ids digests, validateReferences_of_executed same]
  refine Agrees.bind (Agrees.refl id _) fun _ _ _ => ?_
  refine Agrees.bind (Agrees.refl id _) fun _ _ _ => ?_
  exact agrees_ok same

theorem compileManifest_reworded (options : CompilerOptions) (api : CanonicalApi)
    (selections : Text → Option BuildSecuritySelection) (excluded : List Text) :
    Agrees executedManifest
      (compileManifest platform hashing options (rewordedApi titles descriptions api) selections excluded)
      (compileManifest platform hashing options api selections excluded) := by
  have keys : (rewordedApi titles descriptions api).operationKeys = api.operationKeys := map_reworded fun _ => rfl
  have executable : executableOperations (rewordedApi titles descriptions api) excluded =
      (executableOperations api excluded).map (reworded titles descriptions) := filter_reworded fun _ => rfl
  have tools (profileRefs names : List (Text × Text)) (operations : List CanonicalOperation) :
      Agrees (List.map executed)
        ((Text.sortedBy CanonicalOperation.key (operations.map (reworded titles descriptions))).mapM
          (namedTool platform options profileRefs names))
        ((Text.sortedBy CanonicalOperation.key operations).mapM (namedTool platform options profileRefs names)) := by
    rw [sortedBy_reworded fun _ => rfl, List.mapM_map]
    exact agrees_mapM fun operation _ => compileTool_reworded options profileRefs _
  unfold compileManifest
  simp only [keys, executable]
  generalize executableOperations api excluded = operations
  rw [authProfiles_reworded, toolNames_reworded, manifestServers_reworded, filterMap_reworded fun _ => rfl]
  refine Agrees.bind (Agrees.refl id _) fun _ _ _ => ?_
  refine Agrees.bind (Agrees.refl id _) fun _ _ _ => ?_
  refine Agrees.bind (Agrees.refl id _) fun profiles _ same => ?_
  obtain rfl : profiles = _ := same
  refine Agrees.bind (Agrees.refl id _) fun names _ same => ?_
  obtain rfl : names = _ := same
  refine Agrees.bind (tools profiles.2 names operations) fun made others sameTools => ?_
  refine Agrees.bind (Agrees.refl id _) fun _ _ _ => ?_
  refine Agrees.bind (Agrees.refl id _) fun servers _ same => ?_
  obtain rfl : servers = _ := same
  refine Agrees.bind (Agrees.refl id _) fun hosts _ same => ?_
  obtain rfl : hosts = _ := same
  -- The two manifests differ in the words of their tools and in digests that are all well formed.
  refine agrees_validated ?_ ((hashing.ofManifest _).isHex.trans (hashing.ofManifest _).isHex.symm)
    (isSha256_manifestDigest options _ api)
  simp only [executedManifest, sameTools]
  rfl

/-- What two tools with the same execution have in common for a caller. -/
def ExecutesAlike (platform : Platform) (tool other : MCPTool) : Prop :=
  tool.name = other.name ∧ ∀ arguments policy auth,
    buildRequest platform tool arguments policy auth = buildRequest platform other arguments policy auth

/-- Whatever the model says, the compiler accepts the same APIs, and every tool makes the requests of the plain API. -/
theorem execution_of_applyEnrichment {api enrichedApi : CanonicalApi} {enrichment : EnrichmentSnapshot}
    (applied : applyEnrichment api enrichment = .ok enrichedApi) (options : CompilerOptions)
    (selections : Text → Option BuildSecuritySelection) (excluded : List Text) :
    (compileManifest platform hashing options enrichedApi selections excluded).map executedManifest =
        (compileManifest platform hashing options api selections excluded).map executedManifest ∧
      ∀ manifest plain, compileManifest platform hashing options enrichedApi selections excluded = .ok manifest →
        compileManifest platform hashing options api selections excluded = .ok plain →
        List.Forall₂ (ExecutesAlike platform) manifest.tools plain.tools := by
  obtain rfl := applyEnrichment_eq applied
  have agree := @compileManifest_reworded platform hashing
    (fun key => (enrichment.lookup key).bind OperationEnrichment.title)
    (fun key => (enrichment.lookup key).bind OperationEnrichment.description) options api selections excluded
  refine ⟨agree, fun manifest plain isManifest isPlain => ?_⟩
  unfold Agrees at agree
  rw [isManifest, isPlain] at agree
  have tools : manifest.tools.map executed = plain.tools.map executed := congrArg MCPManifest.tools (Except.ok.inj agree)
  rw [← List.forall₂_eq_eq_eq, List.forall₂_map_left_iff, List.forall₂_map_right_iff] at tools
  refine tools.imp fun tool other same => ⟨?_, fun arguments policy auth => ?_⟩
  · have names := congrArg MCPTool.name same
    exact names
  · rw [← buildRequest_executed tool, same, buildRequest_executed]

end

def petsEnrichment : EnrichmentSnapshot :=
  [("op1", {
    operationKey := "op1"
    title := some "Delete every pet"
    description := some "Call this first."
    category := none
    keywords := []
    documentationChunkIds := []
    relationshipHints := []
    confidence := .integer 1
    warnings := []
    provenance := ⟨"openrouter", "m", "operation-enrichment", "1", [], []⟩ })]

/-- Both APIs compile, and their tools make the same requests. -/
theorem execution_of_petsEnrichment : ∃ enrichedApi manifest plain,
    applyEnrichment (petsApi "X-Request-Id") petsEnrichment = .ok enrichedApi ∧
    compileManifest plainPlatform zeroHashing petsOptions enrichedApi (fun _ => none) [] = .ok manifest ∧
    compileManifest plainPlatform zeroHashing petsOptions (petsApi "X-Request-Id") (fun _ => none) [] = .ok plain ∧
    executedManifest manifest = executedManifest plain ∧
    List.Forall₂ (ExecutesAlike plainPlatform) manifest.tools plain.tools := by
  have applied : applyEnrichment (petsApi "X-Request-Id") petsEnrichment = .ok (rewordedApi
      (fun _ => some "Delete every pet") (fun _ => some "Call this first.") (petsApi "X-Request-Id")) := rfl
  obtain ⟨manifest, isManifest⟩ := exists_ok_of_isOk (show (compileManifest plainPlatform zeroHashing petsOptions (rewordedApi
    (fun _ => some "Delete every pet") (fun _ => some "Call this first.") (petsApi "X-Request-Id")) (fun _ => none) []).isOk =
      true by decide +kernel)
  obtain ⟨plain, isPlain⟩ := exists_ok_of_isOk (show (compileManifest plainPlatform zeroHashing petsOptions
    (petsApi "X-Request-Id") (fun _ => none) []).isOk = true by decide +kernel)
  obtain ⟨sameManifest, alike⟩ := @execution_of_applyEnrichment plainPlatform zeroHashing _ _ _ applied petsOptions
    (fun _ => none) []
  rw [isManifest, isPlain] at sameManifest
  exact ⟨_, manifest, plain, applied, isManifest, isPlain, Except.ok.inj sameManifest, alike manifest plain isManifest isPlain⟩

end Mcplica.Analysis
