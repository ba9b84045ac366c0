import Mcplica.Cleanup.Machine

/-! # Failed index generations

`IndexingService.index` of one build, as far as its failures go. The generation of a build is kept across retries, and
a failed attempt registers what it has written with the cleanup job of the generation. The cleanup workers go on in
between. Whether the worker still owns the build is decided elsewhere; without it the transaction raises. -/

namespace Mcplica.Cleanup

open Mcplica.Domain Mcplica.Library

inductive IndexGenerationStatus where
  | building
  | ready
  | failed
  deriving Repr, DecidableEq

structure IndexGeneration where
  id : Uuid
  projectId : Uuid
  buildId : Uuid
  embeddingModel : Option Text
  dimensions : Option Nat := none
  collectionName : Option Text := none
  generationKey : Text
  chunkCount : Nat := 0
  chunkManifestStorageKey : Option Text := none
  chunkManifestSha256 : Option Text := none
  sourceFingerprint : Text
  status : IndexGenerationStatus := .building
  errorSummary : Option Text := none
  executionToken : Option Uuid := none
  completedAt : Option Instant := none
  deriving Repr, DecidableEq

/-- The arguments of `prepare`; the id is drawn for the first attempt. -/
structure IndexRequest where
  generationId : Uuid
  projectId : Uuid
  buildId : Uuid
  embeddingModel : Option Text
  generationKey : Text
  sourceFingerprint : Text
  deriving Repr, DecidableEq

/-- `prepare`: a failed generation is built again under its id; `none` when the inputs changed. -/
def IndexRequest.prepare (request : IndexRequest) : Option IndexGeneration → Option IndexGeneration
  | none => some {
      id := request.generationId
      projectId := request.projectId
      buildId := request.buildId
      embeddingModel := request.embeddingModel
      generationKey := request.generationKey
      sourceFingerprint := request.sourceFingerprint }
  | some existing =>
    if existing.projectId ≠ request.projectId || existing.generationKey ≠ request.generationKey ||
        existing.sourceFingerprint ≠ request.sourceFingerprint then
      none
    else if existing.status = .failed then
      some { existing with
        status := .building
        errorSummary := none
        completedAt := none
        embeddingModel := request.embeddingModel
        dimensions := none
        collectionName := none
        chunkCount := 0
        chunkManifestStorageKey := none
        chunkManifestSha256 := none
        executionToken := none }
    else
      some existing

/-- What a finished attempt writes. -/
structure IndexCompletion where
  embeddingModel : Option Text
  dimensions : Nat
  collectionName : Option Text
  chunkCount : Nat
  chunkManifestStorageKey : Text
  chunkManifestSha256 : Text
  executionToken : Uuid
  deriving Repr, DecidableEq

/-- `complete` -/
def IndexGeneration.complete (generation : IndexGeneration) (completion : IndexCompletion) (now : Instant) :
    Option IndexGeneration :=
  if generation.status = .building then
    some { generation with
      embeddingModel := completion.embeddingModel
      dimensions := some completion.dimensions
      collectionName := completion.collectionName
      chunkCount := completion.chunkCount
      chunkManifestStorageKey := some completion.chunkManifestStorageKey
      chunkManifestSha256 := some completion.chunkManifestSha256
      executionToken := some completion.executionToken
      status := .ready
      completedAt := some now }
  else
    none

/-- `fail` -/
def IndexGeneration.fail (generation : IndexGeneration) (errorSummary : Text) (now : Instant) : IndexGeneration :=
  if generation.status = .building then
    { generation with status := .failed, errorSummary := some (errorSummary.take 1000), completedAt := some now }
  else
    generation

/-- How far an attempt had come when it raised: the chunk manifest is stored before a collection is chosen, and vectors
are only written to the chosen collection. The ids are drawn by `uuid4`. -/
structure IndexFailure where
  storedChunksKey : Option Text
  collection : Option Text
  errorSummary : Text
  jobId : Uuid
  objectTargetId : Uuid
  vectorTargetId : Uuid
  deriving Repr, DecidableEq

namespace IndexFailure

def objectTargets (failure : IndexFailure) : List TargetRequest :=
  failure.storedChunksKey.toList.map fun storageKey => ⟨failure.objectTargetId, .object storageKey, none⟩

def vectorTargets (failure : IndexFailure) (generation : IndexGeneration) : List TargetRequest :=
  failure.collection.toList.map fun collectionName =>
    ⟨failure.vectorTargetId, .vectorGeneration collectionName generation.projectId generation.id, none⟩

def targets (failure : IndexFailure) (generation : IndexGeneration) : List TargetRequest :=
  failure.objectTargets ++ failure.vectorTargets generation

def request (failure : IndexFailure) (generation : IndexGeneration) : JobRequest where
  id := failure.jobId
  kind := .orphanGuard
  idempotencyKey := ("index-failure:" : Text) ++ Text.ofUuid generation.id
  projectId := some generation.projectId
  requestedBy := none
  requestId := none

end IndexFailure

/-- The cleanup of all jobs and the generation of the build. -/
structure IndexSystem where
  cleanup : CleanupSystem
  generation : Option IndexGeneration := none

inductive IndexAction where
  | cleanup (action : CleanupAction)
  | prepare (request : IndexRequest)
  | complete (completion : IndexCompletion)
  /-- The transaction of the failure path; it raises when the build is not owned. -/
  | fail (failure : IndexFailure) (owned : Bool)
  deriving Repr, DecidableEq

namespace IndexSystem

def initial : IndexSystem :=
  { cleanup := CleanupSystem.initial }

section

variable (sha256 : Text → Text)

/-- The rows after the failure transaction, if it commits. -/
def failed (system : IndexSystem) (now : Instant) (failure : IndexFailure) (owned : Bool) :
    Option (CleanupStore × IndexGeneration) := do
  let generation ← system.generation
  if owned then
    let store ← system.cleanup.store.capture sha256 (failure.request generation) (failure.targets generation) now
    return (store, generation.fail failure.errorSummary now)
  else
    none

def perform (system : IndexSystem) (now : Instant) : IndexAction → IndexSystem
  | .cleanup action => { system with cleanup := system.cleanup.perform sha256 now action }
  | .prepare request => { system with generation := (request.prepare system.generation).or system.generation }
  | .complete completion =>
    { system with generation := (system.generation.bind (·.complete completion now)).or system.generation }
  | .fail failure owned =>
    match system.failed sha256 now failure owned with
    | none => system
    | some (store, generation) => { cleanup := { system.cleanup with store }, generation := some generation }

/-- The clock does not go back. -/
def step (system : IndexSystem) (action : Instant × IndexAction) : IndexSystem :=
  if system.cleanup.clock ≤ action.1 then
    { system with cleanup := { system.cleanup with clock := action.1 } }.perform sha256 action.1 action.2
  else
    system

end

end IndexSystem

/-! ## What a failure leaves behind -/

namespace CleanupStore

variable {sha256 : Text → Text} {store middle next : CleanupStore} {request : JobRequest} {now : Instant}

/-- Some target for the subject is still to be dealt with. -/
def Covers (store : CleanupStore) (subject : CleanupSubject) : Prop :=
  ∃ target ∈ store.targets, target.subject = subject ∧ target.status.terminal = false

/-- The job with the key has had a target for the subject. -/
def spends (sha256 : Text → Text) (store : CleanupStore) (idempotencyKey : Text) (subject : CleanupSubject) : Bool :=
  (store.jobByKey idempotencyKey).any fun job => store.hasTarget sha256 job.id subject

theorem Adds.hasTarget {jobId : Uuid} {target : TargetRequest} {subject : CleanupSubject}
    (adds : Adds jobId [newTarget sha256 jobId target now] store next)
    (different : targetKey sha256 target.subject ≠ targetKey sha256 subject) :
    next.hasTarget sha256 jobId subject = store.hasTarget sha256 jobId subject := by
  unfold CleanupStore.hasTarget Table.exists_
  rw [adds.targets, List.any_append]
  simp [newTarget, different]

/-- Of targets with different keys, those are added that the job has not had. -/
theorem mem_addTargets {jobId : Uuid} {requests : List TargetRequest}
    (distinct : requests.Pairwise fun left right => targetKey sha256 left.subject ≠ targetKey sha256 right.subject)
    (ran : store.addTargets sha256 jobId now requests = some next) {target : CleanupTarget} :
    target ∈ next.targets ↔ target ∈ store.targets ∨ ∃ request ∈ requests,
      store.hasTarget sha256 jobId request.subject = false ∧ target = newTarget sha256 jobId request now := by
  induction requests generalizing store with
  | nil =>
    cases ran
    simp
  | cons request requests ih =>
    simp only [addTargets, List.foldlM_cons, Option.bind_eq_bind, Option.bind_eq_some_iff] at ran
    obtain ⟨middle, isFirst, isRest⟩ := ran
    obtain ⟨differs, distinctRest⟩ := List.pairwise_cons.mp distinct
    rw [ih distinctRest isRest, List.exists_mem_cons_iff]
    rcases addTarget_eq_some isFirst with ⟨has, rfl⟩ | ⟨lacks, adds⟩
    · simp [has]
    · have same : ∀ other ∈ requests, middle.hasTarget sha256 jobId other.subject = store.hasTarget sha256 jobId other.subject :=
        fun other isOther => adds.hasTarget (differs other isOther)
      rw [adds.mem, List.mem_singleton, or_assoc]
      simp only [lacks, true_and]
      apply or_congr_right
      apply or_congr_right
      constructor
      · rintro ⟨other, isOther, fresh, rfl⟩
        exact ⟨other, isOther, same other isOther ▸ fresh, rfl⟩
      · rintro ⟨other, isOther, fresh, rfl⟩
        exact ⟨other, isOther, (same other isOther).trans fresh, rfl⟩

/-- A job that was just made has had no target. -/
theorem hasTarget_of_createJob {job : CleanupJob} (linked : store.Linked)
    (created : store.createJob request = some (middle, job)) (subject : CleanupSubject) :
    middle.hasTarget sha256 job.id subject = store.spends sha256 request.idempotencyKey subject := by
  rcases createJob_eq_some created with ⟨rfl, _, found⟩ | ⟨rfl, sameTargets, inserted, absent⟩
  · simp [spends, found]
  · have none : middle.hasTarget sha256 request.newJob.id subject = false := by
      rw [hasTarget, sameTargets, Table.exists_eq_false]
      intro target member
      have isLinked := linked target member
      have free : store.jobs.get? request.newJob.id = none := Table.key_of_insert inserted
      have foreign : target.jobId ≠ request.newJob.id := by
        intro same
        rw [same, free] at isLinked
        cases isLinked
      simp [foreign]
    rw [none]
    simp [spends, absent]

/-- A subject of a captured failure has a target to deal with if and only if it had one or the job has had none. -/
theorem covers_capture_iff {requests : List TargetRequest} (linked : store.Linked)
    (distinct : requests.Pairwise fun left right => targetKey sha256 left.subject ≠ targetKey sha256 right.subject)
    (ran : store.capture sha256 request requests now = some next) {target : TargetRequest} (isTarget : target ∈ requests) :
    next.Covers target.subject ↔
      store.Covers target.subject ∨ store.spends sha256 request.idempotencyKey target.subject = false := by
  obtain ⟨middle, job, last, created, isLast, rfl⟩ := capture_eq_some ran
  have rows : ∀ row, row ∈ last.targets ↔ row ∈ store.targets ∨ ∃ other ∈ requests,
      store.spends sha256 request.idempotencyKey other.subject = false ∧ row = newTarget sha256 job.id other now := by
    intro row
    rw [mem_addTargets distinct isLast, createJob_targets created]
    simp only [hasTarget_of_createJob linked created]
  show last.Covers target.subject ↔ _
  constructor
  · rintro ⟨row, isRow, sameSubject, pending⟩
    rcases (rows row).mp isRow with isOld | ⟨other, _, fresh, rfl⟩
    · exact .inl ⟨row, isOld, sameSubject, pending⟩
    · have same : other.subject = target.subject := sameSubject
      exact .inr (same ▸ fresh)
  · rintro (⟨row, isRow, sameSubject, pending⟩ | fresh)
    · exact ⟨row, (rows row).mpr (.inl isRow), sameSubject, pending⟩
    · exact ⟨newTarget sha256 job.id target now, (rows _).mpr (.inr ⟨target, isTarget, fresh, rfl⟩), rfl, rfl⟩

end CleanupStore

namespace IndexSystem

variable {sha256 : Text → Text}

/-- The failure transaction of the step, if it is one that commits. -/
def commits (sha256 : Text → Text) (system : IndexSystem) (action : Instant × IndexAction) :
    Option (IndexFailure × IndexGeneration × CleanupStore) :=
  match action.2 with
  | .fail failure owned =>
    if system.cleanup.clock ≤ action.1 then do
      let generation ← system.generation
      let (store, _) ← system.failed sha256 action.1 failure owned
      return (failure, generation, store)
    else
      none
  | _ => none

/-- After a failure there is a target to deal with for everything the attempt had written. -/
def CoversFailure (sha256 : Text → Text) (system : IndexSystem) (action : Instant × IndexAction) : Prop :=
  ∀ failure generation store, system.commits sha256 action = some (failure, generation, store) →
    (system.step sha256 action).cleanup.store = store ∧
      ∀ target ∈ failure.targets generation, store.Covers target.subject

/-- Before a failure nothing that the attempt has written had a target in the job of the generation, unless a target for
it is still to be dealt with. -/
def FindsRoom (sha256 : Text → Text) (system : IndexSystem) (action : Instant × IndexAction) : Prop :=
  ∀ failure generation store, system.commits sha256 action = some (failure, generation, store) →
    ∀ target ∈ failure.targets generation, system.cleanup.store.Covers target.subject ∨
      system.cleanup.store.spends sha256 (failure.request generation).idempotencyKey target.subject = false

theorem failed_eq_some {system : IndexSystem} {now : Instant} {failure : IndexFailure} {owned : Bool} {store : CleanupStore}
    {after : IndexGeneration} (committed : system.failed sha256 now failure owned = some (store, after)) :
    ∃ generation, system.generation = some generation ∧
      system.cleanup.store.capture sha256 (failure.request generation) (failure.targets generation) now = some store := by
  unfold failed at committed
  simp only [Option.bind_eq_bind, Option.bind_eq_some_iff] at committed
  obtain ⟨generation, isGeneration, rest⟩ := committed
  split at rest
  · simp only [Option.bind_eq_some_iff, Option.pure_def, Option.some.injEq, Prod.mk.injEq] at rest
    obtain ⟨captured, isCaptured, rfl, _⟩ := rest
    exact ⟨generation, isGeneration, isCaptured⟩
  · cases rest

theorem store_step_fail {system : IndexSystem} {now : Instant} {failure : IndexFailure} {owned : Bool}
    (forward : system.cleanup.clock ≤ now) : (system.step sha256 (now, .fail failure owned)).cleanup.store =
      ((system.failed sha256 now failure owned).map Prod.fst).getD system.cleanup.store := by
  have sameRows : IndexSystem.failed sha256 { system with cleanup := { system.cleanup with clock := now } } now failure owned =
      system.failed sha256 now failure owned := rfl
  simp only [step, forward, if_true, perform, sameRows]
  cases system.failed sha256 now failure owned <;> rfl

theorem commits_eq_some {system : IndexSystem} {action : Instant × IndexAction} {failure : IndexFailure}
    {generation : IndexGeneration} {store : CleanupStore}
    (committed : system.commits sha256 action = some (failure, generation, store)) :
    (system.step sha256 action).cleanup.store = store ∧ system.cleanup.store.capture sha256 (failure.request generation)
      (failure.targets generation) action.1 = some store := by
  obtain ⟨now, action⟩ := action
  cases action with
  | fail attempt owned =>
    unfold commits at committed
    simp only at committed
    split at committed
    · rename_i forward
      simp only [Option.bind_eq_bind, Option.bind_eq_some_iff, Option.pure_def, Option.some.injEq, Prod.mk.injEq] at committed
      obtain ⟨built, isBuilt, ⟨next, after⟩, isFailed, rfl, rfl, rfl⟩ := committed
      obtain ⟨generation, isGeneration, captured⟩ := failed_eq_some isFailed
      rw [isBuilt] at isGeneration
      cases isGeneration
      refine ⟨?_, captured⟩
      rw [store_step_fail forward, isFailed]
      rfl
    · cases committed
  | _ => cases committed

theorem coversFailure_iff_findsRoom (system : IndexSystem) (action : Instant × IndexAction)
    (distinct : ∀ storageKey collectionName projectId generationId, CleanupStore.targetKey sha256 (.object storageKey) ≠
      CleanupStore.targetKey sha256 (.vectorGeneration collectionName projectId generationId))
    (linked : system.cleanup.store.Linked) : CoversFailure sha256 system action ↔ FindsRoom sha256 system action := by
  have pairwise : ∀ (failure : IndexFailure) (generation : IndexGeneration), (failure.targets generation).Pairwise
      fun left right => CleanupStore.targetKey sha256 left.subject ≠ CleanupStore.targetKey sha256 right.subject := by
    intro failure generation
    unfold IndexFailure.targets IndexFailure.objectTargets IndexFailure.vectorTargets
    cases failure.storedChunksKey <;> cases failure.collection <;> simp [distinct]
  constructor
  · intro covers failure generation store committed target isTarget
    exact (CleanupStore.covers_capture_iff linked (pairwise failure generation) (commits_eq_some committed).2 isTarget).mp
      ((covers failure generation store committed).2 target isTarget)
  · intro room failure generation store committed
    refine ⟨(commits_eq_some committed).1, ?_⟩
    intro target isTarget
    exact (CleanupStore.covers_capture_iff linked (pairwise failure generation) (commits_eq_some committed).2 isTarget).mpr
      (room failure generation store committed target isTarget)

theorem linked_step (system : IndexSystem) (action : Instant × IndexAction) (linked : system.cleanup.store.Linked) :
    (system.step sha256 action).cleanup.store.Linked := by
  obtain ⟨now, action⟩ := action
  cases action with
  | cleanup cleanup =>
    have same : (system.step sha256 (now, .cleanup cleanup)).cleanup = system.cleanup.step sha256 (now, cleanup) := by
      unfold step CleanupSystem.step
      split <;> rfl
    rw [same]
    exact CleanupSystem.linked_step system.cleanup (now, cleanup) linked
  | prepare request =>
    unfold step
    split <;> exact linked
  | complete completion =>
    unfold step
    split <;> exact linked
  | fail failure owned =>
    by_cases forward : system.cleanup.clock ≤ now
    · rw [store_step_fail forward]
      cases committed : system.failed sha256 now failure owned with
      | none => exact linked
      | some outcome =>
        obtain ⟨generation, _, captured⟩ := failed_eq_some committed
        exact CleanupStore.linked_capture linked captured
    · unfold step
      rw [if_neg forward]
      exact linked

end IndexSystem

/-- The texts that are hashed for an object and for the vectors of a generation differ. -/
theorem identity_object_ne_vectorGeneration (storageKey collectionName : Text) (projectId generationId : Uuid) :
    (CleanupSubject.object storageKey).identity ≠
      (CleanupSubject.vectorGeneration collectionName projectId generationId).identity := by
  have object : ("object" : Text).head? = some 'o' := by decide +kernel
  have vector : ("vector_generation" : Text).head? = some 'v' := by decide +kernel
  intro same
  have first := congrArg List.head? same
  unfold CleanupSubject.identity at first
  simp only [List.append_assoc, List.head?_append, object, vector, Option.some_or, Option.some.injEq] at first
  exact absurd first (by decide)

open IndexSystem in
/-- A run leaves a target to deal with after each of its failures, for all that the failed attempt had written, if and
only if before each of them nothing of it had a target in the job of the generation that is no longer to be dealt with. -/
theorem failed_index_covered_iff (sha256 : Text → Text)
    (distinct : ∀ storageKey collectionName projectId generationId, CleanupStore.targetKey sha256 (.object storageKey) ≠
      CleanupStore.targetKey sha256 (.vectorGeneration collectionName projectId generationId))
    (actions : List (Instant × IndexAction)) :
    Along (step sha256) (CoversFailure sha256) initial actions ↔ Along (step sha256) (FindsRoom sha256) initial actions :=
  along_congr (fun system => system.cleanup.store.Linked) linked_step
    (fun system action linked => coversFailure_iff_findsRoom system action distinct linked)
    (fun target member => absurd member (Table.not_mem_empty target)) actions

def indexRequest (generationId : Uuid) : IndexRequest :=
  ⟨generationId, 3, 5, some "embedding", "key", "fingerprint"⟩

def indexFailure (jobId objectTargetId vectorTargetId : Uuid) : IndexFailure :=
  ⟨some "build-index-chunks/1", some "chunks_3", "unavailable", jobId, objectTargetId, vectorTargetId⟩

/-- A failure in the first attempt finds no job of the generation. -/
theorem failed_index_covered_first : Along (IndexSystem.step id) (IndexSystem.CoversFailure id) IndexSystem.initial
    [(0, .prepare (indexRequest 7)), (1, .fail (indexFailure 1 11 12) true)] := by
  refine (failed_index_covered_iff id identity_object_ne_vectorGeneration _).mpr ?_
  refine along_cons.mpr ⟨?_, along_cons.mpr ⟨?_, along_nil⟩⟩
  · intro failure generation store committed
    cases committed
  · intro failure generation store _ target _
    exact .inr rfl

/-- The first attempt fails after vectors were written, and they are removed with the chunks. -/
def cleanedFailure : List (Instant × IndexAction) :=
  [(0, .prepare (indexRequest 7)),
    (1, .fail (indexFailure 1 11 12) true),
    (2, .cleanup (.claimDueTargets [] (some 2) 60 [100, 101])),
    (3, .cleanup (.markCompleted 11 false (some 100) (some 1))),
    (3, .cleanup (.markCompleted 12 false (some 101) (some 1))),
    (4, .prepare (indexRequest 8))]

/-- When the second attempt fails like the first, no target is left to deal with. -/
theorem not_failed_index_covered : ¬ ∀ actions, Along (IndexSystem.step id) (IndexSystem.CoversFailure id)
    IndexSystem.initial actions := by
  intro covers
  have last := (covers (cleanedFailure ++ [(5, .fail (indexFailure 2 13 14) true)])).split.1
  have done : (((run (IndexSystem.step id) IndexSystem.initial cleanedFailure).commits id
      (5, .fail (indexFailure 2 13 14) true)).map fun outcome => (outcome.1.targets outcome.2.1 ≠ [] &&
        outcome.2.2.targets.rows.all (·.status.terminal))) = some true := by decide +kernel
  obtain ⟨⟨failure, generation, store⟩, committed, allDone⟩ := Option.map_eq_some_iff.mp done
  simp only [Bool.and_eq_true, decide_eq_true_eq, List.all_eq_true] at allDone
  obtain ⟨target, isTarget⟩ := List.exists_mem_of_ne_nil _ allDone.1
  obtain ⟨row, isRow, _, pending⟩ := (last failure generation store committed).2 target isTarget
  rw [allDone.2 row isRow] at pending
  cases pending

end Mcplica.Cleanup
