import Mcplica.Builds.Admission

/-! # The life of a build

What one step of the admission system may do to one row, and what follows for every run: the status
moves along the pipeline, the results of a stage are written while the build is in it, and a
cancellation is final. -/

namespace Mcplica.Builds

open Mcplica.Domain Mcplica.Library

/-! ## The moves of a row -/

namespace AdmissionSystem

/-- The build, the token and the clock reading a worker presents. -/
def Action.presents : Action → Option (Uuid × Uuid × Instant)
  | worker buildId token now _ => some (buildId, token, now)
  | _ => none

end AdmissionSystem

open AdmissionSystem

/-- The action is a call of the holder of the build's current, unexpired token. -/
def OwnedCall (action : Action) (build : Build) : Prop :=
  ∃ token now, action.presents = some (build.id, token, now) ∧ holdsLease build token now = true

/-- The owner's call finds the build where it expects it and not cancelled. -/
structure StageCall (action : Action) (build : Build) (status : BuildStatus) : Prop where
  owned : OwnedCall action build
  status : build.status = status
  uncancelled : build.cancellationRequestedAt = none

inductive BuildMove (action : Action) : Build → Build → Prop
  | kept {build} : BuildMove action build build
  | released {build now} : BuildMove action build (releaseAdmission now build)
  | claimed {build base token now lease} (unheld : base = build ∨ ∃ cleared, base = releaseAdmission cleared build)
      (commits : action = .claimCommit) : BuildMove action build (claimValues token now lease base)
  | enqueued {build now} : BuildMove action build { build with admissionEnqueuedAt := some now }
  | renewed {build now lease renewal} (renews : action = .renewFinish renewal) :
      BuildMove action build (renewValues now lease build)
  | advanced {build expected target now} (call : StageCall action build expected)
      (next : nextStatus expected = some target) :
      BuildMove action build (transitionValues expected target now build)
  | parsed {build snapshotId} (call : StageCall action build .parsing) :
      BuildMove action build { build with canonicalSnapshotId := some snapshotId }
  | indexed {build model dimensions} (call : StageCall action build .indexing) :
      BuildMove action build { build with embeddingModel := model, embeddingDimensions := some dimensions }
  | analyzed {build enrichment enrichmentSha256} (call : StageCall action build .analyzing) :
      BuildMove action build
        { build with enrichmentJson := some enrichment, enrichmentSha256 := some enrichmentSha256 }
  | compiled {build manifestSha256 storageKey} (call : StageCall action build .compiling) :
      BuildMove action build
        { build with manifestSha256 := some manifestSha256, manifestStorageKey := some storageKey }
  | packaged {build artifactSha256 storageKey} (call : StageCall action build .packaging) :
      BuildMove action build
        { build with artifactSha256 := some artifactSha256, artifactStorageKey := some storageKey }
  | failed {build errorCode errorSummary now} (owned : OwnedCall action build)
      (active : build.status.terminal = false) (uncancelled : build.cancellationRequestedAt = none) :
      BuildMove action build (failedValues errorCode errorSummary now build)
  | cancelling {build requestedBy now} (active : build.status.terminal = false)
      (uncancelled : build.cancellationRequestedAt = none) :
      BuildMove action build
        { build with cancellationRequestedAt := some now, cancellationRequestedBy := some requestedBy }
  | cancelled {build now} (owned : OwnedCall action build) (active : build.status.terminal = false)
      (requested : build.cancellationRequestedAt.isSome = true) :
      BuildMove action build (cancelledValues now build)

/-- Every row is moved, and rows are added as `create` makes them. -/
structure BuildsEffect (builds next : BuildTable) (action : Action) (rewrite : Build → Build)
    (added : List Build) : Prop where
  rows : next.rows = builds.rows.map rewrite ++ added
  moves : ∀ build ∈ builds, BuildMove action build (rewrite build)
  fresh : ∀ build ∈ added, ∃ new : NewBuild, ∃ sequence, build = new.row sequence

section Effects

variable {builds next : BuildTable} {action : Action} {buildId token : Uuid} {now : Instant}

theorem effect_refl (builds : BuildTable) (action : Action) : BuildsEffect builds builds action id [] :=
  ⟨by simp, fun _ _ => .kept, fun _ member => by cases member⟩

/-- An update of the row that was looked up. -/
theorem effect_update {build : Build} {values : Build → Build} (keeps : ∀ row, (values row).id = row.id)
    (found : builds.get? buildId = some build) (move : BuildMove action build (values build)) :
    BuildsEffect builds (builds.update (fun row => row.id = buildId) values keeps) action
      (fun row => if row.id = buildId then values row else row) [] := by
  refine ⟨by simp [Table.update], ?_, fun _ member => by cases member⟩
  intro row member
  split
  · rename_i same
    have rowIs : row = build :=
      Table.eq_of_key member (Table.mem_of_get? found) (same.trans (Table.key_of_get? found).symm)
    rw [rowIs]
    exact move
  · exact .kept

theorem updateOwned_spec {where_ : Build → Bool} {values : Build → Build} {keeps}
    (written : updateOwned builds buildId token where_ values keeps = some next) :
    ∃ build, builds.get? buildId = some build ∧ build.admissionToken = some token ∧ where_ build = true ∧
      next = builds.update (fun row => row.id = buildId) values keeps := by
  unfold updateOwned at written
  split at written
  · cases written
  · rename_i build found
    split at written
    · rename_i holds
      simp only [Bool.and_eq_true, decide_eq_true_eq] at holds
      cases written
      exact ⟨build, found, holds.1, holds.2, rfl⟩
    · cases written

theorem requireBuildExecutionOwner_eq_ok {allowCancellation : Bool} {build : Build}
    (owned : requireBuildExecutionOwner builds buildId token now allowCancellation = .ok build) :
    builds.get? buildId = some build ∧ holdsLease build token now = true ∧ build.status.terminal = false ∧
      (allowCancellation = true ∨ build.cancellationRequestedAt = none) := by
  simp only [requireBuildExecutionOwner, bind_eq_ok, orRaise_eq_ok, require_eq_ok, Bool.and_eq_true,
    Bool.not_eq_true'] at owned
  obtain ⟨row, found, -, ⟨holds, active⟩, owned⟩ := owned
  split at owned
  · cases owned
  · rename_i allowed
    cases owned
    refine ⟨found, holds, active, ?_⟩
    cases requested : build.cancellationRequestedAt <;> simp_all

/-- The transactions that an owner makes on its build. -/
theorem effect_owned {allowCancellation : Bool} {build : Build} {where_ : Build → Bool} {values : Build → Build}
    {keeps : ∀ row, (values row).id = row.id} (owned : requireBuildExecutionOwner builds buildId token now allowCancellation = .ok build)
    (written : updateOwned builds buildId token where_ values keeps = some next)
    (presents : action.presents = some (buildId, token, now))
    (move : OwnedCall action build → build.status.terminal = false → where_ build = true →
      BuildMove action build (values build)) :
    ∃ rewrite added, BuildsEffect builds next action rewrite added := by
  obtain ⟨found, holds, active, -⟩ := requireBuildExecutionOwner_eq_ok owned
  obtain ⟨row, rowFound, -, condition, rfl⟩ := updateOwned_spec written
  rw [found, Option.some.injEq] at rowFound
  subst rowFound
  have sameId : build.id = buildId := Table.key_of_get? found
  exact ⟨_, _, effect_update keeps found
    (move ⟨token, now, by rw [presents, sameId], holds⟩ active condition)⟩

theorem effect_stage {status : BuildStatus} {values : Build → Build} {keeps}
    (written : stageUpdate builds buildId status token now values keeps = .ok next)
    (presents : action.presents = some (buildId, token, now))
    (move : ∀ build, StageCall action build status → BuildMove action build (values build)) :
    ∃ rewrite added, BuildsEffect builds next action rewrite added := by
  simp only [stageUpdate, bind_eq_ok, orRaise_eq_ok] at written
  obtain ⟨build, owned, written⟩ := written
  refine effect_owned owned written presents fun call _ condition => move build ⟨call, ?_, ?_⟩
  · simp only [Bool.and_eq_true, decide_eq_true_eq] at condition
    exact condition.1
  · simp only [Bool.and_eq_true, Option.isNone_iff_eq_none] at condition
    exact condition.2

theorem effect_transition {expected target : BuildStatus}
    (written : transition builds buildId expected target token now = .ok next)
    (presents : action.presents = some (buildId, token, now)) :
    ∃ rewrite added, BuildsEffect builds next action rewrite added := by
  simp only [transition, bind_eq_ok, orRaise_eq_ok, require_eq_ok, decide_eq_true_eq] at written
  obtain ⟨build, owned, -, monotonic, written⟩ := written
  refine effect_owned owned written presents fun call _ condition => ?_
  simp only [Bool.and_eq_true, decide_eq_true_eq, Option.isNone_iff_eq_none] at condition
  exact .advanced ⟨call, condition.1, condition.2⟩ monotonic

theorem effect_workerCall {call : WorkerCall} (written : workerCall builds buildId token now call = .ok next)
    (presents : action.presents = some (buildId, token, now)) :
    ∃ rewrite added, BuildsEffect builds next action rewrite added := by
  cases call with
  | transition expected target => exact effect_transition written presents
  | markReady => exact effect_transition written presents
  | setCanonicalSnapshot snapshotId => exact effect_stage written presents fun _ call => .parsed call
  | setEmbeddingMetadata model dimensions => exact effect_stage written presents fun _ call => .indexed call
  | setEnrichment enrichment enrichmentSha256 => exact effect_stage written presents fun _ call => .analyzed call
  | setManifest manifestSha256 storageKey =>
    simp only [workerCall, setManifest, bind_eq_ok] at written
    obtain ⟨-, -, written⟩ := written
    exact effect_stage written presents fun _ call => .compiled call
  | setArtifact artifactSha256 storageKey =>
    simp only [workerCall, setArtifact, bind_eq_ok] at written
    obtain ⟨-, -, written⟩ := written
    exact effect_stage written presents fun _ call => .packaged call
  | fail errorCode errorSummary =>
    simp only [workerCall, fail, bind_eq_ok] at written
    obtain ⟨build, owned, written⟩ := written
    cases updated : updateOwned builds buildId token
        (fun build => !build.status.terminal && build.cancellationRequestedAt.isNone)
        (failedValues errorCode errorSummary now) with
    | none =>
      rw [updated] at written
      cases written
      exact ⟨_, _, effect_refl builds action⟩
    | some failed =>
      rw [updated] at written
      cases written
      refine effect_owned owned updated presents fun call active condition => ?_
      simp only [Bool.and_eq_true, Option.isNone_iff_eq_none] at condition
      exact .failed call active condition.2
  | acknowledgeCancellation =>
    simp only [workerCall, acknowledgeCancellation, bind_eq_ok] at written
    obtain ⟨build, owned, written⟩ := written
    split at written
    · rename_i cancelled updated
      cases written
      refine effect_owned owned updated presents fun call active condition => ?_
      simp only [Bool.and_eq_true] at condition
      exact .cancelled call active condition.2
    · split at written
      · cases written
        exact ⟨_, _, effect_refl builds action⟩
      · cases written

theorem effect_requestCancellation {requestedBy : Uuid}
    (written : requestCancellation builds buildId requestedBy now = .ok next) :
    ∃ rewrite added, BuildsEffect builds next action rewrite added := by
  simp only [requestCancellation, bind_eq_ok, orRaise_eq_ok, require_eq_ok, Bool.not_eq_true'] at written
  obtain ⟨build, found, -, active, written⟩ := written
  cases written
  refine ⟨_, [], (List.append_nil _).symm, ?_, fun _ member => by cases member⟩
  intro row member
  split
  · rename_i uncancelled
    simp only [Bool.and_eq_true, decide_eq_true_eq, Option.isNone_iff_eq_none] at uncancelled
    have rowIs : row = build :=
      Table.eq_of_key member (Table.mem_of_get? found) (uncancelled.1.trans (Table.key_of_get? found).symm)
    exact .cancelling (rowIs ▸ active) uncancelled.2
  · exact .kept

/-- The updates that only compare the token. -/
theorem effect_held {values : Build → Build} {keeps} (move : ∀ build, BuildMove action build (values build)) :
    ∃ rewrite added, BuildsEffect builds
      ((updateOwned builds buildId token (fun _ => true) values keeps).getD builds) action rewrite added := by
  cases written : updateOwned builds buildId token (fun _ => true) values keeps with
  | none => exact ⟨_, _, effect_refl builds action⟩
  | some next =>
    obtain ⟨build, found, -, -, rfl⟩ := updateOwned_spec written
    exact ⟨_, _, effect_update keeps found (move build)⟩

theorem effect_beginOrRenew {lease : Duration} {renewal : Renewal} (renews : action = .renewFinish renewal) :
    ∃ rewrite added, BuildsEffect builds (beginOrRenew builds buildId token lease now).1 action rewrite added := by
  unfold beginOrRenew
  split
  · exact ⟨_, _, effect_refl builds action⟩
  · rename_i build found
    split
    · split
      · exact ⟨_, _, effect_refl builds action⟩
      · have keeps : ∀ row, (renewValues now lease row).id = row.id := fun _ => rfl
        exact ⟨_, _, effect_update keeps found (.renewed renews)⟩
    · exact ⟨_, _, effect_refl builds action⟩

theorem effect_create {new : NewBuild} (written : create builds new = .ok next) :
    ∃ rewrite added, BuildsEffect builds next action rewrite added := by
  simp only [create, bind_eq_ok, orRaise_eq_ok] at written
  obtain ⟨-, -, inserted⟩ := written
  refine ⟨id, [new.row (nextSequence builds new.projectId)], ?_, fun _ _ => .kept, ?_⟩
  · rw [Table.rows_insert inserted, List.map_id]
  · intro build member
    rw [List.mem_singleton] at member
    exact ⟨new, _, member⟩

/-- The row of a build after the claiming transaction has committed. -/
def claimedRow (system : AdmissionSystem) (lease : Duration) (now : Instant) (cleared candidates : List Uuid)
    (build : Build) : Build :=
  let seen := if cleared.contains build.id then releaseAdmission now build else build
  if candidates.contains build.id then
    claimValues (system.tokensDrawn + candidates.idxOf build.id) now lease seen
  else
    seen

theorem commitClaim_rows (system : AdmissionSystem) (lease : Duration) (now : Instant)
    (cleared candidates : List Uuid) :
    (commitClaim lease system now cleared candidates).builds.rows =
      system.builds.rows.map (claimedRow system lease now cleared candidates) := by
  simp only [commitClaim, view, Table.update, List.map_map]
  apply List.map_congr_left
  intro build _
  have sameId : (if cleared.contains build.id then releaseAdmission now build else build).id = build.id := by
    split <;> rfl
  simp only [Function.comp_apply, claimedRow, sameId]

theorem effect_commitClaim (system : AdmissionSystem) (lease : Duration) (now : Instant)
    (cleared candidates : List Uuid) (commits : action = .claimCommit) :
    ∃ rewrite added, BuildsEffect system.builds (commitClaim lease system now cleared candidates).builds action
      rewrite added := by
  refine ⟨claimedRow system lease now cleared candidates, [], ?_, ?_, fun _ member => by cases member⟩
  · rw [commitClaim_rows, List.append_nil]
  · intro build _
    unfold claimedRow
    by_cases isCleared : cleared.contains build.id = true
    · simp only [isCleared, if_true]
      split
      · exact .claimed (.inr ⟨now, rfl⟩) commits
      · exact .released
    · simp only [Bool.not_eq_true] at isCleared
      simp only [isCleared, Bool.false_eq_true, if_false]
      split
      · exact .claimed (.inl rfl) commits
      · exact .kept

end Effects

theorem step_effect (concurrency : Nat) (lease : Duration) (system : AdmissionSystem) (action : Action) :
    ∃ rewrite added, BuildsEffect system.builds (step concurrency lease system action).builds action
      rewrite added := by
  have refl := fun action => effect_refl system.builds action
  cases action with
  | create new =>
    simp only [step, withBuilds]
    refine commit_induction (P := fun next => ∃ rewrite added, BuildsEffect system.builds next _ rewrite added)
      ⟨_, _, refl _⟩ fun next written => effect_create written
  | worker buildId token now call =>
    simp only [step]
    split
    · exact ⟨_, _, refl _⟩
    · exact commit_induction (P := fun next => ∃ rewrite added, BuildsEffect system.builds next _ rewrite added)
        ⟨_, _, refl _⟩ fun next written => effect_workerCall written rfl
  | requestCancellation buildId requestedBy now =>
    simp only [step]
    split
    · exact ⟨_, _, refl _⟩
    · exact commit_induction (P := fun next => ∃ rewrite added, BuildsEffect system.builds next _ rewrite added)
        ⟨_, _, refl _⟩ fun next written => effect_requestCancellation written
  | markEnqueued buildId token now =>
    simp only [step]
    split
    · exact ⟨_, _, refl _⟩
    · exact effect_held fun _ => .enqueued
  | release buildId token now =>
    simp only [step]
    split
    · exact ⟨_, _, refl _⟩
    · exact effect_held fun _ => .released
  | renewFinish renewal =>
    simp only [step]
    split
    · exact ⟨_, _, refl _⟩
    · exact effect_beginOrRenew rfl
  | claimCommit =>
    simp only [step]
    split
    · exact effect_commitClaim system lease _ _ _ rfl
    · exact effect_commitClaim system lease _ _ _ rfl
    · exact ⟨_, _, refl _⟩
  | tick | renewAbort | claimAbort => exact ⟨_, _, refl _⟩
  | renewBegin | claimBegin =>
    simp only [step]
    split <;> exact ⟨_, _, refl _⟩
  | claimExpire | claimCount =>
    simp only [step]
    split <;> exact ⟨_, _, refl _⟩
  | claimSelect locked =>
    simp only [step]
    split
    · split <;> exact ⟨_, _, refl _⟩
    · exact ⟨_, _, refl _⟩

/-! ## What a move keeps -/

/-- One step of the state machine. -/
structure StatusLaw (old new : Build) : Prop where
  forward : new.status = old.status ∨ nextStatus old.status = some new.status ∨
    old.status.terminal = false ∧ (new.status = .failed ∨ new.status = .cancelled)
  absorbing : old.status.terminal = true → new.status = old.status
  cancelling : old.cancellationRequestedAt.isSome = true →
    new.cancellationRequestedAt.isSome = true ∧ (new.status = old.status ∨ new.status = .cancelled)

/-- Every result is written by the owner in the stage that produces it. -/
structure StageLaw (action : Action) (old new : Build) : Prop where
  snapshot : new.canonicalSnapshotId ≠ old.canonicalSnapshotId → OwnedCall action old ∧ old.status = .parsing
  enrichment : (new.enrichmentJson, new.enrichmentSha256) ≠ (old.enrichmentJson, old.enrichmentSha256) →
    OwnedCall action old ∧ old.status = .analyzing
  manifest : (new.manifestSha256, new.manifestStorageKey) ≠ (old.manifestSha256, old.manifestStorageKey) →
    OwnedCall action old ∧ old.status = .compiling
  artifact : (new.artifactSha256, new.artifactStorageKey) ≠ (old.artifactSha256, old.artifactStorageKey) →
    OwnedCall action old ∧ old.status = .packaging

/-- The move acknowledges a cancellation, which drops the manifest and the artifact. -/
def Cancels (action : Action) (old new : Build) : Prop :=
  OwnedCall action old ∧ old.cancellationRequestedAt.isSome = true ∧ new = { new with
    status := .cancelled
    canonicalSnapshotId := old.canonicalSnapshotId
    enrichmentJson := old.enrichmentJson
    enrichmentSha256 := old.enrichmentSha256
    manifestSha256 := none
    manifestStorageKey := none
    artifactSha256 := none
    artifactStorageKey := none }

def Unfinished (build : Build) : Prop :=
  build.manifestSha256 = none ∧ build.manifestStorageKey = none ∧ build.artifactSha256 = none ∧
    build.artifactStorageKey = none

section Moves

variable {action : Action} {old new : Build}

theorem BuildMove.sameId (move : BuildMove action old new) : new.id = old.id := by
  cases move with
  | advanced => exact transitionValues_id _ _ _ _
  | claimed unheld =>
    rcases unheld with rfl | ⟨cleared, rfl⟩ <;> rfl
  | _ => rfl

theorem nextStatus_terminal {status target : BuildStatus} (next : nextStatus status = some target) :
    status.terminal = false := by
  unfold nextStatus at next
  split at next
  · cases next
  · simpa using ‹¬ status.terminal = true›

theorem transitionValues_fields (expected target : BuildStatus) (now : Instant) (build : Build) :
    (transitionValues expected target now build).status = target ∧
    (transitionValues expected target now build).cancellationRequestedAt = build.cancellationRequestedAt ∧
    (transitionValues expected target now build).canonicalSnapshotId = build.canonicalSnapshotId ∧
    (transitionValues expected target now build).enrichmentJson = build.enrichmentJson ∧
    (transitionValues expected target now build).enrichmentSha256 = build.enrichmentSha256 ∧
    (transitionValues expected target now build).manifestSha256 = build.manifestSha256 ∧
    (transitionValues expected target now build).manifestStorageKey = build.manifestStorageKey ∧
    (transitionValues expected target now build).artifactSha256 = build.artifactSha256 ∧
    (transitionValues expected target now build).artifactStorageKey = build.artifactStorageKey := by
  unfold transitionValues
  split <;> split <;> exact ⟨rfl, rfl, rfl, rfl, rfl, rfl, rfl, rfl, rfl⟩

theorem StatusLaw.of_eq (status : new.status = old.status)
    (cancellation : old.cancellationRequestedAt.isSome = true → new.cancellationRequestedAt.isSome = true) :
    StatusLaw old new :=
  ⟨.inl status, fun _ => status, fun requested => ⟨cancellation requested, .inl status⟩⟩

theorem BuildMove.statusLaw (move : BuildMove action old new) : StatusLaw old new := by
  cases move with
  | kept | released | enqueued | renewed | parsed | indexed | analyzed | compiled | packaged =>
    exact .of_eq rfl id
  | claimed unheld =>
    rcases unheld with rfl | ⟨cleared, rfl⟩
    · exact .of_eq rfl id
    · exact .of_eq rfl id
  | cancelling => exact .of_eq rfl fun _ => rfl
  | @advanced expected target now call next =>
    obtain ⟨status, cancellation, -⟩ := transitionValues_fields expected target now old
    have active := nextStatus_terminal next
    refine ⟨?_, ?_, ?_⟩
    · rw [status, call.status]
      exact .inr (.inl next)
    · rw [call.status, active]
      exact fun impossible => by cases impossible
    · rw [call.uncancelled]
      exact fun impossible => by cases impossible
  | failed owned active uncancelled =>
    refine ⟨.inr (.inr ⟨active, .inl rfl⟩), ?_, ?_⟩
    · rw [active]
      exact fun impossible => by cases impossible
    · rw [uncancelled]
      exact fun impossible => by cases impossible
  | cancelled owned active requested =>
    refine ⟨.inr (.inr ⟨active, .inr rfl⟩), ?_, fun _ => ⟨requested, .inr rfl⟩⟩
    rw [active]
    exact fun impossible => by cases impossible

theorem StageLaw.of_eq (snapshot : new.canonicalSnapshotId = old.canonicalSnapshotId)
    (enrichment : (new.enrichmentJson, new.enrichmentSha256) = (old.enrichmentJson, old.enrichmentSha256))
    (manifest : (new.manifestSha256, new.manifestStorageKey) = (old.manifestSha256, old.manifestStorageKey))
    (artifact : (new.artifactSha256, new.artifactStorageKey) = (old.artifactSha256, old.artifactStorageKey)) :
    StageLaw action old new :=
  ⟨fun changed => absurd snapshot changed, fun changed => absurd enrichment changed,
    fun changed => absurd manifest changed, fun changed => absurd artifact changed⟩

theorem BuildMove.stageLaw (move : BuildMove action old new) : StageLaw action old new ∨ Cancels action old new := by
  cases move with
  | kept | released | enqueued | renewed | indexed | failed | cancelling => exact .inl (.of_eq rfl rfl rfl rfl)
  | claimed unheld =>
    rcases unheld with rfl | ⟨cleared, rfl⟩
    · exact .inl (.of_eq rfl rfl rfl rfl)
    · exact .inl (.of_eq rfl rfl rfl rfl)
  | @advanced expected target now call next =>
    obtain ⟨-, -, snapshot, enrichment, enrichmentSha256, manifest, manifestKey, artifact, artifactKey⟩ :=
      transitionValues_fields expected target now old
    exact .inl (.of_eq snapshot (by rw [enrichment, enrichmentSha256]) (by rw [manifest, manifestKey])
      (by rw [artifact, artifactKey]))
  | parsed call => exact .inl ⟨fun _ => ⟨call.owned, call.status⟩, fun changed => absurd rfl changed,
      fun changed => absurd rfl changed, fun changed => absurd rfl changed⟩
  | analyzed call => exact .inl ⟨fun changed => absurd rfl changed, fun _ => ⟨call.owned, call.status⟩,
      fun changed => absurd rfl changed, fun changed => absurd rfl changed⟩
  | compiled call => exact .inl ⟨fun changed => absurd rfl changed, fun changed => absurd rfl changed,
      fun _ => ⟨call.owned, call.status⟩, fun changed => absurd rfl changed⟩
  | packaged call => exact .inl ⟨fun changed => absurd rfl changed, fun changed => absurd rfl changed,
      fun changed => absurd rfl changed, fun _ => ⟨call.owned, call.status⟩⟩
  | cancelled owned active requested => exact .inr ⟨owned, requested, rfl⟩

theorem nextStatus_ne_cancelled (status : BuildStatus) : nextStatus status ≠ some .cancelled := by
  cases status <;> decide

/-- A cancelled build keeps no manifest and no artifact. -/
theorem BuildMove.unfinished (move : BuildMove action old new)
    (before : old.status = .cancelled → Unfinished old) (cancelled : new.status = .cancelled) : Unfinished new := by
  cases move with
  | cancelled => exact ⟨rfl, rfl, rfl, rfl⟩
  | failed => cases cancelled
  | @advanced expected target now call next =>
    rw [(transitionValues_fields expected target now old).1] at cancelled
    rw [cancelled] at next
    exact absurd next (nextStatus_ne_cancelled expected)
  | compiled call | packaged call =>
    have status : old.status = .cancelled := cancelled
    rw [call.status] at status
    cases status
  | claimed unheld =>
    rcases unheld with rfl | ⟨cleared, rfl⟩
    · exact before cancelled
    · exact before cancelled
  | kept | released | enqueued | renewed | parsed | indexed | analyzed | cancelling => exact before cancelled

end Moves

/-! ## Every run -/

/-- What a step does to every build: one step of the state machine, and `changes` for its results. -/
def BuildLaw (changes : Action → Build → Build → Prop) (concurrency : Nat) (lease : Duration)
    (system : AdmissionSystem) (action : Action) : Prop :=
  ∀ old ∈ system.builds, ∃ new ∈ (step concurrency lease system action).builds,
    new.id = old.id ∧ StatusLaw old new ∧ changes action old new

/-- The results of a stage change in it, or are dropped by the acknowledgement of a cancellation. -/
def ResultLaw (action : Action) (old new : Build) : Prop :=
  StageLaw action old new ∨ Cancels action old new

variable {concurrency : Nat} {lease : Duration}

theorem buildLaw_step (concurrency : Nat) (lease : Duration) (system : AdmissionSystem) (action : Action) :
    BuildLaw ResultLaw concurrency lease system action := by
  intro old member
  obtain ⟨rewrite, added, effect⟩ := step_effect concurrency lease system action
  have move := effect.moves old member
  refine ⟨rewrite old, ?_, move.sameId, move.statusLaw, move.stageLaw⟩
  rw [← Table.mem_rows, effect.rows]
  exact List.mem_append_left _ (List.mem_map_of_mem member)

/-- Cancelled builds have no manifest and no artifact. -/
def CancelledUnfinished (system : AdmissionSystem) : Prop :=
  ∀ build ∈ system.builds, build.status = .cancelled → Unfinished build

theorem cancelledUnfinished_step (system : AdmissionSystem) (action : Action)
    (before : CancelledUnfinished system) : CancelledUnfinished (step concurrency lease system action) := by
  intro build member cancelled
  obtain ⟨rewrite, added, effect⟩ := step_effect concurrency lease system action
  rw [← Table.mem_rows, effect.rows] at member
  rcases List.mem_append.mp member with moved | new
  · obtain ⟨old, oldMember, rfl⟩ := List.mem_map.mp moved
    exact (effect.moves old oldMember).unfinished (before old oldMember) cancelled
  · obtain ⟨created, sequence, rfl⟩ := effect.fresh build new
    cases cancelled

/-- What one step says about the end of a build holds for any number of steps. -/
theorem settled_run (system : AdmissionSystem) (actions : List Action) {build : Build}
    (member : build ∈ system.builds) :
    ∃ final ∈ (run (step concurrency lease) system actions).builds, final.id = build.id ∧
      (build.status.terminal = true → final.status = build.status) ∧
      (build.cancellationRequestedAt.isSome = true → final.status = build.status ∨ final.status = .cancelled) := by
  induction actions generalizing system build with
  | nil => exact ⟨build, member, rfl, fun _ => rfl, fun _ => .inl rfl⟩
  | cons action actions ih =>
    obtain ⟨next, nextMember, same, law, -⟩ := buildLaw_step concurrency lease system action build member
    obtain ⟨final, finalMember, finalSame, absorbing, cancelling⟩ :=
      ih (step concurrency lease system action) nextMember
    refine ⟨final, finalMember, finalSame.trans same, ?_, ?_⟩
    · intro terminal
      have kept := law.absorbing terminal
      rw [absorbing (by rw [kept]; exact terminal), kept]
    · intro requested
      obtain ⟨stillRequested, kept | cancelled⟩ := law.cancelling requested
      · rw [← kept]
        exact cancelling stillRequested
      · right
        rw [absorbing (by rw [cancelled]; rfl), cancelled]

/-- In every run each step moves a build at most one status forward or to `FAILED` or `CANCELLED`; the
terminal statuses are absorbing; a build whose cancellation is requested stays where it is until it is
`CANCELLED`; results change in their own stage by the holder of the live token, except that the
acknowledgement of a cancellation drops manifest and artifact; and a `CANCELLED` build has neither. -/
theorem build_state_machine (concurrency : Nat) (lease : Duration) (actions : List Action) :
    Along (step concurrency lease) (BuildLaw ResultLaw concurrency lease) AdmissionSystem.empty actions ∧
    (∀ before after, actions = before ++ after →
      ∀ build ∈ (run (step concurrency lease) AdmissionSystem.empty before).builds,
      ∃ final ∈ (run (step concurrency lease) AdmissionSystem.empty actions).builds, final.id = build.id ∧
        (build.status.terminal = true → final.status = build.status) ∧
        (build.cancellationRequestedAt.isSome = true →
          final.status = build.status ∨ final.status = .cancelled)) ∧
    ∀ build ∈ (run (step concurrency lease) AdmissionSystem.empty actions).builds,
      build.status = .cancelled → Unfinished build := by
  refine ⟨along_of_forall (buildLaw_step concurrency lease) _ actions, ?_, ?_⟩
  · rintro before after rfl build member
    rw [run_append]
    exact settled_run _ after member
  · exact run_invariant CancelledUnfinished cancelledUnfinished_step (by intro _ member; cases member) actions

/-! ## Dropped results -/

/-- Build 1 is admitted with token 0, compiled and brought to `VALIDATING`, and its cancellation is
requested. -/
def cancelledWhileValidating : List Action :=
  [.create ⟨1, 1, none, 7, 0⟩, .claimBegin, .claimExpire, .claimCount, .claimSelect fun _ => false, .claimCommit] ++
    ([.transition .queued .ingesting, .transition .ingesting .parsing, .transition .parsing .indexing,
      .transition .indexing .analyzing, .transition .analyzing .compiling, .setManifest "sha256" "manifests/1",
      .transition .compiling .validating] : List WorkerCall).map (.worker 1 0 1) ++
    [.requestCancellation 1 7 2]

/-- The acknowledgement drops the manifest of a build that is past `COMPILING`. -/
theorem acknowledgement_drops_manifest :
    ¬ Along (step 1 300) (BuildLaw StageLaw 1 300) AdmissionSystem.empty
      (cancelledWhileValidating ++ [.worker 1 0 3 .acknowledgeCancellation]) := by
  intro along
  have last := along.split.1
  have before : ((run (step 1 300) AdmissionSystem.empty cancelledWhileValidating).builds.get? 1).map
      (fun build => (build.status, build.manifestSha256)) = some (.validating, some "sha256") := by decide +kernel
  have after : ((step 1 300 (run (step 1 300) AdmissionSystem.empty cancelledWhileValidating)
      (.worker 1 0 3 .acknowledgeCancellation)).builds.get? 1).map Build.manifestSha256 = some none := by
    decide +kernel
  rw [Option.map_eq_some_iff] at before after
  obtain ⟨old, oldFound, fields⟩ := before
  obtain ⟨final, finalFound, dropped⟩ := after
  simp only [Prod.mk.injEq] at fields
  obtain ⟨new, newMember, same, -, law⟩ := last old (Table.mem_of_get? oldFound)
  have newIs : new = final := Table.eq_of_key newMember (Table.mem_of_get? finalFound)
    (same.trans ((Table.key_of_get? oldFound).trans (Table.key_of_get? finalFound).symm))
  have stage := (law.manifest (by
    rw [newIs, dropped, fields.2]
    exact fun equal => by cases equal)).2
  rw [fields.1] at stage
  cases stage

end Mcplica.Builds
