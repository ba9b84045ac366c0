import Mathlib.Data.Prod.Lex
import Mcplica.Cleanup.Jobs
import Mcplica.Library.Locking

/-! # Locks of the cleanup transactions

The worker locks the job of a target, the target and then the object that the target names. The upload that has armed a
guard locks the object first, and the job and its target after it. -/

namespace Mcplica.Cleanup

open Mcplica.Domain Mcplica.Library Mcplica.Library.Locking

/-! ## Programs -/

inductive CleanupLock where
  | job (jobId : Uuid)
  | target (targetId : Uuid)
  /-- an advisory lock, which is a number -/
  | advisory (number : Int)
  | project (projectId : Uuid)
  deriving Repr, DecidableEq

/-- A target as `resolve_orphan_guard` reads it, with what `object_is_referenced` is going to say. -/
structure GuardTarget where
  targetId : Uuid
  storageKey : Option Text
  referenced : Bool
  deriving Repr, DecidableEq

/-- The transactions, with what they are going to read. -/
inductive CleanupTransaction where
  /-- `claimed` is whether the worker still has the claim when the rows are locked. -/
  | process (targetId : Uuid) (subject : CleanupSubject) (claimed : Bool)
  /-- the transaction of `_process` after an exception -/
  | markFailed (targetId : Uuid)
  | resolveOrphanGuard (jobId : Uuid) (targets : List GuardTarget)
  /-- the due targets in the order in which they are considered -/
  | claimDueTargets (due : List Uuid)
  /-- the targets in the order in which the update finds them -/
  | releaseOrphanGuard (jobId : Uuid) (targets : List Uuid)
  /-- `_persist_version` and `_persist_created_source`; source rows are locked under the lock of their project. -/
  | persistUpload (storageKey : Text) (projectId : Uuid)
  deriving Repr, DecidableEq

/-- The columns that no transaction changes, and the hash of the database. -/
structure CleanupSchema where
  jobOf : Uuid → Uuid
  hashtextextended : Text → Int

namespace CleanupSchema

variable (schema : CleanupSchema)

/-- `lock_object_reference` -/
def objectLock (storageKey : Text) : CleanupLock :=
  .advisory (schema.hashtextextended (("mcplica:object-reference:" : Text) ++ storageKey))

/-- `lock_vector_reference` -/
def vectorLock (collectionName : Text) (projectId generationId : Uuid) : CleanupLock :=
  .advisory (schema.hashtextextended (("mcplica:vector-reference:" : Text) ++ collectionName ++ ':' :: Text.ofUuid projectId ++
    ':' :: Text.ofUuid generationId))

def subjectLock : CleanupSubject → CleanupLock
  | .object storageKey => schema.objectLock storageKey
  | .vectorGeneration collectionName projectId generationId => schema.vectorLock collectionName projectId generationId

/-- `_lock_job_and_target` -/
def lockJobAndTarget (targetId : Uuid) : List (Statement CleanupLock) :=
  [.await (.job (schema.jobOf targetId)), .await (.target targetId)]

/-- One round of `resolve_orphan_guard`. -/
def resolveTarget (target : GuardTarget) : List (Statement CleanupLock) :=
  match target.storageKey with
  | none => []
  | some storageKey =>
    .await (schema.objectLock storageKey) :: if target.referenced then schema.lockJobAndTarget target.targetId else []

/-- One round of `claim_due_targets`: rows that are locked are skipped. -/
def claimTarget (targetId : Uuid) : List (Statement CleanupLock) :=
  [.attempt (.job (schema.jobOf targetId)) 1, .attempt (.target targetId) 0]

def program : CleanupTransaction → List (Statement CleanupLock)
  | .process targetId subject claimed => schema.lockJobAndTarget targetId ++
    if claimed then .await (schema.subjectLock subject) :: schema.lockJobAndTarget targetId else []
  | .markFailed targetId => schema.lockJobAndTarget targetId
  | .resolveOrphanGuard jobId targets =>
    (targets.filter fun target => schema.jobOf target.targetId = jobId).flatMap schema.resolveTarget
  | .claimDueTargets due => due.flatMap schema.claimTarget
  | .releaseOrphanGuard jobId targets =>
    (targets.filter fun targetId => schema.jobOf targetId = jobId).map fun targetId => .await (.target targetId)
  | .persistUpload storageKey projectId => [.await (schema.objectLock storageKey), .await (.project projectId)]

end CleanupSchema

/-! ## The order of locks -/

/-- Jobs come before targets, targets before objects, and locks of one kind are in the order of their numbers. -/
def CleanupLock.rank : CleanupLock → ℕ ×ₗ ℤ
  | .job jobId => toLex (0, (jobId : ℤ))
  | .target targetId => toLex (1, (targetId : ℤ))
  | .advisory number => toLex (2, number)
  | .project projectId => toLex (3, (projectId : ℤ))

abbrev LockSystem := System CleanupTransaction CleanupLock

abbrev OpenTransaction := Locking.Transaction CleanupTransaction CleanupLock

/-- A resolution waits in order, for a transaction that goes on, or for a job whose holder does not wait for an object. -/
inductive Harmless (system : LockSystem) (transaction other : OpenTransaction) : Prop
  | ordered : Ordered CleanupLock.rank transaction → Harmless system transaction other
  | moving : (∀ next, ¬ Waits system other next) → Harmless system transaction other
  | row {jobId : Uuid} : transaction.wanted = some (.job jobId) →
      (∀ number, other.wanted ≠ some (.advisory number)) → Harmless system transaction other

def isGuardTransaction : CleanupTransaction → Bool
  | .resolveOrphanGuard _ _ | .releaseOrphanGuard _ _ => true
  | _ => false

/-- What is asked of a resolution or release of a guard that has to wait. -/
def Orderly (system : LockSystem) : Prop :=
  ∀ transaction other, Waits system transaction other → isGuardTransaction transaction.request = true →
    Harmless system transaction other

/-! ## What a transaction knows of itself -/

namespace CleanupSchema

variable {schema : CleanupSchema} {transaction : OpenTransaction}

/-- A claim holds the job of every target that it holds. -/
structure Claims (schema : CleanupSchema) (transaction : OpenTransaction) : Prop where
  remaining : (∃ later : List Uuid, transaction.remaining = later.flatMap schema.claimTarget) ∨
    ∃ (targetId : Uuid) (later : List Uuid), transaction.remaining =
      .attempt (.target targetId) 0 :: later.flatMap schema.claimTarget ∧ .job (schema.jobOf targetId) ∈ transaction.locks
  locks : ∀ lock ∈ transaction.locks, (∃ jobId, lock = .job jobId) ∨
    ∃ targetId, lock = .target targetId ∧ .job (schema.jobOf targetId) ∈ transaction.locks

theorem local_claims : Local schema.program fun transaction =>
    ∀ due, transaction.request = .claimDueTargets due → Claims schema transaction where
  begins id request due isClaim := by
    dsimp only at isClaim
    subst isClaim
    exact ⟨.inl ⟨due, rfl⟩, fun _ member => (List.not_mem_nil member).elim⟩
  awaits transaction lock rest isNext holds due isClaim := by
    obtain ⟨⟨later, isLater⟩ | ⟨targetId, later, isLater, -⟩, -⟩ := holds due isClaim
    · rw [isLater] at isNext
      cases later <;> cases isNext
    · rw [isLater] at isNext
      cases isNext
  takes transaction lock guarded rest isNext holds due isClaim := by
    obtain ⟨⟨later, isLater⟩ | ⟨targetId, later, isLater, hasJob⟩, locks⟩ := holds due isClaim
    · rw [isLater] at isNext
      cases later with
      | nil => cases isNext
      | cons targetId later =>
        cases isNext
        refine ⟨.inr ⟨targetId, later, rfl, List.mem_cons_self⟩, ?_⟩
        intro other member
        rcases List.mem_cons.mp member with rfl | before
        · exact .inl ⟨_, rfl⟩
        · refine (locks other before).imp_right ?_
          rintro ⟨otherTarget, isTarget, hasOther⟩
          exact ⟨otherTarget, isTarget, List.mem_cons_of_mem _ hasOther⟩
    · rw [isLater] at isNext
      cases isNext
      refine ⟨.inl ⟨later, rfl⟩, ?_⟩
      intro other member
      rcases List.mem_cons.mp member with rfl | before
      · exact .inr ⟨targetId, rfl, List.mem_cons_of_mem _ hasJob⟩
      · refine (locks other before).imp_right ?_
        rintro ⟨otherTarget, isTarget, hasOther⟩
        exact ⟨otherTarget, isTarget, List.mem_cons_of_mem _ hasOther⟩
  skips transaction lock guarded rest isNext holds due isClaim := by
    obtain ⟨⟨later, isLater⟩ | ⟨targetId, later, isLater, -⟩, locks⟩ := holds due isClaim
    · rw [isLater] at isNext
      cases later with
      | nil => cases isNext
      | cons targetId later =>
        cases isNext
        exact ⟨.inl ⟨later, rfl⟩, locks⟩
    · rw [isLater] at isNext
      cases isNext
      exact ⟨.inl ⟨later, rfl⟩, locks⟩

/-- Only a claim takes locks without waiting. -/
theorem awaits_program {request : CleanupTransaction} (noClaim : ∀ due, request ≠ .claimDueTargets due) :
    ∀ statement ∈ schema.program request, ∃ lock, statement = .await lock := by
  have pair : ∀ targetId, ∀ statement ∈ schema.lockJobAndTarget targetId, ∃ lock, statement = .await lock := by
    intro targetId statement member
    simp only [lockJobAndTarget, List.mem_cons, List.not_mem_nil, or_false] at member
    rcases member with rfl | rfl <;> exact ⟨_, rfl⟩
  intro statement member
  cases request with
  | process targetId subject claimed =>
    rcases List.mem_append.mp member with rows | later
    · exact pair targetId statement rows
    · cases claimed with
      | false => cases later
      | true =>
        rcases List.mem_cons.mp later with rfl | rows
        · exact ⟨_, rfl⟩
        · exact pair targetId statement rows
  | markFailed targetId => exact pair targetId statement member
  | resolveOrphanGuard jobId targets =>
    obtain ⟨target, -, ofTarget⟩ := List.mem_flatMap.mp member
    unfold resolveTarget at ofTarget
    split at ofTarget
    · cases ofTarget
    · rcases List.mem_cons.mp ofTarget with rfl | rows
      · exact ⟨_, rfl⟩
      · split at rows
        · exact pair target.targetId statement rows
        · cases rows
  | claimDueTargets due => exact absurd rfl (noClaim due)
  | releaseOrphanGuard jobId targets =>
    obtain ⟨targetId, -, rfl⟩ := List.mem_map.mp member
    exact ⟨_, rfl⟩
  | persistUpload storageKey projectId =>
    simp only [program, List.mem_cons, List.not_mem_nil, or_false] at member
    rcases member with rfl | rfl <;> exact ⟨_, rfl⟩

/-- What every open transaction knows of itself. -/
structure Knows (schema : CleanupSchema) (transaction : OpenTransaction) : Prop where
  claims : ∀ due, transaction.request = .claimDueTargets due → Claims schema transaction
  passed : (∀ due, transaction.request ≠ .claimDueTargets due) → Passed schema.program transaction

theorem sound_run (actions : List (Action CleanupTransaction)) :
    Sound (Knows schema) (run (Locking.step schema.program) Table.empty actions) := by
  have sound := Sound.run ((@local_claims schema).and local_passed) actions
  refine ⟨sound.exclusive, fun transaction member => ?_⟩
  obtain ⟨claims, passes⟩ := sound.local_ transaction member
  exact ⟨claims, fun noClaim => passes (awaits_program noClaim)⟩

/-! ## Stages -/

/-- Where a worker can be in its transaction. -/
inductive WorkerStage (schema : CleanupSchema) (targetId : Uuid) (transaction : OpenTransaction) : Prop
  | fresh : (∀ lock, lock ∉ transaction.locks) → WorkerStage schema targetId transaction
  | row : transaction.wanted = some (.target targetId) →
      (∀ lock, lock ∈ transaction.locks ↔ lock = .job (schema.jobOf targetId)) → WorkerStage schema targetId transaction
  | object {number : Int} : transaction.wanted = some (.advisory number) →
      (∀ lock, lock ∈ transaction.locks ↔ lock = .job (schema.jobOf targetId) ∨ lock = .target targetId) →
      WorkerStage schema targetId transaction
  /-- It has all its locks. -/
  | complete : (∀ lock, transaction.wanted = some lock → lock ∈ transaction.locks) →
      .job (schema.jobOf targetId) ∈ transaction.locks →
      (∀ otherTarget, .target otherTarget ∈ transaction.locks → otherTarget = targetId) →
      WorkerStage schema targetId transaction

theorem wanted_eq_some {lock : CleanupLock} (isWanted : transaction.wanted = some lock) :
    ∃ rest, transaction.remaining = .await lock :: rest := by
  unfold Transaction.wanted at isWanted
  split at isWanted
  · rename_i isNext
    cases isWanted
    exact ⟨_, isNext⟩
  · cases isWanted

theorem wanted_of_remaining {lock : CleanupLock} {rest : List (Statement CleanupLock)}
    (isNext : transaction.remaining = .await lock :: rest) : transaction.wanted = some lock := by
  rw [Transaction.wanted, isNext]

/-- A worker locks its rows, and perhaps an object and the rows again. -/
theorem workerStage_of_passed {targetId : Uuid} {tail : List (Statement CleanupLock)}
    (isProgram : schema.program transaction.request = schema.lockJobAndTarget targetId ++ tail)
    (isTail : tail = [] ∨ ∃ number, tail = .await (.advisory number) :: schema.lockJobAndTarget targetId)
    (passes : Passed schema.program transaction) : WorkerStage schema targetId transaction := by
  obtain ⟨passed, split, held⟩ := passes
  rw [isProgram, lockJobAndTarget] at split
  rcases passed with _ | ⟨first, _ | ⟨second, more⟩⟩
  · exact .fresh fun lock => by simp [held]
  · simp only [List.cons_append, List.nil_append, List.cons.injEq] at split
    obtain ⟨rfl, isNext⟩ := split
    refine .row (wanted_of_remaining isNext.symm) fun lock => ?_
    simp [held]
  · simp only [List.cons_append, List.nil_append, List.cons.injEq] at split
    obtain ⟨rfl, rfl, split⟩ := split
    rcases isTail with rfl | ⟨number, rfl⟩
    · have ended : more = [] ∧ transaction.remaining = [] := List.append_eq_nil_iff.mp split.symm
      refine .complete (fun lock isWanted => ?_) (by simp [held]) fun otherTarget member => ?_
      · obtain ⟨rest, isNext⟩ := wanted_eq_some isWanted
        rw [ended.2] at isNext
        cases isNext
      · simpa [held, ended.1] using member
    · rcases more with _ | ⟨third, more⟩
      · refine .object (wanted_of_remaining split.symm) fun lock => ?_
        simp [held]
      · -- the rows are locked already
        simp only [List.cons_append, List.cons.injEq] at split
        obtain ⟨rfl, split⟩ := split
        have isRow : ∀ statement ∈ more ++ transaction.remaining,
            statement = .await (.job (schema.jobOf targetId)) ∨ statement = .await (.target targetId) := by
          intro statement member
          have isMember : statement ∈ schema.lockJobAndTarget targetId := split ▸ member
          simpa [lockJobAndTarget] using isMember
        refine .complete (fun lock isWanted => ?_) (by simp [held]) fun otherTarget member => ?_
        · obtain ⟨rest, isNext⟩ := wanted_eq_some isWanted
          rcases isRow (.await lock) (by simp [isNext]) with same | same <;> cases same <;> simp [held]
        · have isPassed := (held _).mp member
          simp only [List.mem_cons, Statement.await.injEq, CleanupLock.target.injEq, reduceCtorEq, false_or] at isPassed
          rcases isPassed with same | later
          · exact same
          · rcases isRow _ (List.mem_append_left _ later) with same | same <;> cases same
            rfl

/-- The target of a transaction of the worker. -/
def workerTarget? : CleanupTransaction → Option Uuid
  | .process targetId _ _ | .markFailed targetId => some targetId
  | _ => none

theorem workerStage {targetId : Uuid} (knows : Knows schema transaction)
    (isWorker : workerTarget? transaction.request = some targetId) : WorkerStage schema targetId transaction := by
  cases isRequest : transaction.request with
  | process otherTarget subject claimed =>
    rw [isRequest] at isWorker
    cases isWorker
    refine workerStage_of_passed (congrArg schema.program isRequest) ?_ (knows.passed (by simp [isRequest]))
    cases claimed with
    | false => exact .inl rfl
    | true => cases subject <;> exact .inr ⟨_, rfl⟩
  | markFailed otherTarget =>
    rw [isRequest] at isWorker
    cases isWorker
    exact workerStage_of_passed ((congrArg schema.program isRequest).trans (List.append_nil _).symm) (.inl rfl)
      (knows.passed (by simp [isRequest]))
  | resolveOrphanGuard | claimDueTargets | releaseOrphanGuard | persistUpload =>
    rw [isRequest] at isWorker
    cases isWorker

theorem rank_lt_of_kind {kind other : ℕ} {number otherNumber : ℤ} (earlier : kind < other) :
    toLex (kind, number) < toLex (other, otherNumber) :=
  Prod.Lex.toLex_lt_toLex.mpr (.inl earlier)

/-- An upload locks its object first. -/
theorem ordered_of_upload {storageKey : Text} {projectId : Uuid} (knows : Knows schema transaction)
    (isUpload : transaction.request = .persistUpload storageKey projectId) : Ordered CleanupLock.rank transaction ∧
      ∀ lock ∈ transaction.locks, lock = schema.objectLock storageKey ∨ lock = .project projectId := by
  obtain ⟨passed, split, held⟩ := knows.passed (by simp [isUpload])
  rw [isUpload, program] at split
  have isStatement : ∀ statement ∈ passed ++ transaction.remaining,
      statement = .await (schema.objectLock storageKey) ∨ statement = .await (.project projectId) := by
    intro statement member
    simpa [← split] using member
  constructor
  · intro lock isWanted other isHeld
    obtain ⟨rest, isNext⟩ := wanted_eq_some isWanted
    rw [isNext] at split
    rcases passed with _ | ⟨first, _ | ⟨second, more⟩⟩
    · simp [held] at isHeld
    · simp only [List.cons_append, List.nil_append, List.cons.injEq, Statement.await.injEq] at split
      obtain ⟨rfl, rfl, -⟩ := split
      obtain rfl : other = schema.objectLock storageKey := by simpa [held] using isHeld
      exact rank_lt_of_kind (show 2 < 3 by decide)
    · simp at split
  · intro lock isHeld
    simpa using isStatement (.await lock) (List.mem_append_left _ ((held lock).mp isHeld))

/-- A release takes targets of its job only. -/
theorem target_of_release {jobId : Uuid} {targets : List Uuid} (knows : Knows schema transaction)
    (isRelease : transaction.request = .releaseOrphanGuard jobId targets) :
    (∀ lock, transaction.wanted = some lock → ∃ targetId, lock = .target targetId ∧ schema.jobOf targetId = jobId) ∧
      ∀ lock ∈ transaction.locks, ∃ targetId, lock = .target targetId ∧ schema.jobOf targetId = jobId := by
  obtain ⟨passed, split, held⟩ := knows.passed (by simp [isRelease])
  rw [isRelease, program] at split
  have isStatement : ∀ lock, .await lock ∈ passed ++ transaction.remaining →
      ∃ targetId, lock = .target targetId ∧ schema.jobOf targetId = jobId := by
    intro lock member
    rw [← split] at member
    obtain ⟨targetId, isTarget, same⟩ := List.mem_map.mp member
    cases same
    exact ⟨targetId, rfl, of_decide_eq_true (List.mem_filter.mp isTarget).2⟩
  constructor
  · intro lock isWanted
    obtain ⟨rest, isNext⟩ := wanted_eq_some isWanted
    exact isStatement lock (by simp [isNext])
  · exact fun lock isHeld => isStatement lock (List.mem_append_left _ ((held lock).mp isHeld))

/-- A round of a resolution locks an object and then, perhaps, the rows of a target. -/
theorem resolveTarget_cases (target : GuardTarget) : schema.resolveTarget target = [] ∨ ∃ number,
    schema.resolveTarget target = [.await (.advisory number)] ∨
    schema.resolveTarget target = .await (.advisory number) :: schema.lockJobAndTarget target.targetId := by
  unfold resolveTarget
  split
  · exact .inl rfl
  · rename_i storageKey _
    refine .inr ⟨schema.hashtextextended (("mcplica:object-reference:" : Text) ++ storageKey), ?_⟩
    split
    · exact .inr rfl
    · exact .inl rfl

/-- Within a round the job has been passed before the target, and the object before the job. -/
theorem passed_of_round {target : GuardTarget} {passed inRound : List (Statement CleanupLock)}
    (split : schema.resolveTarget target = passed ++ inRound) :
    (∀ targetId, .await (.target targetId) ∈ passed → .await (.job (schema.jobOf targetId)) ∈ passed) ∧
      ∀ targetId rest, inRound = .await (.target targetId) :: rest → ∃ number, .await (.advisory number) ∈ passed := by
  rcases @resolveTarget_cases schema target with same | ⟨number, same | same⟩
  · obtain ⟨rfl, rfl⟩ := List.append_eq_nil_iff.mp (split.symm.trans same)
    simp
  · rw [same] at split
    rcases passed with _ | ⟨first, passed⟩
    · refine ⟨by simp, fun targetId rest isNext => ?_⟩
      cases split.trans isNext
    · simp only [List.cons_append, List.cons.injEq] at split
      obtain ⟨rfl, split⟩ := split
      obtain ⟨rfl, rfl⟩ := List.append_eq_nil_iff.mp split.symm
      simp
  · rw [same, lockJobAndTarget] at split
    rcases passed with _ | ⟨first, _ | ⟨second, _ | ⟨third, passed⟩⟩⟩
    · refine ⟨by simp, fun targetId rest isNext => ?_⟩
      cases split.trans isNext
    · simp only [List.cons_append, List.nil_append, List.cons.injEq] at split
      obtain ⟨rfl, isNext⟩ := split
      exact ⟨by simp, fun _ _ _ => ⟨number, List.mem_cons_self⟩⟩
    · simp only [List.cons_append, List.nil_append, List.cons.injEq] at split
      obtain ⟨rfl, rfl, isNext⟩ := split
      exact ⟨by simp, fun _ _ _ => ⟨number, List.mem_cons_self⟩⟩
    · simp only [List.cons_append, List.cons.injEq] at split
      obtain ⟨rfl, rfl, rfl, split⟩ := split
      obtain ⟨rfl, rfl⟩ := List.append_eq_nil_iff.mp split.symm
      simp

/-- Wherever a resolution is, it has passed the job of each target it has passed, and an object before any target. -/
theorem passed_of_rounds {own : List GuardTarget} {passed remaining : List (Statement CleanupLock)}
    (split : own.flatMap schema.resolveTarget = passed ++ remaining) :
    (∀ targetId, .await (.target targetId) ∈ passed → .await (.job (schema.jobOf targetId)) ∈ passed) ∧
      ∀ targetId rest, remaining = .await (.target targetId) :: rest → ∃ number, .await (.advisory number) ∈ passed := by
  induction own generalizing passed with
  | nil =>
    obtain ⟨rfl, rfl⟩ := List.append_eq_nil_iff.mp split.symm
    simp
  | cons target own ih =>
    rw [List.flatMap_cons] at split
    rcases List.append_eq_append_iff.mp split with ⟨later, isPassed, isLater⟩ | ⟨inRound, isRound, isRemaining⟩
    · -- the round is over
      have round := (@passed_of_round schema target _ _ (List.append_nil _).symm).1
      obtain ⟨jobs, objects⟩ := ih isLater
      subst isPassed
      constructor
      · intro targetId member
        rw [List.mem_append] at member ⊢
        exact member.imp (round targetId) (jobs targetId)
      · intro targetId rest isNext
        obtain ⟨number, member⟩ := objects targetId rest isNext
        exact ⟨number, List.mem_append_right _ member⟩
    · obtain ⟨jobs, objects⟩ := passed_of_round isRound
      refine ⟨jobs, fun targetId rest isNext => ?_⟩
      cases inRound with
      | nil =>
        obtain ⟨number, member⟩ := (@ih [] isRemaining.symm).2 targetId rest isNext
        cases member
      | cons next inRound =>
        rw [isRemaining] at isNext
        obtain ⟨rfl, -⟩ := List.cons.inj isNext
        exact objects targetId inRound rfl

theorem await_of_rounds {own : List GuardTarget} {lock : CleanupLock} (member : .await lock ∈ own.flatMap schema.resolveTarget) :
    (∃ number, lock = .advisory number) ∨ ∃ target ∈ own, lock = .job (schema.jobOf target.targetId) ∨
      lock = .target target.targetId := by
  obtain ⟨target, isOwn, ofTarget⟩ := List.mem_flatMap.mp member
  rcases @resolveTarget_cases schema target with same | ⟨number, same | same⟩ <;> rw [same] at ofTarget
  · cases ofTarget
  · exact .inl ⟨number, by simpa using ofTarget⟩
  · rcases List.mem_cons.mp ofTarget with isObject | rows
    · exact .inl ⟨number, Statement.await.inj isObject⟩
    · exact .inr ⟨target, isOwn, by simpa [lockJobAndTarget] using rows⟩

/-- A resolution takes the rows of its job only, and before them an object. -/
theorem rows_of_resolve {jobId : Uuid} {targets : List GuardTarget} (knows : Knows schema transaction)
    (isResolve : transaction.request = .resolveOrphanGuard jobId targets) :
    (∀ targetId, .target targetId ∈ transaction.locks → .job (schema.jobOf targetId) ∈ transaction.locks) ∧
      (∀ targetId, transaction.wanted = some (.target targetId) → ∃ number, .advisory number ∈ transaction.locks) ∧
      (∀ lock, transaction.wanted = some lock → (∃ number, lock = .advisory number) ∨ lock = .job jobId ∨
        ∃ targetId, lock = .target targetId) ∧
      ∀ otherJob, .job otherJob ∈ transaction.locks → otherJob = jobId := by
  obtain ⟨passed, split, held⟩ := knows.passed (by simp [isResolve])
  rw [isResolve, program] at split
  obtain ⟨jobs, objects⟩ := passed_of_rounds split
  have isStatement : ∀ lock, .await lock ∈ passed ++ transaction.remaining → (∃ number, lock = .advisory number) ∨
      lock = .job jobId ∨ ∃ targetId, lock = .target targetId := by
    intro lock member
    rw [← split] at member
    refine (await_of_rounds member).imp_right ?_
    rintro ⟨target, isOwn, rfl | rfl⟩
    · exact .inl (congrArg _ (of_decide_eq_true (List.mem_filter.mp isOwn).2))
    · exact .inr ⟨_, rfl⟩
  refine ⟨?_, ?_, ?_, ?_⟩
  · intro targetId isHeld
    rw [held] at isHeld ⊢
    exact jobs targetId isHeld
  · intro targetId isWanted
    obtain ⟨rest, isNext⟩ := wanted_eq_some isWanted
    obtain ⟨number, member⟩ := objects targetId rest isNext
    exact ⟨number, (held _).mpr member⟩
  · intro lock isWanted
    obtain ⟨rest, isNext⟩ := wanted_eq_some isWanted
    exact isStatement lock (by simp [isNext])
  · intro otherJob isHeld
    rcases isStatement _ (List.mem_append_left _ ((held _).mp isHeld)) with ⟨_, same⟩ | same | ⟨_, same⟩ <;> cases same
    rfl

/-! ## No deadlock -/

variable {system : LockSystem}

/-- A lock that another transaction holds is not held. -/
theorem not_held_of_waits (sound : Sound (Knows schema) system) {other : OpenTransaction} {lock : CleanupLock}
    (waits : Waits system transaction other) (isWanted : transaction.wanted = some lock) : lock ∉ transaction.locks := by
  obtain ⟨isOpen, isOther, different, wantedLock, isLock, isHeld⟩ := waits
  cases isWanted.symm.trans isLock
  exact fun held => different (sound.exclusive other isOther transaction isOpen lock isHeld held)

theorem wanted_of_claim {due : List Uuid} (knows : Knows schema transaction)
    (isClaim : transaction.request = .claimDueTargets due) : transaction.wanted = none := by
  cases isWanted : transaction.wanted with
  | none => rfl
  | some lock =>
    obtain ⟨rest, isNext⟩ := wanted_eq_some isWanted
    obtain ⟨later, isLater⟩ | ⟨targetId, later, isLater, -⟩ := (knows.claims due isClaim).remaining
    · rw [isLater] at isNext
      cases later <;> cases isNext
    · rw [isLater] at isNext
      cases isNext

/-- Workers, claims and uploads wait in order. -/
theorem ordered_of_waits (sound : Sound (Knows schema) system) {other : OpenTransaction}
    (waits : Waits system transaction other) (noGuard : isGuardTransaction transaction.request = false) :
    Ordered CleanupLock.rank transaction := by
  have knows := sound.local_ transaction waits.1
  have worker : ∀ targetId, workerTarget? transaction.request = some targetId → Ordered CleanupLock.rank transaction := by
    intro targetId isWorker lock isWanted held isHeld
    cases workerStage knows isWorker with
    | fresh nothing => exact absurd isHeld (nothing held)
    | row isTarget locks =>
      cases isTarget.symm.trans isWanted
      rw [(locks held).mp isHeld]
      exact rank_lt_of_kind (show 0 < 1 by decide)
    | object isObject locks =>
      cases isObject.symm.trans isWanted
      rcases (locks held).mp isHeld with rfl | rfl
      · exact rank_lt_of_kind (show 0 < 2 by decide)
      · exact rank_lt_of_kind (show 1 < 2 by decide)
    | complete hasAll => exact absurd (hasAll lock isWanted) (not_held_of_waits sound waits isWanted)
  cases isRequest : transaction.request with
  | process targetId => exact worker targetId (by rw [isRequest]; rfl)
  | markFailed targetId => exact worker targetId (by rw [isRequest]; rfl)
  | persistUpload storageKey projectId => exact (ordered_of_upload knows isRequest).1
  | claimDueTargets due =>
    intro lock isWanted
    cases (wanted_of_claim knows isRequest).symm.trans isWanted
  | resolveOrphanGuard | releaseOrphanGuard =>
    rw [isRequest] at noGuard
    cases noGuard

/-- Who holds a target, other than a release, holds its job. -/
theorem job_of_target (knows : Knows schema transaction) {targetId : Uuid} (isHeld : .target targetId ∈ transaction.locks) :
    (∃ jobId targets, transaction.request = .releaseOrphanGuard jobId targets) ∨
      .job (schema.jobOf targetId) ∈ transaction.locks := by
  have worker : ∀ own, workerTarget? transaction.request = some own → .job (schema.jobOf targetId) ∈ transaction.locks := by
    intro own isWorker
    cases workerStage knows isWorker with
    | fresh nothing => exact absurd isHeld (nothing _)
    | row _ locks => cases (locks _).mp isHeld
    | object _ locks =>
      rcases (locks _).mp isHeld with same | same <;> cases same
      exact (locks _).mpr (.inl rfl)
    | complete _ hasJob onlyOwn =>
      rw [onlyOwn targetId isHeld]
      exact hasJob
  cases isRequest : transaction.request with
  | process own => exact .inr (worker own (by rw [isRequest]; rfl))
  | markFailed own => exact .inr (worker own (by rw [isRequest]; rfl))
  | resolveOrphanGuard jobId targets => exact .inr ((rows_of_resolve knows isRequest).1 targetId isHeld)
  | claimDueTargets due =>
    rcases (knows.claims due isRequest).locks _ isHeld with ⟨jobId, same⟩ | ⟨own, same, hasJob⟩ <;> cases same
    exact .inr hasJob
  | releaseOrphanGuard jobId targets => exact .inl ⟨jobId, targets, rfl⟩
  | persistUpload storageKey projectId =>
    rcases (ordered_of_upload knows isRequest).2 _ isHeld with same | same <;> cases same

/-- Whoever waits, directly or through others, for the release of a target whose job is held elsewhere waits for a release:
the transaction that holds the job holds no target. -/
theorem release_of_reach (sound : Sound (Knows schema) system) {holder first : OpenTransaction} {targetId : Uuid}
    (isOpen : holder ∈ system)
    (locks : ∀ lock, lock ∈ holder.locks ↔ lock = .job (schema.jobOf targetId)) (isFirst : first ∈ system)
    (isHeld : .target targetId ∈ first.locks) {other : OpenTransaction}
    (reach : Relation.ReflTransGen (Waits system) first other) :
    ∃ targets, other.request = .releaseOrphanGuard (schema.jobOf targetId) targets := by
  -- a target of the job is held by a release of the job
  have released : ∀ transaction ∈ system, ∀ ownTarget, .target ownTarget ∈ transaction.locks →
      schema.jobOf ownTarget = schema.jobOf targetId →
      ∃ targets, transaction.request = .releaseOrphanGuard (schema.jobOf targetId) targets := by
    intro transaction member ownTarget holdsTarget sameJob
    rcases job_of_target (sound.local_ transaction member) holdsTarget with ⟨jobId, targets, isRelease⟩ | hasJob
    · obtain ⟨otherTarget, same, isJob⟩ := (target_of_release (sound.local_ transaction member) isRelease).2 _ holdsTarget
      cases same
      exact ⟨targets, by rw [isRelease, ← isJob, sameJob]⟩
    · rw [sameJob] at hasJob
      have isHolder : transaction = holder :=
        Table.eq_of_key member isOpen (sound.exclusive transaction member holder isOpen _ hasJob ((locks _).mpr rfl))
      rw [isHolder] at holdsTarget
      cases (locks _).mp holdsTarget
  induction reach with
  | refl => exact released first isFirst targetId isHeld rfl
  | tail _ waits ih =>
    obtain ⟨targets, isRelease⟩ := ih
    obtain ⟨isMiddle, isLast, -, lock, isWanted, holdsLock⟩ := waits
    obtain ⟨wantedTarget, rfl, isJob⟩ := (target_of_release (sound.local_ _ isMiddle) isRelease).1 lock isWanted
    exact released _ isLast wantedTarget holdsLock isJob

/-- In a cycle a holder of a job waits for an object. -/
theorem advisory_of_cycle (sound : Sound (Knows schema) system) (orderly : Orderly system) {jobId : Uuid}
    (hasJob : .job jobId ∈ transaction.locks) (cycle : Relation.TransGen (Waits system) transaction transaction) :
    ∃ number, transaction.wanted = some (.advisory number) := by
  obtain ⟨next, waits, nextCycle, back⟩ := exists_next_of_cycle cycle
  have knows := sound.local_ transaction waits.1
  obtain ⟨lock, isWanted, isHeld⟩ := waits.2.2.2
  have worker : ∀ targetId, workerTarget? transaction.request = some targetId →
      ∃ number, transaction.wanted = some (.advisory number) := by
    intro targetId isWorker
    cases workerStage knows isWorker with
    | fresh nothing => exact absurd hasJob (nothing _)
    | row isTarget locks =>
      cases isTarget.symm.trans isWanted
      obtain ⟨targets, isRelease⟩ := release_of_reach sound waits.1 locks waits.2.1 isHeld back
      rw [isRelease] at isWorker
      cases isWorker
    | object isObject _ => exact ⟨_, isObject⟩
    | complete hasAll => exact absurd (hasAll lock isWanted) (not_held_of_waits sound waits isWanted)
  cases isRequest : transaction.request with
  | process targetId => exact worker targetId (by rw [isRequest]; rfl)
  | markFailed targetId => exact worker targetId (by rw [isRequest]; rfl)
  | persistUpload storageKey projectId =>
    rcases (ordered_of_upload knows isRequest).2 _ hasJob with same | same <;> cases same
  | claimDueTargets due => cases (wanted_of_claim knows isRequest).symm.trans isWanted
  | releaseOrphanGuard ownJob targets =>
    obtain ⟨_, same, -⟩ := (target_of_release knows isRequest).2 _ hasJob
    cases same
  | resolveOrphanGuard ownJob targets =>
    obtain ⟨-, objects, kinds, jobs⟩ := rows_of_resolve knows isRequest
    rcases kinds lock isWanted with ⟨number, rfl⟩ | rfl | ⟨targetId, rfl⟩
    · exact ⟨number, isWanted⟩
    · rw [jobs jobId hasJob] at hasJob
      exact absurd hasJob (not_held_of_waits sound waits isWanted)
    · -- it holds an object already, and the next transaction waits
      obtain ⟨number, hasObject⟩ := objects targetId isWanted
      cases orderly transaction next waits (by rw [isRequest]; rfl) with
      | ordered ordered =>
        have below := ordered _ isWanted _ hasObject
        rcases Prod.Lex.toLex_lt_toLex.mp below with lower | ⟨same, -⟩
        · exact absurd lower (show ¬ 2 < 1 by decide)
        · exact absurd same (show ¬ 2 = 1 by decide)
      | moving moving =>
        obtain ⟨after, waitsAfter, -, -⟩ := exists_next_of_cycle nextCycle
        exact absurd waitsAfter (moving after)
      | row isJob => cases isJob.symm.trans isWanted

theorem not_deadlocked (sound : Sound (Knows schema) system) (orderly : Orderly system) : ¬ Deadlocked system := by
  refine @not_deadlocked_of_ordered _ _ _ _ _ CleanupLock.rank fun transaction cycle => ?_
  obtain ⟨next, waits, nextCycle, -⟩ := exists_next_of_cycle cycle
  cases isGuard : isGuardTransaction transaction.request with
  | false => exact ordered_of_waits sound waits isGuard
  | true =>
    cases orderly transaction next waits isGuard with
    | ordered ordered => exact ordered
    | moving moving =>
      obtain ⟨after, waitsAfter, -, -⟩ := exists_next_of_cycle nextCycle
      exact absurd waitsAfter (moving after)
    | row isJob noObject =>
      obtain ⟨-, -, -, lock, isWanted, isHeld⟩ := waits
      cases isJob.symm.trans isWanted
      obtain ⟨number, isObject⟩ := advisory_of_cycle sound orderly isHeld nextCycle
      exact absurd isObject (noObject number)

/-- The state after the action is orderly. -/
def KeepsOrder (schema : CleanupSchema) (system : LockSystem) (action : Action CleanupTransaction) : Prop :=
  Orderly (Locking.step schema.program system action)

theorem cleanup_never_deadlocks (schema : CleanupSchema) {actions : List (Action CleanupTransaction)}
    (keepsOrder : Along (Locking.step schema.program) schema.KeepsOrder Table.empty actions) :
    ¬ Deadlocked (run (Locking.step schema.program) Table.empty actions) := by
  have empty : Orderly (Table.empty : LockSystem) :=
    fun _ _ waits => absurd waits.1 (Table.not_mem_empty _)
  refine not_deadlocked (@sound_run schema actions) ?_
  exact run_invariant_along (fun _ _ keeps _ => keeps) empty keepsOrder

/-! ## Examples -/

/-- All targets are of one job. -/
def oneJob : CleanupSchema where
  jobOf _ := 1
  hashtextextended text := text.length

/-- Where only one transaction can wait, it waits for one that goes on. -/
theorem orderly_of_one (id : Nat) (others : ∀ transaction ∈ system.rows, transaction.id ≠ id → transaction.wanted = none) :
    Orderly system := by
  intro transaction other waits _
  obtain ⟨isTransaction, isOther, different, lock, isWanted, -⟩ := waits
  have isWaiting : transaction.id = id := by
    by_contra isOther
    cases (others transaction isTransaction isOther).symm.trans isWanted
  refine .moving fun next waitsNext => ?_
  obtain ⟨-, -, -, otherLock, isOtherLock, -⟩ := waitsNext
  cases (others other isOther fun same => different (same.trans isWaiting.symm)).symm.trans isOtherLock

/-- The guard of an upload is resolved while its target is claimed. -/
def resolvedWhileClaimed : List (Action CleanupTransaction) :=
  [.begin 0 (.claimDueTargets [5]), .advance 0, .begin 1 (.resolveOrphanGuard 1 [⟨5, some "upload", true⟩]), .advance 1]

/-- The guard of an upload is resolved while its target is processed. -/
def resolvedWhileProcessed : List (Action CleanupTransaction) :=
  [.begin 0 (.process 5 (.object "upload") true), .begin 1 (.resolveOrphanGuard 1 [⟨5, some "upload", true⟩]),
    .advance 0, .advance 0, .advance 1]

theorem cleanup_never_deadlocks_claimed :
    ¬ Deadlocked (run (Locking.step oneJob.program) Table.empty resolvedWhileClaimed) := by
  refine cleanup_never_deadlocks oneJob ?_
  refine along_cons.mpr ⟨?_, along_cons.mpr ⟨?_, along_cons.mpr ⟨?_, along_cons.mpr ⟨?_, along_nil⟩⟩⟩⟩
  · exact orderly_of_one 1 (by decide)
  · exact orderly_of_one 1 (by decide)
  · exact orderly_of_one 1 (by decide)
  · exact orderly_of_one 1 (by decide)

/-- The worker waits for the object, which the resolution holds, and the resolution for the job, which the worker holds. -/
theorem not_cleanup_never_deadlocks :
    ¬ ∀ actions, ¬ Deadlocked (run (Locking.step oneJob.program) Table.empty actions) := by
  intro law
  have rows : (run (Locking.step oneJob.program) Table.empty resolvedWhileProcessed).rows =
      [⟨0, .process 5 (.object "upload") true, .await (oneJob.objectLock "upload") :: oneJob.lockJobAndTarget 5,
          [.target 5, .job 1]⟩,
        ⟨1, .resolveOrphanGuard 1 [⟨5, some "upload", true⟩], oneJob.lockJobAndTarget 5, [oneJob.objectLock "upload"]⟩] := by
    rfl
  have isWorker := Table.mem_rows.mp (rows ▸ List.mem_cons_self)
  have isResolution := Table.mem_rows.mp (rows ▸ List.mem_cons_of_mem _ List.mem_cons_self)
  have forObject : Waits _ _ _ :=
    ⟨isWorker, isResolution, Nat.one_ne_zero, oneJob.objectLock "upload", rfl, List.mem_cons_self⟩
  have forJob : Waits _ _ _ :=
    ⟨isResolution, isWorker, Nat.zero_ne_one, .job 1, rfl, List.mem_cons_of_mem _ List.mem_cons_self⟩
  exact law resolvedWhileProcessed ⟨_, .head forObject (.single forJob)⟩

end CleanupSchema

end Mcplica.Cleanup
