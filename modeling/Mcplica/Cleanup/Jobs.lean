import Mcplica.Domain.Shared
import Mcplica.Library.Run
import Mcplica.Library.Table
import Mcplica.Library.Text
import Mcplica.Library.Uuid

/-! # Cleanup jobs

`CleanupRepository`: jobs, the targets they remove, the claims of the workers and the summary of a job. Every statement
of a transaction locks the job before its targets, so transactions on one job take place one after the other, and
`updated_at` of a job is not read by any of them. -/

namespace Mcplica.Cleanup

open Mcplica.Domain Mcplica.Library

inductive CleanupJobKind where
  | projectDelete
  | sourceDelete
  | retention
  | orphanGuard
  deriving Repr, DecidableEq

inductive CleanupJobStatus where
  | pending
  | running
  | retrying
  | completed
  | failed
  deriving Repr, DecidableEq

inductive CleanupTargetStatus where
  | pending
  | running
  | retrying
  | completed
  | skippedReferenced
  | failed
  deriving Repr, DecidableEq

def CleanupJobStatus.terminal : CleanupJobStatus → Bool
  | completed | failed => true
  | pending | running | retrying => false

/-- Membership in `_TERMINAL_TARGETS`. -/
def CleanupTargetStatus.terminal : CleanupTargetStatus → Bool
  | completed | skippedReferenced | failed => true
  | pending | running | retrying => false

/-- The type of a target with the columns that it uses. -/
inductive CleanupSubject where
  | object (storageKey : Text)
  | vectorGeneration (collectionName : Text) (vectorProjectId generationId : Uuid)
  deriving Repr, DecidableEq

/-- The parts of `_target_key`, joined by null characters. -/
def CleanupSubject.identity : CleanupSubject → Text
  | .object storageKey => ("object" : Text) ++ '\x00' :: storageKey
  | .vectorGeneration collectionName vectorProjectId generationId =>
    ("vector_generation" : Text) ++ '\x00' :: collectionName ++ '\x00' :: Text.ofUuid vectorProjectId ++
      '\x00' :: Text.ofUuid generationId

structure CleanupJob where
  id : Uuid
  kind : CleanupJobKind
  status : CleanupJobStatus := .pending
  projectId : Option Uuid
  requestedBy : Option Uuid
  requestId : Option Text
  idempotencyKey : Text
  totalTargets : Nat := 0
  completedTargets : Nat := 0
  skippedTargets : Nat := 0
  failedTargets : Nat := 0
  lastErrorCode : Option Text := none
  lastErrorSummary : Option Text := none
  completedAt : Option Instant := none
  deriving Repr, DecidableEq

structure CleanupTarget where
  id : Uuid
  jobId : Uuid
  targetKey : Text
  subject : CleanupSubject
  status : CleanupTargetStatus := .pending
  attemptCount : Nat := 0
  nextAttemptAt : Instant
  leaseExpiresAt : Option Instant := none
  executionToken : Option Uuid := none
  lastErrorCode : Option Text := none
  lastErrorSummary : Option Text := none
  createdAt : Instant
  updatedAt : Instant
  deriving Repr, DecidableEq

instance : Row CleanupJob Uuid := ⟨CleanupJob.id⟩

instance : Row CleanupTarget Uuid := ⟨CleanupTarget.id⟩

structure CleanupStore where
  jobs : Table CleanupJob
  targets : Table CleanupTarget

/-- The arguments of `create_job`; the id is drawn by `uuid4`. -/
structure JobRequest where
  id : Uuid
  kind : CleanupJobKind
  idempotencyKey : Text
  projectId : Option Uuid
  requestedBy : Option Uuid
  requestId : Option Text
  deriving Repr, DecidableEq

def JobRequest.newJob (request : JobRequest) : CleanupJob where
  id := request.id
  kind := request.kind
  projectId := request.projectId
  requestedBy := request.requestedBy
  requestId := request.requestId
  idempotencyKey := request.idempotencyKey

/-- A target that is to be added; the id is drawn by `uuid4`. -/
structure TargetRequest where
  id : Uuid
  subject : CleanupSubject
  notBefore : Option Instant := none
  deriving Repr, DecidableEq

namespace CleanupStore

/-! ## Registration -/

def jobByKey (store : CleanupStore) (idempotencyKey : Text) : Option CleanupJob :=
  store.jobs.rows.find? (·.idempotencyKey = idempotencyKey)

/-- `create_job`: a job with the key is returned as it is, whatever its status. -/
def createJob (store : CleanupStore) (request : JobRequest) : Option (CleanupStore × CleanupJob) :=
  match store.jobByKey request.idempotencyKey with
  | some job => some (store, job)
  | none => do
    let jobs ← store.jobs.insert request.newJob
    return ({ store with jobs }, request.newJob)

section

variable (sha256 : Text → Text)

/-- `_target_key` -/
def targetKey (subject : CleanupSubject) : Text :=
  sha256 subject.identity

def hasTarget (store : CleanupStore) (jobId : Uuid) (subject : CleanupSubject) : Bool :=
  store.targets.exists_ fun target => target.jobId = jobId && target.targetKey = targetKey sha256 subject

def newTarget (jobId : Uuid) (request : TargetRequest) (now : Instant) : CleanupTarget where
  id := request.id
  jobId
  targetKey := targetKey sha256 request.subject
  subject := request.subject
  nextAttemptAt := request.notBefore.getD now
  createdAt := now
  updatedAt := now

/-- `add_object_target` and `add_vector_target`: nothing is done on a conflict with the key of another target. -/
def addTarget (jobId : Uuid) (now : Instant) (store : CleanupStore) (request : TargetRequest) : Option CleanupStore :=
  if store.hasTarget sha256 jobId request.subject then
    some store
  else do
    let _ ← store.jobs.get? jobId
    let targets ← store.targets.insert (newTarget sha256 jobId request now)
    let jobs := store.jobs.update (·.id = jobId) fun job => { job with totalTargets := job.totalTargets + 1 }
    return { jobs, targets }

def addTargets (jobId : Uuid) (now : Instant) (store : CleanupStore) (requests : List TargetRequest) :
    Option CleanupStore :=
  requests.foldlM (addTarget sha256 jobId now) store

/-- `finalize_empty_job` -/
def finalizeEmptyJob (store : CleanupStore) (jobId : Uuid) (now : Instant) : CleanupStore :=
  let finished (job : CleanupJob) : CleanupJob := { job with status := .completed, completedAt := some now }
  { store with jobs := store.jobs.update (fun job => job.id = jobId && job.totalTargets = 0) finished }

/-- The transactions that capture what is to be removed: a job, its targets, and the end of a job without any. -/
def capture (store : CleanupStore) (request : JobRequest) (targets : List TargetRequest) (now : Instant) :
    Option CleanupStore := do
  let (store, job) ← store.createJob request
  let store ← store.addTargets sha256 job.id now targets
  return store.finalizeEmptyJob job.id now

/-- `arm_orphan_guard` and `_schedule_orphan_object`: a job with one target. -/
def guard (store : CleanupStore) (request : JobRequest) (target : TargetRequest) (now : Instant) : Option CleanupStore := do
  let (store, job) ← store.createJob request
  store.addTarget sha256 job.id now target

end

/-! ## Claims -/

def due (cutoff : Instant) (target : CleanupTarget) : Bool :=
  !target.status.terminal && target.nextAttemptAt ≤ cutoff && target.leaseExpiresAt.all (· ≤ cutoff)

/-- `ORDER BY next_attempt_at, created_at` -/
def dueBefore (left right : CleanupTarget) : Bool :=
  left.nextAttemptAt < right.nextAttemptAt ||
    (left.nextAttemptAt = right.nextAttemptAt && left.createdAt ≤ right.createdAt)

def claimedValues (token : Uuid) (leaseExpiresAt now : Instant) (target : CleanupTarget) : CleanupTarget :=
  { target with
    status := .running
    attemptCount := target.attemptCount + 1
    executionToken := some token
    leaseExpiresAt := some leaseExpiresAt
    nextAttemptAt := leaseExpiresAt
    lastErrorCode := none
    lastErrorSummary := none
    updatedAt := now }

/-- One round of the loop of `claim_due_targets`: the job of the first due target that is not locked by another
transaction, and the first due target of that job. -/
def nextDue (store : CleanupStore) (lockedJobs : List Uuid) (cutoff : Instant) : Option CleanupTarget := do
  let first ← (store.targets.select (fun target => due cutoff target && !lockedJobs.contains target.jobId) dueBefore 1).head?
  (store.targets.select (fun target => target.jobId = first.jobId && due cutoff target) dueBefore 1).head?

def claimTarget (store : CleanupStore) (target : CleanupTarget) (token : Uuid) (leaseExpiresAt now : Instant) :
    CleanupStore where
  jobs := store.jobs.update (·.id = target.jobId) fun job => { job with status := .running, completedAt := none }
  targets := store.targets.update (·.id = target.id) (claimedValues token leaseExpiresAt now)

/-- `claim_due_targets`, with one token for each round up to the limit. -/
def claimDueTargets (store : CleanupStore) (lockedJobs : List Uuid) (cutoff leaseExpiresAt now : Instant) :
    List Uuid → CleanupStore × List CleanupTarget
  | [] => (store, [])
  | token :: tokens =>
    match store.nextDue lockedJobs cutoff with
    | none => (store, [])
    | some target =>
      let claimed := claimedValues token leaseExpiresAt now target
      let (store, targets) :=
        (store.claimTarget target token leaseExpiresAt now).claimDueTargets lockedJobs cutoff leaseExpiresAt now tokens
      (store, claimed :: targets)

def runsUnder (target : CleanupTarget) (executionToken : Uuid) (attemptCount : Nat) : Bool :=
  target.status = .running && target.executionToken = some executionToken && target.attemptCount = attemptCount

/-! ## Outcomes -/

def countTargets (store : CleanupStore) (jobId : Uuid) (status : CleanupTargetStatus) : Nat :=
  store.targets.count fun target => target.jobId = jobId && target.status = status

/-- The newest of the targets with an error. -/
def errorTarget (store : CleanupStore) (jobId : Uuid) : Option CleanupTarget :=
  (store.targets.select (fun target => target.jobId = jobId && target.lastErrorCode.isSome)
    (fun left right => right.updatedAt ≤ left.updatedAt) 1).head?

/-- The status that `_refresh_job` derives from the targets. -/
def summaryStatus (store : CleanupStore) (jobId : Uuid) : CleanupJobStatus :=
  let total := store.targets.count (·.jobId = jobId)
  let failed := store.countTargets jobId .failed
  if total = store.countTargets jobId .completed + store.countTargets jobId .skippedReferenced + failed then
    if failed ≠ 0 then .failed else .completed
  else if store.countTargets jobId .retrying ≠ 0 then .retrying
  else if store.countTargets jobId .running ≠ 0 then .running
  else .pending

/-- `_refresh_job` -/
def refreshJob (store : CleanupStore) (jobId : Uuid) (now : Instant) : CleanupStore :=
  let status := store.summaryStatus jobId
  let summarize (job : CleanupJob) : CleanupJob :=
    { job with
      status
      totalTargets := store.targets.count (·.jobId = jobId)
      completedTargets := store.countTargets jobId .completed
      skippedTargets := store.countTargets jobId .skippedReferenced
      failedTargets := store.countTargets jobId .failed
      lastErrorCode := (store.errorTarget jobId).bind (·.lastErrorCode)
      lastErrorSummary := (store.errorTarget jobId).bind (·.lastErrorSummary)
      completedAt := if status.terminal then some now else none }
  { store with jobs := store.jobs.update (·.id = jobId) summarize }

def setTarget (store : CleanupStore) (target : CleanupTarget) (values : CleanupTarget → CleanupTarget)
    (keeps : ∀ row, (values row).id = row.id := by intro _; rfl) : CleanupStore :=
  { store with targets := store.targets.update (·.id = target.id) values keeps }

def completedValues (skippedReferenced : Bool) (now : Instant) (target : CleanupTarget) : CleanupTarget :=
  { target with
    status := if skippedReferenced then .skippedReferenced else .completed
    leaseExpiresAt := none
    executionToken := none
    lastErrorCode := none
    lastErrorSummary := none
    updatedAt := now }

/-- `mark_completed`: a target that runs is only completed by the execution it runs under. -/
def markCompleted (store : CleanupStore) (targetId : Uuid) (skippedReferenced : Bool) (executionToken : Option Uuid)
    (attemptCount : Option Nat) (now : Instant) : CleanupStore × Bool :=
  match store.targets.get? targetId with
  | none => (store, false)
  | some target =>
    let foreign := executionToken.isNone || attemptCount.isNone || target.executionToken ≠ executionToken ||
      some target.attemptCount ≠ attemptCount
    if target.status.terminal || (target.status = .running && foreign) then
      (store, false)
    else
      ((store.setTarget target (completedValues skippedReferenced now)).refreshJob target.jobId now, true)

/-- What `mark_failed` is told about the failure. -/
structure CleanupFailure where
  errorCode : Text
  errorSummary : Text
  maxAttempts : Nat
  retryDelay : Duration
  deriving Repr, DecidableEq

def failedValues (failure : CleanupFailure) (now : Instant) (target : CleanupTarget) : CleanupTarget :=
  { target with
    status := if failure.maxAttempts ≤ target.attemptCount then .failed else .retrying
    leaseExpiresAt := none
    executionToken := none
    nextAttemptAt := now + failure.retryDelay
    lastErrorCode := some (failure.errorCode.take 128)
    lastErrorSummary := some (failure.errorSummary.take 2000)
    updatedAt := now }

/-- `mark_failed` -/
def markFailed (store : CleanupStore) (targetId : Uuid) (failure : CleanupFailure) (executionToken : Uuid)
    (attemptCount : Nat) (now : Instant) : CleanupStore × Bool :=
  match store.targets.get? targetId with
  | none => (store, false)
  | some target =>
    if runsUnder target executionToken attemptCount then
      ((store.setTarget target (failedValues failure now)).refreshJob target.jobId now, true)
    else
      (store, false)

/-- `make_job_due` -/
def makeJobDue (store : CleanupStore) (jobId : Uuid) (now : Instant) : CleanupStore :=
  let waits (target : CleanupTarget) : Bool :=
    target.jobId = jobId && (target.status = .pending || target.status = .retrying)
  let makeDue (target : CleanupTarget) : CleanupTarget := { target with nextAttemptAt := now, updatedAt := now }
  { store with targets := store.targets.update waits makeDue }

end CleanupStore

/-! ## The system -/

/-- What a worker has in hand between its claim and its report. -/
structure Claim where
  targetId : Uuid
  executionToken : Uuid
  attemptCount : Nat
  leaseExpiresAt : Instant
  deriving Repr, DecidableEq

def CleanupTarget.claim (target : CleanupTarget) : Option Claim := do
  return ⟨target.id, ← target.executionToken, target.attemptCount, ← target.leaseExpiresAt⟩

/-- The rows, the clock and the claims that no worker has reported on. -/
structure CleanupSystem where
  store : CleanupStore
  clock : Instant := 0
  claims : List Claim := []

inductive CleanupAction where
  | capture (request : JobRequest) (targets : List TargetRequest)
  | guard (request : JobRequest) (target : TargetRequest)
  /-- The cutoff is a reading of the clock from before the claims of the round. -/
  | claimDueTargets (lockedJobs : List Uuid) (eligibleAt : Option Instant) (lease : Duration) (tokens : List Uuid)
  /-- The worker reads the row of its claim under a lock, which changes nothing in the tables. -/
  | lockClaimedTarget (targetId executionToken : Uuid) (attemptCount : Nat)
  | markCompleted (targetId : Uuid) (skippedReferenced : Bool) (executionToken : Option Uuid) (attemptCount : Option Nat)
  | markFailed (targetId : Uuid) (failure : CleanupStore.CleanupFailure) (executionToken : Uuid) (attemptCount : Nat)
  | makeJobDue (jobId : Uuid)
  /-- Time passes, and leases expire. -/
  | wait
  deriving Repr, DecidableEq

namespace CleanupSystem

def initial : CleanupSystem :=
  { store := ⟨Table.empty, Table.empty⟩ }

def withoutClaim (claims : List Claim) (targetId : Uuid) (executionToken : Option Uuid) (attemptCount : Option Nat) :
    List Claim :=
  claims.filter fun claim => !(claim.targetId = targetId && some claim.executionToken = executionToken &&
    some claim.attemptCount = attemptCount)

/-- One transaction at a time of the clock; one that raises is rolled back. -/
def perform (sha256 : Text → Text) (system : CleanupSystem) (now : Instant) : CleanupAction → CleanupSystem
  | .capture request targets =>
    { system with store := (system.store.capture sha256 request targets now).getD system.store }
  | .guard request target =>
    { system with store := (system.store.guard sha256 request target now).getD system.store }
  | .claimDueTargets lockedJobs eligibleAt lease tokens =>
    if eligibleAt.all (· ≤ now) && 0 < lease then
      let (store, claimed) := system.store.claimDueTargets lockedJobs (eligibleAt.getD now) (now + lease) now tokens
      { system with store, claims := system.claims ++ claimed.filterMap CleanupTarget.claim }
    else
      system
  | .lockClaimedTarget _ _ _ => system
  | .markCompleted targetId skippedReferenced executionToken attemptCount =>
    match system.store.markCompleted targetId skippedReferenced executionToken attemptCount now with
    | (_, false) => system
    | (store, true) => { system with store, claims := withoutClaim system.claims targetId executionToken attemptCount }
  | .markFailed targetId failure executionToken attemptCount =>
    match system.store.markFailed targetId failure executionToken attemptCount now with
    | (_, false) => system
    | (store, true) =>
      { system with store, claims := withoutClaim system.claims targetId (some executionToken) (some attemptCount) }
  | .makeJobDue jobId => { system with store := system.store.makeJobDue jobId now }
  | .wait => system

/-- The clock does not go back. -/
def step (sha256 : Text → Text) (system : CleanupSystem) (action : Instant × CleanupAction) : CleanupSystem :=
  if system.clock ≤ action.1 then { system with clock := action.1 }.perform sha256 action.1 action.2 else system

end CleanupSystem

end Mcplica.Cleanup
