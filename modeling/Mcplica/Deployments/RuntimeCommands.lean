import Mcplica.Domain.Shared
import Mcplica.Library.Table
import Mcplica.Library.Run

/-! # Runtime lifecycle commands

The rows of `runtime_lifecycle_commands` and the operations of `RuntimeCommandRepository`. Every
operation is one transaction. The clock reading `now` is taken before the row lock is granted, so an
operation may run with a reading that is older than the state it finds; it is therefore a parameter
of each operation and nothing orders the readings of different operations. -/

namespace Mcplica.Deployments

open Mcplica.Domain Mcplica.Library

inductive RuntimeCommandAction where
  | deploy
  | stop
  deriving Repr, DecidableEq

inductive RuntimeCommandStatus where
  | pending
  | dispatched
  | running
  | failed
  | effective
  deriving Repr, DecidableEq

/-- The two texts `deployment:<id>:deploy` and `deployment:<id>:stop:<transition>`. -/
inductive IdempotencyKey where
  | deploy (deploymentId : Uuid)
  | stop (deploymentId transitionId : Uuid)
  deriving Repr, DecidableEq

structure RuntimeCommand where
  id : Uuid
  sequence : Nat
  projectId : Uuid
  deploymentId : Uuid
  buildId : Uuid
  transitionId : Uuid
  action : RuntimeCommandAction
  status : RuntimeCommandStatus
  reason : String
  subjectType : Option String
  subjectId : Option Uuid
  idempotencyKey : IdempotencyKey
  requestedBy : Uuid
  requestId : Option String
  attemptCount : Nat
  retryable : Bool
  nextAttemptAt : Instant
  dispatchedAt : Option Instant := none
  startedAt : Option Instant := none
  effectiveAt : Option Instant := none
  failedAt : Option Instant := none
  leaseExpiresAt : Option Instant := none
  executionToken : Option Uuid := none
  lastErrorCode : Option String := none
  lastErrorSummary : Option String := none
  deriving Repr, DecidableEq

instance : Row RuntimeCommand Uuid where
  key := RuntimeCommand.id

/-- The command table and the number of execution tokens drawn so far; `uuid4` never returns a token
twice, so the tokens are numbered in the order they are drawn. -/
structure CommandStore where
  commands : Table RuntimeCommand
  tokensDrawn : Nat

namespace CommandStore

def empty : CommandStore := ⟨Table.empty, 0⟩

/-! ## Predicates of the queries -/

/-- `EXISTS` of a lower-sequence command of the same transition that is not effective. -/
def hasPredecessor (store : CommandStore) (command : RuntimeCommand) : Bool :=
  store.commands.exists_ fun predecessor =>
    predecessor.transitionId = command.transitionId && decide (predecessor.sequence < command.sequence) &&
      predecessor.status ≠ .effective

theorem hasPredecessor_eq_false {store : CommandStore} {command : RuntimeCommand} :
    store.hasPredecessor command = false ↔
      ∀ predecessor ∈ store.commands, predecessor.transitionId = command.transitionId →
        predecessor.sequence < command.sequence → predecessor.status = .effective := by
  simp only [hasPredecessor, Table.exists_eq_false]
  constructor <;> intro h predecessor member
  · intro same lower
    simpa [same, lower] using h predecessor member
  · have := h predecessor member
    simp only [Bool.and_eq_false_iff, decide_eq_false_iff_not]
    grind

/-- The lease column holds an instant later than `now`. -/
def leaseLive (lease : Option Instant) (now : Instant) : Bool :=
  lease.any fun expires => now < expires

/-- The row's current unexpired token is the one presented. -/
def holdsToken (command : RuntimeCommand) (token : Uuid) (now : Instant) : Bool :=
  command.executionToken = some token && leaseLive command.leaseExpiresAt now

def dueForDispatch (store : CommandStore) (now : Instant) (command : RuntimeCommand) : Bool :=
  [RuntimeCommandStatus.pending, .dispatched, .running, .failed].contains command.status &&
    command.retryable && command.nextAttemptAt ≤ now && !leaseLive command.leaseExpiresAt now &&
    !store.hasPredecessor command

/-! ## Operations -/

/-- What a caller of `create` passes. -/
structure NewCommand where
  id : Uuid
  projectId : Uuid
  deploymentId : Uuid
  buildId : Uuid
  transitionId : Uuid
  action : RuntimeCommandAction
  reason : String
  subjectType : Option String
  subjectId : Option Uuid
  requestedBy : Uuid
  requestId : Option String
  idempotencyKey : IdempotencyKey
  deriving Repr, DecidableEq

def NewCommand.row (new : NewCommand) (sequence : Nat) (now : Instant) : RuntimeCommand where
  id := new.id
  sequence := sequence
  projectId := new.projectId
  deploymentId := new.deploymentId
  buildId := new.buildId
  transitionId := new.transitionId
  action := new.action
  status := .pending
  reason := new.reason
  subjectType := new.subjectType
  subjectId := new.subjectId
  idempotencyKey := new.idempotencyKey
  requestedBy := new.requestedBy
  requestId := new.requestId
  attemptCount := 0
  retryable := true
  nextAttemptAt := now

/-- The identity column numbers the commands of one transition in creation order and gives no
number twice; between transitions of concurrent transactions the order of commits is open. -/
def identityAllows (store : CommandStore) (transitionId : Uuid) (sequence : Nat) : Bool :=
  !store.commands.exists_ fun command =>
    command.sequence = sequence ||
      (command.transitionId = transitionId && decide (sequence ≤ command.sequence))

/-- A key that is present returns its command; a primary key that is taken is refused by the
database, and so is nothing else. -/
def create (store : CommandStore) (new : NewCommand) (sequence : Nat) (now : Instant) :
    Except McplicaError (CommandStore × RuntimeCommand) :=
  match store.commands.rows.find? fun command => command.idempotencyKey = new.idempotencyKey with
  | some existing => .ok (store, existing)
  | none =>
    if store.identityAllows new.transitionId sequence then
      match store.commands.insert (new.row sequence now) with
      | some commands => .ok ({ store with commands }, new.row sequence now)
      | none => raise .conflict "duplicate key value violates unique constraint"
    else
      raise .conflict "duplicate key value violates unique constraint"

/-- The order of `claim_due_for_dispatch`: `next_attempt_at`, then `sequence`. -/
def dispatchBefore (left right : RuntimeCommand) : Bool :=
  left.nextAttemptAt < right.nextAttemptAt ||
    (left.nextAttemptAt = right.nextAttemptAt && left.sequence ≤ right.sequence)

/-- The due rows that no other transaction has locked (`SKIP LOCKED`), in dispatch order. -/
def selectDue (store : CommandStore) (limit : Nat) (locked : Uuid → Bool) (now : Instant) :
    List RuntimeCommand :=
  store.commands.select (fun command => store.dueForDispatch now command && !locked command.id)
    dispatchBefore limit

def dispatch (token : Uuid) (now leaseExpiresAt : Instant) (command : RuntimeCommand) : RuntimeCommand :=
  { command with
    status := .dispatched
    executionToken := some token
    attemptCount := command.attemptCount + 1
    dispatchedAt := some now
    failedAt := none
    leaseExpiresAt := some leaseExpiresAt
    nextAttemptAt := leaseExpiresAt }

/-- The claimed rows draw their tokens one after another. -/
def claimDueForDispatch (store : CommandStore) (limit : Nat) (lease : Duration) (locked : Uuid → Bool)
    (now : Instant) : CommandStore :=
  let claimed := (store.selectDue limit locked now).map RuntimeCommand.id
  { commands := store.commands.update (fun command => claimed.contains command.id)
      (fun command => dispatch (store.tokensDrawn + claimed.idxOf command.id) now (now + lease) command)
    tokensDrawn := store.tokensDrawn + claimed.length }

/-- The write every token-fenced operation ends with. -/
def write (store : CommandStore) (commandId : Uuid) (assign : RuntimeCommand → RuntimeCommand)
    (keeps : ∀ command, (assign command).id = command.id := by intro _; rfl) : CommandStore :=
  { store with commands := store.commands.update (fun command => command.id = commandId) assign keeps }

def startExecution (now : Instant) (lease : Duration) (command : RuntimeCommand) : RuntimeCommand :=
  { command with
    status := .running
    startedAt := some now
    failedAt := none
    leaseExpiresAt := some (now + lease)
    nextAttemptAt := now + lease }

def claimForExecution (store : CommandStore) (commandId token : Uuid) (lease : Duration) (now : Instant) :
    CommandStore × Option RuntimeCommand :=
  match store.commands.get? commandId with
  | none => (store, none)
  | some command =>
    if command.status = .dispatched && holdsToken command token now then
      -- Queue delivery may be duplicated or reordered, so the order is checked again here.
      if store.hasPredecessor command then
        (store, none)
      else
        (store.write commandId (startExecution now lease), some (startExecution now lease command))
    else
      (store, none)

def requireExecutionOwner (store : CommandStore) (commandId token : Uuid) (now : Instant) :
    Except McplicaError RuntimeCommand :=
  match store.commands.get? commandId with
  | none =>
    raise .executionOwnership "Runtime command execution ownership is stale"
      (some "RUNTIME_COMMAND_EXECUTION_OWNERSHIP_LOST")
  | some command =>
    if command.status = .running && holdsToken command token now then
      if store.hasPredecessor command then
        raise .executionOwnership "Runtime command predecessor is no longer effective"
          (some "RUNTIME_COMMAND_PREDECESSOR_NOT_EFFECTIVE")
      else
        .ok command
    else
      raise .executionOwnership "Runtime command execution ownership is stale"
        (some "RUNTIME_COMMAND_EXECUTION_OWNERSHIP_LOST")

inductive LeaseState where
  | owned
  | lost
  deriving Repr, DecidableEq

structure LeaseRenewal where
  state : LeaseState
  databaseNow : Instant
  leaseExpiresAt : Option Instant := none
  deriving Repr, DecidableEq

def renewLease (leaseExpiresAt : Instant) (command : RuntimeCommand) : RuntimeCommand :=
  { command with leaseExpiresAt := some leaseExpiresAt, nextAttemptAt := leaseExpiresAt }

def renewExecution (store : CommandStore) (commandId token : Uuid) (lease : Duration) (now : Instant) :
    CommandStore × LeaseRenewal :=
  match store.requireExecutionOwner commandId token now with
  | .error _ => (store, { state := .lost, databaseNow := now })
  | .ok _ =>
    (store.write commandId (renewLease (now + lease)),
      { state := .owned, databaseNow := now, leaseExpiresAt := some (now + lease) })

def becomeEffective (now : Instant) (command : RuntimeCommand) : RuntimeCommand :=
  { command with
    status := .effective
    retryable := false
    effectiveAt := some now
    failedAt := none
    leaseExpiresAt := none
    executionToken := none
    lastErrorCode := none
    lastErrorSummary := none }

def markEffective (store : CommandStore) (commandId token : Uuid) (now : Instant) :
    Except McplicaError CommandStore := do
  let _ ← store.requireExecutionOwner commandId token now
  return store.write commandId (becomeEffective now)

structure Failure where
  errorCode : String
  errorSummary : String
  retryable : Bool
  retryDelay : Duration
  deriving Repr, DecidableEq

def applyFailure (failure : Failure) (now : Instant) (command : RuntimeCommand) : RuntimeCommand :=
  { command with
    status := .failed
    retryable := failure.retryable
    failedAt := some now
    leaseExpiresAt := none
    executionToken := none
    nextAttemptAt := now + failure.retryDelay
    lastErrorCode := some (truncate 128 failure.errorCode)
    lastErrorSummary := some (truncate 2000 failure.errorSummary) }

def markFailed (store : CommandStore) (commandId token : Uuid) (failure : Failure) (now : Instant) :
    Except McplicaError CommandStore := do
  let _ ← store.requireExecutionOwner commandId token now
  return store.write commandId (applyFailure failure now)

/-- The dispatcher gives a command back when the queue refuses the message. -/
def markDispatchFailed (store : CommandStore) (commandId token : Uuid) (errorCode errorSummary : String)
    (retryDelay : Duration) (now : Instant) : CommandStore × Bool :=
  match store.commands.get? commandId with
  | none => (store, false)
  | some command =>
    if command.status = .dispatched && holdsToken command token now then
      (store.write commandId (applyFailure ⟨errorCode, errorSummary, true, retryDelay⟩ now), true)
    else
      (store, false)

end CommandStore

end Mcplica.Deployments
