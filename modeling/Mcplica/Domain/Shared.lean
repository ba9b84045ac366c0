import Mathlib.Tactic.Common

/-! # Values shared by every subsystem

Identifiers are drawn by `uuid4` and only ever compared, so they are natural numbers here. Instants
are what `clock_timestamp()` or `datetime.now` returns, durations the seconds added to them; both are
integers of one unit. -/

namespace Mcplica.Domain

abbrev Uuid := Nat

abbrev Instant := Int

abbrev Duration := Int

/-- Python's `text[:limit]`. -/
def truncate (limit : Nat) (text : String) : String :=
  String.ofList (text.toList.take limit)

/-! ## Errors

The classes of `app.core.exceptions` that the modelled services raise. -/

inductive ErrorKind where
  | notFound
  | conflict
  | invalidState
  | executionOwnership
  | deployability
  | validation
  deriving Repr, DecidableEq

namespace ErrorKind

/-- `isinstance(error, InvalidStateError)`: ownership and deployability errors are subclasses. -/
def isInvalidState : ErrorKind → Bool
  | invalidState | executionOwnership | deployability => true
  | notFound | conflict | validation => false

end ErrorKind

structure McplicaError where
  kind : ErrorKind
  message : String
  /-- `details["reason_code"]`, where the raising statement gives one. -/
  reasonCode : Option String := none
  deriving Repr, DecidableEq

def raise {α : Type} (kind : ErrorKind) (message : String) (reasonCode : Option String := none) :
    Except McplicaError α :=
  .error ⟨kind, message, reasonCode⟩

@[simp] theorem raise_ne_ok {α : Type} {kind : ErrorKind} {message : String} {reasonCode : Option String}
    {value : α} : raise kind message reasonCode ≠ .ok value := by
  intro impossible
  cases impossible

/-- The repository call returned `None` or `False` and its caller raises. -/
def orRaise {α : Type} (result : Option α) (kind : ErrorKind) (message : String) : Except McplicaError α :=
  match result with
  | some value => .ok value
  | none => raise kind message

@[simp] theorem orRaise_eq_ok {α : Type} {result : Option α} {kind : ErrorKind} {message : String} {value : α} :
    orRaise result kind message = .ok value ↔ result = some value := by
  cases result <;> simp [orRaise]

/-- `if not condition: raise …`. -/
def require (condition : Bool) (kind : ErrorKind) (message : String) : Except McplicaError Unit :=
  if condition then .ok () else raise kind message

@[simp] theorem require_eq_ok {condition : Bool} {kind : ErrorKind} {message : String} {passed : Unit} :
    require condition kind message = .ok passed ↔ condition = true := by
  cases condition <;> simp [require]

end Mcplica.Domain
