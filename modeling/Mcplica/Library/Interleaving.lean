import Mcplica.Library.Run
import Mcplica.Library.Table

/-! # Interleaved transactions

Transactions that share a database under read committed isolation. Every statement of a transaction sees what is
committed when it runs; a statement that takes locks waits until no other transaction holds them, and all locks are held
to the end. What a transaction writes is part of its stage and is applied by its commit: rows are written under their
locks, so nobody can tell the difference.

An assertion about each open transaction is kept by all others, in the style of Owicki and Gries: a commit has to keep the
assertions of the transactions whose locks are disjoint from its own. -/

namespace Mcplica.Library

universe u v w x

/-- What the next statement of a transaction does. -/
inductive Outcome (σ : Type u) (π : Type v) (κ : Type w) where
  | proceed (locks : List κ) (stage : π)
  | commit (next : σ)
  | rollback

structure Transaction (π : Type v) (κ : Type w) where
  id : Nat
  stage : π
  locks : List κ
  deriving Repr, DecidableEq

instance {π : Type v} {κ : Type w} : Row (Transaction π κ) Nat := ⟨Transaction.id⟩

structure Interleaving (σ : Type u) (π : Type v) (κ : Type w) where
  committed : σ
  transactions : Table (Transaction π κ)

inductive Scheduled (β : Type x) where
  | begin (id : Nat) (request : β)
  | advance (id : Nat)
  /-- The connection is lost or a deadlock is resolved. -/
  | abort (id : Nat)
  deriving Repr, DecidableEq

namespace Interleaving

variable {σ : Type u} {π : Type v} {κ : Type w} {β : Type x}

/-- No other transaction holds the lock. -/
def isFree [DecidableEq κ] (system : Interleaving σ π κ) (id : Nat) (lock : κ) : Bool :=
  system.transactions.rows.all fun other => other.id = id || !other.locks.contains lock

def close (system : Interleaving σ π κ) (id : Nat) : Table (Transaction π κ) :=
  system.transactions.delete (·.id = id)

section

variable [DecidableEq κ] (enter : σ → β → Option π) (program : σ → π → Outcome σ π κ)

omit [DecidableEq κ] in
def begin (system : Interleaving σ π κ) (id : Nat) (request : β) : Option (Interleaving σ π κ) :=
  (enter system.committed request).bind fun stage =>
    (system.transactions.insert ⟨id, stage, []⟩).map fun transactions => { system with transactions }

/-- A statement whose locks are not free is tried again later. -/
def advance (system : Interleaving σ π κ) (transaction : Transaction π κ) : Interleaving σ π κ :=
  match program system.committed transaction.stage with
  | .proceed locks stage =>
    if locks.all (system.isFree transaction.id) then
      { system with transactions := system.transactions.update (·.id = transaction.id) fun other =>
          { other with stage, locks := transaction.locks ++ locks } }
    else
      system
  | .commit next => { committed := next, transactions := system.close transaction.id }
  | .rollback => { system with transactions := system.close transaction.id }

def step (system : Interleaving σ π κ) : Scheduled β → Interleaving σ π κ
  | .begin id request => (system.begin enter id request).getD system
  | .advance id => (system.transactions.get? id).elim system (system.advance program)
  | .abort id => { system with transactions := system.close id }

end

/-! ## Invariants -/

/-- Two transactions that hold one lock are the same. -/
def Exclusive (system : Interleaving σ π κ) : Prop :=
  ∀ first ∈ system.transactions, ∀ second ∈ system.transactions, ∀ lock ∈ first.locks, lock ∈ second.locks →
    first.id = second.id

/-- A fact about what is committed, with an assertion for each transaction that is open. -/
structure Asserts (Global : σ → Prop) (Local : σ → Transaction π κ → Prop) (system : Interleaving σ π κ) : Prop where
  global : Global system.committed
  local_ : ∀ transaction ∈ system.transactions, Local system.committed transaction
  exclusive : system.Exclusive

/-- The obligations of an annotated program. A commit may rely on `Allowed` for the transactions that are open then. -/
structure Annotated (enter : σ → β → Option π) (program : σ → π → Outcome σ π κ) (Global : σ → Prop)
    (Local : σ → Transaction π κ → Prop) (Allowed : σ → π → π → Prop) : Prop where
  enters : ∀ {state request stage}, Global state → enter state request = some stage → ∀ id, Local state ⟨id, stage, []⟩
  proceeds : ∀ {state transaction locks stage}, Global state → Local state transaction →
    program state transaction.stage = .proceed locks stage →
      Local state ⟨transaction.id, stage, transaction.locks ++ locks⟩
  commits : ∀ {state transaction next}, Global state → Local state transaction →
    program state transaction.stage = .commit next → Global next
  undisturbed : ∀ {state transaction next other}, Global state → Local state transaction → Local state other →
    (∀ lock ∈ transaction.locks, lock ∉ other.locks) → Allowed state transaction.stage other.stage →
      program state transaction.stage = .commit next → Local next other

/-- Whatever the action commits, the transactions open then allow it. -/
def Permits (program : σ → π → Outcome σ π κ) (Allowed : σ → π → π → Prop) (system : Interleaving σ π κ) :
    Scheduled β → Prop
  | .advance id => ∀ transaction, system.transactions.get? id = some transaction →
      ∀ next, program system.committed transaction.stage = .commit next →
        ∀ other ∈ system.transactions, other.id ≠ id → Allowed system.committed transaction.stage other.stage
  | _ => True

section

variable {enter : σ → β → Option π} {program : σ → π → Outcome σ π κ} {Global : σ → Prop}
  {Local : σ → Transaction π κ → Prop} {Allowed : σ → π → π → Prop} {system : Interleaving σ π κ}

theorem mem_close {id : Nat} {transaction : Transaction π κ} :
    transaction ∈ system.close id ↔ transaction ∈ system.transactions ∧ transaction.id ≠ id := by
  simp [close, Table.mem_delete]

theorem isFree_iff [DecidableEq κ] {id : Nat} {lock : κ} : system.isFree id lock = true ↔
    ∀ other ∈ system.transactions, other.id ≠ id → lock ∉ other.locks := by
  simp only [isFree, List.all_eq_true, Bool.or_eq_true, decide_eq_true_eq, Bool.not_eq_true', Table.mem_rows]
  refine forall₂_congr fun other _ => ?_
  rw [or_iff_not_imp_left, List.contains_eq_mem, decide_eq_false_iff_not]

theorem exclusive_close (exclusive : system.Exclusive) (id : Nat) (committed : σ) :
    Exclusive ⟨committed, system.close id⟩ :=
  fun first isFirst second isSecond => exclusive first (mem_close.mp isFirst).1 second (mem_close.mp isSecond).1

theorem Asserts.close (asserts : Asserts Global Local system) (id : Nat) :
    Asserts Global Local { system with transactions := system.close id } where
  global := asserts.global
  local_ transaction member := asserts.local_ transaction (mem_close.mp member).1
  exclusive := exclusive_close asserts.exclusive id system.committed

theorem Asserts.begin (annotated : Annotated enter program Global Local Allowed) (asserts : Asserts Global Local system)
    {id : Nat} {request : β} {next : Interleaving σ π κ} (begun : system.begin enter id request = some next) :
    Asserts Global Local next := by
  simp only [Interleaving.begin, Option.bind_eq_some_iff, Option.map_eq_some_iff] at begun
  obtain ⟨stage, entered, transactions, inserted, rfl⟩ := begun
  have member : ∀ {transaction}, transaction ∈ transactions → transaction ∈ system.transactions ∨
      transaction = ⟨id, stage, []⟩ := (Table.mem_insert inserted).mp
  refine ⟨asserts.global, ?_, ?_⟩
  · intro transaction isOpen
    rcases member isOpen with isOld | rfl
    · exact asserts.local_ transaction isOld
    · exact annotated.enters asserts.global entered id
  · intro first isFirst second isSecond lock holds alsoHolds
    rcases member isFirst with firstOld | rfl
    · rcases member isSecond with secondOld | rfl
      · exact asserts.exclusive first firstOld second secondOld lock holds alsoHolds
      · cases alsoHolds
    · cases holds

theorem Asserts.proceed [DecidableEq κ] (annotated : Annotated enter program Global Local Allowed)
    (asserts : Asserts Global Local system) {transaction : Transaction π κ} (isOpen : transaction ∈ system.transactions)
    {locks : List κ} {stage : π} (runs : program system.committed transaction.stage = .proceed locks stage)
    (free : ∀ lock ∈ locks, ∀ other ∈ system.transactions, other.id ≠ transaction.id → lock ∉ other.locks)
    {transactions : Table (Transaction π κ)}
    (moved : ∀ {other}, other ∈ transactions → (other ∈ system.transactions ∧ other.id ≠ transaction.id) ∨
      other = ⟨transaction.id, stage, transaction.locks ++ locks⟩) :
    Asserts Global Local { system with transactions } where
  global := asserts.global
  local_ other member := by
    rcases moved member with isOther | rfl
    · exact asserts.local_ other isOther.1
    · exact annotated.proceeds asserts.global (asserts.local_ transaction isOpen) runs
  exclusive := by
    -- A lock that is taken now was free; the others were exclusive before.
    have apart : ∀ other ∈ system.transactions, other.id ≠ transaction.id → ∀ lock ∈ transaction.locks ++ locks,
        lock ∉ other.locks := by
      intro other isOther different lock holds alsoHolds
      rcases List.mem_append.mp holds with isOld | isNew
      · exact different (asserts.exclusive other isOther transaction isOpen lock alsoHolds isOld)
      · exact free lock isNew other isOther different alsoHolds
    intro first isFirst second isSecond lock holds alsoHolds
    rcases moved isFirst with firstOld | rfl
    · rcases moved isSecond with secondOld | rfl
      · exact asserts.exclusive first firstOld.1 second secondOld.1 lock holds alsoHolds
      · exact absurd holds (apart first firstOld.1 firstOld.2 lock alsoHolds)
    · rcases moved isSecond with secondOld | rfl
      · exact absurd alsoHolds (apart second secondOld.1 secondOld.2 lock holds)
      · rfl

theorem Asserts.commit (annotated : Annotated enter program Global Local Allowed) (asserts : Asserts Global Local system)
    {transaction : Transaction π κ} (isOpen : transaction ∈ system.transactions) {next : σ}
    (runs : program system.committed transaction.stage = .commit next)
    (allowed : ∀ other ∈ system.transactions, other.id ≠ transaction.id →
      Allowed system.committed transaction.stage other.stage) :
    Asserts Global Local ⟨next, system.close transaction.id⟩ where
  global := annotated.commits asserts.global (asserts.local_ transaction isOpen) runs
  local_ other member := by
    obtain ⟨isOther, different⟩ := mem_close.mp member
    refine annotated.undisturbed asserts.global (asserts.local_ transaction isOpen) (asserts.local_ other isOther) ?_
      (allowed other isOther different) runs
    intro lock holds alsoHolds
    exact different (asserts.exclusive other isOther transaction isOpen lock alsoHolds holds)
  exclusive := exclusive_close asserts.exclusive transaction.id next

/-- The assertions of an annotated program hold after every step that the open transactions permit. -/
theorem Asserts.step [DecidableEq κ] (annotated : Annotated enter program Global Local Allowed) (action : Scheduled β)
    (asserts : Asserts Global Local system) (permits : Permits program Allowed system action) :
    Asserts Global Local (step enter program system action) := by
  cases action with
  | begin id request =>
    show Asserts Global Local ((system.begin enter id request).getD system)
    cases begun : system.begin enter id request with
    | none => exact asserts
    | some next => exact asserts.begin annotated begun
  | abort id => exact asserts.close id
  | advance id =>
    show Asserts Global Local ((system.transactions.get? id).elim system (system.advance program))
    cases found : system.transactions.get? id with
    | none => exact asserts
    | some transaction =>
      obtain ⟨isOpen, sameId⟩ := Table.get?_eq_some.mp found
      have sameId : transaction.id = id := sameId
      rw [Option.elim_some]
      unfold advance
      cases runs : program system.committed transaction.stage with
      | rollback => exact asserts.close transaction.id
      | commit next =>
        refine asserts.commit annotated isOpen runs fun other isOther different => ?_
        exact permits transaction found next runs other isOther (sameId ▸ different)
      | proceed locks stage =>
        dsimp only
        split
        · rename_i free
          refine asserts.proceed annotated isOpen runs ?_ ?_
          · exact fun lock isLock => isFree_iff.mp (List.all_eq_true.mp free lock isLock)
          · intro other member
            obtain ⟨old, isOld, rewritten⟩ := Table.mem_update.mp member
            by_cases same : old.id = transaction.id
            · rw [decide_eq_true same, if_pos rfl, same] at rewritten
              exact .inr rewritten
            · rw [decide_eq_false same, if_neg Bool.false_ne_true] at rewritten
              exact .inl (rewritten ▸ ⟨isOld, same⟩)
        · exact asserts

/-- What is committed changes by the commit of an open transaction. -/
theorem committed_step [DecidableEq κ] (enter : σ → β → Option π) (program : σ → π → Outcome σ π κ)
    (system : Interleaving σ π κ) (action : Scheduled β) :
    (step enter program system action).committed = system.committed ∨
      ∃ id transaction, action = .advance id ∧ system.transactions.get? id = some transaction ∧
        program system.committed transaction.stage = .commit (step enter program system action).committed := by
  cases action with
  | begin id request =>
    left
    show ((system.begin enter id request).getD system).committed = system.committed
    cases begun : system.begin enter id request with
    | none => rfl
    | some next =>
      simp only [Interleaving.begin, Option.bind_eq_some_iff, Option.map_eq_some_iff] at begun
      obtain ⟨stage, -, transactions, -, rfl⟩ := begun
      rfl
  | abort id => exact .inl rfl
  | advance id =>
    cases found : system.transactions.get? id with
    | none =>
      left
      show ((system.transactions.get? id).elim system (system.advance program)).committed = system.committed
      rw [found]
      rfl
    | some transaction =>
      have stepped : step enter program system (.advance id) = system.advance program transaction := by
        show (system.transactions.get? id).elim system (system.advance program) = system.advance program transaction
        rw [found]
        rfl
      rw [stepped]
      unfold advance
      cases runs : program system.committed transaction.stage with
      | rollback => exact .inl rfl
      | commit next => exact .inr ⟨id, transaction, rfl, found, runs⟩
      | proceed locks stage =>
        left
        dsimp only
        split <;> rfl

end

end Interleaving

end Mcplica.Library
