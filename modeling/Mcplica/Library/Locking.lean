import Mathlib.Logic.Relation
import Mcplica.Library.Run
import Mcplica.Library.Table

/-! # Transactions that wait for locks

A transaction is a list of statements, each of which takes a lock; it holds its locks to its end. What it reads and which
branches it takes is decided when it begins. A system is a table of open transactions, and a deadlock is a cycle of
transactions that wait for each other. -/

namespace Mcplica.Library.Locking

universe u v w

inductive Statement (κ : Type v) where
  /-- waits until no other transaction holds the lock -/
  | await (lock : κ)
  /-- takes the lock if it is free, and skips the given number of statements if it is not -/
  | attempt (lock : κ) (guarded : Nat)
  deriving Repr, DecidableEq

structure Transaction (β : Type u) (κ : Type v) where
  id : Nat
  request : β
  remaining : List (Statement κ)
  locks : List κ
  deriving Repr, DecidableEq

instance {β : Type u} {κ : Type v} : Row (Transaction β κ) Nat := ⟨Transaction.id⟩

abbrev System (β : Type u) (κ : Type v) := Table (Transaction β κ)

inductive Action (β : Type u) where
  | begin (id : Nat) (request : β)
  /-- The next statement; after the last one the transaction ends. -/
  | advance (id : Nat)
  /-- The connection is lost, an exception is raised or a deadlock is resolved. -/
  | abort (id : Nat)
  deriving Repr, DecidableEq

section

variable {β : Type u} {κ : Type v} [DecidableEq κ]

/-- No other transaction holds the lock. -/
def isFree (system : System β κ) (id : Nat) (lock : κ) : Bool :=
  system.rows.all fun other => other.id = id || !other.locks.contains lock

def Transaction.take (transaction : Transaction β κ) (lock : κ) (rest : List (Statement κ)) : Transaction β κ :=
  { transaction with remaining := rest, locks := lock :: transaction.locks }

def Transaction.skip (transaction : Transaction β κ) (rest : List (Statement κ)) : Transaction β κ :=
  { transaction with remaining := rest }

/-- What a statement makes of its transaction; nothing while it waits. -/
def Transaction.advance (system : System β κ) (transaction : Transaction β κ) : Transaction β κ :=
  match transaction.remaining with
  | [] => transaction
  | .await lock :: rest => if isFree system transaction.id lock then transaction.take lock rest else transaction
  | .attempt lock guarded :: rest =>
    if isFree system transaction.id lock then transaction.take lock rest else transaction.skip (rest.drop guarded)

theorem Transaction.advance_id (system : System β κ) (transaction : Transaction β κ) :
    (transaction.advance system).id = transaction.id := by
  unfold Transaction.advance
  split
  · rfl
  · split <;> rfl
  · split <;> rfl

variable (program : β → List (Statement κ))

def step (system : System β κ) : Action β → System β κ
  | .begin id request => (system.insert ⟨id, request, program request, []⟩).getD system
  | .advance id => match system.get? id with
    | none => system
    | some transaction =>
      if transaction.remaining = [] then system.delete (·.id = id)
      else system.update (·.id = id) (Transaction.advance system) (Transaction.advance_id system)
  | .abort id => system.delete (·.id = id)

end

/-! ## Deadlocks -/

section

variable {β : Type u} {κ : Type v}

/-- The lock that the transaction cannot go on without. -/
def Transaction.wanted (transaction : Transaction β κ) : Option κ :=
  match transaction.remaining with
  | .await lock :: _ => some lock
  | _ => none

/-- The first transaction waits for a lock that the second one holds. -/
def Waits (system : System β κ) (transaction other : Transaction β κ) : Prop :=
  transaction ∈ system ∧ other ∈ system ∧ other.id ≠ transaction.id ∧
    ∃ lock, transaction.wanted = some lock ∧ lock ∈ other.locks

def Deadlocked (system : System β κ) : Prop :=
  ∃ transaction, Relation.TransGen (Waits system) transaction transaction

/-- The wanted lock comes after all that the transaction holds. -/
def Ordered {ρ : Type w} [LT ρ] (rank : κ → ρ) (transaction : Transaction β κ) : Prop :=
  ∀ lock, transaction.wanted = some lock → ∀ held ∈ transaction.locks, rank held < rank lock

variable {system : System β κ}

/-- A transaction in a cycle waits for one in a cycle. -/
theorem exists_next_of_cycle {transaction : Transaction β κ}
    (cycle : Relation.TransGen (Waits system) transaction transaction) : ∃ next, Waits system transaction next ∧
      Relation.TransGen (Waits system) next next ∧ Relation.ReflTransGen (Waits system) next transaction := by
  obtain ⟨next, waits, back⟩ := Relation.TransGen.head'_iff.mp cycle
  exact ⟨next, waits, Relation.TransGen.tail' back waits, back⟩

/-- There is no cycle of transactions that all wait in order. -/
theorem not_deadlocked_of_ordered {ρ : Type w} [Preorder ρ] {rank : κ → ρ}
    (ordered : ∀ transaction, Relation.TransGen (Waits system) transaction transaction → Ordered rank transaction) :
    ¬ Deadlocked system := by
  rintro ⟨transaction, cycle⟩
  -- along the cycle the wanted locks rise
  have rises : ∀ other, Relation.TransGen (Waits system) transaction other →
      Relation.ReflTransGen (Waits system) other transaction → ∀ lock, transaction.wanted = some lock →
      ∀ otherLock, other.wanted = some otherLock → rank lock < rank otherLock := by
    intro other path
    induction path with
    | single waits =>
      intro back lock isWanted otherLock isOther
      have ⟨_, _, _, held, isHeld, heldThere⟩ := waits
      cases isWanted.symm.trans isHeld
      exact ordered _ (Relation.TransGen.tail' back waits) otherLock isOther lock heldThere
    | @tail middle last path waits ih =>
      intro back lock isWanted otherLock isOther
      have ⟨_, _, _, held, isHeld, heldThere⟩ := waits
      have before := ih (Relation.ReflTransGen.head waits back) lock isWanted held isHeld
      have onCycle : Relation.TransGen (Waits system) last last :=
        Relation.TransGen.trans_right back (path.tail waits)
      exact before.trans (ordered _ onCycle otherLock isOther held heldThere)
  obtain ⟨next, ⟨-, -, -, lock, isWanted, -⟩, -, -⟩ := exists_next_of_cycle cycle
  exact lt_irrefl _ (rises transaction cycle .refl lock isWanted lock isWanted)

end

/-! ## Invariants -/

section

variable {β : Type u} {κ : Type v} [DecidableEq κ] {program : β → List (Statement κ)} {system : System β κ}

theorem isFree_iff {id : Nat} {lock : κ} : isFree system id lock = true ↔
    ∀ other ∈ system, other.id ≠ id → lock ∉ other.locks := by
  simp only [isFree, List.all_eq_true, Bool.or_eq_true, decide_eq_true_eq, Bool.not_eq_true', Table.mem_rows]
  refine forall₂_congr fun other _ => ?_
  rw [or_iff_not_imp_left, List.contains_eq_mem, decide_eq_false_iff_not]

/-- Two transactions that hold one lock are the same. -/
def Exclusive (system : System β κ) : Prop :=
  ∀ first ∈ system, ∀ second ∈ system, ∀ lock ∈ first.locks, lock ∈ second.locks → first.id = second.id

/-- What a transaction knows of itself from its beginning on, whatever the others do. -/
structure Local (program : β → List (Statement κ)) (P : Transaction β κ → Prop) : Prop where
  begins : ∀ id request, P ⟨id, request, program request, []⟩
  awaits : ∀ transaction lock rest, transaction.remaining = .await lock :: rest → P transaction → P (transaction.take lock rest)
  takes : ∀ transaction lock guarded rest, transaction.remaining = .attempt lock guarded :: rest → P transaction →
    P (transaction.take lock rest)
  skips : ∀ transaction lock guarded rest, transaction.remaining = .attempt lock guarded :: rest → P transaction →
    P (transaction.skip (rest.drop guarded))

omit [DecidableEq κ] in
theorem Local.and {P Q : Transaction β κ → Prop} (left : Local program P) (right : Local program Q) :
    Local program fun transaction => P transaction ∧ Q transaction where
  begins id request := ⟨left.begins id request, right.begins id request⟩
  awaits transaction lock rest isNext holds :=
    ⟨left.awaits transaction lock rest isNext holds.1, right.awaits transaction lock rest isNext holds.2⟩
  takes transaction lock guarded rest isNext holds :=
    ⟨left.takes transaction lock guarded rest isNext holds.1, right.takes transaction lock guarded rest isNext holds.2⟩
  skips transaction lock guarded rest isNext holds :=
    ⟨left.skips transaction lock guarded rest isNext holds.1, right.skips transaction lock guarded rest isNext holds.2⟩

theorem Local.advance {P : Transaction β κ → Prop} (isLocal : Local program P) {transaction : Transaction β κ}
    (holds : P transaction) : P (transaction.advance system) := by
  unfold Transaction.advance
  split
  · exact holds
  · rename_i lock rest isNext
    split
    · exact isLocal.awaits transaction lock rest isNext holds
    · exact holds
  · rename_i lock guarded rest isNext
    split
    · exact isLocal.takes transaction lock guarded rest isNext holds
    · exact isLocal.skips transaction lock guarded rest isNext holds

/-- A statement adds to the locks of its transaction one that is free. -/
theorem mem_locks_advance {transaction : Transaction β κ} {lock : κ}
    (held : lock ∈ (transaction.advance system).locks) : lock ∈ transaction.locks ∨ isFree system transaction.id lock = true := by
  unfold Transaction.advance at held
  split at held
  · exact .inl held
  · split at held
    · rename_i free
      rcases List.mem_cons.mp held with rfl | before
      · exact .inr free
      · exact .inl before
    · exact .inl held
  · split at held
    · rename_i free
      rcases List.mem_cons.mp held with rfl | before
      · exact .inr free
      · exact .inl before
    · exact .inl held

/-- What all reachable systems have: locks are exclusive, and every transaction knows what it knows of itself. -/
structure Sound (P : Transaction β κ → Prop) (system : System β κ) : Prop where
  exclusive : Exclusive system
  local_ : ∀ transaction ∈ system, P transaction

omit [DecidableEq κ] in
theorem Sound.empty (P : Transaction β κ → Prop) : Sound P (Table.empty : System β κ) :=
  ⟨fun _ member => (Table.not_mem_empty _ member).elim, fun _ member => (Table.not_mem_empty _ member).elim⟩

omit [DecidableEq κ] in
theorem Sound.delete {P : Transaction β κ → Prop} (sound : Sound P system) (where_ : Transaction β κ → Bool) :
    Sound P (system.delete where_) where
  exclusive first isFirst second isSecond :=
    sound.exclusive first (Table.mem_delete.mp isFirst).1 second (Table.mem_delete.mp isSecond).1
  local_ transaction member := sound.local_ transaction (Table.mem_delete.mp member).1

omit [DecidableEq κ] in
theorem Sound.begin {P : Transaction β κ → Prop} (isLocal : Local program P) (sound : Sound P system) {id : Nat}
    {request : β} {next : System β κ} (begun : system.insert ⟨id, request, program request, []⟩ = some next) :
    Sound P next := by
  have member : ∀ transaction ∈ next, transaction ∈ system ∨ transaction = ⟨id, request, program request, []⟩ :=
    fun transaction isOpen => (Table.mem_insert begun).mp isOpen
  constructor
  · intro first isFirst second isSecond lock heldFirst heldSecond
    rcases member first isFirst with oldFirst | rfl
    · rcases member second isSecond with oldSecond | rfl
      · exact sound.exclusive first oldFirst second oldSecond lock heldFirst heldSecond
      · cases heldSecond
    · cases heldFirst
  · intro transaction isOpen
    rcases member transaction isOpen with old | rfl
    · exact sound.local_ transaction old
    · exact isLocal.begins id request

theorem Sound.advance {P : Transaction β κ → Prop} (isLocal : Local program P) (sound : Sound P system) (id : Nat) :
    Sound P (system.update (·.id = id) (Transaction.advance system) (Transaction.advance_id system)) := by
  constructor
  · intro first isFirst second isSecond lock heldFirst heldSecond
    obtain ⟨oldFirst, isOldFirst, rfl⟩ := Table.mem_update.mp isFirst
    obtain ⟨oldSecond, isOldSecond, rfl⟩ := Table.mem_update.mp isSecond
    have unchanged := sound.exclusive oldFirst isOldFirst oldSecond isOldSecond lock
    by_cases firstMoves : oldFirst.id = id <;> by_cases secondMoves : oldSecond.id = id
    · simp [firstMoves, secondMoves, Transaction.advance_id]
    · rw [if_pos (by simpa using firstMoves)] at heldFirst ⊢
      rw [if_neg (by simpa using secondMoves)] at heldSecond ⊢
      rw [Transaction.advance_id]
      rcases mem_locks_advance heldFirst with before | free
      · exact unchanged before heldSecond
      · exact absurd heldSecond (isFree_iff.mp free oldSecond isOldSecond fun same => secondMoves (same.trans firstMoves))
    · rw [if_neg (by simpa using firstMoves)] at heldFirst ⊢
      rw [if_pos (by simpa using secondMoves)] at heldSecond ⊢
      rw [Transaction.advance_id]
      rcases mem_locks_advance heldSecond with before | free
      · exact unchanged heldFirst before
      · exact absurd heldFirst (isFree_iff.mp free oldFirst isOldFirst fun same => firstMoves (same.trans secondMoves))
    · rw [if_neg (by simpa using firstMoves)] at heldFirst ⊢
      rw [if_neg (by simpa using secondMoves)] at heldSecond ⊢
      exact unchanged heldFirst heldSecond
  · intro transaction member
    obtain ⟨old, isOld, rfl⟩ := Table.mem_update.mp member
    split
    · exact isLocal.advance (sound.local_ old isOld)
    · exact sound.local_ old isOld

theorem Sound.step {P : Transaction β κ → Prop} (isLocal : Local program P) (sound : Sound P system) (action : Action β) :
    Sound P (step program system action) := by
  cases action with
  | begin id request =>
    rw [Locking.step]
    cases begun : system.insert ⟨id, request, program request, []⟩ with
    | none => exact sound
    | some next => exact sound.begin isLocal begun
  | advance id =>
    rw [Locking.step]
    split
    · exact sound
    · split
      · exact sound.delete _
      · exact sound.advance isLocal id
  | abort id => exact sound.delete _

/-- Every system that is reached from none has the invariant. -/
theorem Sound.run {P : Transaction β κ → Prop} (isLocal : Local program P) (actions : List (Action β)) :
    Sound P (run (Locking.step program) Table.empty actions) :=
  run_invariant (Sound P) (fun _ action sound => sound.step isLocal action) (.empty P) actions

/-! ## Statements that wait -/

/-- The transaction holds the locks of the statements it has passed. -/
def Passed (program : β → List (Statement κ)) (transaction : Transaction β κ) : Prop :=
  ∃ passed, program transaction.request = passed ++ transaction.remaining ∧
    ∀ lock, lock ∈ transaction.locks ↔ .await lock ∈ passed

omit [DecidableEq κ] in
/-- A transaction whose statements all wait holds just the locks it has waited for. -/
theorem local_passed : Local program fun transaction =>
    (∀ statement ∈ program transaction.request, ∃ lock, statement = .await lock) → Passed program transaction where
  begins id request _ := ⟨[], rfl, fun _ => by simp⟩
  awaits transaction lock rest isNext holds allWait := by
    obtain ⟨passed, isProgram, held⟩ := holds allWait
    refine ⟨passed ++ [.await lock], ?_, ?_⟩
    · rw [isNext] at isProgram
      exact isProgram.trans (List.append_cons ..)
    · intro other
      rw [Transaction.take, List.mem_cons, List.mem_append, List.mem_singleton, held, or_comm]
      simp
  takes transaction lock guarded rest isNext holds allWait := by
    obtain ⟨passed, isProgram, -⟩ := holds allWait
    have isStatement : Statement.attempt lock guarded ∈ program transaction.request := by simp [isProgram, isNext]
    obtain ⟨other, isAwait⟩ := allWait _ isStatement
    cases isAwait
  skips transaction lock guarded rest isNext holds allWait := by
    obtain ⟨passed, isProgram, -⟩ := holds allWait
    have isStatement : Statement.attempt lock guarded ∈ program transaction.request := by simp [isProgram, isNext]
    obtain ⟨other, isAwait⟩ := allWait _ isStatement
    cases isAwait

end

end Mcplica.Library.Locking
