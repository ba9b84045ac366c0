import Mathlib.Data.List.Nodup
import Mathlib.Tactic.Common

/-! # Runs of a transition function

A system is a function `step : σ → α → σ`. Everything the environment decides (clock readings, fresh
identifiers, which rows are locked, which caller comes next) is part of the action, and an action
that is refused leaves the state as it is, so a run is any list of actions. -/

namespace Mcplica.Library

universe u v w

/-- A transaction that raises is rolled back. -/
def commit {σ : Type u} {ε : Type v} (state : σ) : Except ε σ → σ
  | .ok next => next
  | .error _ => state

@[simp] theorem commit_ok {σ : Type u} {ε : Type v} (state next : σ) :
    commit (ε := ε) state (.ok next) = next := rfl

@[simp] theorem commit_error {σ : Type u} {ε : Type v} (state : σ) (error : ε) :
    commit state (.error error) = state := rfl

/-- What holds before a transaction and after it is committed holds in either case. -/
theorem commit_induction {σ : Type u} {ε : Type v} {P : σ → Prop} {state : σ} {result : Except ε σ}
    (before : P state) (after : ∀ next, result = .ok next → P next) : P (commit state result) := by
  cases result with
  | ok next => exact after next rfl
  | error _ => exact before

theorem bind_eq_ok {ε : Type u} {α β : Type v} {first : Except ε α} {rest : α → Except ε β} {value : β} :
    (first >>= rest) = .ok value ↔ ∃ middle, first = .ok middle ∧ rest middle = .ok value := by
  cases first with
  | error _ => simp [bind, Except.bind]
  | ok middle => simp [bind, Except.bind]

section

variable {σ : Type u} {α : Type v} (step : σ → α → σ)

def run (state : σ) (actions : List α) : σ :=
  actions.foldl step state

@[simp] theorem run_nil (state : σ) : run step state [] = state := rfl

@[simp] theorem run_cons (state : σ) (action : α) (actions : List α) :
    run step state (action :: actions) = run step (step state action) actions := rfl

theorem run_append (state : σ) (first second : List α) :
    run step state (first ++ second) = run step (run step state first) second :=
  List.foldl_append

/-- The steps of a run: every action with the state it was taken in. -/
def trace (state : σ) : List α → List (σ × α)
  | [] => []
  | action :: actions => (state, action) :: trace (step state action) actions

/-- Every step of the run meets the condition, which may look at the state before the step. -/
def Along (condition : σ → α → Prop) (state : σ) (actions : List α) : Prop :=
  ∀ taken ∈ trace step state actions, condition taken.1 taken.2

variable {step}

@[simp] theorem along_nil {condition : σ → α → Prop} {state : σ} : Along step condition state [] := by
  intro taken member
  cases member

@[simp] theorem along_cons {condition : σ → α → Prop} {state : σ} {action : α} {actions : List α} :
    Along step condition state (action :: actions) ↔
      condition state action ∧ Along step condition (step state action) actions := by
  simp [Along, trace]

/-- A condition on every step holds of the step after any prefix. -/
theorem Along.split {condition : σ → α → Prop} {state : σ} {before : List α} {action : α} {after : List α}
    (met : Along step condition state (before ++ action :: after)) :
    condition (run step state before) action ∧ Along step condition (step (run step state before) action) after := by
  induction before generalizing state with
  | nil => exact along_cons.mp met
  | cons first before ih => exact ih (along_cons.mp met).2

theorem run_invariant (Invariant : σ → Prop) {state : σ}
    (preserved : ∀ state action, Invariant state → Invariant (step state action))
    (initial : Invariant state) (actions : List α) : Invariant (run step state actions) := by
  induction actions generalizing state with
  | nil => exact initial
  | cons action actions ih => exact ih (preserved state action initial)

/-- An invariant that only steps meeting a condition preserve holds along runs that meet it. -/
theorem run_invariant_along {condition : σ → α → Prop} {Invariant : σ → Prop} {state : σ} {actions : List α}
    (preserved : ∀ state action, condition state action → Invariant state → Invariant (step state action))
    (initial : Invariant state) (met : Along step condition state actions) :
    Invariant (run step state actions) := by
  induction actions generalizing state with
  | nil => exact initial
  | cons action actions ih =>
    obtain ⟨now, later⟩ := along_cons.mp met
    exact ih (preserved state action now initial) later

/-- What an invariant says about one step, it says about every step of a run. -/
theorem along_of_invariant {condition goal : σ → α → Prop} {Invariant : σ → Prop} {state : σ}
    {actions : List α}
    (preserved : ∀ state action, condition state action → Invariant state → Invariant (step state action))
    (safe : ∀ state action, condition state action → Invariant state → goal state action)
    (initial : Invariant state) (met : Along step condition state actions) :
    Along step goal state actions := by
  induction actions generalizing state with
  | nil => exact along_nil
  | cons action actions ih =>
    obtain ⟨now, later⟩ := along_cons.mp met
    exact along_cons.mpr
      ⟨safe state action now initial, ih (preserved state action now initial) later⟩

theorem along_of_forall {condition : σ → α → Prop} (always : ∀ state action, condition state action)
    (state : σ) (actions : List α) : Along step condition state actions :=
  fun taken _ => always taken.1 taken.2

/-- A condition on the actions alone. -/
theorem along_of_mem {condition : α → Prop} {state : σ} {actions : List α}
    (met : ∀ action ∈ actions, condition action) : Along step (fun _ action => condition action) state actions := by
  induction actions generalizing state with
  | nil => exact along_nil
  | cons action actions ih =>
    obtain ⟨now, later⟩ := List.forall_mem_cons.mp met
    exact along_cons.mpr ⟨now, ih later⟩

/-- The same for an invariant that every step preserves. -/
theorem along_of_preserved {goal : σ → α → Prop} (Invariant : σ → Prop) {state : σ}
    (preserved : ∀ state action, Invariant state → Invariant (step state action))
    (safe : ∀ state action, Invariant state → goal state action)
    (initial : Invariant state) (actions : List α) : Along step goal state actions :=
  along_of_invariant (fun state action _ => preserved state action) (fun state action _ => safe state action) initial
    (along_of_forall (fun _ _ => trivial) state actions)

/-- Two conditions that agree wherever an invariant holds are met along the same runs. -/
theorem along_congr {first second : σ → α → Prop} (Invariant : σ → Prop) {state : σ}
    (preserved : ∀ state action, Invariant state → Invariant (step state action))
    (same : ∀ state action, Invariant state → (first state action ↔ second state action))
    (initial : Invariant state) (actions : List α) : Along step first state actions ↔ Along step second state actions := by
  constructor
  · intro met
    exact along_of_invariant (fun state action _ => preserved state action)
      (fun state action holds invariant => (same state action invariant).mp holds) initial met
  · intro met
    exact along_of_invariant (fun state action _ => preserved state action)
      (fun state action holds invariant => (same state action invariant).mpr holds) initial met

end

/-! ## Events -/

section Events

variable {σ : Type u} {α : Type v} {ε : Type w} (step : σ → α → σ) (observe : σ → α → List ε)

/-- Everything observed in the course of a run, in order. -/
def events (state : σ) (actions : List α) : List ε :=
  (trace step state actions).flatMap fun taken => observe taken.1 taken.2

variable {step observe}

@[simp] theorem events_nil {state : σ} : events step observe state [] = [] := rfl

theorem events_cons {state : σ} {action : α} {actions : List α} :
    events step observe state (action :: actions) =
      observe state action ++ events step observe (step state action) actions := by
  simp [events, trace]

/-- A run observes no more than it can pay for, when every step pays for what is observed in it. -/
theorem length_events_le (Invariant : σ → Prop) (budget : σ → Nat)
    (preserved : ∀ state action, Invariant state → Invariant (step state action))
    (pays : ∀ state action, Invariant state → (observe state action).length + budget (step state action) ≤ budget state)
    {state : σ} (initial : Invariant state) (actions : List α) :
    (events step observe state actions).length ≤ budget state := by
  induction actions generalizing state with
  | nil => exact Nat.zero_le _
  | cons action actions ih =>
    have later := ih (preserved state action initial)
    have now := pays state action initial
    rw [events_cons, List.length_append]
    omega

variable (Invariant : σ → Prop) (Spent : σ → ε → Prop)

theorem not_mem_events_of_spent
    (preserved : ∀ state action, Invariant state → Invariant (step state action))
    (fresh : ∀ state action event, Invariant state → event ∈ observe state action → ¬ Spent state event)
    (stable : ∀ state action event, Invariant state → Spent state event → Spent (step state action) event)
    {state : σ} {event : ε} (initial : Invariant state) (spent : Spent state event) (actions : List α) :
    event ∉ events step observe state actions := by
  induction actions generalizing state with
  | nil => exact List.not_mem_nil
  | cons action actions ih =>
    rw [events_cons, List.mem_append, not_or]
    exact ⟨fun observed => fresh state action event initial observed spent,
      ih (preserved state action initial) (stable state action event initial spent)⟩

/-- No event occurs twice in a run when its occurrence spends it, a spent event cannot occur and
nothing makes it available again. -/
theorem events_nodup
    (preserved : ∀ state action, Invariant state → Invariant (step state action))
    (once : ∀ state action, Invariant state → (observe state action).Nodup)
    (fresh : ∀ state action event, Invariant state → event ∈ observe state action → ¬ Spent state event)
    (spends : ∀ state action event, Invariant state → event ∈ observe state action →
      Spent (step state action) event)
    (stable : ∀ state action event, Invariant state → Spent state event → Spent (step state action) event)
    {state : σ} (initial : Invariant state) (actions : List α) :
    (events step observe state actions).Nodup := by
  induction actions generalizing state with
  | nil => exact List.nodup_nil
  | cons action actions ih =>
    rw [events_cons, List.nodup_append]
    refine ⟨once state action initial, ih (preserved state action initial), ?_⟩
    rintro event observed other later rfl
    exact not_mem_events_of_spent Invariant Spent preserved fresh stable (preserved state action initial)
      (spends state action event initial observed) actions later

end Events

end Mcplica.Library
