import Mathlib.Algebra.Order.Ring.Rat
import Mathlib.Logic.Function.Basic
import Mcplica.Library.Run

/-! # Cells that are refreshed under a lock

Every key has a cell and a lock. A call answers from the cell if it can. Otherwise it waits for the lock, looks at the cell
again and fetches; when the fetch succeeds, its result goes into the cell, and the lock is free again however it ends. Calls
are named by numbers. Nothing but the clock moves between two suspensions of a call, so each step is one of these. -/

namespace Mcplica.Library.Refresh

universe u

/-- What a call does with its request, the cell of its key and the time. -/
structure Protocol (κ ρ χ ω σ α : Type u) where
  key : ρ → κ
  initial : χ
  /-- The answer without the lock. -/
  peek : ρ → χ → ℚ → Option α
  /-- The answer with the lock; without one the call fetches. -/
  enter : ρ → χ → ℚ → Option α
  /-- The result of a fetch that does not raise. -/
  success : ω → Option σ
  store : σ → ℚ → χ
  answer : ρ → σ → α

inductive Call (ρ : Type u) where
  /-- There is no such call yet. -/
  | absent
  | waiting (request : ρ)
  /-- The call holds the lock. -/
  | fetching (request : ρ)
  | ended

inductive Event (ρ σ α : Type u) where
  | started (call : Nat) (request : ρ) (time : ℚ)
  | succeeded (call : Nat) (request : ρ) (result : σ) (time : ℚ)
  /-- The fetch has raised or was cancelled. -/
  | failed (call : Nat) (request : ρ) (time : ℚ)
  | answered (call : Nat) (request : ρ) (answer : α) (time : ℚ)

def Event.time {ρ σ α : Type u} : Event ρ σ α → ℚ
  | started _ _ time | succeeded _ _ _ time | failed _ _ time | answered _ _ _ time => time

structure State (κ ρ χ σ α : Type u) where
  clock : ℚ
  cells : κ → χ
  holders : κ → Option Nat := fun _ => none
  calls : Nat → Call ρ := fun _ => .absent
  /-- What has happened, the last event first; no step reads it. -/
  log : List (Event ρ σ α) := []

inductive Action (ρ ω : Type u) where
  | advance (time : ℚ)
  | arrive (call : Nat) (request : ρ)
  /-- A call that waits finds the lock free. -/
  | acquire (call : Nat)
  | finish (call : Nat) (outcome : ω)
  | cancel (call : Nat)

section

variable {κ ρ χ ω σ α : Type u} [DecidableEq κ] (protocol : Protocol κ ρ χ ω σ α)

namespace State

variable (state : State κ ρ χ σ α) (call : Nat) (request : ρ)

def setCall (value : Call ρ) : State κ ρ χ σ α :=
  { state with calls := Function.update state.calls call value }

def record (event : Event ρ σ α) : State κ ρ χ σ α :=
  { state with log := event :: state.log }

def hold (key : κ) (holder : Option Nat) : State κ ρ χ σ α :=
  { state with holders := Function.update state.holders key holder }

def reply (answer : α) : State κ ρ χ σ α :=
  (state.setCall call .ended).record (.answered call request answer state.clock)

def begin : State κ ρ χ σ α :=
  ((state.setCall call (.fetching request)).hold (protocol.key request) (some call)).record
    (.started call request state.clock)

def fail : State κ ρ χ σ α :=
  ((state.setCall call .ended).hold (protocol.key request) none).record (.failed call request state.clock)

/-- The cell of the key gets a result. -/
def keep (result : σ) : State κ ρ χ σ α :=
  { state with cells := Function.update state.cells (protocol.key request) (protocol.store result state.clock) }

def succeed (result : σ) : State κ ρ χ σ α :=
  ((((state.setCall call .ended).hold (protocol.key request) none).keep protocol request result).record
    (.succeeded call request result state.clock)).record
      (.answered call request (protocol.answer request result) state.clock)

end State

def initialState (clock : ℚ) : State κ ρ χ σ α :=
  { clock, cells := fun _ => protocol.initial }

def step (state : State κ ρ χ σ α) : Action ρ ω → State κ ρ χ σ α
  | .advance time => { state with clock := max state.clock time }
  | .arrive call request => match state.calls call with
    | .absent => match protocol.peek request (state.cells (protocol.key request)) state.clock with
      | some answer => state.reply call request answer
      | none => state.setCall call (.waiting request)
    | _ => state
  | .acquire call => match state.calls call with
    | .waiting request => match state.holders (protocol.key request) with
      | some _ => state
      | none => match protocol.enter request (state.cells (protocol.key request)) state.clock with
        | some answer => state.reply call request answer
        | none => state.begin protocol call request
    | _ => state
  | .finish call outcome => match state.calls call with
    | .fetching request => match protocol.success outcome with
      | some result => state.succeed protocol call request result
      | none => state.fail protocol call request
    | _ => state
  | .cancel call => match state.calls call with
    | .waiting _ => state.setCall call .ended
    | .fetching request => state.fail protocol call request
    | _ => state

/-- What a step can do. -/
inductive Moves (state : State κ ρ χ σ α) : Action ρ ω → State κ ρ χ σ α → Prop where
  | nothing {action} : Moves state action state
  | advance {time} : Moves state (.advance time) { state with clock := max state.clock time }
  | idle {action call value} : (∀ request, state.calls call ≠ .fetching request) → (∀ request, value ≠ .fetching request) →
      Moves state action (state.setCall call value)
  | peeked {call request answer} : state.calls call = .absent →
      protocol.peek request (state.cells (protocol.key request)) state.clock = some answer →
      Moves state (.arrive call request) (state.reply call request answer)
  | entered {call request answer} : state.calls call = .waiting request →
      protocol.enter request (state.cells (protocol.key request)) state.clock = some answer →
      Moves state (.acquire call) (state.reply call request answer)
  | begun {call request} : state.calls call = .waiting request → state.holders (protocol.key request) = none →
      protocol.enter request (state.cells (protocol.key request)) state.clock = none →
      Moves state (.acquire call) (state.begin protocol call request)
  | succeeded {call request outcome result} : state.calls call = .fetching request →
      protocol.success outcome = some result →
      Moves state (.finish call outcome) (state.succeed protocol call request result)
  | raised {call request outcome} : state.calls call = .fetching request → protocol.success outcome = none →
      Moves state (.finish call outcome) (state.fail protocol call request)
  | cancelled {call request} : state.calls call = .fetching request →
      Moves state (.cancel call) (state.fail protocol call request)

theorem moves_step (state : State κ ρ χ σ α) (action : Action ρ ω) :
    Moves protocol state action (step protocol state action) := by
  cases action with
  | advance time => exact .advance
  | arrive call request =>
    rw [step]
    split
    · rename_i absent
      split
      · rename_i answered
        exact .peeked absent answered
      · exact .idle (fun _ => by rw [absent]; exact nofun) fun _ => nofun
    · exact .nothing
  | acquire call =>
    rw [step]
    split
    · rename_i waits
      split
      · exact .nothing
      · rename_i free
        split
        · rename_i answered
          exact .entered waits answered
        · rename_i unanswered
          exact .begun waits free unanswered
    · exact .nothing
  | finish call outcome =>
    rw [step]
    split
    · rename_i fetches
      split
      · rename_i isResult
        exact .succeeded fetches isResult
      · rename_i raises
        exact .raised fetches raises
    · exact .nothing
  | cancel call =>
    rw [step]
    split
    · rename_i waits
      exact .idle (fun _ => by rw [waits]; exact nofun) fun _ => nofun
    · rename_i fetches
      exact .cancelled fetches
    · exact .nothing

/-! ## What is known of a cell -/

/-- The last fetch for a key that succeeded, and when. -/
def latest (key : κ) : List (Event ρ σ α) → Option (σ × ℚ)
  | [] => none
  | .succeeded _ request result time :: older => if protocol.key request = key then some (result, time) else latest key older
  | .started .. :: older | .failed .. :: older | .answered .. :: older => latest key older

/-- The cell that follows from what has happened. -/
def cellAt (log : List (Event ρ σ α)) (key : κ) : χ :=
  match latest protocol key log with
  | some (result, time) => protocol.store result time
  | none => protocol.initial

/-- An answer comes from the cell, or from the fetch that has just succeeded. -/
def Justified (older : List (Event ρ σ α)) (request : ρ) (answer : α) (time : ℚ) : Prop :=
  protocol.peek request (cellAt protocol older (protocol.key request)) time = some answer ∨
  protocol.enter request (cellAt protocol older (protocol.key request)) time = some answer ∨
  ∃ result, latest protocol (protocol.key request) older = some (result, time) ∧ protocol.answer request result = answer

structure Sound (state : State κ ρ χ σ α) : Prop where
  exclusive : ∀ call request, state.calls call = .fetching request → state.holders (protocol.key request) = some call
  cells : ∀ key, state.cells key = cellAt protocol state.log key
  past : ∀ event ∈ state.log, event.time ≤ state.clock
  answers : ∀ call request answer time older, .answered call request answer time :: older <:+ state.log →
    Justified protocol older request answer time

variable {protocol} {state : State κ ρ χ σ α} {call : Nat} {request : ρ}

/-- For a key one call fetches. -/
theorem Sound.fetch_unique (sound : Sound protocol state) {other : Nat} {otherRequest : ρ}
    (fetches : state.calls call = .fetching request) (alsoFetches : state.calls other = .fetching otherRequest)
    (sameKey : protocol.key request = protocol.key otherRequest) : call = other := by
  have holds := sound.exclusive call request fetches
  rw [sameKey, sound.exclusive other otherRequest alsoFetches] at holds
  exact (Option.some.inj holds).symm

theorem Sound.initialState (clock : ℚ) : Sound protocol (initialState protocol clock) where
  exclusive _ _ fetches := by cases fetches
  cells _ := rfl
  past _ member := by cases member
  answers _ _ _ _ _ isSuffix := by cases List.suffix_nil.mp isSuffix

omit [DecidableEq κ] in
theorem setCall_self {value : Call ρ} : (state.setCall call value).calls call = value :=
  Function.update_self ..

omit [DecidableEq κ] in
theorem setCall_of_ne {value : Call ρ} {other : Nat} (different : other ≠ call) :
    (state.setCall call value).calls other = state.calls other :=
  Function.update_of_ne different ..

theorem latest_record_of_not_succeeded {event : Event ρ σ α} {log : List (Event ρ σ α)}
    (other : ∀ call request result time, event ≠ .succeeded call request result time) (key : κ) :
    latest protocol key (event :: log) = latest protocol key log := by
  cases event with
  | succeeded call request result time => exact absurd rfl (other call request result time)
  | started | failed | answered => rfl

namespace Sound

theorem advance (sound : Sound protocol state) (time : ℚ) : Sound protocol { state with clock := max state.clock time } :=
  ⟨sound.exclusive, sound.cells, fun event member => (sound.past event member).trans (le_max_left _ _), sound.answers⟩

/-- A call that does not fetch from now on. -/
theorem setCall (sound : Sound protocol state) {value : Call ρ} (idle : ∀ request, value ≠ .fetching request) :
    Sound protocol (state.setCall call value) where
  exclusive other request fetches := by
    by_cases same : other = call
    · subst same
      rw [setCall_self] at fetches
      exact absurd fetches (idle request)
    · rw [setCall_of_ne same] at fetches
      exact sound.exclusive other request fetches
  cells := sound.cells
  past := sound.past
  answers := sound.answers

/-- An event other than an answer. -/
theorem record (sound : Sound protocol state) {event : Event ρ σ α} (now : event.time = state.clock)
    (cells : ∀ key, state.cells key = cellAt protocol (event :: state.log) key)
    (answers : ∀ call request answer time, event = .answered call request answer time →
      Justified protocol state.log request answer time) : Sound protocol (state.record event) where
  exclusive := sound.exclusive
  cells := cells
  past other member := by
    rcases List.mem_cons.mp member with rfl | isOld
    · exact now.le
    · exact sound.past other isOld
  answers call request answer time older isSuffix := by
    rcases List.suffix_cons_iff.mp isSuffix with same | isOld
    · cases same
      exact answers call request answer time rfl
    · exact sound.answers call request answer time older isOld

/-- An event that no cell depends on. -/
theorem recordOther (sound : Sound protocol state) {event : Event ρ σ α} (now : event.time = state.clock)
    (other : ∀ call request result time, event ≠ .succeeded call request result time)
    (answers : ∀ call request answer time, event = .answered call request answer time →
      Justified protocol state.log request answer time) : Sound protocol (state.record event) := by
  refine sound.record now (fun key => ?_) answers
  rw [cellAt, latest_record_of_not_succeeded other]
  exact sound.cells key

theorem reply (sound : Sound protocol state) {answer : α}
    (justified : Justified protocol state.log request answer state.clock) :
    Sound protocol (state.reply call request answer) := by
  have ended : Sound protocol (state.setCall call .ended) := sound.setCall fun _ => nofun
  refine ended.recordOther rfl (fun _ _ _ _ => nofun) ?_
  intro _ _ _ _ same
  cases same
  exact justified

/-- The lock goes to a call when it is free. -/
theorem begin (sound : Sound protocol state) (free : state.holders (protocol.key request) = none) :
    Sound protocol (state.begin protocol call request) := by
  have held : Sound protocol
      ((state.setCall call (.fetching request)).hold (protocol.key request) (some call)) := by
    refine ⟨?_, sound.cells, sound.past, sound.answers⟩
    intro other otherRequest fetches
    by_cases same : other = call
    · subst same
      have isRequest : Call.fetching request = Call.fetching otherRequest := setCall_self.symm.trans fetches
      cases isRequest
      exact Function.update_self ..
    · have holds := sound.exclusive other otherRequest ((setCall_of_ne same).symm.trans fetches)
      have otherKey : protocol.key otherRequest ≠ protocol.key request := by
        intro sameKey
        rw [sameKey, free] at holds
        cases holds
      exact (Function.update_of_ne otherKey ..).trans holds
  exact held.recordOther rfl (fun _ _ _ _ => nofun) fun _ _ _ _ => nofun

/-- The call that fetches gives the lock back. -/
theorem release (sound : Sound protocol state) (fetches : state.calls call = .fetching request) :
    Sound protocol ((state.setCall call .ended).hold (protocol.key request) none) := by
  refine ⟨?_, sound.cells, sound.past, sound.answers⟩
  intro other otherRequest alsoFetches
  have different : other ≠ call := by
    rintro rfl
    cases setCall_self.symm.trans alsoFetches
  have fetched : state.calls other = .fetching otherRequest := (setCall_of_ne different).symm.trans alsoFetches
  have otherKey : protocol.key otherRequest ≠ protocol.key request :=
    fun sameKey => different (sound.fetch_unique fetched fetches sameKey)
  exact (Function.update_of_ne otherKey ..).trans (sound.exclusive other otherRequest fetched)

theorem fail (sound : Sound protocol state) (fetches : state.calls call = .fetching request) :
    Sound protocol (state.fail protocol call request) :=
  (sound.release fetches).recordOther rfl (fun _ _ _ _ => nofun) fun _ _ _ _ => nofun

/-- A result is recorded and goes into the cell. -/
theorem keep (sound : Sound protocol state) (call : Nat) (request : ρ) (result : σ) :
    Sound protocol ((state.keep protocol request result).record (.succeeded call request result state.clock)) where
  exclusive := sound.exclusive
  cells key := by
    show Function.update state.cells (protocol.key request) (protocol.store result state.clock) key =
      match if protocol.key request = key then some (result, state.clock) else latest protocol key state.log with
      | some (result, time) => protocol.store result time
      | none => protocol.initial
    by_cases same : protocol.key request = key
    · subst same
      rw [Function.update_self, if_pos rfl]
    · rw [Function.update_of_ne (Ne.symm same), if_neg same]
      exact sound.cells key
  past event member := by
    rcases List.mem_cons.mp member with rfl | isOld
    · exact le_refl _
    · exact sound.past event isOld
  answers otherCall otherRequest answer time older isSuffix := by
    rcases List.suffix_cons_iff.mp isSuffix with same | isOld
    · cases same
    · exact sound.answers otherCall otherRequest answer time older isOld

theorem succeed (sound : Sound protocol state) (fetches : state.calls call = .fetching request) (result : σ) :
    Sound protocol (state.succeed protocol call request result) := by
  refine ((sound.release fetches).keep call request result).recordOther rfl (fun _ _ _ _ => nofun) ?_
  intro _ _ _ _ same
  cases same
  exact .inr (.inr ⟨result, if_pos rfl, rfl⟩)

theorem move (sound : Sound protocol state) {action : Action ρ ω} {next : State κ ρ χ σ α}
    (moves : Moves protocol state action next) : Sound protocol next := by
  cases moves with
  | nothing => exact sound
  | advance => exact sound.advance _
  | idle _ idle => exact sound.setCall idle
  | peeked _ answered =>
    rw [sound.cells] at answered
    exact sound.reply (.inl answered)
  | entered _ answered =>
    rw [sound.cells] at answered
    exact sound.reply (.inr (.inl answered))
  | begun _ free _ => exact sound.begin free
  | succeeded fetches _ => exact sound.succeed fetches _
  | raised fetches _ => exact sound.fail fetches
  | cancelled fetches => exact sound.fail fetches

theorem step (sound : Sound protocol state) (action : Action ρ ω) : Sound protocol (step protocol state action) :=
  sound.move (moves_step protocol state action)

theorem run (clock : ℚ) (actions : List (Action ρ ω)) :
    Sound protocol (run (Refresh.step protocol) (Refresh.initialState protocol clock) actions) :=
  run_invariant (Sound protocol) (fun _ action sound => sound.step action) (.initialState clock) actions

end Sound

/-! ## Results -/

theorem mem_of_latest {log : List (Event ρ σ α)} {key : κ} {result : σ} {time : ℚ}
    (isLatest : latest protocol key log = some (result, time)) :
    ∃ call request, .succeeded call request result time ∈ log := by
  induction log with
  | nil => cases isLatest
  | cons event older ih =>
    have inOlder (found : latest protocol key older = some (result, time)) :
        ∃ call request, .succeeded call request result time ∈ event :: older := by
      obtain ⟨call, request, member⟩ := ih found
      exact ⟨call, request, List.mem_cons_of_mem event member⟩
    cases event with
    | succeeded call request other otherTime =>
      by_cases same : protocol.key request = key
      · have isOther : some (other, otherTime) = some (result, time) := (if_pos same).symm.trans isLatest
        cases isOther
        exact ⟨call, request, List.mem_cons_self⟩
      · exact inOlder ((if_neg same).symm.trans isLatest)
    | started | failed | answered => exact inOlder isLatest

/-- Every fetch that succeeds has a result with the property. -/
def Yields (protocol : Protocol κ ρ χ ω σ α) (holds : σ → Prop) (_ : State κ ρ χ σ α) : Action ρ ω → Prop
  | .finish _ outcome => ∀ result, protocol.success outcome = some result → holds result
  | _ => True

def Recorded (holds : σ → Prop) (state : State κ ρ χ σ α) : Prop :=
  ∀ call request result time, .succeeded call request result time ∈ state.log → holds result

theorem Recorded.step {holds : σ → Prop} (recorded : Recorded holds state) {action : Action ρ ω}
    (yields : Yields protocol holds state action) : Recorded holds (step protocol state action) := by
  intro call request result time member
  have moves := moves_step protocol state action
  generalize Refresh.step protocol state action = next at moves member
  cases moves with
  | nothing | advance | idle => exact recorded call request result time member
  | peeked | entered | begun | raised | cancelled =>
    rcases List.mem_cons.mp member with same | isOld
    · cases same
    · exact recorded call request result time isOld
  | succeeded fetches isResult =>
    rcases List.mem_cons.mp member with same | isLater
    · cases same
    rcases List.mem_cons.mp isLater with same | isOld
    · cases same
      exact yields result isResult
    · exact recorded call request result time isOld

/-- What every fetch yields is true of every result that is recorded. -/
theorem Recorded.run {holds : σ → Prop} {clock : ℚ} {actions : List (Action ρ ω)}
    (yields : Along (Refresh.step protocol) (Yields protocol holds) (Refresh.initialState protocol clock) actions) :
    Recorded holds (Library.run (Refresh.step protocol) (Refresh.initialState protocol clock) actions) := by
  have initial : Recorded holds (Refresh.initialState protocol clock) := by
    intro call request result time member
    cases member
  exact run_invariant_along (fun _ _ yields recorded => Recorded.step recorded yields) initial yields

end

end Mcplica.Library.Refresh
