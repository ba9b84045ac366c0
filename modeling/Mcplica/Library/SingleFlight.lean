import Mathlib.Logic.Function.Basic
import Mcplica.Library.Checks

/-! # Single flight

A cache in front of a slow computation. The first call for a key becomes the leader and computes; calls for the same
key that arrive meanwhile follow it, that is, they wait for its future. A failure is kept for a while, and a call for
its key within that time raises it again. Calls are named by numbers, and a future by the call that created it. -/

namespace Mcplica.Library.SingleFlight

universe u v w

inductive Future (ρ : Type v) (φ : Type w) where
  | pending
  | finished (result : ρ)
  | failed (failure : φ)
  | cancelled

/-- Where a call stands. -/
inductive Call (κ : Type u) (ρ : Type v) (φ : Type w) where
  /-- There is no such call yet. -/
  | absent
  /-- The call has not looked its key up yet. -/
  | waiting
  | leading (key : κ)
  | following (key : κ) (future : Nat)
  /-- It was refused before it had a key. -/
  | refused (failure : φ)
  | returned (key : κ) (result : ρ)
  /-- When it raised, and the future it was waiting for. -/
  | raised (key : κ) (failure : φ) (time : Nat) (awaited : Option Nat)
  | cancelled

/-- A computation that ended by itself. -/
structure Computation (κ : Type u) (ρ : Type v) (φ : Type w) where
  leader : Nat
  key : κ
  outcome : Except φ ρ
  time : Nat

structure State (κ : Type u) (ρ : Type v) (φ : Type w) where
  clock : Nat := 0
  cache : List (κ × ρ) := []
  failures : List (κ × Nat × φ) := []
  inflight : List (κ × Nat) := []
  futures : Nat → Option (Future ρ φ) := fun _ => none
  calls : Nat → Call κ ρ φ := fun _ => .absent
  /-- The computations that have ended; no step reads them. -/
  log : List (Computation κ ρ φ) := []

inductive Action (κ : Type u) (ρ : Type v) (φ : Type w) where
  | advance (duration : Nat)
  | arrive (call : Nat)
  /-- The call looks its key up, or finds that it has none. -/
  | lookUp (call : Nat) (key : Except φ κ)
  /-- The computation of a leader ends. -/
  | finish (call : Nat) (outcome : Except φ ρ)
  /-- The event loop resumes a call whose future is done. -/
  | resume (call : Nat)
  | cancel (call : Nat)

section

variable {κ : Type u} {ρ : Type v} {φ : Type w}

/-! ## Dictionaries -/

def State.setCall (state : State κ ρ φ) (call : Nat) (value : Call κ ρ φ) : State κ ρ φ :=
  { state with calls := Function.update state.calls call value }

@[simp] theorem State.setCall_self {state : State κ ρ φ} {call : Nat} {value : Call κ ρ φ} :
    (state.setCall call value).calls call = value :=
  Function.update_self ..

theorem State.setCall_of_ne {state : State κ ρ φ} {call other : Nat} {value : Call κ ρ φ} (different : other ≠ call) :
    (state.setCall call value).calls other = state.calls other :=
  Function.update_of_ne different ..

/-- The oldest entry goes when the limit is reached. -/
def makeRoom {ν : Type v} (limit : Nat) (entries : List (κ × ν)) : List (κ × ν) :=
  if entries.length ≥ limit then entries.drop 1 else entries

theorem mem_makeRoom {ν : Type v} {limit : Nat} {entries : List (κ × ν)} {entry : κ × ν}
    (member : entry ∈ makeRoom limit entries) : entry ∈ entries := by
  unfold makeRoom at member
  split at member
  · exact List.mem_of_mem_drop member
  · exact member

variable [DecidableEq κ]

def erase {ν : Type v} (entries : List (κ × ν)) (key : κ) : List (κ × ν) :=
  entries.filter fun entry => entry.1 ≠ key

/-- `entries[key] = value` -/
def assign {ν : Type v} (entries : List (κ × ν)) (key : κ) (value : ν) : List (κ × ν) :=
  if (entries.lookup key).isSome then entries.map fun entry => if entry.1 = key then (key, value) else entry
  else entries ++ [(key, value)]

def store {ν : Type v} (limit : Nat) (entries : List (κ × ν)) (key : κ) (value : ν) : List (κ × ν) :=
  assign (makeRoom limit entries) key value

theorem mem_erase {ν : Type v} {entries : List (κ × ν)} {key : κ} {entry : κ × ν} :
    entry ∈ erase entries key ↔ entry ∈ entries ∧ entry.1 ≠ key := by
  simp [erase]

theorem mem_store {ν : Type v} {limit : Nat} {entries : List (κ × ν)} {key : κ} {value : ν} {entry : κ × ν}
    (member : entry ∈ store limit entries key value) : entry = (key, value) ∨ entry ∈ entries := by
  unfold store assign at member
  split at member
  · obtain ⟨old, isOld, same⟩ := List.mem_map.mp member
    split at same
    · exact .inl same.symm
    · exact .inr (same ▸ mem_makeRoom isOld)
  · rcases List.mem_append.mp member with old | new
    · exact .inr (mem_makeRoom old)
    · exact .inl (List.mem_singleton.mp new)

/-! ## Steps -/

variable (cooldown limit : Nat)

/-- Follow the leader of the key, or become it. -/
def State.join (state : State κ ρ φ) (call : Nat) (key : κ) : State κ ρ φ :=
  match state.inflight.lookup key with
  | some future => state.setCall call (.following key future)
  | none => { state.setCall call (.leading key) with
      inflight := state.inflight ++ [(key, call)]
      futures := Function.update state.futures call (some .pending) }

def State.lookUp (state : State κ ρ φ) (call : Nat) (key : κ) : State κ ρ φ :=
  match state.cache.lookup key with
  | some result => state.setCall call (.returned key result)
  | none =>
    match state.failures.lookup key with
    | some (failedAt, failure) =>
      if state.clock - failedAt < cooldown then state.setCall call (.raised key failure state.clock none)
      else { state with failures := erase state.failures key }.join call key
    | none => state.join call key

/-- The end of the leader of a key: its future is done and the key is free again. -/
def State.land (state : State κ ρ φ) (call : Nat) (key : κ) (future : Future ρ φ) (value : Call κ ρ φ) : State κ ρ φ :=
  { state.setCall call value with
    inflight := erase state.inflight key
    futures := Function.update state.futures call (some future) }

def State.finish (state : State κ ρ φ) (call : Nat) (key : κ) : Except φ ρ → State κ ρ φ
  | .ok result => { state.land call key (.finished result) (.returned key result) with
      failures := erase state.failures key
      cache := store limit state.cache key result
      log := ⟨call, key, .ok result, state.clock⟩ :: state.log }
  | .error failure => { state.land call key (.failed failure) (.raised key failure state.clock none) with
      failures := store limit state.failures key (state.clock, failure)
      log := ⟨call, key, .error failure, state.clock⟩ :: state.log }

/-- What a follower does with the future it waited for. -/
def State.resume (state : State κ ρ φ) (call : Nat) (key : κ) (future : Nat) : State κ ρ φ :=
  match state.futures future with
  | some (.finished result) => state.setCall call (.returned key result)
  | some (.failed failure) => state.setCall call (.raised key failure state.clock (some future))
  -- The leader was cancelled, not this call: it starts again.
  | some .cancelled => state.setCall call .waiting
  | some .pending | none => state

def step (state : State κ ρ φ) : Action κ ρ φ → State κ ρ φ
  | .advance duration => { state with clock := state.clock + duration }
  | .arrive call => match state.calls call with
    | .absent => state.setCall call .waiting
    | _ => state
  | .lookUp call key => match state.calls call with
    | .waiting => match key with
      | .error failure => state.setCall call (.refused failure)
      | .ok key => state.lookUp cooldown call key
    | _ => state
  | .finish call outcome => match state.calls call with
    | .leading key => state.finish limit call key outcome
    | _ => state
  | .resume call => match state.calls call with
    | .following key future => state.resume call key future
    | _ => state
  | .cancel call => match state.calls call with
    | .waiting | .following _ _ => state.setCall call .cancelled
    | .leading key => state.land call key .cancelled .cancelled
    | _ => state

end

/-! ## What holds in every state -/

section

variable {κ : Type u} {ρ : Type v} {φ : Type w} (cooldown : Nat)

/-- What a future says to the calls that follow it for a key. -/
def Delivers (state : State κ ρ φ) (key : κ) (leader : Nat) : Future ρ φ → Prop
  | .pending => state.calls leader = .leading key
  | .finished result => ∃ computation ∈ state.log, computation.key = key ∧ computation.outcome = .ok result
  | .failed failure => ∃ computation ∈ state.log, computation.leader = leader ∧ computation.key = key ∧
      computation.outcome = .error failure
  | .cancelled => True

/-- Where a call may stand. -/
def Justified (state : State κ ρ φ) (call : Nat) : Call κ ρ φ → Prop
  | .absent | .waiting => state.futures call = none
  | .leading key => (key, call) ∈ state.inflight ∧ state.futures call = some .pending
  | .following key leader => state.futures call = none ∧
      ∃ future, state.futures leader = some future ∧ Delivers state key leader future
  | .refused _ | .cancelled => True
  | .returned key result => ∃ computation ∈ state.log, computation.key = key ∧ computation.outcome = .ok result
  | .raised key failure time awaited => ∃ computation ∈ state.log, computation.key = key ∧
      computation.outcome = .error failure ∧ computation.time ≤ time ∧
      (time - computation.time < cooldown ∨ awaited = some computation.leader)

structure Sound (state : State κ ρ φ) : Prop where
  calls : ∀ call, Justified cooldown state call (state.calls call)
  keys : (state.inflight.map Prod.fst).Nodup
  led : ∀ entry ∈ state.inflight, state.calls entry.2 = .leading entry.1
  cached : ∀ entry ∈ state.cache, ∃ computation ∈ state.log, computation.key = entry.1 ∧
    computation.outcome = .ok entry.2
  kept : ∀ entry ∈ state.failures, ∃ computation ∈ state.log, computation.key = entry.1 ∧
    computation.outcome = .error entry.2.2 ∧ computation.time = entry.2.1
  past : ∀ computation ∈ state.log, computation.time ≤ state.clock

def Call.Leads : Call κ ρ φ → Prop
  | .leading _ => True
  | _ => False

variable {cooldown} {state : State κ ρ φ} {call : Nat} {key : κ}

theorem Sound.initial : Sound cooldown ({} : State κ ρ φ) where
  calls _ := rfl
  keys := List.nodup_nil
  led _ member := by cases member
  cached _ member := by cases member
  kept _ member := by cases member
  past _ member := by cases member

/-- A key is led by one call. -/
theorem Sound.leader_unique (sound : Sound cooldown state) {other : Nat} (leads : state.calls call = .leading key)
    (otherLeads : state.calls other = .leading key) : call = other := by
  have member := sound.calls call
  have otherMember := sound.calls other
  rw [leads] at member
  rw [otherLeads] at otherMember
  exact congrArg Prod.snd (List.inj_on_of_nodup_map sound.keys member.1 otherMember.1 rfl)

theorem Sound.inflight_eq_nil (sound : Sound cooldown state) (idle : ∀ call key, state.calls call ≠ .leading key) :
    state.inflight = [] := by
  refine List.eq_nil_iff_forall_not_mem.mpr fun entry member => ?_
  exact idle entry.2 entry.1 (sound.led entry member)

/-- One call moves that does not lead, and no future changes. -/
theorem Sound.setCall (sound : Sound cooldown state) {value : Call κ ρ φ} (before : ¬ (state.calls call).Leads)
    (justified : Justified cooldown state call value) :
    Sound cooldown (state.setCall call value) := by
  have leads : ∀ leader key, state.calls leader = .leading key →
      (state.setCall call value).calls leader = .leading key := by
    intro leader key isLeading
    have different : leader ≠ call := by
      rintro rfl
      rw [isLeading] at before
      exact before trivial
    rw [State.setCall_of_ne different, isLeading]
  have delivers : ∀ key leader future, Delivers state key leader future →
      Delivers (state.setCall call value) key leader future := by
    intro key leader future
    cases future with
    | pending => exact leads leader key
    | _ => exact id
  have kept : ∀ other standing, Justified cooldown state other standing →
      Justified cooldown (state.setCall call value) other standing := by
    intro other standing
    cases standing with
    | following key leader =>
      rintro ⟨unled, future, isFuture, told⟩
      exact ⟨unled, future, isFuture, delivers key leader future told⟩
    | _ => exact id
  refine ⟨fun other => ?_, sound.keys, fun entry member => leads _ _ (sound.led entry member), sound.cached, sound.kept,
    sound.past⟩
  by_cases same : other = call
  · subst same
    rw [State.setCall_self]
    exact kept other value justified
  · rw [State.setCall_of_ne same]
    exact kept other _ (sound.calls other)

/-- What is justified stays so when time passes, computations are recorded and the tables change. -/
theorem Justified.mono {other : State κ ρ φ} {standing : Call κ ρ φ} (justified : Justified cooldown state call standing)
    (sameCalls : other.calls = state.calls) (sameFutures : other.futures = state.futures)
    (sameInflight : other.inflight = state.inflight) (recorded : ∀ computation ∈ state.log, computation ∈ other.log) :
    Justified cooldown other call standing := by
  cases standing with
  | absent => exact (congrFun sameFutures call).trans justified
  | waiting => exact (congrFun sameFutures call).trans justified
  | leading key => exact ⟨sameInflight ▸ justified.1, (congrFun sameFutures call).trans justified.2⟩
  | refused => trivial
  | cancelled => trivial
  | following key leader =>
    obtain ⟨unled, future, isFuture, told⟩ := justified
    refine ⟨(congrFun sameFutures call).trans unled, future, (congrFun sameFutures leader).trans isFuture, ?_⟩
    cases future with
    | pending => exact (congrFun sameCalls leader).trans told
    | finished result =>
      obtain ⟨computation, member, same⟩ := told
      exact ⟨computation, recorded computation member, same⟩
    | failed failure =>
      obtain ⟨computation, member, same⟩ := told
      exact ⟨computation, recorded computation member, same⟩
    | cancelled => trivial
  | returned key result =>
    obtain ⟨computation, member, same⟩ := justified
    exact ⟨computation, recorded computation member, same⟩
  | raised key failure time awaited =>
    obtain ⟨computation, member, same⟩ := justified
    exact ⟨computation, recorded computation member, same⟩

/-- The tables may forget entries, and gain those of a computation that is recorded with them. -/
theorem Sound.withTables (sound : Sound cooldown state) {clock : Nat} {cache : List (κ × ρ)}
    {failures : List (κ × Nat × φ)} {log : List (Computation κ ρ φ)} (later : state.clock ≤ clock)
    (recorded : ∀ computation ∈ state.log, computation ∈ log)
    (past : ∀ computation ∈ log, computation ∈ state.log ∨ computation.time ≤ clock)
    (cached : ∀ entry ∈ cache, entry ∈ state.cache ∨ ∃ computation ∈ log, computation.key = entry.1 ∧
      computation.outcome = .ok entry.2)
    (kept : ∀ entry ∈ failures, entry ∈ state.failures ∨ ∃ computation ∈ log, computation.key = entry.1 ∧
      computation.outcome = .error entry.2.2 ∧ computation.time = entry.2.1) :
    Sound cooldown { state with clock, cache, failures, log } where
  calls call := (sound.calls call).mono rfl rfl rfl recorded
  keys := sound.keys
  led := sound.led
  cached entry member := by
    rcases cached entry member with old | new
    · obtain ⟨computation, isLogged, same⟩ := sound.cached entry old
      exact ⟨computation, recorded computation isLogged, same⟩
    · exact new
  kept entry member := by
    rcases kept entry member with old | new
    · obtain ⟨computation, isLogged, same⟩ := sound.kept entry old
      exact ⟨computation, recorded computation isLogged, same⟩
    · exact new
  past computation member := by
    rcases past computation member with old | new
    · exact Nat.le_trans (sound.past computation old) later
    · exact new

/-- One call moves together with its own future. -/
theorem Sound.withFuture (sound : Sound cooldown state) {value : Call κ ρ φ} {future : Future ρ φ}
    {inflight : List (κ × Nat)} {next : State κ ρ φ}
    (isNext : next = { state.setCall call value with
      inflight, futures := Function.update state.futures call (some future) })
    (justified : Justified cooldown next call value) (keys : (inflight.map Prod.fst).Nodup)
    (others : ∀ entry ∈ state.inflight, entry.2 ≠ call → entry ∈ inflight)
    (led : ∀ entry ∈ inflight, next.calls entry.2 = .leading entry.1)
    (told : ∀ key old, state.futures call = some old → Delivers state key call old → Delivers next key call future) :
    Sound cooldown next := by
  subst isNext
  refine ⟨fun other => ?_, keys, led, sound.cached, sound.kept, sound.past⟩
  by_cases same : other = call
  · subst same
    show Justified cooldown _ other ((state.setCall other value).calls other)
    rw [State.setCall_self]
    exact justified
  have sameFuture : ∀ other, other ≠ call → Function.update state.futures call (some future) other = state.futures other :=
    fun other different => Function.update_of_ne different ..
  show Justified cooldown _ other ((state.setCall call value).calls other)
  rw [State.setCall_of_ne same]
  have before := sound.calls other
  cases standing : state.calls other with
  | absent => exact (sameFuture other same).trans (by rwa [standing] at before)
  | waiting => exact (sameFuture other same).trans (by rwa [standing] at before)
  | refused => trivial
  | cancelled => trivial
  | leading otherKey =>
    rw [standing] at before
    exact ⟨others _ before.1 same, (sameFuture other same).trans before.2⟩
  | returned otherKey result => rwa [standing] at before
  | raised otherKey failure time awaited => rwa [standing] at before
  | following otherKey leader =>
    rw [standing] at before
    obtain ⟨unled, old, isOld, oldTold⟩ := before
    refine ⟨(sameFuture other same).trans unled, ?_⟩
    by_cases isCall : leader = call
    · subst isCall
      exact ⟨future, Function.update_self .., told otherKey old isOld oldTold⟩
    · refine ⟨old, (sameFuture leader isCall).trans isOld, ?_⟩
      cases old with
      | pending => exact (State.setCall_of_ne isCall).trans oldTold
      | _ => exact oldTold

theorem Sound.resume (sound : Sound cooldown state) {leader : Nat} (follows : state.calls call = .following key leader) :
    Sound cooldown (state.resume call key leader) := by
  have before : ¬ (state.calls call).Leads := by
    rw [follows]
    exact id
  have justified := sound.calls call
  rw [follows] at justified
  obtain ⟨unled, future, isFuture, told⟩ := justified
  unfold State.resume
  rw [isFuture]
  cases future with
  | pending => exact sound
  | finished result => exact sound.setCall before told
  | failed failure =>
    obtain ⟨computation, member, isLeader, isKey, isFailure⟩ := told
    exact sound.setCall before ⟨computation, member, isKey, isFailure, sound.past computation member, .inr (by rw [isLeader])⟩
  | cancelled => exact sound.setCall before unled

/-! ## What a step does to a call -/

/-- The key a call has. -/
def Call.key? : Call κ ρ φ → Option κ
  | .leading key | .following key _ | .returned key _ | .raised key _ _ _ => some key
  | .absent | .waiting | .refused _ | .cancelled => none

/-- How a call may come to stand somewhere: it keeps its key or has just looked it up, it is refused for want of a
key, and only its own cancellation ends it as cancelled. -/
structure Moves (state : State κ ρ φ) (action : Action κ ρ φ) (call : Nat) (value : Call κ ρ φ) : Prop where
  key : ∀ key, value.key? = some key → (state.calls call).key? = some key ∨ action = .lookUp call (.ok key)
  refused : ∀ failure, value = .refused failure → action = .lookUp call (.error failure)
  cancelled : value = .cancelled → action = .cancel call

theorem Moves.of_key {action : Action κ ρ φ} {value : Call κ ρ φ} (hasKey : value.key? = some key)
    (own : (state.calls call).key? = some key ∨ action = .lookUp call (.ok key)) : Moves state action call value where
  key other isOther := by
    rw [hasKey, Option.some.injEq] at isOther
    subst isOther
    exact own
  refused failure isRefused := by
    rw [isRefused] at hasKey
    cases hasKey
  cancelled isCancelled := by
    rw [isCancelled] at hasKey
    cases hasKey

end

section

variable {κ : Type u} {ρ : Type v} {φ : Type w} [DecidableEq κ] {cooldown limit : Nat} {state : State κ ρ φ} {call : Nat}
  {key : κ}

/-! ## What every step keeps -/

/-- A call joins the computation of its key, or starts it. -/
theorem Sound.join (sound : Sound cooldown state) (waits : state.calls call = .waiting) :
    Sound cooldown (state.join call key) := by
  have unled : state.futures call = none := by
    have justified := sound.calls call
    rwa [waits] at justified
  unfold State.join
  cases found : state.inflight.lookup key with
  | some leader =>
    have leads := sound.led _ (mem_of_lookup found)
    have pending := sound.calls leader
    rw [leads] at pending
    exact sound.setCall (by rw [waits]; exact id) ⟨unled, .pending, pending.2, leads⟩
  | none =>
    have fresh : key ∉ state.inflight.map Prod.fst := by
      rw [← lookup_isSome, found]
      exact Bool.false_ne_true
    refine sound.withFuture rfl ⟨List.mem_append_right _ (List.mem_singleton_self _), Function.update_self ..⟩ ?_
      (fun entry member _ => List.mem_append_left _ member) ?_ ?_
    · rw [List.map_append]
      exact sound.keys.append (List.nodup_singleton _) (by simpa using fresh)
    · intro entry member
      rcases List.mem_append.mp member with old | new
      · have leads := sound.led entry old
        have different : entry.2 ≠ call := by
          intro same
          rw [same, waits] at leads
          cases leads
        exact (State.setCall_of_ne different).trans leads
      · rw [List.mem_singleton.mp new]
        exact State.setCall_self
    · -- No call follows the new future: the futures that are followed exist already.
      intro otherKey old isOld
      rw [unled] at isOld
      cases isOld

theorem Sound.lookUp (sound : Sound cooldown state) (waits : state.calls call = .waiting) :
    Sound cooldown (state.lookUp cooldown call key) := by
  have before : ¬ (state.calls call).Leads := by
    rw [waits]
    exact id
  unfold State.lookUp
  split
  · rename_i result found
    exact sound.setCall before (sound.cached _ (mem_of_lookup found))
  split
  · rename_i failedAt failure found
    obtain ⟨computation, member, isKey, isFailure, isTime⟩ := sound.kept _ (mem_of_lookup found)
    split
    · rename_i recent
      refine sound.setCall before ⟨computation, member, isKey, isFailure, sound.past computation member, .inl ?_⟩
      rw [isTime]
      exact recent
    · have forgotten : Sound cooldown { state with failures := erase state.failures key } :=
        sound.withTables (Nat.le_refl _) (fun _ => id) (fun _ => .inl) (fun _ => .inl)
          fun entry isEntry => .inl (mem_erase.mp isEntry).1
      exact forgotten.join waits
  · exact sound.join waits

/-- A leader ends and frees its key. -/
theorem Sound.land (sound : Sound cooldown state) (leads : state.calls call = .leading key) {future : Future ρ φ}
    {value : Call κ ρ φ} (told : ∀ after : State κ ρ φ, after.log = state.log → Delivers after key call future)
    (justified : ∀ after : State κ ρ φ, after.log = state.log → Justified cooldown after call value) :
    Sound cooldown (state.land call key future value) := by
  refine sound.withFuture rfl (justified _ rfl) (sound.keys.sublist (List.filter_sublist.map _)) ?_ ?_ ?_
  · intro entry member different
    refine mem_erase.mpr ⟨member, fun isKey => different ?_⟩
    have otherLeads := sound.led entry member
    rw [isKey] at otherLeads
    exact sound.leader_unique otherLeads leads
  · intro entry member
    obtain ⟨isOld, otherKey⟩ := mem_erase.mp member
    have otherLeads := sound.led entry isOld
    have different : entry.2 ≠ call := by
      intro same
      rw [same, leads] at otherLeads
      exact otherKey (Call.leading.inj otherLeads).symm
    exact (State.setCall_of_ne different).trans otherLeads
  · intro otherKey old isOld oldTold
    have pending := sound.calls call
    rw [leads] at pending
    rw [pending.2, Option.some.injEq] at isOld
    subst isOld
    rw [Delivers, leads] at oldTold
    rw [← Call.leading.inj oldTold]
    exact told _ rfl

theorem Sound.finish (positive : 0 < cooldown) (sound : Sound cooldown state) (leads : state.calls call = .leading key)
    (outcome : Except φ ρ) : Sound cooldown (state.finish limit call key outcome) := by
  cases outcome with
  | ok result =>
    have recorded : Sound cooldown { state with
        failures := erase state.failures key
        cache := store limit state.cache key result
        log := ⟨call, key, .ok result, state.clock⟩ :: state.log } := by
      refine sound.withTables (Nat.le_refl _) (fun _ => List.mem_cons_of_mem _) ?_ ?_
        fun entry isEntry => .inl (mem_erase.mp isEntry).1
      · intro computation member
        rcases List.mem_cons.mp member with rfl | old
        · exact .inr (Nat.le_refl _)
        · exact .inl old
      · intro entry member
        rcases mem_store member with rfl | old
        · exact .inr ⟨_, List.mem_cons_self, rfl, rfl⟩
        · exact .inl old
    have logged : ∀ after : State κ ρ φ, after.log = ⟨call, key, .ok result, state.clock⟩ :: state.log →
        ∃ computation ∈ after.log, computation.key = key ∧ computation.outcome = .ok result := by
      intro after isLog
      rw [isLog]
      exact ⟨_, List.mem_cons_self, rfl, rfl⟩
    exact recorded.land leads logged logged
  | error failure =>
    have recorded : Sound cooldown { state with
        failures := store limit state.failures key (state.clock, failure)
        log := ⟨call, key, .error failure, state.clock⟩ :: state.log } := by
      refine sound.withTables (Nat.le_refl _) (fun _ => List.mem_cons_of_mem _) ?_ (fun _ => .inl) ?_
      · intro computation member
        rcases List.mem_cons.mp member with rfl | old
        · exact .inr (Nat.le_refl _)
        · exact .inl old
      · intro entry member
        rcases mem_store member with rfl | old
        · exact .inr ⟨_, List.mem_cons_self, rfl, rfl, rfl⟩
        · exact .inl old
    refine recorded.land leads (fun after isLog => ?_) (fun after isLog => ?_)
    · rw [Delivers, isLog]
      exact ⟨_, List.mem_cons_self, rfl, rfl, rfl⟩
    · rw [Justified, isLog]
      refine ⟨_, List.mem_cons_self, rfl, rfl, Nat.le_refl _, .inl ?_⟩
      rwa [Nat.sub_self]

theorem Sound.step (positive : 0 < cooldown) (sound : Sound cooldown state) (action : Action κ ρ φ) :
    Sound cooldown (step cooldown limit state action) := by
  cases action with
  | advance duration =>
    exact sound.withTables (Nat.le_add_right _ _) (fun _ => id) (fun _ => .inl) (fun _ => .inl) (fun _ => .inl)
  | arrive call =>
    have justified := sound.calls call
    simp only [SingleFlight.step]
    split
    · rename_i absent
      rw [absent] at justified
      exact sound.setCall (by rw [absent]; exact id) justified
    · exact sound
  | lookUp call key =>
    simp only [SingleFlight.step]
    split
    · rename_i waits
      cases key with
      | error failure => exact sound.setCall (by rw [waits]; exact id) trivial
      | ok key => exact sound.lookUp waits
    · exact sound
  | finish call outcome =>
    simp only [SingleFlight.step]
    split
    · rename_i key leads
      exact sound.finish positive leads outcome
    · exact sound
  | resume call =>
    simp only [SingleFlight.step]
    split
    · rename_i key leader follows
      exact sound.resume follows
    · exact sound
  | cancel call =>
    simp only [SingleFlight.step]
    split
    · rename_i waits
      exact sound.setCall (by rw [waits]; exact id) trivial
    · rename_i follows
      exact sound.setCall (by rw [follows]; exact id) trivial
    · rename_i key leads
      exact sound.land leads (fun _ _ => trivial) (fun _ _ => trivial)
    · exact sound

theorem calls_join : ∃ value, (state.join call key).calls = Function.update state.calls call value ∧
    value.key? = some key := by
  unfold State.join
  split
  · exact ⟨_, rfl, rfl⟩
  · exact ⟨_, rfl, rfl⟩

theorem calls_lookUp : ∃ value, (state.lookUp cooldown call key).calls = Function.update state.calls call value ∧
    value.key? = some key := by
  unfold State.lookUp
  split
  · exact ⟨_, rfl, rfl⟩
  split
  · split
    · exact ⟨_, rfl, rfl⟩
    · exact calls_join
  · exact calls_join

/-- A step moves at most one call. -/
theorem calls_step (action : Action κ ρ φ) : (step cooldown limit state action).calls = state.calls ∨
    ∃ call value, (step cooldown limit state action).calls = Function.update state.calls call value ∧
      Moves state action call value := by
  cases action with
  | advance duration => exact .inl rfl
  | arrive call =>
    simp only [step]
    split
    · exact .inr ⟨call, _, rfl, nofun, nofun, nofun⟩
    · exact .inl rfl
  | lookUp call key =>
    simp only [step]
    split
    · cases key with
      | error failure =>
        refine .inr ⟨call, _, rfl, nofun, fun other isOther => ?_, nofun⟩
        rw [Call.refused.inj isOther]
      | ok key =>
        obtain ⟨value, same, hasKey⟩ := @calls_lookUp _ _ _ _ cooldown state call key
        exact .inr ⟨call, value, same, .of_key hasKey (.inr rfl)⟩
    · exact .inl rfl
  | finish call outcome =>
    simp only [step]
    split
    · rename_i key leads
      have hasKey : (state.calls call).key? = some key := congrArg Call.key? leads
      cases outcome with
      | ok result => exact .inr ⟨call, _, rfl, .of_key rfl (.inl hasKey)⟩
      | error failure => exact .inr ⟨call, _, rfl, .of_key rfl (.inl hasKey)⟩
    · exact .inl rfl
  | resume call =>
    simp only [step]
    split
    · rename_i key leader follows
      have hasKey : (state.calls call).key? = some key := congrArg Call.key? follows
      unfold State.resume
      split
      · exact .inr ⟨call, _, rfl, .of_key rfl (.inl hasKey)⟩
      · exact .inr ⟨call, _, rfl, .of_key rfl (.inl hasKey)⟩
      · exact .inr ⟨call, _, rfl, nofun, nofun, nofun⟩
      · exact .inl rfl
      · exact .inl rfl
    · exact .inl rfl
  | cancel call =>
    simp only [step]
    split
    · exact .inr ⟨call, _, rfl, nofun, nofun, fun _ => rfl⟩
    · exact .inr ⟨call, _, rfl, nofun, nofun, fun _ => rfl⟩
    · exact .inr ⟨call, _, rfl, nofun, nofun, fun _ => rfl⟩
    · exact .inl rfl

/-- Where a call stands after a step: where it stood, or where the step moved it. -/
theorem call_step (action : Action κ ρ φ) (call : Nat) :
    (step cooldown limit state action).calls call = state.calls call ∨
      Moves state action call ((step cooldown limit state action).calls call) := by
  rcases @calls_step _ _ _ _ cooldown limit state action with same | ⟨moved, value, same, moves⟩
  · exact .inl (congrFun same call)
  · rw [same, Function.update_apply]
    split
    · rename_i isMoved
      exact .inr (isMoved ▸ moves)
    · exact .inl rfl

/-- A follower whose leader is gone moves on as soon as it is resumed. -/
theorem Sound.follower_moves (sound : Sound cooldown state) {leader : Nat}
    (follows : state.calls call = .following key leader) :
    state.calls leader = .leading key ∨
      (SingleFlight.step cooldown limit state (.resume call)).calls call ≠ .following key leader := by
  have justified := sound.calls call
  rw [follows] at justified
  obtain ⟨-, future, isFuture, told⟩ := justified
  simp only [SingleFlight.step, follows, State.resume, isFuture]
  cases future with
  | pending => exact .inl told
  | finished result => exact .inr (by rw [State.setCall_self]; exact nofun)
  | failed failure => exact .inr (by rw [State.setCall_self]; exact nofun)
  | cancelled => exact .inr (by rw [State.setCall_self]; exact nofun)

end

end Mcplica.Library.SingleFlight
