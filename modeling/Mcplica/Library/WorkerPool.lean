import Mcplica.Library.Run

/-! # Workers that drain a queue

Workers take the indexes of a sequence, one after another, and wait each for the call of its own index. The calls end in
any order; a worker whose call fails ends, and a worker that is cancelled before it has run never does. -/

namespace Mcplica.Library

universe u v

/-- Where a worker stands. -/
inductive Worker (φ : Type v) where
  | created (cancelled : Bool)
  | calling (index : Nat)
  | finished
  | failed (failure : φ)
  deriving DecidableEq

namespace Worker

variable {φ : Type v}

def index? : Worker φ → Option Nat
  | .calling index => some index
  | _ => none

def isEnded : Worker φ → Bool
  | .finished | .failed _ => true
  | _ => false

def cancel : Worker φ → Worker φ
  | .created _ => .created true
  | worker => worker

@[simp] theorem index?_cancel (worker : Worker φ) : worker.cancel.index? = worker.index? := by
  cases worker <;> rfl

@[simp] theorem isEnded_cancel (worker : Worker φ) : worker.cancel.isEnded = worker.isEnded := by
  cases worker <;> rfl

theorem cancel_eq_iff {worker other : Worker φ} (ended : other.isEnded = true) : worker.cancel = other ↔ worker = other := by
  cases worker with
  | created cancelled =>
    refine iff_of_false ?_ ?_
    · rintro rfl
      cases ended
    · rintro rfl
      cases ended
  | calling | finished | failed => rfl

def hasRun : Worker φ → Bool
  | .created _ => false
  | _ => true

@[simp] theorem hasRun_cancel (worker : Worker φ) : worker.cancel.hasRun = worker.hasRun := by
  cases worker <;> rfl

end Worker

structure WorkerPool (ρ : Type u) (φ : Type v) where
  next : Nat := 0
  workers : List (Worker φ)
  /-- The calls that have ended, with what came of them. -/
  ended : List (Nat × Except φ ρ) := []

namespace WorkerPool

variable {ρ : Type u} {φ : Type v}

/-- The indexes whose calls are running. -/
def inFlight (pool : WorkerPool ρ φ) : List Nat :=
  pool.workers.filterMap Worker.index?

def put (pool : WorkerPool ρ φ) (place : Nat) (worker : Worker φ) : WorkerPool ρ φ :=
  { pool with workers := pool.workers.set place worker }

/-- The worker takes the next index, or finishes when there is none. -/
def take (size : Nat) (pool : WorkerPool ρ φ) (place : Nat) : WorkerPool ρ φ :=
  if pool.next < size then { pool.put place (.calling pool.next) with next := pool.next + 1 }
  else pool.put place .finished

/-- The worker runs for the first time. -/
def start (size : Nat) (cancelled : φ) (pool : WorkerPool ρ φ) (place : Nat) : WorkerPool ρ φ :=
  match pool.workers[place]? with
  | some (.created false) => pool.take size place
  | some (.created true) => pool.put place (.failed cancelled)
  | _ => pool

/-- The call that the worker waits for ends. -/
def settle (size : Nat) (pool : WorkerPool ρ φ) (place : Nat) (outcome : Except φ ρ) : WorkerPool ρ φ :=
  match pool.workers[place]? with
  | some (.calling index) =>
    let settled := { pool with ended := pool.ended ++ [(index, outcome)] }
    match outcome with
    | .ok _ => settled.take size place
    | .error failure => settled.put place (.failed failure)
  | _ => pool

def cancel (pool : WorkerPool ρ φ) : WorkerPool ρ φ :=
  { pool with workers := pool.workers.map Worker.cancel }

/-- Every worker has ended. -/
def isEnded (pool : WorkerPool ρ φ) : Bool :=
  pool.workers.all Worker.isEnded

/-! ## One worker among the others -/

theorem filterMap_set {α : Type u} {β : Type v} {look : α → Option β} {values : List α} {place : Nat} {old : α}
    (isOld : values[place]? = some old) : ∃ others, (values.filterMap look).Perm ((look old).toList ++ others) ∧
      ∀ new, ((values.set place new).filterMap look).Perm ((look new).toList ++ others) := by
  obtain ⟨inside, rfl⟩ := List.getElem?_eq_some_iff.mp isOld
  refine ⟨(values.take place).filterMap look ++ (values.drop (place + 1)).filterMap look, ?_, fun new => ?_⟩
  · have split : values = values.take place ++ values[place] :: values.drop (place + 1) := by
      rw [List.getElem_cons_drop, List.take_append_drop]
    conv_lhs => rw [split]
    rw [List.filterMap_append, List.filterMap_cons]
    cases look values[place] with
    | none => rfl
    | some found => exact List.perm_middle
  · rw [List.set_eq_take_append_cons_drop, if_pos inside, List.filterMap_append, List.filterMap_cons]
    cases look new with
    | none => rfl
    | some found => exact List.perm_middle

theorem mem_set_of_ne {α : Type u} {values : List α} {place : Nat} {old new value : α} (isOld : values[place]? = some old)
    (member : value ∈ values) (other : value ≠ old) : value ∈ values.set place new := by
  obtain ⟨index, isValue⟩ := List.mem_iff_getElem?.mp member
  refine List.mem_iff_getElem?.mpr ⟨index, ?_⟩
  rw [List.getElem?_set_ne ?_, isValue]
  rintro rfl
  rw [isOld] at isValue
  exact other (Option.some.inj isValue).symm

/-! ## What every step keeps -/

/-- Every index taken so far is in flight or has ended, and only once. -/
structure Sound (size : Nat) (pool : WorkerPool ρ φ) : Prop where
  bound : pool.next ≤ size
  calls : (pool.inFlight ++ pool.ended.map Prod.fst).Perm (List.range pool.next)
  exhausted : .finished ∈ pool.workers → pool.next = size
  failures : ∀ index failure, (index, .error failure) ∈ pool.ended → .failed failure ∈ pool.workers

variable {size : Nat} {pool : WorkerPool ρ φ} {place : Nat}

/-- Workers that have not run. -/
theorem sound_created (count : Nat) : Sound size (⟨0, List.replicate count (.created false), []⟩ : WorkerPool ρ φ) where
  bound := Nat.zero_le size
  calls := by
    have noneCalls : (List.replicate count (.created false : Worker φ)).filterMap Worker.index? = [] :=
      List.filterMap_eq_nil_iff.mpr fun worker member => by rw [List.eq_of_mem_replicate member]; rfl
    simp [inFlight, noneCalls]
  exhausted member := by cases List.eq_of_mem_replicate member
  failures _ _ member := by cases member

/-- What holds when one worker is left out: it may be put into any state that has ended, or take the next index. -/
structure Vacant (size : Nat) (pool : WorkerPool ρ φ) (place : Nat) (failed : Option φ) : Prop where
  running : ∃ old, pool.workers[place]? = some old ∧ old.isEnded = false
  bound : pool.next ≤ size
  calls : ∃ others, (others ++ pool.ended.map Prod.fst).Perm (List.range pool.next) ∧
    ∀ new, (pool.put place new).inFlight.Perm (new.index?.toList ++ others)
  exhausted : .finished ∈ pool.workers → pool.next = size
  failures : ∀ index failure, (index, .error failure) ∈ pool.ended → .failed failure ∈ pool.workers ∨ failed = some failure

theorem Vacant.kept {failed : Option φ} (vacant : Vacant size pool place failed) {worker : Worker φ}
    (ended : worker.isEnded = true) (member : worker ∈ pool.workers) (new : Worker φ) :
    worker ∈ (pool.put place new).workers := by
  obtain ⟨old, isOld, running⟩ := vacant.running
  refine mem_set_of_ne isOld member ?_
  rintro rfl
  rw [running] at ended
  cases ended

theorem Vacant.fail {failure : φ} {failed : Option φ} (vacant : Vacant size pool place failed)
    (same : ∀ other, failed = some other → other = failure) : Sound size (pool.put place (.failed failure)) where
  bound := vacant.bound
  calls := by
    obtain ⟨others, calls, put⟩ := vacant.calls
    exact ((put _).append_right _).trans calls
  exhausted := by
    intro member
    rcases List.mem_or_eq_of_mem_set member with isOld | isNew
    · exact vacant.exhausted isOld
    · cases isNew
  failures := by
    intro index other isEnded
    rcases vacant.failures index other isEnded with member | isFailed
    · exact vacant.kept rfl member _
    · obtain rfl := same other isFailed
      obtain ⟨old, isOld, -⟩ := vacant.running
      obtain ⟨inside, -⟩ := List.getElem?_eq_some_iff.mp isOld
      exact List.mem_set inside _

theorem Vacant.take (vacant : Vacant size pool place (none : Option φ)) : Sound size (pool.take size place) := by
  obtain ⟨others, calls, put⟩ := vacant.calls
  have failures (new : Worker φ) : ∀ index failure, (index, Except.error failure) ∈ pool.ended →
      .failed failure ∈ (pool.put place new).workers := by
    intro index failure isEnded
    rcases vacant.failures index failure isEnded with member | isFailed
    · exact vacant.kept rfl member new
    · cases isFailed
  unfold WorkerPool.take
  split
  · rename_i isNext
    refine ⟨isNext, ?_, ?_, failures _⟩
    · show ((pool.put place (.calling pool.next)).inFlight ++ pool.ended.map Prod.fst).Perm (List.range (pool.next + 1))
      rw [List.range_succ]
      refine ((put _).append_right _).trans ?_
      exact (calls.cons pool.next).trans (List.perm_append_singleton _ _).symm
    · intro member
      rcases List.mem_or_eq_of_mem_set member with isOld | isNew
      · exact absurd (vacant.exhausted isOld) (Nat.ne_of_lt isNext)
      · cases isNew
  · rename_i noNext
    refine ⟨vacant.bound, ((put _).append_right _).trans calls, fun _ => ?_, failures _⟩
    exact Nat.le_antisymm vacant.bound (Nat.not_lt.mp noNext)

theorem Sound.vacant (sound : Sound size pool) {cancelled : Bool}
    (isCreated : pool.workers[place]? = some (.created cancelled)) : Vacant size pool place (none : Option φ) where
  running := ⟨_, isCreated, rfl⟩
  bound := sound.bound
  calls := by
    obtain ⟨others, same, put⟩ := @filterMap_set _ _ Worker.index? _ _ _ isCreated
    exact ⟨others, (same.symm.append_right _).trans sound.calls, put⟩
  exhausted := sound.exhausted
  failures index failure isEnded := .inl (sound.failures index failure isEnded)

theorem Sound.vacant_of_calling (sound : Sound size pool) {index : Nat}
    (isCalling : pool.workers[place]? = some (.calling index)) (outcome : Except φ ρ) :
    Vacant size { pool with ended := pool.ended ++ [(index, outcome)] } place
      (match outcome with | .ok _ => none | .error failure => some failure) where
  running := ⟨_, isCalling, rfl⟩
  bound := sound.bound
  calls := by
    obtain ⟨others, same, put⟩ := @filterMap_set _ _ Worker.index? _ _ _ isCalling
    refine ⟨others, ?_, put⟩
    have calls := (same.symm.append_right (pool.ended.map Prod.fst)).trans sound.calls
    rw [List.map_append, ← List.append_assoc]
    exact (List.perm_append_singleton _ _).trans calls
  exhausted := sound.exhausted
  failures := by
    intro other failure member
    rcases List.mem_append.mp member with isOld | isNew
    · exact .inl (sound.failures other failure isOld)
    · obtain ⟨rfl, rfl⟩ := Prod.mk.inj (List.mem_singleton.mp isNew)
      exact .inr rfl

theorem sound_start (sound : Sound size pool) (cancelled : φ) : Sound size (pool.start size cancelled place) := by
  unfold start
  split
  · rename_i isCreated
    exact (sound.vacant isCreated).take
  · rename_i isCreated
    refine (sound.vacant isCreated).fail ?_
    rintro _ ⟨⟩
  · exact sound

theorem sound_settle (sound : Sound size pool) (outcome : Except φ ρ) : Sound size (pool.settle size place outcome) := by
  unfold settle
  split
  · rename_i index isCalling
    have vacant := sound.vacant_of_calling isCalling outcome
    cases outcome with
    | ok value => exact vacant.take
    | error failure =>
      refine vacant.fail ?_
      rintro _ ⟨⟩
      rfl
  · exact sound

theorem sound_cancel (sound : Sound size pool) : Sound size pool.cancel := by
  have sameCalls : pool.cancel.inFlight = pool.inFlight := by
    unfold inFlight cancel
    rw [List.filterMap_map]
    exact List.filterMap_congr fun worker _ => worker.index?_cancel
  have member {worker : Worker φ} (ended : worker.isEnded = true) : worker ∈ pool.cancel.workers ↔ worker ∈ pool.workers := by
    simp only [cancel, List.mem_map, Worker.cancel_eq_iff ended, exists_eq_right]
  refine ⟨sound.bound, ?_, fun isFinished => sound.exhausted ((member rfl).mp isFinished), ?_⟩
  · rw [sameCalls]
    exact sound.calls
  · exact fun index failure isEnded => (member rfl).mpr (sound.failures index failure isEnded)

/-! ## What follows -/

theorem Sound.nodup (sound : Sound size pool) : (pool.inFlight ++ pool.ended.map Prod.fst).Nodup :=
  sound.calls.nodup_iff.mpr List.nodup_range

/-- When all workers have finished, every index was called once, and every call returned. -/
theorem Sound.complete (sound : Sound size pool) (finished : ∀ worker ∈ pool.workers, worker = .finished)
    (staffed : pool.workers ≠ []) : (pool.ended.map Prod.fst).Perm (List.range size) ∧
      ∀ index outcome, (index, outcome) ∈ pool.ended → ∃ value, outcome = .ok value := by
  have idle : pool.inFlight = [] := by
    refine List.filterMap_eq_nil_iff.mpr fun worker member => ?_
    rw [finished worker member]
    rfl
  obtain ⟨worker, member⟩ := List.exists_mem_of_ne_nil _ staffed
  have all : pool.next = size := sound.exhausted (finished worker member ▸ member)
  refine ⟨?_, fun index outcome isEnded => ?_⟩
  · have calls := sound.calls
    rwa [idle, List.nil_append, all] at calls
  · cases outcome with
    | ok value => exact ⟨value, rfl⟩
    | error failure => cases finished _ (sound.failures index failure isEnded)

theorem start_of_ended (ended : pool.isEnded = true) (cancelled : φ) : pool.start size cancelled place = pool := by
  unfold start
  split
  · rename_i isCreated
    cases List.all_eq_true.mp ended _ (List.mem_of_getElem? isCreated)
  · rename_i isCreated
    cases List.all_eq_true.mp ended _ (List.mem_of_getElem? isCreated)
  · rfl

theorem settle_of_ended (ended : pool.isEnded = true) (outcome : Except φ ρ) : pool.settle size place outcome = pool := by
  unfold settle
  split
  · rename_i isCalling
    cases List.all_eq_true.mp ended _ (List.mem_of_getElem? isCalling)
  · rfl

theorem mem_put {worker new old : Worker φ} (isOld : pool.workers[place]? = some old)
    (member : worker ∈ (pool.put place new).workers) :
    worker ∈ pool.workers ∨ (pool.put place new).workers[place]? = some worker := by
  rcases List.mem_or_eq_of_mem_set member with before | rfl
  · exact .inl before
  · obtain ⟨inside, -⟩ := List.getElem?_eq_some_iff.mp isOld
    exact .inr (List.getElem?_set_self inside)

theorem mem_take {worker old : Worker φ} (isOld : pool.workers[place]? = some old)
    (member : worker ∈ (pool.take size place).workers) :
    worker ∈ pool.workers ∨ (pool.take size place).workers[place]? = some worker := by
  unfold take at member ⊢
  split at member
  · rename_i isNext
    rw [if_pos isNext]
    exact mem_put isOld member
  · rename_i noNext
    rw [if_neg noNext]
    exact mem_put isOld member

/-- A first run changes no other worker. -/
theorem mem_start {worker : Worker φ} {cancelled : φ} (member : worker ∈ (pool.start size cancelled place).workers) :
    worker ∈ pool.workers ∨ (pool.start size cancelled place).workers[place]? = some worker := by
  unfold start at member ⊢
  split at member
  · rename_i isCreated
    exact mem_take isCreated member
  · rename_i isCreated
    exact mem_put isCreated member
  · exact .inl member

/-- The end of a call changes no other worker. -/
theorem mem_settle {worker : Worker φ} {outcome : Except φ ρ} (member : worker ∈ (pool.settle size place outcome).workers) :
    worker ∈ pool.workers ∨ (pool.settle size place outcome).workers[place]? = some worker := by
  unfold settle at member ⊢
  split at member
  · rename_i index isCalling
    cases outcome with
    | ok value => exact @mem_take _ _ size { pool with ended := pool.ended ++ [(index, .ok value)] } _ _ _ isCalling member
    | error failure =>
      exact @mem_put _ _ { pool with ended := pool.ended ++ [(index, .error failure)] } _ _ _ _ isCalling member
  · exact .inl member

theorem mem_take_of_running {worker : Worker φ} (member : worker ∈ (pool.take size place).workers) :
    worker ∈ pool.workers ∨ worker.hasRun = true ∧ ∀ failure, worker ≠ .failed failure := by
  unfold take put at member
  split at member
  · rcases List.mem_or_eq_of_mem_set member with before | rfl
    · exact .inl before
    · exact .inr ⟨rfl, by simp⟩
  · rcases List.mem_or_eq_of_mem_set member with before | rfl
    · exact .inl before
    · exact .inr ⟨rfl, by simp⟩

/-! ## Why workers fail -/

theorem ended_take : (pool.take size place).ended = pool.ended := by
  unfold take
  split <;> rfl

theorem ended_start (cancelled : φ) : (pool.start size cancelled place).ended = pool.ended := by
  unfold start
  split
  · exact ended_take
  · rfl
  · rfl

theorem ended_settle (outcome : Except φ ρ) : pool.ended ⊆ (pool.settle size place outcome).ended := by
  unfold settle
  split
  · cases outcome with
    | ok value =>
      rw [ended_take]
      exact List.subset_append_left ..
    | error failure => exact List.subset_append_left ..
  · exact List.Subset.refl _

theorem failed_start {failure cancelled : φ} (member : .failed failure ∈ (pool.start size cancelled place).workers) :
    .failed failure ∈ pool.workers ∨ failure = cancelled ∧ .created true ∈ pool.workers := by
  unfold start at member
  split at member
  · rcases mem_take_of_running member with before | ⟨-, notFailed⟩
    · exact .inl before
    · exact absurd rfl (notFailed failure)
  · rename_i isCreated
    rcases List.mem_or_eq_of_mem_set member with before | same
    · exact .inl before
    · exact .inr ⟨Worker.failed.inj same, List.mem_of_getElem? isCreated⟩
  · exact .inl member

theorem failed_settle {failure : φ} {outcome : Except φ ρ}
    (member : .failed failure ∈ (pool.settle size place outcome).workers) :
    .failed failure ∈ pool.workers ∨ ∃ index, (index, .error failure) ∈ (pool.settle size place outcome).ended := by
  unfold settle at member ⊢
  split at member
  · rename_i index isCalling
    cases outcome with
    | ok value =>
      rcases mem_take_of_running member with before | ⟨-, notFailed⟩
      · exact .inl before
      · exact absurd rfl (notFailed failure)
    | error raised =>
      rcases List.mem_or_eq_of_mem_set member with before | same
      · exact .inl before
      · obtain rfl := Worker.failed.inj same
        exact .inr ⟨index, List.mem_append_right _ (List.mem_singleton_self _)⟩
  · exact .inl member

/-- Only a cancellation cancels a worker. -/
theorem created_start {isCancelled : Bool} {cancelled : φ}
    (member : .created isCancelled ∈ (pool.start size cancelled place).workers) : .created isCancelled ∈ pool.workers := by
  unfold start at member
  split at member
  · rcases mem_take_of_running member with before | ⟨hasRun, -⟩
    · exact before
    · cases hasRun
  · rcases List.mem_or_eq_of_mem_set member with before | same
    · exact before
    · cases same
  · exact member

theorem created_settle {isCancelled : Bool} {outcome : Except φ ρ}
    (member : .created isCancelled ∈ (pool.settle size place outcome).workers) : .created isCancelled ∈ pool.workers := by
  unfold settle at member
  split at member
  · cases outcome with
    | ok value =>
      rcases mem_take_of_running member with before | ⟨hasRun, -⟩
      · exact before
      · cases hasRun
    | error raised =>
      rcases List.mem_or_eq_of_mem_set member with before | same
      · exact before
      · cases same
  · exact member

theorem inFlight_of_ended (ended : pool.isEnded = true) : pool.inFlight = [] := by
  refine List.filterMap_eq_nil_iff.mpr fun worker member => ?_
  have isEnded := List.all_eq_true.mp ended worker member
  cases worker with
  | created | calling => cases isEnded
  | finished | failed => rfl

/-! ## How long it takes -/

/-- The steps that workers have made. -/
def steps (pool : WorkerPool ρ φ) : Nat :=
  pool.workers.countP Worker.hasRun + pool.ended.length

theorem Sound.steps_le (sound : Sound size pool) : pool.steps ≤ pool.workers.length + size := by
  have ended : (pool.ended.map Prod.fst).length ≤ pool.next := by
    have lengths := sound.calls.length_eq
    rw [List.length_append, List.length_range] at lengths
    omega
  rw [List.length_map] at ended
  have bound := sound.bound
  have ran : pool.workers.countP Worker.hasRun ≤ pool.workers.length := List.countP_le_length
  unfold steps
  omega

theorem countP_put {worker old : Worker φ} (isOld : pool.workers[place]? = some old) (ran : worker.hasRun = true) :
    (pool.put place worker).workers.countP Worker.hasRun =
      pool.workers.countP Worker.hasRun + if old.hasRun then 0 else 1 := by
  obtain ⟨inside, rfl⟩ := List.getElem?_eq_some_iff.mp isOld
  rw [put, List.countP_set inside, if_pos ran]
  by_cases hasRun : pool.workers[place].hasRun = true
  · have counted : 0 < pool.workers.countP Worker.hasRun :=
      List.countP_pos_iff.mpr ⟨_, List.getElem_mem inside, hasRun⟩
    rw [if_pos hasRun, if_pos hasRun, Nat.sub_add_cancel counted, Nat.add_zero]
  · rw [if_neg hasRun, if_neg hasRun, Nat.sub_zero]

theorem countP_take {old : Worker φ} (isOld : pool.workers[place]? = some old) :
    (pool.take size place).workers.countP Worker.hasRun =
      pool.workers.countP Worker.hasRun + if old.hasRun then 0 else 1 := by
  unfold take
  split
  · exact countP_put isOld rfl
  · exact countP_put isOld rfl

theorem steps_start {cancelled : φ} {isCancelled : Bool} (isCreated : pool.workers[place]? = some (.created isCancelled)) :
    (pool.start size cancelled place).steps = pool.steps + 1 := by
  unfold start steps
  rw [isCreated]
  cases isCancelled with
  | true =>
    dsimp only
    rw [countP_put isCreated rfl]
    simp only [Worker.hasRun, Bool.false_eq_true, if_false, put]
    omega
  | false =>
    dsimp only
    rw [countP_take isCreated, ended_take]
    simp only [Worker.hasRun, Bool.false_eq_true, if_false]
    omega

theorem steps_settle {index : Nat} {outcome : Except φ ρ} (isCalling : pool.workers[place]? = some (.calling index)) :
    (pool.settle size place outcome).steps = pool.steps + 1 := by
  unfold settle steps
  rw [isCalling]
  cases outcome with
  | ok value =>
    dsimp only
    rw [@countP_take _ _ size { pool with ended := pool.ended ++ [(index, .ok value)] } place _ isCalling, ended_take,
      List.length_append]
    rfl
  | error failure =>
    dsimp only
    rw [@countP_put _ _ { pool with ended := pool.ended ++ [(index, .error failure)] } place _ _ isCalling rfl, put,
      List.length_append]
    rfl

theorem steps_le_start (cancelled : φ) : pool.steps ≤ (pool.start size cancelled place).steps := by
  cases isOld : pool.workers[place]? with
  | none =>
    exact Nat.le_of_eq (by rw [start, isOld])
  | some worker =>
    cases worker with
    | created isCancelled => exact (steps_start isOld).symm ▸ Nat.le_succ _
    | calling | finished | failed =>
      exact Nat.le_of_eq (by rw [start, isOld])

theorem steps_le_settle (outcome : Except φ ρ) : pool.steps ≤ (pool.settle size place outcome).steps := by
  cases isOld : pool.workers[place]? with
  | none =>
    exact Nat.le_of_eq (by rw [settle, isOld])
  | some worker =>
    cases worker with
    | calling index => exact (steps_settle isOld).symm ▸ Nat.le_succ _
    | created | finished | failed =>
      exact Nat.le_of_eq (by rw [settle, isOld])

@[simp] theorem steps_cancel : pool.cancel.steps = pool.steps := by
  unfold steps cancel
  rw [List.countP_map]
  exact congrArg (· + pool.ended.length) (List.countP_congr fun worker _ => by simp)

/-- Nothing but a running call keeps the workers from going on. -/
theorem exists_step (unfinished : pool.isEnded = false) :
    pool.inFlight ≠ [] ∨ ∃ (place : Nat) (isCancelled : Bool), pool.workers[place]? = some (.created isCancelled) := by
  simp only [isEnded, List.all_eq_false] at unfinished
  obtain ⟨worker, member, running⟩ := unfinished
  cases worker with
  | created isCancelled =>
    obtain ⟨place, isCreated⟩ := List.mem_iff_getElem?.mp member
    exact .inr ⟨place, isCancelled, isCreated⟩
  | calling index =>
    exact .inl (List.ne_nil_of_mem (List.mem_filterMap.mpr ⟨_, member, rfl⟩))
  | finished | failed => exact absurd rfl running

@[simp] theorem length_take : (pool.take size place).workers.length = pool.workers.length := by
  unfold take put
  split <;> exact List.length_set

@[simp] theorem length_start (cancelled : φ) : (pool.start size cancelled place).workers.length = pool.workers.length := by
  unfold start
  split
  · exact length_take
  · exact List.length_set
  · rfl

@[simp] theorem length_settle (outcome : Except φ ρ) :
    (pool.settle size place outcome).workers.length = pool.workers.length := by
  unfold settle
  split
  · cases outcome with
    | ok value => exact length_take
    | error failure => exact List.length_set
  · rfl

@[simp] theorem length_cancel : pool.cancel.workers.length = pool.workers.length :=
  List.length_map ..

theorem length_inFlight (pool : WorkerPool ρ φ) : pool.inFlight.length ≤ pool.workers.length :=
  List.length_filterMap_le ..

end WorkerPool

end Mcplica.Library
