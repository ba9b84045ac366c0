import Mcplica.Library.Text
import Mcplica.Library.WorkerPool

/-! # Bounded concurrency

`bounded_map`: a few tasks share one iterator over the values, and the caller gathers them. The event loop runs the tasks
in any order. A call ends with a value or an exception at any time, after a cancellation too; the caller may be cancelled
whenever it waits, and more than once. -/

namespace Mcplica.Core

open Mcplica.Library

/-- What a task raises. -/
inductive TaskException (ε : Type) where
  /-- `CancelledError` -/
  | cancelled
  | call (error : ε)
  deriving DecidableEq

/-- What `bounded_map` raises. -/
inductive BoundedMapFailure (ε : Type) where
  | valueError (message : Text)
  | runtimeError (message : Text)
  | exception (exception : TaskException ε)
  deriving DecidableEq

/-- What `asyncio.gather` gives its caller. -/
inductive Gathered (ε : Type) where
  | pending
  | done
  | failed (exception : TaskException ε)
  deriving DecidableEq

inductive BoundedMapPhase (β ε : Type) where
  | gathering
  /-- In `except BaseException`, waiting for the cancelled tasks. -/
  | cancelling (exception : TaskException ε)
  | returned (values : List β)
  | raised (failure : BoundedMapFailure ε)
  deriving DecidableEq

/-- A call of `bounded_map` that is under way. -/
structure BoundedMap (β ε : Type) where
  tasks : WorkerPool β (TaskException ε)
  /-- Nothing where the value is missing. -/
  results : List (Option β)
  phase : BoundedMapPhase β ε
  gathered : Gathered ε := .pending
  /-- The gathering was cancelled while it was pending. -/
  cancelRequested : Bool := false
  /-- The caller was cancelled after that; it is raised when the caller runs. -/
  mustCancel : Bool := false

inductive BoundedMapAction (β ε : Type) where
  /-- The task runs for the first time. -/
  | start (task : Nat)
  /-- The call that the task awaits ends. -/
  | settle (task : Nat) (outcome : Except (TaskException ε) β)
  /-- The caller is cancelled. -/
  | cancel
  /-- The caller runs. -/
  | resume

namespace BoundedMap

variable {β ε : Type}

def start (limit : Int) (size : Nat) : BoundedMap β ε where
  tasks := { workers := List.replicate (min limit.toNat size) (.created false) }
  results := List.replicate size none
  phase :=
    if limit < 1 then .raised (.valueError "Concurrency limit must be positive")
    else if size = 0 then .returned []
    else .gathering

/-- The done callback of `asyncio.gather` on a task: the first exception is passed on, unless all are collected. -/
def notify (call : BoundedMap β ε) (task : Nat) : BoundedMap β ε :=
  match call.gathered, call.phase, call.tasks.workers[task]? with
  | .pending, .gathering, some (.failed exception) => { call with gathered := .failed exception }
  | .pending, _, _ =>
    if call.tasks.isEnded then
      { call with gathered := if call.cancelRequested then .failed .cancelled else .done }
    else call
  | _, _, _ => call

def startTask (size : Nat) (call : BoundedMap β ε) (task : Nat) : BoundedMap β ε :=
  notify { call with tasks := call.tasks.start size .cancelled task } task

/-- `results[index] = await function(value)` -/
def recorded (call : BoundedMap β ε) (task : Nat) (outcome : Except (TaskException ε) β) : List (Option β) :=
  match call.tasks.workers[task]?, outcome with
  | some (.calling index), .ok value => call.results.set index (some value)
  | _, _ => call.results

def settle (size : Nat) (call : BoundedMap β ε) (task : Nat) (outcome : Except (TaskException ε) β) : BoundedMap β ε :=
  notify { call with tasks := call.tasks.settle size task outcome, results := call.recorded task outcome } task

def cancel (call : BoundedMap β ε) : BoundedMap β ε :=
  match call.phase, call.gathered with
  | .gathering, .pending | .cancelling _, .pending => { call with tasks := call.tasks.cancel, cancelRequested := true }
  | .gathering, _ | .cancelling _, _ => { call with mustCancel := true }
  | .returned _, _ | .raised _, _ => call

/-- The tasks are cancelled and gathered again, whatever they raise. -/
def cleanUp (call : BoundedMap β ε) (exception : TaskException ε) : BoundedMap β ε where
  tasks := call.tasks.cancel
  results := call.results
  phase := .cancelling exception
  gathered := if call.tasks.isEnded then .done else .pending

def finish (call : BoundedMap β ε) : BoundedMap β ε :=
  { call with phase := match call.results.mapM id with
    | some values => .returned values
    | none => .raised (.runtimeError "Bounded async map did not complete all values") }

/-- The exception that the caller finds where it waits. -/
def thrown (call : BoundedMap β ε) : Option (TaskException ε) :=
  if call.mustCancel then some .cancelled
  else match call.gathered with
    | .failed exception => some exception
    | _ => none

def resume (call : BoundedMap β ε) : BoundedMap β ε :=
  match call.phase, call.gathered with
  | _, .pending => call
  | .gathering, _ => call.thrown.elim call.finish call.cleanUp
  | .cancelling exception, _ => { call with phase := .raised (.exception (call.thrown.getD exception)) }
  | .returned _, _ | .raised _, _ => call

def step (size : Nat) (call : BoundedMap β ε) : BoundedMapAction β ε → BoundedMap β ε
  | .start task => call.startTask size task
  | .settle task outcome => call.settle size task outcome
  | .cancel => call.cancel
  | .resume => call.resume

example : (run (step 3) (start 2 3 : BoundedMap Nat Nat) [.start 1, .start 0, .settle 0 (.ok 11), .settle 0 (.ok 12),
    .settle 1 (.ok 10), .resume]).phase = .returned [10, 11, 12] := by decide

/-! ## What every step keeps -/

/-- The phase agrees with the tasks. -/
def Phased (size : Nat) (call : BoundedMap β ε) : Prop :=
  match call.phase, call.gathered with
  | .gathering, .pending => call.tasks.isEnded = false ∧ ∀ exception, .failed exception ∉ call.tasks.workers
  | .gathering, .done => call.tasks.workers ≠ [] ∧ ∀ task ∈ call.tasks.workers, task = .finished
  | .gathering, .failed _ => True
  | .cancelling _, .pending => call.tasks.isEnded = false
  | .cancelling _, _ => call.tasks.isEnded = true
  | .returned values, _ => call.tasks.isEnded = true ∧ call.results = values.map some ∧
      (call.tasks.ended.map Prod.fst).Perm (List.range size)
  | .raised failure, _ => call.tasks.isEnded = true ∧ ∀ message, failure ≠ .runtimeError message

structure Sound (limit : Int) (size : Nat) (call : BoundedMap β ε) : Prop where
  tasks : call.tasks.Sound size
  staff : call.tasks.workers.length = min limit.toNat size
  length : call.results.length = size
  /-- The results are those of the calls that have returned. -/
  filled : ∀ index value, call.results[index]? = some (some value) ↔ (index, .ok value) ∈ call.tasks.ended
  phased : call.Phased size

section

variable {limit : Int} {size : Nat} {call : BoundedMap β ε}

theorem sound_begin (limit : Int) (size : Nat) : Sound limit size (start limit size : BoundedMap β ε) where
  tasks := WorkerPool.sound_created _
  staff := List.length_replicate
  length := List.length_replicate
  filled index value := by
    refine iff_of_false ?_ List.not_mem_nil
    simp only [start, List.getElem?_replicate]
    split <;> simp
  phased := by
    have idle (none : min limit.toNat size = 0) : (start limit size : BoundedMap β ε).tasks.isEnded = true := by
      show (List.replicate (min limit.toNat size) (.created false : Worker (TaskException ε))).all Worker.isEnded = true
      rw [none]
      rfl
    unfold Phased
    by_cases invalid : limit < 1
    · rw [show (start limit size : BoundedMap β ε).phase = _ from if_pos invalid]
      refine ⟨idle (by omega), fun message same => ?_⟩
      cases same
    · by_cases isEmpty : size = 0
      · rw [show (start limit size : BoundedMap β ε).phase = _ from (if_neg invalid).trans (if_pos isEmpty)]
        subst isEmpty
        exact ⟨idle (by omega), rfl, .refl _⟩
      · rw [show (start limit size : BoundedMap β ε).phase = _ from (if_neg invalid).trans (if_neg isEmpty)]
        refine ⟨?_, fun exception member => by cases List.eq_of_mem_replicate member⟩
        obtain ⟨count, isCount⟩ := Nat.exists_eq_succ_of_ne_zero (show min limit.toNat size ≠ 0 by omega)
        unfold start
        rw [isCount]
        rfl

/-- What a step of one task leaves to its done callback. -/
structure TaskStep (call : BoundedMap β ε) (tasks : WorkerPool β (TaskException ε)) (task : Nat) : Prop where
  staff : tasks.workers.length = call.tasks.workers.length
  ended : call.tasks.isEnded = true → tasks = call.tasks
  member : ∀ worker ∈ tasks.workers, worker ∈ call.tasks.workers ∨ tasks.workers[task]? = some worker

theorem taskStep_start (task : Nat) : TaskStep call (call.tasks.start size .cancelled task) task where
  staff := WorkerPool.length_start _
  ended isEnded := WorkerPool.start_of_ended isEnded _
  member _ := WorkerPool.mem_start

theorem taskStep_settle (task : Nat) (outcome : Except (TaskException ε) β) :
    TaskStep call (call.tasks.settle size task outcome) task where
  staff := WorkerPool.length_settle _
  ended isEnded := WorkerPool.settle_of_ended isEnded _
  member _ := WorkerPool.mem_settle

theorem isEnded_of_finished {tasks : WorkerPool β (TaskException ε)}
    (finished : ∀ task ∈ tasks.workers, task = .finished) : tasks.isEnded = true := by
  refine List.all_eq_true.mpr fun task member => ?_
  rw [finished task member]
  rfl

theorem finished_of_isEnded {tasks : WorkerPool β (TaskException ε)} (isEnded : tasks.isEnded = true)
    (noneFailed : ∀ exception, .failed exception ∉ tasks.workers) : ∀ task ∈ tasks.workers, task = .finished := by
  intro task member
  have ended := List.all_eq_true.mp isEnded task member
  cases task with
  | finished => rfl
  | failed exception => exact absurd member (noneFailed exception)
  | created | calling => cases ended

theorem notify_eq (call : BoundedMap β ε) (task : Nat) : ∃ gathered, notify call task = { call with gathered } := by
  unfold notify
  split
  · exact ⟨_, rfl⟩
  · split
    · exact ⟨_, rfl⟩
    · exact ⟨call.gathered, rfl⟩
  · exact ⟨call.gathered, rfl⟩

theorem notify_of_not_failed {tasks : WorkerPool β (TaskException ε)} {task : Nat} {results : List (Option β)}
    {phase : BoundedMapPhase β ε} {cancelRequested mustCancel : Bool}
    (notFailed : ∀ exception, tasks.workers[task]? ≠ some (.failed exception)) :
    notify ⟨tasks, results, phase, .pending, cancelRequested, mustCancel⟩ task =
      if tasks.isEnded then ⟨tasks, results, phase, if cancelRequested then .failed .cancelled else .done, cancelRequested, mustCancel⟩
      else ⟨tasks, results, phase, .pending, cancelRequested, mustCancel⟩ := by
  unfold notify
  split
  · rename_i isFailed
    exact absurd isFailed (notFailed _)
  · rfl
  · rename_i other _
    exact absurd rfl other

theorem phased_notify (phased : call.Phased size) {tasks : WorkerPool β (TaskException ε)} {task : Nat}
    (step : TaskStep call tasks task) {results : List (Option β)}
    (kept : call.tasks.isEnded = true → results = call.results) :
    (notify { call with tasks, results } task).Phased size := by
  -- A step changes nothing once all tasks have ended.
  have same (isEnded : call.tasks.isEnded = true) : { call with tasks, results } = call := by
    rw [step.ended isEnded, kept isEnded]
  obtain ⟨before, oldResults, phase, gathered, cancelRequested, mustCancel⟩ := call
  cases phase with
  | gathering =>
    cases gathered with
    | pending =>
      obtain ⟨unfinished, noneFailed⟩ := phased
      by_cases failed : ∃ exception, tasks.workers[task]? = some (.failed exception)
      · obtain ⟨exception, isFailed⟩ := failed
        simp only [notify, isFailed]
        trivial
      · have noneFailedNow : ∀ exception, .failed exception ∉ tasks.workers := by
          intro exception member
          rcases step.member _ member with isOld | isNew
          · exact noneFailed exception isOld
          · exact failed ⟨exception, isNew⟩
        rw [notify_of_not_failed fun exception isFailed => failed ⟨exception, isFailed⟩]
        by_cases isEnded : tasks.isEnded = true
        · rw [if_pos isEnded]
          cases cancelRequested with
          | true => trivial
          | false =>
            refine ⟨?_, finished_of_isEnded isEnded noneFailedNow⟩
            intro empty
            have staff := step.staff
            rw [empty] at staff
            rw [WorkerPool.isEnded, List.eq_nil_of_length_eq_zero staff.symm] at unfinished
            cases unfinished
        · rw [if_neg isEnded]
          exact ⟨Bool.eq_false_iff.mpr isEnded, noneFailedNow⟩
    | done =>
      rw [same (isEnded_of_finished phased.2)]
      exact phased
    | failed exception => trivial
  | cancelling exception =>
    cases gathered with
    | pending =>
      simp only [notify]
      split
      · rename_i isEnded
        cases cancelRequested <;> exact isEnded
      · rename_i unfinished
        exact Bool.eq_false_iff.mpr unfinished
    | done | failed =>
      rw [same phased]
      exact phased
  | returned values | raised failure =>
    rw [same phased.1]
    obtain ⟨other, notified⟩ := notify_eq ⟨before, oldResults, _, gathered, cancelRequested, mustCancel⟩ task
    rw [notified]
    exact phased

theorem sound_startTask (sound : Sound limit size call) (task : Nat) : Sound limit size (call.startTask size task) := by
  have phased := phased_notify sound.phased (@taskStep_start _ _ size call task) fun _ => rfl
  unfold startTask
  obtain ⟨gathered, notified⟩ := notify_eq { call with tasks := call.tasks.start size .cancelled task } task
  rw [notified] at phased ⊢
  refine ⟨WorkerPool.sound_start sound.tasks _, ?_, sound.length, ?_, phased⟩
  · exact (WorkerPool.length_start _).trans sound.staff
  · intro index value
    rw [WorkerPool.ended_start]
    exact sound.filled index value

theorem recorded_of_ended (isEnded : call.tasks.isEnded = true) (task : Nat) (outcome : Except (TaskException ε) β) :
    call.recorded task outcome = call.results := by
  unfold recorded
  split
  · rename_i index value isCalling
    cases List.all_eq_true.mp isEnded _ (List.mem_of_getElem? isCalling)
  · rfl

theorem length_recorded (task : Nat) (outcome : Except (TaskException ε) β) :
    (call.recorded task outcome).length = call.results.length := by
  unfold recorded
  split
  · exact List.length_set
  · rfl

theorem filled_recorded (sound : Sound limit size call) (task : Nat) (outcome : Except (TaskException ε) β)
    (index : Nat) (value : β) : (call.recorded task outcome)[index]? = some (some value) ↔
      (index, .ok value) ∈ (call.tasks.settle size task outcome).ended := by
  unfold recorded WorkerPool.settle
  cases found : call.tasks.workers[task]? with
  | none => exact sound.filled index value
  | some worker =>
    cases worker with
    | created | finished | failed => exact sound.filled index value
    | calling own =>
      cases outcome with
      | error exception =>
        show _ ↔ (index, Except.ok value) ∈ call.tasks.ended ++ [(own, .error exception)]
        rw [List.mem_append, sound.filled]
        simp
      | ok returned =>
        have isOwn : own ∈ call.tasks.inFlight := List.mem_filterMap.mpr ⟨_, List.mem_of_getElem? found, rfl⟩
        have fresh (other : β) : (own, Except.ok other) ∉ call.tasks.ended := fun member =>
          (List.nodup_append.mp sound.tasks.nodup).2.2 own isOwn own (List.mem_map_of_mem member) rfl
        have inside : own < call.results.length := by
          have taken := sound.tasks.calls.mem_iff.mp (List.mem_append_left _ isOwn)
          have bound := sound.tasks.bound
          rw [List.mem_range] at taken
          rw [sound.length]
          omega
        dsimp only
        rw [WorkerPool.ended_take, List.mem_append, List.mem_singleton, Prod.mk.injEq, Except.ok.injEq]
        by_cases same : index = own
        · subst same
          rw [List.getElem?_set_self inside, Option.some.injEq, Option.some.injEq]
          simp only [fresh value, true_and, false_or]
          exact eq_comm
        · rw [List.getElem?_set_ne (Ne.symm same), sound.filled]
          simp [same]

theorem sound_settle (sound : Sound limit size call) (task : Nat) (outcome : Except (TaskException ε) β) :
    Sound limit size (call.settle size task outcome) := by
  have phased := phased_notify sound.phased (@taskStep_settle _ _ size call task outcome)
    fun isEnded => recorded_of_ended isEnded task outcome
  unfold settle
  obtain ⟨gathered, notified⟩ := notify_eq
    { call with tasks := call.tasks.settle size task outcome, results := call.recorded task outcome } task
  rw [notified] at phased ⊢
  refine ⟨WorkerPool.sound_settle sound.tasks _, ?_, ?_, filled_recorded sound task outcome, phased⟩
  · exact (WorkerPool.length_settle _).trans sound.staff
  · exact (length_recorded task outcome).trans sound.length

theorem isEnded_cancel {tasks : WorkerPool β (TaskException ε)} : tasks.cancel.isEnded = tasks.isEnded := by
  unfold WorkerPool.isEnded WorkerPool.cancel
  rw [List.all_map]
  exact congrArg _ (funext Worker.isEnded_cancel)

theorem failed_cancel {tasks : WorkerPool β (TaskException ε)} {exception : TaskException ε} :
    .failed exception ∈ tasks.cancel.workers ↔ .failed exception ∈ tasks.workers := by
  simp only [WorkerPool.cancel, List.mem_map, Worker.cancel_eq_iff (show (Worker.failed exception).isEnded = true from rfl),
    exists_eq_right]

theorem sound_cancel (sound : Sound limit size call) : Sound limit size call.cancel := by
  obtain ⟨soundTasks, staff, length, filled, phased⟩ := sound
  obtain ⟨tasks, results, phase, gathered, cancelRequested, mustCancel⟩ := call
  have cancelled (phased : Phased size ⟨tasks.cancel, results, phase, gathered, true, mustCancel⟩) :
      Sound limit size ⟨tasks.cancel, results, phase, gathered, true, mustCancel⟩ :=
    ⟨WorkerPool.sound_cancel soundTasks, WorkerPool.length_cancel.trans staff, length, filled, phased⟩
  have marked : Sound limit size ⟨tasks, results, phase, gathered, cancelRequested, true⟩ :=
    ⟨soundTasks, staff, length, filled, phased⟩
  cases phase with
  | gathering =>
    cases gathered with
    | pending =>
      refine cancelled ⟨isEnded_cancel.trans phased.1, fun exception member => ?_⟩
      exact phased.2 exception (failed_cancel.mp member)
    | done | failed => exact marked
  | cancelling exception =>
    cases gathered with
    | pending => exact cancelled (isEnded_cancel.trans phased)
    | done | failed => exact marked
  | returned | raised => exact ⟨soundTasks, staff, length, filled, phased⟩

theorem mapM_map_some (values : List β) : (values.map some).mapM id = some values := by
  induction values with
  | nil => rfl
  | cons value values ih =>
    rw [List.map_cons, List.mapM_cons, ih]
    rfl

/-- Once all tasks have finished, no value is missing. -/
theorem exists_values (sound : Sound limit size call) (staffed : call.tasks.workers ≠ [])
    (finished : ∀ task ∈ call.tasks.workers, task = .finished) :
    ∃ values : List β, call.results = values.map some ∧ (call.tasks.ended.map Prod.fst).Perm (List.range size) := by
  obtain ⟨all, succeeded⟩ := sound.tasks.complete finished staffed
  suffices given : ∀ result ∈ call.results, ∃ value, result = some value by
    refine ⟨call.results.filterMap id, ?_, all⟩
    rw [List.map_filterMap]
    refine (List.map_id _).symm.trans (List.filterMap_eq_map_iff_forall_eq_some.mpr fun result member => ?_).symm
    obtain ⟨value, rfl⟩ := given result member
    rfl
  intro result member
  obtain ⟨index, inside, rfl⟩ := List.mem_iff_getElem.mp member
  have taken : index ∈ call.tasks.ended.map Prod.fst := by
    rw [all.mem_iff, List.mem_range, ← sound.length]
    exact inside
  obtain ⟨⟨other, outcome⟩, isEnded, rfl⟩ := List.mem_map.mp taken
  obtain ⟨value, rfl⟩ := succeeded other outcome isEnded
  have filled := (sound.filled other value).mpr isEnded
  rw [List.getElem?_eq_getElem inside] at filled
  exact ⟨value, Option.some.inj filled⟩

theorem sound_cleanUp (sound : Sound limit size call) (exception : TaskException ε) :
    Sound limit size (call.cleanUp exception) := by
  refine ⟨WorkerPool.sound_cancel sound.tasks, WorkerPool.length_cancel.trans sound.staff, sound.length, sound.filled, ?_⟩
  unfold cleanUp Phased
  dsimp only
  by_cases isEnded : call.tasks.isEnded = true
  · rw [if_pos isEnded]
    exact isEnded_cancel.trans isEnded
  · rw [if_neg isEnded]
    exact isEnded_cancel.trans (Bool.eq_false_iff.mpr isEnded)

theorem sound_finish (sound : Sound limit size call) (staffed : call.tasks.workers ≠ [])
    (finished : ∀ task ∈ call.tasks.workers, task = .finished) : Sound limit size call.finish := by
  obtain ⟨values, isResults, all⟩ := exists_values sound staffed finished
  refine ⟨sound.tasks, sound.staff, sound.length, sound.filled, ?_⟩
  unfold finish
  rw [isResults, mapM_map_some]
  exact ⟨isEnded_of_finished finished, rfl, all⟩

theorem sound_resume (sound : Sound limit size call) : Sound limit size call.resume := by
  have phased := sound.phased
  unfold resume
  unfold Phased at phased
  split
  · exact sound
  · rename_i isGathering notPending
    cases isThrown : call.thrown with
    | some exception => exact sound_cleanUp sound exception
    | none =>
      rw [isGathering] at phased
      unfold thrown at isThrown
      split at isThrown
      · cases isThrown
      · cases isGathered : call.gathered with
        | pending => exact absurd isGathered notPending
        | failed exception =>
          rw [isGathered] at isThrown
          cases isThrown
        | done =>
          rw [isGathered] at phased
          exact sound_finish sound phased.1 phased.2
  · rename_i exception isCancelling notPending
    refine ⟨sound.tasks, sound.staff, sound.length, sound.filled, ?_, fun message same => ?_⟩
    · cases isGathered : call.gathered with
      | pending => exact absurd isGathered notPending
      | done | failed =>
        rw [isCancelling, isGathered] at phased
        exact phased
    · cases same
  · exact sound
  · exact sound

theorem sound_step (sound : Sound limit size call) (action : BoundedMapAction β ε) : Sound limit size (call.step size action) := by
  cases action with
  | start task => exact sound_startTask sound task
  | settle task outcome => exact sound_settle sound task outcome
  | cancel => exact sound_cancel sound
  | resume => exact sound_resume sound

/-! ## What is raised -/

/-- The exception was raised by a call, or the caller was cancelled. -/
def Excused (asked : Prop) (call : BoundedMap β ε) (exception : TaskException ε) : Prop :=
  (∃ index, (index, .error exception) ∈ call.tasks.ended) ∨ exception = .cancelled ∧ asked

structure Blamed (asked : Prop) (call : BoundedMap β ε) : Prop where
  requested : call.cancelRequested = true → asked
  must : call.mustCancel = true → asked
  created : call.phase = .gathering → .created true ∈ call.tasks.workers → asked
  failed : call.phase = .gathering → ∀ exception, .failed exception ∈ call.tasks.workers → call.Excused asked exception
  gathered : ∀ exception, call.gathered = .failed exception → call.Excused asked exception
  cancelling : ∀ exception, call.phase = .cancelling exception → call.Excused asked exception
  raised : ∀ exception, call.phase = .raised (.exception exception) → call.Excused asked exception

variable {asked : Prop}

theorem blamed_begin (limit : Int) (size : Nat) : Blamed asked (start limit size : BoundedMap β ε) where
  requested isRequested := by cases isRequested
  must isMust := by cases isMust
  created _ member := by cases List.eq_of_mem_replicate member
  failed _ exception member := by cases List.eq_of_mem_replicate member
  gathered exception isFailed := by cases isFailed
  cancelling exception isCancelling := by
    simp only [start] at isCancelling
    split at isCancelling
    · cases isCancelling
    · split at isCancelling <;> cases isCancelling
  raised exception isRaised := by
    simp only [start] at isRaised
    split at isRaised
    · cases isRaised
    · split at isRaised <;> cases isRaised

theorem Excused.mono {next : BoundedMap β ε} (later : call.tasks.ended ⊆ next.tasks.ended) {exception : TaskException ε}
    (excused : call.Excused asked exception) : next.Excused asked exception :=
  excused.imp_left fun found => found.imp fun _ member => later member

theorem Blamed.withGathered (blamed : Blamed asked call) {gathered : Gathered ε}
    (excused : ∀ exception, gathered = .failed exception → call.Excused asked exception) :
    Blamed asked { call with gathered } :=
  ⟨blamed.requested, blamed.must, blamed.created, blamed.failed, excused, blamed.cancelling, blamed.raised⟩

theorem Blamed.withPhase (blamed : Blamed asked call) {phase : BoundedMapPhase β ε} (left : phase ≠ .gathering)
    (cancelling : ∀ exception, phase = .cancelling exception → call.Excused asked exception)
    (raised : ∀ exception, phase = .raised (.exception exception) → call.Excused asked exception) :
    Blamed asked { call with phase } :=
  ⟨blamed.requested, blamed.must, fun isGathering => absurd isGathering left, fun isGathering => absurd isGathering left,
    blamed.gathered, cancelling, raised⟩

/-- A step of a task keeps the blame, if a task that it lets fail is excused. -/
theorem blamed_notify (blamed : Blamed asked call) {tasks : WorkerPool β (TaskException ε)} {results : List (Option β)}
    (task : Nat) (later : call.tasks.ended ⊆ tasks.ended)
    (created : .created true ∈ tasks.workers → .created true ∈ call.tasks.workers)
    (failed : ∀ exception, .failed exception ∈ tasks.workers → .failed exception ∈ call.tasks.workers ∨
      (∃ index, (index, .error exception) ∈ tasks.ended) ∨ exception = .cancelled ∧ .created true ∈ call.tasks.workers) :
    Blamed asked (notify { call with tasks, results } task) := by
  have stepped : Blamed asked { call with tasks, results } := by
    refine ⟨blamed.requested, blamed.must, fun isGathering member => blamed.created isGathering (created member), ?_,
      fun exception isFailed => (blamed.gathered exception isFailed).mono later,
      fun exception isCancelling => (blamed.cancelling exception isCancelling).mono later,
      fun exception isRaised => (blamed.raised exception isRaised).mono later⟩
    intro isGathering exception member
    rcases failed exception member with isOld | isEnded | ⟨isCancelled, isCreated⟩
    · exact (blamed.failed isGathering exception isOld).mono later
    · exact .inl isEnded
    · exact .inr ⟨isCancelled, blamed.created isGathering isCreated⟩
  unfold notify
  split
  · rename_i exception isPending isGathering isFailed
    refine stepped.withGathered fun other same => ?_
    cases same
    exact stepped.failed isGathering exception (List.mem_of_getElem? isFailed)
  · split
    · refine stepped.withGathered fun other same => ?_
      split at same
      · rename_i isRequested
        cases same
        exact .inr ⟨rfl, blamed.requested isRequested⟩
      · cases same
    · exact stepped
  · exact stepped

theorem blamed_startTask (blamed : Blamed asked call) (task : Nat) : Blamed asked (call.startTask size task) := by
  refine blamed_notify blamed task ?_ WorkerPool.created_start fun exception member => ?_
  · rw [WorkerPool.ended_start]
    exact List.Subset.refl _
  · exact (WorkerPool.failed_start member).imp_right .inr

theorem blamed_settle (blamed : Blamed asked call) (task : Nat) (outcome : Except (TaskException ε) β) :
    Blamed asked (call.settle size task outcome) := by
  refine blamed_notify blamed task (WorkerPool.ended_settle outcome) WorkerPool.created_settle fun exception member => ?_
  exact (WorkerPool.failed_settle member).imp_right .inl

theorem blamed_cancel (blamed : Blamed asked call) (isAsked : asked) : Blamed asked call.cancel := by
  have cancelled : Blamed asked { call with tasks := call.tasks.cancel, cancelRequested := true } :=
    ⟨fun _ => isAsked, blamed.must, fun _ _ => isAsked, fun isGathering exception member =>
      blamed.failed isGathering exception (failed_cancel.mp member), blamed.gathered, blamed.cancelling, blamed.raised⟩
  have marked : Blamed asked { call with mustCancel := true } :=
    ⟨blamed.requested, fun _ => isAsked, blamed.created, blamed.failed, blamed.gathered, blamed.cancelling, blamed.raised⟩
  unfold cancel
  split
  · exact cancelled
  · exact cancelled
  · exact marked
  · exact marked
  · exact blamed
  · exact blamed

theorem blamed_thrown (blamed : Blamed asked call) {exception : TaskException ε} (isThrown : call.thrown = some exception) :
    call.Excused asked exception := by
  unfold thrown at isThrown
  split at isThrown
  · rename_i isMust
    cases isThrown
    exact .inr ⟨rfl, blamed.must isMust⟩
  · split at isThrown
    · rename_i other isFailed
      cases isThrown
      exact blamed.gathered exception isFailed
    · cases isThrown

theorem blamed_cleanUp {exception : TaskException ε} (excused : call.Excused asked exception) :
    Blamed asked (call.cleanUp exception) where
  requested := by rintro ⟨⟩
  must := by rintro ⟨⟩
  created := by rintro ⟨⟩
  failed := by rintro ⟨⟩
  gathered := by
    intro other isFailed
    simp only [cleanUp] at isFailed
    split at isFailed <;> cases isFailed
  cancelling := by
    rintro _ ⟨⟩
    exact excused
  raised := by rintro _ ⟨⟩

theorem blamed_resume (blamed : Blamed asked call) : Blamed asked call.resume := by
  unfold resume
  split
  · exact blamed
  · cases isThrown : call.thrown with
    | some exception => exact blamed_cleanUp (blamed_thrown blamed isThrown)
    | none =>
      unfold finish
      split
      · exact blamed.withPhase (by rintro ⟨⟩) (by rintro _ ⟨⟩) (by rintro _ ⟨⟩)
      · exact blamed.withPhase (by rintro ⟨⟩) (by rintro _ ⟨⟩) (by rintro _ ⟨⟩)
  · rename_i exception isCancelling notPending
    refine blamed.withPhase (by rintro ⟨⟩) (by rintro _ ⟨⟩) ?_
    rintro other ⟨⟩
    cases isThrown : call.thrown with
    | some other => exact blamed_thrown blamed isThrown
    | none => exact blamed.cancelling exception isCancelling
  · exact blamed
  · exact blamed

theorem blamed_step (blamed : Blamed asked call) (action : BoundedMapAction β ε) (isAsked : action = .cancel → asked) :
    Blamed asked (call.step size action) := by
  cases action with
  | start task => exact blamed_startTask blamed task
  | settle task outcome => exact blamed_settle blamed task outcome
  | cancel => exact blamed_cancel blamed (isAsked rfl)
  | resume => exact blamed_resume blamed

/-! ## Progress -/

def isDone (call : BoundedMap β ε) : Bool :=
  match call.phase with
  | .gathering | .cancelling _ => false
  | .returned _ | .raised _ => true

/-- The steps that the tasks and their caller have made. -/
def work (call : BoundedMap β ε) : Nat :=
  call.tasks.steps + match call.phase with
    | .gathering => 0
    | .cancelling _ => 1
    | .returned _ | .raised _ => 2

theorem work_le (sound : Sound limit size call) : call.work ≤ limit.toNat + size + 2 := by
  have steps := sound.tasks.steps_le
  have staff := sound.staff
  unfold work
  split <;> omega

@[simp] theorem phase_notify (task : Nat) : (notify call task).phase = call.phase := by
  obtain ⟨gathered, notified⟩ := notify_eq call task
  rw [notified]

@[simp] theorem tasks_notify (task : Nat) : (notify call task).tasks = call.tasks := by
  obtain ⟨gathered, notified⟩ := notify_eq call task
  rw [notified]

theorem work_startTask (task : Nat) :
    (call.startTask size task).work + call.tasks.steps = call.work + (call.tasks.start size .cancelled task).steps := by
  simp only [work, startTask, phase_notify, tasks_notify]
  omega

theorem work_settle (task : Nat) (outcome : Except (TaskException ε) β) :
    (call.settle size task outcome).work + call.tasks.steps = call.work + (call.tasks.settle size task outcome).steps := by
  simp only [work, settle, phase_notify, tasks_notify]
  omega

theorem work_cancel : call.cancel.work = call.work := by
  unfold cancel work
  split <;> simp

theorem phase_finish (call : BoundedMap β ε) : (∃ values, call.finish.phase = .returned values) ∨
    ∃ message, call.finish.phase = .raised (.runtimeError message) := by
  unfold finish
  dsimp only
  split
  · exact .inl ⟨_, rfl⟩
  · exact .inr ⟨_, rfl⟩

theorem work_resume (ready : call.gathered ≠ .pending) (unfinished : call.isDone = false) : call.work < call.resume.work := by
  unfold resume
  split
  · rename_i isPending
    exact absurd isPending ready
  · rename_i isGathering _
    cases call.thrown with
    | some exception => simp [cleanUp, work, isGathering]
    | none =>
      show call.work < call.finish.work
      have sameTasks : call.finish.tasks = call.tasks := rfl
      unfold work
      rcases phase_finish call with ⟨values, isPhase⟩ | ⟨message, isPhase⟩ <;>
        simp [sameTasks, isPhase, isGathering]
  · rename_i isCancelling _
    simp [work, isCancelling]
  · rename_i isReturned _
    rw [isDone, isReturned] at unfinished
    cases unfinished
  · rename_i isRaised _
    rw [isDone, isRaised] at unfinished
    cases unfinished

/-- While no call is running, a task or the caller can go on. -/
theorem exists_progress (sound : Sound limit size call) (unfinished : call.isDone = false)
    (idle : call.tasks.inFlight = []) : ∃ action : BoundedMapAction β ε, call.work < (call.step size action).work := by
  by_cases isPending : call.gathered = .pending
  · have notEnded : call.tasks.isEnded = false := by
      have phased := sound.phased
      unfold Phased at phased
      rw [isPending] at phased
      unfold isDone at unfinished
      split at unfinished
      · rename_i isGathering
        rw [isGathering] at phased
        exact phased.1
      · rename_i isCancelling
        rw [isCancelling] at phased
        exact phased
      · cases unfinished
      · cases unfinished
    rcases WorkerPool.exists_step notEnded with running | ⟨task, isCancelled, isCreated⟩
    · exact absurd idle running
    · refine ⟨.start task, ?_⟩
      have worked := @work_startTask _ _ size call task
      rw [WorkerPool.steps_start isCreated] at worked
      show call.work < (call.startTask size task).work
      omega
  · exact ⟨.resume, work_resume isPending unfinished⟩

/-- Whatever comes of a running call, its end is a step forward. -/
theorem settle_progress {index : Nat} (isRunning : index ∈ call.tasks.inFlight) :
    ∃ task, ∀ outcome, call.work < (call.step size (.settle task outcome)).work := by
  obtain ⟨worker, member, isIndex⟩ := List.mem_filterMap.mp isRunning
  obtain ⟨task, isWorker⟩ := List.mem_iff_getElem?.mp member
  cases worker with
  | calling own =>
    refine ⟨task, fun outcome => ?_⟩
    have worked := @work_settle _ _ size call task outcome
    rw [WorkerPool.steps_settle isWorker] at worked
    show call.work < (call.settle size task outcome).work
    omega
  | created | finished | failed => cases isIndex

theorem work_step_le (action : BoundedMapAction β ε) : call.work ≤ (call.step size action).work := by
  cases action with
  | start task =>
    have worked := @work_startTask _ _ size call task
    have steps := @WorkerPool.steps_le_start _ _ size call.tasks task .cancelled
    show call.work ≤ (call.startTask size task).work
    omega
  | settle task outcome =>
    have worked := @work_settle _ _ size call task outcome
    have steps := @WorkerPool.steps_le_settle _ _ size call.tasks task outcome
    show call.work ≤ (call.settle size task outcome).work
    omega
  | cancel => exact work_cancel.ge
  | resume =>
    show call.work ≤ call.resume.work
    by_cases isPending : call.gathered = .pending
    · have waits : call.resume = call := by
        unfold resume
        rw [isPending]
      rw [waits]
    · cases unfinished : call.isDone with
      | false => exact (work_resume isPending unfinished).le
      | true =>
        have waits : call.resume = call := by
          unfold resume
          unfold isDone at unfinished
          split at unfinished
          · cases unfinished
          · cases unfinished
          · rename_i isReturned
            rw [isReturned]
            split <;> simp_all
          · rename_i isRaised
            rw [isRaised]
            split <;> simp_all
        rw [waits]

/-! ## Every run -/

/-- Only a limit below one is refused. -/
theorem valueError_step {message : Text} (action : BoundedMapAction β ε)
    (refused : (call.step size action).phase = .raised (.valueError message)) : call.phase = .raised (.valueError message) := by
  cases action with
  | start task => simpa only [step, startTask, phase_notify] using refused
  | settle task outcome => simpa only [step, settle, phase_notify] using refused
  | cancel =>
    have samePhase : call.cancel.phase = call.phase := by
      unfold cancel
      split <;> rfl
    exact samePhase.symm.trans refused
  | resume =>
    change call.resume.phase = _ at refused
    unfold resume at refused
    split at refused
    · exact refused
    · cases isThrown : call.thrown with
      | some exception =>
        rw [isThrown] at refused
        cases refused
      | none =>
        rw [isThrown] at refused
        change call.finish.phase = _ at refused
        rcases phase_finish call with ⟨values, isPhase⟩ | ⟨other, isPhase⟩ <;>
        · rw [isPhase] at refused
          cases refused
    · cases refused
    · exact refused
    · exact refused

end

/-- What holds of a call at any time, whichever order the event loop has run the tasks in. -/
structure Confined (limit : Int) (size : Nat) (cancelled : Prop) (call : BoundedMap β ε) : Prop where
  bounded : call.tasks.inFlight.length ≤ limit.toNat
  /-- The values called so far are the first ones, each of them called once. -/
  calls : (call.tasks.inFlight ++ call.tasks.ended.map Prod.fst).Perm (List.range call.tasks.next)
  /-- The answer comes after every call, with the value of each at its place. -/
  returned : ∀ values, call.phase = .returned values → call.tasks.inFlight = [] ∧
    (call.tasks.ended.map Prod.fst).Perm (List.range size) ∧ values.length = size ∧
    ∀ index value, values[index]? = some value ↔ (index, .ok value) ∈ call.tasks.ended
  /-- An exception comes when no call is left running; it is one that a call has raised, or a cancellation. -/
  raised : ∀ failure, call.phase = .raised failure → call.tasks.inFlight = [] ∧
    ((∃ message, failure = .valueError message) ∧ limit < 1 ∨
      ∃ exception, failure = .exception exception ∧ call.Excused cancelled exception)
  /-- Nothing but a running call keeps a task or the caller from going on. -/
  progress : call.isDone = false → call.tasks.inFlight = [] →
    ∃ action : BoundedMapAction β ε, call.work < (call.step size action).work
  settles : ∀ index ∈ call.tasks.inFlight, ∃ task, ∀ outcome, call.work < (call.step size (.settle task outcome)).work
  forward : ∀ action, call.work ≤ (call.step size action).work
  bound : call.work ≤ limit.toNat + size + 2

theorem boundedMap_run (limit : Int) (size : Nat) (actions : List (BoundedMapAction β ε)) :
    Confined limit size (.cancel ∈ actions) (run (step size) (start limit size) actions) := by
  have sound : Sound limit size (run (step size) (start limit size) actions) :=
    run_invariant (Sound limit size) (fun _ action sound => sound_step sound action) (sound_begin limit size) actions
  have blamed : Blamed (.cancel ∈ actions) (run (step size) (start limit size) actions) :=
    run_invariant_along (fun _ action isAsked blamed => blamed_step blamed action isAsked) (blamed_begin limit size)
      (along_of_mem fun action member same => same ▸ member)
  have refused : ∀ message, (run (step size) (start limit size) actions).phase = .raised (.valueError message) → limit < 1 := by
    refine run_invariant (fun call : BoundedMap β ε => ∀ message, call.phase = .raised (.valueError message) → limit < 1)
      (fun call action refused message later => refused message (valueError_step action later)) ?_ actions
    intro message isRefused
    by_contra valid
    rw [show (start limit size : BoundedMap β ε).phase = _ from if_neg valid] at isRefused
    split at isRefused <;> cases isRefused
  generalize run (step size) (start limit size) actions = call at sound blamed refused
  have phased := sound.phased
  unfold Phased at phased
  refine ⟨?_, sound.tasks.calls, fun values isReturned => ?_, fun failure isRaised => ?_, exists_progress sound,
    fun _ => settle_progress, work_step_le, work_le sound⟩
  · have bound := WorkerPool.length_inFlight call.tasks
    have staff : call.tasks.workers.length = min limit.toNat size := sound.staff
    omega
  · rw [isReturned] at phased
    obtain ⟨isEnded, isResults, all⟩ := phased
    refine ⟨WorkerPool.inFlight_of_ended isEnded, all, ?_, fun index value => ?_⟩
    · have length := sound.length
      rwa [isResults, List.length_map] at length
    · rw [← sound.filled, isResults, List.getElem?_map, Option.map_eq_some_iff]
      simp
  · rw [isRaised] at phased
    refine ⟨WorkerPool.inFlight_of_ended phased.1, ?_⟩
    cases failure with
    | valueError message => exact .inl ⟨⟨message, rfl⟩, refused message isRaised⟩
    | runtimeError message => exact absurd rfl (phased.2 message)
    | exception exception => exact .inr ⟨exception, rfl, blamed.raised exception isRaised⟩

end BoundedMap

end Mcplica.Core
