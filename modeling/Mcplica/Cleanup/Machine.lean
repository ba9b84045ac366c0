import Mcplica.Cleanup.Jobs

/-! # The machine of cleanup jobs and targets

What every transaction does to the rows, and what follows for all of them together: a target that is done stays as it
is, one worker at a time has a claim on a target, and a job is done when its targets are, as long as no target is added
to a job that is done. -/

namespace Mcplica.Cleanup

open Mcplica.Domain Mcplica.Library

namespace CleanupStore

/-- A target that is done stays as it is. -/
def Frozen (store next : CleanupStore) : Prop :=
  ∀ target ∈ store.targets, target.status.terminal = true → target ∈ next.targets

/-- The job of a target exists. -/
def Linked (store : CleanupStore) : Prop :=
  ∀ target ∈ store.targets, (store.jobs.get? target.jobId).isSome = true

/-- The job counts its targets and is done exactly when all of them are. -/
structure Summarizes (targets : Table CleanupTarget) (job : CleanupJob) : Prop where
  total : job.totalTargets = targets.count (·.jobId = job.id)
  done : job.status.terminal = true ↔ ∀ target ∈ targets, target.jobId = job.id → target.status.terminal = true

def Summarized (store : CleanupStore) : Prop :=
  ∀ job ∈ store.jobs, Summarizes store.targets job

theorem Frozen.refl (store : CleanupStore) : store.Frozen store :=
  fun _ member _ => member

theorem Frozen.trans {first second third : CleanupStore} (left : first.Frozen second) (right : second.Frozen third) :
    first.Frozen third :=
  fun target member terminal => right target (left target member terminal) terminal

/-! ## Registration -/

section Registration

variable {sha256 : Text → Text} {store middle next : CleanupStore} {request : JobRequest} {job : CleanupJob}
  {jobId : Uuid} {now : Instant}

/-- A job is found by its key or is new. -/
theorem createJob_eq_some (created : store.createJob request = some (next, job)) :
    (next = store ∧ job ∈ store.jobs ∧ store.jobByKey request.idempotencyKey = some job) ∨
      (job = request.newJob ∧ next.targets = store.targets ∧ store.jobs.insert job = some next.jobs ∧
        store.jobByKey request.idempotencyKey = none) := by
  unfold createJob at created
  split at created
  · rename_i found
    cases created
    exact .inl ⟨rfl, List.mem_of_find?_eq_some found, found⟩
  · rename_i absent
    simp only [Option.bind_eq_bind, Option.bind_eq_some_iff, Option.pure_def, Option.some.injEq, Prod.mk.injEq] at created
    obtain ⟨jobs, inserted, rfl, rfl⟩ := created
    exact .inr ⟨rfl, rfl, inserted, absent⟩

def addTotal (number : Nat) (job : CleanupJob) : CleanupJob :=
  { job with totalTargets := job.totalTargets + number }

theorem addTotal_key (number : Nat) (job : CleanupJob) : Row.key (addTotal number job) = Row.key job := rfl

/-- The rows after targets were added to a job. -/
structure Adds (jobId : Uuid) (added : List CleanupTarget) (store next : CleanupStore) : Prop where
  targets : next.targets.rows = store.targets.rows ++ added
  jobs : next.jobs = store.jobs.update (·.id = jobId) (addTotal added.length) (addTotal_key added.length)
  pending : ∀ target ∈ added, target.jobId = jobId ∧ target.status = .pending

theorem Adds.refl (jobId : Uuid) (store : CleanupStore) : Adds jobId [] store store where
  targets := by rw [List.append_nil]
  jobs := by
    apply Table.ext
    conv => lhs; rw [← List.map_id store.jobs.rows]
    apply List.map_congr_left
    intro job _
    split <;> rfl
  pending := by simp

theorem Adds.trans {first second : List CleanupTarget} (left : Adds jobId first store middle)
    (right : Adds jobId second middle next) : Adds jobId (first ++ second) store next where
  targets := by rw [right.targets, left.targets, List.append_assoc]
  jobs := by
    rw [right.jobs, left.jobs]
    apply Table.ext
    simp only [Table.update, List.map_map]
    apply List.map_congr_left
    intro job _
    by_cases isJob : job.id = jobId
    · simp [isJob, addTotal, Nat.add_assoc]
    · simp [isJob]
  pending := by
    intro target member
    rcases List.mem_append.mp member with isFirst | isSecond
    · exact left.pending target isFirst
    · exact right.pending target isSecond

theorem addTarget_eq_some {target : TargetRequest} (ran : store.addTarget sha256 jobId now target = some next) :
    (store.hasTarget sha256 jobId target.subject = true ∧ next = store) ∨
      (store.hasTarget sha256 jobId target.subject = false ∧
        Adds jobId [newTarget sha256 jobId target now] store next) := by
  unfold addTarget at ran
  split at ran
  · rename_i has
    cases ran
    exact .inl ⟨has, rfl⟩
  · rename_i lacks
    simp only [Option.bind_eq_bind, Option.bind_eq_some_iff, Option.pure_def, Option.some.injEq] at ran
    obtain ⟨_, _, targets, inserted, rfl⟩ := ran
    refine .inr ⟨eq_false_of_ne_true lacks, Table.rows_insert inserted, rfl, ?_⟩
    · intro added member
      rw [List.mem_singleton.mp member]
      exact ⟨rfl, rfl⟩

/-- Targets that are all there already are not added. -/
theorem addTargets_eq_some {targets : List TargetRequest} (ran : store.addTargets sha256 jobId now targets = some next) :
    ∃ added, Adds jobId added store next ∧
      (added = [] ↔ ∀ target ∈ targets, store.hasTarget sha256 jobId target.subject = true) := by
  induction targets generalizing store with
  | nil =>
    cases ran
    exact ⟨[], Adds.refl jobId _, by simp⟩
  | cons target targets ih =>
    simp only [addTargets, List.foldlM_cons, Option.bind_eq_bind, Option.bind_eq_some_iff] at ran
    obtain ⟨middle, isFirst, isRest⟩ := ran
    obtain ⟨later, addsLater, nothingLater⟩ := ih isRest
    rcases addTarget_eq_some isFirst with ⟨has, rfl⟩ | ⟨lacks, addsFirst⟩
    · exact ⟨later, addsLater, by simp [nothingLater, has]⟩
    · exact ⟨_, addsFirst.trans addsLater, by simp [lacks]⟩

theorem Adds.frozen {added : List CleanupTarget} (adds : Adds jobId added store next) : store.Frozen next := by
  intro target member _
  rw [← Table.mem_rows, adds.targets]
  exact List.mem_append_left _ member

theorem createJob_targets (created : store.createJob request = some (next, job)) : next.targets = store.targets := by
  rcases createJob_eq_some created with ⟨rfl, _⟩ | ⟨_, same, _⟩
  · rfl
  · exact same

theorem frozen_of_targets (same : next.targets = store.targets) : store.Frozen next :=
  fun _ member _ => same ▸ member

/-! ### The summary of the job -/

variable {added : List CleanupTarget}

theorem Adds.count (adds : Adds jobId added store next) (other : Uuid) :
    next.targets.count (·.jobId = other) =
      store.targets.count (·.jobId = other) + if other = jobId then added.length else 0 := by
  have counted : added.countP (·.jobId = other) = if other = jobId then added.length else 0 := by
    split
    · rename_i same
      rw [List.countP_eq_length]
      intro target member
      simp [(adds.pending target member).1, same]
    · rename_i different
      rw [List.countP_eq_zero]
      intro target member
      simp [(adds.pending target member).1, Ne.symm different]
  rw [Table.count, Table.count, adds.targets, List.countP_append, counted]

theorem Adds.mem (adds : Adds jobId added store next) {target : CleanupTarget} :
    target ∈ next.targets ↔ target ∈ store.targets ∨ target ∈ added := by
  rw [← Table.mem_rows, adds.targets, List.mem_append, Table.mem_rows]

/-- Targets of one job do not matter to another. -/
theorem Adds.summarizes_other (adds : Adds jobId added store next) (different : job.id ≠ jobId)
    (summarizes : Summarizes store.targets job) : Summarizes next.targets job := by
  refine ⟨?_, ?_⟩
  · rw [adds.count, if_neg different, Nat.add_zero]
    exact summarizes.total
  · rw [summarizes.done]
    constructor
    · intro all target member own
      rcases adds.mem.mp member with isOld | isAdded
      · exact all target isOld own
      · exact absurd (own.symm.trans (adds.pending target isAdded).1) different
    · intro all target member
      exact all target (adds.mem.mpr (.inl member))

/-- What is known of the job that a transaction found or made. -/
structure Registered (targets : Table CleanupTarget) (job : CleanupJob) : Prop where
  total : job.totalTargets = targets.count (·.jobId = job.id)
  settled : Summarizes targets job ∨ job.status.terminal = false ∧ job.totalTargets = 0

theorem registered_of_createJob (linked : store.Linked) (summarized : store.Summarized)
    (created : store.createJob request = some (next, job)) :
    Registered store.targets job ∧ job ∈ next.jobs ∧ ∀ other ∈ next.jobs, other.id ≠ job.id → Summarizes store.targets other := by
  rcases createJob_eq_some created with ⟨rfl, isJob, _⟩ | ⟨rfl, _, inserted, _⟩
  · exact ⟨⟨(summarized job isJob).total, .inl (summarized job isJob)⟩, isJob, fun other isOther _ => summarized other isOther⟩
  · have none : store.targets.count (·.jobId = request.newJob.id) = 0 := by
      rw [Table.count, List.countP_eq_zero]
      intro target member
      have free : store.jobs.get? request.newJob.id = none := Table.key_of_insert inserted
      have isLinked := linked target member
      have foreign : target.jobId ≠ request.newJob.id := by
        intro same
        rw [same, free] at isLinked
        cases isLinked
      simpa using foreign
    refine ⟨⟨none.symm, .inr ⟨rfl, rfl⟩⟩, (Table.mem_insert inserted).mpr (.inr rfl), ?_⟩
    intro other isOther different
    rcases (Table.mem_insert inserted).mp isOther with isOld | rfl
    · exact summarized other isOld
    · exact absurd rfl different

/-- The summary of the job with the added targets, of which there is one if there was none before. -/
theorem Adds.summarizes (adds : Adds job.id added store next) (registered : Registered store.targets job)
    (closed : job.status.terminal = true → added = []) (some : job.totalTargets + added.length ≠ 0)
    {row : CleanupJob} (sameId : row.id = job.id) (sameStatus : row.status = job.status)
    (total : row.totalTargets = job.totalTargets + added.length) : Summarizes next.targets row := by
  refine ⟨?_, ?_⟩
  · rw [total, sameId, adds.count, if_pos rfl, registered.total]
  · rw [sameStatus, sameId]
    rcases registered.settled with summarizes | ⟨isOpen, isEmpty⟩
    · rw [summarizes.done]
      constructor
      · intro all target member own
        rcases adds.mem.mp member with isOld | isAdded
        · exact all target isOld own
        · rw [closed (summarizes.done.mpr all)] at isAdded
          cases isAdded
      · intro all target member
        exact all target (adds.mem.mpr (.inl member))
    · -- The job is new: the first of its targets is pending.
      rw [isOpen]
      obtain ⟨target, rest, rfl⟩ : ∃ target rest, added = target :: rest := by
        cases added with
        | nil => simp [isEmpty] at some
        | cons target rest => exact ⟨target, rest, rfl⟩
      obtain ⟨own, isPending⟩ := adds.pending target List.mem_cons_self
      constructor
      · intro impossible
        cases impossible
      · intro all
        have terminal := all target (adds.mem.mpr (.inr List.mem_cons_self)) own
        rw [isPending] at terminal
        cases terminal

/-- A job without targets that is closed. -/
theorem Adds.summarizes_empty (adds : Adds job.id added store next) (registered : Registered store.targets job)
    (none : job.totalTargets + added.length = 0) {row : CleanupJob} (sameId : row.id = job.id)
    (terminal : row.status.terminal = true) (total : row.totalTargets = 0) : Summarizes next.targets row := by
  have count : next.targets.count (·.jobId = row.id) = 0 := by
    rw [sameId, adds.count, if_pos rfl, ← registered.total, none]
  refine ⟨total.trans count.symm, ?_⟩
  rw [terminal]
  constructor
  · intro _ target member own
    rw [Table.count, List.countP_eq_zero] at count
    exact absurd (by simpa using own) (count target member)
  · intro _
    rfl

theorem Adds.mem_jobs (adds : Adds jobId added store next) {row : CleanupJob} : row ∈ next.jobs ↔
    ∃ old ∈ store.jobs, row = if old.id = jobId then addTotal added.length old else old := by
  rw [adds.jobs, Table.mem_update]
  simp only [decide_eq_true_eq]

theorem Adds.linked (adds : Adds jobId added store next) (linked : store.Linked)
    (isJob : (store.jobs.get? jobId).isSome = true) : next.Linked := by
  have kept : ∀ id, (next.jobs.get? id).isSome = (store.jobs.get? id).isSome := by
    intro id
    rw [adds.jobs, Table.get?_update, Option.isSome_map]
  intro target member
  rw [kept]
  rcases adds.mem.mp member with isOld | isAdded
  · exact linked target isOld
  · rw [(adds.pending target isAdded).1]
    exact isJob

theorem linked_of_createJob (linked : store.Linked) (created : store.createJob request = some (next, job)) :
    next.Linked ∧ (next.jobs.get? job.id).isSome = true := by
  rcases createJob_eq_some created with ⟨rfl, isJob, _⟩ | ⟨_, same, inserted, _⟩
  · refine ⟨linked, ?_⟩
    have found : next.jobs.get? job.id = some job := Table.get?_of_mem isJob
    rw [found]
    rfl
  · refine ⟨?_, ?_⟩
    · intro target member
      rw [Table.get?_insert inserted]
      split
      · rfl
      · exact linked target (same ▸ member)
    · have found : next.jobs.get? job.id = some job := Table.get?_of_mem ((Table.mem_insert inserted).mpr (.inr rfl))
      rw [found]
      rfl

theorem linked_update (linked : store.Linked) {where_ : CleanupJob → Bool} {assign : CleanupJob → CleanupJob} (keeps) :
    Linked { store with jobs := store.jobs.update where_ assign keeps } := by
  intro target member
  rw [Table.get?_update, Option.isSome_map]
  exact linked target member

theorem mem_finalizeEmptyJob {row : CleanupJob} : row ∈ (store.finalizeEmptyJob jobId now).jobs ↔
    ∃ old ∈ store.jobs, row = if old.id = jobId ∧ old.totalTargets = 0 then
      { old with status := .completed, completedAt := some now } else old := by
  simp [finalizeEmptyJob, Table.mem_update]

/-- The targets are added to what the creation of the job left, whose targets are those of before. -/
theorem Adds.of_createJob (created : store.createJob request = some (middle, job))
    (adds : Adds job.id added middle next) : Adds job.id added { store with jobs := middle.jobs } next where
  targets := by rw [adds.targets, createJob_targets created]
  jobs := adds.jobs
  pending := adds.pending

/-- A target that the job does not have would be added to a job that is done. -/
def reopens (sha256 : Text → Text) (store : CleanupStore) (request : JobRequest) (targets : List TargetRequest) : Bool :=
  (store.jobByKey request.idempotencyKey).any fun job =>
    job.status.terminal && targets.any fun target => !store.hasTarget sha256 job.id target.subject

theorem hasTarget_of_not_reopens {targets : List TargetRequest} (created : store.createJob request = some (middle, job))
    (closed : store.reopens sha256 request targets = false) (terminal : job.status.terminal = true) :
    ∀ target ∈ targets, middle.hasTarget sha256 job.id target.subject = true := by
  rcases createJob_eq_some created with ⟨rfl, _, found⟩ | ⟨rfl, _⟩
  · intro target member
    simp only [reopens, found, Option.any_some, terminal, Bool.true_and, List.any_eq_false, Bool.not_eq_true,
      Bool.not_eq_false'] at closed
    simpa using closed target member
  · cases terminal

/-- The two ends of a registration have this much in common. -/
theorem registration_spec {targets : List TargetRequest} (linked : store.Linked) (summarized : store.Summarized)
    (created : store.createJob request = some (middle, job)) (ran : middle.addTargets sha256 job.id now targets = some next)
    (closed : store.reopens sha256 request targets = false) :
    ∃ added, Adds job.id added { store with jobs := middle.jobs } next ∧ Registered store.targets job ∧
      (job.status.terminal = true → added = []) ∧
      (added = [] → ∀ target ∈ targets, store.hasTarget sha256 job.id target.subject = true) ∧
      ∀ row ∈ next.jobs, row.id ≠ job.id ∧ Summarizes next.targets row ∨
        row.id = job.id ∧ row.status = job.status ∧ row.totalTargets = job.totalTargets + added.length := by
  obtain ⟨registered, isJob, others⟩ := registered_of_createJob linked summarized created
  obtain ⟨added, addsMiddle, nothing⟩ := addTargets_eq_some ran
  have adds := addsMiddle.of_createJob created
  refine ⟨added, adds, registered, ?_, ?_, ?_⟩
  · intro terminal
    exact nothing.mpr (hasTarget_of_not_reopens created closed terminal)
  · intro isEmpty
    have before := nothing.mp isEmpty
    unfold hasTarget at before ⊢
    rw [createJob_targets created] at before
    exact before
  · intro row member
    obtain ⟨old, isOld, rfl⟩ := adds.mem_jobs.mp member
    by_cases isSame : old.id = job.id
    · have same : old = job := Table.eq_of_key isOld isJob isSame
      exact .inr (by simp [same, addTotal])
    · rw [if_neg isSame]
      exact .inl ⟨isSame, adds.summarizes_other isSame (others old isOld isSame)⟩

end Registration

section Transactions

variable {sha256 : Text → Text} {store next : CleanupStore} {request : JobRequest} {now : Instant}

theorem capture_eq_some {targets : List TargetRequest} (ran : store.capture sha256 request targets now = some next) :
    ∃ middle job last, store.createJob request = some (middle, job) ∧
      middle.addTargets sha256 job.id now targets = some last ∧ next = last.finalizeEmptyJob job.id now := by
  unfold capture at ran
  simp only [Option.bind_eq_bind, Option.bind_eq_some_iff, Option.pure_def, Option.some.injEq] at ran
  obtain ⟨⟨middle, job⟩, created, last, added, rfl⟩ := ran
  exact ⟨middle, job, last, created, added, rfl⟩

theorem guard_eq_some {target : TargetRequest} (ran : store.guard sha256 request target now = some next) :
    ∃ middle job, store.createJob request = some (middle, job) ∧
      middle.addTargets sha256 job.id now [target] = some next := by
  unfold CleanupStore.guard at ran
  simp only [Option.bind_eq_bind, Option.bind_eq_some_iff] at ran
  obtain ⟨⟨middle, job⟩, created, added⟩ := ran
  exact ⟨middle, job, created, by simpa [addTargets] using added⟩

theorem linked_addTargets {targets : List TargetRequest} {middle : CleanupStore} {job : CleanupJob} (linked : store.Linked)
    (created : store.createJob request = some (middle, job))
    (ran : middle.addTargets sha256 job.id now targets = some next) : next.Linked := by
  obtain ⟨added, adds, _⟩ := addTargets_eq_some ran
  obtain ⟨isLinked, isJob⟩ := linked_of_createJob linked created
  exact adds.linked isLinked isJob

theorem frozen_addTargets {targets : List TargetRequest} {middle : CleanupStore} {job : CleanupJob}
    (created : store.createJob request = some (middle, job))
    (ran : middle.addTargets sha256 job.id now targets = some next) : store.Frozen next := by
  obtain ⟨added, adds, _⟩ := addTargets_eq_some ran
  exact (frozen_of_targets (createJob_targets created)).trans adds.frozen

theorem capture_summarized {targets : List TargetRequest} (linked : store.Linked) (summarized : store.Summarized)
    (closed : store.reopens sha256 request targets = false)
    (ran : store.capture sha256 request targets now = some next) : next.Summarized := by
  obtain ⟨middle, job, last, created, isLast, rfl⟩ := capture_eq_some ran
  obtain ⟨added, adds, registered, notReopened, present, rows⟩ := registration_spec linked summarized created isLast closed
  intro row member
  obtain ⟨old, isOld, rfl⟩ := mem_finalizeEmptyJob.mp member
  show Summarizes last.targets _
  rcases rows old isOld with ⟨different, summarizes⟩ | ⟨sameId, sameStatus, total⟩
  · simpa [different] using summarizes
  · by_cases isEmpty : job.totalTargets + added.length = 0
    · rw [if_pos ⟨sameId, total.trans isEmpty⟩]
      exact adds.summarizes_empty registered isEmpty sameId rfl (total.trans isEmpty)
    · rw [if_neg fun none => isEmpty (total.symm.trans none.2)]
      exact adds.summarizes registered notReopened isEmpty sameId sameStatus total

theorem guard_summarized {target : TargetRequest} (linked : store.Linked) (summarized : store.Summarized)
    (closed : store.reopens sha256 request [target] = false)
    (ran : store.guard sha256 request target now = some next) : next.Summarized := by
  obtain ⟨middle, job, created, isNext⟩ := guard_eq_some ran
  obtain ⟨added, adds, registered, notReopened, present, rows⟩ := registration_spec linked summarized created isNext closed
  have some : job.totalTargets + added.length ≠ 0 := by
    intro none
    have isEmpty : added = [] := List.length_eq_zero_iff.mp (by omega)
    obtain ⟨other, isOther, own⟩ := Table.exists_iff.mp (present isEmpty target List.mem_cons_self)
    simp only [Bool.and_eq_true, decide_eq_true_eq] at own
    have positive : 0 < store.targets.count (·.jobId = job.id) :=
      List.countP_pos_iff.mpr ⟨other, isOther, by simpa using own.1⟩
    rw [← registered.total] at positive
    omega
  intro row member
  rcases rows row member with ⟨_, summarizes⟩ | ⟨sameId, sameStatus, total⟩
  · exact summarizes
  · exact adds.summarizes registered notReopened some sameId sameStatus total

theorem linked_capture {targets : List TargetRequest} (linked : store.Linked)
    (ran : store.capture sha256 request targets now = some next) : next.Linked := by
  obtain ⟨middle, job, last, created, isLast, rfl⟩ := capture_eq_some ran
  exact linked_update (linked_addTargets linked created isLast) _

theorem linked_guard {target : TargetRequest} (linked : store.Linked)
    (ran : store.guard sha256 request target now = some next) : next.Linked := by
  obtain ⟨middle, job, created, isNext⟩ := guard_eq_some ran
  exact linked_addTargets linked created isNext

theorem frozen_capture {targets : List TargetRequest} (ran : store.capture sha256 request targets now = some next) :
    store.Frozen next := by
  obtain ⟨middle, job, last, created, isLast, rfl⟩ := capture_eq_some ran
  exact (frozen_addTargets created isLast).trans (frozen_of_targets rfl)

theorem frozen_guard {target : TargetRequest} (ran : store.guard sha256 request target now = some next) :
    store.Frozen next := by
  obtain ⟨middle, job, created, isNext⟩ := guard_eq_some ran
  exact frozen_addTargets created isNext

end Transactions

/-! ## Changes of one target -/

section Change

variable {store next : CleanupStore} {target : CleanupTarget} {values : CleanupTarget → CleanupTarget}

/-- One target that is not done is changed, and stays with its job. -/
structure Changes (target : CleanupTarget) (values : CleanupTarget → CleanupTarget) (store next : CleanupStore) : Prop where
  member : target ∈ store.targets
  pending : target.status.terminal = false
  sameJob : ∀ row, (values row).jobId = row.jobId
  targets : next.targets.rows = store.targets.rows.map fun row => if row.id = target.id then values row else row

theorem Changes.mem (changes : Changes target values store next) {row : CleanupTarget} :
    row ∈ next.targets ↔ row ∈ store.targets ∧ row.id ≠ target.id ∨ row = values target := by
  rw [← Table.mem_rows, changes.targets, List.mem_map]
  constructor
  · rintro ⟨old, isOld, rfl⟩
    split
    · rename_i isTarget
      have same : old = target := Table.eq_of_key isOld changes.member isTarget
      exact .inr (by rw [same])
    · rename_i other
      exact .inl ⟨isOld, other⟩
  · rintro (⟨isOld, other⟩ | rfl)
    · exact ⟨row, isOld, if_neg other⟩
    · exact ⟨target, changes.member, if_pos rfl⟩

theorem Changes.frozen (changes : Changes target values store next) : store.Frozen next := by
  intro row member terminal
  refine changes.mem.mpr (.inl ⟨member, ?_⟩)
  intro isTarget
  have same : row = target := Table.eq_of_key member changes.member isTarget
  rw [same, changes.pending] at terminal
  cases terminal

/-- No job gets or loses a target. -/
theorem Changes.count (changes : Changes target values store next) (jobId : Uuid) :
    next.targets.count (·.jobId = jobId) = store.targets.count (·.jobId = jobId) := by
  rw [Table.count, Table.count, changes.targets, List.countP_map]
  apply List.countP_congr
  intro row _
  simp only [Function.comp_apply]
  split
  · rw [changes.sameJob]
  · rfl

theorem Changes.summarizes_other (changes : Changes target values store next) {job : CleanupJob}
    (different : job.id ≠ target.jobId) (summarizes : Summarizes store.targets job) : Summarizes next.targets job := by
  refine ⟨summarizes.total.trans (changes.count job.id).symm, ?_⟩
  rw [summarizes.done]
  constructor
  · intro all row member own
    rcases changes.mem.mp member with ⟨isOld, _⟩ | rfl
    · exact all row isOld own
    · exact absurd (own.symm.trans (changes.sameJob target)) different
  · intro all row member own
    refine all row (changes.mem.mpr (.inl ⟨member, ?_⟩)) own
    intro isTarget
    have same : row = target := Table.eq_of_key member changes.member isTarget
    exact different (own.symm.trans (by rw [same]))

/-! ### Reports -/

/-- The three statuses of a target that is done. -/
theorem count_terminal (store : CleanupStore) (jobId : Uuid) :
    store.countTargets jobId .completed + store.countTargets jobId .skippedReferenced + store.countTargets jobId .failed =
      store.targets.count fun target => target.jobId = jobId && target.status.terminal := by
  unfold countTargets Table.count
  induction store.targets.rows with
  | nil => rfl
  | cons target rows ih =>
    simp only [List.countP_cons, ← ih]
    by_cases own : target.jobId = jobId
    · cases isStatus : target.status <;> simp [own, CleanupTargetStatus.terminal] <;> omega
    · simp [own]

/-- The derived status is that of a job that is done when all its targets are. -/
theorem summaryStatus_terminal (store : CleanupStore) (jobId : Uuid) : (store.summaryStatus jobId).terminal = true ↔
    ∀ target ∈ store.targets, target.jobId = jobId → target.status.terminal = true := by
  have counted := @Table.count_eq_count_iff _ _ _ store.targets (fun target => decide (target.jobId = jobId))
    (fun target => decide (target.jobId = jobId) && target.status.terminal) (by simp +contextual)
  rw [← count_terminal] at counted
  have conditions : (∀ target ∈ store.targets, decide (target.jobId = jobId) = true →
      (decide (target.jobId = jobId) && target.status.terminal) = true) ↔
      ∀ target ∈ store.targets, target.jobId = jobId → target.status.terminal = true := by
    simp +contextual
  rw [← conditions, ← counted]
  simp only [summaryStatus]
  split
  · rename_i isAll
    split <;> simp [isAll, CleanupJobStatus.terminal]
  · rename_i notAll
    simp only [notAll, iff_false]
    split
    · exact Bool.false_ne_true
    · split <;> exact Bool.false_ne_true

theorem mem_refreshJob {jobId : Uuid} {now : Instant} {row : CleanupJob} (member : row ∈ (store.refreshJob jobId now).jobs) :
    row ∈ store.jobs ∧ row.id ≠ jobId ∨ row.id = jobId ∧ row.status = store.summaryStatus jobId ∧
      row.totalTargets = store.targets.count (·.jobId = jobId) := by
  simp only [refreshJob, Table.mem_update, decide_eq_true_eq] at member
  obtain ⟨old, isOld, rfl⟩ := member
  split
  · rename_i isJob
    exact .inr ⟨isJob, rfl, rfl⟩
  · rename_i other
    exact .inl ⟨isOld, other⟩

/-- A report on a target leaves every job summarized. -/
theorem Changes.summarized_refreshJob {now : Instant} (changes : Changes target values store next)
    (jobs : next.jobs = store.jobs) (summarized : store.Summarized) :
    (next.refreshJob target.jobId now).Summarized := by
  intro job member
  show Summarizes next.targets job
  rcases mem_refreshJob member with ⟨isOld, other⟩ | ⟨isJob, status, total⟩
  · exact changes.summarizes_other other (summarized job (jobs ▸ isOld))
  · rw [← isJob] at status total
    refine ⟨total, ?_⟩
    rw [status]
    exact summaryStatus_terminal next job.id

theorem Changes.linked (changes : Changes target values store next) (jobs : next.jobs = store.jobs)
    (linked : store.Linked) : next.Linked := by
  intro row member
  rw [jobs]
  rcases changes.mem.mp member with ⟨isOld, _⟩ | rfl
  · exact linked row isOld
  · rw [changes.sameJob]
    exact linked target changes.member

theorem changes_setTarget (keeps) (member : target ∈ store.targets) (pending : target.status.terminal = false)
    (sameJob : ∀ row, (values row).jobId = row.jobId) : Changes target values store (store.setTarget target values keeps) where
  member
  pending
  sameJob
  targets := by simp [setTarget, Table.update]

theorem markCompleted_cases (store : CleanupStore) (targetId : Uuid) (skippedReferenced : Bool)
    (executionToken : Option Uuid) (attemptCount : Option Nat) (now : Instant) :
    store.markCompleted targetId skippedReferenced executionToken attemptCount now = (store, false) ∨
      ∃ target ∈ store.targets, target.id = targetId ∧ target.status.terminal = false ∧
        (target.status = .running → target.executionToken = executionToken ∧ some target.attemptCount = attemptCount) ∧
        store.markCompleted targetId skippedReferenced executionToken attemptCount now =
          ((store.setTarget target (completedValues skippedReferenced now)).refreshJob target.jobId now, true) := by
  unfold markCompleted
  split
  · exact .inl rfl
  · rename_i target found
    obtain ⟨isTarget, sameId⟩ := Table.get?_eq_some.mp found
    simp only
    split
    · exact .inl rfl
    · rename_i allowed
      simp only [Bool.or_eq_true, Bool.and_eq_true, decide_eq_true_eq, not_or, not_and, Bool.not_eq_true] at allowed
      refine .inr ⟨target, isTarget, sameId, allowed.1, ?_, rfl⟩
      intro running
      have own := allowed.2 running
      exact ⟨by simpa using own.1.2, by simpa using own.2⟩

theorem markFailed_cases (store : CleanupStore) (targetId : Uuid) (failure : CleanupFailure) (executionToken : Uuid)
    (attemptCount : Nat) (now : Instant) :
    store.markFailed targetId failure executionToken attemptCount now = (store, false) ∨
      ∃ target ∈ store.targets, target.id = targetId ∧ target.status = .running ∧
        target.executionToken = some executionToken ∧ target.attemptCount = attemptCount ∧
        store.markFailed targetId failure executionToken attemptCount now =
          ((store.setTarget target (failedValues failure now)).refreshJob target.jobId now, true) := by
  unfold markFailed
  split
  · exact .inl rfl
  · rename_i target found
    obtain ⟨isTarget, sameId⟩ := Table.get?_eq_some.mp found
    split
    · rename_i own
      simp only [runsUnder, Bool.and_eq_true, decide_eq_true_eq] at own
      exact .inr ⟨target, isTarget, sameId, own.1.1, own.1.2, own.2, rfl⟩
    · exact .inl rfl

/-! ### Claims -/

theorem nextDue_spec {lockedJobs : List Uuid} {cutoff : Instant} (found : store.nextDue lockedJobs cutoff = some target) :
    target ∈ store.targets ∧ due cutoff target = true := by
  unfold nextDue at found
  simp only [Option.bind_eq_bind, Option.bind_eq_some_iff] at found
  obtain ⟨first, _, isHead⟩ := found
  obtain ⟨member, matching⟩ := Table.mem_of_mem_select (List.mem_of_mem_head? isHead)
  rw [Bool.and_eq_true] at matching
  exact ⟨member, matching.2⟩

theorem due_spec {cutoff : Instant} (isDue : due cutoff target = true) : target.status.terminal = false ∧
    ∀ expires, target.leaseExpiresAt = some expires → expires ≤ cutoff := by
  simp only [due, Bool.and_eq_true, Bool.not_eq_true', decide_eq_true_eq] at isDue
  refine ⟨isDue.1.1, ?_⟩
  intro expires isLease
  simpa [isLease] using isDue.2

theorem changes_claimTarget (token : Uuid) (leaseExpiresAt now : Instant) (member : target ∈ store.targets)
    (pending : target.status.terminal = false) :
    Changes target (claimedValues token leaseExpiresAt now) store (store.claimTarget target token leaseExpiresAt now) where
  member
  pending
  sameJob _ := rfl
  targets := by simp [claimTarget, Table.update]

/-- The job of a claimed target runs, and has a target that does. -/
theorem summarized_claimTarget {token : Uuid} {leaseExpiresAt now : Instant} (member : target ∈ store.targets)
    (pending : target.status.terminal = false) (summarized : store.Summarized) :
    (store.claimTarget target token leaseExpiresAt now).Summarized := by
  have changes := changes_claimTarget token leaseExpiresAt now member pending
  intro job isJob
  simp only [claimTarget, Table.mem_update, decide_eq_true_eq] at isJob
  obtain ⟨old, isOld, rfl⟩ := isJob
  split
  · rename_i own
    refine ⟨(summarized old isOld).total.trans (changes.count old.id).symm, ?_⟩
    constructor
    · intro impossible
      cases impossible
    · intro all
      exact absurd (all _ (changes.mem.mpr (.inr rfl)) own.symm) Bool.false_ne_true
  · rename_i other
    exact changes.summarizes_other other (summarized old isOld)

theorem linked_claimTarget {token : Uuid} {leaseExpiresAt now : Instant} (member : target ∈ store.targets)
    (pending : target.status.terminal = false) (linked : store.Linked) :
    (store.claimTarget target token leaseExpiresAt now).Linked := by
  have changes := changes_claimTarget token leaseExpiresAt now member pending
  intro row isRow
  have isLinked : (store.jobs.get? row.jobId).isSome = true := by
    rcases changes.mem.mp isRow with ⟨isOld, _⟩ | rfl
    · exact linked row isOld
    · exact linked target member
  simpa only [claimTarget, Table.get?_update, Option.isSome_map] using isLinked

/-- What every claim of a round keeps is kept by the round. -/
theorem claimDueTargets_induction {Kept : CleanupStore → Prop} {lockedJobs : List Uuid}
    {cutoff leaseExpiresAt now : Instant} (tokens : List Uuid)
    (claims : ∀ (store : CleanupStore) (target : CleanupTarget) (token : Uuid), target ∈ store.targets →
      due cutoff target = true → Kept store → Kept (store.claimTarget target token leaseExpiresAt now))
    (initial : Kept store) : Kept (store.claimDueTargets lockedJobs cutoff leaseExpiresAt now tokens).1 := by
  induction tokens generalizing store with
  | nil => exact initial
  | cons token tokens ih =>
    unfold claimDueTargets
    split
    · exact initial
    · rename_i target found
      obtain ⟨member, isDue⟩ := nextDue_spec found
      exact ih (claims store target token member isDue initial)

theorem Changes.linked_refreshJob {now : Instant} (changes : Changes target values store next) (jobs : next.jobs = store.jobs)
    (linked : store.Linked) : (next.refreshJob target.jobId now).Linked :=
  linked_update (changes.linked jobs linked) _

/-! ### Waiting targets -/

theorem mem_makeJobDue {jobId : Uuid} {now : Instant} {row : CleanupTarget} :
    row ∈ (store.makeJobDue jobId now).targets ↔ ∃ old ∈ store.targets, row =
      if old.jobId = jobId ∧ (old.status = .pending ∨ old.status = .retrying) then
        { old with nextAttemptAt := now, updatedAt := now } else old := by
  simp [makeJobDue, Table.mem_update]

theorem frozen_makeJobDue (jobId : Uuid) (now : Instant) : store.Frozen (store.makeJobDue jobId now) := by
  intro row member terminal
  refine mem_makeJobDue.mpr ⟨row, member, ?_⟩
  rw [if_neg]
  rintro ⟨_, pending | retrying⟩
  · rw [pending] at terminal
    cases terminal
  · rw [retrying] at terminal
    cases terminal

theorem summarized_makeJobDue (jobId : Uuid) (now : Instant) (summarized : store.Summarized) :
    (store.makeJobDue jobId now).Summarized := by
  intro job isJob
  have before := summarized job isJob
  refine ⟨?_, ?_⟩
  · rw [before.total]
    simp only [makeJobDue, Table.count, Table.update, List.countP_map]
    apply List.countP_congr
    intro row _
    simp only [Function.comp_apply]
    split <;> rfl
  · rw [before.done]
    constructor
    · intro all row member own
      obtain ⟨old, isOld, rfl⟩ := mem_makeJobDue.mp member
      split
      · rename_i waits
        rw [if_pos waits] at own
        exact all old isOld own
      · rename_i doesNot
        rw [if_neg doesNot] at own
        exact all old isOld own
    · intro all old isOld own
      have after := all _ (mem_makeJobDue.mpr ⟨old, isOld, rfl⟩)
      split at after
      · exact after own
      · exact after own

theorem linked_makeJobDue (jobId : Uuid) (now : Instant) (linked : store.Linked) : (store.makeJobDue jobId now).Linked := by
  intro row member
  obtain ⟨old, isOld, rfl⟩ := mem_makeJobDue.mp member
  split
  · exact linked old isOld
  · exact linked old isOld

end Change

end CleanupStore

/-! ## Steps -/

namespace CleanupSystem

open CleanupStore

variable {sha256 : Text → Text}

/-- What holds of the store before a step and after its transaction holds after the step. -/
theorem store_step_induction (Kept : CleanupStore → Prop) {system : CleanupSystem} {now : Instant} {action : CleanupAction}
    (before : Kept system.store)
    (captures : ∀ request targets next, action = .capture request targets →
      system.store.capture sha256 request targets now = some next → Kept next)
    (guards : ∀ request target next, action = .guard request target →
      system.store.guard sha256 request target now = some next → Kept next)
    (claims : ∀ store target token leaseExpiresAt, target ∈ store.targets → target.status.terminal = false → Kept store →
      Kept (store.claimTarget target token leaseExpiresAt now))
    (reports : ∀ target values next, Changes target values system.store next → next.jobs = system.store.jobs →
      Kept (next.refreshJob target.jobId now))
    (waits : ∀ jobId, Kept (system.store.makeJobDue jobId now)) :
    Kept (system.step sha256 (now, action)).store := by
  unfold step
  split
  · cases action with
    | capture request targets =>
      cases ran : system.store.capture sha256 request targets now with
      | none => simpa [perform, ran] using before
      | some next => simpa [perform, ran] using captures request targets next rfl ran
    | guard request target =>
      cases ran : system.store.guard sha256 request target now with
      | none => simpa [perform, ran] using before
      | some next => simpa [perform, ran] using guards request target next rfl ran
    | claimDueTargets lockedJobs eligibleAt lease tokens =>
      simp only [perform]
      split
      · exact claimDueTargets_induction tokens
          (fun store target token member isDue => claims store target token _ member (due_spec isDue).1) before
      · exact before
    | lockClaimedTarget targetId executionToken attemptCount => exact before
    | markCompleted targetId skippedReferenced executionToken attemptCount =>
      simp only [perform]
      rcases markCompleted_cases system.store targetId skippedReferenced executionToken attemptCount now with
        same | ⟨target, member, _, pending, _, completed⟩
      · rw [same]
        exact before
      · rw [completed]
        exact reports target _ _ (changes_setTarget _ member pending fun _ => rfl) rfl
    | markFailed targetId failure executionToken attemptCount =>
      simp only [perform]
      rcases markFailed_cases system.store targetId failure executionToken attemptCount now with
        same | ⟨target, member, _, running, _, _, failed⟩
      · rw [same]
        exact before
      · rw [failed]
        exact reports target _ _ (changes_setTarget _ member (by rw [running]; rfl) fun _ => rfl) rfl
    | makeJobDue jobId => exact waits jobId
    | wait => exact before
  · exact before

theorem frozen_step (system : CleanupSystem) (action : Instant × CleanupAction) :
    system.store.Frozen (system.step sha256 action).store := by
  refine store_step_induction (fun next => system.store.Frozen next) (Frozen.refl _) ?_ ?_ ?_ ?_ ?_
  · intro request targets next _ ran
    exact frozen_capture ran
  · intro request target next _ ran
    exact frozen_guard ran
  · intro store target token leaseExpiresAt member pending frozen
    exact frozen.trans (changes_claimTarget token leaseExpiresAt _ member pending).frozen
  · intro target values next changes _
    exact changes.frozen
  · intro jobId
    exact frozen_makeJobDue jobId _

theorem linked_step (system : CleanupSystem) (action : Instant × CleanupAction) (linked : system.store.Linked) :
    (system.step sha256 action).store.Linked := by
  refine store_step_induction Linked linked ?_ ?_ ?_ ?_ ?_
  · intro request targets next _ ran
    exact linked_capture linked ran
  · intro request target next _ ran
    exact linked_guard linked ran
  · intro store target token leaseExpiresAt member pending isLinked
    exact linked_claimTarget member pending isLinked
  · intro target values next changes jobs
    exact changes.linked_refreshJob jobs linked
  · intro jobId
    exact linked_makeJobDue jobId _ linked

/-- The step adds a target to a job that is done. -/
def reopens (sha256 : Text → Text) (system : CleanupSystem) (action : Instant × CleanupAction) : Bool :=
  match action.2 with
  | .capture request targets => system.store.reopens sha256 request targets
  | .guard request target => system.store.reopens sha256 request [target]
  | _ => false

theorem summarized_step (system : CleanupSystem) (action : Instant × CleanupAction)
    (closed : system.reopens sha256 action = false) (linked : system.store.Linked) (summarized : system.store.Summarized) :
    (system.step sha256 action).store.Summarized := by
  refine store_step_induction Summarized summarized ?_ ?_ ?_ ?_ ?_
  · rintro request targets next isAction ran
    rw [reopens, isAction] at closed
    exact capture_summarized linked summarized closed ran
  · rintro request target next isAction ran
    rw [reopens, isAction] at closed
    exact guard_summarized linked summarized closed ran
  · intro store target token leaseExpiresAt member pending isSummarized
    exact summarized_claimTarget member pending isSummarized
  · intro target values next changes jobs
    exact changes.summarized_refreshJob jobs summarized
  · intro jobId
    exact summarized_makeJobDue jobId _ summarized

structure Sound (system : CleanupSystem) : Prop where
  linked : system.store.Linked
  summarized : system.store.Summarized

theorem sound_step (system : CleanupSystem) (action : Instant × CleanupAction) (closed : system.reopens sha256 action = false)
    (sound : system.Sound) : (system.step sha256 action).Sound :=
  ⟨linked_step system action sound.linked, summarized_step system action closed sound.linked sound.summarized⟩

/-! ## Claims over time -/

/-- The target runs under the claim. -/
structure RunsUnder (target : CleanupTarget) (claim : Claim) : Prop where
  sameId : target.id = claim.targetId
  running : target.status = .running
  token : target.executionToken = some claim.executionToken
  attempt : target.attemptCount = claim.attemptCount
  lease : target.leaseExpiresAt = some claim.leaseExpiresAt

/-- A claim that has not expired is what its target runs under, and later claims have higher attempts. -/
structure Honours (targets : Table CleanupTarget) (now : Instant) (claims : List Claim) : Prop where
  honoured : ∀ claim ∈ claims, now < claim.leaseExpiresAt → ∃ target ∈ targets, RunsUnder target claim
  counted : ∀ claim ∈ claims, ∃ target ∈ targets, target.id = claim.targetId ∧ claim.attemptCount ≤ target.attemptCount
  ordered : claims.Pairwise fun claim later => claim.targetId = later.targetId → claim.attemptCount < later.attemptCount

section Honours

variable {targets next : Table CleanupTarget} {now : Instant} {claims : List Claim}

theorem Honours.later {clock : Instant} (honours : Honours targets clock claims) (forward : clock ≤ now) :
    Honours targets now claims :=
  ⟨fun claim member unexpired => honours.honoured claim member (lt_of_le_of_lt forward unexpired), honours.counted,
    honours.ordered⟩

/-- A change that leaves running targets and attempts alone. -/
theorem Honours.mono (honours : Honours targets now claims)
    (runs : ∀ target ∈ targets, target.status = .running → target ∈ next)
    (counts : ∀ target ∈ targets, ∃ row ∈ next, row.id = target.id ∧ row.attemptCount = target.attemptCount) :
    Honours next now claims where
  honoured claim member unexpired := by
    obtain ⟨target, isTarget, under⟩ := honours.honoured claim member unexpired
    exact ⟨target, runs target isTarget under.running, under⟩
  counted claim member := by
    obtain ⟨target, isTarget, sameId, atMost⟩ := honours.counted claim member
    obtain ⟨row, isRow, rowId, sameCount⟩ := counts target isTarget
    exact ⟨row, isRow, rowId.trans sameId, sameCount ▸ atMost⟩
  ordered := honours.ordered

/-- A report ends the claim that the target ran under. -/
theorem Honours.report {store after : CleanupStore} {target : CleanupTarget} {values : CleanupTarget → CleanupTarget}
    {executionToken : Option Uuid} {attemptCount : Option Nat} (honours : Honours store.targets now claims)
    (changes : Changes target values store after) (sameId : (values target).id = target.id)
    (sameCount : (values target).attemptCount = target.attemptCount)
    (own : target.status = .running → target.executionToken = executionToken ∧ some target.attemptCount = attemptCount) :
    Honours after.targets now (withoutClaim claims target.id executionToken attemptCount) where
  honoured claim member unexpired := by
    obtain ⟨isClaim, notReported⟩ := List.mem_filter.mp member
    obtain ⟨row, isRow, under⟩ := honours.honoured claim isClaim unexpired
    refine ⟨row, changes.mem.mpr (.inl ⟨isRow, ?_⟩), under⟩
    intro isTarget
    have same : row = target := Table.eq_of_key isRow changes.member isTarget
    subst same
    obtain ⟨sameToken, sameAttempt⟩ := own under.running
    simp [← sameToken, ← sameAttempt, under.sameId, under.token, under.attempt] at notReported
  counted claim member := by
    obtain ⟨row, isRow, rowId, atMost⟩ := honours.counted claim (List.mem_filter.mp member).1
    by_cases isTarget : row.id = target.id
    · have same : row = target := Table.eq_of_key isRow changes.member isTarget
      subst same
      exact ⟨values row, changes.mem.mpr (.inr rfl), sameId.trans rowId, sameCount ▸ atMost⟩
    · exact ⟨row, changes.mem.mpr (.inl ⟨isRow, isTarget⟩), rowId, atMost⟩
  ordered := honours.ordered.sublist List.filter_sublist

/-- A claim on a due target follows the expired ones. -/
theorem Honours.claim {store : CleanupStore} {target : CleanupTarget} {cutoff : Instant} (token : Uuid)
    (leaseExpiresAt : Instant) (honours : Honours store.targets now claims) (member : target ∈ store.targets) (isDue : due cutoff target = true)
    (earlier : cutoff ≤ now) :
    Honours (store.claimTarget target token leaseExpiresAt now).targets now
      (claims ++ [⟨target.id, token, target.attemptCount + 1, leaseExpiresAt⟩]) := by
  obtain ⟨pending, expired⟩ := due_spec isDue
  have changes := changes_claimTarget token leaseExpiresAt now member pending
  constructor
  · intro claim isClaim unexpired
    rcases List.mem_append.mp isClaim with isOld | isNew
    · obtain ⟨row, isRow, under⟩ := honours.honoured claim isOld unexpired
      refine ⟨row, changes.mem.mpr (.inl ⟨isRow, ?_⟩), under⟩
      intro isTarget
      have same : row = target := Table.eq_of_key isRow member isTarget
      subst same
      exact absurd (unexpired.trans_le ((expired _ under.lease).trans earlier)) (lt_irrefl now)
    · rw [List.mem_singleton.mp isNew]
      exact ⟨_, changes.mem.mpr (.inr rfl), rfl, rfl, rfl, rfl, rfl⟩
  · intro claim isClaim
    rcases List.mem_append.mp isClaim with isOld | isNew
    · obtain ⟨row, isRow, rowId, atMost⟩ := honours.counted claim isOld
      by_cases isTarget : row.id = target.id
      · have same : row = target := Table.eq_of_key isRow member isTarget
        subst same
        exact ⟨_, changes.mem.mpr (.inr rfl), rowId, Nat.le_succ_of_le atMost⟩
      · exact ⟨row, changes.mem.mpr (.inl ⟨isRow, isTarget⟩), rowId, atMost⟩
    · rw [List.mem_singleton.mp isNew]
      exact ⟨_, changes.mem.mpr (.inr rfl), rfl, Nat.le_refl _⟩
  · rw [List.pairwise_append]
    refine ⟨honours.ordered, List.pairwise_singleton _ _, ?_⟩
    intro claim isClaim new isNew sameTarget
    rw [List.mem_singleton.mp isNew] at sameTarget ⊢
    obtain ⟨row, isRow, rowId, atMost⟩ := honours.counted claim isClaim
    have same : row = target := Table.eq_of_key isRow member (rowId.trans sameTarget)
    rw [same] at atMost
    exact Nat.lt_succ_of_le atMost

theorem Honours.round {store : CleanupStore} {lockedJobs : List Uuid} {cutoff leaseExpiresAt : Instant}
    (tokens : List Uuid) (honours : Honours store.targets now claims) (earlier : cutoff ≤ now) :
    Honours (store.claimDueTargets lockedJobs cutoff leaseExpiresAt now tokens).1.targets now
      (claims ++ (store.claimDueTargets lockedJobs cutoff leaseExpiresAt now tokens).2.filterMap CleanupTarget.claim) := by
  induction tokens generalizing store claims with
  | nil => simpa [claimDueTargets] using honours
  | cons token tokens ih =>
    unfold claimDueTargets
    cases found : store.nextDue lockedJobs cutoff with
    | none => simpa using honours
    | some target =>
      obtain ⟨member, isDue⟩ := nextDue_spec found
      have round := ih (honours.claim token leaseExpiresAt member isDue earlier)
      rw [List.append_assoc] at round
      exact round

end Honours

theorem honours_addTargets {store middle after : CleanupStore} {request : JobRequest} {job : CleanupJob}
    {targets : List TargetRequest} {now clock : Instant} {claims : List Claim}
    (created : store.createJob request = some (middle, job))
    (ran : middle.addTargets sha256 job.id now targets = some after) (honours : Honours store.targets clock claims) :
    Honours after.targets clock claims := by
  obtain ⟨added, adds, _⟩ := addTargets_eq_some ran
  have kept : ∀ target ∈ store.targets, target ∈ after.targets := by
    intro target member
    rw [← createJob_targets created] at member
    exact adds.mem.mpr (.inl member)
  exact honours.mono (fun target member _ => kept target member) fun target member => ⟨target, kept target member, rfl, rfl⟩

theorem honours_makeJobDue {store : CleanupStore} {now : Instant} {claims : List Claim} (jobId : Uuid)
    (honours : Honours store.targets now claims) : Honours (store.makeJobDue jobId now).targets now claims := by
  refine honours.mono ?_ ?_
  · intro target member running
    refine mem_makeJobDue.mpr ⟨target, member, ?_⟩
    rw [if_neg (by simp [running])]
  · intro target member
    refine ⟨_, mem_makeJobDue.mpr ⟨target, member, rfl⟩, ?_⟩
    split <;> exact ⟨rfl, rfl⟩

theorem honours_perform (system : CleanupSystem) (now : Instant) (action : CleanupAction)
    (honours : Honours system.store.targets now system.claims) :
    Honours (system.perform sha256 now action).store.targets now (system.perform sha256 now action).claims := by
  cases action with
  | capture request targets =>
    cases ran : system.store.capture sha256 request targets now with
    | none => simpa [perform, ran] using honours
    | some next =>
      obtain ⟨middle, job, last, created, isLast, rfl⟩ := capture_eq_some ran
      simp only [perform, ran, Option.getD_some]
      have added : Honours last.targets now system.claims := honours_addTargets created isLast honours
      exact added
  | guard request target =>
    cases ran : system.store.guard sha256 request target now with
    | none => simpa [perform, ran] using honours
    | some next =>
      obtain ⟨middle, job, created, isNext⟩ := guard_eq_some ran
      simpa [perform, ran] using honours_addTargets created isNext honours
  | claimDueTargets lockedJobs eligibleAt lease tokens =>
    simp only [perform]
    split
    · rename_i allowed
      rw [Bool.and_eq_true] at allowed
      have earlier : eligibleAt.getD now ≤ now := by
        cases eligibleAt with
        | none => exact le_refl now
        | some cutoff => simpa using allowed.1
      exact honours.round tokens earlier
    · exact honours
  | lockClaimedTarget targetId executionToken attemptCount => exact honours
  | markCompleted targetId skippedReferenced executionToken attemptCount =>
    simp only [perform]
    rcases markCompleted_cases system.store targetId skippedReferenced executionToken attemptCount now with
      same | ⟨target, member, rfl, pending, own, completed⟩
    · rw [same]
      exact honours
    · rw [completed]
      have changes : Changes target (completedValues skippedReferenced now) system.store (system.store.setTarget target
        (completedValues skippedReferenced now)) := changes_setTarget _ member pending fun _ => rfl
      have reported := honours.report changes rfl rfl own
      exact reported
  | markFailed targetId failure executionToken attemptCount =>
    simp only [perform]
    rcases markFailed_cases system.store targetId failure executionToken attemptCount now with
      same | ⟨target, member, rfl, running, token, attempt, failed⟩
    · rw [same]
      exact honours
    · rw [failed]
      have changes : Changes target (failedValues failure now) system.store (system.store.setTarget target
        (failedValues failure now)) := changes_setTarget _ member (by rw [running]; rfl) fun _ => rfl
      have reported := honours.report changes rfl rfl fun _ => ⟨token, congrArg some attempt⟩
      exact reported
  | makeJobDue jobId => exact honours_makeJobDue jobId honours
  | wait => exact honours

theorem clock_perform (system : CleanupSystem) (now : Instant) (action : CleanupAction) :
    (system.perform sha256 now action).clock = system.clock := by
  cases action with
  | claimDueTargets lockedJobs eligibleAt lease tokens =>
    simp only [perform]
    split <;> rfl
  | markCompleted targetId skippedReferenced executionToken attemptCount =>
    simp only [perform]
    split <;> rfl
  | markFailed targetId failure executionToken attemptCount =>
    simp only [perform]
    split <;> rfl
  | _ => rfl

def ClaimsHonoured (system : CleanupSystem) : Prop :=
  Honours system.store.targets system.clock system.claims

theorem claimsHonoured_step (system : CleanupSystem) (action : Instant × CleanupAction) (honours : system.ClaimsHonoured) :
    (system.step sha256 action).ClaimsHonoured := by
  unfold step ClaimsHonoured
  split
  · rename_i forward
    rw [clock_perform]
    exact honours_perform { system with clock := action.1 } action.1 action.2 (honours.later forward)
  · exact honours

/-- Two claims on one target that have not expired would be what it runs under, but their attempts differ. -/
theorem atMostOne_of_honours {targets : Table CleanupTarget} {now : Instant} {claims : List Claim}
    (honours : Honours targets now claims) (targetId : Uuid) :
    (claims.filter fun claim => claim.targetId = targetId && now < claim.leaseExpiresAt).length ≤ 1 := by
  have ordered := honours.ordered.sublist (List.filter_sublist
    (p := fun claim => decide (claim.targetId = targetId) && decide (now < claim.leaseExpiresAt)))
  have current : ∀ claim ∈ claims.filter fun claim => claim.targetId = targetId && now < claim.leaseExpiresAt,
      ∃ target ∈ targets, target.id = targetId ∧ target.attemptCount = claim.attemptCount := by
    intro claim member
    obtain ⟨isClaim, selected⟩ := List.mem_filter.mp member
    simp only [Bool.and_eq_true, decide_eq_true_eq] at selected
    obtain ⟨target, isTarget, under⟩ := honours.honoured claim isClaim selected.2
    exact ⟨target, isTarget, under.sameId.trans selected.1, under.attempt⟩
  have sameTarget : ∀ claim ∈ claims.filter fun claim => claim.targetId = targetId && now < claim.leaseExpiresAt,
      claim.targetId = targetId := by
    intro claim member
    have selected := (List.mem_filter.mp member).2
    simp only [Bool.and_eq_true, decide_eq_true_eq] at selected
    exact selected.1
  generalize claims.filter (fun claim => decide (claim.targetId = targetId) && decide (now < claim.leaseExpiresAt)) =
    unexpired at ordered current sameTarget
  match unexpired with
  | [] => exact Nat.zero_le 1
  | [_] => exact Nat.le_refl 1
  | first :: second :: _ =>
    obtain ⟨target, isTarget, targetHas, attempt⟩ := current first List.mem_cons_self
    obtain ⟨other, isOther, otherHas, otherAttempt⟩ := current second (by simp)
    have same : target = other := Table.eq_of_key isTarget isOther (targetHas.trans otherHas.symm)
    have less := (List.pairwise_cons.mp ordered).1 second List.mem_cons_self
      ((sameTarget first List.mem_cons_self).trans (sameTarget second (by simp)).symm)
    rw [same] at attempt
    omega

/-- A call with another token or attempt than those of the running target. -/
def isStale (store : CleanupStore) : CleanupAction → Prop
  | .markCompleted targetId _ executionToken attemptCount => ∃ target ∈ store.targets, target.id = targetId ∧
      target.status = .running ∧ (target.executionToken ≠ executionToken ∨ some target.attemptCount ≠ attemptCount)
  | .markFailed targetId _ executionToken attemptCount => ∃ target ∈ store.targets, target.id = targetId ∧
      target.status = .running ∧ (target.executionToken ≠ some executionToken ∨ target.attemptCount ≠ attemptCount)
  | _ => False

theorem store_of_isStale (system : CleanupSystem) (action : Instant × CleanupAction)
    (stale : isStale system.store action.2) : (system.step sha256 action).store = system.store ∧
      (system.step sha256 action).claims = system.claims := by
  obtain ⟨now, action⟩ := action
  unfold step
  split
  · cases action with
    | markCompleted targetId skippedReferenced executionToken attemptCount =>
      obtain ⟨target, isTarget, sameId, running, other⟩ := stale
      simp only [perform]
      rcases markCompleted_cases system.store targetId skippedReferenced executionToken attemptCount now with
        same | ⟨found, isFound, foundId, _, own, _⟩
      · rw [same]
        exact ⟨rfl, rfl⟩
      · have same : found = target := Table.eq_of_key isFound isTarget (foundId.trans sameId.symm)
        obtain ⟨token, attempt⟩ := own (same ▸ running)
        rw [same] at token attempt
        rcases other with otherToken | otherAttempt
        · exact absurd token otherToken
        · exact absurd attempt otherAttempt
    | markFailed targetId failure executionToken attemptCount =>
      obtain ⟨target, isTarget, sameId, running, other⟩ := stale
      simp only [perform]
      rcases markFailed_cases system.store targetId failure executionToken attemptCount now with
        same | ⟨found, isFound, foundId, _, token, attempt, _⟩
      · rw [same]
        exact ⟨rfl, rfl⟩
      · have same : found = target := Table.eq_of_key isFound isTarget (foundId.trans sameId.symm)
        rw [same] at token attempt
        rcases other with otherToken | otherAttempt
        · exact absurd token otherToken
        · exact absurd attempt otherAttempt
    | _ => exact stale.elim
  · exact ⟨rfl, rfl⟩

end CleanupSystem

open CleanupSystem in
/-- In every run a target that is done stays as it is, a stale call changes nothing and one worker at a time has a claim
on a target; if no step adds a target to a job that is done, every job counts its targets and is done when they are. -/
theorem cleanup_machine_of_every_run (sha256 : Text → Text) (actions : List (Instant × CleanupAction)) :
    Along (step sha256) (fun system action => system.store.Frozen (step sha256 system action).store) initial actions ∧
      Along (step sha256) (fun system action => isStale system.store action.2 →
        (step sha256 system action).store = system.store ∧ (step sha256 system action).claims = system.claims)
        initial actions ∧
      (∀ targetId, ((run (step sha256) initial actions).claims.filter fun claim => claim.targetId = targetId &&
        (run (step sha256) initial actions).clock < claim.leaseExpiresAt).length ≤ 1) ∧
      (Along (step sha256) (fun system action => reopens sha256 system action = false) initial actions →
        (run (step sha256) initial actions).store.Summarized) := by
  refine ⟨?_, ?_, ?_, ?_⟩
  · exact along_of_forall frozen_step initial actions
  · exact along_of_forall store_of_isStale initial actions
  · have honours : (run (step sha256) initial actions).ClaimsHonoured :=
      run_invariant ClaimsHonoured claimsHonoured_step ⟨by simp [initial], by simp [initial], List.Pairwise.nil⟩ actions
    exact atMostOne_of_honours honours
  · intro closed
    have sound : (run (step sha256) initial actions).Sound := run_invariant_along sound_step
      ⟨fun target member => absurd member (Table.not_mem_empty target),
        fun job member => absurd member (Table.not_mem_empty job)⟩ closed
    exact sound.summarized

/-- Two attempts fail under different keys. A target of the first job is done, the other one waits for its next attempt when
a call of an earlier claim comes late. -/
def separateIndexFailures : List (Instant × CleanupAction) :=
  let request (id : Uuid) (key : Text) : JobRequest := ⟨id, .orphanGuard, key, some 3, none, none⟩
  [(0, .capture (request 1 "index-failure:7") [⟨11, .object "build-index-chunks/1", none⟩,
      ⟨12, .vectorGeneration "chunks_3" 3 7, none⟩]),
    (1, .claimDueTargets [] none 60 [100, 101]),
    (2, .markCompleted 11 false (some 100) (some 1)),
    (3, .markFailed 12 ⟨"UNAVAILABLE", "The index is unavailable", 5, 10⟩ 101 1),
    (4, .capture (request 2 "index-failure:8") [⟨13, .object "build-index-chunks/2", none⟩]),
    (70, .claimDueTargets [] none 60 [102, 103]),
    (71, .markCompleted 12 false (some 101) (some 1))]

theorem cleanup_machine_of_separate_failures :
    (run (CleanupSystem.step id) CleanupSystem.initial separateIndexFailures).store.Summarized := by
  refine (cleanup_machine_of_every_run id separateIndexFailures).2.2.2 ?_
  unfold Along
  decide +kernel

/-- The first attempt to index failed after the chunks were stored, and they were removed; the second one fails after
vectors were written. -/
def reopenedIndexFailure : List (Instant × CleanupAction) :=
  let request (id : Uuid) : JobRequest := ⟨id, .orphanGuard, "index-failure:7", some 3, none, none⟩
  [(0, .capture (request 1) [⟨11, .object "build-index-chunks/1", none⟩]),
    (1, .claimDueTargets [] (some 1) 60 [100]),
    (2, .markCompleted 11 false (some 100) (some 1)),
    (3, .capture (request 2) [⟨12, .object "build-index-chunks/1", none⟩, ⟨13, .vectorGeneration "chunks_3" 3 7, none⟩])]

/-- The job found again by its key is done although a target of it is not. -/
theorem not_summarized_of_every_run :
    ¬ ∀ actions, (run (CleanupSystem.step id) CleanupSystem.initial actions).store.Summarized := by
  intro summarized
  have all := summarized reopenedIndexFailure
  obtain ⟨job, found⟩ : ∃ job, (run (CleanupSystem.step id) CleanupSystem.initial reopenedIndexFailure).store.jobs.get? 1 =
      some job := Option.isSome_iff_exists.mp (by decide)
  obtain ⟨target, isFound⟩ : ∃ target,
      (run (CleanupSystem.step id) CleanupSystem.initial reopenedIndexFailure).store.targets.get? 13 = some target :=
    Option.isSome_iff_exists.mp (by decide)
  have status : ((run (CleanupSystem.step id) CleanupSystem.initial reopenedIndexFailure).store.jobs.get? 1).map
      (fun job => (job.id, job.status)) = some (1, .completed) := by decide
  have pending : ((run (CleanupSystem.step id) CleanupSystem.initial reopenedIndexFailure).store.targets.get? 13).map
      (fun target => (target.jobId, target.status)) = some (1, .pending) := by decide
  rw [found, Option.map_some, Option.some.injEq, Prod.mk.injEq] at status
  rw [isFound, Option.map_some, Option.some.injEq, Prod.mk.injEq] at pending
  have terminal := (all job (Table.mem_of_get? found)).done.mp (by rw [status.2]; rfl) target (Table.mem_of_get? isFound)
    (pending.1.trans status.1.symm)
  rw [pending.2] at terminal
  cases terminal

end Mcplica.Cleanup
