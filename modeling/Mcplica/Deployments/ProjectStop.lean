import Mcplica.Deployments.CommandChanges

/-! # Stopping a project

`schedule_stop_project` walks through the stoppable deployments of a project, the newest first, and through
at most 500 of them. -/

namespace Mcplica.Deployments.ControlPlane

open Mcplica.Domain Mcplica.Library

/-- The deployments that the stop of a project has to reach. -/
def stoppableOf (projectId : Uuid) (deployment : Deployment) : Bool :=
  deployment.projectId = projectId && DeploymentStore.stoppable deployment.status

/-- Every stoppable deployment of the project has a stop command of the transition, and none is on its way or
running any more. -/
structure StopReaches (plane next : ControlPlane) (origin : Origin) (projectId : Uuid) : Prop where
  commanded : ∀ deployment ∈ plane.store.deployments, stoppableOf projectId deployment = true →
    ∃ command ∈ next.commands.commands, command.action = .stop ∧ command.deploymentId = deployment.id ∧
      command.transitionId = origin.transitionId
  down : ∀ deployment ∈ next.store.deployments, deployment.projectId = projectId →
    deployment.status ≠ .running ∧ deployment.status.inProgress = false

section

variable {plane next : ControlPlane} {origin : Origin} {projectId : Uuid}

theorem mem_listStoppable_of_count_le
    (fits : plane.store.deployments.count (stoppableOf projectId) ≤ 500) {deployment : Deployment} :
    deployment ∈ plane.store.listStoppableForProject projectId ↔
      deployment ∈ plane.store.deployments ∧ stoppableOf projectId deployment = true :=
  Table.mem_select_of_count_le fits

/-- A row that is on its way or running after the stops was not stopped. -/
theorem Stops.up {targets : List Uuid} (stops : Stops plane next origin.transitionId targets) {deployment : Deployment}
    (member : deployment ∈ next.store.deployments)
    (up : deployment.status = .running ∨ deployment.status.inProgress = true) :
    deployment ∈ plane.store.deployments ∧ deployment.id ∉ targets := by
  obtain ⟨old, oldMember, rfl⟩ := stops.rewrite.mem_deployments.mp member
  unfold stoppingRow at up ⊢
  split
  · rename_i stopped
    rw [if_pos stopped] at up
    simp [DeploymentStatus.inProgress] at up
  · rename_i kept
    rw [if_neg kept] at up
    refine ⟨oldMember, fun target => kept ⟨target, ?_, ?_⟩⟩
    · intro stopped
      simp [stopped, DeploymentStatus.inProgress] at up
    · intro failed
      simp [failed, DeploymentStatus.inProgress] at up

theorem stopReaches_of_count_le (sound : Sound plane) (scheduled : plane.scheduleStopProject origin projectId = .ok next)
    (fits : plane.store.deployments.count (stoppableOf projectId) ≤ 500) : StopReaches plane next origin projectId := by
  have stops := scheduleStopProject_stops sound scheduled
  have isTarget {deployment : Deployment} (member : deployment ∈ plane.store.deployments)
      (stoppable : stoppableOf projectId deployment = true) : deployment.id ∈ plane.stopTargets projectId :=
    List.mem_map_of_mem ((mem_listStoppable_of_count_le fits).mpr ⟨member, stoppable⟩)
  refine ⟨fun deployment member stoppable => stops.asked _ (isTarget member stoppable), ?_⟩
  intro deployment member owner
  by_contra notDown
  have up : deployment.status = .running ∨ deployment.status.inProgress = true := by
    cases status : deployment.status <;> simp [status, DeploymentStatus.inProgress] at notDown ⊢
  obtain ⟨oldMember, spared⟩ := stops.up member up
  refine spared (isTarget oldMember ?_)
  simp only [stoppableOf, owner, decide_true, Bool.true_and]
  cases status : deployment.status <;> simp [status, DeploymentStatus.inProgress] at up <;> rfl

/-- A deployment that is left out has no stop command of a transition that is new. -/
theorem not_commanded (sound : Sound plane) (fresh : plane.freshTransition origin = true)
    (scheduled : plane.scheduleStopProject origin projectId = .ok next) {deployment : Deployment}
    (spared : deployment ∈ plane.store.deployments)
    (unlisted : deployment ∉ plane.store.listStoppableForProject projectId) :
    ¬ ∃ command ∈ next.commands.commands, command.action = .stop ∧ command.deploymentId = deployment.id ∧
      command.transitionId = origin.transitionId := by
  rintro ⟨command, member, -, target, sameTransition⟩
  have stops := scheduleStopProject_stops sound scheduled
  rcases stops.added command member with old | ⟨-, isTarget, -⟩
  · simp only [freshTransition, Bool.not_eq_true', Table.exists_eq_false, decide_eq_false_iff_not] at fresh
    exact fresh command old sameTransition
  · rw [target] at isTarget
    obtain ⟨other, listed, same⟩ := List.mem_map.mp isTarget
    have otherMember := Table.mem_of_get? (listStoppable_found listed).1
    exact unlisted (Table.eq_of_key otherMember spared same ▸ listed)

/-- Stopping a project reaches every deployment exactly when there are at most 500 to stop. -/
theorem project_stop_reaches_everything_iff (sound : Sound plane)
    (scheduled : plane.scheduleStopProject origin projectId = .ok next) :
    (plane.store.deployments.count (stoppableOf projectId) ≤ 500 → StopReaches plane next origin projectId) ∧
    (plane.freshTransition origin = true → StopReaches plane next origin projectId →
      plane.store.deployments.count (stoppableOf projectId) ≤ 500) := by
  refine ⟨stopReaches_of_count_le sound scheduled, fun fresh reaches => ?_⟩
  by_contra many
  obtain ⟨deployment, member, stoppable, unlisted⟩ :=
    Table.exists_not_mem_select (fun left right : Deployment => right.createdAt ≤ left.createdAt) (Nat.lt_of_not_le many)
  exact not_commanded sound fresh scheduled member unlisted (reaches.commanded deployment member stoppable)

/-! ## A crowded project -/

/-- The ids, sequence numbers and keys of the stop commands are free, and the sequence follows the list. -/
structure Unissued (commands : Table RuntimeCommand) (origin : Origin) (deployments : List Deployment) : Prop where
  free : ∀ command ∈ commands, ∀ deployment ∈ deployments,
    command.idempotencyKey ≠ .stop deployment.id origin.transitionId ∧
      command.id ≠ origin.commandId .stop deployment.id ∧ command.sequence < origin.sequence .stop deployment.id
  apart : deployments.Pairwise fun first second => first.id ≠ second.id ∧
    origin.commandId .stop first.id ≠ origin.commandId .stop second.id ∧
    origin.sequence .stop first.id < origin.sequence .stop second.id

/-- A stop whose command is not there yet is scheduled. -/
theorem exists_scheduleStopInSession {deployment : Deployment} {rest : List Deployment}
    (found : plane.store.deployments.get? deployment.id = some deployment)
    (unissued : Unissued plane.commands.commands origin (deployment :: rest)) :
    ∃ next, plane.scheduleStopInSession origin deployment = .ok next ∧ Unissued next.commands.commands origin rest := by
  have isFree := fun command member => unissued.free command member deployment List.mem_cons_self
  obtain ⟨store, scheduled⟩ : ∃ store, plane.store.scheduleStop deployment = .ok store := by
    unfold DeploymentStore.scheduleStop
    split
    · exact ⟨_, rfl⟩
    · split
      · exact ⟨_, rfl⟩
      · rw [found]
        exact ⟨_, rfl⟩
  have absent : plane.commands.commands.rows.find? (fun command =>
      command.idempotencyKey = (origin.command .stop deployment).idempotencyKey) = none := by
    rw [List.find?_eq_none]
    intro command member same
    exact (isFree command member).1 (of_decide_eq_true same)
  have allowed : plane.commands.identityAllows (origin.command .stop deployment).transitionId
      (origin.sequence .stop deployment.id) = true := by
    simp only [CommandStore.identityAllows, Bool.not_eq_true', Table.exists_eq_false]
    intro command member
    have lower := (isFree command member).2.2
    simp only [Bool.or_eq_false_iff, Bool.and_eq_false_iff, decide_eq_false_iff_not]
    omega
  have inserted : ∃ commands, plane.commands.commands.insert
      ((origin.command .stop deployment).row (origin.sequence .stop deployment.id) origin.now) = some commands := by
    unfold Table.insert
    rw [dif_neg]
    · exact ⟨_, rfl⟩
    · intro taken
      obtain ⟨command, member, same⟩ := List.mem_map.mp taken
      exact (isFree command member).2.1 same
  obtain ⟨commands, inserted⟩ := inserted
  have created : plane.commands.create (origin.command .stop deployment) (origin.sequence .stop deployment.id)
      origin.now = .ok ({ plane.commands with commands },
        (origin.command .stop deployment).row (origin.sequence .stop deployment.id) origin.now) := by
    unfold CommandStore.create
    rw [absent]
    simp only [allowed, if_true, inserted]
  refine ⟨(plane.withStore store).withCommands { plane.commands with commands }, ?_, ?_, ?_⟩
  · simp only [scheduleStopInSession, scheduled, createCommand, bind, Except.bind]
    rw [show (plane.withStore store).commands = plane.commands from rfl, created]
    rfl
  · intro command member other listed
    rcases (Table.mem_insert inserted).mp member with old | rfl
    · exact unissued.free command old other (List.mem_cons_of_mem _ listed)
    · obtain ⟨differs, otherId, later⟩ := List.rel_of_pairwise_cons unissued.apart listed
      refine ⟨fun same => differs ?_, otherId, later⟩
      injection same
  · exact (List.pairwise_cons.mp unissued.apart).2

/-- The stops of all listed deployments are scheduled. -/
theorem exists_scheduleStops {deployments : List Deployment} (sound : Sound plane)
    (found : ∀ deployment ∈ deployments, plane.store.deployments.get? deployment.id = some deployment)
    (unissued : Unissued plane.commands.commands origin deployments) :
    ∃ next, plane.scheduleStops origin deployments = .ok next := by
  induction deployments generalizing plane with
  | nil => exact ⟨plane, rfl⟩
  | cons deployment rest ih =>
    obtain ⟨middle, scheduled, stillUnissued⟩ := exists_scheduleStopInSession (found deployment List.mem_cons_self) unissued
    have stops := scheduleStopInSession_stops sound (found deployment List.mem_cons_self) scheduled
    have restFound : ∀ other ∈ rest, middle.store.deployments.get? other.id = some other := by
      intro other member
      rw [stops.rewrite.get?_deployment, found other (List.mem_cons_of_mem _ member), Option.map_some]
      have different := (List.rel_of_pairwise_cons unissued.apart member).1
      simp [stoppingRow, different.symm]
    obtain ⟨next, others⟩ := ih stops.advance.sound restFound stillUnissued
    exact ⟨next, by simp only [scheduleStops, scheduled, bind, Except.bind, others]⟩

end

/-- Deployment 0 is running, the later ones failed their activation. -/
def crowdedRow (number : Nat) : Deployment where
  id := number
  projectId := 0
  buildId := number
  status := if number = 0 then .running else .unhealthy
  hostname := "pets.example.com"
  runtimeVersion := "1.0.0"
  manifestSha256 := "6f"
  routePriority := 100 + number
  stopOldFirst := false
  createdAt := number
  startedAt := if number = 0 then some 0 else none

def crowdedPlane (count : Nat) : ControlPlane where
  store := {
    projects := ⟨[{ id := 0, hostname := "pets.example.com", activeBuildId := some 0, activeDeploymentId := some 0 }],
      List.nodup_singleton _⟩
    deployments := ⟨(List.range count).map crowdedRow, by
      rw [List.map_map]
      exact List.nodup_range.map fun _ _ same => same⟩ }
  commands := CommandStore.empty
  accessTokens := Table.empty
  containers := []
  overlays := []

/-- Newer deployments are stopped first. -/
def stopOrigin : Origin where
  transitionId := 7
  requestedBy := 8
  requestId := none
  reason := "deployment.project_stop_requested"
  subjectType := none
  subjectId := none
  commandId _ deploymentId := deploymentId
  sequence _ deploymentId := 1000 - deploymentId
  now := 1000

theorem mem_crowded {count : Nat} {deployment : Deployment} :
    deployment ∈ (crowdedPlane count).store.deployments ↔ ∃ number < count, crowdedRow number = deployment := by
  show deployment ∈ (List.range count).map crowdedRow ↔ _
  simp

theorem sound_crowded {count : Nat} (some : 0 < count) : Sound (crowdedPlane count) where
  consistent := {
    runningActive := by
      intro deployment member status
      obtain ⟨number, -, rfl⟩ := mem_crowded.mp member
      refine ⟨_, List.mem_singleton.mpr rfl, rfl, ?_⟩
      by_cases first : number = 0
      · rw [first]
        rfl
      · simp [crowdedRow, first] at status
    singleInProgress := by
      intro deployment member other otherMember _ inProgress
      obtain ⟨number, -, rfl⟩ := mem_crowded.mp member
      by_cases first : number = 0 <;> simp [crowdedRow, first, DeploymentStatus.inProgress] at inProgress
    pointers := by
      intro project member deploymentId active
      rw [List.mem_singleton.mp member] at active ⊢
      cases active
      exact ⟨crowdedRow 0, mem_crowded.mpr ⟨0, some, rfl⟩, rfl, rfl, rfl⟩
    projectExists := by
      intro deployment member
      obtain ⟨number, -, rfl⟩ := mem_crowded.mp member
      exact ⟨_, List.mem_singleton.mpr rfl, rfl⟩
    predecessor := by
      intro deployment member previousId recorded
      obtain ⟨number, -, rfl⟩ := mem_crowded.mp member
      cases recorded }
  ordered := CommandProtocol.ordered_empty
  engagedOpen _ member := by cases member
  keys _ member := by cases member
  keysUnique _ member := by cases member
  commandDeployment _ member := by cases member
  activeNotStopped := by
    intro project _ deployment member _
    obtain ⟨number, -, rfl⟩ := mem_crowded.mp member
    by_cases first : number = 0 <;> simp [crowdedRow, first]
  previousSettled := by
    intro deployment member previous _ recorded
    obtain ⟨number, -, rfl⟩ := mem_crowded.mp member
    cases recorded
  waitingStopped := by
    intro deployment member previous _ recorded
    obtain ⟨number, -, rfl⟩ := mem_crowded.mp member
    cases recorded
  unstarted := by
    intro deployment member status
    obtain ⟨number, -, rfl⟩ := mem_crowded.mp member
    by_cases first : number = 0
    · simp [crowdedRow, first, DeploymentStatus.inProgress] at status
    · simp [crowdedRow, first]

theorem count_crowded (count : Nat) : (crowdedPlane count).store.deployments.count (stoppableOf 0) = count := by
  show ((List.range count).map crowdedRow).countP (stoppableOf 0) = count
  rw [List.countP_map, List.countP_eq_length.mpr, List.length_range]
  intro number _
  by_cases first : number = 0 <;> simp [crowdedRow, stoppableOf, DeploymentStore.stoppable, first]

instance : Std.Total fun left right : Deployment => decide (right.createdAt ≤ left.createdAt) = true :=
  ⟨fun left right => by simpa using Int.le_total right.createdAt left.createdAt⟩

instance : IsTrans Deployment fun left right => decide (right.createdAt ≤ left.createdAt) = true :=
  ⟨fun first second third => by simpa using fun lower higher => Int.le_trans higher lower⟩

/-- The stop of a crowded project is scheduled. -/
theorem exists_stop_crowded {count : Nat} (some : 0 < count) (few : count < 1000) :
    ∃ next, (crowdedPlane count).scheduleStopProject stopOrigin 0 = .ok next := by
  have newestFirst : ((crowdedPlane count).store.listStoppableForProject 0).Pairwise fun first second =>
      second.createdAt ≤ first.createdAt := by
    have sorted := List.Pairwise.sublist (List.take_sublist 500 _) (List.pairwise_insertionSort
      (fun left right : Deployment => decide (right.createdAt ≤ left.createdAt) = true)
      ((crowdedPlane count).store.deployments.rows.filter (stoppableOf 0)))
    exact sorted.imp of_decide_eq_true
  have apart := List.pairwise_map.mp (listStoppable_nodup (crowdedPlane count).store 0)
  have unissued : Unissued (crowdedPlane count).commands.commands stopOrigin
      ((crowdedPlane count).store.listStoppableForProject 0) := by
    refine ⟨(fun _ member => by cases member), (newestFirst.and apart).imp_of_mem ?_⟩
    intro first second firstListed secondListed related
    obtain ⟨number, below, rfl⟩ := mem_crowded.mp (Table.mem_of_get? (listStoppable_found firstListed).1)
    obtain ⟨other, -, rfl⟩ := mem_crowded.mp (Table.mem_of_get? (listStoppable_found secondListed).1)
    have older : (other : Int) ≤ number := related.1
    have different : number ≠ other := related.2
    refine ⟨different, different, ?_⟩
    show 1000 - number < 1000 - other
    omega
  obtain ⟨next, scheduled⟩ :=
    exists_scheduleStops (sound_crowded some) (fun _ listed => (listStoppable_found listed).1) unissued
  exact ⟨next, scheduled⟩

/-- With 500 unhealthy deployments that are newer, the running one is not stopped. -/
theorem running_deployment_spared : ∃ next, Sound (crowdedPlane 501) ∧
    (crowdedPlane 501).freshTransition stopOrigin = true ∧
    (crowdedPlane 501).scheduleStopProject stopOrigin 0 = .ok next ∧
    crowdedRow 0 ∈ next.store.deployments ∧ ¬ StopReaches (crowdedPlane 501) next stopOrigin 0 := by
  have sound := @sound_crowded 501 (by decide)
  obtain ⟨next, scheduled⟩ := @exists_stop_crowded 501 (by decide) (by decide)
  have member : crowdedRow 0 ∈ (crowdedPlane 501).store.deployments := mem_crowded.mpr ⟨0, by decide, rfl⟩
  have unlisted : crowdedRow 0 ∉ (crowdedPlane 501).store.listStoppableForProject 0 := by
    have many : 500 < (crowdedPlane 501).store.deployments.count (stoppableOf 0) := by
      rw [count_crowded]
      decide
    refine Table.last_not_mem_select many ?_
    intro other otherMember _ older
    obtain ⟨number, -, rfl⟩ := mem_crowded.mp otherMember
    have oldest : (number : Int) ≤ 0 := of_decide_eq_true older
    rw [show number = 0 by omega]
  have spared : crowdedRow 0 ∈ next.store.deployments := by
    refine (scheduleStopProject_stops sound scheduled).rewrite.mem_deployments.mpr ⟨_, member, ?_⟩
    rw [stoppingRow, if_neg]
    rintro ⟨target, -⟩
    obtain ⟨other, listed, same⟩ := List.mem_map.mp target
    exact unlisted (Table.eq_of_key (Table.mem_of_get? (listStoppable_found listed).1) member same ▸ listed)
  refine ⟨next, sound, rfl, scheduled, spared, fun reaches => ?_⟩
  exact absurd rfl (reaches.down _ spared rfl).1

/-- Two deployments are both stopped. -/
theorem small_project_stopped : ∃ next, (crowdedPlane 2).scheduleStopProject stopOrigin 0 = .ok next ∧
    StopReaches (crowdedPlane 2) next stopOrigin 0 := by
  obtain ⟨next, scheduled⟩ := @exists_stop_crowded 2 (by decide) (by decide)
  exact ⟨next, scheduled, (project_stop_reaches_everything_iff (sound_crowded (by decide)) scheduled).1 (by decide)⟩

end Mcplica.Deployments.ControlPlane
