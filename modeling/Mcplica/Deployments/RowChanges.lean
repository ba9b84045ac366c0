import Mcplica.Deployments.Fallback

/-! # The writes of the runner as row changes

Each repository call of the runner, made under the checkpoint of its deploy command, is a `RowChange`;
only two of them make a deployment `RUNNING`. -/

namespace Mcplica.Deployments.ControlPlane

open Mcplica.Domain Mcplica.Library Relation

variable {plane : ControlPlane} {store : DeploymentStore}

@[simp] theorem withStore_store : (plane.withStore store).store = store := rfl
@[simp] theorem withStore_commands : (plane.withStore store).commands = plane.commands := rfl
@[simp] theorem withStore_containers : (plane.withStore store).containers = plane.containers := rfl
@[simp] theorem withStore_overlays : (plane.withStore store).overlays = plane.overlays := rfl

/-! ## Single rows -/

/-- A move of one row that starts nothing, stops nothing for good and wakes no blocked deployment. -/
structure QuietMove (plane : ControlPlane) (old new : Deployment) : Prop where
  progress : new.status.inProgress = true → old.status.inProgress = true
  stopped : new.status = .stopped → old.status = .stopped
  stopping : old.status = .stopping → new.status = .stopping
  started : new.startedAt.isSome = true → old.startedAt.isSome = true
  unstarted : new.status.inProgress = true ∨ new.status = .failed → new.startedAt = none
  pending : plane.Blocked old.id → new.status = .pending ∨ new.status.inProgress = false

theorem QuietMove.rowMove {next : ControlPlane} {row : Deployment → Deployment} {old : Deployment}
    (quiet : QuietMove plane old (row old)) : RowMove plane next row old where
  progress := quiet.progress
  started started := .inl (quiet.started started)
  unstarted := quiet.unstarted
  pending := quiet.pending
  stopped stopped := .inl (quiet.stopped stopped)

theorem Sound.quiet_refl (sound : Sound plane) {deployment : Deployment}
    (member : deployment ∈ plane.store.deployments) : QuietMove plane deployment deployment where
  progress := id
  stopped := id
  stopping := id
  started := id
  unstarted := sound.unstarted deployment member
  pending := by
    rintro ⟨-, other, otherMember, same, pending, -⟩
    rw [← Table.eq_of_key otherMember member same]
    exact .inl pending

theorem Sound.rowMove_of_eq (sound : Sound plane) {next : ControlPlane} {row : Deployment → Deployment}
    {old : Deployment} (member : old ∈ plane.store.deployments) (kept : row old = old) :
    RowMove plane next row old :=
  QuietMove.rowMove (by rw [kept]; exact sound.quiet_refl member)

theorem quiet_change (sound : Sound plane) {row : Deployment → Deployment} {pointer : Project → Project}
    (rewrite : Rewrite plane.store store row pointer) (consistent : Consistent store)
    (pointers : ∀ project, (pointer project).activeDeploymentId = project.activeDeploymentId)
    (moves : ∀ deployment ∈ plane.store.deployments, QuietMove plane deployment (row deployment)) :
    RowChange plane (plane.withStore store) row pointer where
  rewrite := rewrite
  commands := rfl
  consistent := consistent
  moves deployment member := (moves deployment member).rowMove
  containers _ present := .inl present
  activeNotStopped project projectMember deployment member active stopped := by
    rw [pointers] at active
    exact sound.activeNotStopped project projectMember deployment member active
      ((moves deployment member).stopped stopped)
  active project projectMember deployment member active := by
    rw [pointers] at active
    exact .inl ⟨active, (moves deployment member).stopping⟩

theorem quiet_row (sound : Sound plane) {deploymentId : Uuid} {deployment : Deployment}
    {values : Deployment → Deployment} (found : plane.store.deployments.get? deploymentId = some deployment)
    (rewrite : Rewrite plane.store store (onRow deploymentId (fun _ => true) values) id)
    (consistent : Consistent store) (move : QuietMove plane deployment (values deployment)) :
    RowChange plane (plane.withStore store) (onRow deploymentId (fun _ => true) values) id := by
  apply quiet_change sound rewrite consistent fun _ => rfl
  intro row member
  rcases onRow_cases found member (fun _ => true) values with ⟨rfl, -, written⟩ | ⟨-, written⟩
  · rw [written]
    exact move
  · rw [written]
    exact sound.quiet_refl member

/-- A status change inside the in-progress statuses, or out of them to an end or to `STOPPING`. -/
theorem quiet_of_inProgress (sound : Sound plane) {deployment new : Deployment}
    (member : deployment ∈ plane.store.deployments) (inProgress : deployment.status.inProgress = true)
    (started : new.startedAt = deployment.startedAt ∨ new.startedAt = none)
    (status : new.status ≠ .stopped) (notBlocked : ¬ plane.Blocked deployment.id) :
    QuietMove plane deployment new where
  progress _ := inProgress
  stopped stopped := absurd stopped status
  stopping stopping := by
    rw [stopping] at inProgress
    cases inProgress
  started isStarted := by
    rcases started with same | none
    · rwa [same] at isStarted
    · rw [none] at isStarted
      cases isStarted
  unstarted _ := by
    rcases started with same | none
    · rw [same]
      exact sound.unstarted deployment member (.inl inProgress)
    · exact none
  pending blocked := absurd blocked notBlocked

theorem quiet_of_unmoved (sound : Sound plane) {row : Deployment → Deployment}
    (unmoved : DeploymentStore.Unmoved row) {deployment : Deployment}
    (member : deployment ∈ plane.store.deployments) : QuietMove plane deployment (row deployment) := by
  have refl := sound.quiet_refl member
  obtain ⟨status, started⟩ := unmoved deployment
  exact {
    progress := by rw [status]; exact refl.progress
    stopped := by rw [status]; exact refl.stopped
    stopping := by rw [status]; exact refl.stopping
    started := by rw [started]; exact refl.started
    unstarted := by rw [status, started]; exact refl.unstarted
    pending := by rw [status]; exact refl.pending }

theorem onProject_enabled {projectId : Uuid} {values : Project → Project}
    (kept : ∀ project, (values project).isEnabled = project.isEnabled) (project : Project) :
    (onProject projectId values project).isEnabled = project.isEnabled := by
  unfold onProject
  split
  · exact kept project
  · rfl

/-! ## Which writes run something -/

/-- Whatever is running afterwards was running, was a candidate of an enabled project, or was fallen
back to by an active deployment that is not blocked. -/
def Runs (plane next : ControlPlane) : Prop :=
  ∀ deployment ∈ next.store.deployments, deployment.status = .running →
    ∃ old ∈ plane.store.deployments, old.id = deployment.id ∧
      (old.status = .running ∨
      old.status.inProgress = true ∧
        (∃ project ∈ plane.store.projects, project.id = old.projectId ∧ project.isEnabled = true) ∨
      ∃ origin, plane.Active origin ∧ ¬ plane.Blocked origin ∧ plane.Fallback origin old.id)

/-- Whatever is running afterwards was running or was a candidate of an enabled project. -/
def Completes (plane next : ControlPlane) : Prop :=
  ∀ deployment ∈ next.store.deployments, deployment.status = .running →
    ∃ old ∈ plane.store.deployments, old.id = deployment.id ∧
      (old.status = .running ∨ old.status.inProgress = true ∧
        ∃ project ∈ plane.store.projects, project.id = old.projectId ∧ project.isEnabled = true)

theorem Completes.runs {next : ControlPlane} (completes : Completes plane next) : Runs plane next := by
  intro deployment member running
  obtain ⟨old, oldMember, same, origin⟩ := completes deployment member running
  refine ⟨old, oldMember, same, ?_⟩
  rcases origin with wasRunning | candidate
  · exact .inl wasRunning
  · exact .inr (.inl candidate)

/-! ## Activation -/

/-- A deploy command whose checkpoint passes. -/
structure Executing (plane : ControlPlane) (command : RuntimeCommand) : Prop where
  member : command ∈ plane.commands.commands
  deploy : command.action = .deploy
  running : command.status = .running
  free : plane.commands.hasPredecessor command = false

theorem Executing.not_blocked {command : RuntimeCommand} (executing : Executing plane command)
    (sound : Sound plane) : ¬ plane.Blocked command.deploymentId :=
  sound.not_blocked executing.member executing.deploy executing.free

theorem Executing.open {command : RuntimeCommand} (executing : Executing plane command)
    (sound : Sound plane) : plane.DeployOpen command.deploymentId :=
  ⟨command, executing.member, executing.deploy, rfl,
    sound.engagedOpen command executing.member (.inr executing.running)⟩

theorem inProgress_of_startingUp {deployment : Deployment}
    (starting : DeploymentStore.startingUp deployment = true) : deployment.status.inProgress = true := by
  unfold DeploymentStore.startingUp at starting
  cases status : deployment.status <;> simp_all [DeploymentStatus.inProgress]

theorem activated_row (project : Project) (proof : DeploymentActivationProof) {deploymentId : Uuid}
    {deployment row : Deployment} (found : store.deployments.get? deploymentId = some deployment)
    (starting : DeploymentStore.startingUp deployment = true) (member : row ∈ store.deployments) :
    row = deployment ∧ (onRow deploymentId DeploymentStore.startingUp (DeploymentStore.activatingValues proof)
      (DeploymentStore.retiredRow project deployment.previousActiveDeploymentId row)) =
        DeploymentStore.activatingValues proof row ∨
    row ≠ deployment ∧ ((onRow deploymentId DeploymentStore.startingUp (DeploymentStore.activatingValues proof)
      (DeploymentStore.retiredRow project deployment.previousActiveDeploymentId row)) = row ∨
      row.status = .running ∧ (onRow deploymentId DeploymentStore.startingUp
        (DeploymentStore.activatingValues proof) (DeploymentStore.retiredRow project
          deployment.previousActiveDeploymentId row)) = { row with status := .stopping }) := by
  have sameId : deployment.id = deploymentId := Table.key_of_get? found
  by_cases chosen : row = deployment
  · have kept : DeploymentStore.retiredRow project deployment.previousActiveDeploymentId row = row := by
      unfold DeploymentStore.retiredRow
      rw [if_neg]
      rintro ⟨-, -, running⟩
      have inProgress := inProgress_of_startingUp starting
      rw [← chosen, running] at inProgress
      cases inProgress
    rw [kept]
    refine .inl ⟨chosen, ?_⟩
    rw [onRow, if_pos]
    rw [chosen, sameId, starting]
    simp
  · have different : row.id ≠ deploymentId := fun same =>
      chosen (Table.eq_of_key member (Table.mem_of_get? found) (same.trans sameId.symm))
    refine .inr ⟨chosen, ?_⟩
    unfold DeploymentStore.retiredRow
    split
    · rename_i retired
      exact .inr ⟨retired.2.2, by simp [onRow, different]⟩
    · exact .inl (by simp [onRow, different])

theorem activation_change (sound : Sound plane) {deploymentId : Uuid} {proof : DeploymentActivationProof}
    (written : plane.store.beginActivation deploymentId proof = some store)
    (notBlocked : ¬ plane.Blocked deploymentId) :
    ∃ row pointer, RowChange plane { plane with store, containers := deploymentId :: plane.containers }
      row pointer ∧ (∀ project, (pointer project).isEnabled = project.isEnabled) ∧
      ∀ deployment ∈ plane.store.deployments, (row deployment).status = .running →
        deployment.status = .running := by
  have consistent := consistent_beginActivation sound.consistent written
  obtain ⟨deployment, project, found, starting, projectFound, enabled, -, rewrite⟩ :=
    DeploymentStore.beginActivation_spec written
  have projectMember := Table.mem_of_get? projectFound
  have member := Table.mem_of_get? found
  have sameId : deployment.id = deploymentId := Table.key_of_get? found
  have inProgress := inProgress_of_startingUp starting
  have rows := fun (row : Deployment) (rowMember : row ∈ plane.store.deployments) =>
    activated_row project proof found starting rowMember
  refine ⟨_, _, ⟨rewrite, rfl, consistent, ?_, ?_, ?_, ?_⟩, onProject_enabled fun _ => rfl, ?_⟩
  · intro row rowMember
    rcases rows row rowMember with ⟨rfl, activated⟩ | ⟨different, kept | ⟨running, retired⟩⟩
    · exact {
        progress := fun _ => inProgress
        started := fun _ => .inr inProgress
        unstarted := fun _ => by
          rw [Function.comp_apply, activated]
          exact sound.unstarted row member (.inl inProgress)
        pending := fun blocked => absurd (sameId ▸ blocked) notBlocked
        stopped := fun stopped => by
          rw [Function.comp_apply, activated] at stopped
          cases stopped }
    · exact sound.rowMove_of_eq rowMember kept
    · exact {
        progress := fun status => by
          rw [Function.comp_apply, retired] at status
          cases status
        started := fun started => by
          rw [Function.comp_apply, retired] at started
          exact .inl started
        unstarted := fun status => by
          rw [Function.comp_apply, retired] at status
          rcases status with status | status <;> cases status
        pending := fun _ => by
          rw [Function.comp_apply, retired]
          exact .inr rfl
        stopped := fun stopped => by
          rw [Function.comp_apply, retired] at stopped
          cases stopped }
  · intro present presentMember
    rcases List.mem_cons.mp presentMember with rfl | old
    · exact .inr ⟨deployment, member, sameId, inProgress⟩
    · exact .inl old
  · intro holder holderMember row rowMember active stopped
    rw [Function.comp_apply] at stopped
    rcases rows row rowMember with ⟨-, activated⟩ | ⟨different, kept | ⟨-, retired⟩⟩
    · rw [activated] at stopped
      cases stopped
    · rw [kept] at stopped
      unfold onProject at active
      split at active
      · exact different (Table.eq_of_key rowMember member (Option.some.inj active).symm)
      · exact sound.activeNotStopped holder holderMember row rowMember active stopped
    · rw [retired] at stopped
      cases stopped
  · intro holder holderMember row rowMember active
    rcases rows row rowMember with ⟨rfl, -⟩ | ⟨different, moved⟩
    · have holderIs : holder = project := by
        apply Table.eq_of_key holderMember projectMember
        have sameProject : project.id = row.projectId := Table.key_of_get? projectFound
        unfold onProject at active
        split at active
        · assumption
        · exact (sound.consistent.owner_of_active holderMember rowMember active).symm.trans sameProject.symm
      exact .inr ⟨sameId ▸ notBlocked, .inl ⟨inProgress, holderIs ▸ enabled⟩⟩
    · unfold onProject at active
      split at active
      · exact absurd (Table.eq_of_key rowMember member (Option.some.inj active).symm) different
      · refine .inl ⟨active, fun stopping => ?_⟩
        rw [Function.comp_apply]
        rcases moved with kept | ⟨-, retired⟩
        · rw [kept]
          exact stopping
        · rw [retired]
  · intro row rowMember status
    rw [Function.comp_apply] at status
    rcases rows row rowMember with ⟨-, activated⟩ | ⟨-, kept | ⟨-, retired⟩⟩
    · rw [activated] at status
      cases status
    · rwa [kept] at status
    · rw [retired] at status
      cases status

/-! ## Failure of an activation -/

/-- The candidate fails, unless it is already past `HEALTHCHECK` and `RUNNING`. -/
theorem failed_move (sound : Sound plane) {next : ControlPlane} {row : Deployment → Deployment}
    {deployment old : Deployment} {errorCode errorSummary : String} {now : Instant}
    (member : old ∈ plane.store.deployments) (found : plane.store.deployments.get? deployment.id = some deployment)
    (written : row old = onRow deployment.id DeploymentStore.failing
      (DeploymentStore.failedActivationValues errorCode errorSummary now) old) : RowMove plane next row old := by
  rcases onRow_cases found member DeploymentStore.failing
    (DeploymentStore.failedActivationValues errorCode errorSummary now) with ⟨-, -, failed⟩ | ⟨-, kept⟩
  · rw [failed] at written
    exact {
      progress := fun status => by
        rw [written] at status
        cases status
      started := fun started => by
        rw [written] at started
        exact .inl started
      unstarted := fun status => by
        rw [written] at status
        rcases status with status | status <;> cases status
      pending := fun _ => by
        rw [written]
        exact .inr rfl
      stopped := fun stopped => by
        rw [written] at stopped
        cases stopped }
  · exact sound.rowMove_of_eq member (written.trans kept)

/-- A failing row does not become `STOPPED`, and `STOPPING` rows are left alone. -/
theorem failing_status {deployment row : Deployment} {errorCode errorSummary : String} {now : Instant}
    (found : plane.store.deployments.get? deployment.id = some deployment) (member : row ∈ plane.store.deployments)
    {status : DeploymentStatus} (terminal : status = .stopped ∨ status = .stopping) :
    (onRow deployment.id DeploymentStore.failing
      (DeploymentStore.failedActivationValues errorCode errorSummary now) row).status = status ↔
      row.status = status := by
  rcases onRow_cases found member DeploymentStore.failing
    (DeploymentStore.failedActivationValues errorCode errorSummary now) with ⟨-, failing, written⟩ | ⟨-, written⟩
  · rw [written]
    unfold DeploymentStore.failing at failing
    simp only [Bool.or_eq_true, decide_eq_true_eq] at failing
    constructor
    · intro same
      have unhealthy : DeploymentStatus.unhealthy = status := same
      rcases terminal with rfl | rfl <;> cases unhealthy
    · intro same
      rw [same] at failing
      rcases terminal with rfl | rfl <;> rcases failing with failing | failing <;> cases failing
  · rw [written]

theorem failing_running {deployment row : Deployment} {errorCode errorSummary : String} {now : Instant}
    (found : plane.store.deployments.get? deployment.id = some deployment) (member : row ∈ plane.store.deployments)
    (running : (onRow deployment.id DeploymentStore.failing
      (DeploymentStore.failedActivationValues errorCode errorSummary now) row).status = .running) :
    row.status = .running := by
  rcases onRow_cases found member DeploymentStore.failing
    (DeploymentStore.failedActivationValues errorCode errorSummary now) with ⟨-, -, written⟩ | ⟨-, written⟩
  · rw [written] at running
    cases running
  · rwa [written] at running

theorem abandon_change (sound : Sound plane) {deployment : Deployment} {project : Project}
    {errorCode errorSummary : String} {now : Instant} (consistent : Consistent store)
    (found : plane.store.deployments.get? deployment.id = some deployment)
    (rewrite : Rewrite plane.store store (onRow deployment.id DeploymentStore.failing
      (DeploymentStore.failedActivationValues errorCode errorSummary now))
      (onProject project.id fun row => { row with activeBuildId := none, activeDeploymentId := none })) :
    RowChange plane (plane.withStore store) (onRow deployment.id DeploymentStore.failing
      (DeploymentStore.failedActivationValues errorCode errorSummary now))
      (onProject project.id fun row => { row with activeBuildId := none, activeDeploymentId := none }) := by
  have pointed : ∀ holder : Project, ∀ deploymentId, (onProject project.id (fun row => { row with
      activeBuildId := none, activeDeploymentId := none }) holder).activeDeploymentId = some deploymentId →
      holder.activeDeploymentId = some deploymentId := by
    intro holder deploymentId active
    unfold onProject at active
    split at active
    · cases active
    · exact active
  refine ⟨rewrite, rfl, consistent, ?_, fun _ present => .inl present, ?_, ?_⟩
  · exact fun row rowMember => failed_move sound rowMember found rfl
  · intro holder holderMember row rowMember active stopped
    exact sound.activeNotStopped holder holderMember row rowMember (pointed holder _ active)
      ((failing_status found rowMember (.inl rfl)).mp stopped)
  · intro holder holderMember row rowMember active
    exact .inl ⟨pointed holder _ active,
      (failing_status found rowMember (.inr rfl)).mpr⟩

/-- The candidate fails and its predecessor, whose container is there, runs again. -/
theorem restore_change (sound : Sound plane) {deployment previous : Deployment} {project : Project}
    {errorCode errorSummary : String} {now : Instant} (consistent : Consistent store)
    (found : plane.store.deployments.get? deployment.id = some deployment)
    (projectFound : plane.store.projects.get? deployment.projectId = some project)
    (active : project.activeDeploymentId = some deployment.id) (notBlocked : ¬ plane.Blocked deployment.id)
    (falls : plane.Fallback deployment.id previous.id)
    (previousFound : plane.store.deployments.get? previous.id = some previous)
    (restorable : DeploymentStore.restorable previous = true)
    (rewrite : Rewrite plane.store store (onRow previous.id DeploymentStore.halted
      DeploymentStore.restoredValues ∘ onRow deployment.id DeploymentStore.failing
        (DeploymentStore.failedActivationValues errorCode errorSummary now))
      (onProject project.id fun row =>
        { row with activeBuildId := some previous.buildId, activeDeploymentId := some previous.id })) :
    RowChange plane (plane.withStore store) (onRow previous.id DeploymentStore.halted
      DeploymentStore.restoredValues ∘ onRow deployment.id DeploymentStore.failing
        (DeploymentStore.failedActivationValues errorCode errorSummary now))
      (onProject project.id fun row =>
        { row with activeBuildId := some previous.buildId, activeDeploymentId := some previous.id }) ∧
      Runs plane (plane.withStore store) := by
  have previousMember := Table.mem_of_get? previousFound
  have projectMember := Table.mem_of_get? projectFound
  have sameProject : project.id = deployment.projectId := Table.key_of_get? projectFound
  have previousOwner : previous.projectId = project.id := by
    obtain ⟨⟨candidate, candidateMember, candidateSame, recorded⟩, -⟩ := falls
    obtain ⟨other, otherMember, otherSame, owner, -⟩ :=
      sound.consistent.predecessor candidate candidateMember previous.id recorded
    rw [Table.eq_of_key otherMember previousMember otherSame,
      Table.eq_of_key candidateMember (Table.mem_of_get? found) candidateSame] at owner
    rw [owner, sameProject]
  have halted : (previous.status = .stopping ∨ previous.status = .stopped) ∧ previous.startedAt.isSome = true := by
    simpa [DeploymentStore.restorable] using restorable
  have previousProgress : previous.status.inProgress = false := by
    rcases halted.1 with status | status <;> rw [status] <;> rfl
  -- Every row but the predecessor is treated as by a failure without a predecessor.
  have others : ∀ row ∈ plane.store.deployments, row ≠ previous →
      (onRow previous.id DeploymentStore.halted DeploymentStore.restoredValues
        (onRow deployment.id DeploymentStore.failing
          (DeploymentStore.failedActivationValues errorCode errorSummary now) row)) =
        onRow deployment.id DeploymentStore.failing
          (DeploymentStore.failedActivationValues errorCode errorSummary now) row := by
    intro row rowMember different
    have identity : SameIdentity row (onRow deployment.id DeploymentStore.failing
        (DeploymentStore.failedActivationValues errorCode errorSummary now) row) :=
      onRow_identity (by intro _; exact ⟨rfl, rfl, rfl, rfl⟩) row
    rw [onRow, if_neg]
    simp only [identity.id, Bool.and_eq_true, decide_eq_true_eq, not_and]
    exact fun same => absurd (Table.eq_of_key rowMember previousMember same) different
  have kept : onRow deployment.id DeploymentStore.failing
      (DeploymentStore.failedActivationValues errorCode errorSummary now) previous = previous := by
    rw [onRow, if_neg]
    unfold DeploymentStore.failing
    rcases halted.1 with status | status <;> simp [status]
  have restored : onRow previous.id DeploymentStore.halted DeploymentStore.restoredValues previous =
      DeploymentStore.restoredValues previous := by
    rw [onRow, if_pos]
    unfold DeploymentStore.halted
    rcases halted.1 with status | status <;> simp [status]
  refine ⟨⟨rewrite, rfl, consistent, ?_, fun _ present => .inl present, ?_, ?_⟩, ?_⟩
  · intro row rowMember
    by_cases chosen : row = previous
    · subst chosen
      have written : (onRow row.id DeploymentStore.halted DeploymentStore.restoredValues ∘
          onRow deployment.id DeploymentStore.failing
            (DeploymentStore.failedActivationValues errorCode errorSummary now)) row =
          DeploymentStore.restoredValues row := by
        rw [Function.comp_apply, kept, restored]
      exact {
        progress := fun status => by
          rw [written] at status
          cases status
        started := fun _ => .inl halted.2
        unstarted := fun status => by
          rw [written] at status
          rcases status with status | status <;> cases status
        pending := fun _ => by
          rw [written]
          exact .inr rfl
        stopped := fun stopped => by
          rw [written] at stopped
          cases stopped }
    · exact failed_move sound rowMember found (others row rowMember chosen)
  · intro holder holderMember row rowMember pointer stopped
    rw [Function.comp_apply] at stopped
    by_cases chosen : row = previous
    · rw [chosen, kept, restored] at stopped
      cases stopped
    · rw [others row rowMember chosen, failing_status found rowMember (.inl rfl)] at stopped
      unfold onProject at pointer
      split at pointer
      · exact chosen (Table.eq_of_key rowMember previousMember (Option.some.inj pointer).symm)
      · exact sound.activeNotStopped holder holderMember row rowMember pointer stopped
  · intro holder holderMember row rowMember pointer
    by_cases chosen : row = previous
    · subst chosen
      have holderIs : holder = project := by
        apply Table.eq_of_key holderMember projectMember
        unfold onProject at pointer
        split at pointer
        · assumption
        · exact (sound.consistent.owner_of_active holderMember rowMember pointer).symm.trans previousOwner
      refine .inr ⟨?_, .inr ⟨deployment.id, holderIs ▸ active, notBlocked, falls⟩⟩
      rintro ⟨-, other, otherMember, same, pending, -⟩
      rw [Table.eq_of_key otherMember rowMember same] at pending
      rw [pending] at previousProgress
      cases previousProgress
    · unfold onProject at pointer
      split at pointer
      · exact absurd (Table.eq_of_key rowMember previousMember (Option.some.inj pointer).symm) chosen
      · refine .inl ⟨pointer, fun stopping => ?_⟩
        rw [Function.comp_apply, others row rowMember chosen]
        exact (failing_status found rowMember (.inr rfl)).mpr stopping
  · intro row rowMember running
    obtain ⟨old, oldMember, rfl⟩ := rewrite.mem_deployments.mp rowMember
    refine ⟨old, oldMember, ((rewrite.identity old).id).symm, ?_⟩
    by_cases chosen : old = previous
    · rw [chosen]
      exact .inr (.inr ⟨deployment.id, ⟨project, projectMember, active⟩, notBlocked, falls⟩)
    · rw [Function.comp_apply, others old oldMember chosen] at running
      exact .inl (failing_running found oldMember running)

/-! ## Completion -/

theorem completed_row {deploymentId : Uuid} {deployment row : Deployment} (now : Instant)
    (found : store.deployments.get? deploymentId = some deployment) (member : row ∈ store.deployments) :
    row = deployment ∧ (onRow deploymentId (fun _ => true) (DeploymentStore.runningValues now)
      (DeploymentStore.stoppedRow deployment.previousActiveDeploymentId now row)).status = .running ∨
    row ≠ deployment ∧ ((onRow deploymentId (fun _ => true) (DeploymentStore.runningValues now)
        (DeploymentStore.stoppedRow deployment.previousActiveDeploymentId now row)) = row ∨
      deployment.previousActiveDeploymentId = some row.id ∧
      (onRow deploymentId (fun _ => true) (DeploymentStore.runningValues now)
        (DeploymentStore.stoppedRow deployment.previousActiveDeploymentId now row)) =
          DeploymentStore.stoppedValues now row) := by
  have identity := stoppedRow_identity deployment.previousActiveDeploymentId now row
  have sameId : deployment.id = deploymentId := Table.key_of_get? found
  by_cases chosen : row = deployment
  · refine .inl ⟨chosen, ?_⟩
    have rowId : row.id = deploymentId := by rw [chosen, sameId]
    rw [onRow, if_pos (by simp [identity.id, rowId])]
    rfl
  · have different : row.id ≠ deploymentId := fun same =>
      chosen (Table.eq_of_key member (Table.mem_of_get? found) (same.trans sameId.symm))
    refine .inr ⟨chosen, ?_⟩
    rw [onRow, if_neg (by simp [identity.id, different])]
    unfold DeploymentStore.stoppedRow
    split
    · rename_i stopped
      exact .inr ⟨stopped.1, rfl⟩
    · exact .inl rfl

theorem complete_change (sound : Sound plane) {deploymentId : Uuid} {now : Instant}
    (written : plane.store.completeActivation deploymentId now = some store)
    (notBlocked : ¬ plane.Blocked deploymentId) :
    (∃ row, RowChange plane (plane.withStore store) row id) ∧ Completes plane (plane.withStore store) := by
  have consistent := consistent_completeActivation sound.consistent written
  obtain ⟨deployment, project, found, ready, projectFound, enabled, active, previous, -, rewrite⟩ :=
    DeploymentStore.completeActivation_spec written
  have member := Table.mem_of_get? found
  have sameId : deployment.id = deploymentId := Table.key_of_get? found
  have sameProject : project.id = deployment.projectId := Table.key_of_get? projectFound
  have inProgress : deployment.status.inProgress = true := by
    simp only [DeploymentStore.readyToComplete, Bool.and_eq_true, decide_eq_true_eq] at ready
    rw [ready.1.1.1]
    rfl
  have rows := fun (row : Deployment) (rowMember : row ∈ plane.store.deployments) =>
    completed_row now found rowMember
  -- The retired predecessor belongs to the same project, so it is neither active nor waited for.
  have predecessor : ∀ row ∈ plane.store.deployments, deployment.previousActiveDeploymentId = some row.id →
      row.projectId = deployment.projectId ∧ row ≠ deployment := by
    intro row rowMember recorded
    obtain ⟨other, otherMember, same, owner, different⟩ :=
      sound.consistent.predecessor deployment member row.id recorded
    have otherIs : other = row := Table.eq_of_key otherMember rowMember same
    rw [otherIs] at owner different
    exact ⟨owner, fun same => different (by rw [same])⟩
  constructor
  · refine ⟨_, rewrite, rfl, consistent, ?_, fun _ present => .inl present, ?_, ?_⟩
    · intro row rowMember
      rcases rows row rowMember with ⟨rfl, running⟩ | ⟨different, kept | ⟨recorded, stopped⟩⟩
      · exact {
          progress := fun _ => inProgress
          started := fun _ => .inr inProgress
          unstarted := fun status => by
            rw [Function.comp_apply, running] at status
            rcases status with status | status <;> cases status
          pending := fun blocked => absurd (sameId ▸ blocked) notBlocked
          stopped := fun stopped => by
            rw [Function.comp_apply, running] at stopped
            cases stopped }
      · exact sound.rowMove_of_eq rowMember kept
      · exact {
          progress := fun status => by
            rw [Function.comp_apply, stopped] at status
            cases status
          started := fun started => by
            rw [Function.comp_apply, stopped] at started
            exact .inl started
          unstarted := fun status => by
            rw [Function.comp_apply, stopped] at status
            rcases status with status | status <;> cases status
          pending := fun _ => by
            rw [Function.comp_apply, stopped]
            exact .inr rfl
          stopped := fun _ => by
            refine .inr (.inr fun other otherMember otherRecorded => ?_)
            rw [Function.comp_apply]
            rcases rows other otherMember with ⟨-, running⟩ | ⟨otherDifferent, moved⟩
            · rw [running]
              rfl
            · have settled : other.status.inProgress = false := by
                by_contra otherProgress
                rw [Bool.not_eq_false] at otherProgress
                obtain ⟨third, thirdMember, same, owner, -⟩ :=
                  sound.consistent.predecessor other otherMember row.id otherRecorded
                have thirdIs : third = row := Table.eq_of_key thirdMember rowMember same
                rw [thirdIs] at owner
                exact otherDifferent (sound.consistent.singleInProgress other otherMember deployment member
                  (owner.symm.trans (predecessor row rowMember recorded).1) otherProgress inProgress)
              rcases moved with kept | ⟨-, stopped⟩
              · rw [kept]
                exact settled
              · rw [stopped]
                rfl }
    · intro holder holderMember row rowMember pointer stoppedStatus
      rw [Function.comp_apply] at stoppedStatus
      rcases rows row rowMember with ⟨-, running⟩ | ⟨different, kept | ⟨recorded, -⟩⟩
      · rw [running] at stoppedStatus
        cases stoppedStatus
      · rw [kept] at stoppedStatus
        exact sound.activeNotStopped holder holderMember row rowMember pointer stoppedStatus
      · have holderIs : holder = project := by
          apply Table.eq_of_key holderMember (Table.mem_of_get? projectFound)
          rw [key_project, key_project, sameProject, ← (predecessor row rowMember recorded).1]
          exact (sound.consistent.owner_of_active holderMember rowMember pointer).symm
        rw [id, holderIs, active, ← sameId, Option.some.injEq] at pointer
        exact different (Table.eq_of_key rowMember member pointer.symm)
    · intro holder holderMember row rowMember pointer
      rcases rows row rowMember with ⟨rfl, -⟩ | ⟨different, kept | ⟨recorded, -⟩⟩
      · refine .inl ⟨pointer, fun stopping => ?_⟩
        rw [stopping] at inProgress
        cases inProgress
      · refine .inl ⟨pointer, fun stopping => ?_⟩
        rw [Function.comp_apply, kept]
        exact stopping
      · have holderIs : holder = project := by
          apply Table.eq_of_key holderMember (Table.mem_of_get? projectFound)
          rw [key_project, key_project, sameProject, ← (predecessor row rowMember recorded).1]
          exact (sound.consistent.owner_of_active holderMember rowMember pointer).symm
        rw [id, holderIs, active, ← sameId, Option.some.injEq] at pointer
        exact absurd (Table.eq_of_key rowMember member pointer.symm) different
  · intro row rowMember status
    obtain ⟨old, oldMember, rfl⟩ := rewrite.mem_deployments.mp rowMember
    refine ⟨old, oldMember, ((rewrite.identity old).id).symm, ?_⟩
    rw [Function.comp_apply] at status
    rcases rows old oldMember with ⟨rfl, -⟩ | ⟨-, kept | ⟨-, stopped⟩⟩
    · exact .inr ⟨inProgress, project, Table.mem_of_get? projectFound, sameProject, enabled⟩
    · rw [kept] at status
      exact .inl status
    · rw [stopped] at status
      cases status

/-! ## Stopping -/

theorem stop_change (sound : Sound plane) {deploymentId : Uuid} {deployment : Deployment} (now : Instant)
    (found : plane.store.deployments.get? deploymentId = some deployment)
    (removed : deploymentId ∉ plane.containers) :
    (∃ row pointer, RowChange plane (plane.withStore (plane.store.recordStopped deployment now)) row pointer ∧
      (∀ project, (pointer project).isEnabled = project.isEnabled) ∧ ∀ deployment ∈ plane.store.deployments, (row deployment).status = .running →
        deployment.status = .running) := by
  have consistent := consistent_recordStopped sound.consistent found now
  have rewrite := DeploymentStore.recordStopped_rewrite plane.store deployment now
  have member := Table.mem_of_get? found
  have sameId : deployment.id = deploymentId := Table.key_of_get? found
  have rows := fun (row : Deployment) (rowMember : row ∈ plane.store.deployments) =>
    onRow_cases (sameId ▸ found) rowMember (fun _ => true) (DeploymentStore.stoppedValues now)
  have pointed : ∀ holder ∈ plane.store.projects, ∀ row ∈ plane.store.deployments,
      (if holder.id = deployment.projectId ∧ holder.activeDeploymentId = some deployment.id then
        { holder with activeDeploymentId := none } else holder).activeDeploymentId = some row.id →
      holder.activeDeploymentId = some row.id ∧ row ≠ deployment := by
    intro holder holderMember row rowMember pointer
    split at pointer
    · cases pointer
    · rename_i untouched
      refine ⟨pointer, fun same => untouched ?_⟩
      rw [← same]
      exact ⟨(sound.consistent.owner_of_active holderMember rowMember pointer).symm, pointer⟩
  refine ⟨_, _, ⟨rewrite, rfl, consistent, ?_, fun _ present => .inl present, ?_, ?_⟩, ?_, ?_⟩
  · intro row rowMember
    rcases rows row rowMember with ⟨rfl, -, stopped⟩ | ⟨-, kept⟩
    · exact {
        progress := fun status => by
          rw [stopped] at status
          cases status
        started := fun started => by
          rw [stopped] at started
          exact .inl started
        unstarted := fun status => by
          rw [stopped] at status
          rcases status with status | status <;> cases status
        pending := fun _ => by
          rw [stopped]
          exact .inr rfl
        stopped := fun _ => .inr (.inl (sameId ▸ removed)) }
    · exact sound.rowMove_of_eq rowMember kept
  · intro holder holderMember row rowMember pointer stopped
    obtain ⟨active, different⟩ := pointed holder holderMember row rowMember pointer
    rcases rows row rowMember with ⟨same, -⟩ | ⟨-, kept⟩
    · exact different same
    · rw [kept] at stopped
      exact sound.activeNotStopped holder holderMember row rowMember active stopped
  · intro holder holderMember row rowMember pointer
    obtain ⟨active, different⟩ := pointed holder holderMember row rowMember pointer
    rcases rows row rowMember with ⟨same, -⟩ | ⟨-, kept⟩
    · exact absurd same different
    · refine .inl ⟨active, fun stopping => ?_⟩
      rw [kept]
      exact stopping
  · intro project
    split <;> rfl
  · intro row rowMember status
    rcases rows row rowMember with ⟨-, -, stopped⟩ | ⟨-, kept⟩
    · rw [stopped] at status
      cases status
    · rwa [kept] at status

end Mcplica.Deployments.ControlPlane
