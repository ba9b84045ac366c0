import Mcplica.Deployments.CommandChanges

/-! # Requesting a deployment

A request adds a pending deployment whose predecessor is the active one, and the deploy command for it.
The new deployment may fall back to its predecessor, so the predecessor must not be retired, unless the
deploy command is queued behind its stop. -/

namespace Mcplica.Deployments.ControlPlane

open Mcplica.Domain Mcplica.Library Relation

/-- The effect of `_request_in_session`. -/
structure Requested (plane next : ControlPlane) (origin : Origin) (project : Project) (stopping : List Uuid)
    (row : Deployment) : Prop where
  enabled : project.isEnabled = true
  free : plane.store.hasInProgress project.id stopping = false
  owner : row.projectId = project.id
  previous : row.previousActiveDeploymentId = project.activeDeploymentId
  pending : row.status = .pending
  unstarted : row.startedAt = none
  inserted : plane.store.deployments.insert row = some next.store.deployments
  projects : next.store.projects = plane.store.projects
  containers : next.containers = plane.containers
  overlays : next.overlays = plane.overlays
  consistent : Consistent next.store
  appended : Appended (plane.withStore next.store) next (commandRow origin .deploy row)

variable {plane next : ControlPlane} {origin : Origin} {project : Project} {request : DeploymentRequest}
  {stopping : List Uuid} {row : Deployment}

theorem requestInSession_spec (sound : Sound plane) (projectMember : project ∈ plane.store.projects)
    (requested : plane.requestInSession origin project request stopping = .ok next) :
    ∃ row, Requested plane next origin project stopping row := by
  simp only [ControlPlane.requestInSession, bind_eq_ok] at requested
  obtain ⟨⟨store, row⟩, written, created⟩ := requested
  have consistent := consistent_requestDeployment sound.consistent (Table.get?_of_mem projectMember) written
  obtain ⟨enabled, free, -, owner, -, previous, pending, unstarted, projects, inserted⟩ :=
    DeploymentStore.requestDeployment_spec written
  have fresh := Table.get?_eq_none.mp (Table.key_of_insert inserted)
  rcases createCommand_cases created with ⟨-, existing, member, sameKey⟩ | appended
  · -- A command for the new deployment would name a deployment that does not exist yet.
    exfalso
    have key := sound.keys existing member
    rw [sameKey] at key
    change IdempotencyKey.deploy row.id = keyOf existing at key
    unfold keyOf at key
    obtain ⟨deployment, deploymentMember, same⟩ := sound.commandDeployment existing member
    cases action : existing.action with
    | stop =>
      rw [action] at key
      cases key
    | deploy =>
      rw [action] at key
      injection key with sameDeployment
      exact fresh deployment deploymentMember (same.trans sameDeployment.symm)
  · have sameStore : next.store = store := appended.store
    refine ⟨row, enabled, free, owner, previous, pending, unstarted, ?_, ?_, appended.containers, ?_, ?_, ?_⟩
    · rw [sameStore]
      exact inserted
    · rw [sameStore]
      exact projects
    · rw [appended.eq]
      rfl
    · rw [sameStore]
      exact consistent
    · rw [sameStore]
      exact appended

namespace Requested

theorem mem_iff (requested : Requested plane next origin project stopping row) {deployment : Deployment} :
    deployment ∈ next.store.deployments ↔ deployment ∈ plane.store.deployments ∨ deployment = row :=
  Table.mem_insert requested.inserted

theorem fresh (requested : Requested plane next origin project stopping row) :
    ∀ deployment ∈ plane.store.deployments, deployment.id ≠ row.id :=
  Table.get?_eq_none.mp (Table.key_of_insert requested.inserted)

theorem mem_commands (requested : Requested plane next origin project stopping row) {command : RuntimeCommand} :
    command ∈ next.commands.commands ↔
      command ∈ plane.commands.commands ∨ command = commandRow origin .deploy row :=
  requested.appended.mem_iff

theorem active (requested : Requested plane next origin project stopping row) (deploymentId : Uuid) :
    next.Active deploymentId ↔ plane.Active deploymentId := by
  unfold Active
  rw [requested.projects]

/-- A deployment of the project that a request finds is not in progress, and `STOPPING` only if the
request's own transition stopped it. -/
theorem settled (requested : Requested plane next origin project stopping row) {deployment : Deployment}
    (member : deployment ∈ plane.store.deployments) (owner : deployment.projectId = project.id) :
    deployment.status.inProgress = false ∧ (deployment.status = .stopping → deployment.id ∈ stopping) := by
  refine ⟨notInProgress_of_free requested.free member owner, fun status => ?_⟩
  have free := Table.exists_eq_false.mp requested.free deployment member
  simpa [owner, status] using free

theorem sound (requested : Requested plane next origin project stopping row) (sound : Sound plane)
    (projectMember : project ∈ plane.store.projects) : Sound next := by
  have middle : Sound (plane.withStore next.store) := {
    consistent := requested.consistent
    ordered := sound.ordered
    engagedOpen := sound.engagedOpen
    keys := sound.keys
    keysUnique := sound.keysUnique
    commandDeployment := by
      intro command member
      obtain ⟨deployment, deploymentMember, same⟩ := sound.commandDeployment command member
      exact ⟨deployment, requested.mem_iff.mpr (.inl deploymentMember), same⟩
    activeNotStopped := by
      intro holder holderMember deployment member active
      rw [withStore_store, requested.projects] at holderMember
      rcases requested.mem_iff.mp member with old | rfl
      · exact sound.activeNotStopped holder holderMember deployment old active
      · rw [requested.pending]
        simp
    previousSettled := by
      intro deployment member previous previousMember recorded
      rcases requested.mem_iff.mp previousMember with previousOld | rfl
      · rcases requested.mem_iff.mp member with old | rfl
        · exact sound.previousSettled deployment old previous previousOld recorded
        · rw [requested.previous] at recorded
          obtain ⟨target, targetMember, same, owner, -⟩ :=
            sound.consistent.pointers project projectMember previous.id recorded
          rw [← Table.eq_of_key targetMember previousOld same]
          exact (requested.settled targetMember owner).1
      · exfalso
        rcases requested.mem_iff.mp member with old | rfl
        · obtain ⟨target, targetMember, same, -⟩ := sound.consistent.predecessor deployment old _ recorded
          exact requested.fresh target targetMember same
        · rw [requested.previous] at recorded
          obtain ⟨target, targetMember, same, -⟩ :=
            sound.consistent.pointers project projectMember _ recorded
          exact requested.fresh target targetMember same
    waitingStopped := by
      intro deployment member previous previousMember recorded inProgress stopped
      rcases requested.mem_iff.mp previousMember with previousOld | rfl
      · rcases requested.mem_iff.mp member with old | rfl
        · exact sound.waitingStopped deployment old previous previousOld recorded inProgress stopped
        · rw [requested.previous] at recorded
          exact absurd stopped (sound.activeNotStopped project projectMember previous previousOld recorded)
      · rw [requested.pending] at stopped
        cases stopped
    unstarted := by
      intro deployment member status
      rcases requested.mem_iff.mp member with old | rfl
      · exact sound.unstarted deployment old status
      · exact requested.unstarted }
  exact requested.appended.sound middle rfl (commandRow_key _ _ _)
    ⟨row, requested.mem_iff.mpr (.inr rfl), rfl⟩

/-- The only new way back leads from the new deployment to the active one. -/
theorem fallback (requested : Requested plane next origin project stopping row)
    {candidateId previousId : Uuid}
    (falls : next.Fallback candidateId previousId) :
    plane.Fallback candidateId previousId ∨
      candidateId = row.id ∧ project.activeDeploymentId = some previousId := by
  obtain ⟨⟨candidate, candidateMember, candidateSame, recorded⟩, ⟨previous, previousMember, previousSame, started⟩,
    present, command, member, deploy, target, isOpen⟩ := falls
  rcases requested.mem_iff.mp candidateMember with candidateOld | rfl
  · left
    have previousOld : previous ∈ plane.store.deployments := by
      rcases requested.mem_iff.mp previousMember with old | rfl
      · exact old
      · rw [requested.unstarted] at started
        cases started
    rw [requested.containers] at present
    refine ⟨⟨candidate, candidateOld, candidateSame, recorded⟩, ⟨previous, previousOld, previousSame, started⟩,
      present, command, ?_, deploy, target, isOpen⟩
    rcases requested.mem_commands.mp member with old | rfl
    · exact old
    · exact absurd (candidateSame.trans target.symm) (requested.fresh candidate candidateOld)
  · exact .inr ⟨candidateSame.symm, requested.previous.symm.trans recorded⟩

theorem blocked (requested : Requested plane next origin project stopping row) {deploymentId : Uuid}
    (blocked : plane.Blocked deploymentId) : next.Blocked deploymentId := by
  obtain ⟨inactive, deployment, member, same, pending, previousId, recorded, command, commandMember, deploy,
    target, stop, stopMember, rest⟩ := blocked
  exact ⟨fun active => inactive ((requested.active deploymentId).mp active), deployment,
    requested.mem_iff.mpr (.inl member), same, pending, previousId, recorded, command,
    requested.mem_commands.mpr (.inl commandMember), deploy, target, stop,
    requested.mem_commands.mpr (.inl stopMember), rest⟩

theorem live (requested : Requested plane next origin project stopping row) {deploymentId : Uuid}
    (live : next.Live deploymentId) : plane.Live deploymentId ∨ deploymentId = row.id := by
  rcases live with ⟨deployment, member, same, inProgress⟩ | active
  · rcases requested.mem_iff.mp member with old | rfl
    · exact .inl (.inl ⟨deployment, old, same, inProgress⟩)
    · exact .inr same.symm
  · exact .inl (.inr ((requested.active deploymentId).mp active))

/-- The new deployment waits for the stop of the active deployment in its own transition. -/
theorem blocked_new (requested : Requested plane next origin project stopping row) (sound : Sound plane)
    {previousId : Uuid} (pointer : project.activeDeploymentId = some previousId) {stop : RuntimeCommand}
    (stopMember : stop ∈ plane.commands.commands) (isStop : stop.action = .stop)
    (target : stop.deploymentId = previousId) (transition : stop.transitionId = origin.transitionId)
    (waiting : stop.status ≠ .effective) : next.Blocked row.id := by
  refine ⟨?_, row, requested.mem_iff.mpr (.inr rfl), rfl, requested.pending, previousId,
    requested.previous.trans pointer, commandRow origin .deploy row, requested.mem_commands.mpr (.inr rfl), rfl, rfl,
    stop, requested.mem_commands.mpr (.inl stopMember), isStop, target, transition, ?_, waiting⟩
  · intro active
    obtain ⟨-, -, deployment, member, -, same, -⟩ := sound.active_row ((requested.active row.id).mp active)
    exact requested.fresh deployment member same
  · exact requested.appended.above stop stopMember transition

theorem advance (requested : Requested plane next origin project stopping row) (sound : Sound plane)
    (projectMember : project ∈ plane.store.projects)
    (stopsFirst : ∀ deploymentId ∈ stopping, ∃ stop ∈ plane.commands.commands, stop.action = .stop ∧
      stop.deploymentId = deploymentId ∧ stop.transitionId = origin.transitionId ∧ stop.status ≠ .effective) :
    Advance plane next where
  sound := requested.sound sound projectMember
  disabled projectId := by
    unfold Disabled
    rw [requested.projects]
  retired deploymentId retired := by
    have notNew : deploymentId ≠ row.id := by
      obtain ⟨deployment, member, same⟩ := retired.known
      exact same ▸ requested.fresh deployment member
    have oldRow : ∀ deployment ∈ next.store.deployments, deployment.id = deploymentId →
        deployment ∈ plane.store.deployments := by
      intro deployment member same
      rcases requested.mem_iff.mp member with old | rfl
      · exact old
      · exact absurd same.symm notNew
    refine ⟨?_, ?_, ?_, ?_⟩
    · obtain ⟨deployment, member, same⟩ := retired.known
      exact ⟨deployment, requested.mem_iff.mpr (.inl member), same⟩
    · exact fun deployment member same => retired.settled deployment (oldRow deployment member same) same
    · intro active deployment member same started present
      rw [requested.containers] at present
      exact retired.stopping ((requested.active deploymentId).mp active) deployment (oldRow deployment member same)
        same started present
    · -- Without an active deployment the new one leads nowhere, and the target may stand for it.
      refine retired.guarded.extend row.id (project.activeDeploymentId.getD deploymentId) ?_ ?_
        (fun _ live => requested.live live) ?_ (fun _ held => requested.blocked held) ?_ ?_ ?_
      · intro source next falls
        rcases requested.fallback falls with known | ⟨isNew, pointer⟩
        · exact .inl known
        · exact .inr ⟨isNew, by rw [pointer, Option.getD_some]⟩
      · rintro source ⟨-, ⟨previous, previousMember, same, -⟩, -⟩
        exact requested.fresh previous previousMember same
      · rintro next ⟨⟨candidate, candidateMember, same, -⟩, -⟩
        exact requested.fresh candidate candidateMember same
      · intro falls
        rcases requested.fallback falls with ⟨⟨candidate, candidateMember, same, -⟩, -⟩ | ⟨-, pointer⟩
        · exact absurd same (requested.fresh candidate candidateMember)
        · rw [pointer, Option.getD_some]
          exact ⟨.inr ⟨project, projectMember, pointer⟩, fun held => held.1 ⟨project, projectMember, pointer⟩⟩
      · intro falls same
        have ⟨_, ⟨previous, previousMember, previousSame, started⟩, present, _⟩ := falls
        rcases requested.fallback falls with ⟨⟨candidate, candidateMember, same, -⟩, -⟩ | ⟨-, pointer⟩
        · exact absurd same (requested.fresh candidate candidateMember)
        · rw [same] at pointer present previousSame
          rw [requested.containers] at present
          have old := oldRow previous previousMember previousSame
          have status := retired.stopping ⟨project, projectMember, pointer⟩ previous old previousSame started present
          obtain ⟨holder, holderMember, holderSame, owner, -⟩ :=
            sound.consistent.pointers project projectMember deploymentId pointer
          have holderIs : holder = previous :=
            Table.eq_of_key holderMember old (holderSame.trans previousSame.symm)
          rw [holderIs] at owner
          have listed := (requested.settled old owner).2 status
          obtain ⟨stop, stopMember, isStop, target, transition, waiting⟩ := stopsFirst previous.id listed
          exact requested.blocked_new sound pointer stopMember isStop (target.trans previousSame) transition waiting
      · intro same
        cases pointer : project.activeDeploymentId with
        | none =>
          rw [pointer, Option.getD_none] at same
          exact notNew same
        | some activeId =>
          rw [pointer, Option.getD_some] at same
          obtain ⟨holder, holderMember, holderSame, -⟩ :=
            sound.consistent.pointers project projectMember activeId pointer
          exact requested.fresh holder holderMember (holderSame.trans same)
  quiesced projectId _ quiesced := by
    intro holder member same activeId active previousId falls
    rw [requested.projects] at member
    rcases requested.fallback falls with known | ⟨isNew, -⟩
    · exact quiesced holder member same activeId active previousId known
    · -- The new deployment is not active yet.
      obtain ⟨deployment, deploymentMember, deploymentSame, -⟩ :=
        sound.consistent.pointers holder member activeId active
      exact requested.fresh deployment deploymentMember (deploymentSame.trans isNew)

end Requested

end Mcplica.Deployments.ControlPlane
