import Mcplica.Deployments.Outcomes

/-! # The steps of the executor and the runner

Every transaction of the runner is made under the checkpoint of its command. None of them asks for a
stop, and the two that make a deployment `RUNNING` are `finishActivation` and `failActivation`. -/

namespace Mcplica.Deployments.ControlPlane

open Mcplica.Domain Mcplica.Library Relation

variable {plane next : ControlPlane} {command : RuntimeCommand} {now : Instant}

theorem executing_of_owner {commandId token : Uuid}
    (owned : plane.commands.requireExecutionOwner commandId token now = .ok command)
    (deploy : command.action = .deploy) : Executing plane command := by
  obtain ⟨found, status, -, free⟩ := CommandProtocol.requireExecutionOwner_eq_ok.mp owned
  exact ⟨Table.mem_of_get? found, deploy, status, free⟩

/-! ## Writes of one row -/

/-- The deploy command's own deployment moves inside the in-progress statuses, or out of them to an end. -/
theorem own_row_calm (sound : Sound plane) (executing : Executing plane command) {store : DeploymentStore}
    {deployment : Deployment} {values : Deployment → Deployment}
    (found : plane.store.deployments.get? command.deploymentId = some deployment)
    (rewrite : Rewrite plane.store store (onRow command.deploymentId (fun _ => true) values) id)
    (inProgress : deployment.status.inProgress = true)
    (started : (values deployment).startedAt = deployment.startedAt ∨ (values deployment).startedAt = none)
    (notStopped : (values deployment).status ≠ .stopped) (notRunning : (values deployment).status ≠ .running) :
    Calm plane (plane.withStore store) := by
  have member := Table.mem_of_get? found
  have sameId : deployment.id = command.deploymentId := Table.key_of_get? found
  have running : ∀ row ∈ plane.store.deployments,
      (onRow command.deploymentId (fun _ => true) values row).status = .running → row.status = .running := by
    intro row rowMember status
    rcases onRow_cases found rowMember (fun _ => true) values with ⟨rfl, -, written⟩ | ⟨-, written⟩
    · rw [written] at status
      exact absurd status notRunning
    · rwa [written] at status
  have consistent : Consistent store := consistent_of_row sound.consistent found rewrite
    (fun status => absurd status notRunning) (fun _ => inProgress)
  have move := quiet_of_inProgress sound member inProgress started notStopped
    (by rw [sameId]; exact executing.not_blocked sound)
  exact (quiet_row sound found rewrite consistent move).calm sound (fun _ => rfl) running

theorem transition_calm (sound : Sound plane) (executing : Executing plane command) {store : DeploymentStore}
    {expected : List DeploymentStatus} {status : DeploymentStatus} {values : DeploymentStore.TransitionValues}
    (written : plane.store.transition command.deploymentId expected status values = some store)
    (inside : ∀ old ∈ expected, old.inProgress = true) (target : status.inProgress = true) :
    Calm plane (plane.withStore store) := by
  obtain ⟨deployment, found, expects, rewrite⟩ := DeploymentStore.transition_spec written
  refine own_row_calm sound executing found rewrite (inside _ (List.contains_iff_mem.mp expects)) (.inl ?_) ?_ ?_
  · cases values <;> rfl
  · intro stopped
    have same : status = .stopped := stopped
    rw [same] at target
    cases target
  · intro running
    have same : status = .running := running
    rw [same] at target
    cases target

theorem unmoved_change (sound : Sound plane) {store : DeploymentStore} {row : Deployment → Deployment}
    (unmoved : DeploymentStore.Unmoved row) (rewrite : Rewrite plane.store store row id) :
    RowChange plane (plane.withStore store) row id ∧
      ∀ deployment ∈ plane.store.deployments, (row deployment).status = .running → deployment.status = .running := by
  have quiet := fun deployment (member : deployment ∈ plane.store.deployments) =>
    quiet_of_unmoved sound unmoved member
  have running : ∀ deployment ∈ plane.store.deployments, (row deployment).status = .running →
      deployment.status = .running := fun deployment _ status => (unmoved deployment).1 ▸ status
  have consistent : Consistent store := consistent_of_quiet sound.consistent rewrite running
    fun deployment member => (quiet deployment member).progress
  exact ⟨quiet_change sound rewrite consistent (fun _ => rfl) quiet, running⟩

/-! ## Calls of the command repository -/

theorem command_calm (sound : Sound plane) (call : CommandProtocol.Call)
    (notCreate : ∀ new sequence now, call ≠ .create new sequence now)
    (verified : ∀ command ∈ plane.commands.commands, ∀ token now, call = .markEffective command.id token now →
      command.action = .stop → ∃ deployment ∈ plane.store.deployments,
        deployment.id = command.deploymentId ∧ (deployment.status = .stopped ∨ deployment.status = .failed)) :
    Calm plane (plane.withCommands (CommandProtocol.step plane.commands call)) where
  advance := command_advance sound notCreate verified
  rests deployment member running := ⟨deployment, member, rfl, running⟩
  keeps row member stop := by
    obtain ⟨rewrite, added, effect⟩ := CommandProtocol.step_effect plane.commands call
    have nothing : added = [] := by
      rcases effect.created with none | ⟨new, sequence, now, same⟩
      · exact none
      · exact absurd same (notCreate new sequence now)
    rw [nothing] at effect
    rcases effect.mem_iff.mp member with ⟨command, commandMember, rfl⟩ | new
    · obtain ⟨action, subject, -⟩ := (effect.moves command commandMember).subject
      exact ⟨command, commandMember, action.symm.trans stop, subject.symm⟩
    · cases new

theorem verifyAndMarkEffective_calm (sound : Sound plane) {commandId token : Uuid}
    (written : plane.verifyAndMarkEffective commandId token now = .ok next) : Calm plane next := by
  simp only [verifyAndMarkEffective, bind_eq_ok, orRaise_eq_ok, require_eq_ok] at written
  obtain ⟨command, owned, deployment, found, -, effective, commands, marked, written⟩ := written
  cases written
  obtain ⟨commandFound, -⟩ := CommandProtocol.requireExecutionOwner_eq_ok.mp owned
  have stepped : CommandProtocol.step plane.commands (.markEffective commandId token now) = commands := by
    simp only [CommandProtocol.step, marked, commit_ok]
  rw [← stepped]
  refine command_calm sound _ (by simp) ?_
  intro row rowMember _ _ same isStop
  injection same with sameId
  subst sameId
  have markedIs : row = command := Option.some.inj ((Table.get?_of_mem rowMember).symm.trans commandFound)
  rw [markedIs] at isStop
  refine ⟨deployment, Table.mem_of_get? found, (Table.key_of_get? found).trans (by rw [markedIs]), ?_⟩
  simpa [isStop] using effective

/-! ## The transactions of the runner -/

section Runner

variable {store : DeploymentStore}

theorem beginRun_calm (sound : Sound plane) (executing : Executing plane command)
    {digest : RuntimeIdentity → Instant → String} {targets : DeploymentStore.RunTargets}
    {builds : Uuid → Option DeployableBuild} {preflight : Except McplicaError Unit}
    {begun : DeploymentStore × DeploymentStore.RunBranch}
    (written : plane.store.beginRun digest command.deploymentId targets builds preflight = .ok begun) :
    Calm plane (plane.withStore begun.1) := by
  rcases DeploymentStore.beginRun_spec written with unchanged | transitioned
  · rw [unchanged]
    exact Calm.refl sound
  · exact transition_calm sound executing transitioned (by decide) rfl

theorem activate_calm (sound : Sound plane) (executing : Executing plane command)
    {provisioned : DeploymentStore.ProvisionedRuntime}
    (written : plane.store.activate command.deploymentId provisioned = .ok store) :
    Calm plane { plane with store, containers := command.deploymentId :: plane.containers } := by
  simp only [DeploymentStore.activate, bind_eq_ok, orRaise_eq_ok] at written
  obtain ⟨recorded, transitioned, activated⟩ := written
  have first : Calm plane (plane.withStore recorded) :=
    transition_calm sound executing transitioned (by decide) rfl
  -- The checkpoint reads only the commands, so it still holds.
  have again : Executing (plane.withStore recorded) command :=
    ⟨executing.member, executing.deploy, executing.running, executing.free⟩
  obtain ⟨row, pointer, change, enabled, running⟩ :=
    activation_change first.advance.sound activated (again.not_blocked first.advance.sound)
  exact first.trans (change.calm first.advance.sound enabled running)

theorem confirm_calm (sound : Sound plane) {deploymentId : Uuid} {terminalRunning : Bool}
    {proof : DeploymentActivationProof}
    (written : plane.store.confirm deploymentId terminalRunning proof = .ok store) :
    Calm plane (plane.withStore store) := by
  rw [DeploymentStore.confirm, orRaise_eq_ok] at written
  obtain ⟨row, unmoved, rewrite⟩ := DeploymentStore.refreshActivationProof_spec written
  obtain ⟨change, running⟩ := unmoved_change sound unmoved rewrite
  exact change.calm sound (fun _ => rfl) running

theorem beginRetirement_calm (sound : Sound plane) (executing : Executing plane command)
    (written : plane.store.beginRetirement command.deploymentId = .ok store) :
    Calm plane (plane.withStore store) := by
  simp only [DeploymentStore.beginRetirement, bind_eq_ok, orRaise_eq_ok] at written
  obtain ⟨retiring, marked, candidate, -, written⟩ := written
  have same : retiring = store := by
    split at written
    · cases written
      rfl
    · simp only [bind_eq_ok, orRaise_eq_ok, require_eq_ok] at written
      obtain ⟨-, -, -, -, written⟩ := written
      cases written
      rfl
  subst same
  obtain ⟨deployment, found, status, rewrite⟩ := DeploymentStore.markRetiringPrevious_spec marked
  exact own_row_calm sound executing found rewrite (by rw [status]; rfl) (.inl rfl) (by simp [status])
    (by simp [status])

theorem finishActivation_outcome (sound : Sound plane) (executing : Executing plane command)
    {proof : DeploymentActivationProof}
    (written : plane.store.finishActivation command.deploymentId proof now = .ok store) :
    Outcome plane (plane.withStore store) [] none := by
  simp only [DeploymentStore.finishActivation, bind_eq_ok, orRaise_eq_ok] at written
  obtain ⟨refreshed, proved, completed⟩ := written
  obtain ⟨row, unmoved, rewrite⟩ := DeploymentStore.refreshActivationProof_spec proved
  obtain ⟨change, running⟩ := unmoved_change sound unmoved rewrite
  have first := change.calm sound (fun _ => rfl) running
  have again : Executing (plane.withStore refreshed) command :=
    ⟨executing.member, executing.deploy, executing.running, executing.free⟩
  obtain ⟨⟨nextRow, nextChange⟩, completes⟩ :=
    complete_change first.advance.sound completed (again.not_blocked first.advance.sound)
  have advance := first.advance.trans (nextChange.advance first.advance.sound fun _ => rfl)
  -- The refreshed proof moves no row, so the candidate was in progress before it as well.
  have earlier : Completes plane (plane.withStore store) := by
    intro deployment member status
    obtain ⟨between, betweenMember, same, origin⟩ := completes deployment member status
    obtain ⟨old, oldMember, rfl⟩ := rewrite.mem_deployments.mp betweenMember
    refine ⟨old, oldMember, (rewrite.identity old).id.symm.trans same, ?_⟩
    rw [(unmoved old).1, (rewrite.identity old).projectId] at origin
    rcases origin with wasRunning | ⟨inProgress, project, projectMember, owner, enabled⟩
    · exact .inl wasRunning
    · obtain ⟨_, oldProjectMember, rfl⟩ := rewrite.mem_projects.mp projectMember
      exact .inr ⟨inProgress, project, oldProjectMember, owner, enabled⟩
  exact advance.outcome sound earlier.runs (.of_eq rfl)

theorem failActivation_outcome (sound : Sound plane) (executing : Executing plane command) (probed : Bool)
    (errorCode errorSummary : String) :
    Outcome plane (plane.withStore (plane.store.failActivation command.deploymentId
      (plane.previousReady command.deploymentId probed) errorCode errorSummary now)) [] none := by
  have consistent := consistent_failActivation sound.consistent command.deploymentId
    (plane.previousReady command.deploymentId probed) errorCode errorSummary now
  have refl : Outcome plane (plane.withStore plane.store) [] none := (Calm.refl sound).outcome sound
  unfold DeploymentStore.failActivation at consistent ⊢
  cases written : plane.store.restorePreviousAfterFailedActivation command.deploymentId
      (plane.previousReady command.deploymentId probed) errorCode errorSummary now with
  | none => exact refl
  | some store =>
    rw [written, Option.getD_some] at consistent
    rw [Option.getD_some]
    rcases DeploymentStore.restorePreviousAfterFailedActivation_spec written with
      unchanged | ⟨deployment, project, found, projectFound, active, restored | abandoned⟩
    · rw [unchanged]
      exact refl
    · obtain ⟨previous, recorded, previousFound, ready, restorable, rewrite⟩ := restored
      have sameId : deployment.id = command.deploymentId := Table.key_of_get? found
      have notBlocked := executing.not_blocked sound
      have isOpen := executing.open sound
      rw [← sameId] at found active rewrite notBlocked isOpen ready
      have present : previous.id ∈ plane.containers := by
        simp only [previousReady, found, Option.any_some, recorded, Bool.and_eq_true] at ready
        simpa using ready.2
      have started : previous.startedAt.isSome = true := by
        simp only [DeploymentStore.restorable, Bool.and_eq_true] at restorable
        exact restorable.2
      have falls : plane.Fallback deployment.id previous.id :=
        ⟨⟨deployment, Table.mem_of_get? found, rfl, recorded⟩,
          ⟨previous, Table.mem_of_get? previousFound, rfl, started⟩, present, isOpen⟩
      obtain ⟨change, runs⟩ := restore_change sound consistent found projectFound active notBlocked falls
        previousFound restorable rewrite
      exact (change.advance sound (onProject_enabled fun _ => rfl)).outcome sound runs (.of_eq rfl)
    · have sameId : deployment.id = command.deploymentId := Table.key_of_get? found
      rw [← sameId] at found abandoned
      have change := abandon_change sound consistent found abandoned
      exact (change.calm sound (onProject_enabled fun _ => rfl)
        fun _ member => failing_running found member).outcome sound

theorem resetForRetry_calm (sound : Sound plane) (executing : Executing plane command) :
    Calm plane (plane.withStore ((plane.store.resetForRetry command.deploymentId).getD plane.store)) := by
  cases written : plane.store.resetForRetry command.deploymentId with
  | none => exact Calm.refl sound
  | some store =>
    obtain ⟨deployment, row, found, inProgress, status, started, rewrite⟩ :=
      DeploymentStore.resetForRetry_spec written
    exact own_row_calm sound executing found rewrite inProgress (.inr started) (by simp [status]) (by simp [status])

theorem markFailed_calm (sound : Sound plane) (executing : Executing plane command)
    (errorCode errorSummary : String) (unhealthy : Bool) :
    Calm plane (plane.withStore ((plane.store.markFailed command.deploymentId errorCode errorSummary unhealthy
      now).getD plane.store)) := by
  cases written : plane.store.markFailed command.deploymentId errorCode errorSummary unhealthy now with
  | none => exact Calm.refl sound
  | some store =>
    obtain ⟨deployment, row, found, inProgress, status, started, rewrite⟩ :=
      DeploymentStore.markFailed_spec written
    refine own_row_calm sound executing found rewrite inProgress (.inl started) ?_ ?_ <;>
      · rw [status]
        cases unhealthy <;> simp

end Runner

theorem deployStep_outcome {digest : RuntimeIdentity → Instant → String} (sound : Sound plane)
    (executing : Executing plane command) {step : DeployStep}
    (written : plane.deployStep digest command now step = .ok next) : Outcome plane next [] none := by
  cases step with
  | beginRun builds preflight =>
    simp only [deployStep, bind_eq_ok] at written
    obtain ⟨begun, written, same⟩ := written
    cases same
    exact (beginRun_calm sound executing written).outcome sound
  | materialize =>
    cases written
    have same : SameTables plane { plane with overlays := command.deploymentId :: plane.overlays } :=
      ⟨rfl, rfl, rfl⟩
    exact (same.calm sound).outcome sound
  | beginStartup authOverlaySha256 =>
    simp only [deployStep, bind_eq_ok] at written
    obtain ⟨store, written, same⟩ := written
    cases same
    rw [DeploymentStore.beginStartup, orRaise_eq_ok] at written
    exact (transition_calm sound executing written (by decide) rfl).outcome sound
  | activate provisioned =>
    simp only [deployStep, bind_eq_ok] at written
    obtain ⟨store, written, same⟩ := written
    cases same
    exact (activate_calm sound executing written).outcome sound
  | confirm terminalRunning proof =>
    simp only [deployStep, bind_eq_ok] at written
    obtain ⟨store, written, same⟩ := written
    cases same
    exact (confirm_calm sound written).outcome sound
  | beginRetirement =>
    simp only [deployStep, bind_eq_ok] at written
    obtain ⟨store, written, same⟩ := written
    cases same
    exact (beginRetirement_calm sound executing written).outcome sound
  | finishActivation proof =>
    simp only [deployStep, bind_eq_ok] at written
    obtain ⟨store, written, same⟩ := written
    cases same
    exact finishActivation_outcome sound executing written
  | failActivation probed errorCode errorSummary =>
    cases written
    exact failActivation_outcome sound executing probed errorCode errorSummary
  | resetForRetry =>
    cases written
    exact (resetForRetry_calm sound executing).outcome sound
  | markFailed errorCode errorSummary unhealthy =>
    cases written
    exact (markFailed_calm sound executing errorCode errorSummary unhealthy).outcome sound

/-! ## Containers -/

theorem removeContainer_calm (sound : Sound plane) (deploymentId : Uuid) :
    Calm plane { plane with containers := plane.containers.filter (· ≠ deploymentId) } := by
  have change : RowChange plane { plane with containers := plane.containers.filter (· ≠ deploymentId) } id id := {
    rewrite := Rewrite.refl plane.store
    commands := rfl
    consistent := sound.consistent
    moves := fun _ member => sound.rowMove_of_eq member rfl
    containers := fun _ present => .inl (List.mem_of_mem_filter present)
    activeNotStopped := sound.activeNotStopped
    active := fun _ _ _ _ active => .inl ⟨active, id⟩ }
  exact change.calm sound (fun _ => rfl) fun _ _ => id

theorem recordStopped_calm (sound : Sound plane) {targetId : Uuid}
    (written : plane.recordStopped command targetId now = .ok next) : Calm plane next := by
  simp only [recordStopped, bind_eq_ok, orRaise_eq_ok, require_eq_ok] at written
  obtain ⟨target, found, -, -, -, removed, written⟩ := written
  cases written
  obtain ⟨row, pointer, change, enabled, running⟩ := stop_change sound now found (by simpa using removed)
  exact change.calm sound enabled running

end Mcplica.Deployments.ControlPlane
