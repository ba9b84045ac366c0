import Mcplica.Deployments.RowChanges

/-! # The writes to the command table

Dispatching, executing and failing commands, scheduling stops and requesting deployments, seen from
the control plane. -/

namespace Mcplica.Deployments.ControlPlane

open Mcplica.Domain Mcplica.Library Relation

variable {plane : ControlPlane} {commands : CommandStore}

/-! ## Calls that move commands -/

/-- A call that creates nothing and makes a stop effective only once its deployment has stopped. -/
theorem command_advance (sound : Sound plane) {call : CommandProtocol.Call}
    (notCreate : ∀ new sequence now, call ≠ .create new sequence now)
    (verified : ∀ command ∈ plane.commands.commands, ∀ token now, call = .markEffective command.id token now →
      command.action = .stop → ∃ deployment ∈ plane.store.deployments,
        deployment.id = command.deploymentId ∧ (deployment.status = .stopped ∨ deployment.status = .failed)) :
    Advance plane (plane.withCommands (CommandProtocol.step plane.commands call)) := by
  obtain ⟨rewrite, added, effect⟩ := CommandProtocol.step_effect plane.commands call
  have nothing : added = [] := by
    rcases effect.created with none | ⟨new, sequence, now, same⟩
    · exact none
    · exact absurd same (notCreate new sequence now)
  subst nothing
  have rows : ∀ row, row ∈ (CommandProtocol.step plane.commands call).commands ↔
      ∃ command ∈ plane.commands.commands, row = rewrite command := by
    intro row
    rw [effect.mem_iff]
    simp
  have moves := effect.moves
  -- No command becomes retryable again.
  have retryable : ∀ command ∈ plane.commands.commands, (rewrite command).retryable = true →
      command.retryable = true := by
    intro command member opened
    have move := moves command member
    generalize rewrite command = moved at move opened
    cases move with
    | kept | started | renewed => exact opened
    | dispatched _ retryable => exact retryable
    | effective => cases opened
    | failed _ status => exact sound.engagedOpen command member status
  have opened : ∀ deploymentId, (plane.withCommands (CommandProtocol.step plane.commands call)).DeployOpen
      deploymentId → plane.DeployOpen deploymentId := by
    rintro deploymentId ⟨row, member, deploy, same, isOpen⟩
    obtain ⟨command, commandMember, rfl⟩ := (rows row).mp member
    obtain ⟨action, subject, -⟩ := (moves command commandMember).subject
    exact ⟨command, commandMember, action.symm.trans deploy, subject.symm.trans same,
      retryable command commandMember isOpen⟩
  have falls : ∀ candidateId previousId, (plane.withCommands (CommandProtocol.step plane.commands call)).Fallback
      candidateId previousId → plane.Fallback candidateId previousId := by
    rintro candidateId _ ⟨candidate, previous, present, isOpen⟩
    exact ⟨candidate, previous, present, opened candidateId isOpen⟩
  refine ⟨?_, ?_, fun _ => Iff.rfl, ?_⟩
  · exact {
      consistent := sound.consistent
      ordered := CommandProtocol.ordered_step plane.commands call sound.ordered
      engagedOpen := by
        intro row member status
        obtain ⟨command, commandMember, rfl⟩ := (rows row).mp member
        have move := moves command commandMember
        have engaged := sound.engagedOpen command commandMember
        generalize rewrite command = moved at move status ⊢
        cases move with
        | kept => exact engaged status
        | dispatched _ retryable => exact retryable
        | started _ before => exact engaged (.inl before)
        | renewed _ before => exact engaged (.inr before)
        | effective | failed => rcases status with status | status <;> cases status
      keys := by
        intro row member
        obtain ⟨command, commandMember, rfl⟩ := (rows row).mp member
        obtain ⟨action, subject, key⟩ := (moves command commandMember).subject
        obtain ⟨-, transition, -⟩ := (moves command commandMember).identity
        rw [key, sound.keys command commandMember]
        simp only [keyOf, action, subject, transition]
      keysUnique := by
        intro row member other otherMember same
        obtain ⟨command, commandMember, rfl⟩ := (rows row).mp member
        obtain ⟨otherCommand, otherCommandMember, rfl⟩ := (rows other).mp otherMember
        rw [(moves command commandMember).subject.2.2,
          (moves otherCommand otherCommandMember).subject.2.2] at same
        rw [sound.keysUnique command commandMember otherCommand otherCommandMember same]
      commandDeployment := by
        intro row member
        obtain ⟨command, commandMember, rfl⟩ := (rows row).mp member
        rw [(moves command commandMember).subject.2.1]
        exact sound.commandDeployment command commandMember
      activeNotStopped := sound.activeNotStopped
      previousSettled := sound.previousSettled
      waitingStopped := sound.waitingStopped
      unstarted := sound.unstarted }
  · intro deploymentId retired
    refine ⟨retired.known, retired.settled, retired.stopping, ?_⟩
    refine retired.guarded.step falls (fun _ live => .inl live) ?_
    intro source held _
    obtain ⟨inactive, deployment, member, same, pending, previousId, recorded, command, commandMember, deploy, target,
      stop, stopMember, isStop, stopTarget, transition, lower, waiting⟩ := id held
    by_cases effective : (rewrite stop).status = .effective
    · -- The stop took effect, so the predecessor is gone and there is nothing to fall back to.
      right
      rintro next ⟨⟨candidate, candidateMember, candidateId, candidateRecorded⟩,
        ⟨previous, previousMember, previousSame, started⟩, present, -⟩
      have candidateIs : candidate = deployment :=
        Table.eq_of_key candidateMember member (candidateId.trans same.symm)
      rw [candidateIs, recorded, Option.some.injEq] at candidateRecorded
      subst candidateRecorded
      obtain ⟨token, now, marked⟩ := (moves stop stopMember).marked effective waiting
      obtain ⟨ended, endedMember, endedId, status⟩ := verified stop stopMember token now marked isStop
      have endedIs : ended = previous :=
        Table.eq_of_key endedMember previousMember (endedId.trans (stopTarget.trans previousSame.symm))
      rw [endedIs] at status
      rcases status with stopped | failed
      · exact sound.waitingStopped deployment member previous previousMember (by rw [recorded, previousSame])
          (by rw [pending]; rfl) stopped (previousSame ▸ present)
      · rw [sound.unstarted previous previousMember (.inr failed)] at started
        cases started
    · left
      have commandMove := moves command commandMember
      have stopMove := moves stop stopMember
      refine ⟨inactive, deployment, member, same, pending, previousId, recorded, rewrite command,
        (rows _).mpr ⟨command, commandMember, rfl⟩, commandMove.subject.1.trans deploy,
        commandMove.subject.2.1.trans target, rewrite stop, (rows _).mpr ⟨stop, stopMember, rfl⟩,
        stopMove.subject.1.trans isStop, stopMove.subject.2.1.trans stopTarget, ?_, ?_, effective⟩
      · rw [stopMove.identity.2.1, commandMove.identity.2.1, transition]
      · rw [stopMove.identity.2.2, commandMove.identity.2.2]
        exact lower
  · intro projectId _ quiesced project member same activeId active previousId next
    exact quiesced project member same activeId active previousId (falls _ _ next)

/-! ## Creation -/

/-- The row that `create` inserts for a deployment. -/
def commandRow (origin : Origin) (action : RuntimeCommandAction) (deployment : Deployment) : RuntimeCommand :=
  (origin.command action deployment).row (origin.sequence action deployment.id) origin.now

/-- The new row is appended, above every command of its transition. -/
structure Appended (plane next : ControlPlane) (new : RuntimeCommand) : Prop where
  eq : next = plane.withCommands next.commands
  inserted : plane.commands.commands.insert new = some next.commands.commands
  ordered : CommandProtocol.Ordered plane.commands → CommandProtocol.Ordered next.commands
  fresh : ∀ command ∈ plane.commands.commands, command.idempotencyKey ≠ new.idempotencyKey
  above : ∀ command ∈ plane.commands.commands, command.transitionId = new.transitionId →
    command.sequence < new.sequence

theorem create_eq_step {store next : CommandStore} {new : CommandStore.NewCommand} {sequence : Nat}
    {now : Instant} {command : RuntimeCommand} (created : store.create new sequence now = .ok (next, command)) :
    CommandProtocol.step store (.create new sequence now) = next := by
  simp [CommandProtocol.step, created, Except.map]

theorem createCommand_cases {next : ControlPlane} {origin : Origin} {action : RuntimeCommandAction}
    {deployment : Deployment} (created : plane.createCommand origin action deployment = .ok next) :
    (next = plane ∧ ∃ command ∈ plane.commands.commands,
      command.idempotencyKey = (commandRow origin action deployment).idempotencyKey) ∨
    Appended plane next (commandRow origin action deployment) := by
  simp only [ControlPlane.createCommand, bind_eq_ok] at created
  obtain ⟨⟨commands, command⟩, created, written⟩ := created
  cases written
  have stepped := create_eq_step created
  unfold CommandStore.create at created
  split at created
  · rename_i found
    cases created
    refine .inl ⟨rfl, command, List.mem_of_find?_eq_some found, ?_⟩
    have same := List.find?_some found
    simp only [decide_eq_true_eq] at same
    exact same
  · rename_i absent
    split at created
    · rename_i allowed
      split at created
      · rename_i rows inserted
        cases created
        refine .inr ⟨rfl, inserted, ?_, ?_, ?_⟩
        · intro ordered
          have after := CommandProtocol.ordered_step _ (.create (origin.command action deployment)
            (origin.sequence action deployment.id) origin.now) ordered
          rw [stepped] at after
          exact after
        · intro command member
          have different := List.find?_eq_none.mp absent command member
          simp only [decide_eq_true_eq] at different
          exact different
        · intro command member same
          simp only [CommandStore.identityAllows, Bool.not_eq_true', Table.exists_eq_false] at allowed
          have below := allowed command member
          have sameTransition : command.transitionId = (origin.command action deployment).transitionId := same
          simp only [sameTransition, decide_true, Bool.true_and, Bool.or_eq_false_iff,
            decide_eq_false_iff_not] at below
          exact Nat.lt_of_not_le below.2
      · cases created
    · cases created

theorem commandRow_key (origin : Origin) (action : RuntimeCommandAction) (deployment : Deployment) :
    (commandRow origin action deployment).idempotencyKey = keyOf (commandRow origin action deployment) := by
  cases action <;> rfl

namespace Appended

variable {next : ControlPlane} {new : RuntimeCommand}

theorem store (appended : Appended plane next new) : next.store = plane.store := by
  rw [appended.eq]
  rfl

theorem containers (appended : Appended plane next new) : next.containers = plane.containers := by
  rw [appended.eq]
  rfl

theorem mem_iff (appended : Appended plane next new) {command : RuntimeCommand} :
    command ∈ next.commands.commands ↔ command ∈ plane.commands.commands ∨ command = new :=
  Table.mem_insert appended.inserted

theorem active (appended : Appended plane next new) (deploymentId : Uuid) :
    next.Active deploymentId ↔ plane.Active deploymentId := by
  unfold Active
  rw [appended.store]

theorem sound (appended : Appended plane next new) (sound : Sound plane) (pending : new.status = .pending)
    (key : new.idempotencyKey = keyOf new)
    (known : ∃ deployment ∈ plane.store.deployments, deployment.id = new.deploymentId) : Sound next where
  consistent := by rw [appended.store]; exact sound.consistent
  ordered := appended.ordered sound.ordered
  engagedOpen := by
    intro command member status
    rcases appended.mem_iff.mp member with old | rfl
    · exact sound.engagedOpen command old status
    · rw [pending] at status
      rcases status with status | status <;> cases status
  keys := by
    intro command member
    rcases appended.mem_iff.mp member with old | rfl
    · exact sound.keys command old
    · exact key
  keysUnique := by
    intro command member other otherMember same
    rcases appended.mem_iff.mp member with old | rfl
    · rcases appended.mem_iff.mp otherMember with otherOld | rfl
      · exact sound.keysUnique command old other otherOld same
      · exact absurd same (appended.fresh command old)
    · rcases appended.mem_iff.mp otherMember with otherOld | rfl
      · exact absurd same.symm (appended.fresh other otherOld)
      · rfl
  commandDeployment := by
    rw [appended.store]
    intro command member
    rcases appended.mem_iff.mp member with old | rfl
    · exact sound.commandDeployment command old
    · exact known
  activeNotStopped := by rw [appended.store]; exact sound.activeNotStopped
  previousSettled := by rw [appended.store]; exact sound.previousSettled
  waitingStopped := by rw [appended.store, appended.containers]; exact sound.waitingStopped
  unstarted := by rw [appended.store]; exact sound.unstarted

theorem blocked (appended : Appended plane next new) {deploymentId : Uuid}
    (blocked : plane.Blocked deploymentId) : next.Blocked deploymentId := by
  obtain ⟨inactive, deployment, member, same, pending, previousId, recorded, command, commandMember, deploy,
    target, stop, stopMember, rest⟩ := blocked
  refine ⟨fun active => inactive ((appended.active deploymentId).mp active), deployment, ?_, same, pending,
    previousId, recorded, command, appended.mem_iff.mpr (.inl commandMember), deploy, target, stop,
    appended.mem_iff.mpr (.inl stopMember), rest⟩
  rw [appended.store]
  exact member

theorem fallback_of_stop (appended : Appended plane next new) (isStop : new.action = .stop)
    {candidateId previousId : Uuid} (falls : next.Fallback candidateId previousId) :
    plane.Fallback candidateId previousId := by
  obtain ⟨candidate, previous, present, command, member, deploy, target, isOpen⟩ := falls
  rw [appended.store] at candidate previous
  rw [appended.containers] at present
  refine ⟨candidate, previous, present, command, ?_, deploy, target, isOpen⟩
  rcases appended.mem_iff.mp member with old | rfl
  · exact old
  · rw [isStop] at deploy
    cases deploy

theorem live (appended : Appended plane next new) {deploymentId : Uuid} (live : next.Live deploymentId) :
    plane.Live deploymentId := by
  unfold Live at live ⊢
  rw [appended.store, appended.active] at live
  exact live

/-- Asking for a stop opens no way back. -/
theorem advance_of_stop (appended : Appended plane next new) (sound : Sound plane)
    (isStop : new.action = .stop) (pending : new.status = .pending) (key : new.idempotencyKey = keyOf new)
    (known : ∃ deployment ∈ plane.store.deployments, deployment.id = new.deploymentId) :
    Advance plane next where
  sound := appended.sound sound pending key known
  retired deploymentId retired := by
    refine ⟨?_, ?_, ?_, ?_⟩
    · rw [appended.store]
      exact retired.known
    · rw [appended.store]
      exact retired.settled
    · rw [appended.active, appended.store, appended.containers]
      exact retired.stopping
    · exact retired.guarded.step (fun _ _ => appended.fallback_of_stop isStop)
        (fun _ live => .inl (appended.live live)) (fun _ held _ => .inl (appended.blocked held))
  disabled projectId := by
    unfold Disabled
    rw [appended.store]
  quiesced projectId _ quiesced := by
    unfold Quiesced at quiesced ⊢
    rw [appended.store]
    intro project member same activeId active previousId falls
    exact quiesced project member same activeId active previousId (appended.fallback_of_stop isStop falls)

end Appended

/-! ## Scheduling stops -/

/-- The map of a scheduled stop. -/
def stoppingRow (targets : List Uuid) (row : Deployment) : Deployment :=
  if row.id ∈ targets ∧ row.status ≠ .stopped ∧ row.status ≠ .failed then { row with status := .stopping } else row

/-- What scheduling the stops of some deployments does: they are `STOPPING`, and a stop command of the
transition asks for each of them. -/
structure Stops (plane next : ControlPlane) (transitionId : Uuid) (targets : List Uuid) : Prop where
  advance : Advance plane next
  rewrite : Rewrite plane.store next.store (stoppingRow targets) id
  containers : next.containers = plane.containers
  overlays : next.overlays = plane.overlays
  kept : ∀ command ∈ plane.commands.commands, command ∈ next.commands.commands
  added : ∀ command ∈ next.commands.commands, command ∈ plane.commands.commands ∨
    command.action = .stop ∧ command.deploymentId ∈ targets ∧ command.transitionId = transitionId ∧
      command.status = .pending
  asked : ∀ deploymentId ∈ targets, ∃ command ∈ next.commands.commands, command.action = .stop ∧
    command.deploymentId = deploymentId ∧ command.transitionId = transitionId

theorem stoppingRow_identity (targets : List Uuid) (row : Deployment) :
    SameIdentity row (stoppingRow targets row) := by
  unfold stoppingRow
  split <;> exact ⟨rfl, rfl, rfl, rfl⟩

theorem stoppingRow_startedAt (targets : List Uuid) (row : Deployment) :
    (stoppingRow targets row).startedAt = row.startedAt := by
  unfold stoppingRow
  split <;> rfl

theorem stoppingRow_status {targets : List Uuid} {row : Deployment} (target : row.id ∈ targets)
    (notStopped : row.status ≠ .stopped) (notFailed : row.status ≠ .failed) :
    (stoppingRow targets row).status = .stopping := by
  unfold stoppingRow
  rw [if_pos ⟨target, notStopped, notFailed⟩]

theorem stoppingRow_nil (row : Deployment) : stoppingRow [] row = row := by
  simp [stoppingRow]

theorem stoppingRow_append (first second : List Uuid) (row : Deployment) :
    stoppingRow second (stoppingRow first row) = stoppingRow (first ++ second) row := by
  by_cases stoppable : row.status ≠ .stopped ∧ row.status ≠ .failed
  · by_cases inFirst : row.id ∈ first
    · by_cases inSecond : row.id ∈ second <;> simp [stoppingRow, inFirst, stoppable]
    · simp [stoppingRow, inFirst]
  · have kept : ∀ targets, stoppingRow targets row = row := by
      intro targets
      unfold stoppingRow
      rw [if_neg fun stopped => stoppable stopped.2]
    rw [kept, kept, kept]

theorem Stops.refl (sound : Sound plane) (transitionId : Uuid) : Stops plane plane transitionId [] where
  advance := Advance.refl sound
  rewrite := by
    have unchanged : stoppingRow [] = id := funext stoppingRow_nil
    rw [unchanged]
    exact Rewrite.refl plane.store
  containers := rfl
  overlays := rfl
  kept _ member := member
  added _ member := .inl member
  asked _ member := by cases member

theorem Stops.trans {middle next : ControlPlane} {transitionId : Uuid} {first second : List Uuid}
    (left : Stops plane middle transitionId first) (right : Stops middle next transitionId second) :
    Stops plane next transitionId (first ++ second) where
  advance := left.advance.trans right.advance
  rewrite := by
    have composed : stoppingRow second ∘ stoppingRow first = stoppingRow (first ++ second) :=
      funext (stoppingRow_append first second)
    rw [← composed]
    exact left.rewrite.trans right.rewrite
  containers := right.containers.trans left.containers
  overlays := right.overlays.trans left.overlays
  kept command member := right.kept command (left.kept command member)
  added command member := by
    rcases right.added command member with old | ⟨stop, target, rest⟩
    · rcases left.added command old with older | ⟨stop, target, rest⟩
      · exact .inl older
      · exact .inr ⟨stop, List.mem_append_left _ target, rest⟩
    · exact .inr ⟨stop, List.mem_append_right _ target, rest⟩
  asked deploymentId member := by
    rcases List.mem_append.mp member with inFirst | inSecond
    · obtain ⟨command, commandMember, rest⟩ := left.asked deploymentId inFirst
      exact ⟨command, right.kept command commandMember, rest⟩
    · exact right.asked deploymentId inSecond

theorem quiet_stopping (sound : Sound plane) (targets : List Uuid) {row : Deployment}
    (member : row ∈ plane.store.deployments) : QuietMove plane row (stoppingRow targets row) := by
  unfold stoppingRow
  split
  · exact {
      progress := nofun
      stopped := nofun
      stopping := fun _ => rfl
      started := id
      unstarted := by rintro (status | status) <;> cases status
      pending := fun _ => .inr rfl }
  · exact sound.quiet_refl member

theorem stopping_running {targets : List Uuid} {row : Deployment}
    (running : (stoppingRow targets row).status = .running) : row.status = .running := by
  unfold stoppingRow at running
  split at running
  · cases running
  · exact running

/-- The deployments part of one scheduled stop. -/
theorem scheduleStop_rewrite {store next : DeploymentStore} {deployment : Deployment}
    (found : store.deployments.get? deployment.id = some deployment)
    (written : store.scheduleStop deployment = .ok next) :
    Rewrite store next (stoppingRow [deployment.id]) id := by
  have onlyRow : ∀ values : Deployment → Deployment, (∀ row ∈ store.deployments, row.id = deployment.id →
      stoppingRow [deployment.id] row = values row) → ∀ row ∈ store.deployments,
      onRow deployment.id (fun _ => true) values row = stoppingRow [deployment.id] row := by
    intro values same row member
    by_cases chosen : row.id = deployment.id
    · rw [same row member chosen]
      simp [onRow, chosen]
    · simp [onRow, stoppingRow, chosen]
  have unchanged : (deployment.status = .stopping ∨ deployment.status = .stopped ∨ deployment.status = .failed) →
      Rewrite store store (stoppingRow [deployment.id]) id := by
    intro status
    refine ⟨?_, by simp, stoppingRow_identity _, fun _ => rfl⟩
    conv => lhs; rw [← List.map_id store.deployments.rows]
    apply List.map_congr_left
    intro row member
    by_cases chosen : row.id = deployment.id
    · rw [Table.eq_of_key member (Table.mem_of_get? found) chosen]
      rcases status with status | status | status
      · simp only [id, stoppingRow]
        split
        · rw [← status]
        · rfl
      · simp [stoppingRow, status]
      · simp [stoppingRow, status]
    · simp [stoppingRow, chosen]
  unfold DeploymentStore.scheduleStop at written
  split at written
  · rename_i stopping
    cases written
    exact unchanged (.inl stopping)
  · rename_i notStopping
    split at written
    · rename_i stopped transitioned
      cases written
      obtain ⟨row, rowFound, expected, rewrite⟩ := DeploymentStore.transition_spec transitioned
      rw [found, Option.some.injEq] at rowFound
      subst rowFound
      refine ⟨?_, rewrite.projects, stoppingRow_identity _, fun _ => rfl⟩
      rw [rewrite.deployments]
      apply List.map_congr_left
      refine onlyRow _ ?_
      intro row member same
      rw [Table.eq_of_key member (Table.mem_of_get? found) same]
      cases status : deployment.status <;> simp_all [stoppingRow, DeploymentStore.TransitionValues.apply]
    · rename_i refused
      rw [found] at written
      cases written
      apply unchanged
      simp only [DeploymentStore.transition, DeploymentStore.assignWhere, found] at refused
      cases status : deployment.status <;> simp_all

theorem scheduleStopInSession_stops (sound : Sound plane) {next : ControlPlane} {origin : Origin}
    {deployment : Deployment} (found : plane.store.deployments.get? deployment.id = some deployment)
    (scheduled : plane.scheduleStopInSession origin deployment = .ok next) :
    Stops plane next origin.transitionId [deployment.id] := by
  simp only [ControlPlane.scheduleStopInSession, bind_eq_ok] at scheduled
  obtain ⟨store, written, created⟩ := scheduled
  have rewrite := scheduleStop_rewrite found written
  have quiet := fun row (member : row ∈ plane.store.deployments) => quiet_stopping sound [deployment.id] member
  have consistent : Consistent store := consistent_of_quiet sound.consistent rewrite
    (fun _ _ running => stopping_running running) (fun row member => (quiet row member).progress)
  have change := quiet_change sound rewrite consistent (fun _ => rfl) quiet
  have advance := change.advance sound fun _ => rfl
  have known : ∃ row ∈ store.deployments, row.id = deployment.id :=
    ⟨_, rewrite.mem_deployments.mpr ⟨deployment, Table.mem_of_get? found, rfl⟩, (rewrite.identity deployment).id⟩
  rcases createCommand_cases created with ⟨rfl, existing, member, sameKey⟩ | appended
  · -- The command exists already, so its key says what it asks for.
    have key := sound.keys existing member
    rw [sameKey] at key
    have subject : existing.action = .stop ∧ existing.deploymentId = deployment.id ∧
        existing.transitionId = origin.transitionId := by
      change IdempotencyKey.stop deployment.id origin.transitionId = keyOf existing at key
      unfold keyOf at key
      cases action : existing.action with
      | deploy =>
        rw [action] at key
        cases key
      | stop =>
        rw [action] at key
        injection key with sameDeployment sameTransition
        exact ⟨rfl, sameDeployment.symm, sameTransition.symm⟩
    exact {
      advance := advance
      rewrite := rewrite
      containers := rfl
      overlays := rfl
      kept := fun _ member => member
      added := fun _ member => .inl member
      asked := by
        intro deploymentId target
        rw [List.mem_singleton] at target
        exact ⟨existing, member, subject.1, subject.2.1.trans target.symm, subject.2.2⟩ }
  · exact {
      advance := advance.trans (appended.advance_of_stop advance.sound rfl rfl (commandRow_key _ _ _) known)
      rewrite := by
        rw [appended.store]
        exact rewrite
      containers := appended.containers
      overlays := by
        rw [appended.eq]
        rfl
      kept := fun _ member => appended.mem_iff.mpr (.inl member)
      added := by
        intro command member
        rcases appended.mem_iff.mp member with old | rfl
        · exact .inl old
        · exact .inr ⟨rfl, List.mem_singleton.mpr rfl, rfl, rfl⟩
      asked := by
        intro deploymentId target
        rw [List.mem_singleton] at target
        exact ⟨_, appended.mem_iff.mpr (.inr rfl), rfl, target.symm, rfl⟩ }

theorem scheduleStops_stops (sound : Sound plane) {next : ControlPlane} {origin : Origin}
    {deployments : List Deployment}
    (found : ∀ deployment ∈ deployments, plane.store.deployments.get? deployment.id = some deployment)
    (apart : (deployments.map Deployment.id).Nodup)
    (scheduled : plane.scheduleStops origin deployments = .ok next) :
    Stops plane next origin.transitionId (deployments.map Deployment.id) := by
  induction deployments generalizing plane with
  | nil =>
    cases scheduled
    exact Stops.refl sound origin.transitionId
  | cons deployment rest ih =>
    simp only [ControlPlane.scheduleStops, bind_eq_ok] at scheduled
    obtain ⟨middle, first, scheduled⟩ := scheduled
    rw [List.map_cons, List.nodup_cons] at apart
    have stops := scheduleStopInSession_stops sound (found deployment List.mem_cons_self) first
    have restFound : ∀ other ∈ rest, middle.store.deployments.get? other.id = some other := by
      intro other member
      rw [stops.rewrite.get?_deployment, found other (List.mem_cons_of_mem _ member), Option.map_some]
      have different : other.id ≠ deployment.id := fun same =>
        apart.1 (same ▸ List.mem_map_of_mem member)
      simp [stoppingRow, different]
    exact stops.trans (ih stops.advance.sound restFound apart.2 scheduled)

/-- The list a project-wide stop walks through is a list of current rows. -/
theorem listStoppable_found {store : DeploymentStore} {projectId : Uuid} {deployment : Deployment}
    (listed : deployment ∈ store.listStoppableForProject projectId) :
    store.deployments.get? deployment.id = some deployment ∧ deployment.projectId = projectId ∧
      DeploymentStore.stoppable deployment.status = true := by
  obtain ⟨member, selected⟩ := Table.mem_of_mem_select listed
  simp only [Bool.and_eq_true, decide_eq_true_eq] at selected
  exact ⟨Table.get?_of_mem member, selected⟩

theorem listStoppable_nodup (store : DeploymentStore) (projectId : Uuid) :
    ((store.listStoppableForProject projectId).map Deployment.id).Nodup :=
  Table.select_keys_nodup _ _ _ _

/-- The deployments a project-wide stop asks to stop. -/
def stopTargets (plane : ControlPlane) (projectId : Uuid) : List Uuid :=
  (plane.store.listStoppableForProject projectId).map Deployment.id

theorem scheduleStopProject_stops (sound : Sound plane) {next : ControlPlane} {origin : Origin} {projectId : Uuid}
    (scheduled : plane.scheduleStopProject origin projectId = .ok next) :
    Stops plane next origin.transitionId (plane.stopTargets projectId) := by
  simp only [ControlPlane.scheduleStopProject, bind_eq_ok] at scheduled
  obtain ⟨-, -, scheduled⟩ := scheduled
  exact scheduleStops_stops sound (fun _ listed => (listStoppable_found listed).1)
    (listStoppable_nodup plane.store projectId) scheduled

/-! ## Retirement by a stop -/

/-- Asking for these stops leaves no way back to the target: it is asked to stop itself where it could go
on, and nothing that stays live falls back to it. -/
structure CutOff (plane : ControlPlane) (asked : List Uuid) (target : Uuid) : Prop where
  known : ∃ deployment ∈ plane.store.deployments, deployment.id = target
  inProgress : ∀ deployment ∈ plane.store.deployments, deployment.id = target →
    deployment.status.inProgress = true → target ∈ asked
  active : plane.Active target → ∀ deployment ∈ plane.store.deployments, deployment.id = target →
    deployment.startedAt.isSome = true → target ∈ plane.containers → target ∈ asked
  unreached : ∀ source, plane.Live source → (plane.Active source ∨ source ∉ asked) →
    ¬ TransGen plane.Fallback source target

section Stopped

variable {next : ControlPlane} {transitionId : Uuid} {targets : List Uuid}

theorem Stops.active (stops : Stops plane next transitionId targets) {deploymentId : Uuid}
    (active : next.Active deploymentId) : plane.Active deploymentId := by
  obtain ⟨project, member, pointer⟩ := active
  obtain ⟨_, oldMember, rfl⟩ := stops.rewrite.mem_projects.mp member
  exact ⟨project, oldMember, pointer⟩

theorem Stops.fallback (stops : Stops plane next transitionId targets) {candidateId previousId : Uuid}
    (falls : next.Fallback candidateId previousId) : plane.Fallback candidateId previousId := by
  obtain ⟨⟨candidate, candidateMember, candidateSame, recorded⟩, ⟨previous, previousMember, previousSame, started⟩,
    present, command, member, deploy, target, isOpen⟩ := falls
  obtain ⟨oldCandidate, oldCandidateMember, rfl⟩ := stops.rewrite.mem_deployments.mp candidateMember
  obtain ⟨oldPrevious, oldPreviousMember, rfl⟩ := stops.rewrite.mem_deployments.mp previousMember
  rw [(stops.rewrite.identity oldCandidate).id] at candidateSame
  rw [(stops.rewrite.identity oldCandidate).previous] at recorded
  rw [(stops.rewrite.identity oldPrevious).id] at previousSame
  rw [stoppingRow_startedAt] at started
  rw [stops.containers] at present
  refine ⟨⟨oldCandidate, oldCandidateMember, candidateSame, recorded⟩,
    ⟨oldPrevious, oldPreviousMember, previousSame, started⟩, present, command, ?_, deploy, target, isOpen⟩
  rcases stops.added command member with existing | ⟨stop, -⟩
  · exact existing
  · rw [stop] at deploy
    cases deploy

/-- What is live after the stops was live and is active or was not stopped. -/
theorem Stops.live (stops : Stops plane next transitionId targets) {deploymentId : Uuid}
    (live : next.Live deploymentId) :
    plane.Live deploymentId ∧ (plane.Active deploymentId ∨ deploymentId ∉ targets) := by
  rcases live with ⟨deployment, member, same, inProgress⟩ | active
  · obtain ⟨old, oldMember, rfl⟩ := stops.rewrite.mem_deployments.mp member
    rw [(stops.rewrite.identity old).id] at same
    unfold stoppingRow at inProgress
    split at inProgress
    · cases inProgress
    · rename_i kept
      refine ⟨.inl ⟨old, oldMember, same, inProgress⟩, .inr fun target => kept ?_⟩
      rw [same]
      refine ⟨target, ?_, ?_⟩
      · intro stopped
        rw [stopped] at inProgress
        cases inProgress
      · intro failed
        rw [failed] at inProgress
        cases inProgress
  · exact ⟨.inr (stops.active active), .inl (stops.active active)⟩

theorem Stops.retired (stops : Stops plane next transitionId targets) (sound : Sound plane) {target : Uuid}
    (cut : CutOff plane targets target) : next.Retired target where
  known := by
    obtain ⟨deployment, member, same⟩ := cut.known
    exact ⟨_, stops.rewrite.mem_deployments.mpr ⟨deployment, member, rfl⟩,
      (stops.rewrite.identity deployment).id.trans same⟩
  settled := by
    intro row member same
    obtain ⟨old, oldMember, rfl⟩ := stops.rewrite.mem_deployments.mp member
    rw [(stops.rewrite.identity old).id] at same
    cases inProgress : old.status.inProgress with
    | true =>
      have asked := cut.inProgress old oldMember same inProgress
      rw [stoppingRow_status (same ▸ asked) (by rintro status; simp [status, DeploymentStatus.inProgress] at inProgress)
        (by rintro status; simp [status, DeploymentStatus.inProgress] at inProgress)]
      rfl
    | false =>
      unfold stoppingRow
      split
      · rfl
      · exact inProgress
  stopping := by
    intro active row member same started present
    obtain ⟨old, oldMember, rfl⟩ := stops.rewrite.mem_deployments.mp member
    rw [(stops.rewrite.identity old).id] at same
    rw [stoppingRow_startedAt] at started
    rw [stops.containers] at present
    have asked := cut.active (stops.active active) old oldMember same started present
    obtain ⟨project, projectMember, pointer⟩ := stops.active active
    apply stoppingRow_status (same ▸ asked)
    · exact sound.activeNotStopped project projectMember old oldMember (by rw [pointer, same])
    · intro failed
      rw [sound.unstarted old oldMember (.inr failed)] at started
      cases started
  guarded := by
    intro source live path
    obtain ⟨wasLive, remains⟩ := stops.live live
    exact absurd (TransGen.mono (fun _ _ => stops.fallback) _ _ path) (cut.unreached source wasLive remains)

end Stopped

end Mcplica.Deployments.ControlPlane
