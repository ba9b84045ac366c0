import Mcplica.Deployments.RequestChange

/-! # What a committed transaction does

One statement for every action of the control plane: the invariant holds again, what was retired stays
retired, what the transaction cuts off is retired, and only a candidate of an enabled project or a
deployment that is fallen back to is made `RUNNING`. -/

namespace Mcplica.Deployments.ControlPlane

open Mcplica.Domain Mcplica.Library Relation

/-- No deployment becomes `RUNNING`. -/
def Rests (plane next : ControlPlane) : Prop :=
  ∀ deployment ∈ next.store.deployments, deployment.status = .running →
    ∃ old ∈ plane.store.deployments, old.id = deployment.id ∧ old.status = .running

/-- No stop is asked for. -/
def KeepsStops (plane next : ControlPlane) : Prop :=
  ∀ command ∈ next.commands.commands, command.action = .stop →
    ∃ old ∈ plane.commands.commands, old.action = .stop ∧ old.deploymentId = command.deploymentId

/-- The effect of a committed transaction that asks for some stops and may disable a project. -/
structure Outcome (plane next : ControlPlane) (asked : List Uuid) (disabling : Option Uuid) : Prop where
  sound : Sound next
  retired : ∀ deploymentId, plane.Retired deploymentId → next.Retired deploymentId
  cutOff : ∀ deploymentId, CutOff plane asked deploymentId → next.Retired deploymentId
  runs : Runs plane next
  stops : ∀ command ∈ next.commands.commands, command.action = .stop →
    (∃ old ∈ plane.commands.commands, old.action = .stop ∧ old.deploymentId = command.deploymentId) ∨
    command.deploymentId ∈ asked
  disabled : ∀ projectId, next.Disabled projectId → plane.Disabled projectId ∨ disabling = some projectId
  quiesced : ∀ projectId, next.Disabled projectId → plane.Quiesced projectId → next.Quiesced projectId

variable {plane middle next : ControlPlane} {asked : List Uuid} {disabling : Option Uuid}

/-! ## Building outcomes -/

theorem Rests.refl (plane : ControlPlane) : Rests plane plane :=
  fun deployment member running => ⟨deployment, member, rfl, running⟩

theorem Rests.trans (first : Rests plane middle) (second : Rests middle next) : Rests plane next := by
  intro deployment member running
  obtain ⟨between, betweenMember, same, betweenRunning⟩ := second deployment member running
  obtain ⟨old, oldMember, oldSame, oldRunning⟩ := first between betweenMember betweenRunning
  exact ⟨old, oldMember, oldSame.trans same, oldRunning⟩

theorem Rests.runs (rests : Rests plane next) : Runs plane next := by
  intro deployment member running
  obtain ⟨old, oldMember, same, oldRunning⟩ := rests deployment member running
  exact ⟨old, oldMember, same, .inl oldRunning⟩

theorem rests_of_rewrite {row : Deployment → Deployment} {pointer : Project → Project}
    (rewrite : Rewrite plane.store next.store row pointer)
    (running : ∀ deployment ∈ plane.store.deployments, (row deployment).status = .running →
      deployment.status = .running) : Rests plane next := by
  intro deployment member status
  obtain ⟨old, oldMember, rfl⟩ := rewrite.mem_deployments.mp member
  exact ⟨old, oldMember, ((rewrite.identity old).id).symm, running old oldMember status⟩

theorem KeepsStops.of_eq (same : next.commands = plane.commands) : KeepsStops plane next := by
  intro command member stop
  rw [same] at member
  exact ⟨command, member, stop, rfl⟩

theorem Stops.rests {transitionId : Uuid} (stops : Stops plane next transitionId asked) : Rests plane next :=
  rests_of_rewrite stops.rewrite fun _ _ running => stopping_running running

theorem Stops.outcome {transitionId : Uuid} (stops : Stops plane next transitionId asked) (sound : Sound plane) :
    Outcome plane next asked none where
  sound := stops.advance.sound
  retired := stops.advance.retired
  cutOff _ cut := stops.retired sound cut
  runs := stops.rests.runs
  stops command member stop := by
    rcases stops.added command member with old | ⟨-, target, -⟩
    · exact .inl ⟨command, old, stop, rfl⟩
    · exact .inr target
  disabled projectId disabled := .inl ((stops.advance.disabled projectId).mp disabled)
  quiesced projectId disabled := stops.advance.quiesced projectId ((stops.advance.disabled projectId).mp disabled)

/-- A deployment that is cut off without a stop is retired already. -/
theorem CutOff.retired {deploymentId : Uuid} (cut : CutOff plane [] deploymentId) (sound : Sound plane) :
    plane.Retired deploymentId :=
  (Stops.refl sound 0).retired sound cut

theorem Advance.outcome (advance : Advance plane next) (sound : Sound plane) (runs : Runs plane next)
    (keeps : KeepsStops plane next) : Outcome plane next [] none where
  sound := advance.sound
  retired := advance.retired
  cutOff deploymentId cut := advance.retired deploymentId (cut.retired sound)
  runs := runs
  stops command member stop := .inl (keeps command member stop)
  disabled projectId disabled := .inl ((advance.disabled projectId).mp disabled)
  quiesced projectId disabled := advance.quiesced projectId ((advance.disabled projectId).mp disabled)

/-- A step that neither stops nor runs anything. -/
structure Calm (plane next : ControlPlane) : Prop where
  advance : Advance plane next
  rests : Rests plane next
  keeps : KeepsStops plane next

theorem Calm.refl (sound : Sound plane) : Calm plane plane :=
  ⟨Advance.refl sound, Rests.refl plane, .of_eq rfl⟩

theorem Calm.outcome (calm : Calm plane next) (sound : Sound plane) : Outcome plane next [] none :=
  calm.advance.outcome sound calm.rests.runs calm.keeps

theorem Calm.trans (first : Calm plane middle) (second : Calm middle next) : Calm plane next where
  advance := first.advance.trans second.advance
  rests := first.rests.trans second.rests
  keeps command member stop := by
    obtain ⟨between, betweenMember, betweenStop, same⟩ := second.keeps command member stop
    obtain ⟨old, oldMember, oldStop, oldSame⟩ := first.keeps between betweenMember betweenStop
    exact ⟨old, oldMember, oldStop, oldSame.trans same⟩

theorem Outcome.then_calm (outcome : Outcome plane middle asked disabling) (first : Rests plane middle)
    (calm : Calm middle next) : Outcome plane next asked disabling where
  sound := calm.advance.sound
  retired deploymentId retired := calm.advance.retired deploymentId (outcome.retired deploymentId retired)
  cutOff deploymentId cut := calm.advance.retired deploymentId (outcome.cutOff deploymentId cut)
  runs := (first.trans calm.rests).runs
  stops command member stop := by
    obtain ⟨old, oldMember, oldStop, same⟩ := calm.keeps command member stop
    rw [← same]
    exact outcome.stops old oldMember oldStop
  disabled projectId disabled := outcome.disabled projectId ((calm.advance.disabled projectId).mp disabled)
  quiesced projectId disabled quiesced := by
    have between := (calm.advance.disabled projectId).mp disabled
    exact calm.advance.quiesced projectId between (outcome.quiesced projectId between quiesced)

/-- A row change that runs nothing. -/
theorem RowChange.calm {row : Deployment → Deployment} {pointer : Project → Project}
    (change : RowChange plane next row pointer) (sound : Sound plane)
    (enabled : ∀ project, (pointer project).isEnabled = project.isEnabled)
    (running : ∀ deployment ∈ plane.store.deployments, (row deployment).status = .running →
      deployment.status = .running) : Calm plane next :=
  ⟨change.advance sound enabled, rests_of_rewrite change.rewrite running, .of_eq change.commands⟩

/-! ## Tables the invariant does not read -/

/-- Two states with the same deployments, commands and containers. -/
structure SameTables (plane other : ControlPlane) : Prop where
  store : other.store = plane.store
  commands : other.commands = plane.commands
  containers : other.containers = plane.containers

theorem SameTables.symm {other : ControlPlane} (same : SameTables plane other) : SameTables other plane :=
  ⟨same.store.symm, same.commands.symm, same.containers.symm⟩

/-- What reads only the deployments, the commands and the containers does not see the rest. -/
theorem SameTables.transfer {other : ControlPlane} (same : SameTables plane other) {P : ControlPlane → Prop}
    (blind : ∀ store commands containers accessTokens overlays accessTokens' overlays',
      P ⟨store, commands, accessTokens, containers, overlays⟩ →
      P ⟨store, commands, accessTokens', containers, overlays'⟩) (holds : P plane) : P other := by
  obtain ⟨store, commands, containers⟩ := same
  cases plane
  cases other
  cases store
  cases commands
  cases containers
  exact blind _ _ _ _ _ _ _ holds

theorem SameTables.sound {other : ControlPlane} (same : SameTables plane other) (sound : Sound plane) :
    Sound other := by
  refine same.transfer ?_ sound
  intro _ _ _ _ _ _ _ sound
  exact ⟨sound.consistent, sound.ordered, sound.engagedOpen, sound.keys, sound.keysUnique,
    sound.commandDeployment, sound.activeNotStopped, sound.previousSettled, sound.waitingStopped, sound.unstarted⟩

theorem SameTables.retired {other : ControlPlane} (same : SameTables plane other) {deploymentId : Uuid}
    (retired : plane.Retired deploymentId) : other.Retired deploymentId := by
  refine same.transfer (P := fun plane => plane.Retired deploymentId) ?_ retired
  intro _ _ _ _ _ _ _ retired
  exact ⟨retired.known, retired.settled, retired.stopping, retired.guarded⟩

theorem SameTables.cutOff {other : ControlPlane} (same : SameTables plane other) {deploymentId : Uuid}
    (cut : CutOff plane asked deploymentId) : CutOff other asked deploymentId := by
  refine same.transfer (P := fun plane => CutOff plane asked deploymentId) ?_ cut
  intro _ _ _ _ _ _ _ cut
  exact ⟨cut.known, cut.inProgress, cut.active, cut.unreached⟩

/-- A transaction may write the other tables first. -/
theorem SameTables.outcome (same : SameTables plane middle) (outcome : Outcome middle next asked disabling) :
    Outcome plane next asked disabling where
  sound := outcome.sound
  retired deploymentId retired := outcome.retired deploymentId (same.retired retired)
  cutOff deploymentId cut := outcome.cutOff deploymentId (same.cutOff cut)
  runs := same.symm.transfer (P := fun plane => Runs plane next) (fun _ _ _ _ _ _ _ runs => runs) outcome.runs
  stops := by
    rw [← same.commands]
    exact outcome.stops
  disabled := same.symm.transfer (P := fun plane => ∀ projectId, next.Disabled projectId →
    plane.Disabled projectId ∨ disabling = some projectId) (fun _ _ _ _ _ _ _ disabled => disabled) outcome.disabled
  quiesced := same.symm.transfer (P := fun plane => ∀ projectId, next.Disabled projectId →
    plane.Quiesced projectId → next.Quiesced projectId) (fun _ _ _ _ _ _ _ quiesced => quiesced) outcome.quiesced

theorem SameTables.calm (same : SameTables plane next) (sound : Sound plane) : Calm plane next where
  advance := {
    sound := same.sound sound
    retired := fun _ => same.retired
    disabled := by
      intro projectId
      unfold Disabled
      rw [same.store]
    quiesced := fun projectId _ => same.transfer (P := fun plane => plane.Quiesced projectId)
      fun _ _ _ _ _ _ _ quiesced => quiesced }
  rests := by
    intro deployment member running
    rw [same.store] at member
    exact ⟨deployment, member, rfl, running⟩
  keeps := .of_eq same.commands

end Mcplica.Deployments.ControlPlane
