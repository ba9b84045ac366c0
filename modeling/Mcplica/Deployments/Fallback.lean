import Mcplica.Deployments.ControlPlane
import Mcplica.Library.Guarded

/-! # Falling back to a predecessor

A candidate whose activation fails hands over to the deployment it was to replace. `Fallback` is the
relation "an execution of this deployment's deploy command may set that deployment to `RUNNING`", and a
deployment is `Retired` when no execution that can still act reaches it this way. Retirement is final:
every step of the control plane preserves it (`Retired` is established where a stop is scheduled). -/

namespace Mcplica.Deployments.ControlPlane

open Mcplica.Domain Mcplica.Library Relation

/-! ## Definitions -/

/-- The deploy command of the deployment can still be executed. -/
def DeployOpen (plane : ControlPlane) (deploymentId : Uuid) : Prop :=
  ∃ command ∈ plane.commands.commands, command.action = .deploy ∧ command.deploymentId = deploymentId ∧
    command.retryable = true

def Active (plane : ControlPlane) (deploymentId : Uuid) : Prop :=
  ∃ project ∈ plane.store.projects, project.activeDeploymentId = some deploymentId

/-- A failed activation of `candidateId` may restore `previousId`. -/
def Fallback (plane : ControlPlane) (candidateId previousId : Uuid) : Prop :=
  (∃ candidate ∈ plane.store.deployments, candidate.id = candidateId ∧
    candidate.previousActiveDeploymentId = some previousId) ∧
  (∃ previous ∈ plane.store.deployments, previous.id = previousId ∧ previous.startedAt.isSome = true) ∧
  previousId ∈ plane.containers ∧ plane.DeployOpen candidateId

/-- The deployment is on its way or is what its project points at. -/
def Live (plane : ControlPlane) (deploymentId : Uuid) : Prop :=
  (∃ deployment ∈ plane.store.deployments, deployment.id = deploymentId ∧ deployment.status.inProgress = true) ∨
  plane.Active deploymentId

/-- The deployment waits, untouched, for the stop of its predecessor in its own transition. -/
def Blocked (plane : ControlPlane) (deploymentId : Uuid) : Prop :=
  ¬ plane.Active deploymentId ∧
  ∃ deployment ∈ plane.store.deployments, deployment.id = deploymentId ∧ deployment.status = .pending ∧
    ∃ previousId, deployment.previousActiveDeploymentId = some previousId ∧
    ∃ command ∈ plane.commands.commands, command.action = .deploy ∧ command.deploymentId = deploymentId ∧
    ∃ stop ∈ plane.commands.commands, stop.action = .stop ∧ stop.deploymentId = previousId ∧
      stop.transitionId = command.transitionId ∧ stop.sequence < command.sequence ∧ stop.status ≠ .effective

structure Retired (plane : ControlPlane) (deploymentId : Uuid) : Prop where
  known : ∃ deployment ∈ plane.store.deployments, deployment.id = deploymentId
  settled : ∀ deployment ∈ plane.store.deployments, deployment.id = deploymentId →
    deployment.status.inProgress = false
  /-- While it is still active and could be fallen back to, it is `STOPPING`. -/
  stopping : plane.Active deploymentId → ∀ deployment ∈ plane.store.deployments, deployment.id = deploymentId →
    deployment.startedAt.isSome = true → deploymentId ∈ plane.containers → deployment.status = .stopping
  guarded : Guarded plane.Fallback plane.Live plane.Blocked deploymentId

def Disabled (plane : ControlPlane) (projectId : Uuid) : Prop :=
  ∃ project ∈ plane.store.projects, project.id = projectId ∧ project.isEnabled = false

/-- What the project points at has nothing to fall back to. -/
def Quiesced (plane : ControlPlane) (projectId : Uuid) : Prop :=
  ∀ project ∈ plane.store.projects, project.id = projectId →
    ∀ activeId, project.activeDeploymentId = some activeId → ∀ previousId, ¬ plane.Fallback activeId previousId

/-! ## The invariant of the control plane -/

def keyOf (command : RuntimeCommand) : IdempotencyKey :=
  match command.action with
  | .deploy => .deploy command.deploymentId
  | .stop => .stop command.deploymentId command.transitionId

structure Sound (plane : ControlPlane) : Prop where
  consistent : Consistent plane.store
  ordered : CommandProtocol.Ordered plane.commands
  /-- A command that is dispatched or running was retryable when it was dispatched. -/
  engagedOpen : ∀ command ∈ plane.commands.commands,
    command.status = .dispatched ∨ command.status = .running → command.retryable = true
  keys : ∀ command ∈ plane.commands.commands, command.idempotencyKey = keyOf command
  keysUnique : ∀ command ∈ plane.commands.commands, ∀ other ∈ plane.commands.commands,
    command.idempotencyKey = other.idempotencyKey → command = other
  commandDeployment : ∀ command ∈ plane.commands.commands,
    ∃ deployment ∈ plane.store.deployments, deployment.id = command.deploymentId
  activeNotStopped : ∀ project ∈ plane.store.projects, ∀ deployment ∈ plane.store.deployments,
    project.activeDeploymentId = some deployment.id → deployment.status ≠ .stopped
  /-- A deployment that another one recorded as its predecessor has left the in-progress statuses. -/
  previousSettled : ∀ deployment ∈ plane.store.deployments, ∀ previous ∈ plane.store.deployments,
    deployment.previousActiveDeploymentId = some previous.id → previous.status.inProgress = false
  /-- A predecessor that stopped before its candidate came up is gone. -/
  waitingStopped : ∀ deployment ∈ plane.store.deployments, ∀ previous ∈ plane.store.deployments,
    deployment.previousActiveDeploymentId = some previous.id → deployment.status.inProgress = true →
    previous.status = .stopped → previous.id ∉ plane.containers
  unstarted : ∀ deployment ∈ plane.store.deployments,
    deployment.status.inProgress = true ∨ deployment.status = .failed → deployment.startedAt = none

theorem sound_empty : Sound ControlPlane.empty where
  consistent := consistent_empty
  ordered := CommandProtocol.ordered_empty
  engagedOpen _ member := by cases member
  keys _ member := by cases member
  keysUnique _ member := by cases member
  commandDeployment _ member := by cases member
  activeNotStopped _ member := by cases member
  previousSettled _ member := by cases member
  waitingStopped _ member := by cases member
  unstarted _ member := by cases member

section

variable {plane : ControlPlane}

theorem Sound.deploy_unique (sound : Sound plane) {command other : RuntimeCommand}
    (member : command ∈ plane.commands.commands) (otherMember : other ∈ plane.commands.commands)
    (deploy : command.action = .deploy) (otherDeploy : other.action = .deploy)
    (same : command.deploymentId = other.deploymentId) : command = other := by
  apply sound.keysUnique command member other otherMember
  rw [sound.keys command member, sound.keys other otherMember]
  simp only [keyOf, deploy, otherDeploy, same]

/-- A deployment whose deploy command passes its checkpoint waits for nothing. -/
theorem Sound.not_blocked (sound : Sound plane) {command : RuntimeCommand}
    (member : command ∈ plane.commands.commands) (deploy : command.action = .deploy)
    (free : plane.commands.hasPredecessor command = false) : ¬ plane.Blocked command.deploymentId := by
  rintro ⟨-, -, -, -, -, -, -, other, otherMember, otherDeploy, same, stop, stopMember, -, -, transition,
    lower, pending⟩
  rw [sound.deploy_unique otherMember member otherDeploy deploy same] at transition lower
  exact pending (CommandStore.hasPredecessor_eq_false.mp free stop stopMember transition lower)

theorem Sound.active_row (sound : Sound plane) {deploymentId : Uuid} (active : plane.Active deploymentId) :
    ∃ project ∈ plane.store.projects, ∃ deployment ∈ plane.store.deployments,
      project.activeDeploymentId = some deploymentId ∧ deployment.id = deploymentId ∧
      deployment.projectId = project.id := by
  obtain ⟨project, projectMember, pointer⟩ := active
  obtain ⟨deployment, member, same, owner, -⟩ :=
    sound.consistent.pointers project projectMember deploymentId pointer
  exact ⟨project, projectMember, deployment, member, pointer, same, owner⟩

end

/-! ## Changes of rows -/

/-- What a write may do to one row of the deployments table. -/
structure RowMove (plane next : ControlPlane) (row : Deployment → Deployment) (old : Deployment) : Prop where
  progress : (row old).status.inProgress = true → old.status.inProgress = true
  started : (row old).startedAt.isSome = true → old.startedAt.isSome = true ∨ old.status.inProgress = true
  unstarted : (row old).status.inProgress = true ∨ (row old).status = .failed → (row old).startedAt = none
  pending : plane.Blocked old.id → (row old).status = .pending ∨ (row old).status.inProgress = false
  /-- A row that becomes `STOPPED` has lost its container, or nothing in progress waits for it. -/
  stopped : (row old).status = .stopped → old.status = .stopped ∨ old.id ∉ next.containers ∨
    ∀ other ∈ plane.store.deployments, other.previousActiveDeploymentId = some old.id →
      (row other).status.inProgress = false

/-- What a write to the deployment tables may do. The commands are untouched. -/
structure RowChange (plane next : ControlPlane) (row : Deployment → Deployment) (pointer : Project → Project) :
    Prop where
  rewrite : Rewrite plane.store next.store row pointer
  commands : next.commands = plane.commands
  consistent : Consistent next.store
  moves : ∀ deployment ∈ plane.store.deployments, RowMove plane next row deployment
  containers : ∀ deploymentId ∈ next.containers, deploymentId ∈ plane.containers ∨
    ∃ deployment ∈ plane.store.deployments, deployment.id = deploymentId ∧ deployment.status.inProgress = true
  activeNotStopped : ∀ project ∈ plane.store.projects, ∀ deployment ∈ plane.store.deployments,
    (pointer project).activeDeploymentId = some deployment.id → (row deployment).status ≠ .stopped
  /-- What is active afterwards was active, or is the candidate that an enabled project activates, or was
  fallen back to. -/
  active : ∀ project ∈ plane.store.projects, ∀ deployment ∈ plane.store.deployments,
    (pointer project).activeDeploymentId = some deployment.id →
    (project.activeDeploymentId = some deployment.id ∧
      (deployment.status = .stopping → (row deployment).status = .stopping)) ∨
    ¬ plane.Blocked deployment.id ∧ (deployment.status.inProgress = true ∧ project.isEnabled = true ∨
      ∃ origin, project.activeDeploymentId = some origin ∧ ¬ plane.Blocked origin ∧
        plane.Fallback origin deployment.id)

namespace RowChange

variable {plane next : ControlPlane} {row : Deployment → Deployment} {pointer : Project → Project}

theorem sound (change : RowChange plane next row pointer) (sound : Sound plane) : Sound next := by
  have rewrite := change.rewrite
  refine {
    consistent := change.consistent
    ordered := by rw [change.commands]; exact sound.ordered
    engagedOpen := by rw [change.commands]; exact sound.engagedOpen
    keys := by rw [change.commands]; exact sound.keys
    keysUnique := by rw [change.commands]; exact sound.keysUnique
    commandDeployment := ?_
    activeNotStopped := ?_
    previousSettled := ?_
    waitingStopped := ?_
    unstarted := ?_ }
  · intro command member
    rw [change.commands] at member
    obtain ⟨deployment, deploymentMember, same⟩ := sound.commandDeployment command member
    exact ⟨row deployment, rewrite.mem_deployments.mpr ⟨deployment, deploymentMember, rfl⟩,
      (rewrite.identity deployment).id.trans same⟩
  · intro project projectMember deployment member active
    obtain ⟨oldProject, oldProjectMember, rfl⟩ := rewrite.mem_projects.mp projectMember
    obtain ⟨old, oldMember, rfl⟩ := rewrite.mem_deployments.mp member
    rw [(rewrite.identity old).id] at active
    exact change.activeNotStopped oldProject oldProjectMember old oldMember active
  · intro deployment member previous previousMember recorded
    obtain ⟨old, oldMember, rfl⟩ := rewrite.mem_deployments.mp member
    obtain ⟨oldPrevious, oldPreviousMember, rfl⟩ := rewrite.mem_deployments.mp previousMember
    rw [(rewrite.identity old).previous, (rewrite.identity oldPrevious).id] at recorded
    have settled := sound.previousSettled old oldMember oldPrevious oldPreviousMember recorded
    by_contra inProgress
    rw [Bool.not_eq_false] at inProgress
    rw [(change.moves oldPrevious oldPreviousMember).progress inProgress] at settled
    cases settled
  · intro deployment member previous previousMember recorded inProgress stopped present
    obtain ⟨old, oldMember, rfl⟩ := rewrite.mem_deployments.mp member
    obtain ⟨oldPrevious, oldPreviousMember, rfl⟩ := rewrite.mem_deployments.mp previousMember
    rw [(rewrite.identity old).previous, (rewrite.identity oldPrevious).id] at recorded
    rw [(rewrite.identity oldPrevious).id] at present
    rcases (change.moves oldPrevious oldPreviousMember).stopped stopped with already | absent | settled
    · rcases change.containers _ present with kept | ⟨added, addedMember, same, addedProgress⟩
      · exact sound.waitingStopped old oldMember oldPrevious oldPreviousMember recorded
          ((change.moves old oldMember).progress inProgress) already kept
      · rw [Table.eq_of_key addedMember oldPreviousMember same, already] at addedProgress
        cases addedProgress
    · exact absent present
    · rw [settled old oldMember recorded] at inProgress
      cases inProgress
  · intro deployment member
    obtain ⟨old, oldMember, rfl⟩ := rewrite.mem_deployments.mp member
    exact (change.moves old oldMember).unstarted

theorem fallback (change : RowChange plane next row pointer) (sound : Sound plane) {candidateId previousId : Uuid}
    (falls : next.Fallback candidateId previousId) : plane.Fallback candidateId previousId := by
  obtain ⟨⟨candidate, candidateMember, candidateId, recorded⟩, ⟨previous, previousMember, previousId, started⟩,
    present, opened⟩ := falls
  obtain ⟨oldCandidate, oldCandidateMember, rfl⟩ := change.rewrite.mem_deployments.mp candidateMember
  obtain ⟨oldPrevious, oldPreviousMember, rfl⟩ := change.rewrite.mem_deployments.mp previousMember
  rw [(change.rewrite.identity oldCandidate).id] at candidateId
  rw [(change.rewrite.identity oldCandidate).previous] at recorded
  rw [(change.rewrite.identity oldPrevious).id] at previousId
  -- A predecessor is past the statuses in which it could be started or provisioned.
  have settled := sound.previousSettled oldCandidate oldCandidateMember oldPrevious oldPreviousMember
    (by rw [recorded, previousId])
  refine ⟨⟨oldCandidate, oldCandidateMember, candidateId, recorded⟩,
    ⟨oldPrevious, oldPreviousMember, previousId, ?_⟩, ?_, ?_⟩
  · rcases (change.moves oldPrevious oldPreviousMember).started started with already | inProgress
    · exact already
    · rw [settled] at inProgress
      cases inProgress
  · rcases change.containers _ present with kept | ⟨added, addedMember, same, inProgress⟩
    · exact kept
    · rw [Table.eq_of_key addedMember oldPreviousMember (same.trans previousId.symm), settled] at inProgress
      cases inProgress
  · unfold DeployOpen at opened ⊢
    rw [change.commands] at opened
    exact opened

theorem active_cases (change : RowChange plane next row pointer) {deploymentId : Uuid}
    (active : next.Active deploymentId) (sound : Sound plane) :
    ∃ deployment ∈ plane.store.deployments, deployment.id = deploymentId ∧
      ((plane.Active deploymentId ∧ (deployment.status = .stopping → (row deployment).status = .stopping)) ∨
      ¬ plane.Blocked deploymentId ∧ (deployment.status.inProgress = true ∨
        ∃ origin, plane.Live origin ∧ ¬ plane.Blocked origin ∧ plane.Fallback origin deploymentId)) := by
  obtain ⟨project, projectMember, deployment, member, pointed, same, -⟩ :=
    (change.sound sound).active_row active
  obtain ⟨oldProject, oldProjectMember, rfl⟩ := change.rewrite.mem_projects.mp projectMember
  obtain ⟨old, oldMember, rfl⟩ := change.rewrite.mem_deployments.mp member
  rw [(change.rewrite.identity old).id] at same
  subst same
  refine ⟨old, oldMember, rfl, ?_⟩
  rcases change.active oldProject oldProjectMember old oldMember pointed with
    ⟨active, kept⟩ | ⟨free, ⟨inProgress, -⟩ | ⟨origin, active, rest⟩⟩
  · exact .inl ⟨⟨oldProject, oldProjectMember, active⟩, kept⟩
  · exact .inr ⟨free, .inl inProgress⟩
  · exact .inr ⟨free, .inr ⟨origin, .inr ⟨oldProject, oldProjectMember, active⟩, rest⟩⟩

theorem retired (change : RowChange plane next row pointer) (sound : Sound plane) {deploymentId : Uuid}
    (retired : plane.Retired deploymentId) : next.Retired deploymentId where
  known := by
    obtain ⟨deployment, member, same⟩ := retired.known
    exact ⟨row deployment, change.rewrite.mem_deployments.mpr ⟨deployment, member, rfl⟩,
      (change.rewrite.identity deployment).id.trans same⟩
  settled := by
    intro deployment member same
    obtain ⟨old, oldMember, rfl⟩ := change.rewrite.mem_deployments.mp member
    rw [(change.rewrite.identity old).id] at same
    have settled := retired.settled old oldMember same
    by_contra inProgress
    rw [Bool.not_eq_false] at inProgress
    rw [(change.moves old oldMember).progress inProgress] at settled
    cases settled
  stopping := by
    intro active deployment member same started present
    obtain ⟨old, oldMember, rfl⟩ := change.rewrite.mem_deployments.mp member
    rw [(change.rewrite.identity old).id] at same
    have settled := retired.settled old oldMember same
    obtain ⟨other, otherMember, otherId, origin⟩ := change.active_cases active sound
    have otherIs : other = old := Table.eq_of_key otherMember oldMember (otherId.trans same.symm)
    subst otherIs
    have wasStarted : other.startedAt.isSome = true := by
      rcases (change.moves other oldMember).started started with already | inProgress
      · exact already
      · rw [settled] at inProgress
        cases inProgress
    have wasPresent : deploymentId ∈ plane.containers := by
      rcases change.containers _ present with kept | ⟨added, addedMember, addedId, inProgress⟩
      · exact kept
      · rw [Table.eq_of_key addedMember oldMember (addedId.trans same.symm), settled] at inProgress
        cases inProgress
    rcases origin with ⟨wasActive, kept⟩ | ⟨-, inProgress | ⟨origin, live, free, falls⟩⟩
    · exact kept (retired.stopping wasActive other oldMember same wasStarted wasPresent)
    · rw [settled] at inProgress
      cases inProgress
    · exact absurd (retired.guarded origin live (.single falls)) free
  guarded := by
    refine retired.guarded.step ?_ ?_ ?_
    · exact fun _ _ falls => change.fallback sound falls
    · rintro source (⟨deployment, member, same, inProgress⟩ | active)
      · obtain ⟨old, oldMember, rfl⟩ := change.rewrite.mem_deployments.mp member
        rw [(change.rewrite.identity old).id] at same
        exact .inl (.inl ⟨old, oldMember, same, (change.moves old oldMember).progress inProgress⟩)
      · obtain ⟨deployment, member, same, origin⟩ := change.active_cases active sound
        rcases origin with ⟨wasActive, -⟩ | ⟨-, inProgress | reached⟩
        · exact .inl (.inr wasActive)
        · exact .inl (.inl ⟨deployment, member, same, inProgress⟩)
        · exact .inr reached
    · intro source held live
      have inactive : ¬ next.Active source := by
        intro active
        obtain ⟨deployment, member, same, origin⟩ := change.active_cases active sound
        rcases origin with ⟨wasActive, -⟩ | ⟨notBlocked, -⟩
        · exact held.1 wasActive
        · exact notBlocked held
      have ⟨_, deployment, member, same, _, previousId, recorded, waiting⟩ := held
      rcases live with ⟨other, otherMember, otherSame, inProgress⟩ | active
      · obtain ⟨old, oldMember, rfl⟩ := change.rewrite.mem_deployments.mp otherMember
        rw [(change.rewrite.identity old).id] at otherSame
        have oldIs : old = deployment := Table.eq_of_key oldMember member (otherSame.trans same.symm)
        subst oldIs
        have stillPending : (row old).status = .pending := by
          rcases (change.moves old oldMember).pending (same ▸ held) with pending | settled
          · exact pending
          · rw [settled] at inProgress
            cases inProgress
        refine .inl ⟨inactive, row old, otherMember, (change.rewrite.identity old).id.trans same, stillPending,
          previousId, (change.rewrite.identity old).previous.trans recorded, ?_⟩
        rw [change.commands]
        exact waiting
      · exact absurd active inactive

theorem quiesced (change : RowChange plane next row pointer) (sound : Sound plane) {projectId : Uuid}
    (disabled : plane.Disabled projectId)
    (quiesced : plane.Quiesced projectId) : next.Quiesced projectId := by
  intro project member same activeId active previousId falls
  obtain ⟨old, oldMember, rfl⟩ := change.rewrite.mem_projects.mp member
  rw [change.rewrite.projectId] at same
  obtain ⟨deployment, deploymentMember, deploymentSame, -⟩ :=
    (change.sound sound).consistent.pointers _ member activeId active
  obtain ⟨oldDeployment, oldDeploymentMember, rfl⟩ := change.rewrite.mem_deployments.mp deploymentMember
  rw [(change.rewrite.identity oldDeployment).id] at deploymentSame
  subst deploymentSame
  have isolated := quiesced old oldMember same
  rcases change.active old oldMember oldDeployment oldDeploymentMember active with
    ⟨wasActive, -⟩ | ⟨-, ⟨-, enabled⟩ | ⟨origin, originActive, -, reached⟩⟩
  · exact isolated _ wasActive previousId (change.fallback sound falls)
  · obtain ⟨project, projectMember, projectSame, off⟩ := disabled
    rw [Table.eq_of_key projectMember oldMember (projectSame.trans same.symm), enabled] at off
    cases off
  · exact isolated origin originActive _ reached

end RowChange

/-! ## Steps -/

/-- What every step of the control plane keeps, except that enabling and disabling move `Disabled`. -/
structure Advance (plane next : ControlPlane) : Prop where
  sound : Sound next
  retired : ∀ deploymentId, plane.Retired deploymentId → next.Retired deploymentId
  disabled : ∀ projectId, next.Disabled projectId ↔ plane.Disabled projectId
  quiesced : ∀ projectId, plane.Disabled projectId → plane.Quiesced projectId → next.Quiesced projectId

theorem Advance.refl {plane : ControlPlane} (sound : Sound plane) : Advance plane plane :=
  ⟨sound, fun _ => id, fun _ => Iff.rfl, fun _ _ => id⟩

theorem Advance.trans {plane middle next : ControlPlane} (first : Advance plane middle)
    (second : Advance middle next) : Advance plane next where
  sound := second.sound
  retired deploymentId retired := second.retired deploymentId (first.retired deploymentId retired)
  disabled projectId := (second.disabled projectId).trans (first.disabled projectId)
  quiesced projectId disabled quiesced := second.quiesced projectId ((first.disabled projectId).mpr disabled)
    (first.quiesced projectId disabled quiesced)

theorem RowChange.advance {plane next : ControlPlane} {row : Deployment → Deployment}
    {pointer : Project → Project} (change : RowChange plane next row pointer) (sound : Sound plane)
    (enabled : ∀ project, (pointer project).isEnabled = project.isEnabled) : Advance plane next where
  sound := change.sound sound
  retired _ := change.retired sound
  disabled projectId := by
    constructor
    · rintro ⟨project, member, same, disabled⟩
      obtain ⟨old, oldMember, rfl⟩ := change.rewrite.mem_projects.mp member
      rw [change.rewrite.projectId] at same
      rw [enabled] at disabled
      exact ⟨old, oldMember, same, disabled⟩
    · rintro ⟨project, member, same, disabled⟩
      refine ⟨pointer project, change.rewrite.mem_projects.mpr ⟨project, member, rfl⟩, ?_, ?_⟩
      · rw [change.rewrite.projectId, same]
      · rw [enabled, disabled]
  quiesced _ := change.quiesced sound

end Mcplica.Deployments.ControlPlane
