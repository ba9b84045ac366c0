import Mcplica.Deployments.Steps

/-! # No resurrection after a stop

A step may set a deployment to `RUNNING` only while its project is enabled and no stop of it is
outstanding. `complete_activation` checks the project, and a stopped candidate has left the status it
requires. `restore_previous_after_failed_activation` checks neither, so a stop or a disabling that lands
between the activation of a candidate and its failure is undone by the restore. -/

namespace Mcplica.Deployments.ControlPlane

open Mcplica.Domain Mcplica.Library Relation

/-- The project of the deployment is enabled and every stop that was requested for it has taken effect. -/
def StartAllowed (plane : ControlPlane) (deployment : Deployment) : Prop :=
  (∃ project ∈ plane.store.projects, project.id = deployment.projectId ∧ project.isEnabled = true) ∧
  ∀ command ∈ plane.commands.commands, command.action = .stop → command.deploymentId = deployment.id →
    command.status = .effective

def NoResurrection (digest : RuntimeIdentity → Instant → String) (plane : ControlPlane) (action : Action) : Prop :=
  ∀ deployment, StartsRunning digest plane action deployment → plane.StartAllowed deployment

/-- Nothing that stays live falls back to a deployment the action asks to stop, and an action that
disables a project finds nothing that its active deployment could fall back to. -/
structure StopSafe (plane : ControlPlane) (action : Action) : Prop where
  unreached : ∀ target ∈ plane.asked action, ∀ source, plane.Live source →
    (plane.Active source ∨ source ∉ plane.asked action) → ¬ TransGen plane.Fallback source target
  quiesced : ∀ projectId, action.disabling = some projectId → plane.Quiesced projectId

/-- What the steps that are `StopSafe` preserve. -/
structure Halted (plane : ControlPlane) : Prop where
  sound : Sound plane
  stopped : ∀ command ∈ plane.commands.commands, command.action = .stop → plane.Retired command.deploymentId
  disabled : ∀ projectId, plane.Disabled projectId → plane.Quiesced projectId

variable {digest : RuntimeIdentity → Instant → String} {plane : ControlPlane} {action : Action}

theorem halted_empty : Halted ControlPlane.empty where
  sound := sound_empty
  stopped _ member := by cases member
  disabled _ disabled := by
    obtain ⟨_, member, -⟩ := disabled
    cases member

/-- A deployment that is asked to stop is cut off unless something that stays live falls back to it. -/
theorem StopSafe.cutOff (safe : StopSafe plane action) {target : Uuid} (isAsked : target ∈ plane.asked action) :
    CutOff plane (plane.asked action) target where
  known := asked_known isAsked
  inProgress _ _ _ _ := isAsked
  active _ _ _ _ _ _ := isAsked
  unreached := safe.unreached target isAsked

theorem halted_step (plane : ControlPlane) (action : Action) (safe : StopSafe plane action)
    (halted : Halted plane) : Halted (step digest plane action) := by
  rcases step_outcome digest action halted.sound with refused | outcome
  · rw [refused]
    exact halted
  · refine ⟨outcome.sound, ?_, ?_⟩
    · intro command member stop
      rcases outcome.stops command member stop with ⟨old, oldMember, oldStop, same⟩ | isAsked
      · rw [← same]
        exact outcome.retired _ (halted.stopped old oldMember oldStop)
      · exact outcome.cutOff _ (safe.cutOff isAsked)
    · intro projectId disabled
      refine outcome.quiesced projectId disabled ?_
      rcases outcome.disabled projectId disabled with already | disabling
      · exact halted.disabled projectId already
      · exact safe.quiesced projectId disabling

theorem noResurrection_of_halted (halted : Halted plane) : NoResurrection digest plane action := by
  intro deployment starts
  have sound := halted.sound
  refine ⟨?_, ?_⟩
  · rcases starts.cases sound with ⟨-, enabled⟩ | ⟨origin, ⟨holder, holderMember, pointer⟩, -, falls⟩
    · exact enabled
    · obtain ⟨project, member, owner⟩ := sound.consistent.projectExists deployment starts.1
      refine ⟨project, member, owner, ?_⟩
      by_contra disabled
      rw [Bool.not_eq_true] at disabled
      -- The active deployment that falls back belongs to the same project.
      have ⟨⟨candidate, candidateMember, same, recorded⟩, _⟩ := falls
      obtain ⟨previous, previousMember, previousSame, previousOwner, -⟩ :=
        sound.consistent.predecessor candidate candidateMember deployment.id recorded
      rw [Table.eq_of_key previousMember starts.1 previousSame] at previousOwner
      have holderOwner := sound.consistent.owner_of_active holderMember candidateMember (by rw [pointer, same])
      exact halted.disabled project.id ⟨project, member, rfl, disabled⟩ holder holderMember
        (by rw [← holderOwner, ← previousOwner, owner]) origin pointer deployment.id falls
  · intro command member stop target
    exact absurd (target ▸ halted.stopped command member stop) (starts.not_retired sound)

/-- In every run whose steps are `StopSafe`, a deployment is set to `RUNNING` only while its project is
enabled and no stop of it is outstanding. -/
theorem no_resurrection_of_stopSafe (digest : RuntimeIdentity → Instant → String) (actions : List Action)
    (safe : Along (step digest) StopSafe ControlPlane.empty actions) :
    Along (step digest) (NoResurrection digest) ControlPlane.empty actions :=
  along_of_invariant halted_step (fun _ _ _ halted => noResurrection_of_halted halted) halted_empty safe

/-! ## Sample runs -/

section Samples

def sampleSha256 : String := "0f1e2d3c4b5a69780f1e2d3c4b5a69780f1e2d3c4b5a69780f1e2d3c4b5a6978"

/-- Project 1 with its one ready build. -/
def sampleBuilds (buildId : Uuid) : Option DeployableBuild :=
  if buildId = 5 then some ⟨5, 1, true, some sampleSha256, some "manifests/5"⟩ else none

def sampleDigest (_ : RuntimeIdentity) (_ : Instant) : String := sampleSha256

def sampleRequest (deploymentId : Uuid) (now : Instant) : DeploymentRequest :=
  ⟨deploymentId, 5, .normal, false, sampleBuilds, .ok (), "1.0.0", now⟩

/-- A transition whose commands are numbered from its newest deployment to its oldest, stops first. -/
def sampleCommand (transitionId : Uuid) (action : RuntimeCommandAction) (deploymentId : Uuid) : Uuid :=
  transitionId * 1000 + (100 - deploymentId) + if action = .deploy then 500 else 0

def sampleOrigin (transitionId : Uuid) (now : Instant) : Origin where
  transitionId := transitionId
  requestedBy := 7
  requestId := none
  reason := "deployment.requested"
  subjectType := none
  subjectId := none
  commandId := sampleCommand transitionId
  sequence := sampleCommand transitionId
  now := now

def sampleProof (deploymentId : Uuid) (now : Instant) : DeploymentActivationProof :=
  ⟨⟨deploymentId, 1, 5, "container", "image", "demo.example", sampleSha256, "1.0.0"⟩, now, sampleSha256⟩

/-- Claim the transition's deploy command and run it up to the activation of the candidate. -/
def activationRun (transitionId deploymentId token : Uuid) (now : Instant) : List Action :=
  [.claimDueForDispatch 10 1000 (fun _ => false) now,
    .claimForExecution (sampleCommand transitionId .deploy deploymentId) token 1000 now] ++
  ([.beginRun sampleBuilds (.ok ()), .materialize, .beginStartup sampleSha256,
    .activate ⟨"container", "image", some "healthy", sampleProof deploymentId now⟩] : List DeployStep).map
    (.deploy (sampleCommand transitionId .deploy deploymentId) token now)

def completionRun (transitionId deploymentId token : Uuid) (now : Instant) : List Action :=
  [.deploy (sampleCommand transitionId .deploy deploymentId) token now .beginRetirement,
    .deploy (sampleCommand transitionId .deploy deploymentId) token now
      (.finishActivation (sampleProof deploymentId now)),
    .markEffective (sampleCommand transitionId .deploy deploymentId) token now]

/-- Deployment 11 is brought up. -/
def firstDeployment : List Action :=
  [.request (sampleOrigin 1 10) 1 (sampleRequest 11 10)] ++ activationRun 1 11 0 11 ++ completionRun 1 11 0 12

/-- Deployment 12 is activated, the project is disabled, and the retirement of deployment 11 finds its
candidate stopping. -/
def disabledWhileActivating : List Action :=
  [.createProject 1 "demo.example"] ++ firstDeployment ++ [.request (sampleOrigin 2 20) 1 (sampleRequest 12 20)] ++ activationRun 2 12 1 21 ++
    [.updateEnabled (sampleOrigin 3 30) 1 false,
      .deploy (sampleCommand 2 .deploy 12) 1 31 .beginRetirement]

def failingActivation : Action :=
  .deploy (sampleCommand 2 .deploy 12) 1 32 (.failActivation true "INVALID_STATE" "activation failed")

end Samples

theorem startsRunning_of_get? {deployment started : Deployment} {deploymentId : Uuid}
    (before : plane.store.deployments.get? deploymentId = some deployment) (stopped : deployment.status ≠ .running)
    (after : (step digest plane action).store.deployments.get? deploymentId = some started)
    (running : started.status = .running) : StartsRunning digest plane action deployment :=
  ⟨Table.mem_of_get? before, stopped, started, Table.mem_of_get? after,
    (Table.key_of_get? after).trans (Table.key_of_get? before).symm, running⟩

/-- The failure handler sets deployment 11 to `RUNNING` in a disabled project. -/
theorem restore_runs_in_disabled_project :
    ¬ Along (step sampleDigest) (NoResurrection sampleDigest) ControlPlane.empty
      (disabledWhileActivating ++ [failingActivation]) := by
  intro along
  have last := along.split.1
  have evaluated : ((run (step sampleDigest) ControlPlane.empty disabledWhileActivating).store.deployments.get?
        11).map (fun row => (row.status, row.projectId)) = some (.stopping, 1) ∧
      ((step sampleDigest (run (step sampleDigest) ControlPlane.empty disabledWhileActivating)
        failingActivation).store.deployments.get? 11).map Deployment.status = some .running ∧
      ((run (step sampleDigest) ControlPlane.empty disabledWhileActivating).store.projects.get?
        1).map Project.isEnabled = some false := by
    decide +kernel
  obtain ⟨before, after, disabled⟩ := evaluated
  rw [Option.map_eq_some_iff] at before after disabled
  obtain ⟨deployment, found, row⟩ := before
  obtain ⟨started, startedFound, running⟩ := after
  obtain ⟨project, projectFound, off⟩ := disabled
  simp only [Prod.mk.injEq] at row
  obtain ⟨⟨holder, member, same, enabled⟩, -⟩ := last deployment
    (startsRunning_of_get? found (by rw [row.1]; decide) startedFound running)
  have holderIs : holder = project := Table.eq_of_key member (Table.mem_of_get? projectFound)
    (same.trans (row.2.trans (Table.key_of_get? projectFound).symm))
  rw [holderIs, off] at enabled
  cases enabled

/-- No deployment with a predecessor has a deploy command that could still be executed. -/
def fallbacksClosed (plane : ControlPlane) : Bool :=
  plane.store.deployments.rows.all fun deployment => deployment.previousActiveDeploymentId.isNone ||
    plane.commands.commands.rows.all fun command =>
      !(command.action = .deploy && command.deploymentId = deployment.id && command.retryable)

theorem not_fallback_of_closed (closed : plane.fallbacksClosed = true) (source next : Uuid) : ¬ plane.Fallback source next := by
  rintro ⟨⟨candidate, member, rfl, recorded⟩, -, -, command, isCommand, deploy, target, isOpen⟩
  have either := List.all_eq_true.mp closed candidate member
  rw [recorded, Option.isNone_some, Bool.false_or] at either
  have shut := List.all_eq_true.mp either command isCommand
  simp [deploy, target, isOpen] at shut

/-- A step is safe that asks for nothing, or that finds nothing to fall back to. -/
theorem stopSafe_of_closed
    (closed : ((plane.asked action).isEmpty && action.disabling.isNone || plane.fallbacksClosed) = true) :
    StopSafe plane action := by
  rcases Bool.or_eq_true _ _ ▸ closed with asksNothing | nothingOpen
  · rw [Bool.and_eq_true, List.isEmpty_iff, Option.isNone_iff_eq_none] at asksNothing
    refine ⟨fun target isAsked => ?_, fun projectId disabling => ?_⟩
    · rw [asksNothing.1] at isAsked
      cases isAsked
    · rw [asksNothing.2] at disabling
      cases disabling
  · exact ⟨fun _ _ source _ _ => not_transGen_of_no_edge (not_fallback_of_closed nothingOpen source),
      fun _ _ _ _ _ activeId _ => not_fallback_of_closed nothingOpen activeId⟩

/-- The activation of deployment 12 fails and deployment 11 is restored; the command is closed. -/
def replacementRestored : List Action :=
  [.request (sampleOrigin 2 20) 1 (sampleRequest 12 20)] ++ activationRun 2 12 1 21 ++
    [.deploy (sampleCommand 2 .deploy 12) 1 22 .beginRetirement,
      .deploy (sampleCommand 2 .deploy 12) 1 23 (.failActivation true "INVALID_STATE" "activation failed"),
      .markCommandFailed (sampleCommand 2 .deploy 12) 1 ⟨"INVALID_STATE", "activation failed", false, 0⟩ 24]

/-- Afterwards the project is disabled and the restored deployment stopped. -/
def disabledAfterRestore : List Action :=
  [.createProject 1 "demo.example"] ++ firstDeployment ++ replacementRestored ++
    [.updateEnabled (sampleOrigin 3 30) 1 false, .stop (sampleOrigin 4 40) 11]

theorem no_resurrection_first_deployment :
    Along (step sampleDigest) (NoResurrection sampleDigest) ControlPlane.empty disabledAfterRestore := by
  apply no_resurrection_of_stopSafe
  have closed : (trace (step sampleDigest) ControlPlane.empty disabledAfterRestore).all (fun taken =>
      (taken.1.asked taken.2).isEmpty && taken.2.disabling.isNone || taken.1.fallbacksClosed) = true := by
    decide +kernel
  exact fun taken member => stopSafe_of_closed (List.all_eq_true.mp closed taken member)

end Mcplica.Deployments.ControlPlane
