import Mcplica.Deployments.ServiceSteps

/-! # Every action of the control plane

The outcome of each action, and the two rules for runs: the invariant holds in every state, and what is
retired stays retired. -/

namespace Mcplica.Deployments.ControlPlane

open Mcplica.Domain Mcplica.Library Relation

variable {plane next : ControlPlane} {digest : RuntimeIdentity → Instant → String} {action : Action}

/-- The deployments an action asks to stop. -/
def asked (plane : ControlPlane) : Action → List Uuid
  | .updateEnabled _ projectId isEnabled => if isEnabled then [] else plane.stopTargets projectId
  | .redeployActive origin projectId request options => plane.redeployAsked origin projectId request options
  | .stop _ deploymentId => plane.stopAsked deploymentId
  | .stopProject _ projectId => plane.stopTargets projectId
  | .createToken origin token _ servable request => plane.securityAsked origin token.projectId servable request
  | .rotateToken origin projectId _ _ _ _ servable request => plane.securityAsked origin projectId servable request
  | .revokeToken origin projectId tokenId servable request =>
    plane.revokeAsked origin projectId tokenId servable request
  | _ => []

/-- The project an action disables. -/
def Action.disabling : Action → Option Uuid
  | .updateEnabled _ projectId isEnabled => if isEnabled then none else some projectId
  | _ => none

theorem transact_outcome (sound : Sound plane)
    (fresh : action.origin?.all plane.freshTransition = true)
    (written : plane.transact digest action = .ok next) :
    Outcome plane next (plane.asked action) action.disabling := by
  cases action with
  | createProject projectId hostname =>
    simp only [transact, bind_eq_ok] at written
    obtain ⟨store, written, same⟩ := written
    cases same
    exact (createProject_calm sound written).outcome sound
  | updateEnabled origin projectId isEnabled => exact updateEnabled_outcome sound written
  | request origin projectId request => exact (requestDeployment_calm sound written).outcome sound
  | restart origin deploymentId request => exact (restart_calm sound written).outcome sound
  | rollback origin projectId targetId request => exact (rollback_calm sound written).outcome sound
  | redeployActive origin projectId request options => exact scheduleRedeployActive_outcome sound fresh written
  | stop origin deploymentId => exact stop_outcome sound written
  | stopProject origin projectId => exact (scheduleStopProject_stops sound written).outcome sound
  | createToken origin token staticMode servable request => exact createToken_outcome sound fresh written
  | rotateToken origin projectId tokenId replacementId overlapSeconds staticMode servable request =>
    exact rotateToken_outcome sound fresh written
  | revokeToken origin projectId tokenId servable request => exact revokeToken_outcome sound fresh written
  | claimDueForDispatch limit lease locked now =>
    cases written
    have calm := command_calm sound (.claimDueForDispatch limit lease locked now) nofun
      fun _ _ _ _ same => by cases same
    exact calm.outcome sound
  | claimForExecution commandId token lease now =>
    cases written
    have calm := command_calm sound (.claimForExecution commandId token lease now) nofun
      fun _ _ _ _ same => by cases same
    exact calm.outcome sound
  | renewExecution commandId token lease now =>
    cases written
    have calm := command_calm sound (.renewExecution commandId token lease now) nofun
      fun _ _ _ _ same => by cases same
    exact calm.outcome sound
  | markDispatchFailed commandId token errorCode errorSummary retryDelay now =>
    cases written
    have calm := command_calm sound (.markDispatchFailed commandId token errorCode errorSummary retryDelay now)
      nofun
      fun _ _ _ _ same => by cases same
    exact calm.outcome sound
  | markCommandFailed commandId token failure now =>
    simp only [transact, bind_eq_ok] at written
    obtain ⟨commands, failed, same⟩ := written
    cases same
    have calm := command_calm sound (.markFailed commandId token failure now) nofun
      fun _ _ _ _ same => by cases same
    simp only [CommandProtocol.step, failed, commit_ok] at calm
    exact calm.outcome sound
  | markEffective commandId token now => exact (verifyAndMarkEffective_calm sound written).outcome sound
  | deploy commandId token now step =>
    simp only [transact, executing, bind_eq_ok, require_eq_ok] at written
    obtain ⟨command, ⟨_, owned, -, deploy, same⟩, written⟩ := written
    cases same
    exact deployStep_outcome sound (executing_of_owner owned (by simpa using deploy)) written
  | removeContainer deploymentId =>
    cases written
    exact (removeContainer_calm sound deploymentId).outcome sound
  | recordStopped commandId token now targetId =>
    simp only [transact, bind_eq_ok] at written
    obtain ⟨command, -, written⟩ := written
    exact (recordStopped_calm sound written).outcome sound

/-- A step is refused, or it is a committed transaction. -/
theorem step_cases (digest : RuntimeIdentity → Instant → String) (plane : ControlPlane) (action : Action) :
    step digest plane action = plane ∨ action.origin?.all plane.freshTransition = true ∧
      plane.transact digest action = .ok (step digest plane action) := by
  unfold step
  split
  · rename_i fresh
    cases written : plane.transact digest action with
    | error _ => exact .inl rfl
    | ok next => exact .inr ⟨fresh, rfl⟩
  · exact .inl rfl

theorem step_outcome (digest : RuntimeIdentity → Instant → String) (action : Action) (sound : Sound plane) :
    step digest plane action = plane ∨ Outcome plane (step digest plane action) (plane.asked action) action.disabling := by
  rcases step_cases digest plane action with refused | ⟨fresh, written⟩
  · exact .inl refused
  · exact .inr (transact_outcome sound fresh written)

theorem sound_step (plane : ControlPlane) (action : Action) (sound : Sound plane) :
    Sound (step digest plane action) := by
  rcases step_outcome digest action sound with refused | outcome
  · rw [refused]
    exact sound
  · exact outcome.sound

theorem retired_step {deploymentId : Uuid} (sound : Sound plane) (retired : plane.Retired deploymentId) :
    (step digest plane action).Retired deploymentId := by
  rcases step_outcome digest action sound with refused | outcome
  · rw [refused]
    exact retired
  · exact outcome.retired deploymentId retired

theorem stopTargets_known {projectId target : Uuid} (listed : target ∈ plane.stopTargets projectId) :
    ∃ deployment ∈ plane.store.deployments, deployment.id = target := by
  obtain ⟨deployment, member, same⟩ := List.mem_map.mp listed
  exact ⟨deployment, Table.mem_of_get? (listStoppable_found member).1, same⟩

theorem redeployAsked_known {origin : Origin} {projectId target : Uuid} {request : DeploymentRequest}
    {options : RedeployOptions} (isAsked : target ∈ plane.redeployAsked origin projectId request options) :
    ∃ deployment ∈ plane.store.deployments, deployment.id = target := by
  unfold redeployAsked at isAsked
  split at isAsked
  · exact stopTargets_known isAsked
  · obtain ⟨deployment, member, same⟩ := List.mem_map.mp isAsked
    exact ⟨deployment, Table.mem_of_get? (listStoppable_found (List.mem_of_mem_filter member)).1, same⟩

theorem securityAsked_known {origin : Origin} {projectId target : Uuid} {servable : Bool}
    {request : DeploymentRequest} (isAsked : target ∈ plane.securityAsked origin projectId servable request) :
    ∃ deployment ∈ plane.store.deployments, deployment.id = target := by
  unfold securityAsked at isAsked
  split at isAsked
  · exact redeployAsked_known isAsked
  · exact stopTargets_known isAsked

/-- Only deployments that exist are asked to stop. -/
theorem asked_known {target : Uuid} (isAsked : target ∈ plane.asked action) :
    ∃ deployment ∈ plane.store.deployments, deployment.id = target := by
  cases action with
  | updateEnabled origin projectId isEnabled =>
    cases isEnabled with
    | true => cases isAsked
    | false => exact stopTargets_known isAsked
  | redeployActive => exact redeployAsked_known isAsked
  | stop origin deploymentId =>
    simp only [asked, stopAsked] at isAsked
    split at isAsked
    · cases isAsked
    · rename_i current found
      split at isAsked
      · cases isAsked
      · rw [List.mem_singleton] at isAsked
        exact ⟨current, Table.mem_of_get? found, isAsked ▸ Table.key_of_get? found⟩
  | stopProject => exact stopTargets_known isAsked
  | createToken => exact securityAsked_known isAsked
  | rotateToken => exact securityAsked_known isAsked
  | revokeToken =>
    simp only [asked, revokeAsked] at isAsked
    split at isAsked
    · cases isAsked
    · exact securityAsked_known isAsked
  | _ => cases isAsked

/-- The deployments a step makes `RUNNING`. -/
def StartsRunning (digest : RuntimeIdentity → Instant → String) (plane : ControlPlane) (action : Action)
    (deployment : Deployment) : Prop :=
  deployment ∈ plane.store.deployments ∧ deployment.status ≠ .running ∧
    ∃ next ∈ (step digest plane action).store.deployments, next.id = deployment.id ∧ next.status = .running

/-- A deployment becomes `RUNNING` as a candidate of an enabled project or as the one that an active
deployment falls back to. -/
theorem StartsRunning.cases {deployment : Deployment} (sound : Sound plane)
    (starts : StartsRunning digest plane action deployment) :
    deployment.status.inProgress = true ∧
      (∃ project ∈ plane.store.projects, project.id = deployment.projectId ∧ project.isEnabled = true) ∨
    ∃ origin, plane.Active origin ∧ ¬ plane.Blocked origin ∧ plane.Fallback origin deployment.id := by
  obtain ⟨member, notRunning, next, nextMember, same, running⟩ := starts
  rcases step_outcome digest action sound with refused | outcome
  · rw [refused] at nextMember
    rw [Table.eq_of_key nextMember member same] at running
    exact absurd running notRunning
  · obtain ⟨old, oldMember, oldSame, origin⟩ := outcome.runs next nextMember running
    have oldIs : old = deployment := Table.eq_of_key oldMember member (oldSame.trans same)
    subst oldIs
    rcases origin with wasRunning | origin
    · exact absurd wasRunning notRunning
    · exact origin

/-- Nothing makes a retired deployment `RUNNING`. -/
theorem StartsRunning.not_retired {deployment : Deployment} (sound : Sound plane)
    (starts : StartsRunning digest plane action deployment) : ¬ plane.Retired deployment.id := by
  intro retired
  rcases starts.cases sound with ⟨inProgress, -⟩ | ⟨origin, active, free, falls⟩
  · rw [retired.settled deployment starts.1 rfl] at inProgress
    cases inProgress
  · exact free (retired.guarded origin (.inr active) (.single falls))

end Mcplica.Deployments.ControlPlane
