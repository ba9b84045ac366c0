import Mcplica.Deployments.Resurrection

/-! # Revocation is final

Once the revocation or the rotation of a token has committed and its effect is scheduled, no deployment
whose auth overlay was materialised before may be set to `RUNNING` again. A security refresh does not
stop the running deployment first: it requests a replacement that falls back to it, and the fallback
brings the old overlay back. -/

namespace Mcplica.Deployments.ControlPlane

open Mcplica.Domain Mcplica.Library Relation

/-- The project whose token an action revokes or replaces; revoking a revoked token does nothing. -/
def revoking? (plane : ControlPlane) : Action → Option Uuid
  | .rotateToken _ projectId _ _ _ _ _ _ => some projectId
  | .revokeToken _ projectId tokenId _ _ =>
    if (plane.accessTokens.get? tokenId).any fun token => token.revokedAt.isSome then none else some projectId
  | _ => none

def Commits (digest : RuntimeIdentity → Instant → String) (plane : ControlPlane) (action : Action) : Prop :=
  action.origin?.all plane.freshTransition = true ∧ (plane.transact digest action).isOk = true

instance {digest : RuntimeIdentity → Instant → String} {plane : ControlPlane} {action : Action} :
    Decidable (Commits digest plane action) :=
  inferInstanceAs (Decidable (_ ∧ _))

/-- The deployments of the project whose auth overlay has been materialised. -/
def materialised (plane : ControlPlane) (projectId : Uuid) : List Uuid :=
  (plane.store.deployments.rows.filter fun deployment =>
    deployment.projectId = projectId && plane.overlays.contains deployment.id).map Deployment.id

/-- No step sets one of the deployments to `RUNNING`. -/
def KeepsDown (digest : RuntimeIdentity → Instant → String) (deployments : List Uuid) (plane : ControlPlane)
    (action : Action) : Prop :=
  ∀ deployment, StartsRunning digest plane action deployment → deployment.id ∉ deployments

/-- Once the action has revoked a token of a project, the steps after it keep the deployments down whose
overlay was materialised before. -/
def RevocationFinal (digest : RuntimeIdentity → Instant → String) (plane : ControlPlane) (action : Action)
    (after : List Action) : Prop :=
  ∀ projectId, Commits digest plane action → plane.revoking? action = some projectId →
    Along (step digest) (KeepsDown digest (plane.materialised projectId)) (step digest plane action) after

/-- A revocation asks every deployment with a materialised overlay to stop that could go on, and nothing
that stays live falls back to one. -/
def RevocationSafe (plane : ControlPlane) (action : Action) : Prop :=
  ∀ projectId, plane.revoking? action = some projectId →
    ∀ deploymentId ∈ plane.materialised projectId, CutOff plane (plane.asked action) deploymentId

variable {digest : RuntimeIdentity → Instant → String} {plane : ControlPlane} {action : Action}

theorem Commits.outcome (commits : Commits digest plane action) (sound : Sound plane) :
    Outcome plane (step digest plane action) (plane.asked action) action.disabling := by
  obtain ⟨fresh, ok⟩ := commits
  cases written : plane.transact digest action with
  | error error =>
    rw [written] at ok
    cases ok
  | ok next =>
    have stepped : step digest plane action = next := by
      unfold step
      rw [if_pos fresh, written, commit_ok]
    rw [stepped]
    exact transact_outcome sound fresh written

/-- Deployments that are retired stay down in every run. -/
theorem keepsDown_of_retired {deployments : List Uuid} (sound : Sound plane)
    (retired : ∀ deploymentId ∈ deployments, plane.Retired deploymentId) (actions : List Action) :
    Along (step digest) (KeepsDown digest deployments) plane actions := by
  refine along_of_preserved
    (fun plane => Sound plane ∧ ∀ deploymentId ∈ deployments, plane.Retired deploymentId) ?_ ?_
    ⟨sound, retired⟩ actions
  · intro plane action ⟨sound, retired⟩
    exact ⟨sound_step plane action sound, fun deploymentId member => retired_step sound (retired deploymentId member)⟩
  · intro plane action ⟨sound, retired⟩ deployment starts member
    exact starts.not_retired sound (retired deployment.id member)

/-- In every run in which each revocation cuts off the deployments with a materialised overlay, no step
after a committed revocation sets one of them to `RUNNING`. -/
theorem revocation_final_of_cutOff (digest : RuntimeIdentity → Instant → String) (actions : List Action)
    (safe : Along (step digest) RevocationSafe ControlPlane.empty actions) :
    ∀ before action after, actions = before ++ action :: after →
      RevocationFinal digest (run (step digest) ControlPlane.empty before) action after := by
  intro before action after split projectId commits revokes
  have sound : Sound (run (step digest) ControlPlane.empty before) :=
    run_invariant Sound sound_step sound_empty before
  have outcome := commits.outcome sound
  rw [split] at safe
  have cut := safe.split.1 projectId revokes
  exact keepsDown_of_retired outcome.sound
    (fun deploymentId member => outcome.cutOff deploymentId (cut deploymentId member)) after

/-! ## Sample runs -/

/-- Deployment 11 runs in a project with two access tokens. -/
def tokensInUse : List Action :=
  [.createProject 1 "demo.example", .createToken (sampleOrigin 8 5) { id := 8, projectId := 1 } true true
    (sampleRequest 21 5), .createToken (sampleOrigin 9 6) { id := 9, projectId := 1 } true true
    (sampleRequest 22 6)] ++ firstDeployment

/-- One of the tokens is revoked; deployment 12 is requested to take over. -/
def servableRevocation : Action :=
  .revokeToken (sampleOrigin 2 20) 1 8 true (sampleRequest 12 20)

/-- The replacement is activated and then fails to be proved again. -/
def replacementActivated : List Action :=
  activationRun 2 12 1 21 ++ [.deploy (sampleCommand 2 .deploy 12) 1 22 .beginRetirement]

/-- The failure handler sets deployment 11, which still accepts the revoked token, to `RUNNING`. -/
theorem restore_reopens_revoked_token :
    ¬ RevocationFinal sampleDigest (run (step sampleDigest) ControlPlane.empty tokensInUse) servableRevocation
      (replacementActivated ++ [failingActivation]) := by
  intro final
  have evaluated : Commits sampleDigest (run (step sampleDigest) ControlPlane.empty tokensInUse) servableRevocation ∧
      (run (step sampleDigest) ControlPlane.empty tokensInUse).revoking? servableRevocation = some 1 ∧
      11 ∈ (run (step sampleDigest) ControlPlane.empty tokensInUse).materialised 1 ∧
      ((run (step sampleDigest) (step sampleDigest (run (step sampleDigest) ControlPlane.empty tokensInUse)
        servableRevocation) replacementActivated).store.deployments.get? 11).map Deployment.status = some .stopping ∧
      ((step sampleDigest (run (step sampleDigest) (step sampleDigest (run (step sampleDigest)
        ControlPlane.empty tokensInUse) servableRevocation) replacementActivated)
        failingActivation).store.deployments.get? 11).map Deployment.status = some .running := by
    decide +kernel
  obtain ⟨commits, revokes, wasMaterialised, before, after⟩ := evaluated
  have along := final 1 commits revokes
  have last := along.split.1
  rw [Option.map_eq_some_iff] at before after
  obtain ⟨deployment, found, stopping⟩ := before
  obtain ⟨started, startedFound, running⟩ := after
  have starts := startsRunning_of_get? found (by rw [stopping]; decide) startedFound running
  have sameId : deployment.id = 11 := Table.key_of_get? found
  have down := last deployment starts
  rw [sameId] at down
  exact down wasMaterialised

/-- Where nothing can be fallen back to, asking all deployments to stop cuts them off. -/
theorem revocationSafe_of_closed
    (closed : ((plane.revoking? action).isNone || plane.fallbacksClosed && plane.store.deployments.rows.all
      fun deployment => (plane.asked action).contains deployment.id) = true) : RevocationSafe plane action := by
  intro projectId revokes deploymentId member
  rw [revokes, Option.isNone_some, Bool.false_or, Bool.and_eq_true] at closed
  obtain ⟨deployment, listed, rfl⟩ := List.mem_map.mp member
  have isMember : deployment ∈ plane.store.deployments := List.mem_of_mem_filter listed
  have isAsked : deployment.id ∈ plane.asked action := by simpa using List.all_eq_true.mp closed.2 deployment isMember
  refine ⟨⟨deployment, isMember, rfl⟩, fun _ _ _ _ => isAsked, fun _ _ _ _ _ _ => isAsked, ?_⟩
  exact fun source _ _ => not_transGen_of_no_edge (not_fallback_of_closed closed.1 source)

/-- Deployment 12 was to replace deployment 11, which is restored. -/
def tokensRestored : List Action :=
  tokensInUse ++ replacementRestored

/-- Revoking a token when no overlay can be materialised any more stops both for good. -/
def unservableRevocation : Action :=
  .revokeToken (sampleOrigin 3 30) 1 8 false (sampleRequest 13 30)

def stopExecuted (deploymentId token : Uuid) (now : Instant) : List Action :=
  [.claimDueForDispatch 10 1000 (fun _ => false) now, .claimForExecution (sampleCommand 3 .stop deploymentId) token 1000 now,
    .removeContainer deploymentId, .recordStopped (sampleCommand 3 .stop deploymentId) token now deploymentId,
    .markEffective (sampleCommand 3 .stop deploymentId) token now]

def bothStopped : List Action :=
  stopExecuted 12 2 31 ++ stopExecuted 11 3 32

theorem revocation_final_unservable :
    Commits sampleDigest (run (step sampleDigest) ControlPlane.empty tokensRestored) unservableRevocation ∧
    (run (step sampleDigest) ControlPlane.empty tokensRestored).materialised 1 = [11, 12] ∧
    RevocationFinal sampleDigest (run (step sampleDigest) ControlPlane.empty tokensRestored) unservableRevocation
      bothStopped := by
  have evaluated : (Commits sampleDigest (run (step sampleDigest) ControlPlane.empty tokensRestored) unservableRevocation ∧
      (run (step sampleDigest) ControlPlane.empty tokensRestored).materialised 1 = [11, 12]) ∧
      (trace (step sampleDigest) ControlPlane.empty (tokensRestored ++ unservableRevocation :: bothStopped)).all (fun taken =>
        (taken.1.revoking? taken.2).isNone || taken.1.fallbacksClosed && taken.1.store.deployments.rows.all
          fun deployment => (taken.1.asked taken.2).contains deployment.id) = true := by
    decide +kernel
  obtain ⟨⟨commits, wereMaterialised⟩, closed⟩ := evaluated
  refine ⟨commits, wereMaterialised, ?_⟩
  refine revocation_final_of_cutOff sampleDigest (tokensRestored ++ unservableRevocation :: bothStopped) ?_ tokensRestored
    unservableRevocation bothStopped rfl
  exact fun taken member => revocationSafe_of_closed (List.all_eq_true.mp closed taken member)

end Mcplica.Deployments.ControlPlane
