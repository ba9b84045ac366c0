import Mcplica.Deployments.Records

/-! # The deployment repository

The operations of `DeploymentRepository` on the projects and deployments tables. An operation that
returns `None` or `False` writes nothing, so it is an `Option` of the store it leaves behind. Rows are
locked with `FOR UPDATE` before they are read, so each operation is atomic. -/

namespace Mcplica.Deployments

open Mcplica.Domain Mcplica.Library

structure DeploymentStore where
  projects : Table Project
  deployments : Table Deployment

namespace DeploymentStore

def empty : DeploymentStore := ⟨Table.empty, Table.empty⟩

/-! ## Writes -/

/-- `UPDATE deployments SET … WHERE id = …`. -/
def assign (store : DeploymentStore) (deploymentId : Uuid) (values : Deployment → Deployment)
    (keeps : ∀ deployment, (values deployment).id = deployment.id := by intro _; rfl) : DeploymentStore :=
  { store with
    deployments := store.deployments.update (fun deployment => deployment.id = deploymentId) values keeps }

/-- `UPDATE deployments SET … WHERE id = … AND …`; no row need match. -/
def assignIf (store : DeploymentStore) (deploymentId : Uuid) (where_ : Deployment → Bool)
    (values : Deployment → Deployment)
    (keeps : ∀ deployment, (values deployment).id = deployment.id := by intro _; rfl) : DeploymentStore :=
  { store with
    deployments := store.deployments.update
      (fun deployment => deployment.id = deploymentId && where_ deployment) values keeps }

/-- `UPDATE deployments SET … WHERE id = … AND … RETURNING id`: `None` when no row matches. -/
def assignWhere (store : DeploymentStore) (deploymentId : Uuid) (where_ : Deployment → Bool)
    (values : Deployment → Deployment)
    (keeps : ∀ deployment, (values deployment).id = deployment.id := by intro _; rfl) :
    Option DeploymentStore :=
  match store.deployments.get? deploymentId with
  | some deployment => if where_ deployment then some (store.assign deploymentId values keeps) else none
  | none => none

/-- The two project pointers, written together everywhere except in `clearActive`. -/
def point (store : DeploymentStore) (projectId : Uuid) (activeBuildId activeDeploymentId : Option Uuid) :
    DeploymentStore :=
  { store with
    projects := store.projects.update (fun project => project.id = projectId)
      (fun project => { project with activeBuildId, activeDeploymentId }) }

/-! ## Queries -/

/-- Rows already moved to `STOPPING` by the caller's own transition do not count. -/
def hasInProgress (store : DeploymentStore) (projectId : Uuid) (transitionStoppingIds : List Uuid) : Bool :=
  store.deployments.exists_ fun deployment =>
    deployment.projectId = projectId &&
      [DeploymentStatus.pending, .deploying, .healthcheck, .stopping].contains deployment.status &&
      !(deployment.status = .stopping && transitionStoppingIds.contains deployment.id)

def stoppable : DeploymentStatus → Bool
  | .pending | .deploying | .healthcheck | .running | .unhealthy | .stopping => true
  | .stopped | .failed => false

/-- Newest first, at most 500. -/
def listStoppableForProject (store : DeploymentStore) (projectId : Uuid) : List Deployment :=
  store.deployments.select (fun deployment => deployment.projectId = projectId && stoppable deployment.status)
    (fun left right => right.createdAt ≤ left.createdAt) 500

def nextRoutePriority (store : DeploymentStore) (projectId : Uuid) : Nat :=
  let priorities := (store.deployments.rows.filter fun deployment => deployment.projectId = projectId).map
    Deployment.routePriority
  max 100 (priorities.foldl max 99 + 1)

/-! ## Transitions -/

/-- The `values` dictionaries that are passed to `transition`. -/
inductive TransitionValues where
  | unchanged
  | starting (authOverlaySha256 : String)
  | provisioned (containerId imageDigest : String) (healthStatus : Option String)
  deriving Repr, DecidableEq

def TransitionValues.apply (deployment : Deployment) : TransitionValues → Deployment
  | unchanged => deployment
  | starting authOverlaySha256 =>
    { deployment with healthStatus := some "starting", authOverlaySha256 := some authOverlaySha256 }
  | provisioned containerId imageDigest healthStatus =>
    { deployment with containerId := some containerId, imageDigest := some imageDigest, healthStatus }

def transition (store : DeploymentStore) (deploymentId : Uuid) (expected : List DeploymentStatus)
    (status : DeploymentStatus) (values : TransitionValues := .unchanged) : Option DeploymentStore :=
  store.assignWhere deploymentId (fun deployment => expected.contains deployment.status)
    (fun deployment => { values.apply deployment with status })
    (by intro _; cases values <;> rfl)

/-! ## Activation -/

def activatingValues (proof : DeploymentActivationProof) (row : Deployment) : Deployment :=
  { row with
    status := .healthcheck
    healthStatus := some "activating"
    activationPhase := some .verified
    activationVerifiedAt := some proof.verifiedAt
    activationProofSha256 := some proof.proofSha256
    errorCode := none
    errorSummary := none }

/-- The predecessor gives up `RUNNING` in the transaction that moves the pointer away from it. -/
def retireRunning (store : DeploymentStore) (project : Project) (previousId : Option Uuid) : DeploymentStore :=
  match previousId with
  | none => store
  | some previous =>
    if project.activeDeploymentId = some previous then
      store.assignIf previous (fun old => old.status = .running) ({ · with status := .stopping })
    else
      store

def beginActivation (store : DeploymentStore) (deploymentId : Uuid) (proof : DeploymentActivationProof) :
    Option DeploymentStore := do
  let deployment ← store.deployments.get? deploymentId
  guard ([DeploymentStatus.deploying, .healthcheck].contains deployment.status)
  let project ← store.projects.get? deployment.projectId
  guard project.isEnabled
  guard (proofMatches deployment proof)
  guard ([none, some deploymentId, deployment.previousActiveDeploymentId].contains project.activeDeploymentId)
  let retired := store.retireRunning project deployment.previousActiveDeploymentId
  let activating := retired.assignIf deploymentId
    (fun row => [DeploymentStatus.deploying, .healthcheck].contains row.status) (activatingValues proof)
  return activating.point project.id (some deployment.buildId) (some deployment.id)

/-- A proof refreshed during the retirement of the predecessor keeps that phase. -/
def refreshedPhase : Option DeploymentActivationPhase → DeploymentActivationPhase
  | some .retiringPrevious => .retiringPrevious
  | _ => .verified

def refreshActivationProof (store : DeploymentStore) (deploymentId : Uuid)
    (proof : DeploymentActivationProof) : Option DeploymentStore := do
  let deployment ← store.deployments.get? deploymentId
  guard ([DeploymentStatus.healthcheck, .running].contains deployment.status)
  guard (proofMatches deployment proof)
  if deployment.status = .running then
    -- The proof that established the activation is historical evidence and stays.
    return store.assignIf deploymentId (fun row => row.status = .running)
      ({ · with healthStatus := some "healthy" })
  else
    return store.assign deploymentId fun row =>
      { row with
        activationPhase := some (refreshedPhase deployment.activationPhase)
        activationVerifiedAt := some proof.verifiedAt
        activationProofSha256 := some proof.proofSha256
        healthStatus := some "activating" }

def markRetiringPrevious (store : DeploymentStore) (deploymentId : Uuid) : Option DeploymentStore :=
  store.assignWhere deploymentId
    (fun deployment => deployment.status = .healthcheck &&
      [some DeploymentActivationPhase.verified, some .retiringPrevious].contains deployment.activationPhase &&
      deployment.activationVerifiedAt.isSome && deployment.activationProofSha256.isSome)
    ({ · with activationPhase := some .retiringPrevious })

def failedActivationValues (errorCode errorSummary : String) (now : Instant) (row : Deployment) : Deployment :=
  { row with
    status := .unhealthy
    healthStatus := some "unhealthy"
    activationPhase := some .failed
    failedAt := some now
    errorCode := some (truncate 128 errorCode)
    errorSummary := some (truncate 2000 errorSummary) }

def restoredValues (row : Deployment) : Deployment :=
  { row with status := .running, healthStatus := some "healthy", stoppedAt := none }

/-- The predecessor can take over: it was started once and is being or has been stopped. -/
def restorable (previous : Deployment) : Bool :=
  (previous.status = .stopping || previous.status = .stopped) && previous.startedAt.isSome

def restorePreviousAfterFailedActivation (store : DeploymentStore) (deploymentId : Uuid)
    (previousRuntimeReady : Bool) (errorCode errorSummary : String) (now : Instant) :
    Option DeploymentStore := do
  let deployment ← store.deployments.get? deploymentId
  match store.projects.get? deployment.projectId with
  | none => return store
  | some project =>
    if project.activeDeploymentId ≠ some deploymentId then
      return store
    else
      let failed := store.assignIf deploymentId (fun row => row.status = .healthcheck || row.status = .running)
        (failedActivationValues errorCode errorSummary now)
      match deployment.previousActiveDeploymentId.bind store.deployments.get? with
      | none => return failed.point project.id none none
      | some previous =>
        if previousRuntimeReady && restorable previous then
          let restored := failed.assignIf previous.id (fun row => row.status = .stopping || row.status = .stopped)
            restoredValues
          return restored.point project.id (some previous.buildId) (some previous.id)
        else
          return failed.point project.id none none

def stoppedValues (now : Instant) (row : Deployment) : Deployment :=
  { row with status := .stopped, healthStatus := some "stopped", stoppedAt := some now }

def runningValues (now : Instant) (row : Deployment) : Deployment :=
  { row with
    status := .running
    healthStatus := some "healthy"
    startedAt := some now
    activatedAt := some now
    activationPhase := some .running
    errorCode := none
    errorSummary := none }

def readyToComplete (row : Deployment) : Bool :=
  row.status = .healthcheck && row.activationPhase = some .retiringPrevious &&
    row.activationVerifiedAt.isSome && row.activationProofSha256.isSome

/-- The recorded predecessor must be stopping or stopped; a stopping one becomes stopped. -/
def retirePrevious (store : DeploymentStore) (deployment : Deployment) (now : Instant) :
    Option DeploymentStore :=
  match deployment.previousActiveDeploymentId with
  | none => some store
  | some previousId => do
    let previous ← store.deployments.get? previousId
    guard (previous.projectId = deployment.projectId)
    guard (previous.status = .stopping || (previous.status = .stopped && previous.stoppedAt.isSome))
    return store.assignIf previousId (fun row => row.status = .stopping) (stoppedValues now)

def completeActivation (store : DeploymentStore) (deploymentId : Uuid) (now : Instant) :
    Option DeploymentStore := do
  let deployment ← store.deployments.get? deploymentId
  guard (readyToComplete deployment)
  let project ← store.projects.get? deployment.projectId
  guard (project.isEnabled && project.activeDeploymentId = some deploymentId)
  let retired ← store.retirePrevious deployment now
  guard !(store.deployments.exists_ fun row =>
    row.projectId = deployment.projectId && row.id ≠ deploymentId && row.status = .running)
  retired.assignWhere deploymentId readyToComplete (runningValues now)

/-! ## Stopping and failing -/

def clearActive (store : DeploymentStore) (projectId deploymentId : Uuid) : DeploymentStore :=
  { store with
    projects := store.projects.update
      (fun project => project.id = projectId && project.activeDeploymentId = some deploymentId)
      (fun project => { project with activeDeploymentId := none }) }

def markStopped (store : DeploymentStore) (deploymentId : Uuid) (now : Instant) : DeploymentStore :=
  store.assign deploymentId (stoppedValues now)

def markFailed (store : DeploymentStore) (deploymentId : Uuid) (errorCode errorSummary : String)
    (unhealthy : Bool) (now : Instant) : Option DeploymentStore :=
  store.assignWhere deploymentId
    (fun deployment => [DeploymentStatus.pending, .deploying, .healthcheck].contains deployment.status)
    (fun deployment =>
      { deployment with
        status := if unhealthy then .unhealthy else .failed
        healthStatus := some (if unhealthy then "unhealthy" else "failed")
        activationPhase := some .failed
        failedAt := some now
        errorCode := some (truncate 128 errorCode)
        errorSummary := some (truncate 2000 errorSummary) })

def resetForRetry (store : DeploymentStore) (deploymentId : Uuid) : Option DeploymentStore :=
  store.assignWhere deploymentId
    (fun deployment => [DeploymentStatus.deploying, .healthcheck].contains deployment.status)
    (fun deployment =>
      { deployment with
        status := .pending
        containerId := none
        imageDigest := none
        healthStatus := none
        startedAt := none
        activatedAt := none
        activationPhase := none
        activationVerifiedAt := none
        activationProofSha256 := none
        failedAt := none
        errorCode := none
        errorSummary := none })

end DeploymentStore

end Mcplica.Deployments
