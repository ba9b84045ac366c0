import Mcplica.Deployments.Repository
import Mcplica.Library.Run

/-! # Deployment transactions

What `ProjectService`, `DeploymentService` and `DeploymentRunner` commit through the repository, one
definition per transaction. The builds table, the deployability preflight, the activation proof a runtime
returns and the clock are read from outside and are parameters. -/

namespace Mcplica.Deployments

open Mcplica.Domain Mcplica.Library

/-! ## Requests -/

structure DeploymentRequest where
  deploymentId : Uuid
  buildId : Uuid
  intent : DeploymentIntent
  stopOldFirst : Bool
  /-- The builds table as the transaction reads it. -/
  builds : Uuid → Option DeployableBuild
  /-- The outcome of `DeploymentPreflight.validate`. -/
  preflight : Except McplicaError Unit
  runtimeVersion : String
  now : Instant

/-- `text.lower()` on the texts that pass the digest check. -/
def lowerHex (text : String) : String :=
  String.ofList (text.toList.map Char.toLower)

def isManifestDigest (text : String) : Bool :=
  text.toList.length = 64 && (lowerHex text).toList.all fun value => "0123456789abcdef".toList.contains value

def manifestOf (build : DeployableBuild) : Option String :=
  match build.manifestSha256, build.manifestStorageKey with
  | some manifestSha256, some storageKey =>
    if manifestSha256 = "" || storageKey = "" then none else some manifestSha256
  | _, _ => none

def requestedRow (request : DeploymentRequest) (project : Project) (manifestSha256 : String)
    (routePriority : Nat) : Deployment where
  id := request.deploymentId
  projectId := project.id
  buildId := request.buildId
  intent := request.intent
  previousActiveDeploymentId := project.activeDeploymentId
  status := .pending
  hostname := project.hostname
  runtimeVersion := request.runtimeVersion
  manifestSha256 := lowerHex manifestSha256
  routePriority := routePriority
  stopOldFirst := request.stopOldFirst
  createdAt := request.now

namespace DeploymentStore

/-- `_request_in_session` up to the deploy command, with the project row locked by its caller. -/
def requestDeployment (store : DeploymentStore) (project : Project) (request : DeploymentRequest)
    (transitionStoppingIds : List Uuid) : Except McplicaError (DeploymentStore × Deployment) := do
  require project.isEnabled .invalidState "Disabled projects cannot be deployed"
  require (!store.hasInProgress project.id transitionStoppingIds) .invalidState
    "A deployment is already in progress for this project"
  let build ← orRaise (request.builds request.buildId) .notFound "Build was not found"
  require (build.projectId = project.id) .notFound "Build was not found"
  require build.ready .invalidState "Only READY builds can be deployed"
  let manifestSha256 ← orRaise (manifestOf build) .invalidState
    "READY build has no immutable manifest artifact"
  require (isManifestDigest manifestSha256) .invalidState "Build manifest identity is invalid"
  request.preflight
  let routePriority := store.nextRoutePriority project.id
  require (routePriority < 2147482647) .invalidState "Project route priority space is exhausted"
  let row := requestedRow request project manifestSha256 routePriority
  let deployments ← orRaise (store.deployments.insert row) .conflict
    "duplicate key value violates unique constraint"
  return ({ store with deployments }, row)

/-- `_schedule_stop_in_session` up to the stop command. -/
def scheduleStop (store : DeploymentStore) (deployment : Deployment) : Except McplicaError DeploymentStore :=
  if deployment.status = .stopping then
    .ok store
  else
    match store.transition deployment.id [.pending, .deploying, .healthcheck, .running, .unhealthy] .stopping with
    | some stopped => .ok stopped
    | none =>
      match store.deployments.get? deployment.id with
      | some _ => .ok store
      | none => raise .notFound "Deployment was not found"

/-! ## Projects -/

def createProject (store : DeploymentStore) (projectId : Uuid) (hostname : String) :
    Except McplicaError DeploymentStore := do
  let projects ← orRaise (store.projects.insert { id := projectId, hostname }) .conflict
    "duplicate key value violates unique constraint"
  return { store with projects }

/-- The `is_enabled` column of `ProjectService.update`. -/
def setEnabled (store : DeploymentStore) (projectId : Uuid) (isEnabled : Bool) :
    Except McplicaError DeploymentStore := do
  let _ ← orRaise (store.projects.get? projectId) .notFound "Project was not found"
  return { store with
    projects := store.projects.update (fun project => project.id = projectId) ({ · with isEnabled }) }

/-! ## The runner -/

/-- What the first transaction of `DeploymentRunner.run` decides. -/
inductive RunBranch where
  | terminalRunning
  | finished
  | activationPending
  | deploying
  deriving Repr, DecidableEq

/-- The immutable targets a deploy command may carry. -/
structure RunTargets where
  rollbackTargetId : Option Uuid := none
  restartTargetId : Option Uuid := none
  deriving Repr, DecidableEq

section Runner

variable (digest : RuntimeIdentity → Instant → String)

def rollbackTargetEligible (store : DeploymentStore) (deployment : Deployment) (project : Project)
    (targetId : Uuid) : Bool :=
  (store.deployments.get? targetId).any fun target =>
    target.projectId = deployment.projectId && target.buildId = deployment.buildId &&
      isRollbackEligible digest target project.activeDeploymentId

def restartTargetEligible (store : DeploymentStore) (deployment : Deployment) (project : Project)
    (targetId : Uuid) : Bool :=
  (store.deployments.get? targetId).any fun target =>
    deployment.intent = .normal && target.projectId = deployment.projectId &&
      target.buildId = deployment.buildId && deployment.previousActiveDeploymentId = some target.id &&
      isRestartEligible digest target project.activeDeploymentId

def checkTargets (store : DeploymentStore) (deployment : Deployment) (project : Project) (targets : RunTargets) :
    Except McplicaError Unit := do
  if deployment.intent = .rollback then
    require targets.restartTargetId.isNone .invalidState "Rollback deployments may not carry a restart target"
    let targetId ← orRaise targets.rollbackTargetId .invalidState
      "Rollback deployment is missing its immutable target"
    require (store.rollbackTargetEligible digest deployment project targetId) .invalidState
      "Rollback target is no longer eligible for activation"
  else
    require targets.rollbackTargetId.isNone .invalidState
      "Only rollback deployments may carry a rollback target"
  match targets.restartTargetId with
  | none => .ok ()
  | some targetId =>
    require (store.restartTargetEligible digest deployment project targetId) .invalidState
      "Restart target is no longer eligible for activation"

def buildStillDeployable (deployment : Deployment) (build : DeployableBuild) : Bool :=
  build.projectId = deployment.projectId && build.ready &&
    build.manifestStorageKey.any (· ≠ "") && build.manifestSha256 = some deployment.manifestSha256

/-- The first transaction of `run`. -/
def beginRun (store : DeploymentStore) (deploymentId : Uuid) (targets : RunTargets)
    (builds : Uuid → Option DeployableBuild) (preflight : Except McplicaError Unit) :
    Except McplicaError (DeploymentStore × RunBranch) := do
  let deployment ← orRaise (store.deployments.get? deploymentId) .notFound "Deployment was not found"
  match deployment.status with
  | .running => return (store, .terminalRunning)
  | .unhealthy | .stopped | .failed | .stopping => return (store, .finished)
  | .pending | .deploying | .healthcheck =>
    let project ← orRaise (store.projects.get? deployment.projectId) .invalidState
      "Deployment project is unavailable"
    require project.isEnabled .invalidState "Deployment project is unavailable"
    if deployment.status = .healthcheck && deployment.healthStatus = some "activating" &&
        project.activeDeploymentId = some deployment.id then
      return (store, .activationPending)
    else
      let build ← orRaise (builds deployment.buildId) .invalidState "Deployment build is no longer deployable"
      require (buildStillDeployable deployment build) .invalidState "Deployment build is no longer deployable"
      store.checkTargets digest deployment project targets
      let next ← orRaise (store.transition deploymentId [.pending, .deploying, .healthcheck] .deploying)
        .notFound "Deployment was not found"
      preflight
      return (next, .deploying)

end Runner

/-- The secrets are materialised and the container is about to be created. -/
def beginStartup (store : DeploymentStore) (deploymentId : Uuid) (authOverlaySha256 : String) :
    Except McplicaError DeploymentStore :=
  orRaise (store.transition deploymentId [.deploying, .healthcheck] .healthcheck (.starting authOverlaySha256))
    .invalidState "Deployment was cancelled before startup"

structure ProvisionedRuntime where
  containerId : String
  imageDigest : String
  healthStatus : Option String
  activationProof : DeploymentActivationProof
  deriving Repr, DecidableEq

/-- The provisioned container is recorded and the activation begins, or neither happens. -/
def activate (store : DeploymentStore) (deploymentId : Uuid) (provisioned : ProvisionedRuntime) :
    Except McplicaError DeploymentStore := do
  let recorded ← orRaise
    (store.transition deploymentId [.healthcheck] .healthcheck
      (.provisioned provisioned.containerId provisioned.imageDigest provisioned.healthStatus))
    .invalidState "Deployment was cancelled during startup"
  orRaise (recorded.beginActivation deploymentId provisioned.activationProof) .invalidState
    "Deployment was cancelled before activation"

/-- The runtime of a running or an activating deployment was proved again. -/
def confirm (store : DeploymentStore) (deploymentId : Uuid) (terminalRunning : Bool)
    (proof : DeploymentActivationProof) : Except McplicaError DeploymentStore :=
  orRaise (store.refreshActivationProof deploymentId proof) .invalidState
    (if terminalRunning then "Running deployment activation proof could not be refreshed"
      else "Activation proof could not be persisted before cleanup")

/-- The first transaction of `_finish_activation`. -/
def beginRetirement (store : DeploymentStore) (deploymentId : Uuid) : Except McplicaError DeploymentStore := do
  let retiring ← orRaise (store.markRetiringPrevious deploymentId) .invalidState
    "Deployment activation proof is unavailable"
  let candidate ← orRaise (retiring.deployments.get? deploymentId) .invalidState
    "Deployment activation candidate disappeared"
  match candidate.previousActiveDeploymentId with
  | none => return retiring
  | some previousId =>
    let predecessor ← orRaise (retiring.deployments.get? previousId) .invalidState
      "Deployment predecessor is not ready for retirement"
    require (predecessor.status = .stopping || predecessor.status = .stopped) .invalidState
      "Deployment predecessor is not ready for retirement"
    return retiring

/-- The second transaction of `_finish_activation`. -/
def finishActivation (store : DeploymentStore) (deploymentId : Uuid) (proof : DeploymentActivationProof)
    (now : Instant) : Except McplicaError DeploymentStore := do
  let refreshed ← orRaise (store.refreshActivationProof deploymentId proof) .invalidState
    "Activation proof could not be persisted after predecessor retirement"
  orRaise (refreshed.completeActivation deploymentId now) .invalidState
    "Deployment could not complete activation"

/-- The transaction of `_fail_activation_and_restore`; a missing row is not an error there. -/
def failActivation (store : DeploymentStore) (deploymentId : Uuid) (previousRuntimeReady : Bool)
    (errorCode errorSummary : String) (now : Instant) : DeploymentStore :=
  (store.restorePreviousAfterFailedActivation deploymentId previousRuntimeReady errorCode errorSummary now).getD
    store

/-- The transaction of `stop` and `_stop_existing`. -/
def recordStopped (store : DeploymentStore) (deployment : Deployment) (now : Instant) : DeploymentStore :=
  (store.clearActive deployment.projectId deployment.id).markStopped deployment.id now

end DeploymentStore

end Mcplica.Deployments
