import Mcplica.Deployments.StoreInvariant
import Mcplica.Deployments.CommandProtocol

/-! # The control plane

The deployment tables, the command table, the inbound access tokens and what the workers have done
outside the database, under the transactions of `ProjectService`, `MCPAccessService`,
`DeploymentService`, `RuntimeCommandExecutor` and `DeploymentRunner`.

Every transaction of the runner starts with the checkpoint of its command, so it carries the command's
id and token and is refused without them. The executor holds the project's advisory lock around all of
it, so the container that a restore has just probed is still there when its transaction commits. -/

namespace Mcplica.Deployments

open Mcplica.Domain Mcplica.Library

structure AccessToken where
  id : Uuid
  projectId : Uuid
  expiresAt : Option Instant := none
  revokedAt : Option Instant := none
  deriving Repr, DecidableEq

instance : Row AccessToken Uuid where
  key := AccessToken.id

structure ControlPlane where
  store : DeploymentStore
  commands : CommandStore
  accessTokens : Table AccessToken
  /-- The deployments whose recorded container exists, running or stopped. -/
  containers : List Uuid
  /-- The deployments whose auth overlay has been materialised. -/
  overlays : List Uuid

/-- What a service call passes to the commands it creates. The ids and sequence numbers are drawn per
deployment. -/
structure Origin where
  transitionId : Uuid
  requestedBy : Uuid
  requestId : Option String
  reason : String
  subjectType : Option String
  subjectId : Option Uuid
  commandId : RuntimeCommandAction → Uuid → Uuid
  sequence : RuntimeCommandAction → Uuid → Nat
  now : Instant

namespace Origin

def about (origin : Origin) (reason : String) (subjectType : Option String) (subjectId : Option Uuid) : Origin :=
  { origin with reason, subjectType, subjectId }

def command (origin : Origin) (action : RuntimeCommandAction) (deployment : Deployment) :
    CommandStore.NewCommand where
  id := origin.commandId action deployment.id
  projectId := deployment.projectId
  deploymentId := deployment.id
  buildId := deployment.buildId
  transitionId := origin.transitionId
  action := action
  reason := origin.reason
  subjectType := origin.subjectType
  subjectId := origin.subjectId
  requestedBy := origin.requestedBy
  requestId := origin.requestId
  idempotencyKey := match action with
    | .deploy => .deploy deployment.id
    | .stop => .stop deployment.id origin.transitionId

end Origin

namespace ControlPlane

def empty : ControlPlane := ⟨DeploymentStore.empty, CommandStore.empty, Table.empty, [], []⟩

def withStore (plane : ControlPlane) (store : DeploymentStore) : ControlPlane :=
  { plane with store }

def withCommands (plane : ControlPlane) (commands : CommandStore) : ControlPlane :=
  { plane with commands }

/-! ## Scheduling -/

def createCommand (plane : ControlPlane) (origin : Origin) (action : RuntimeCommandAction)
    (deployment : Deployment) : Except McplicaError ControlPlane := do
  let created ← plane.commands.create (origin.command action deployment)
    (origin.sequence action deployment.id) origin.now
  return plane.withCommands created.1

def scheduleStopInSession (plane : ControlPlane) (origin : Origin) (deployment : Deployment) :
    Except McplicaError ControlPlane := do
  let store ← plane.store.scheduleStop deployment
  (plane.withStore store).createCommand origin .stop deployment

def scheduleStops (plane : ControlPlane) (origin : Origin) : List Deployment → Except McplicaError ControlPlane
  | [] => .ok plane
  | deployment :: rest => do
    let stopped ← plane.scheduleStopInSession origin deployment
    stopped.scheduleStops origin rest

def scheduleStopProject (plane : ControlPlane) (origin : Origin) (projectId : Uuid) :
    Except McplicaError ControlPlane := do
  let _ ← orRaise (plane.store.projects.get? projectId) .notFound "Project was not found"
  plane.scheduleStops origin (plane.store.listStoppableForProject projectId)

def requestInSession (plane : ControlPlane) (origin : Origin) (project : Project) (request : DeploymentRequest)
    (transitionStoppingIds : List Uuid) : Except McplicaError ControlPlane := do
  let requested ← plane.store.requestDeployment project request transitionStoppingIds
  (plane.withStore requested.1).createCommand origin .deploy requested.2

/-- A transition id is drawn by `uuid4`, so no command carries it yet. -/
def freshTransition (plane : ControlPlane) (origin : Origin) : Bool :=
  !plane.commands.commands.exists_ fun command => command.transitionId = origin.transitionId

/-! ## Service transactions -/

def requestDeployment (plane : ControlPlane) (origin : Origin) (projectId : Uuid)
    (request : DeploymentRequest) : Except McplicaError ControlPlane := do
  let project ← orRaise (plane.store.projects.get? projectId) .notFound "Project was not found"
  plane.requestInSession origin project request []

def restart (digest : RuntimeIdentity → Instant → String) (plane : ControlPlane) (origin : Origin)
    (deploymentId : Uuid) (request : DeploymentRequest) : Except McplicaError ControlPlane := do
  let target ← orRaise (plane.store.deployments.get? deploymentId) .notFound "Deployment was not found"
  let project ← orRaise (plane.store.projects.get? target.projectId) .notFound "Project was not found"
  require (project.activeDeploymentId = some target.id) .invalidState
    "Only the active deployment can be restarted"
  require (target.status = .running) .invalidState "Only a running deployment can be restarted"
  require (isRestartEligible digest target project.activeDeploymentId) .invalidState
    "Restart target has no successful activation evidence"
  plane.requestInSession (origin.about "deployment.restarted" (some "deployment") (some target.id)) project
    { request with buildId := target.buildId, intent := .normal, stopOldFirst := false } []

def rollback (digest : RuntimeIdentity → Instant → String) (plane : ControlPlane) (origin : Origin)
    (projectId targetDeploymentId : Uuid) (request : DeploymentRequest) :
    Except McplicaError ControlPlane := do
  let project ← orRaise (plane.store.projects.get? projectId) .notFound "Project was not found"
  let target ← orRaise (plane.store.deployments.get? targetDeploymentId) .notFound
    "Rollback deployment was not found"
  require (target.projectId = projectId) .notFound "Rollback deployment was not found"
  require (isRollbackEligible digest target project.activeDeploymentId) .invalidState
    (if project.activeDeploymentId = some target.id then "Rollback target is already the active deployment"
      else "Rollback target was never a successful deployment")
  plane.requestInSession (origin.about "deployment.rollback_requested" (some "deployment") (some target.id)) project
    { request with buildId := target.buildId, intent := .rollback, stopOldFirst := false } []

def stop (plane : ControlPlane) (origin : Origin) (deploymentId : Uuid) : Except McplicaError ControlPlane := do
  let current ← orRaise (plane.store.deployments.get? deploymentId) .notFound "Deployment was not found"
  if current.status = .stopped ∨ current.status = .failed then
    return plane
  else
    plane.scheduleStopInSession (origin.about "deployment.stop_requested" none none) current

/-- The build a redeployment refreshes: the active deployment's, or the candidate's that is racing its
first activation. -/
def targetBuild (plane : ControlPlane) (project : Project) (stoppable : List Deployment) : Option Uuid :=
  match project.activeDeploymentId with
  | some activeId =>
    match plane.store.deployments.get? activeId with
    | some active => some active.buildId
    | none => project.activeBuildId
  | none =>
    match stoppable with
    | [] => project.activeBuildId
    | newest :: _ => some newest.buildId

structure RedeployOptions where
  stopOldFirst : Bool
  fallbackToStop : Bool
  deriving Repr, DecidableEq

def stoppedByRedeploy (options : RedeployOptions) (deployment : Deployment) : Bool :=
  options.stopOldFirst || deployment.status.inProgress

def scheduleRedeployActive (plane : ControlPlane) (origin : Origin) (projectId : Uuid)
    (request : DeploymentRequest) (options : RedeployOptions) : Except McplicaError ControlPlane := do
  let project ← orRaise (plane.store.projects.get? projectId) .notFound "Project was not found"
  let stoppable := plane.store.listStoppableForProject projectId
  let stopping := stoppable.filter (stoppedByRedeploy options)
  let stopped ← plane.scheduleStops origin stopping
  match plane.targetBuild project stoppable with
  | none => if options.fallbackToStop then stopped.scheduleStopProject origin projectId else return stopped
  | some buildId =>
    if !project.isEnabled then
      if options.fallbackToStop then stopped.scheduleStopProject origin projectId else return stopped
    else
      match stopped.requestInSession origin project
          { request with buildId, stopOldFirst := options.stopOldFirst } (stopping.map Deployment.id) with
      | .ok requested => return requested
      | .error error =>
        if (error.kind.isInvalidState || error.kind = .notFound) && options.fallbackToStop then
          stopped.scheduleStopProject origin projectId
        else
          .error error

/-- `ProjectService.update` of `is_enabled`. -/
def updateEnabled (plane : ControlPlane) (origin : Origin) (projectId : Uuid) (isEnabled : Bool) :
    Except McplicaError ControlPlane := do
  let store ← plane.store.setEnabled projectId isEnabled
  if isEnabled then
    return plane.withStore store
  else
    (plane.withStore store).scheduleStopProject
      (origin.about "deployment.project_disabled" (some "project") (some projectId)) projectId

/-! ## Access tokens -/

/-- `_schedule_security_effect`; `servable` is whether the inbound auth overlay could be materialised
from the current configuration and verifiers. -/
def scheduleSecurityEffect (plane : ControlPlane) (origin : Origin) (projectId : Uuid) (servable : Bool)
    (request : DeploymentRequest) : Except McplicaError ControlPlane :=
  if servable then
    plane.scheduleRedeployActive origin projectId { request with intent := .securityRefresh }
      { stopOldFirst := false, fallbackToStop := true }
  else
    plane.scheduleStopProject origin projectId

def issueToken (plane : ControlPlane) (token : AccessToken) : Except McplicaError ControlPlane := do
  let accessTokens ← orRaise (plane.accessTokens.insert token) .conflict
    "duplicate key value violates unique constraint"
  return { plane with accessTokens }

def createToken (plane : ControlPlane) (origin : Origin) (token : AccessToken) (staticMode servable : Bool)
    (request : DeploymentRequest) : Except McplicaError ControlPlane := do
  require (token.expiresAt.all fun expires => origin.now < expires) .validation
    "Token expiration must be a future timezone-aware value"
  let _ ← orRaise (plane.store.projects.get? token.projectId) .notFound "Project was not found"
  require staticMode .invalidState "Static access tokens require static bearer auth mode"
  let issued ← plane.issueToken { token with revokedAt := none }
  issued.scheduleSecurityEffect origin token.projectId servable request

def writeToken (plane : ControlPlane) (tokenId : Uuid) (values : AccessToken → AccessToken)
    (keeps : ∀ token, (values token).id = token.id := by intro _; rfl) : ControlPlane :=
  { plane with accessTokens := plane.accessTokens.update (fun token => token.id = tokenId) values keeps }

/-- The token a rotation or revocation acts on. -/
def currentToken (plane : ControlPlane) (projectId tokenId : Uuid) : Except McplicaError AccessToken := do
  let current ← orRaise (plane.accessTokens.get? tokenId) .notFound "MCP access token was not found"
  require (current.projectId = projectId) .notFound "MCP access token was not found"
  return current

def rotateToken (plane : ControlPlane) (origin : Origin) (projectId tokenId replacementId : Uuid)
    (overlapSeconds : Nat) (staticMode servable : Bool) (request : DeploymentRequest) :
    Except McplicaError ControlPlane := do
  require (overlapSeconds ≤ 900) .validation "Token rotation overlap must be between 0 and 900 seconds"
  let _ ← orRaise (plane.store.projects.get? projectId) .notFound "Project was not found"
  require staticMode .invalidState "Static access tokens require static bearer auth mode"
  let current ← plane.currentToken projectId tokenId
  require current.revokedAt.isNone .invalidState "Revoked MCP access tokens cannot be rotated"
  require (current.expiresAt.all fun expires => origin.now < expires) .invalidState
    "Expired MCP access tokens cannot be rotated"
  let overlapped := origin.now + overlapSeconds
  let expiresAt := match current.expiresAt with
    | none => overlapped
    | some expires => min overlapped expires
  let revokedAt := if overlapSeconds = 0 then some expiresAt else none
  let expired := plane.writeToken tokenId ({ · with expiresAt := some expiresAt, revokedAt })
  let issued ← expired.issueToken { id := replacementId, projectId, expiresAt := current.expiresAt }
  issued.scheduleSecurityEffect origin projectId servable request

/-- Revoking a token twice has no second effect. -/
def revokeToken (plane : ControlPlane) (origin : Origin) (projectId tokenId : Uuid) (servable : Bool)
    (request : DeploymentRequest) : Except McplicaError ControlPlane := do
  let _ ← orRaise (plane.store.projects.get? projectId) .notFound "Project was not found"
  let current ← plane.currentToken projectId tokenId
  if current.revokedAt.isSome then
    return plane
  else
    let revoked := plane.writeToken tokenId
      ({ · with revokedAt := some origin.now, expiresAt := some origin.now })
    revoked.scheduleSecurityEffect origin projectId servable request

/-! ## The executor and the runner -/

/-- The deployment a deploy command is executed for, fenced by its checkpoint. -/
def executing (plane : ControlPlane) (commandId token : Uuid) (now : Instant)
    (action : RuntimeCommandAction) : Except McplicaError RuntimeCommand := do
  let command ← plane.commands.requireExecutionOwner commandId token now
  require (command.action = action) .invalidState "The command asks for another action"
  return command

def runTargets (command : RuntimeCommand) : DeploymentStore.RunTargets where
  rollbackTargetId :=
    if command.reason = "deployment.rollback_requested" && command.subjectType = some "deployment" then
      command.subjectId
    else none
  restartTargetId :=
    if command.reason = "deployment.restarted" && command.subjectType = some "deployment" then
      command.subjectId
    else none

def verifyAndMarkEffective (plane : ControlPlane) (commandId token : Uuid) (now : Instant) :
    Except McplicaError ControlPlane := do
  let command ← plane.commands.requireExecutionOwner commandId token now
  let deployment ← orRaise (plane.store.deployments.get? command.deploymentId) .notFound
    "Runtime command deployment was not found"
  let effective := match command.action with
    | .deploy => deployment.status = .running
    | .stop => deployment.status = .stopped || deployment.status = .failed
  require effective .invalidState "Runtime command completed without reaching its requested effective state"
  return plane.withCommands (← plane.commands.markEffective commandId token now)

/-- The transactions the runner commits for a deploy command. -/
inductive DeployStep where
  | beginRun (builds : Uuid → Option DeployableBuild) (preflight : Except McplicaError Unit)
  | materialize
  | beginStartup (authOverlaySha256 : String)
  | activate (provisioned : DeploymentStore.ProvisionedRuntime)
  | confirm (terminalRunning : Bool) (proof : DeploymentActivationProof)
  | beginRetirement
  | finishActivation (proof : DeploymentActivationProof)
  | failActivation (previousRuntimeReady : Bool) (errorCode errorSummary : String)
  | resetForRetry
  | markFailed (errorCode errorSummary : String) (unhealthy : Bool)

/-- A predecessor is ready only if its recorded container still exists and passed its probes. -/
def previousReady (plane : ControlPlane) (deploymentId : Uuid) (probed : Bool) : Bool :=
  probed && (plane.store.deployments.get? deploymentId).any fun deployment =>
    deployment.previousActiveDeploymentId.any fun previous => plane.containers.contains previous

def deployStep (digest : RuntimeIdentity → Instant → String) (plane : ControlPlane) (command : RuntimeCommand)
    (now : Instant) : DeployStep → Except McplicaError ControlPlane
  | .beginRun builds preflight => do
    let begun ← plane.store.beginRun digest command.deploymentId (runTargets command) builds preflight
    return plane.withStore begun.1
  | .materialize => return { plane with overlays := command.deploymentId :: plane.overlays }
  | .beginStartup authOverlaySha256 => do
    return plane.withStore (← plane.store.beginStartup command.deploymentId authOverlaySha256)
  | .activate provisioned => do
    let store ← plane.store.activate command.deploymentId provisioned
    return { plane with store, containers := command.deploymentId :: plane.containers }
  | .confirm terminalRunning proof => do
    return plane.withStore (← plane.store.confirm command.deploymentId terminalRunning proof)
  | .beginRetirement => do return plane.withStore (← plane.store.beginRetirement command.deploymentId)
  | .finishActivation proof => do
    return plane.withStore (← plane.store.finishActivation command.deploymentId proof now)
  | .failActivation probed errorCode errorSummary =>
    return plane.withStore (plane.store.failActivation command.deploymentId
      (plane.previousReady command.deploymentId probed) errorCode errorSummary now)
  | .resetForRetry => return plane.withStore ((plane.store.resetForRetry command.deploymentId).getD plane.store)
  | .markFailed errorCode errorSummary unhealthy =>
    return plane.withStore
      ((plane.store.markFailed command.deploymentId errorCode errorSummary unhealthy now).getD plane.store)

/-- The transaction of `stop` and `_stop_existing`, once `runtime.stop(remove=True)` has returned. A stop
command stops its own deployment, a deploy command only others of its project. -/
def recordStopped (plane : ControlPlane) (command : RuntimeCommand) (targetId : Uuid) (now : Instant) :
    Except McplicaError ControlPlane := do
  let target ← orRaise (plane.store.deployments.get? targetId) .notFound "Deployment was not found"
  require (match command.action with
    | .stop => targetId = command.deploymentId
    | .deploy => targetId ≠ command.deploymentId && target.projectId = command.projectId)
    .invalidState "The command does not stop this deployment"
  require (!plane.containers.contains targetId) .invalidState "The runtime has not been removed"
  return plane.withStore (plane.store.recordStopped target now)

/-! ## The system -/

inductive Action where
  | createProject (projectId : Uuid) (hostname : String)
  | updateEnabled (origin : Origin) (projectId : Uuid) (isEnabled : Bool)
  | request (origin : Origin) (projectId : Uuid) (request : DeploymentRequest)
  | restart (origin : Origin) (deploymentId : Uuid) (request : DeploymentRequest)
  | rollback (origin : Origin) (projectId targetDeploymentId : Uuid) (request : DeploymentRequest)
  | redeployActive (origin : Origin) (projectId : Uuid) (request : DeploymentRequest) (options : RedeployOptions)
  | stop (origin : Origin) (deploymentId : Uuid)
  | stopProject (origin : Origin) (projectId : Uuid)
  | createToken (origin : Origin) (token : AccessToken) (staticMode servable : Bool) (request : DeploymentRequest)
  | rotateToken (origin : Origin) (projectId tokenId replacementId : Uuid) (overlapSeconds : Nat)
      (staticMode servable : Bool) (request : DeploymentRequest)
  | revokeToken (origin : Origin) (projectId tokenId : Uuid) (servable : Bool) (request : DeploymentRequest)
  | claimDueForDispatch (limit : Nat) (lease : Duration) (locked : Uuid → Bool) (now : Instant)
  | claimForExecution (commandId token : Uuid) (lease : Duration) (now : Instant)
  | renewExecution (commandId token : Uuid) (lease : Duration) (now : Instant)
  | markDispatchFailed (commandId token : Uuid) (errorCode errorSummary : String) (retryDelay : Duration)
      (now : Instant)
  | markCommandFailed (commandId token : Uuid) (failure : CommandStore.Failure) (now : Instant)
  | markEffective (commandId token : Uuid) (now : Instant)
  | deploy (commandId token : Uuid) (now : Instant) (step : DeployStep)
  | removeContainer (deploymentId : Uuid)
  | recordStopped (commandId token : Uuid) (now : Instant) (targetId : Uuid)

/-- The origin whose transition id a service transaction draws. -/
def Action.origin? : Action → Option Origin
  | updateEnabled origin .. | request origin .. | restart origin .. | rollback origin .. => some origin
  | redeployActive origin .. | stop origin .. | stopProject origin .. => some origin
  | createToken origin .. | rotateToken origin .. | revokeToken origin .. => some origin
  | _ => none

def transact (digest : RuntimeIdentity → Instant → String) (plane : ControlPlane) :
    Action → Except McplicaError ControlPlane
  | .createProject projectId hostname => do
    return plane.withStore (← plane.store.createProject projectId hostname)
  | .updateEnabled origin projectId isEnabled => plane.updateEnabled origin projectId isEnabled
  | .request origin projectId request => plane.requestDeployment origin projectId request
  | .restart origin deploymentId request => plane.restart digest origin deploymentId request
  | .rollback origin projectId targetId request => plane.rollback digest origin projectId targetId request
  | .redeployActive origin projectId request options =>
    plane.scheduleRedeployActive origin projectId request options
  | .stop origin deploymentId => plane.stop origin deploymentId
  | .stopProject origin projectId => plane.scheduleStopProject origin projectId
  | .createToken origin token staticMode servable request =>
    plane.createToken origin token staticMode servable request
  | .rotateToken origin projectId tokenId replacementId overlapSeconds staticMode servable request =>
    plane.rotateToken origin projectId tokenId replacementId overlapSeconds staticMode servable request
  | .revokeToken origin projectId tokenId servable request =>
    plane.revokeToken origin projectId tokenId servable request
  | .claimDueForDispatch limit lease locked now =>
    return plane.withCommands (plane.commands.claimDueForDispatch limit lease locked now)
  | .claimForExecution commandId token lease now =>
    return plane.withCommands (plane.commands.claimForExecution commandId token lease now).1
  | .renewExecution commandId token lease now =>
    return plane.withCommands (plane.commands.renewExecution commandId token lease now).1
  | .markDispatchFailed commandId token errorCode errorSummary retryDelay now =>
    return plane.withCommands
      (plane.commands.markDispatchFailed commandId token errorCode errorSummary retryDelay now).1
  | .markCommandFailed commandId token failure now => do
    return plane.withCommands (← plane.commands.markFailed commandId token failure now)
  | .markEffective commandId token now => plane.verifyAndMarkEffective commandId token now
  | .deploy commandId token now step => do
    let command ← plane.executing commandId token now .deploy
    plane.deployStep digest command now step
  | .removeContainer deploymentId =>
    return { plane with containers := plane.containers.filter (· ≠ deploymentId) }
  | .recordStopped commandId token now targetId => do
    let command ← plane.commands.requireExecutionOwner commandId token now
    plane.recordStopped command targetId now

def step (digest : RuntimeIdentity → Instant → String) (plane : ControlPlane) (action : Action) : ControlPlane :=
  if action.origin?.all plane.freshTransition then
    commit plane (plane.transact digest action)
  else
    plane

end ControlPlane

end Mcplica.Deployments
