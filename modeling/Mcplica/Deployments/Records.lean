import Mcplica.Domain.Shared
import Mcplica.Library.Table

/-! # Deployment records

The project and deployment rows as far as the deployment subsystem reads or writes them, the activation
proof, and the eligibility predicates of `app.domain.deployments`. -/

namespace Mcplica.Deployments

open Mcplica.Domain Mcplica.Library

inductive DeploymentStatus where
  | pending
  | deploying
  | healthcheck
  | running
  | unhealthy
  | stopping
  | stopped
  | failed
  deriving Repr, DecidableEq

namespace DeploymentStatus

/-- The statuses between a request and its outcome. -/
def inProgress : DeploymentStatus → Bool
  | pending | deploying | healthcheck => true
  | running | unhealthy | stopping | stopped | failed => false

end DeploymentStatus

inductive DeploymentIntent where
  | normal
  | securityRefresh
  | rollback
  deriving Repr, DecidableEq

inductive DeploymentActivationPhase where
  | verified
  | retiringPrevious
  | running
  | legacyRunning
  | failed
  deriving Repr, DecidableEq

structure Project where
  id : Uuid
  hostname : String
  isEnabled : Bool := true
  activeBuildId : Option Uuid := none
  activeDeploymentId : Option Uuid := none
  deriving Repr, DecidableEq

structure Deployment where
  id : Uuid
  projectId : Uuid
  buildId : Uuid
  intent : DeploymentIntent := .normal
  previousActiveDeploymentId : Option Uuid := none
  status : DeploymentStatus
  hostname : String
  containerId : Option String := none
  imageDigest : Option String := none
  runtimeVersion : String
  manifestSha256 : String
  authOverlaySha256 : Option String := none
  routePriority : Nat
  stopOldFirst : Bool
  healthStatus : Option String := none
  createdAt : Instant
  startedAt : Option Instant := none
  activatedAt : Option Instant := none
  activationPhase : Option DeploymentActivationPhase := none
  activationVerifiedAt : Option Instant := none
  activationProofSha256 : Option String := none
  stoppedAt : Option Instant := none
  failedAt : Option Instant := none
  errorCode : Option String := none
  errorSummary : Option String := none
  deriving Repr, DecidableEq

instance : Row Project Uuid where
  key := Project.id

instance : Row Deployment Uuid where
  key := Deployment.id

@[simp] theorem key_project (project : Project) : Row.key project = project.id := rfl

@[simp] theorem key_deployment (deployment : Deployment) : Row.key deployment = deployment.id := rfl

/-- What `get_build` returns of a build. -/
structure DeployableBuild where
  id : Uuid
  projectId : Uuid
  ready : Bool
  manifestSha256 : Option String
  manifestStorageKey : Option String
  deriving Repr, DecidableEq

/-- The exact runtime an activation proof is about. -/
structure RuntimeIdentity where
  deploymentId : Uuid
  projectId : Uuid
  buildId : Uuid
  containerId : String
  imageDigest : String
  hostname : String
  manifestSha256 : String
  runtimeVersion : String
  deriving Repr, DecidableEq

structure DeploymentActivationProof where
  runtime : RuntimeIdentity
  verifiedAt : Instant
  proofSha256 : String
  deriving Repr, DecidableEq

/-- The runtime a row records, once a container was provisioned for it. -/
def Deployment.runtime? (deployment : Deployment) : Option RuntimeIdentity :=
  match deployment.containerId, deployment.imageDigest with
  | some containerId, some imageDigest => some {
      deploymentId := deployment.id
      projectId := deployment.projectId
      buildId := deployment.buildId
      containerId
      imageDigest
      hostname := deployment.hostname
      manifestSha256 := deployment.manifestSha256
      runtimeVersion := deployment.runtimeVersion }
  | _, _ => none

def proofMatches (deployment : Deployment) (proof : DeploymentActivationProof) : Bool :=
  deployment.runtime? = some proof.runtime

section Eligibility

-- `activation_proof_sha256`: the digest of the canonical JSON text of its arguments.
variable (digest : RuntimeIdentity → Instant → String)

def hasSuccessfulActivation (record : Deployment) : Bool :=
  match record.runtime? with
  | none => false
  | some runtime =>
    record.activatedAt.isSome && record.startedAt.isSome &&
      (record.activationPhase = some .legacyRunning ||
        match record.activationVerifiedAt, record.activationProofSha256 with
        | some verifiedAt, some proofSha256 => digest runtime verifiedAt = proofSha256
        | _, _ => false)

def isRollbackEligible (record : Deployment) (activeDeploymentId : Option Uuid) : Bool :=
  some record.id ≠ activeDeploymentId && hasSuccessfulActivation digest record

def isRestartEligible (record : Deployment) (activeDeploymentId : Option Uuid) : Bool :=
  some record.id = activeDeploymentId && record.status = .running && hasSuccessfulActivation digest record

end Eligibility

end Mcplica.Deployments
