import Mcplica.Builds.Records
import Mcplica.Library.Run

/-! # The build repository

`BuildRepository` and `require_build_execution_owner`. Each call is one transaction on the row it locks;
`now` is the clock reading it makes. -/

namespace Mcplica.Builds

open Mcplica.Domain Mcplica.Library

abbrev BuildTable := Table Build

/-- `require_build_execution_owner`: the live lease is verified before every ownership-sensitive write. -/
def requireBuildExecutionOwner (builds : BuildTable) (buildId token : Uuid) (now : Instant)
    (allowCancellation : Bool := false) : Except McplicaError Build := do
  let build ← orRaise (builds.get? buildId) .notFound "Build was not found"
  require (holdsLease build token now && !build.status.terminal) .executionOwnership
    "Build execution ownership is stale"
  if build.cancellationRequestedAt.isSome && !allowCancellation then
    raise .invalidState "Build cancellation is pending acknowledgement" (some "BUILD_CANCELLATION_REQUESTED")
  else
    return build

/-- `UPDATE … WHERE id = … AND admission_token = … AND …`, with its row count checked by the caller. -/
def updateOwned (builds : BuildTable) (buildId token : Uuid) (where_ : Build → Bool) (values : Build → Build)
    (keeps : ∀ build, (values build).id = build.id := by intro _; rfl) : Option BuildTable :=
  match builds.get? buildId with
  | none => none
  | some build =>
    if build.admissionToken = some token && where_ build then
      some (builds.update (fun row => row.id = buildId) values keeps)
    else
      none

/-! ## Transitions -/

def transitionValues (expected target : BuildStatus) (now : Instant) (build : Build) : Build :=
  let moved := { build with status := target, pipelineStage := some target }
  let started := if expected = .queued then { moved with startedAt := some now } else moved
  if target.terminal then releaseAdmission now { started with completedAt := some now } else started

theorem transitionValues_id (expected target : BuildStatus) (now : Instant) (build : Build) :
    (transitionValues expected target now build).id = build.id := by
  unfold transitionValues
  split <;> split <;> rfl

def transition (builds : BuildTable) (buildId : Uuid) (expected target : BuildStatus) (token : Uuid)
    (now : Instant) : Except McplicaError BuildTable := do
  let _ ← requireBuildExecutionOwner builds buildId token now
  require (nextStatus expected = some target) .invalidState
    ("Build transition " ++ expected.value ++ " -> " ++ target.value ++ " is not monotonic")
  orRaise
    (updateOwned builds buildId token
      (fun build => build.status = expected && build.cancellationRequestedAt.isNone)
      (transitionValues expected target now) (transitionValues_id expected target now))
    .invalidState ("Build did not transition from " ++ expected.value ++ " to " ++ target.value)

def markReady (builds : BuildTable) (buildId token : Uuid) (now : Instant) : Except McplicaError BuildTable :=
  transition builds buildId .packaging .ready token now

/-! ## Stage results -/

/-- `_stage_update`: the values of one stage are written while the build is in it. -/
def stageUpdate (builds : BuildTable) (buildId : Uuid) (status : BuildStatus) (token : Uuid) (now : Instant)
    (values : Build → Build) (keeps : ∀ build, (values build).id = build.id := by intro _; rfl) :
    Except McplicaError BuildTable := do
  let _ ← requireBuildExecutionOwner builds buildId token now
  orRaise
    (updateOwned builds buildId token
      (fun build => build.status = status && build.cancellationRequestedAt.isNone) values keeps)
    .invalidState ("Build is not in " ++ status.value)

def setCanonicalSnapshot (builds : BuildTable) (buildId snapshotId token : Uuid) (now : Instant) :
    Except McplicaError BuildTable :=
  stageUpdate builds buildId .parsing token now ({ · with canonicalSnapshotId := some snapshotId })

def setEmbeddingMetadata (builds : BuildTable) (buildId : Uuid) (model : Option String) (dimensions : Nat)
    (token : Uuid) (now : Instant) : Except McplicaError BuildTable :=
  stageUpdate builds buildId .indexing token now
    ({ · with embeddingModel := model, embeddingDimensions := some dimensions })

def setEnrichment (builds : BuildTable) (buildId : Uuid) (enrichment enrichmentSha256 : String) (token : Uuid)
    (now : Instant) : Except McplicaError BuildTable :=
  stageUpdate builds buildId .analyzing token now
    ({ · with enrichmentJson := some enrichment, enrichmentSha256 := some enrichmentSha256 })

/-- The ownership is checked once more before the lock on the object reference is taken. -/
def setManifest (builds : BuildTable) (buildId : Uuid) (manifestSha256 manifestStorageKey : String) (token : Uuid)
    (now : Instant) : Except McplicaError BuildTable := do
  let _ ← requireBuildExecutionOwner builds buildId token now
  stageUpdate builds buildId .compiling token now
    ({ · with manifestSha256 := some manifestSha256, manifestStorageKey := some manifestStorageKey })

def setArtifact (builds : BuildTable) (buildId : Uuid) (artifactSha256 artifactStorageKey : String) (token : Uuid)
    (now : Instant) : Except McplicaError BuildTable := do
  let _ ← requireBuildExecutionOwner builds buildId token now
  stageUpdate builds buildId .packaging token now
    ({ · with artifactSha256 := some artifactSha256, artifactStorageKey := some artifactStorageKey })

/-! ## Failure and cancellation -/

def failedValues (errorCode errorSummary : String) (now : Instant) (build : Build) : Build :=
  releaseAdmission now
    { build with
      status := .failed
      errorCode := some (truncate 128 errorCode)
      errorSummary := some (truncate 1000 errorSummary)
      completedAt := some now }

/-- The row count of this update is not looked at. -/
def fail (builds : BuildTable) (buildId : Uuid) (errorCode errorSummary : String) (token : Uuid) (now : Instant) :
    Except McplicaError BuildTable := do
  let _ ← requireBuildExecutionOwner builds buildId token now
  return (updateOwned builds buildId token
    (fun build => !build.status.terminal && build.cancellationRequestedAt.isNone)
    (failedValues errorCode errorSummary now)).getD builds

def requestCancellation (builds : BuildTable) (buildId requestedBy : Uuid) (now : Instant) :
    Except McplicaError BuildTable := do
  let build ← orRaise (builds.get? buildId) .invalidState "Build is unavailable"
  require (!build.status.terminal) .invalidState "Only an active Build can be cancelled"
  return builds.update (fun row => row.id = buildId && row.cancellationRequestedAt.isNone)
    ({ · with cancellationRequestedAt := some now, cancellationRequestedBy := some requestedBy })

def cancelledValues (now : Instant) (build : Build) : Build :=
  releaseAdmission now
    { build with
      status := .cancelled
      completedAt := some now
      cancellationAcknowledgedAt := some now
      manifestSha256 := none
      manifestStorageKey := none
      artifactSha256 := none
      artifactStorageKey := none }

def acknowledgeCancellation (builds : BuildTable) (buildId token : Uuid) (now : Instant) :
    Except McplicaError BuildTable := do
  let _ ← requireBuildExecutionOwner builds buildId token now true
  match updateOwned builds buildId token
      (fun build => !build.status.terminal && build.cancellationRequestedAt.isSome) (cancelledValues now) with
  | some cancelled => return cancelled
  | none =>
    if (builds.get? buildId).any fun build => build.status = .cancelled then
      return builds
    else
      raise .invalidState "Build cancellation is not pending acknowledgement"

/-! ## Creation -/

structure NewBuild where
  id : Uuid
  projectId : Uuid
  embeddingModel : Option String
  requestedBy : Uuid
  createdAt : Instant
  deriving Repr, DecidableEq

def activeForProject (builds : BuildTable) (projectId : Uuid) : Bool :=
  builds.exists_ fun build => build.projectId = projectId && !build.status.terminal

def nextSequence (builds : BuildTable) (projectId : Uuid) : Nat :=
  ((builds.rows.filter fun build => build.projectId = projectId).map Build.sequence).foldl max 0 + 1

def NewBuild.row (new : NewBuild) (sequence : Nat) : Build where
  id := new.id
  projectId := new.projectId
  sequence := sequence
  embeddingModel := new.embeddingModel
  requestedBy := new.requestedBy
  createdAt := new.createdAt

def create (builds : BuildTable) (new : NewBuild) : Except McplicaError BuildTable := do
  require (!activeForProject builds new.projectId) .conflict "The Project already has an active Build"
  orRaise (builds.insert (new.row (nextSequence builds new.projectId))) .conflict
    "duplicate key value violates unique constraint"

end Mcplica.Builds
