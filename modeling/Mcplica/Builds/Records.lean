import Mcplica.Domain.Shared
import Mcplica.Library.Table

/-! # Build records

The `builds` table and the order of the pipeline. Columns that are written once when the build is
created and that no operation below reads are left out. -/

namespace Mcplica.Builds

open Mcplica.Domain Mcplica.Library

inductive BuildStatus where
  | queued
  | ingesting
  | parsing
  | indexing
  | analyzing
  | compiling
  | validating
  | packaging
  | ready
  | failed
  | cancelled
  deriving Repr, DecidableEq

namespace BuildStatus

def value : BuildStatus → String
  | queued => "QUEUED"
  | ingesting => "INGESTING"
  | parsing => "PARSING"
  | indexing => "INDEXING"
  | analyzing => "ANALYZING"
  | compiling => "COMPILING"
  | validating => "VALIDATING"
  | packaging => "PACKAGING"
  | ready => "READY"
  | failed => "FAILED"
  | cancelled => "CANCELLED"

/-- Membership in `TERMINAL_STATUSES`. -/
def terminal : BuildStatus → Bool
  | ready | failed | cancelled => true
  | _ => false

end BuildStatus

def pipelineStatuses : List BuildStatus :=
  [.queued, .ingesting, .parsing, .indexing, .analyzing, .compiling, .validating, .packaging, .ready]

/-- `next_status`; a terminal status raises `ValueError`. -/
def nextStatus (current : BuildStatus) : Option BuildStatus :=
  if current.terminal then none else pipelineStatuses[pipelineStatuses.idxOf current + 1]?

structure Build where
  id : Uuid
  projectId : Uuid
  sequence : Nat
  status : BuildStatus := .queued
  pipelineStage : Option BuildStatus := some .queued
  canonicalSnapshotId : Option Uuid := none
  embeddingModel : Option String := none
  embeddingDimensions : Option Nat := none
  /-- The canonical text of the enrichment object. -/
  enrichmentJson : Option String := none
  enrichmentSha256 : Option String := none
  manifestSha256 : Option String := none
  manifestStorageKey : Option String := none
  artifactSha256 : Option String := none
  artifactStorageKey : Option String := none
  errorCode : Option String := none
  errorSummary : Option String := none
  requestedBy : Uuid
  createdAt : Instant
  startedAt : Option Instant := none
  completedAt : Option Instant := none
  cancellationRequestedAt : Option Instant := none
  cancellationRequestedBy : Option Uuid := none
  cancellationAcknowledgedAt : Option Instant := none
  admissionToken : Option Uuid := none
  admissionAcquiredAt : Option Instant := none
  admissionEnqueuedAt : Option Instant := none
  admissionHeartbeatAt : Option Instant := none
  admissionLeaseExpiresAt : Option Instant := none
  admissionReleasedAt : Option Instant := none
  admissionAttemptCount : Nat := 0
  deriving Repr, DecidableEq

instance : Row Build Uuid where
  key := Build.id

/-- The row holds the token and its lease has not run out at `now`. -/
def holdsLease (build : Build) (token : Uuid) (now : Instant) : Bool :=
  build.admissionToken = some token && build.admissionLeaseExpiresAt.any fun expires => now < expires

/-- `_release_admission_values`. -/
def releaseAdmission (now : Instant) (build : Build) : Build :=
  { build with
    admissionToken := none
    admissionEnqueuedAt := none
    admissionHeartbeatAt := none
    admissionLeaseExpiresAt := none
    admissionReleasedAt := some now }

end Mcplica.Builds
