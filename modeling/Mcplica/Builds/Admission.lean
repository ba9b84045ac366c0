import Mcplica.Builds.Repository

/-! # Build admission

`BuildAdmissionRepository` as the dispatcher, the workers and the API use it at the same time. The
statements of `claim_available` are separate steps: other transactions commit between them, except on
the rows it has already written or selected, which stay locked until it ends. A renewal reads the clock
first and locks the row later; nothing keeps two workers from renewing under one token. -/

namespace Mcplica.Builds

open Mcplica.Domain Mcplica.Library

/-! ## The statements of the repository -/

/-- The rows the first statement of `claim_available` clears. -/
def expirable (now : Instant) (build : Build) : Bool :=
  build.admissionToken.isSome &&
    (build.status.terminal || build.admissionLeaseExpiresAt.any fun expires => expires ≤ now)

def activeAt (now : Instant) (build : Build) : Bool :=
  build.admissionToken.isSome && (build.admissionLeaseExpiresAt.any fun expires => now < expires) &&
    !build.status.terminal

def countActive (builds : BuildTable) (now : Instant) : Nat :=
  builds.count (activeAt now)

/-- Pending cancellations first, then started builds, then by age. -/
def admissionBefore (left right : Build) : Bool :=
  let rank (build : Build) := (if build.cancellationRequestedAt.isSome then 0 else 2) +
    (if build.status = .queued then 1 else 0)
  rank left < rank right || (rank left = rank right &&
    (left.createdAt < right.createdAt || (left.createdAt = right.createdAt && left.id ≤ right.id)))

/-- Rows another transaction has locked are skipped. -/
def selectCandidates (builds : BuildTable) (available : Nat) (locked : Uuid → Bool) : List Uuid :=
  (builds.select (fun build => !build.status.terminal && build.admissionToken.isNone && !locked build.id)
    admissionBefore available).map Build.id

def claimValues (token : Uuid) (now : Instant) (lease : Duration) (build : Build) : Build :=
  { build with
    admissionToken := some token
    admissionAcquiredAt := some now
    admissionEnqueuedAt := none
    admissionHeartbeatAt := some now
    admissionLeaseExpiresAt := some (now + lease)
    admissionReleasedAt := none
    admissionAttemptCount := build.admissionAttemptCount + 1 }

def markEnqueued (builds : BuildTable) (buildId token : Uuid) (now : Instant) : BuildTable :=
  (updateOwned builds buildId token (fun _ => true) ({ · with admissionEnqueuedAt := some now })).getD builds

inductive BuildLeaseState where
  | owned
  | cancellationRequested
  | lost
  deriving Repr, DecidableEq

def renewValues (now : Instant) (lease : Duration) (build : Build) : Build :=
  { build with admissionHeartbeatAt := some now, admissionLeaseExpiresAt := some (now + lease) }

def beginOrRenew (builds : BuildTable) (buildId token : Uuid) (lease : Duration) (now : Instant) :
    BuildTable × BuildLeaseState :=
  match builds.get? buildId with
  | none => (builds, .lost)
  | some build =>
    if holdsLease build token now && !build.status.terminal then
      if build.cancellationRequestedAt.isSome then
        (builds, .cancellationRequested)
      else
        (builds.update (fun row => row.id = buildId) (renewValues now lease), .owned)
    else
      (builds, .lost)

def release (builds : BuildTable) (buildId token : Uuid) (now : Instant) : BuildTable :=
  (updateOwned builds buildId token (fun _ => true) (releaseAdmission now)).getD builds

/-! ## The system -/

/-- How far the transaction of `claim_available` that holds the dispatch lock has come. -/
inductive ClaimPhase where
  | begun (now : Instant)
  | expired (now : Instant) (cleared : List Uuid)
  | counted (now : Instant) (cleared : List Uuid) (available : Nat)
  | selected (now : Instant) (cleared candidates : List Uuid)
  deriving Repr, DecidableEq

/-- The rows the transaction keeps locked. -/
def ClaimPhase.locked : ClaimPhase → List Uuid
  | begun _ => []
  | expired _ cleared | counted _ cleared _ => cleared
  | selected _ cleared candidates => cleared ++ candidates

/-- A `begin_or_renew` that has read the clock. `begin` holds the dispatch lock as well. -/
structure Renewal where
  buildId : Uuid
  token : Uuid
  now : Instant
  serialized : Bool
  deriving Repr, DecidableEq

structure AdmissionSystem where
  builds : BuildTable
  clock : Instant
  claim : Option ClaimPhase
  renewals : List Renewal
  /-- Tokens are drawn by `uuid4`: none is drawn twice and nobody presents one that was not drawn. -/
  tokensDrawn : Nat

namespace AdmissionSystem

def empty : AdmissionSystem := ⟨Table.empty, 0, none, [], 0⟩

def withBuilds (system : AdmissionSystem) (builds : BuildTable) : AdmissionSystem :=
  { system with builds }

/-- A transaction on a row that `claim_available` has locked waits. -/
def waits (system : AdmissionSystem) (buildId : Uuid) : Bool :=
  system.claim.any fun phase => phase.locked.contains buildId

/-- The table as the claiming transaction sees it. -/
def view (system : AdmissionSystem) (now : Instant) (cleared : List Uuid) : BuildTable :=
  system.builds.update (fun build => cleared.contains build.id) (releaseAdmission now)

inductive WorkerCall where
  | transition (expected target : BuildStatus)
  | setCanonicalSnapshot (snapshotId : Uuid)
  | setEmbeddingMetadata (model : Option String) (dimensions : Nat)
  | setEnrichment (enrichment enrichmentSha256 : String)
  | setManifest (manifestSha256 manifestStorageKey : String)
  | setArtifact (artifactSha256 artifactStorageKey : String)
  | fail (errorCode errorSummary : String)
  | markReady
  | acknowledgeCancellation
  deriving Repr, DecidableEq

def workerCall (builds : BuildTable) (buildId token : Uuid) (now : Instant) :
    WorkerCall → Except McplicaError BuildTable
  | .transition expected target => transition builds buildId expected target token now
  | .setCanonicalSnapshot snapshotId => setCanonicalSnapshot builds buildId snapshotId token now
  | .setEmbeddingMetadata model dimensions => setEmbeddingMetadata builds buildId model dimensions token now
  | .setEnrichment enrichment enrichmentSha256 => setEnrichment builds buildId enrichment enrichmentSha256 token now
  | .setManifest manifestSha256 storageKey => setManifest builds buildId manifestSha256 storageKey token now
  | .setArtifact artifactSha256 storageKey => setArtifact builds buildId artifactSha256 storageKey token now
  | .fail errorCode errorSummary => fail builds buildId errorCode errorSummary token now
  | .markReady => markReady builds buildId token now
  | .acknowledgeCancellation => acknowledgeCancellation builds buildId token now

inductive Action where
  | tick (elapsed : Nat)
  | create (new : NewBuild)
  | worker (buildId token : Uuid) (now : Instant) (call : WorkerCall)
  | requestCancellation (buildId requestedBy : Uuid) (now : Instant)
  | markEnqueued (buildId token : Uuid) (now : Instant)
  | release (buildId token : Uuid) (now : Instant)
  | renewBegin (buildId token : Uuid) (serialize : Bool)
  | renewFinish (renewal : Renewal)
  | renewAbort (renewal : Renewal)
  | claimBegin
  | claimExpire
  | claimCount
  | claimSelect (locked : Uuid → Bool)
  | claimCommit
  | claimAbort

section Step

variable (concurrency : Nat) (lease : Duration)

/-- The transaction commits: the cleared rows and, in their order, the candidates are written. -/
def commitClaim (system : AdmissionSystem) (now : Instant) (cleared candidates : List Uuid) : AdmissionSystem :=
  { system with
    builds := (system.view now cleared).update (fun build => candidates.contains build.id)
      (fun build => claimValues (system.tokensDrawn + candidates.idxOf build.id) now lease build)
    claim := none
    tokensDrawn := system.tokensDrawn + candidates.length }

def finishRenewal (system : AdmissionSystem) (renewal : Renewal) : AdmissionSystem :=
  { system with
    builds := (beginOrRenew system.builds renewal.buildId renewal.token lease renewal.now).1
    renewals := system.renewals.erase renewal }

def step (system : AdmissionSystem) : Action → AdmissionSystem
  | .tick elapsed => { system with clock := system.clock + elapsed }
  | .create new => system.withBuilds (commit system.builds (create system.builds new))
  | .worker buildId token now call =>
    if system.waits buildId then system
    else system.withBuilds (commit system.builds (workerCall system.builds buildId token now call))
  | .requestCancellation buildId requestedBy now =>
    if system.waits buildId then system
    else system.withBuilds (commit system.builds (requestCancellation system.builds buildId requestedBy now))
  | .markEnqueued buildId token now =>
    if system.waits buildId then system
    else system.withBuilds (markEnqueued system.builds buildId token now)
  | .release buildId token now =>
    if system.waits buildId then system
    else system.withBuilds (release system.builds buildId token now)
  | .renewBegin buildId token serialize =>
    if system.tokensDrawn ≤ token || (serialize && system.claim.isSome) then system
    else { system with renewals := ⟨buildId, token, system.clock, serialize⟩ :: system.renewals }
  | .renewFinish renewal =>
    if renewal ∉ system.renewals || system.waits renewal.buildId then system
    else finishRenewal lease system renewal
  | .renewAbort renewal => { system with renewals := system.renewals.erase renewal }
  | .claimBegin =>
    if system.claim.isSome || system.renewals.any Renewal.serialized then system
    else { system with claim := some (.begun system.clock) }
  | .claimExpire =>
    match system.claim with
    | some (.begun now) =>
      { system with claim := some (.expired now ((system.builds.rows.filter (expirable now)).map Build.id)) }
    | _ => system
  | .claimCount =>
    match system.claim with
    | some (.expired now cleared) =>
      { system with
        claim := some (.counted now cleared (concurrency - countActive (system.view now cleared) now)) }
    | _ => system
  | .claimSelect locked =>
    match system.claim with
    | some (.counted now cleared available) =>
      if available = 0 then system
      else { system with
        claim := some (.selected now cleared (selectCandidates (system.view now cleared) available locked)) }
    | _ => system
  | .claimCommit =>
    match system.claim with
    | some (.counted now cleared 0) => commitClaim lease system now cleared []
    | some (.selected now cleared candidates) => commitClaim lease system now cleared candidates
    | _ => system
  | .claimAbort => { system with claim := none }

end Step

end AdmissionSystem

end Mcplica.Builds
