import Mcplica.Builds.Records
import Mcplica.Cleanup.IndexFailure
import Mcplica.Sources.Lifecycle

/-! # Retention

`prepare_retention_job` over the rows of a project: its sources and their versions, its builds with what they are bound
to, and the deployments. Every transaction takes the lock of the project first, and none of them commits when a foreign
key is violated. -/

namespace Mcplica.Cleanup

open Mcplica.Domain Mcplica.Library Mcplica.Builds Mcplica.Sources

/-- A row of `build_source_versions`. -/
structure SourceBinding where
  buildId : Uuid
  sourceVersionId : Uuid
  sourceId : Uuid
  deriving Repr, DecidableEq

structure SourceFinding where
  buildId : Uuid
  sourceVersionId : Uuid
  deriving Repr, DecidableEq

/-- The columns of a deployment that refer to other rows. -/
structure DeploymentReference where
  id : Uuid
  projectId : Uuid
  buildId : Uuid
  deriving Repr, DecidableEq

structure CommandReference where
  id : Uuid
  deploymentId : Uuid
  buildId : Uuid
  deriving Repr, DecidableEq

structure RetentionStore where
  sources : SourceSystem
  builds : Table Build := Table.empty
  bindings : List SourceBinding := []
  findings : List SourceFinding := []
  snapshots : List Uuid := []
  generations : List IndexGeneration := []
  deployments : List DeploymentReference := []
  commands : List CommandReference := []
  /-- `projects.active_build_id` of the projects that have one -/
  activeBuilds : List (Uuid × Uuid) := []
  cleanup : CleanupSystem

/-- The operational settings; the retention of sources is the `timedelta` of its days. -/
structure RetentionSettings where
  buildRetentionCount : Option Nat
  sourceRetention : Option Duration
  deriving Repr, DecidableEq

namespace RetentionStore

variable (store : RetentionStore) (projectId : Uuid) (settings : RetentionSettings) (now : Instant)

abbrev sourceRows : Table SourceRow := store.sources.store.sources

abbrev versionRows : Table VersionRow := store.sources.store.versions

/-! ## Foreign keys -/

def hasBuild (buildId : Uuid) : Bool :=
  (store.builds.get? buildId).isSome

def hasVersion (sourceVersionId : Uuid) : Bool :=
  (store.versionRows.get? sourceVersionId).isSome

/-- The version belongs to the source. -/
def ownsVersion (sourceId sourceVersionId : Uuid) : Bool :=
  (store.versionRows.get? sourceVersionId).any (·.sourceId = sourceId)

/-- The foreign keys between these tables, as they are when a transaction commits. -/
def foreignKeys : Bool :=
  store.sourceRows.rows.all (fun row => row.currentVersionId.all (store.ownsVersion row.id)) &&
  store.versionRows.rows.all (fun version => (store.sourceRows.get? version.sourceId).isSome) &&
  store.bindings.all (fun binding => store.hasBuild binding.buildId &&
    store.ownsVersion binding.sourceId binding.sourceVersionId && (store.sourceRows.get? binding.sourceId).isSome) &&
  store.findings.all (fun finding => store.hasBuild finding.buildId && store.hasVersion finding.sourceVersionId) &&
  store.builds.rows.all (fun build => build.canonicalSnapshotId.all store.snapshots.contains) &&
  store.generations.all (fun generation => store.hasBuild generation.buildId) &&
  store.deployments.all (fun deployment => store.hasBuild deployment.buildId) &&
  store.commands.all (fun command => store.hasBuild command.buildId) &&
  store.activeBuilds.all (fun active => store.hasBuild active.2)

/-! ## What may go -/

/-- `ORDER BY sequence DESC` -/
def allBuilds : List Build :=
  store.builds.ordered (·.projectId = projectId) fun left right => right.sequence ≤ left.sequence

/-- `all_builds[: build_retention_count or len(all_builds)]` -/
def newestBuilds : List Build :=
  match settings.buildRetentionCount with
  | some (count + 1) => (store.allBuilds projectId).take (count + 1)
  | _ => store.allBuilds projectId

def isDeployed (buildId : Uuid) : Bool :=
  store.deployments.any fun deployment => deployment.projectId = projectId && deployment.buildId = buildId

/-- Membership in `protected_build_ids`. -/
def isProtected (build : Build) : Bool :=
  (store.newestBuilds projectId settings).any (·.id = build.id) || !build.status.terminal ||
    store.activeBuilds.lookup projectId = some build.id || store.isDeployed projectId build.id

def buildCandidates : List Build :=
  if settings.buildRetentionCount.isSome then
    (store.allBuilds projectId).filter fun build => build.status.terminal && !store.isProtected projectId settings build
  else
    []

def isCandidate (buildId : Uuid) : Bool :=
  (store.buildCandidates projectId settings).any (·.id = buildId)

/-- `ORDER BY created_at DESC, id DESC` -/
def newestVersionFirst (left right : VersionRow) : Bool :=
  right.createdAt < left.createdAt || (left.createdAt = right.createdAt && right.id ≤ left.id)

def versionsOf (sourceId : Uuid) : List VersionRow :=
  store.versionRows.ordered (·.sourceId = sourceId) newestVersionFirst

/-- A build that is not a candidate is bound to the version. -/
def remainingReference (version : VersionRow) : Bool :=
  store.bindings.any fun binding => binding.sourceVersionId = version.id &&
    !store.isCandidate projectId settings binding.buildId

def expiredVersion (cutoff : Instant) (version : VersionRow) : Bool :=
  version.createdAt < cutoff && !store.remainingReference projectId settings version

/-- The versions of each source but for the newest one. -/
def versionCandidates : List VersionRow :=
  match settings.sourceRetention with
  | none => []
  | some retention =>
    (store.sourceRows.rows.filter (·.projectId = projectId)).flatMap fun row =>
      (store.versionsOf row.id).tail.filter (store.expiredVersion projectId settings (now - retention))

/-! ## The job -/

def nulJoin (parts : List Text) : Text :=
  ("\x00" : Text).intercalate parts

/-- The key of the job is made from the sorted ids of the candidates. -/
def retentionRequest (sha256 : Text → Text) (jobId : Uuid) : JobRequest where
  id := jobId
  kind := .retention
  idempotencyKey :=
    ("retention:" : Text) ++ Text.ofUuid projectId ++ ':' :: sha256 (nulJoin (Text.ofUuid projectId ::
      Text.sorted ((store.buildCandidates projectId settings).map (Text.ofUuid ·.id)) ++
      Text.sorted ((store.versionCandidates projectId settings now).map (Text.ofUuid ·.id))))
  projectId := some projectId
  requestedBy := none
  requestId := none

/-- `capture_build_targets` of one build -/
def buildSubjects (build : Build) : List CleanupSubject :=
  let objects := [build.manifestStorageKey, build.artifactStorageKey].filterMap fun key =>
    key.map fun storageKey => CleanupSubject.object storageKey
  let generated := (store.generations.find? (·.buildId = build.id)).toList.flatMap fun generation =>
    (generation.chunkManifestStorageKey.map CleanupSubject.object).toList ++
      (generation.collectionName.map fun collectionName =>
        CleanupSubject.vectorGeneration collectionName generation.projectId generation.id).toList
  objects ++ generated

/-- The targets of the job, with ids that `uuid4` draws. -/
def retentionTargets (targetIds : Nat → Uuid) : List TargetRequest :=
  let subjects := (store.buildCandidates projectId settings).flatMap store.buildSubjects ++
    (store.versionCandidates projectId settings now).map fun version => .object version.storageKey
  subjects.zipIdx.map fun pair => ⟨targetIds pair.2, pair.1, none⟩

/-- The rows without the candidates; what belongs to a build goes with it, and a snapshot with its last build. -/
def withoutCandidates : RetentionStore :=
  let isGone (buildId : Uuid) : Bool := store.isCandidate projectId settings buildId
  let isGoneVersion (version : VersionRow) : Bool :=
    (store.versionCandidates projectId settings now).any (·.id = version.id)
  let builds := store.builds.delete (isGone ·.id)
  let orphaned := (store.buildCandidates projectId settings).filterMap (·.canonicalSnapshotId)
  { store with
    sources := { store.sources with
      store := { store.sources.store with versions := store.versionRows.delete isGoneVersion } }
    builds
    bindings := store.bindings.filter (!isGone ·.buildId)
    findings := store.findings.filter (!isGone ·.buildId)
    generations := store.generations.filter (!isGone ·.buildId)
    activeBuilds := store.activeBuilds.filter (!isGone ·.2)
    snapshots := store.snapshots.filter fun snapshot => !(orphaned.contains snapshot &&
      !builds.exists_ (·.canonicalSnapshotId = some snapshot)) }

inductive RetentionError where
  | foreignKey
  | duplicate
  deriving Repr, DecidableEq

/-- `prepare_retention_job` with the commit of its transaction. -/
def prepareRetentionJob (sha256 : Text → Text) (jobId : Uuid) (targetIds : Nat → Uuid) :
    Except RetentionError RetentionStore :=
  if (store.buildCandidates projectId settings).isEmpty && (store.versionCandidates projectId settings now).isEmpty then
    .ok store
  else
    match store.cleanup.store.capture sha256 (store.retentionRequest projectId settings now sha256 jobId)
        (store.retentionTargets projectId settings now targetIds) now with
    | none => .error .duplicate
    | some captured =>
      let next := store.withoutCandidates projectId settings now
      if next.foreignKeys then .ok { next with cleanup := { next.cleanup with store := captured } }
      else .error .foreignKey

end RetentionStore

/-! ## The system -/

/-- What a worker writes to the build it executes. -/
structure BuildProgress where
  status : BuildStatus
  canonicalSnapshotId : Option Uuid
  manifestStorageKey : Option String
  artifactStorageKey : Option String
  deriving Repr, DecidableEq

def BuildProgress.values (progress : BuildProgress) (build : Build) : Build :=
  { build with
    status := progress.status
    canonicalSnapshotId := progress.canonicalSnapshotId
    manifestStorageKey := progress.manifestStorageKey
    artifactStorageKey := progress.artifactStorageKey }

inductive RetentionAction where
  | source (action : SourceAction)
  /-- `create` of a build, bound to the current versions of the sources -/
  | createBuild (projectId buildId requestedBy : Uuid) (now : Instant)
  | advanceBuild (buildId : Uuid) (progress : BuildProgress)
  | addSnapshot (snapshotId : Uuid)
  | addGeneration (generation : IndexGeneration)
  /-- `_record_source_finding` -/
  | addFinding (buildId sourceVersionId : Uuid)
  /-- `_request_in_session`, which creates the command of the deployment too -/
  | deploy (projectId buildId deploymentId commandId : Uuid)
  /-- `_schedule_stop_in_session` -/
  | stop (deploymentId commandId : Uuid)
  /-- The active build of a project is the one of a deployment of it, or none. -/
  | setActive (projectId : Uuid) (deploymentId : Option Uuid)
  | cleanup (action : Instant × CleanupAction)
  | retain (projectId : Uuid) (settings : RetentionSettings) (now : Instant) (jobId : Uuid) (targetIds : Nat → Uuid)

namespace RetentionStore

def initial : RetentionStore :=
  { sources := SourceSystem.initial, cleanup := CleanupSystem.initial }

/-- `has_build_references` -/
def isReferenced (store : RetentionStore) (sourceId : Uuid) : Bool :=
  store.bindings.any fun binding => (store.versionRows.get? binding.sourceVersionId).any (·.sourceId = sourceId)

def isBound (store : RetentionStore) (buildId sourceVersionId : Uuid) : Bool :=
  store.bindings.any fun binding => binding.buildId = buildId && binding.sourceVersionId = sourceVersionId

def createBuild (store : RetentionStore) (projectId buildId requestedBy : Uuid) (now : Instant) : Option RetentionStore := do
  if store.builds.exists_ fun build => build.projectId = projectId && !build.status.terminal then
    none
  else
    let sequence := ((store.allBuilds projectId).head?.elim 0 (·.sequence)) + 1
    let builds ← store.builds.insert { id := buildId, projectId, sequence, requestedBy, createdAt := now }
    let bound := (store.sources.store.latestVersions projectId).map fun pair => ⟨buildId, pair.2.id, pair.1.id⟩
    return { store with builds, bindings := store.bindings ++ bound }

def advanceBuild (store : RetentionStore) (buildId : Uuid) (progress : BuildProgress) : RetentionStore :=
  { store with builds := store.builds.update (fun build => build.id = buildId && !build.status.terminal) progress.values }

def deploy (store : RetentionStore) (projectId buildId deploymentId commandId : Uuid) : Option RetentionStore := do
  let build ← store.builds.get? buildId
  if build.projectId = projectId && build.status = .ready then
    return { store with
      deployments := store.deployments ++ [⟨deploymentId, projectId, buildId⟩]
      commands := store.commands ++ [⟨commandId, deploymentId, buildId⟩] }
  else
    none

def stop (store : RetentionStore) (deploymentId commandId : Uuid) : Option RetentionStore := do
  let deployment ← store.deployments.find? (·.id = deploymentId)
  return { store with commands := store.commands ++ [⟨commandId, deploymentId, deployment.buildId⟩] }

def setActive (store : RetentionStore) (projectId : Uuid) (deploymentId : Option Uuid) : Option RetentionStore :=
  let cleared := store.activeBuilds.filter (·.1 ≠ projectId)
  match deploymentId with
  | none => some { store with activeBuilds := cleared }
  | some deploymentId => do
    let deployment ← store.deployments.find? fun deployment => deployment.id = deploymentId && deployment.projectId = projectId
    return { store with activeBuilds := (projectId, deployment.buildId) :: cleared }

section

variable (policy : SourceUrlPolicy) (unicode : Unicode) (sha256 : Text → Text)

/-- A source is not deleted while a build refers to it. -/
def sourceAction (store : RetentionStore) : SourceAction → SourceAction
  | .delete projectId sourceId _ => .delete projectId sourceId (store.isReferenced sourceId)
  | action => action

/-- The transaction of an action, up to its commit. -/
def transact (store : RetentionStore) : RetentionAction → Option RetentionStore
  | .source action => some { store with sources := store.sources.step policy unicode (store.sourceAction action) }
  | .createBuild projectId buildId requestedBy now => store.createBuild projectId buildId requestedBy now
  | .advanceBuild buildId progress => some (store.advanceBuild buildId progress)
  | .addSnapshot snapshotId => some { store with snapshots := store.snapshots ++ [snapshotId] }
  | .addGeneration generation => some { store with generations := store.generations ++ [generation] }
  | .addFinding buildId sourceVersionId =>
    if store.isBound buildId sourceVersionId then
      some { store with findings := store.findings ++ [⟨buildId, sourceVersionId⟩] }
    else
      none
  | .deploy projectId buildId deploymentId commandId => store.deploy projectId buildId deploymentId commandId
  | .stop deploymentId commandId => store.stop deploymentId commandId
  | .setActive projectId deploymentId => store.setActive projectId deploymentId
  | .cleanup action => some { store with cleanup := store.cleanup.step sha256 action }
  | .retain projectId settings now jobId targetIds =>
    (store.prepareRetentionJob projectId settings now sha256 jobId targetIds).toOption

/-- A transaction that raises or violates a foreign key is rolled back. -/
def step (store : RetentionStore) (action : RetentionAction) : RetentionStore :=
  ((store.transact policy unicode sha256 action).filter foreignKeys).getD store

end

end RetentionStore

end Mcplica.Cleanup
