import Mcplica.Sources.Creation

/-! # The life of a source

The transactions of `SourceService` after a source was created, and `create` that makes one without content. A call
that adds a version reads the record of its source in a transaction of its own, long before it persists. -/

namespace Mcplica.Sources

open Mcplica.Domain Mcplica.Library Mcplica.Contracts

/-- What `_persist_version` is called with; the source is the record that was read before the content was fetched. -/
structure VersionAddition where
  source : ProjectSource
  content : StoredContent
  actorUserId : Uuid
  versionId : Uuid
  now : Instant
  deriving Repr, DecidableEq

/-- The addition as a creation that asks for nothing. -/
def VersionAddition.creation (addition : VersionAddition) : SourceCreation where
  sourceId := addition.source.id
  projectId := addition.source.projectId
  kind := addition.source.kind
  name := addition.source.name
  originType := .upload
  sourceUrl := addition.source.sourceUrl
  isPrimary := false
  content := addition.content
  actorUserId := addition.actorUserId
  versionId := addition.versionId
  now := addition.now

structure SourceUpdate where
  projectId : Uuid
  sourceId : Uuid
  name : Option Text
  isPrimary : Option Bool
  deriving Repr, DecidableEq

namespace SourceStore

def projectNotFound : SourceServiceError :=
  .service ⟨.notFound, "Project was not found", none⟩

def sourceNotFound : SourceServiceError :=
  .service ⟨.notFound, "Source was not found", none⟩

/-- The source under the locks of its project and its row. -/
def lockSource (store : SourceStore) (projectId sourceId : Uuid) : Except SourceServiceError SourceRow := do
  ensure (store.projects.contains projectId) projectNotFound
  let row ← obtain? (store.sources.get? sourceId) sourceNotFound
  ensure (row.projectId = projectId) sourceNotFound
  return row

/-- `create`: a source without content is never the primary one. -/
def createBare (policy : SourceUrlPolicy) (unicode : Unicode) (store : SourceStore) (creation : SourceCreation) :
    Except SourceServiceError SourceStore := do
  let creation ← creation.normalize policy unicode
  ensure (!creation.isPrimary) (.service ⟨.invalidState,
    "Primary designation requires an atomic source-with-first-version request", none⟩)
  ensure (store.projects.contains creation.projectId) projectNotFound
  let sources ← obtain? (store.sources.insert (newSource creation)) integrityError
  return { store with sources }

/-- The transaction of `create_with_upload` and `create_with_url`. -/
def createVersioned (policy : SourceUrlPolicy) (unicode : Unicode) (store : SourceStore) (creation : SourceCreation) :
    Except SourceServiceError SourceStore := do
  let creation ← creation.normalize policy unicode
  store.persistCreatedSource creation

/-- `_persist_version` -/
def addVersion (store : SourceStore) (addition : VersionAddition) : Except SourceServiceError SourceStore := do
  let _ ← store.lockSource addition.source.projectId addition.source.id
  let (store, version, _) ← store.persistVersion addition.creation
  let store := store.selectCurrentVersion addition.source.id version.id addition.content addition.now
  store.promote addition.creation false

/-- `observe_not_modified` -/
def observeNotModified (store : SourceStore) (sourceId expectedVersionId : Uuid) (etag lastModified : Option Text)
    (now : Instant) : Except SourceServiceError SourceStore := do
  let unselected : SourceServiceError := .service ⟨.invalidState, "Remote source has no selected version", none⟩
  let row ← obtain? (store.sources.get? sourceId) unselected
  ensure row.currentVersionId.isSome unselected
  let observe (row : SourceRow) : SourceRow :=
    { row with lastObservedAt := some now, lastObservedEtag := etag, lastObservedLastModified := lastModified }
  let selected (row : SourceRow) : Bool := row.id = sourceId && row.currentVersionId = some expectedVersionId
  let sources := store.sources.update selected observe
  let _ ← obtain? (row.currentVersionId.bind store.versions.get?) unselected
  return { store with sources }

/-- `update_name` -/
def rename (store : SourceStore) (sourceId : Uuid) (name : Text) : SourceStore :=
  { store with sources := store.sources.update (·.id = sourceId) fun row => { row with name } }

/-- A name is stripped and may not be empty. -/
def renameTo (store : SourceStore) (sourceId : Uuid) (name : Text) : Except SourceServiceError SourceStore := do
  ensure (name.strip ≠ []) (invalidDefinition "Source name cannot be empty")
  return store.rename sourceId name.strip

/-- `update` -/
def update (store : SourceStore) (change : SourceUpdate) : Except SourceServiceError SourceStore := do
  let row ← store.lockSource change.projectId change.sourceId
  let store ← change.name.elim (.ok store) (store.renameTo change.sourceId)
  ensure (!(change.isPrimary = some false && row.isPrimary)) (.service ⟨.invalidState,
    "Promote another executable source instead of clearing the primary", none⟩)
  if change.isPrimary = some true then
    obtain? (store.promoteExecutable change.projectId change.sourceId) (.service ⟨.invalidState,
      "Only a versioned executable source can be promoted to primary", none⟩)
  else
    return store

/-- `ORDER BY created_at ASC, id ASC` -/
def oldestFirst (row other : SourceRow) : Bool :=
  row.createdAt < other.createdAt || (row.createdAt = other.createdAt && row.id ≤ other.id)

/-- `first_versioned_executable` -/
def firstVersionedExecutable (store : SourceStore) (projectId excluded : Uuid) : Option SourceRow :=
  (store.sources.select (fun row => row.projectId = projectId && isExecutable row.kind && row.currentVersionId.isSome &&
    row.id ≠ excluded) oldestFirst 1).head?

/-- `latest_in_group` without the source that is deleted -/
def latestSibling (store : SourceStore) (row : SourceRow) : Option SourceRow :=
  (store.sources.select (fun other => inGroup row.projectId row.name row.kind other && other.id ≠ row.id) newestFirst 1).head?

/-- The source that takes the primary role over: the newest of the same name, else the oldest that has a version. -/
def replacement (store : SourceStore) (row : SourceRow) : Option SourceRow :=
  if row.isPrimary then
    ((store.latestSibling row).filter (·.currentVersionId.isSome)).or
      (store.firstVersionedExecutable row.projectId row.id)
  else
    none

/-- `delete_source`; the versions go with their source. -/
def deleteSource (store : SourceStore) (sourceId : Uuid) : SourceStore :=
  { store with
    sources := store.sources.delete (·.id = sourceId)
    versions := store.versions.delete (·.sourceId = sourceId) }

/-- `delete`; whether a build refers to the source is up to the builds. -/
def delete (store : SourceStore) (projectId sourceId : Uuid) (referenced : Bool) :
    Except SourceServiceError SourceStore := do
  let row ← store.lockSource projectId sourceId
  ensure (!referenced) (.service ⟨.conflict, "A source referenced by an immutable Build cannot be deleted", none⟩)
  let remaining := store.deleteSource sourceId
  match store.replacement row with
  | none => return remaining
  | some replacement =>
    obtain? (remaining.promoteExecutable projectId replacement.id)
      (.service ⟨.invalidState, "Replacement primary source became unavailable", none⟩)

end SourceStore

/-- The bindings of which `start` requires exactly one. -/
def primaryExecutables (bindings : List BoundSourceVersion) : List BoundSourceVersion :=
  bindings.filter fun item => item.source.isPrimary && isExecutable item.source.kind

/-! ## The system -/

/-- The rows, and the records that calls have read and may still act on. -/
structure SourceSystem where
  store : SourceStore
  readings : List ProjectSource := []

inductive SourceAction where
  | createProject (projectId : Uuid)
  | create (creation : SourceCreation)
  | createVersioned (creation : SourceCreation)
  /-- `_get_source` of a call that adds a version -/
  | readSource (projectId sourceId : Uuid)
  | addVersion (addition : VersionAddition)
  | observeNotModified (sourceId expectedVersionId : Uuid) (etag lastModified : Option Text) (now : Instant)
  | update (change : SourceUpdate)
  | delete (projectId sourceId : Uuid) (referenced : Bool)

namespace SourceSystem

def initial : SourceSystem :=
  { store := ⟨[], Table.empty, Table.empty⟩ }

section

variable (policy : SourceUrlPolicy) (unicode : Unicode)

/-- The transaction of an action. The id of a source without content is drawn by `uuid4`, so nobody has seen it; a call
that adds a version acts on a record that was read. -/
def transact (system : SourceSystem) : SourceAction → Except SourceServiceError SourceStore
  | .createProject projectId => .ok { system.store with projects := system.store.projects ++ [projectId] }
  | .create creation =>
    if system.readings.any (·.id = creation.sourceId) then .ok system.store
    else system.store.createBare policy unicode creation
  | .createVersioned creation => system.store.createVersioned policy unicode creation
  | .readSource _ _ => .ok system.store
  | .addVersion addition =>
    if system.readings.contains addition.source then system.store.addVersion addition else .ok system.store
  | .observeNotModified sourceId expectedVersionId etag lastModified now =>
    system.store.observeNotModified sourceId expectedVersionId etag lastModified now
  | .update change => system.store.update change
  | .delete projectId sourceId referenced => system.store.delete projectId sourceId referenced

def readingOf (store : SourceStore) : SourceAction → List ProjectSource
  | .readSource projectId sourceId =>
    ((store.sources.get? sourceId).filter (·.projectId = projectId)).toList.map SourceRow.toProjectSource
  | _ => []

/-- A transaction that raises is rolled back. -/
def step (system : SourceSystem) (action : SourceAction) : SourceSystem where
  store := commit system.store (system.transact policy unicode action)
  readings := system.readings ++ readingOf system.store action

end

end SourceSystem

end Mcplica.Sources
