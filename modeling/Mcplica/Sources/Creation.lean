import Mcplica.Domain.Sources
import Mcplica.Library.Run
import Mcplica.Library.Table

/-! # Creation of sources

`create_with_upload` and `create_with_url` with the transaction that persists the new source, over the rows of the
sources and their versions. The content is fetched, checked and stored before the transaction; its metadata comes with
the request. -/

namespace Mcplica.Sources

open Mcplica.Domain Mcplica.Library Mcplica.Contracts

inductive SourceOrigin where
  | url
  | upload
  deriving Repr, DecidableEq

structure SourceRow extends ProjectSource where
  originType : SourceOrigin
  createdAt : Instant
  currentVersionId : Option Uuid := none
  currentVersionSelectedAt : Option Instant := none
  lastObservedAt : Option Instant := none
  lastObservedEtag : Option Text := none
  lastObservedLastModified : Option Text := none
  deriving Repr, DecidableEq

structure VersionRow where
  id : Uuid
  sourceId : Uuid
  contentSha256 : Text
  mediaType : Text
  storageKey : Text
  byteSize : Nat
  detectedFormat : Text
  sourceEtag : Option Text
  sourceLastModified : Option Text
  createdBy : Uuid
  createdAt : Instant
  deriving Repr, DecidableEq

instance : Row SourceRow Uuid := ⟨fun row => row.id⟩

instance : Row VersionRow Uuid := ⟨VersionRow.id⟩

structure SourceStore where
  projects : List Uuid
  sources : Table SourceRow
  versions : Table VersionRow

inductive SourceServiceError where
  | source (error : SourceError)
  | securityPolicy (message : Text)
  | service (error : McplicaError)
  deriving Repr, DecidableEq

def isExecutable (kind : SourceKind) : Bool :=
  kind = .openapi || kind = .apiInventory

/-! ## The definition of a source -/

/-- The policy of source URLs, as far as their syntax goes. -/
structure SourceUrlPolicy where
  allowHttp : Bool

/-- `_normalize_hostname` -/
def normalizeHostname (unicode : Unicode) (value : Text) : Option Text :=
  let hostname := (Text.stripEnd "." value.strip).casefold unicode
  if hostname = [] then none else hostname.idna unicode

/-- `validate_syntax`, the normalized URL. -/
def SourceUrlPolicy.validateSyntax (policy : SourceUrlPolicy) (unicode : Unicode) (url : Text) :
    Except SourceServiceError Text := do
  let malformed : SourceServiceError := .service ⟨.validation, "Source URL is malformed", none⟩
  let parsed ← obtain? (urlsplit unicode url) malformed
  ensure (parsed.port ≠ .invalid) malformed
  let scheme := parsed.scheme.casefold unicode
  ensure (scheme = "https" || (policy.allowHttp && scheme = "http")) (.securityPolicy "Source URL must use HTTPS")
  ensure (parsed.username.isNone && parsed.password.isNone) (.securityPolicy "Source URL must not contain credentials")
  let hostname ← obtain? (parsed.hostname unicode) (.service ⟨.validation, "Source URL must contain a hostname", none⟩)
  let hostname ← obtain? (normalizeHostname unicode hostname) (.source .value)
  -- Port zero is falsy and stands for the port of the scheme.
  let bracketed := if hostname.contains ':' && !hostname.startsWith "[" then '[' :: hostname ++ [']'] else hostname
  let netloc := match parsed.port with
    | .number port => bracketed ++ ':' :: Text.ofNat port
    | _ => bracketed
  return urlunsplit ⟨scheme, netloc, if parsed.path = [] then "/" else parsed.path, parsed.query, []⟩

/-- The metadata of the stored content. -/
structure StoredContent where
  contentSha256 : Text
  mediaType : Text
  storageKey : Text
  byteSize : Nat
  detectedFormat : Text
  sourceEtag : Option Text := none
  sourceLastModified : Option Text := none
  deriving Repr, DecidableEq

structure SourceCreation where
  sourceId : Uuid
  projectId : Uuid
  kind : SourceKind
  name : Text
  originType : SourceOrigin
  sourceUrl : Option Text
  isPrimary : Bool
  content : StoredContent
  actorUserId : Uuid
  /-- What `uuid4` draws for the version row, and the clock of the transaction. -/
  versionId : Uuid
  now : Instant
  deriving Repr, DecidableEq

def invalidDefinition (message : Text) : SourceServiceError :=
  .source (.parse .sourceParse message none none)

/-- The URL of a source goes with its origin. -/
def SourceCreation.normalizedUrl (policy : SourceUrlPolicy) (unicode : Unicode) (creation : SourceCreation) :
    Except SourceServiceError (Option Text) :=
  match creation.originType, creation.sourceUrl with
  | .url, none => .error (invalidDefinition "URL source requires a source URL")
  | .url, some url => (policy.validateSyntax unicode url).map some
  | .upload, none => .ok none
  | .upload, some _ => .error (invalidDefinition "Uploaded source cannot define a source URL")

/-- `_normalize_source_definition` -/
def SourceCreation.normalize (policy : SourceUrlPolicy) (unicode : Unicode) (creation : SourceCreation) :
    Except SourceServiceError SourceCreation := do
  let name := creation.name.strip
  ensure (name ≠ []) (invalidDefinition "Source name cannot be empty")
  let sourceUrl ← creation.normalizedUrl policy unicode
  ensure (!(creation.kind = .documentation && creation.isPrimary))
    (invalidDefinition "Documentation sources cannot be executable primary sources")
  return { creation with name, sourceUrl }

/-! ## The repository -/

namespace SourceStore

def isPrimaryExecutableRow (projectId : Uuid) (row : SourceRow) : Bool :=
  row.projectId = projectId && isExecutable row.kind && row.isPrimary

/-- `get_versioned_primary_executable` -/
def versionedPrimaryExecutable (store : SourceStore) (projectId : Uuid) : Option SourceRow :=
  store.sources.rows.find? fun row => isPrimaryExecutableRow projectId row && row.currentVersionId.isSome

def inGroup (projectId : Uuid) (name : Text) (kind : SourceKind) (row : SourceRow) : Bool :=
  row.projectId = projectId && row.name = name && row.kind = kind

/-- `ORDER BY created_at DESC, id DESC` -/
def newestFirst (row other : SourceRow) : Bool :=
  other.createdAt < row.createdAt || (other.createdAt = row.createdAt && other.id ≤ row.id)

/-- `latest_in_group` -/
def latestInGroup (store : SourceStore) (projectId : Uuid) (name : Text) (kind : SourceKind) : Option SourceRow :=
  (store.sources.select (inGroup projectId name kind) newestFirst 1).head?

/-- `get_version_by_hash` -/
def versionByHash (store : SourceStore) (sourceId : Uuid) (contentSha256 : Text) : Option VersionRow :=
  store.versions.rows.find? fun version => version.sourceId = sourceId && version.contentSha256 = contentSha256

/-- `select_current_version` -/
def selectCurrentVersion (store : SourceStore) (sourceId versionId : Uuid) (content : StoredContent) (now : Instant) :
    SourceStore :=
  { store with sources := store.sources.update (·.id = sourceId) fun row =>
      { row with
        currentVersionId := some versionId
        currentVersionSelectedAt := some now
        lastObservedAt := some now
        lastObservedEtag := content.sourceEtag
        lastObservedLastModified := content.sourceLastModified } }

def setPrimary (isPrimary : Bool) (row : SourceRow) : SourceRow :=
  { row with isPrimary }

/-- `promote_executable`; `none` when the source may not be promoted. -/
def promoteExecutable (store : SourceStore) (projectId sourceId : Uuid) : Option SourceStore := do
  let target ← store.sources.get? sourceId
  if target.projectId = projectId && isExecutable target.kind && target.currentVersionId.isSome then
    let cleared := store.sources.update (fun row => isPrimaryExecutableRow projectId row && row.id ≠ sourceId)
      (setPrimary false)
    some { store with sources := cleared.update (·.id = sourceId) (setPrimary true) }
  else
    none

/-! ## Persisting -/

/-- `_assert_creation_identity` -/
def sameIdentity (creation : SourceCreation) (row : SourceRow) : Bool :=
  row.projectId = creation.projectId && row.kind = creation.kind && row.name = creation.name &&
    row.originType = creation.originType && row.sourceUrl = creation.sourceUrl

def keyReused : SourceServiceError :=
  .service ⟨.conflict, "Source creation key was already used for different input", none⟩

/-- A primary key that is taken: the database refuses the row. -/
def integrityError : SourceServiceError :=
  .service ⟨.conflict, "", none⟩

def newSource (creation : SourceCreation) : SourceRow where
  id := creation.sourceId
  projectId := creation.projectId
  kind := creation.kind
  name := creation.name
  sourceUrl := creation.sourceUrl
  isPrimary := false
  originType := creation.originType
  createdAt := creation.now

def newVersion (creation : SourceCreation) : VersionRow where
  id := creation.versionId
  sourceId := creation.sourceId
  contentSha256 := creation.content.contentSha256
  mediaType := creation.content.mediaType.take 200
  storageKey := creation.content.storageKey
  byteSize := creation.content.byteSize
  detectedFormat := creation.content.detectedFormat
  sourceEtag := creation.content.sourceEtag
  sourceLastModified := creation.content.sourceLastModified
  createdBy := creation.actorUserId
  createdAt := creation.now

/-- The source row, new or found, and whether it follows the primary one of its group. -/
def persistSource (store : SourceStore) (creation : SourceCreation) : Except SourceServiceError (SourceStore × Bool) :=
  match store.sources.get? creation.sourceId with
  | none => do
    let superseded := store.latestInGroup creation.projectId creation.name creation.kind
    let sources ← obtain? (store.sources.insert (newSource creation)) integrityError
    return ({ store with sources }, superseded.any (·.isPrimary))
  | some row => do
    ensure (sameIdentity creation row) keyReused
    return (store, false)

/-- The version with the content of the request, and whether it was there. -/
def persistVersion (store : SourceStore) (creation : SourceCreation) :
    Except SourceServiceError (SourceStore × VersionRow × Bool) :=
  match store.versionByHash creation.sourceId creation.content.contentSha256 with
  | some version => .ok (store, version, true)
  | none => do
    let versions ← obtain? (store.versions.insert (newVersion creation)) integrityError
    return ({ store with versions }, newVersion creation, false)

/-- An executable source takes over as the primary one if it is asked to, if there is none or if it inherits. -/
def promote (store : SourceStore) (creation : SourceCreation) (inheritsPrimary : Bool) :
    Except SourceServiceError SourceStore :=
  if isExecutable creation.kind && (creation.isPrimary ||
      (store.versionedPrimaryExecutable creation.projectId).isNone || inheritsPrimary) then
    obtain? (store.promoteExecutable creation.projectId creation.sourceId)
      (.service ⟨.invalidState, "Executable source could not become primary", none⟩)
  else
    .ok store

/-- `_persist_created_source` -/
def persistCreatedSource (store : SourceStore) (creation : SourceCreation) : Except SourceServiceError SourceStore := do
  ensure (store.projects.contains creation.projectId) (.service ⟨.notFound, "Project was not found", none⟩)
  let (store, inheritsPrimary) ← store.persistSource creation
  let (store, version, _) ← store.persistVersion creation
  let store := store.selectCurrentVersion creation.sourceId version.id creation.content creation.now
  store.promote creation inheritsPrimary

/-- `_existing_creation`: the source of the key with its current version. -/
def existingCreation (store : SourceStore) (creation : SourceCreation) : Except SourceServiceError Bool :=
  match store.sources.get? creation.sourceId with
  | none => .ok false
  | some row => do
    ensure (sameIdentity creation row) keyReused
    return (row.currentVersionId.bind store.versions.get?).isSome

/-- `create_with_upload` and `create_with_url`. The latter splits the normalized URL once more for the name of the
file. -/
def createSource (policy : SourceUrlPolicy) (unicode : Unicode) (store : SourceStore) (creation : SourceCreation) :
    Except SourceServiceError SourceStore := do
  let creation ← creation.normalize policy unicode
  if ← store.existingCreation creation then
    return store
  else
    let _ ← (orValueError (creation.sourceUrl.mapM (urlsplit unicode))).mapError .source
    store.persistCreatedSource creation

/-! ## Bound versions -/

/-- `_bound_to_domain`; `none` where an alias cannot be derived. -/
def boundVersion (unicode : Unicode) (row : SourceRow) (version : VersionRow) : Option BoundSourceVersion := do
  let dependencyAliases ← sourceDependencyAliases unicode row.toProjectSource
  return {
    source := row.toProjectSource
    versionId := version.id
    contentSha256 := version.contentSha256
    storageKey := version.storageKey
    dependencyAliases
    bindingMetadataTrustworthy := true }

/-- The sources of the project, oldest first, that have a current version, with it. -/
def latestVersions (store : SourceStore) (projectId : Uuid) : List (SourceRow × VersionRow) :=
  (store.sources.ordered (·.projectId = projectId) fun row other => row.createdAt ≤ other.createdAt).filterMap fun row =>
    (row.currentVersionId.bind store.versions.get?).map (row, ·)

/-- `latest_bound_versions` -/
def latestBoundVersions (unicode : Unicode) (store : SourceStore) (projectId : Uuid) : Option (List BoundSourceVersion) :=
  (store.latestVersions projectId).mapM fun pair => boundVersion unicode pair.1 pair.2

end SourceStore

end Mcplica.Sources
