import Mcplica.Canonicalization.Service
import Mcplica.Contracts.CanonicalText
import Mcplica.Parsers.ApiInventory
import Mcplica.Parsers.Dependencies

/-! # What canonicalization computes

`_canonicalize_uncached`, and `canonicalize` as a caller sees it: the cached result of its key or the computed one. The
key is made of the bindings sorted by version, the computation goes through them in the order they are given in. -/

namespace Mcplica.Canonicalization

open Mcplica.Domain Mcplica.Library Mcplica.Contracts Mcplica.Parsers
open Mcplica.Contracts.Json (entry)

/-- The libraries of the service, and the object store behind it. -/
structure ServiceLibraries extends ParserLibraries where
  digests : Digests
  readInventory : InventoryReader
  /-- `storage.get` with its limit, and `parse_json_or_yaml` -/
  load : Text → Nat → Except SourceError JsonObject
  /-- The depth up to which references are followed. -/
  fuel : Nat

section

variable (libraries : ServiceLibraries)

def documentationRef (binding : BoundSourceVersion) : DocumentationRef :=
  ⟨Text.ofUuid binding.versionId, binding.contentSha256, some binding.source.name⟩

def isDocumentation (binding : BoundSourceVersion) : Bool :=
  binding.source.kind = .documentation

def documentationRefs (bindings : List BoundSourceVersion) : List DocumentationRef :=
  (bindings.filter isDocumentation).map documentationRef

/-- The document of a binding. -/
def parseSource (maxSourceBytes : Nat) (binding : BoundSourceVersion) : Except SourceError JsonObject :=
  libraries.load binding.storageKey maxSourceBytes

/-- The primary source as its parser reads it. -/
def parsePrimary (projectId : Uuid) (bindings : List BoundSourceVersion) (routing : ProjectRoutingConfiguration)
    (maxSourceBytes : Nat) : Except SourceError CanonicalApi := do
  let root ← primaryBinding bindings
  let document ← attributed root.versionId "#" (parseSource libraries maxSourceBytes root)
  let request : ParseRequest := ⟨projectId, root.versionId, root.contentSha256, routing⟩
  if root.source.kind = .openapi then do
    let external ← externalDocuments libraries.unicode (parseSource libraries maxSourceBytes) root bindings
    attributed root.versionId "#" (parseOpenApi libraries.toParserLibraries libraries.fuel request external document)
  else
    attributed root.versionId "#"
      (parseApiInventory libraries.toParserLibraries libraries.readInventory libraries.fuel request document)

/-- The whole of the bindings, as the provenance of the result. -/
def bindProvenance (bindings : List BoundSourceVersion) (canonical : CanonicalApi) : CanonicalApi :=
  { canonical with
    documentationRefs := documentationRefs bindings
    sourceVersionIds := Text.sorted (bindings.map fun binding => Text.ofUuid binding.versionId)
    sourceFingerprint := sourceFingerprint libraries.digests bindings }

/-- `_canonicalize_uncached` -/
def canonicalizeUncached (projectId : Uuid) (bindings : List BoundSourceVersion) (routing : ProjectRoutingConfiguration)
    (maxSourceBytes : Nat) : Except SourceError CanonicalApi := do
  let canonical ← parsePrimary libraries projectId bindings routing maxSourceBytes
  return bindProvenance libraries bindings canonical

/-- What a request computes when it has to. -/
def CanonicalizationRequest.compute (request : CanonicalizationRequest) (project : ProjectRoutingConfiguration) :
    Except SourceError CanonicalApi :=
  canonicalizeUncached libraries request.projectId request.bindings (request.routing.getD project) request.maxSourceBytes

/-- `canonicalize` of a call that neither follows another one nor finds a recent failure -/
def canonicalize (cache : List (CacheKey × CanonicalApi)) (request : CanonicalizationRequest)
    (project : ProjectRoutingConfiguration) : Except CanonicalizationError CanonicalApi := do
  let key ← request.cacheKey libraries.unicode libraries.digests (some project)
  match cache.lookup key with
  | some cached => return cached
  | none => (request.compute libraries project).mapError .source

/-! ## Bindings of stored versions -/

/-- The columns of a version row that a binding takes over; rows of versions are never changed. -/
structure StoredVersion where
  contentSha256 : Text
  storageKey : Text
  deriving Repr, DecidableEq

variable (versions : Uuid → Option StoredVersion)

/-- The binding is one of a row, and its id is a UUID. -/
structure Stored (binding : BoundSourceVersion) : Prop where
  bits : binding.versionId < 2 ^ 128
  row : versions binding.versionId = some ⟨binding.contentSha256, binding.storageKey⟩

/-- The request is about stored versions, and its mappings are a dictionary. -/
structure CanonicalizationRequest.Admissible (request : CanonicalizationRequest) (project : ProjectRoutingConfiguration) :
    Prop where
  stored : ∀ binding ∈ request.bindings, Stored versions binding
  mappings : ((request.routing.getD project).serverMappings.map Prod.fst).Nodup

/-- Every entry was computed for a request with its key. -/
def CacheSound (cache : List (CacheKey × CanonicalApi)) : Prop :=
  ∀ key api, cache.lookup key = some api → ∃ (request : CanonicalizationRequest) (project : ProjectRoutingConfiguration),
    request.Admissible versions project ∧
      request.cacheKey libraries.unicode libraries.digests (some project) = .ok key ∧
      request.compute libraries project = .ok api

/-- In whatever order its bindings come and whatever was computed before, the call returns the same. -/
def OrderIndependent (request : CanonicalizationRequest) (project : ProjectRoutingConfiguration) : Prop :=
  ∀ bindings : List BoundSourceVersion, bindings.Perm request.bindings →
    ∀ cache other, CacheSound libraries versions cache → CacheSound libraries versions other →
      canonicalize libraries other { request with bindings } project = canonicalize libraries cache request project

end

/-! ## What the computation depends on -/

/-- A binding as the computation reads it: the order of its aliases does not matter. -/
structure BindingView where
  versionId : Uuid
  contentSha256 : Text
  storageKey : Text
  kind : SourceKind
  name : Text
  isPrimary : Bool
  aliases : Option (List Text)

def bindingView (unicode : Unicode) (binding : BoundSourceVersion) : BindingView where
  versionId := binding.versionId
  contentSha256 := binding.contentSha256
  storageKey := binding.storageKey
  kind := binding.source.kind
  name := binding.source.name
  isPrimary := binding.source.isPrimary
  aliases := (binding.effectiveDependencyAliases unicode).map Text.sorted

section Views

variable {libraries : ServiceLibraries} {left right : List BoundSourceVersion} {maxSourceBytes : Nat}

theorem filter_views (holds : BoundSourceVersion → Bool) (reads : BindingView → Bool) {unicode : Unicode}
    (agree : ∀ binding, holds binding = reads (bindingView unicode binding))
    (views : (left.map (bindingView unicode)).Perm (right.map (bindingView unicode))) :
    ((left.filter holds).map (bindingView unicode)).Perm ((right.filter holds).map (bindingView unicode)) := by
  have read : ∀ bindings : List BoundSourceVersion, (bindings.filter holds).map (bindingView unicode) =
      (bindings.map (bindingView unicode)).filter reads := by
    intro bindings
    rw [List.filter_map]
    congr 2
    exact funext agree
  rw [read, read]
  exact views.filter reads

theorem primaryBinding_eq_ok {bindings : List BoundSourceVersion} {root : BoundSourceVersion} :
    primaryBinding bindings = .ok root ↔ bindings.filter isPrimaryExecutable = [root] := by
  unfold primaryBinding
  split
  · rename_i found isFound
    rw [isFound]
    simp [eq_comm]
  · rename_i others
    constructor
    · intro failed
      cases failed
    · intro isRoot
      exact absurd isRoot (others root)

theorem primaryBinding_of_views {unicode : Unicode} {root : BoundSourceVersion}
    (views : (left.map (bindingView unicode)).Perm (right.map (bindingView unicode)))
    (isRoot : primaryBinding left = .ok root) :
    ∃ other, primaryBinding right = .ok other ∧ bindingView unicode other = bindingView unicode root := by
  rw [primaryBinding_eq_ok] at isRoot
  have primaries := filter_views isPrimaryExecutable
    (fun view => view.isPrimary && (view.kind = .openapi || view.kind = .apiInventory)) (fun _ => rfl) views
  rw [isRoot, List.map_singleton] at primaries
  obtain ⟨other, isOther, sameView⟩ := List.map_eq_singleton_iff.mp (List.singleton_perm.mp primaries).symm
  exact ⟨other, primaryBinding_eq_ok.mpr isOther, sameView⟩

/-- A capture as the table reads it. -/
def captureView (capture : Capture) : ExternalOpenApiDocument × List Text :=
  (capture.external, Text.sorted capture.aliases)

def viewCapture (libraries : ServiceLibraries) (maxSourceBytes : Nat) (view : BindingView) :
    Except SourceError (ExternalOpenApiDocument × List Text) := do
  let document ← attributed view.versionId "#" (libraries.load view.storageKey maxSourceBytes)
  let aliases ← orValueError view.aliases
  return (⟨document, view.versionId⟩, aliases)

theorem captureSource_view (binding : BoundSourceVersion) :
    (captureSource libraries.unicode (parseSource libraries maxSourceBytes) binding).map captureView =
      viewCapture libraries maxSourceBytes (bindingView libraries.unicode binding) := by
  unfold captureSource viewCapture
  show Except.map captureView (attributed binding.versionId "#" (libraries.load binding.storageKey maxSourceBytes) >>= _) =
    attributed binding.versionId "#" (libraries.load binding.storageKey maxSourceBytes) >>= _
  cases attributed binding.versionId "#" (libraries.load binding.storageKey maxSourceBytes) with
  | error error => rfl
  | ok document =>
    cases aliases : binding.effectiveDependencyAliases libraries.unicode with
    | none => simp [aliases, bindingView, orValueError, obtain?, bind, Except.bind, Except.map]
    | some aliases =>
      simp [aliases, bindingView, orValueError, obtain?, bind, Except.bind, Except.map, pure, Except.pure, captureView,
        Capture.external]

/-- The captures are those of the views of the dependencies. -/
theorem captureDependencies_views {root : BoundSourceVersion} {bindings : List BoundSourceVersion} {captures : List Capture}
    (captured : captureDependencies libraries.unicode (parseSource libraries maxSourceBytes) root bindings = .ok captures) :
    (captures.map captureView).map Except.ok = ((bindings.filter (isDependency root)).map
      (bindingView libraries.unicode)).map (viewCapture libraries maxSourceBytes) := by
  unfold captureDependencies at captured
  rw [List.map_map, List.map_map]
  refine map_of_mapM captured fun binding capture isCapture => ?_
  show Except.ok (captureView capture) = viewCapture libraries maxSourceBytes (bindingView libraries.unicode binding)
  rw [← captureSource_view, isCapture]
  rfl

theorem captureDependencies_of_views {root other : BoundSourceVersion} {captures : List Capture}
    (views : (left.map (bindingView libraries.unicode)).Perm (right.map (bindingView libraries.unicode)))
    (sameId : other.versionId = root.versionId)
    (captured : captureDependencies libraries.unicode (parseSource libraries maxSourceBytes) root left = .ok captures) :
    ∃ others, captureDependencies libraries.unicode (parseSource libraries maxSourceBytes) other right = .ok others ∧
      (captures.map captureView).Perm (others.map captureView) := by
  have sameDependency : isDependency other = isDependency root := by
    funext binding
    rw [isDependency, isDependency, sameId]
  have dependencies := filter_views (isDependency root)
    (fun view => view.versionId ≠ root.versionId && view.kind = .openapi) (fun _ => rfl) views
  have read := captureDependencies_views captured
  have captures_perm := dependencies.map (viewCapture libraries maxSourceBytes)
  rw [← read] at captures_perm
  -- Every dependency on the right has the view of one on the left, so it is captured as well.
  have succeeds : Succeeds (captureDependencies libraries.unicode (parseSource libraries maxSourceBytes) other right) := by
    unfold captureDependencies
    rw [succeeds_mapM, sameDependency]
    intro binding member
    have isCaptured := captures_perm.mem_iff.mpr (List.mem_map_of_mem (List.mem_map_of_mem member))
    obtain ⟨view, -, isView⟩ := List.mem_map.mp isCaptured
    rw [← captureSource_view] at isView
    obtain ⟨capture, isCapture, -⟩ := map_eq_ok.mp isView.symm
    exact ⟨capture, isCapture⟩
  obtain ⟨others, areOthers⟩ := succeeds
  have injective : Function.Injective (Except.ok : ExternalOpenApiDocument × List Text → Except SourceError _) :=
    fun _ _ => Except.ok.inj
  refine ⟨others, areOthers, (List.map_perm_map_iff injective).mp ?_⟩
  rw [captureDependencies_views areOthers, sameDependency]
  exact captures_perm

def viewEntries (view : ExternalOpenApiDocument × List Text) : ExternalDocuments :=
  view.2.map (·, view.1)

theorem entries_perm (captures : List Capture) :
    (captures.flatMap Capture.entries).Perm ((captures.map captureView).flatMap viewEntries) := by
  rw [List.flatMap_map]
  refine List.Perm.flatMap_left captures fun capture _ => ?_
  exact ((Text.perm_sortedBy id capture.aliases).symm.map _)

/-- The tables hold the same entries, though in another order. -/
theorem externalDocuments_of_views {root other : BoundSourceVersion} {external : ExternalDocuments}
    (views : (left.map (bindingView libraries.unicode)).Perm (right.map (bindingView libraries.unicode)))
    (sameId : other.versionId = root.versionId)
    (ran : externalDocuments libraries.unicode (parseSource libraries maxSourceBytes) root left = .ok external) :
    ∃ others, externalDocuments libraries.unicode (parseSource libraries maxSourceBytes) other right = .ok others ∧
      ∀ key, external.lookup key = others.lookup key := by
  obtain ⟨captures, captured, rfl, distinct⟩ := externalDocuments_spec ran
  obtain ⟨others, areOthers, sameCaptures⟩ := captureDependencies_of_views views sameId captured
  have perm : (captures.flatMap Capture.entries).Perm (others.flatMap Capture.entries) :=
    (entries_perm captures).trans ((sameCaptures.flatMap_right viewEntries).trans (entries_perm others).symm)
  refine ⟨_, externalDocuments_of_captures areOthers ?_, lookup_perm perm distinct⟩
  exact (perm.map Prod.fst).nodup_iff.mp distinct

/-- The parse of the primary source reads the bindings in no particular order. -/
theorem parsePrimary_of_views {projectId : Uuid} {routing otherRouting : ProjectRoutingConfiguration} {api : CanonicalApi}
    (views : (left.map (bindingView libraries.unicode)).Perm (right.map (bindingView libraries.unicode)))
    (same : SameRouting routing otherRouting)
    (ran : parsePrimary libraries projectId left routing maxSourceBytes = .ok api) :
    parsePrimary libraries projectId right otherRouting maxSourceBytes = .ok api := by
  unfold parsePrimary at ran ⊢
  simp only [bind_eq_ok] at ran ⊢
  obtain ⟨root, isRoot, document, isDocument, ran⟩ := ran
  obtain ⟨other, isOther, sameView⟩ := primaryBinding_of_views views isRoot
  have sameId : other.versionId = root.versionId := congrArg BindingView.versionId sameView
  have sameHash : other.contentSha256 = root.contentSha256 := congrArg BindingView.contentSha256 sameView
  have sameKey : other.storageKey = root.storageKey := congrArg BindingView.storageKey sameView
  have sameKind : other.source.kind = root.source.kind := congrArg BindingView.kind sameView
  refine ⟨other, isOther, document, ?_, ?_⟩
  · rw [parseSource, sameId, sameKey]
    exact isDocument
  rw [sameKind, sameId, sameHash]
  split at ran
  · rename_i isOpenApi
    rw [if_pos isOpenApi]
    rw [bind_eq_ok] at ran ⊢
    obtain ⟨external, isExternal, ran⟩ := ran
    obtain ⟨others, areOthers, lookups⟩ := externalDocuments_of_views views sameId isExternal
    refine ⟨others, areOthers, ?_⟩
    have congruent := parseOpenApi_congr same lookups libraries.toParserLibraries libraries.fuel
      ⟨projectId, root.versionId, root.contentSha256, routing⟩ document
    rw [← congruent]
    exact ran
  · rename_i isInventory
    rw [if_neg isInventory]
    have congruent := parseApiInventory_congr same libraries.toParserLibraries libraries.readInventory libraries.fuel
      ⟨projectId, root.versionId, root.contentSha256, routing⟩ document
    rw [← congruent]
    exact ran

end Views

/-! ## What the cache key tells -/

section Keys

variable {unicode : Unicode} {versions : Uuid → Option StoredVersion}

theorem writtenItems_strings (texts : List Text) : Json.WrittenItems (texts.map Json.string) := by
  induction texts with
  | nil => trivial
  | cons text texts ih => exact ⟨trivial, ih⟩

theorem strings_of_canonicalItems {texts others : List Text}
    (same : Json.canonicalItems (texts.map .string) = Json.canonicalItems (others.map .string)) : texts = others := by
  induction texts generalizing others with
  | nil =>
    cases others with
    | nil => rfl
    | cons _ _ => cases same
  | cons text texts ih =>
    cases others with
    | nil => cases same
    | cons other others =>
      obtain ⟨first, rest⟩ := List.cons.inj same
      rw [Json.string_of_canonical_eq first, ih rest]

theorem written_optionalText (value : Option Text) : (optionalText value).Written := by
  cases value <;> trivial

theorem optionalText_of_canonical_eq {value other : Option Text}
    (same : (optionalText value).canonical = (optionalText other).canonical) : value = other := by
  cases value with
  | none =>
    cases other with
    | none => rfl
    | some text => cases same
  | some text =>
    cases other with
    | none => cases same
    | some otherText => exact congrArg some (Json.string_of_canonical_eq same)

theorem kind_of_canonical_eq {kind other : SourceKind}
    (same : (Json.string kind.value).canonical = (Json.string other.value).canonical) : kind = other := by
  have values := Json.string_of_canonical_eq same
  cases kind <;> cases other <;> first | rfl | exact absurd values (by decide)

theorem bool_of_canonical_eq {value other : Bool} (same : (Json.bool value).canonical = (Json.bool other).canonical) :
    value = other := by
  cases value <;> cases other <;> first | rfl | cases same

/-- What `bindingIdentity` writes down. -/
def identityFields (binding : BoundSourceVersion) (aliases : List Text) : JsonObject := [
  entry "source_id" (.string (Text.ofUuid binding.source.id)),
  entry "source_version_id" (.string (Text.ofUuid binding.versionId)),
  entry "kind" (.string binding.source.kind.value),
  entry "name" (.string binding.source.name),
  entry "source_url" (optionalText binding.source.sourceUrl),
  entry "is_primary" (.bool binding.source.isPrimary),
  entry "dependency_aliases" (.array ((Text.sorted aliases).map .string))]

theorem bindingIdentity_eq_some {binding : BoundSourceVersion} {identity : Json} :
    bindingIdentity unicode binding = some identity ↔ ∃ aliases,
      binding.effectiveDependencyAliases unicode = some aliases ∧ identity = .object (identityFields binding aliases) := by
  unfold bindingIdentity
  rw [Option.bind_eq_bind, Option.bind_eq_some_iff]
  simp only [identityFields, pure, Option.some.injEq, eq_comm]

theorem writtenFields_identity (binding : BoundSourceVersion) (aliases : List Text) :
    Json.WrittenFields (identityFields binding aliases) :=
  ⟨trivial, trivial, trivial, trivial, written_optionalText _, trivial, writtenItems_strings _, trivial⟩

theorem keys_identityFields (binding : BoundSourceVersion) (aliases : List Text) :
    ((identityFields binding aliases).map Prod.fst).Nodup := by
  show ([("source_id" : Text), "source_version_id", "kind", "name", "source_url", "is_primary",
    "dependency_aliases"] : List Text).Nodup
  decide

/-- Bindings of stored versions with one identity are read alike. -/
theorem view_of_identity {binding other : BoundSourceVersion} {identity otherIdentity : Json}
    (stored : Stored versions binding) (otherStored : Stored versions other)
    (isIdentity : bindingIdentity unicode binding = some identity)
    (isOtherIdentity : bindingIdentity unicode other = some otherIdentity)
    (same : identity.canonical = otherIdentity.canonical) : bindingView unicode binding = bindingView unicode other := by
  obtain ⟨aliases, areAliases, rfl⟩ := bindingIdentity_eq_some.mp isIdentity
  obtain ⟨otherAliases, areOtherAliases, rfl⟩ := bindingIdentity_eq_some.mp isOtherIdentity
  have fields := Json.get_of_canonical_eq (writtenFields_identity binding aliases)
    (writtenFields_identity other otherAliases) (keys_identityFields binding aliases) same
  have sameId : binding.versionId = other.versionId := by
    have texts := Json.string_of_canonical_eq (Option.some.inj (fields "source_version_id"))
    exact Text.ofUuid_inj stored.bits otherStored.bits texts
  have sameRow : StoredVersion.mk binding.contentSha256 binding.storageKey = ⟨other.contentSha256, other.storageKey⟩ := by
    have row := stored.row
    rw [sameId, otherStored.row] at row
    exact (Option.some.inj row).symm
  have sameKind := kind_of_canonical_eq (Option.some.inj (fields "kind"))
  have sameName := Json.string_of_canonical_eq (Option.some.inj (fields "name"))
  have samePrimary := bool_of_canonical_eq (Option.some.inj (fields "is_primary"))
  have sameAliases : Text.sorted aliases = Text.sorted otherAliases :=
    strings_of_canonicalItems (Json.items_of_canonical_eq (writtenItems_strings _) (writtenItems_strings _)
      (Option.some.inj (fields "dependency_aliases")))
  obtain ⟨sameHash, sameStorageKey⟩ := StoredVersion.mk.inj sameRow
  unfold bindingView
  rw [areAliases, areOtherAliases, sameId, sameHash, sameStorageKey, sameKind, sameName, samePrimary, Option.map_some,
    Option.map_some, sameAliases]

theorem views_of_identities {bindings others : List BoundSourceVersion} {identities otherIdentities : List Json}
    (stored : ∀ binding ∈ bindings, Stored versions binding) (otherStored : ∀ binding ∈ others, Stored versions binding)
    (areIdentities : bindings.mapM (bindingIdentity unicode) = some identities)
    (areOtherIdentities : others.mapM (bindingIdentity unicode) = some otherIdentities)
    (same : Json.canonicalItems identities = Json.canonicalItems otherIdentities) :
    bindings.map (bindingView unicode) = others.map (bindingView unicode) := by
  induction bindings generalizing others identities otherIdentities with
  | nil =>
    cases areIdentities
    cases others with
    | nil => rfl
    | cons other others =>
      rw [List.mapM_cons, Option.bind_eq_bind, Option.bind_eq_some_iff] at areOtherIdentities
      obtain ⟨first, -, areOtherIdentities⟩ := areOtherIdentities
      obtain ⟨rest, -, areOtherIdentities⟩ := Option.bind_eq_some_iff.mp areOtherIdentities
      cases areOtherIdentities
      cases same
  | cons binding bindings ih =>
    rw [List.mapM_cons, Option.bind_eq_bind, Option.bind_eq_some_iff] at areIdentities
    obtain ⟨first, isFirst, areIdentities⟩ := areIdentities
    obtain ⟨rest, areRest, areIdentities⟩ := Option.bind_eq_some_iff.mp areIdentities
    cases areIdentities
    cases others with
    | nil =>
      cases areOtherIdentities
      cases same
    | cons other others =>
      rw [List.mapM_cons, Option.bind_eq_bind, Option.bind_eq_some_iff] at areOtherIdentities
      obtain ⟨otherFirst, isOtherFirst, areOtherIdentities⟩ := areOtherIdentities
      obtain ⟨otherRest, areOtherRest, areOtherIdentities⟩ := Option.bind_eq_some_iff.mp areOtherIdentities
      cases areOtherIdentities
      obtain ⟨sameFirst, sameRest⟩ := List.cons.inj same
      rw [List.map_cons, List.map_cons, view_of_identity (stored binding List.mem_cons_self)
        (otherStored other List.mem_cons_self) isFirst isOtherFirst sameFirst,
        ih (fun _ member => stored _ (List.mem_cons_of_mem _ member))
          (fun _ member => otherStored _ (List.mem_cons_of_mem _ member)) areRest areOtherRest sameRest]

/-! ### The configuration -/

def mappingFields (routing : ProjectRoutingConfiguration) : JsonObject :=
  routing.serverMappings.map fun (key, ref) => (key, .string ref)

/-- What `sourceConfigurationFingerprint` writes down. -/
def configurationFields (identities : List Json) (routing : ProjectRoutingConfiguration) : JsonObject := [
  entry "source_bindings" (.array identities),
  entry "default_base_url" (optionalText routing.defaultBaseUrl),
  entry "active_server_ref" (optionalText routing.activeServerRef),
  entry "server_mappings" (.object (mappingFields routing))]

theorem sourceConfigurationFingerprint_eq_some {digests : Digests} {bindings : List BoundSourceVersion}
    {routing : ProjectRoutingConfiguration} {fingerprint : Text} :
    sourceConfigurationFingerprint unicode digests bindings routing = some fingerprint ↔ ∃ identities,
      (byVersionId bindings).mapM (bindingIdentity unicode) = some identities ∧
        fingerprint = digests.ofJson (.object (configurationFields identities routing)) := by
  unfold sourceConfigurationFingerprint
  rw [Option.bind_eq_bind, Option.bind_eq_some_iff]
  simp only [configurationFields, mappingFields, pure, Option.some.injEq, eq_comm]

theorem get_mappingFields (routing : ProjectRoutingConfiguration) (key : Text) :
    Json.get (mappingFields routing) key = (routing.serverMappings.lookup key).map .string := by
  unfold mappingFields Json.get
  induction routing.serverMappings with
  | nil => rfl
  | cons mapping mappings ih =>
    rw [List.map_cons, List.lookup_cons, List.lookup_cons]
    split
    · rfl
    · exact ih

theorem keys_mappingFields (routing : ProjectRoutingConfiguration) :
    (mappingFields routing).map Prod.fst = routing.serverMappings.map Prod.fst := by
  unfold mappingFields
  rw [List.map_map]
  rfl

theorem writtenFields_mappings (routing : ProjectRoutingConfiguration) : Json.WrittenFields (mappingFields routing) := by
  unfold mappingFields
  induction routing.serverMappings with
  | nil => trivial
  | cons mapping mappings ih => exact ⟨trivial, ih⟩

theorem writtenItems_identities {bindings : List BoundSourceVersion} {identities : List Json}
    (areIdentities : bindings.mapM (bindingIdentity unicode) = some identities) : Json.WrittenItems identities := by
  induction bindings generalizing identities with
  | nil =>
    cases areIdentities
    trivial
  | cons binding bindings ih =>
    rw [List.mapM_cons, Option.bind_eq_bind, Option.bind_eq_some_iff] at areIdentities
    obtain ⟨first, isFirst, areIdentities⟩ := areIdentities
    obtain ⟨rest, areRest, areIdentities⟩ := Option.bind_eq_some_iff.mp areIdentities
    cases areIdentities
    obtain ⟨aliases, -, rfl⟩ := bindingIdentity_eq_some.mp isFirst
    exact ⟨writtenFields_identity binding aliases, ih areRest⟩

/-- Configurations with one text are read alike. -/
theorem sameRouting_of_canonical_eq {identities otherIdentities : List Json} {routing other : ProjectRoutingConfiguration}
    (written : Json.WrittenItems identities) (otherWritten : Json.WrittenItems otherIdentities)
    (dictionary : (routing.serverMappings.map Prod.fst).Nodup)
    (same : (Json.object (configurationFields identities routing)).canonical =
      (Json.object (configurationFields otherIdentities other)).canonical) :
    Json.canonicalItems identities = Json.canonicalItems otherIdentities ∧ SameRouting routing other := by
  have keys : ((configurationFields identities routing).map Prod.fst).Nodup := by
    show ([("source_bindings" : Text), "default_base_url", "active_server_ref", "server_mappings"] : List Text).Nodup
    decide
  have fieldsWritten : Json.WrittenFields (configurationFields identities routing) :=
    ⟨written, written_optionalText _, written_optionalText _, writtenFields_mappings routing, trivial⟩
  have otherFieldsWritten : Json.WrittenFields (configurationFields otherIdentities other) :=
    ⟨otherWritten, written_optionalText _, written_optionalText _, writtenFields_mappings other, trivial⟩
  have fields := Json.get_of_canonical_eq fieldsWritten otherFieldsWritten keys same
  refine ⟨Json.items_of_canonical_eq written otherWritten (Option.some.inj (fields "source_bindings")),
    optionalText_of_canonical_eq (Option.some.inj (fields "default_base_url")),
    optionalText_of_canonical_eq (Option.some.inj (fields "active_server_ref")), fun key => ?_⟩
  have mapped := Json.get_of_canonical_eq (writtenFields_mappings routing) (writtenFields_mappings other)
    (by rwa [keys_mappingFields]) (Option.some.inj (fields "server_mappings")) key
  rw [get_mappingFields, get_mappingFields, Option.map_map, Option.map_map] at mapped
  exact Option.map_injective (fun _ _ => Json.string_of_canonical_eq) mapped

/-! ### The key -/

theorem cacheKey_eq_ok {digests : Digests} {request : CanonicalizationRequest} {project : ProjectRoutingConfiguration}
    {key : CacheKey} : request.cacheKey unicode digests (some project) = .ok key ↔
      (request.bindings.map BoundSourceVersion.versionId).Nodup ∧
      (∀ binding ∈ request.bindings, binding.source.projectId = request.projectId) ∧
      (∀ binding ∈ request.bindings, binding.bindingMetadataTrustworthy = true) ∧ ∃ configuration,
        sourceConfigurationFingerprint unicode digests request.bindings (request.routing.getD project) = some configuration ∧
        key = ⟨request.projectId, sourceFingerprint digests request.bindings, configuration, request.maxSourceBytes⟩ := by
  unfold CanonicalizationRequest.cacheKey
  simp only [bind_eq_ok, ensure_eq_ok, exists_const_unit, decide_eq_true_eq, obtain?_eq_ok, List.all_eq_true,
    Option.some.injEq, exists_eq_left', pure, Except.pure, Except.ok.injEq, eq_comm (a := key)]

/-- Trustworthy bindings of the project with known aliases have a key. -/
theorem exists_cacheKey {digests : Digests} {request : CanonicalizationRequest} (project : ProjectRoutingConfiguration)
    (distinct : (request.bindings.map BoundSourceVersion.versionId).Nodup)
    (inProject : ∀ binding ∈ request.bindings, binding.source.projectId = request.projectId)
    (trustworthy : ∀ binding ∈ request.bindings, binding.bindingMetadataTrustworthy = true)
    (known : ∀ binding ∈ request.bindings, ∃ aliases, binding.effectiveDependencyAliases unicode = some aliases) :
    ∃ key, request.cacheKey unicode digests (some project) = .ok key := by
  have identified : ∀ bindings : List BoundSourceVersion, (∀ binding ∈ bindings, ∃ aliases,
      binding.effectiveDependencyAliases unicode = some aliases) →
      ∃ identities, bindings.mapM (bindingIdentity unicode) = some identities := by
    intro bindings known
    induction bindings with
    | nil => exact ⟨[], rfl⟩
    | cons binding bindings ih =>
      obtain ⟨aliases, areAliases⟩ := known binding List.mem_cons_self
      obtain ⟨identities, areIdentities⟩ := ih fun other member => known other (List.mem_cons_of_mem _ member)
      refine ⟨.object (identityFields binding aliases) :: identities, ?_⟩
      rw [List.mapM_cons, bindingIdentity_eq_some.mpr ⟨aliases, areAliases, rfl⟩, areIdentities]
      rfl
  have sorted : (byVersionId request.bindings).Perm request.bindings := Text.perm_sortedBy _ _
  obtain ⟨identities, areIdentities⟩ := identified (byVersionId request.bindings) fun binding member =>
    known binding (sorted.mem_iff.mp member)
  exact ⟨_, cacheKey_eq_ok.mpr ⟨distinct, inProject, trustworthy, _,
    sourceConfigurationFingerprint_eq_some.mpr ⟨identities, areIdentities, rfl⟩, rfl⟩⟩

end Keys

/-! ## The order of the bindings -/

section Order

variable {libraries : ServiceLibraries} {versions : Uuid → Option StoredVersion}
  {request other : CanonicalizationRequest} {project otherProject : ProjectRoutingConfiguration} {key : CacheKey}
  {api : CanonicalApi}

/-- The requests are read alike, though their bindings may come in another order. -/
structure SameInput (unicode : Unicode) (digests : Digests) (request : CanonicalizationRequest)
    (project : ProjectRoutingConfiguration) (other : CanonicalizationRequest) (otherProject : ProjectRoutingConfiguration) :
    Prop where
  views : (request.bindings.map (bindingView unicode)).Perm (other.bindings.map (bindingView unicode))
  routing : SameRouting (request.routing.getD project) (other.routing.getD otherProject)
  fingerprint : sourceFingerprint digests request.bindings = sourceFingerprint digests other.bindings
  projectId : request.projectId = other.projectId
  maxSourceBytes : request.maxSourceBytes = other.maxSourceBytes

/-- Digests of configurations are equal only when the configurations are written alike. -/
def CollisionFree (digests : Digests) : Prop :=
  ∀ value other : Json, digests.ofJson value = digests.ofJson other → value.canonical = other.canonical

theorem sameInput_of_cacheKey (collisionFree : CollisionFree libraries.digests)
    (admissible : request.Admissible versions project) (otherAdmissible : other.Admissible versions otherProject)
    (keyed : request.cacheKey libraries.unicode libraries.digests (some project) = .ok key)
    (otherKeyed : other.cacheKey libraries.unicode libraries.digests (some otherProject) = .ok key) :
    SameInput libraries.unicode libraries.digests request project other otherProject := by
  obtain ⟨-, -, -, configuration, isConfiguration, rfl⟩ := cacheKey_eq_ok.mp keyed
  obtain ⟨-, -, -, otherConfiguration, isOtherConfiguration, sameKey⟩ := cacheKey_eq_ok.mp otherKeyed
  obtain ⟨sameProject, sameFingerprint, sameConfiguration, sameLimit⟩ := CacheKey.mk.inj sameKey
  obtain ⟨identities, areIdentities, rfl⟩ := sourceConfigurationFingerprint_eq_some.mp isConfiguration
  obtain ⟨otherIdentities, areOtherIdentities, rfl⟩ := sourceConfigurationFingerprint_eq_some.mp isOtherConfiguration
  obtain ⟨sameIdentities, sameRouting⟩ := sameRouting_of_canonical_eq (writtenItems_identities areIdentities)
    (writtenItems_identities areOtherIdentities) admissible.mappings (collisionFree _ _ sameConfiguration)
  have sorted : (byVersionId request.bindings).Perm request.bindings := Text.perm_sortedBy _ _
  have otherSorted : (byVersionId other.bindings).Perm other.bindings := Text.perm_sortedBy _ _
  have sameViews := views_of_identities (fun binding member => admissible.stored binding (sorted.mem_iff.mp member))
    (fun binding member => otherAdmissible.stored binding (otherSorted.mem_iff.mp member)) areIdentities areOtherIdentities
    sameIdentities
  refine ⟨?_, sameRouting, sameFingerprint, sameProject, sameLimit⟩
  exact (sorted.symm.map _).trans (sameViews ▸ otherSorted.map _)

/-- With one documentation at most, the references to it come in one order only. -/
theorem documentationRefs_of_views {unicode : Unicode} {left right : List BoundSourceVersion}
    (views : (left.map (bindingView unicode)).Perm (right.map (bindingView unicode)))
    (single : (left.filter isDocumentation).length ≤ 1) : documentationRefs left = documentationRefs right := by
  have read : ∀ bindings : List BoundSourceVersion, documentationRefs bindings =
      ((bindings.filter isDocumentation).map (bindingView unicode)).map fun view =>
        ⟨Text.ofUuid view.versionId, view.contentSha256, some view.name⟩ := by
    intro bindings
    rw [documentationRefs, List.map_map]
    rfl
  have documents := filter_views isDocumentation (fun view => view.kind = .documentation) (fun _ => rfl) views
  rw [read, read]
  generalize left.filter isDocumentation = leftDocuments at single documents ⊢
  match leftDocuments, single with
  | [], _ => rw [List.nil_perm.mp documents, List.map_nil]
  | [document], _ =>
    have sameViews := List.singleton_perm.mp (documents : [bindingView unicode document].Perm _)
    rw [← sameViews, List.map_singleton]

theorem versionIds_of_views {unicode : Unicode} {left right : List BoundSourceVersion}
    (views : (left.map (bindingView unicode)).Perm (right.map (bindingView unicode))) :
    Text.sorted (left.map fun binding => Text.ofUuid binding.versionId) =
      Text.sorted (right.map fun binding => Text.ofUuid binding.versionId) := by
  have ids := views.map fun view => Text.ofUuid view.versionId
  rw [List.map_map, List.map_map] at ids
  exact Text.sorted_eq_of_perm ids

theorem compute_of_sameInput (same : SameInput libraries.unicode libraries.digests request project other otherProject)
    (single : (request.bindings.filter isDocumentation).length ≤ 1) (computed : request.compute libraries project = .ok api) :
    other.compute libraries otherProject = .ok api := by
  unfold CanonicalizationRequest.compute canonicalizeUncached at computed ⊢
  rw [bind_eq_ok] at computed ⊢
  obtain ⟨canonical, parsed, computed⟩ := computed
  cases computed
  refine ⟨canonical, ?_, ?_⟩
  · rw [← same.projectId, ← same.maxSourceBytes]
    exact parsePrimary_of_views same.views same.routing parsed
  · unfold bindProvenance
    rw [documentationRefs_of_views same.views single, versionIds_of_views same.views, same.fingerprint]
    rfl

theorem byVersionId_perm {left right : List BoundSourceVersion} (perm : left.Perm right)
    (stored : ∀ binding ∈ left, Stored versions binding) (distinct : (left.map BoundSourceVersion.versionId).Nodup) :
    byVersionId left = byVersionId right := by
  refine Text.sortedBy_eq_of_perm perm fun binding member other isOther sameId => ?_
  exact List.inj_on_of_nodup_map distinct member isOther
    (Text.ofUuid_inj (stored binding member).bits (stored other isOther).bits sameId)

/-- A permutation of the bindings has the same key. -/
theorem cacheKey_of_perm {bindings : List BoundSourceVersion} (perm : bindings.Perm request.bindings)
    (admissible : request.Admissible versions project)
    (keyed : request.cacheKey libraries.unicode libraries.digests (some project) = .ok key) :
    { request with bindings }.cacheKey libraries.unicode libraries.digests (some project) = .ok key := by
  obtain ⟨distinct, inProject, trustworthy, configuration, isConfiguration, rfl⟩ := cacheKey_eq_ok.mp keyed
  have sorted : byVersionId bindings = byVersionId request.bindings :=
    (byVersionId_perm perm.symm admissible.stored distinct).symm
  refine cacheKey_eq_ok.mpr ⟨(perm.map _).nodup_iff.mpr distinct,
    (fun binding member => inProject binding (perm.mem_iff.mp member)),
    (fun binding member => trustworthy binding (perm.mem_iff.mp member)), configuration, ?_, ?_⟩
  · unfold sourceConfigurationFingerprint at isConfiguration ⊢
    rw [sorted]
    exact isConfiguration
  · unfold sourceFingerprint
    rw [sorted]

theorem canonicalize_of_key {cache : List (CacheKey × CanonicalApi)}
    (keyed : request.cacheKey libraries.unicode libraries.digests (some project) = .ok key) :
    canonicalize libraries cache request project = match cache.lookup key with
      | some cached => .ok cached
      | none => (request.compute libraries project).mapError .source := by
  unfold canonicalize
  rw [keyed]
  rfl

/-- A sound cache holds, under the key of a request, what the request computes. -/
theorem canonicalize_of_compute {cache : List (CacheKey × CanonicalApi)} (collisionFree : CollisionFree libraries.digests)
    (sound : CacheSound libraries versions cache) (admissible : request.Admissible versions project)
    (single : (request.bindings.filter isDocumentation).length ≤ 1)
    (keyed : request.cacheKey libraries.unicode libraries.digests (some project) = .ok key)
    (computed : request.compute libraries project = .ok api) : canonicalize libraries cache request project = .ok api := by
  rw [canonicalize_of_key keyed]
  cases found : cache.lookup key with
  | none => exact mapError_eq_ok.mpr computed
  | some cached =>
    obtain ⟨other, otherProject, otherAdmissible, otherKeyed, otherComputed⟩ := sound key cached found
    have same := sameInput_of_cacheKey collisionFree admissible otherAdmissible keyed otherKeyed
    have again := compute_of_sameInput same single computed
    rw [otherComputed, Except.ok.injEq] at again
    exact congrArg Except.ok again

/-- A call returns what its request computes. -/
theorem compute_of_canonicalize {cache : List (CacheKey × CanonicalApi)} (collisionFree : CollisionFree libraries.digests)
    (sound : CacheSound libraries versions cache) (admissible : request.Admissible versions project)
    (single : (request.bindings.filter isDocumentation).length ≤ 1)
    (returned : canonicalize libraries cache request project = .ok api) : request.compute libraries project = .ok api := by
  obtain ⟨key, keyed, -⟩ := bind_eq_ok.mp returned
  rw [canonicalize_of_key keyed] at returned
  cases found : cache.lookup key with
  | none =>
    rw [found] at returned
    exact mapError_eq_ok.mp returned
  | some cached =>
    rw [found] at returned
    obtain rfl := Except.ok.inj returned
    obtain ⟨other, otherProject, otherAdmissible, otherKeyed, otherComputed⟩ := sound key cached found
    have same := sameInput_of_cacheKey collisionFree otherAdmissible admissible otherKeyed keyed
    have documents := filter_views isDocumentation (fun view => view.kind = .documentation) (fun _ => rfl) same.views
    have sameNumber := documents.length_eq
    rw [List.length_map, List.length_map] at sameNumber
    exact compute_of_sameInput same (sameNumber ▸ single) otherComputed

theorem reverse_ne_of_nodup {α : Type} {values : List α} (distinct : values.Nodup) (several : 1 < values.length) :
    values.reverse ≠ values := by
  intro same
  match values, several with
  | first :: second :: rest, _ =>
    have last := congrArg List.head? same
    rw [List.head?_reverse, List.getLast?_cons_cons] at last
    exact (List.nodup_cons.mp distinct).1 (List.mem_of_getLast? last)

theorem nodup_documentationRefs {bindings : List BoundSourceVersion}
    (stored : ∀ binding ∈ bindings, Stored versions binding)
    (distinct : (bindings.map BoundSourceVersion.versionId).Nodup) : (documentationRefs bindings).Nodup := by
  refine List.Nodup.map_on ?_ ((List.Nodup.of_map _ distinct).filter _)
  intro binding member other isOther same
  have sameId := congrArg DocumentationRef.sourceVersionId same
  exact List.inj_on_of_nodup_map distinct (List.mem_of_mem_filter member) (List.mem_of_mem_filter isOther)
    (Text.ofUuid_inj (stored binding (List.mem_of_mem_filter member)).bits
      (stored other (List.mem_of_mem_filter isOther)).bits sameId)

theorem documentationRefs_of_compute (computed : request.compute libraries project = .ok api) :
    api.documentationRefs = documentationRefs request.bindings := by
  unfold CanonicalizationRequest.compute canonicalizeUncached at computed
  obtain ⟨canonical, -, computed⟩ := bind_eq_ok.mp computed
  cases computed
  rfl

/-- Where canonicalization succeeds, the order of the bindings and the entries of the cache do not matter exactly when
there is one documentation at most. -/
theorem canonicalization_order_independent_iff (collisionFree : CollisionFree libraries.digests)
    (admissible : request.Admissible versions project)
    (succeeds : canonicalize libraries [] request project = .ok api) :
    OrderIndependent libraries versions request project ↔ (request.bindings.filter isDocumentation).length ≤ 1 := by
  have emptySound : CacheSound libraries versions [] := nofun
  obtain ⟨key, keyed, -⟩ := bind_eq_ok.mp succeeds
  have computed : request.compute libraries project = .ok api := by
    rw [canonicalize_of_key keyed] at succeeds
    exact mapError_eq_ok.mp succeeds
  constructor
  · intro independent
    by_contra several
    have reversed := independent request.bindings.reverse (List.reverse_perm _) [] [] emptySound emptySound
    have reversedKeyed := cacheKey_of_perm (List.reverse_perm request.bindings) admissible keyed
    rw [succeeds, canonicalize_of_key reversedKeyed] at reversed
    have refs := documentationRefs_of_compute (mapError_eq_ok.mp reversed)
    rw [documentationRefs_of_compute computed] at refs
    have distinct := nodup_documentationRefs admissible.stored (cacheKey_eq_ok.mp keyed).1
    refine reverse_ne_of_nodup distinct ?_ ?_
    · rw [documentationRefs, List.length_map]
      omega
    · have reversedRefs : documentationRefs request.bindings.reverse = (documentationRefs request.bindings).reverse := by
        rw [documentationRefs, List.filter_reverse, List.map_reverse]
        rfl
      rw [← reversedRefs]
      exact refs.symm
  · intro single bindings perm cache other cacheSound otherSound
    have permKeyed := cacheKey_of_perm perm admissible keyed
    have permAdmissible : { request with bindings }.Admissible versions project :=
      ⟨fun binding member => admissible.stored binding (perm.mem_iff.mp member), admissible.mappings⟩
    have same := sameInput_of_cacheKey collisionFree admissible permAdmissible keyed permKeyed
    have permComputed := compute_of_sameInput same single computed
    have permSingle : (bindings.filter isDocumentation).length ≤ 1 := by
      rwa [(perm.filter isDocumentation).length_eq]
    rw [canonicalize_of_compute collisionFree cacheSound admissible single keyed computed,
      canonicalize_of_compute collisionFree otherSound permAdmissible permSingle permKeyed permComputed]

end Order

/-! ### Two documentations -/

/-- The object store holds one document. -/
def itemsLibraries : ServiceLibraries :=
  { plainParserLibraries with
    digests := CanonicalizationService.plainDigests
    readInventory := fun _ => .error ⟨[], []⟩
    load := fun _ _ => .ok itemsDocument
    fuel := 4 }

def itemsVersions (versionId : Uuid) : Option StoredVersion :=
  some ⟨plainSha256, Text.ofNat versionId⟩

def itemsBinding (kind : SourceKind) (name : String) (versionId : Uuid) : BoundSourceVersion where
  source := { id := versionId, projectId := 7, kind, name, sourceUrl := none, isPrimary := kind = .openapi }
  versionId
  contentSha256 := plainSha256
  storageKey := Text.ofNat versionId

/-- The API and its documentations. -/
def itemsRequest (documentations : List BoundSourceVersion) : CanonicalizationRequest where
  projectId := 7
  bindings := itemsBinding .openapi "items" 1 :: documentations
  maxSourceBytes := 1000

def firstGuide : BoundSourceVersion := itemsBinding .documentation "first guide" 2

def secondGuide : BoundSourceVersion := itemsBinding .documentation "second guide" 3

/-- The references to two documentations come in the order of their bindings. -/
theorem swapped_documentations :
    ∃ api, canonicalize itemsLibraries [] (itemsRequest [firstGuide, secondGuide]) {} = .ok api ∧
      ¬ OrderIndependent itemsLibraries itemsVersions (itemsRequest [firstGuide, secondGuide]) {} := by
  have first : (canonicalize itemsLibraries [] (itemsRequest [firstGuide, secondGuide]) {}).toOption.map
      (fun api => api.documentationRefs.map DocumentationRef.title) = some [some ("first guide" : Text), some ("second guide" : Text)] := by
    decide +kernel
  have second : (canonicalize itemsLibraries [] (itemsRequest [secondGuide, firstGuide]) {}).toOption.map
      (fun api => api.documentationRefs.map DocumentationRef.title) = some [some ("second guide" : Text), some ("first guide" : Text)] := by
    decide +kernel
  obtain ⟨api, isApi, -⟩ := Option.map_eq_some_iff.mp first
  refine ⟨api, toOption_eq_some.mp isApi, fun independent => ?_⟩
  have swapped := independent (itemsBinding .openapi "items" 1 :: [secondGuide, firstGuide])
    ((List.Perm.swap firstGuide secondGuide []).cons _) [] [] nofun nofun
  rw [show { itemsRequest [firstGuide, secondGuide] with bindings := itemsBinding .openapi "items" 1 ::
    [secondGuide, firstGuide] } = itemsRequest [secondGuide, firstGuide] from rfl] at swapped
  rw [swapped, first] at second
  exact absurd second (by decide)

theorem single_documentation_order_independent :
    OrderIndependent itemsLibraries itemsVersions (itemsRequest [firstGuide]) {} := by
  have succeeds : (canonicalize itemsLibraries [] (itemsRequest [firstGuide]) {}).isOk = true := by decide +kernel
  obtain ⟨api, isApi⟩ := exists_ok_of_isOk succeeds
  have collisionFree : CollisionFree itemsLibraries.digests := fun _ _ same => same
  have admissible : (itemsRequest [firstGuide]).Admissible itemsVersions {} := by
    refine ⟨fun binding member => ?_, List.nodup_nil⟩
    rcases List.mem_cons.mp member with rfl | later
    · exact ⟨by decide, rfl⟩
    · rw [List.mem_singleton.mp later]
      exact ⟨by decide, rfl⟩
  exact (canonicalization_order_independent_iff collisionFree admissible isApi).mpr (by decide)

end Mcplica.Canonicalization
