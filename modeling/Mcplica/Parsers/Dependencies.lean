import Mathlib.Data.List.Pairwise
import Mcplica.Parsers.References

/-! # Captured dependencies

The documents that the OpenAPI sources bound to a build contribute to its canonicalization, and what a reference
from one of them to another denotes. -/

namespace Mcplica.Parsers

open Mcplica.Library
open Mcplica.Contracts
open Mcplica.Domain

/-! ## The table of `_canonicalize_uncached` -/

def isPrimaryExecutable (binding : BoundSourceVersion) : Bool :=
  binding.source.isPrimary && (binding.source.kind = .openapi || binding.source.kind = .apiInventory)

def primaryBinding (bindings : List BoundSourceVersion) : Except SourceError BoundSourceVersion :=
  match bindings.filter isPrimaryExecutable with
  | [root] => .ok root
  | _ => sourceParseError "A build requires exactly one primary executable source"

def isDependency (root binding : BoundSourceVersion) : Bool :=
  binding.versionId ≠ root.versionId && binding.source.kind = .openapi

/-- A dependency with its parsed document and the aliases it is found under. -/
structure Capture where
  binding : BoundSourceVersion
  document : JsonObject
  aliases : List Text

def Capture.external (capture : Capture) : ExternalOpenApiDocument :=
  ⟨capture.document, capture.binding.versionId⟩

def addAlias (capture : Capture) (documents : ExternalDocuments) (key : Text) : Except SourceError ExternalDocuments :=
  if (documents.lookup key).isSome then
    .error (.parse .sourceParse (("Ambiguous external OpenAPI dependency name: " : Text) ++ key)
      (some capture.binding.versionId) (some "#"))
  else
    .ok (documents ++ [(key, capture.external)])

section Table

/-! The bytes of a source are read from the object store and parsed by `parse_json_or_yaml`. -/

variable (unicode : Unicode) (parseSource : BoundSourceVersion → Except SourceError JsonObject)

def captureSource (binding : BoundSourceVersion) : Except SourceError Capture := do
  let document ← attributed binding.versionId "#" (parseSource binding)
  let aliases ← orValueError (binding.effectiveDependencyAliases unicode)
  return ⟨binding, document, aliases⟩

def addDependency (root : BoundSourceVersion) (documents : ExternalDocuments) (binding : BoundSourceVersion) :
    Except SourceError ExternalDocuments :=
  if isDependency root binding then do
    let capture ← captureSource unicode parseSource binding
    capture.aliases.foldlM (addAlias capture) documents
  else
    .ok documents

def externalDocuments (root : BoundSourceVersion) (bindings : List BoundSourceVersion) :
    Except SourceError ExternalDocuments :=
  bindings.foldlM (addDependency unicode parseSource root) []

/-- The resolver that `parse_openapi` is given for the bindings of a build. -/
def bindingResolver (bindings : List BoundSourceVersion) : Except SourceError OpenApiReferenceResolver := do
  let root ← primaryBinding bindings
  let document ← attributed root.versionId "#" (parseSource root)
  let external ← externalDocuments unicode parseSource root bindings
  return ⟨document, root.versionId, external⟩

/-- The captures of all dependencies, in the order of their bindings. -/
def captureDependencies (root : BoundSourceVersion) (bindings : List BoundSourceVersion) :
    Except SourceError (List Capture) :=
  (bindings.filter (isDependency root)).mapM (captureSource unicode parseSource)

end Table

/-! ## What the table holds -/

variable {unicode : Unicode} {parseSource : BoundSourceVersion → Except SourceError JsonObject}
  {root : BoundSourceVersion} {bindings : List BoundSourceVersion} {documents next : ExternalDocuments}
  {captures : List Capture} {key : Text}

def Capture.entries (capture : Capture) : ExternalDocuments :=
  capture.aliases.map (·, capture.external)

theorem addAliases_eq_ok {capture : Capture} {aliases : List Text} (distinct : (documents.map Prod.fst).Nodup)
    (ran : aliases.foldlM (addAlias capture) documents = .ok next) :
    next = documents ++ aliases.map (·, capture.external) ∧ (next.map Prod.fst).Nodup := by
  refine foldlM_induction (fun read state => state = documents ++ read.map (·, capture.external) ∧
    (state.map Prod.fst).Nodup) ?_ ?_ ran
  · simpa using distinct
  · intro read state key next ⟨shape, stateDistinct⟩ step
    unfold addAlias at step
    split at step
    · cases step
    · rename_i absent
      cases step
      have free : key ∉ state.map Prod.fst := fun member => absent (lookup_isSome.mpr member)
      constructor
      · rw [shape, List.map_append, List.append_assoc]
        rfl
      · rw [List.map_append]
        refine stateDistinct.append (List.nodup_singleton key) ?_
        simpa using free

/-- The loop over the bindings: the entries of the captures one after the other, no key twice. -/
theorem externalDocuments_spec (ran : externalDocuments unicode parseSource root bindings = .ok documents) :
    ∃ captures, captureDependencies unicode parseSource root bindings = .ok captures ∧
      documents = captures.flatMap Capture.entries ∧ (documents.map Prod.fst).Nodup := by
  refine foldlM_induction (fun read state => ∃ captures, captureDependencies unicode parseSource root read = .ok captures ∧
    state = captures.flatMap Capture.entries ∧ (state.map Prod.fst).Nodup) ?_ ?_ ran
  · exact ⟨[], rfl, rfl, List.nodup_nil⟩
  · intro read state binding next ⟨captures, captured, shape, distinct⟩ step
    unfold addDependency at step
    unfold captureDependencies at captured ⊢
    split at step
    · rename_i dependency
      rw [bind_eq_ok] at step
      obtain ⟨capture, isCapture, step⟩ := step
      obtain ⟨rfl, nextDistinct⟩ := addAliases_eq_ok distinct step
      refine ⟨captures ++ [capture], ?_, ?_, nextDistinct⟩
      · rw [List.filter_append, List.filter_cons_of_pos dependency, List.filter_nil, List.mapM_append, captured]
        simp [isCapture, bind, Except.bind, pure, Except.pure]
      · rw [List.flatMap_append, ← shape]
        simp [Capture.entries]
    · rename_i other
      cases step
      refine ⟨captures, ?_, shape, distinct⟩
      rw [List.filter_append, List.filter_cons_of_neg other, List.filter_nil, List.append_nil]
      exact captured

theorem addAliases_of_nodup {capture : Capture} {aliases : List Text}
    (distinct : ((documents ++ aliases.map (·, capture.external)).map Prod.fst).Nodup) :
    aliases.foldlM (addAlias capture) documents = .ok (documents ++ aliases.map (·, capture.external)) := by
  induction aliases generalizing documents with
  | nil => simp [pure, Except.pure]
  | cons key aliases ih =>
    have free : key ∉ documents.map Prod.fst := by
      rw [List.map_append] at distinct
      intro member
      exact (List.nodup_append.mp distinct).2.2 key member key (by simp) rfl
    rw [List.map_cons, List.append_cons] at distinct ⊢
    rw [List.foldlM_cons, bind_eq_ok]
    refine ⟨documents ++ [(key, capture.external)], ?_, ih distinct⟩
    rw [addAlias, if_neg (fun found => free (lookup_isSome.mp found))]

/-- Captures whose aliases are all different make a table. -/
theorem externalDocuments_of_captures (captured : captureDependencies unicode parseSource root bindings = .ok captures)
    (distinct : ((captures.flatMap Capture.entries).map Prod.fst).Nodup) :
    externalDocuments unicode parseSource root bindings = .ok (captures.flatMap Capture.entries) := by
  suffices general : ∀ documents : ExternalDocuments, ((documents ++ captures.flatMap Capture.entries).map Prod.fst).Nodup →
      bindings.foldlM (addDependency unicode parseSource root) documents =
        .ok (documents ++ captures.flatMap Capture.entries) from general [] distinct
  clear distinct
  unfold captureDependencies at captured
  induction bindings generalizing captures with
  | nil =>
    intro documents _
    cases captured
    simp [pure, Except.pure]
  | cons binding bindings ih =>
    intro documents distinct
    rw [List.foldlM_cons, bind_eq_ok]
    by_cases dependency : isDependency root binding = true
    · rw [List.filter_cons_of_pos dependency, List.mapM_cons, bind_eq_ok] at captured
      obtain ⟨capture, isCapture, captured⟩ := captured
      rw [bind_eq_ok] at captured
      obtain ⟨others, areOthers, same⟩ := captured
      cases same
      rw [List.flatMap_cons, ← List.append_assoc] at distinct ⊢
      refine ⟨documents ++ capture.entries, ?_, ih areOthers _ distinct⟩
      rw [addDependency, if_pos dependency, bind_eq_ok]
      refine ⟨capture, isCapture, addAliases_of_nodup ?_⟩
      rw [List.map_append] at distinct
      exact distinct.of_append_left
    · rw [List.filter_cons_of_neg dependency] at captured
      refine ⟨documents, ?_, ih captured documents distinct⟩
      rw [addDependency, if_neg dependency]

/-- The one captured dependency that carries the alias. -/
def OnlyUnder (captures : List Capture) (key : Text) (capture : Capture) : Prop :=
  capture ∈ captures ∧ key ∈ capture.aliases ∧ ∀ other ∈ captures, key ∈ other.aliases → other = capture

theorem keys_entries (capture : Capture) : capture.entries.map Prod.fst = capture.aliases := by
  simp [Capture.entries, Function.comp_def]

theorem mem_flatMap_entries {entry : Text × ExternalOpenApiDocument} :
    entry ∈ captures.flatMap Capture.entries ↔ ∃ capture ∈ captures, entry.1 ∈ capture.aliases ∧ entry.2 = capture.external := by
  simp only [List.mem_flatMap, Capture.entries, List.mem_map]
  constructor
  · rintro ⟨capture, member, key, isAlias, rfl⟩
    exact ⟨capture, member, isAlias, rfl⟩
  · rintro ⟨capture, member, isAlias, same⟩
    exact ⟨capture, member, entry.1, isAlias, Prod.ext rfl same.symm⟩

/-- As no key is there twice, an alias belongs to one dependency. -/
theorem onlyUnder_of_nodup (distinct : ((captures.flatMap Capture.entries).map Prod.fst).Nodup) {capture : Capture}
    (member : capture ∈ captures) (isAlias : key ∈ capture.aliases) : OnlyUnder captures key capture := by
  refine ⟨member, isAlias, fun other otherMember otherAlias => ?_⟩
  by_contra different
  have symmetric : Std.Symm (Function.onFun List.Disjoint Capture.aliases) := ⟨fun _ _ disjoint => disjoint.symm⟩
  simp only [List.map_flatMap, keys_entries] at distinct
  exact (List.nodup_flatMap.mp distinct).2.forall otherMember member different otherAlias isAlias

theorem lookup_eq_some_iff (distinct : ((captures.flatMap Capture.entries).map Prod.fst).Nodup)
    {external : ExternalOpenApiDocument} : (captures.flatMap Capture.entries).lookup key = some external ↔
      ∃ capture, OnlyUnder captures key capture ∧ external = capture.external := by
  constructor
  · intro found
    obtain ⟨capture, member, isAlias, same⟩ := mem_flatMap_entries.mp (mem_of_lookup found)
    exact ⟨capture, onlyUnder_of_nodup distinct member isAlias, same⟩
  · rintro ⟨capture, ⟨member, isAlias, -⟩, rfl⟩
    exact lookup_of_mem distinct (mem_flatMap_entries.mpr ⟨capture, member, isAlias, rfl⟩)

theorem lookup_eq_none_iff : (captures.flatMap Capture.entries).lookup key = none ↔
    ∀ capture ∈ captures, key ∉ capture.aliases := by
  rw [← Option.not_isSome_iff_eq_none, lookup_isSome, List.mem_map]
  constructor
  · intro absent capture member isAlias
    exact absent ⟨(key, capture.external), mem_flatMap_entries.mpr ⟨capture, member, isAlias, rfl⟩, rfl⟩
  · rintro absent ⟨entry, isEntry, rfl⟩
    obtain ⟨capture, member, isAlias, -⟩ := mem_flatMap_entries.mp isEntry
    exact absent capture member isAlias

/-! ## What a reference to another document denotes -/

/-- The first spelling of the reference that is an alias at all is one of this dependency. -/
def DenotedBy (captures : List Capture) (spellings : List Text) (capture : Capture) : Prop :=
  ∃ before key after, spellings = before ++ key :: after ∧ (∀ earlier ∈ before, ∀ other ∈ captures, earlier ∉ other.aliases) ∧
    OnlyUnder captures key capture

theorem findSome?_lookup_iff (distinct : ((captures.flatMap Capture.entries).map Prod.fst).Nodup) {spellings : List Text}
    {external : ExternalOpenApiDocument} :
    spellings.findSome? (List.lookup · (captures.flatMap Capture.entries)) = some external ↔
      ∃ capture, DenotedBy captures spellings capture ∧ external = capture.external := by
  rw [List.findSome?_eq_some_iff]
  constructor
  · rintro ⟨before, key, after, rfl, found, earlier⟩
    obtain ⟨capture, only, rfl⟩ := (lookup_eq_some_iff distinct).mp found
    exact ⟨capture, ⟨before, key, after, rfl, (fun other member => lookup_eq_none_iff.mp (earlier other member)), only⟩, rfl⟩
  · rintro ⟨capture, ⟨before, key, after, rfl, earlier, only⟩, rfl⟩
    exact ⟨before, key, after, rfl, (lookup_eq_some_iff distinct).mpr ⟨capture, only, rfl⟩,
      fun other member => lookup_eq_none_iff.mpr (earlier other member)⟩

theorem mem_derivedAliases {source : ProjectSource} {aliases : List Text} {url : Text} {parsed : SplitResult}
    (derived : sourceDependencyAliases unicode source = some aliases) (located : source.sourceUrl = some url)
    (isParsed : urlsplit unicode url = some parsed) (isFile : purePosixPathName parsed.path ≠ []) :
    purePosixPathName parsed.path ∈ aliases := by
  have written : url ≠ [] := by
    rintro rfl
    cases isParsed
    exact isFile rfl
  have kept : (some url).filter (· ≠ []) = some url := by
    rw [Option.filter_some, if_pos (decide_eq_true written)]
  unfold sourceDependencyAliases at derived
  rw [located, kept] at derived
  simp only [isParsed, Option.map_some, Option.some.injEq] at derived
  subst derived
  rw [Text.mem_sorted, List.mem_dedup, if_neg isFile]
  simp

/-- A reference to another document, wherever it is written: its spellings are looked for among the aliases of the
captured dependencies, and a captured dependency at the URL that the reference has relative to any base is the one
found, unless a longer spelling is an alias of another. -/
structure ResolvesByAlias (unicode : Unicode) (resolver : OpenApiReferenceResolver) (captures : List Capture)
    (rawRef documentRef fragment : Text) (parsed : SplitResult) : Prop where
  denotes : ∀ document sourceVersionId target,
    resolver.referenceTarget unicode rawRef document sourceVersionId = .ok target ↔
      ∃ capture, DenotedBy captures (documentCandidates documentRef parsed) capture ∧
        target = ⟨capture.document, capture.binding.versionId, if fragment = [] then "#" else '#' :: fragment⟩
  relative : ∀ (base : SplitResult) (capture : Capture) (url : Text), capture ∈ captures →
    sourceDependencyAliases unicode capture.binding.source = some capture.aliases →
    capture.binding.source.sourceUrl = some url → urlsplit unicode url = some (resolveReference base parsed) →
    lastSegment parsed.path ≠ [] → lastSegment parsed.path ≠ "." → lastSegment parsed.path ≠ ".." →
    (∀ other ∈ captures, other ≠ capture → documentRef ∉ other.aliases ∧ parsed.path.dropWhile (· == '/') ∉ other.aliases) →
    DenotedBy captures (documentCandidates documentRef parsed) capture

/-- No two captured dependencies have the same file name at the end of their URLs. -/
def FileNamesApart (unicode : Unicode) (captures : List Capture) : Prop :=
  ∀ first ∈ captures, ∀ second ∈ captures, ∀ firstUrl secondUrl firstParsed secondParsed,
    sourceDependencyAliases unicode first.binding.source = some first.aliases →
    sourceDependencyAliases unicode second.binding.source = some second.aliases →
    first.binding.source.sourceUrl = some firstUrl → second.binding.source.sourceUrl = some secondUrl →
    urlsplit unicode firstUrl = some firstParsed → urlsplit unicode secondUrl = some secondParsed →
    purePosixPathName firstParsed.path ≠ [] →
    purePosixPathName firstParsed.path = purePosixPathName secondParsed.path → first = second

theorem fileNamesApart (distinct : ((captures.flatMap Capture.entries).map Prod.fst).Nodup) :
    FileNamesApart unicode captures := by
  intro first firstMember second secondMember firstUrl secondUrl firstParsed secondParsed firstDerived secondDerived
    firstLocated secondLocated firstSplit secondSplit isFile same
  have firstAlias := mem_derivedAliases firstDerived firstLocated firstSplit isFile
  have secondAlias := mem_derivedAliases secondDerived secondLocated secondSplit (same ▸ isFile)
  exact (onlyUnder_of_nodup distinct secondMember secondAlias).2.2 first firstMember (same ▸ firstAlias)

theorem denotedBy_file (distinct : ((captures.flatMap Capture.entries).map Prod.fst).Nodup) {documentRef : Text}
    {parsed : SplitResult} {capture : Capture} (member : capture ∈ captures)
    (isAlias : lastSegment parsed.path ∈ capture.aliases)
    (apart : ∀ other ∈ captures, other ≠ capture →
      documentRef ∉ other.aliases ∧ parsed.path.dropWhile (· == '/') ∉ other.aliases) :
    DenotedBy captures (documentCandidates documentRef parsed) capture := by
  -- A longer spelling is an alias of this dependency or of none.
  have none_of_not_mem : documentRef ∉ capture.aliases → ∀ other ∈ captures, documentRef ∉ other.aliases := by
    intro absent other otherMember
    by_cases same : other = capture
    · exact same ▸ absent
    · exact (apart other otherMember same).1
  have none_of_path_not_mem : parsed.path.dropWhile (· == '/') ∉ capture.aliases →
      ∀ other ∈ captures, parsed.path.dropWhile (· == '/') ∉ other.aliases := by
    intro absent other otherMember
    by_cases same : other = capture
    · exact same ▸ absent
    · exact (apart other otherMember same).2
  by_cases whole : documentRef ∈ capture.aliases
  · exact ⟨[], documentRef, _, rfl, (fun _ earlier => by cases earlier), onlyUnder_of_nodup distinct member whole⟩
  by_cases path : parsed.path.dropWhile (· == '/') ∈ capture.aliases
  · refine ⟨[documentRef], _, [lastSegment parsed.path], rfl, ?_, onlyUnder_of_nodup distinct member path⟩
    intro earlier isEarlier
    rw [List.mem_singleton.mp isEarlier]
    exact none_of_not_mem whole
  · refine ⟨[documentRef, parsed.path.dropWhile (· == '/')], lastSegment parsed.path, [], rfl, ?_,
      onlyUnder_of_nodup distinct member isAlias⟩
    intro earlier isEarlier
    rcases List.mem_pair.mp isEarlier with rfl | rfl
    · exact none_of_not_mem whole
    · exact none_of_path_not_mem path

/-- References between the documents of a build go by alias. The documents that carry an alias are the captured
dependencies, each alias belongs to one of them, and the base of a reference plays no part. -/
theorem external_references_by_alias {resolver : OpenApiReferenceResolver}
    (resolved : bindingResolver unicode parseSource bindings = .ok resolver) :
    ∃ root captures, primaryBinding bindings = .ok root ∧
      captureDependencies unicode parseSource root bindings = .ok captures ∧ FileNamesApart unicode captures ∧
      ∀ rawRef documentRef fragment parsed, urldefrag unicode rawRef = some (documentRef, fragment) → documentRef ≠ [] →
        urlsplit unicode documentRef = some parsed →
        ResolvesByAlias unicode resolver captures rawRef documentRef fragment parsed := by
  unfold bindingResolver at resolved
  simp only [bind_eq_ok, attributed_eq_ok] at resolved
  obtain ⟨root, isRoot, document, isDocument, documents, ran, isResolver⟩ := resolved
  cases isResolver
  obtain ⟨captures, captured, rfl, distinct⟩ := externalDocuments_spec ran
  refine ⟨root, captures, isRoot, captured, fileNamesApart distinct, ?_⟩
  intro rawRef documentRef fragment parsed defragged external isParsed
  constructor
  · intro current sourceVersionId target
    rw [OpenApiReferenceResolver.referenceTarget_external defragged external]
    simp only [OpenApiReferenceResolver.externalDocument_eq_ok isParsed, findSome?_lookup_iff distinct]
    constructor
    · rintro ⟨_, ⟨capture, denoted, rfl⟩, rfl⟩
      exact ⟨capture, denoted, rfl⟩
    · rintro ⟨capture, denoted, rfl⟩
      exact ⟨capture.external, ⟨capture, denoted, rfl⟩, rfl⟩
  · intro base capture url member derived located isResolved isFile notHere notParent apart
    have named := lastSegment_resolveReference base isFile notHere notParent
    have isName := purePosixPathName_eq (named ▸ isFile) (named ▸ notHere)
    have isAlias := mem_derivedAliases derived located isResolved (by rw [isName, named]; exact isFile)
    rw [isName, named] at isAlias
    exact denotedBy_file distinct member isAlias apart

def capturedFrom (name : Text) (url : Text) (versionId : Uuid) (isPrimary : Bool) : BoundSourceVersion :=
  { source := { id := versionId, projectId := 1, kind := .openapi, name, sourceUrl := some url, isPrimary }
    versionId, contentSha256 := [], storageKey := url }

def petDocument (_ : BoundSourceVersion) : Except SourceError JsonObject :=
  .ok [Json.entry "Pet" (.object [])]

def siblingBindings : List BoundSourceVersion :=
  [capturedFrom "API" "https://docs.test/api/root.yaml" 1 true,
    capturedFrom "Common" "https://docs.test/api/common.yaml" 2 false]

/-- Two documents in one directory: the reference of one to the other is found. -/
theorem sibling_found : ∃ resolver target, bindingResolver asciiUnicode petDocument siblingBindings = .ok resolver ∧
    resolver.referenceTarget asciiUnicode "common.yaml#/Pet" [] 1 = .ok target ∧ target.sourceVersionId = 2 := by
  obtain ⟨root, captures, isRoot, captured, -, resolves⟩ :=
    @external_references_by_alias asciiUnicode petDocument siblingBindings _ rfl
  cases isRoot
  cases captured
  have byAlias := resolves "common.yaml#/Pet" "common.yaml" "/Pet" _ rfl (by decide) rfl
  refine ⟨_, _, rfl, (byAlias.denotes _ _ _).mpr ⟨_, byAlias.relative ⟨"https", "docs.test", "/api/root.yaml", [], []⟩ _ _
    List.mem_cons_self rfl rfl rfl (by decide) (by decide) (by decide) ?_, rfl⟩, rfl⟩
  intro other member different
  exact absurd (List.mem_singleton.mp member) different

/-! ## Base-relative references -/

/-- The reading of RFC 3986: a relative reference written in a bound OpenAPI document denotes, if it resolves, the
bound document whose URL is the resolution of the reference against the URL of the document it is written in. -/
def BaseRelative (unicode : Unicode) (parseSource : BoundSourceVersion → Except SourceError JsonObject)
    (bindings : List BoundSourceVersion) : Prop :=
  ∀ resolver, bindingResolver unicode parseSource bindings = .ok resolver →
    ∀ holder ∈ bindings, ∀ holderUrl base document, holder.source.kind = .openapi →
      holder.source.sourceUrl = some holderUrl → urlsplit unicode holderUrl = some base →
      parseSource holder = .ok document →
      ∀ rawRef documentRef fragment parsed, urldefrag unicode rawRef = some (documentRef, fragment) → documentRef ≠ [] →
        urlsplit unicode documentRef = some parsed → parsed.scheme = [] → parsed.netloc = [] →
        ∀ target, resolver.referenceTarget unicode rawRef document holder.versionId = .ok target →
          ∃ named ∈ bindings, named.versionId = target.sourceVersionId ∧
            ∃ url, named.source.sourceUrl = some url ∧ urlsplit unicode url = some (resolveReference base parsed)

/-- The file of another directory, captured under its name, stands in for one that was not captured. -/
theorem other_directory_stands_in :
    ¬ BaseRelative asciiUnicode petDocument
      [capturedFrom "API" "https://docs.test/api/root.yaml" 1 true,
        capturedFrom "Common" "https://docs.test/other/common.yaml" 2 false] := by
  intro relative
  obtain ⟨named, member, isNamed, url, located, isResolved⟩ := relative _ rfl _ List.mem_cons_self _ _ _ rfl rfl rfl rfl
    "sub/common.yaml#/Pet" "sub/common.yaml" "/Pet" _ (by decide) (by decide) rfl rfl rfl _ rfl
  rcases List.mem_pair.mp member with rfl | rfl
  · exact absurd isNamed (by decide)
  · cases located
    exact absurd isResolved (by decide)

end Mcplica.Parsers
