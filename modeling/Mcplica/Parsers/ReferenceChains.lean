import Mcplica.Parsers.Pointers
import Mcplica.Parsers.Resolution

/-! # What a chain of references means

The chain of references in a set of captured documents, told by the documents and the names in them and without the
resolver, and when the resolver follows it to its end. -/

namespace Mcplica.Parsers

open Mcplica.Library
open Mcplica.Contracts
open Mcplica.Domain

/-- The walker of the resolver finds the node that the fragment denotes. -/
theorem pointer_eq_ok_iff_under {fragment : Text} {document : JsonObject} {value : Json} :
    pointer document ('#' :: fragment) = .ok value ↔
      ∃ names, Denotes Text.unescapeToken fragment names ∧ Under noIndex names (.object document) value := by
  rw [pointer_eq_ok, openApiNode_iff]

/-! ## Documents -/

/-- The names that a captured document may answer to: the path of its URL without the slashes in front, and what follows
the last slash of the path. -/
structure FileNames (urlPath path file : Text) : Prop where
  isPath : ∃ slashes : Text, (∀ character ∈ slashes, character = '/') ∧ urlPath = slashes ++ path
  noSlash : ∀ rest, path ≠ '/' :: rest
  isFile : urlPath = file ∨ ∃ folder, urlPath = folder ++ '/' :: file
  isLast : '/' ∉ file

/-- The captured document that a URL names: under the URL, else under its path, else under its file name. -/
inductive Captured (captured : ExternalDocuments) (url path file : Text) (home : ExternalOpenApiDocument) : Prop
  | url (isUrl : captured.lookup url = some home)
  | path (notUrl : captured.lookup url = none) (isPath : captured.lookup path = some home)
  | file (notUrl : captured.lookup url = none) (notPath : captured.lookup path = none)
      (isFile : captured.lookup file = some home)

/-- The document that a reference names when it stands in a document, and the fragment in it. -/
inductive NamesDocument (captured : ExternalDocuments) (unicode : Unicode) (own : ExternalOpenApiDocument)
    (reference : Text) : ExternalOpenApiDocument → Text → Prop
  | own {fragment : Text} (splits : urldefrag unicode reference = some ([], fragment)) :
      NamesDocument captured unicode own reference own fragment
  | other {url fragment path file : Text} {parts : SplitResult} {home : ExternalOpenApiDocument}
      (splits : urldefrag unicode reference = some (url, fragment)) (isOther : url ≠ [])
      (isUrl : urlsplit unicode url = some parts) (names : FileNames parts.path path file)
      (isCaptured : Captured captured url path file home) : NamesDocument captured unicode own reference home fragment

/-- `urllib` cannot split the reference or the URL before its fragment. -/
def Unsplit (unicode : Unicode) (reference : Text) : Prop :=
  urldefrag unicode reference = none ∨
    ∃ url fragment, urldefrag unicode reference = some (url, fragment) ∧ url ≠ [] ∧ urlsplit unicode url = none

section Documents

variable {captured : ExternalDocuments} {resolver : OpenApiReferenceResolver} {unicode : Unicode}
  {reference url urlPath path file : Text} {document : JsonObject} {sourceVersionId : Uuid}
  {home : ExternalOpenApiDocument} {target : ReferenceTarget}

theorem FileNames.eq (names : FileNames urlPath path file) :
    path = urlPath.dropWhile (· == '/') ∧ file = lastSegment urlPath := by
  constructor
  · obtain ⟨slashes, allSlashes, isPath⟩ := names.isPath
    have dropped : path.dropWhile (· == '/') = path := by
      cases isText : path with
      | nil => rfl
      | cons first rest =>
        have notSlash : first ≠ '/' := fun same => names.noSlash rest (by rw [isText, same])
        exact List.dropWhile_cons_of_neg (by simpa using notSlash)
    rw [isPath, List.dropWhile_append_of_pos (by simpa using allSlashes), dropped]
  · rcases names.isFile with isFile | ⟨folder, isFile⟩
    · rw [isFile, lastSegment_of_not_mem names.isLast]
    · rw [isFile, lastSegment_append_cons, lastSegment_of_not_mem names.isLast]

/-- Every path has its names. -/
theorem fileNames_of_path (urlPath : Text) : FileNames urlPath (urlPath.dropWhile (· == '/')) (lastSegment urlPath) where
  isPath := by
    refine ⟨urlPath.takeWhile (· == '/'), fun character member => ?_, (List.takeWhile_append_dropWhile).symm⟩
    simpa using List.mem_takeWhile_imp member
  noSlash rest same := by
    have some_ : urlPath.dropWhile (· == '/') ≠ [] := by
      rw [same]
      exact List.cons_ne_nil _ _
    have notSlash := List.head_dropWhile_not (· == '/') some_
    simp [same] at notSlash
  isFile := by
    by_cases slash : '/' ∈ urlPath
    · obtain ⟨after, before, isSplit, noSlash⟩ := List.eq_append_cons_of_mem (List.mem_reverse.mpr slash)
      have isPath : urlPath = before.reverse ++ '/' :: after.reverse := by
        rw [← List.reverse_reverse urlPath, isSplit]
        simp
      refine .inr ⟨before.reverse, ?_⟩
      rw [isPath, lastSegment_append_cons, lastSegment_of_not_mem (by simpa using noSlash)]
    · exact .inl (lastSegment_of_not_mem slash).symm
  isLast := by
    by_cases slash : '/' ∈ urlPath
    · obtain ⟨after, before, isSplit, noSlash⟩ := List.eq_append_cons_of_mem (List.mem_reverse.mpr slash)
      have isPath : urlPath = before.reverse ++ '/' :: after.reverse := by
        rw [← List.reverse_reverse urlPath, isSplit]
        simp
      have absent : '/' ∉ after.reverse := by simpa using noSlash
      rw [isPath, lastSegment_append_cons, lastSegment_of_not_mem absent]
      exact absent
    · rw [lastSegment_of_not_mem slash]
      exact slash

theorem captured_iff {parts : SplitResult} (names : FileNames parts.path path file) :
    Captured captured url path file home ↔
      (documentCandidates url parts).findSome? (List.lookup · captured) = some home := by
  rw [names.eq.1, names.eq.2]
  unfold documentCandidates
  cases isUrl : captured.lookup url with
  | some found =>
    simp only [List.findSome?_cons, isUrl, Option.some.injEq]
    constructor
    · intro isCaptured
      cases isCaptured with
      | url isHome => exact Option.some.inj (isUrl.symm.trans isHome)
      | path notUrl _ => rw [notUrl] at isUrl; cases isUrl
      | file notUrl _ _ => rw [notUrl] at isUrl; cases isUrl
    · rintro rfl
      exact .url isUrl
  | none =>
    cases isPath : captured.lookup (parts.path.dropWhile (· == '/')) with
    | some found =>
      simp only [List.findSome?_cons, isUrl, isPath, Option.some.injEq]
      constructor
      · intro isCaptured
        cases isCaptured with
        | url isHome => rw [isHome] at isUrl; cases isUrl
        | path _ isHome => exact Option.some.inj (isPath.symm.trans isHome)
        | file _ notPath _ => rw [notPath] at isPath; cases isPath
      · rintro rfl
        exact .path isUrl isPath
    | none =>
      simp only [List.findSome?_cons, isUrl, isPath, List.findSome?_nil]
      constructor
      · intro isCaptured
        cases isCaptured with
        | url isHome => rw [isHome] at isUrl; cases isUrl
        | path _ isHome => rw [isHome] at isPath; cases isPath
        | file _ _ isHome => rw [isHome]
      · intro found
        split at found
        · rename_i isFile
          exact .file isUrl isPath (isFile.trans found)
        · cases found

theorem referenceTarget_eq_ok_iff :
    resolver.referenceTarget unicode reference document sourceVersionId = .ok target ↔
      ∃ home fragment, NamesDocument resolver.external unicode ⟨document, sourceVersionId⟩ reference home fragment ∧
        target = ⟨home.document, home.sourceVersionId, '#' :: fragment⟩ := by
  have isPointer (fragment : Text) : (if fragment = [] then ("#" : Text) else '#' :: fragment) = '#' :: fragment := by
    split
    · rename_i isEmpty
      rw [isEmpty]
      rfl
    · rfl
  unfold OpenApiReferenceResolver.referenceTarget
  cases splits : urldefrag unicode reference with
  | none =>
    constructor
    · intro impossible
      cases impossible
    · rintro ⟨home, fragment, names, -⟩
      cases names with
      | own otherwise => rw [splits] at otherwise; cases otherwise
      | other otherwise _ _ _ _ => rw [splits] at otherwise; cases otherwise
  | some parted =>
    obtain ⟨url, fragment⟩ := parted
    show (if url = [] then _ else _) = _ ↔ _
    rw [isPointer]
    by_cases isOwn : url = []
    · subst isOwn
      rw [if_pos rfl]
      constructor
      · intro isTarget
        exact ⟨_, fragment, .own splits, (Except.ok.inj isTarget).symm⟩
      · rintro ⟨home, other, names, rfl⟩
        cases names with
        | own otherwise =>
          rw [splits] at otherwise
          cases otherwise
          rfl
        | other otherwise isOther _ _ _ =>
          rw [splits] at otherwise
          cases otherwise
          exact absurd rfl isOther
    · rw [if_neg isOwn, bind_eq_ok]
      constructor
      · rintro ⟨home, found, isTarget⟩
        cases isUrl : urlsplit unicode url with
        | none =>
          unfold OpenApiReferenceResolver.externalDocument at found
          rw [isUrl] at found
          cases found
        | some parts =>
          have names := fileNames_of_path parts.path
          have isCaptured := (captured_iff names).mpr ((OpenApiReferenceResolver.externalDocument_eq_ok isUrl).mp found)
          exact ⟨home, fragment, .other splits isOwn isUrl names isCaptured, (Except.ok.inj isTarget).symm⟩
      · rintro ⟨home, other, names, rfl⟩
        cases names with
        | own otherwise =>
          rw [splits] at otherwise
          cases otherwise
          exact absurd rfl isOwn
        | other otherwise _ isUrl names isCaptured =>
          rw [splits] at otherwise
          cases otherwise
          exact ⟨home, (OpenApiReferenceResolver.externalDocument_eq_ok isUrl).mpr ((captured_iff names).mp isCaptured), rfl⟩

theorem referenceTarget_eq_value_iff :
    resolver.referenceTarget unicode reference document sourceVersionId = .error .value ↔ Unsplit unicode reference := by
  unfold OpenApiReferenceResolver.referenceTarget Unsplit
  cases splits : urldefrag unicode reference with
  | none => simp [orValueError, obtain?, bind, Except.bind]
  | some parted =>
    obtain ⟨url, fragment⟩ := parted
    show (if url = [] then _ else _) = _ ↔ _
    by_cases isOwn : url = []
    · rw [if_pos isOwn]
      simp [isOwn, pure, Except.pure]
    · rw [if_neg isOwn, bind_eq_error]
      unfold OpenApiReferenceResolver.externalDocument
      cases isUrl : urlsplit unicode url with
      | none => simp [orValueError, obtain?, bind, Except.bind, isOwn, isUrl]
      | some parts =>
        simp only [orValueError, obtain?, bind, Except.bind]
        cases found : (documentCandidates url parts).findSome? (List.lookup · resolver.external) with
        | none => simp [referenceResolutionError, isUrl]
        | some home => simp [pure, Except.pure, isUrl]

end Documents

/-! ## Chains -/

/-- The node is an object whose `$ref` is the reference. -/
def RefersBy (value : Json) (reference : Text) : Prop :=
  ∃ fields, value = .object fields ∧ Json.get fields "$ref" = some (.string reference) ∧ reference ≠ []

/-- The identity of a place under a reference: the source id of the document and the pointer in it. -/
def identityOf (home : ExternalOpenApiDocument) (fragment : Text) : Uuid × Text :=
  (home.sourceVersionId, '#' :: fragment)

section Chains

variable (captured : ExternalDocuments) (unicode : Unicode)

/-- The reference at a place leads to another place with an identity. -/
inductive Hop (place : Place) : Uuid × Text → Place → Prop
  | hop {reference fragment : Text} {home : ExternalOpenApiDocument} {names : List Text} {value : Json}
      (refers : RefersBy place.value reference)
      (isNamed : NamesDocument captured unicode ⟨place.document, place.sourceVersionId⟩ reference home fragment)
      (denotes : Denotes Text.unescapeToken fragment names) (under : Under noIndex names (.object home.document) value) :
      Hop place (identityOf home fragment) ⟨value, home.document, home.sourceVersionId, '#' :: fragment⟩

/-- The places that are reached by following references, each with the identities before it. -/
inductive Chain (start : Place) : List (Uuid × Text) → Place → Prop
  | start : Chain start [] start
  | more {visited : List (Uuid × Text)} {place other : Place} {identity : Uuid × Text} (chain : Chain start visited place)
      (hop : Hop captured unicode place identity other) (isNew : identity ∉ visited) : Chain start (identity :: visited) other

/-- The chain ends at a place without a node to return. -/
inductive Broken (visited : List (Uuid × Text)) (place : Place) : Prop
  | notObject (isOther : ∀ fields, place.value ≠ .object fields)
  | invalid {fields : JsonObject} {reference : Json} (isObject : place.value = .object fields)
      (given : Json.get fields "$ref" = some reference) (refused : ∀ text, reference = .string text → text = [])
  | leaves {reference : Text} (refers : RefersBy place.value reference)
      (nowhere : ∀ home fragment,
        ¬ NamesDocument captured unicode ⟨place.document, place.sourceVersionId⟩ reference home fragment)
  | missing {reference fragment : Text} {home : ExternalOpenApiDocument} (refers : RefersBy place.value reference)
      (isNamed : NamesDocument captured unicode ⟨place.document, place.sourceVersionId⟩ reference home fragment)
      (nothing : ∀ names value, Denotes Text.unescapeToken fragment names →
        ¬ Under noIndex names (.object home.document) value)
  | revisits {reference fragment : Text} {home : ExternalOpenApiDocument} (refers : RefersBy place.value reference)
      (isNamed : NamesDocument captured unicode ⟨place.document, place.sourceVersionId⟩ reference home fragment)
      (seen : identityOf home fragment ∈ visited)

/-- What a resolver is for: a node without a reference at the end of the chain, under its own document, source and
pointer, and a `ReferenceResolutionError` exactly if there is none. -/
structure Meets (start : Place) (outcome : Except SourceError Resolved) : Prop where
  finished : outcome ≠ .error .unfinished
  returns : ∀ {resolved : Resolved}, outcome = .ok resolved → Json.get resolved.value "$ref" = none ∧
    ∃ visited, Chain captured unicode start visited
      ⟨.object resolved.value, resolved.document, resolved.sourceVersionId, resolved.pointer⟩
  raises : (∃ message id pointer, outcome = .error (.parse .referenceResolution message id pointer)) ↔
    ∃ visited place, Chain captured unicode start visited place ∧ Broken captured unicode visited place

/-- Every reference of the chain is a URL that can be split. -/
def Splittable (start : Place) : Prop :=
  ∀ visited place reference, Chain captured unicode start visited place → RefersBy place.value reference →
    ¬ Unsplit unicode reference

/-- No reference of the chain leads to a document without members, or the root document has none. -/
def KeepsDocument (root : JsonObject) (start : Place) : Prop :=
  ∀ visited place, Chain captured unicode start visited place → visited ≠ [] → place.document = [] → root = []

end Chains

/-! ### The chain and the code -/

section Code

variable {resolver : OpenApiReferenceResolver} {unicode : Unicode} {place other start : Place}
  {identity : Uuid × Text} {visited : List (Uuid × Text)} {reference : Text} {outcome : Except SourceError Resolved}

theorem refersBy_iff {value : Json} : RefersBy value reference ↔ referenceOf value = some reference := by
  constructor
  · rintro ⟨fields, rfl, given, some_⟩
    cases reference with
    | nil => exact absurd rfl some_
    | cons first rest => simp only [referenceOf, given]
  · intro isReference
    cases value with
    | object fields =>
      simp only [referenceOf] at isReference
      split at isReference
      · rename_i first rest given
        cases isReference
        exact ⟨fields, rfl, given, List.cons_ne_nil _ _⟩
      · cases isReference
    | null | bool | number | string | array => cases isReference

theorem hop_iff_follow :
    Hop resolver.external unicode place identity other ↔ (resolver.scope unicode).follow place = some (identity, other) := by
  rw [ReferenceScope.follow_eq_some]
  constructor
  · rintro ⟨refers, isNamed, denotes, under⟩
    exact ⟨_, _, _, refersBy_iff.mp refers, referenceTarget_eq_ok_iff.mpr ⟨_, _, isNamed, rfl⟩,
      pointer_eq_ok_iff_under.mpr ⟨_, denotes, under⟩, rfl, rfl⟩
  · rintro ⟨reference, target, value, isReference, isTarget, found, rfl, rfl⟩
    obtain ⟨home, fragment, isNamed, rfl⟩ := referenceTarget_eq_ok_iff.mp isTarget
    obtain ⟨names, denotes, under⟩ := pointer_eq_ok_iff_under.mp found
    exact .hop (refersBy_iff.mpr isReference) isNamed denotes under

theorem chain_iff_trail :
    Chain resolver.external unicode start visited place ↔ Trail (resolver.scope unicode).follow start visited place := by
  constructor
  · intro chain
    induction chain with
    | start => exact .start
    | more _ hop isNew ih => exact .more ih (hop_iff_follow.mp hop) isNew
  · intro trail
    induction trail with
    | start => exact .start
    | more _ leads isNew ih => exact .more ih (hop_iff_follow.mpr leads) isNew

theorem broken_iff_breaks :
    Broken resolver.external unicode visited place ↔ (resolver.scope unicode).Breaks visited place := by
  constructor
  · intro broken
    cases broken with
    | notObject isOther => exact .notObject isOther
    | invalid isObject given refused =>
      refine .invalid isObject given fun first rest same => ?_
      cases refused _ same
    | leaves refers nowhere =>
      cases isTarget : resolver.referenceTarget unicode _ place.document place.sourceVersionId with
      | error error => exact .leaves (refersBy_iff.mp refers) isTarget
      | ok target =>
        obtain ⟨home, fragment, isNamed, -⟩ := referenceTarget_eq_ok_iff.mp isTarget
        exact absurd isNamed (nowhere home fragment)
    | @missing reference fragment home refers isNamed nothing =>
      have isTarget := referenceTarget_eq_ok_iff.mpr ⟨home, fragment, isNamed, rfl⟩
      cases found : pointer home.document ('#' :: fragment) with
      | error error => exact .missing (refersBy_iff.mp refers) isTarget found
      | ok value =>
        obtain ⟨names, denotes, under⟩ := pointer_eq_ok_iff_under.mp found
        exact absurd under (nothing names value denotes)
    | revisits refers isNamed seen =>
      exact .revisits (refersBy_iff.mp refers) (referenceTarget_eq_ok_iff.mpr ⟨_, _, isNamed, rfl⟩) seen
  · intro breaks
    cases breaks with
    | notObject isOther => exact .notObject isOther
    | invalid isObject given refused =>
      refine .invalid isObject given fun text same => ?_
      cases text with
      | nil => rfl
      | cons first rest => exact absurd same (refused first rest)
    | leaves isReference failed =>
      refine .leaves (refersBy_iff.mpr isReference) fun home fragment isNamed => ?_
      have isTarget := (@referenceTarget_eq_ok_iff resolver _ _ _ _ _).mpr ⟨home, fragment, isNamed, rfl⟩
      cases failed.symm.trans isTarget
    | missing isReference isTarget failed =>
      obtain ⟨home, fragment, isNamed, rfl⟩ := referenceTarget_eq_ok_iff.mp isTarget
      refine .missing (refersBy_iff.mpr isReference) isNamed fun names value denotes under => ?_
      cases failed.symm.trans (pointer_eq_ok_iff_under.mpr ⟨names, denotes, under⟩)
    | revisits isReference isTarget seen =>
      obtain ⟨home, fragment, isNamed, rfl⟩ := referenceTarget_eq_ok_iff.mp isTarget
      exact .revisits (refersBy_iff.mpr isReference) isNamed seen

theorem unsplittable_iff : (resolver.scope unicode).Unsplittable place ↔
    ∃ reference, RefersBy place.value reference ∧ Unsplit unicode reference := by
  unfold ReferenceScope.Unsplittable
  simp only [refersBy_iff]
  constructor
  · rintro ⟨reference, isReference, failed⟩
    exact ⟨reference, isReference, referenceTarget_eq_value_iff.mp failed⟩
  · rintro ⟨reference, isReference, unsplit⟩
    exact ⟨reference, isReference, referenceTarget_eq_value_iff.mpr unsplit⟩

/-! ### Where the resolver does what it is for -/

open ReferenceScope

theorem meets_of_settles (given : (resolver.scope unicode).documentOr start.document = start.document)
    (settles : (resolver.scope unicode).Settles start outcome) (splittable : Splittable resolver.external unicode start)
    (keeps : KeepsDocument resolver.external unicode resolver.rootDocument start) :
    Meets resolver.external unicode start outcome := by
  obtain ⟨visited, place, trail, ⟨fields, plain, rfl⟩ | ⟨breaks, error, raises, rfl⟩⟩ := settles
  · refine ⟨(fun same => by cases same), ?_, ?_⟩
    · intro resolved same
      cases same
      refine ⟨plain.2, visited, ?_⟩
      have same : (resolver.scope unicode).documentOr place.document = place.document := by
        cases trail with
        | start => exact given
        | more earlier leads isNew =>
          cases isDocument : place.document with
          | nil => exact keeps _ place (chain_iff_trail.mpr (.more earlier leads isNew)) (List.cons_ne_nil _ _) isDocument
          | cons first rest => rfl
      rw [same, ← plain.1]
      exact chain_iff_trail.mpr trail
    · constructor
      · rintro ⟨_, _, _, impossible⟩
        cases impossible
      · rintro ⟨others, other, otherChain, broken⟩
        have breaks := broken_iff_breaks.mp broken
        obtain ⟨rfl, rfl⟩ := trail.stop_unique (stops_iff.mpr (.inl ⟨fields, plain⟩)) (chain_iff_trail.mp otherChain)
          (stops_iff.mpr (.inr breaks))
        exact absurd breaks (not_breaks_of_plain plain)
  · have split : ¬ (resolver.scope unicode).Unsplittable place := by
      intro unsplittable
      obtain ⟨reference, refers, unsplit⟩ := unsplittable_iff.mp unsplittable
      exact splittable visited place reference (chain_iff_trail.mpr trail) refers unsplit
    obtain ⟨message, id, path, rfl⟩ := raises.reference split
    refine ⟨(fun same => by cases same), ?_, ?_⟩
    · intro resolved same
      cases same
    · exact ⟨fun _ => ⟨visited, place, chain_iff_trail.mpr trail, broken_iff_breaks.mpr breaks⟩,
        fun _ => ⟨message, id, path, rfl⟩⟩

theorem splittable_of_meets (settles : (resolver.scope unicode).Settles start outcome)
    (meets : Meets resolver.external unicode start outcome) : Splittable resolver.external unicode start := by
  intro others other reference otherChain refers unsplit
  have otherTrail := chain_iff_trail.mp otherChain
  have unsplittable : (resolver.scope unicode).Unsplittable other := unsplittable_iff.mpr ⟨reference, refers, unsplit⟩
  have otherBreaks : (resolver.scope unicode).Breaks others other :=
    .leaves (refersBy_iff.mp refers) (referenceTarget_eq_value_iff.mpr unsplit)
  obtain ⟨visited, place, trail, ⟨fields, plain, rfl⟩ | ⟨breaks, error, raises, rfl⟩⟩ := settles
  · obtain ⟨rfl, rfl⟩ := trail.stop_unique (stops_iff.mpr (.inl ⟨fields, plain⟩)) otherTrail
      (stops_iff.mpr (.inr otherBreaks))
    exact not_breaks_of_plain plain otherBreaks
  · obtain ⟨rfl, rfl⟩ := trail.stop_unique (stops_iff.mpr (.inr breaks)) otherTrail (stops_iff.mpr (.inr otherBreaks))
    obtain ⟨message, id, path, same⟩ := meets.raises.mpr
      ⟨visited, place, chain_iff_trail.mpr trail, broken_iff_breaks.mpr breaks⟩
    rw [raises.value unsplittable] at same
    cases same

theorem keepsDocument_of_meets (settles : (resolver.scope unicode).Settles start outcome)
    (meets : Meets resolver.external unicode start outcome) :
    KeepsDocument resolver.external unicode resolver.rootDocument start := by
  intro others other otherChain moved isEmpty
  have otherTrail := chain_iff_trail.mp otherChain
  have otherPlain : Plain [] other := by
    cases otherChain with
    | start => exact absurd rfl moved
    | more _ hop _ =>
      obtain ⟨_, _, denotes, under⟩ := hop
      dsimp only at isEmpty
      rw [isEmpty] at under
      exact ⟨eq_of_pointer_empty (pointer_eq_ok_iff_under.mpr ⟨_, denotes, under⟩), rfl⟩
  have otherStops : Stops (resolver.scope unicode).follow others other := stops_iff.mpr (.inl ⟨_, otherPlain⟩)
  obtain ⟨visited, place, trail, ⟨fields, plain, rfl⟩ | ⟨breaks, error, raises, rfl⟩⟩ := settles
  · obtain ⟨-, rfl⟩ := trail.stop_unique (stops_iff.mpr (.inl ⟨fields, plain⟩)) otherTrail otherStops
    obtain ⟨noReference, marks, lives⟩ := meets.returns rfl
    -- The root document stands in for the empty one, and the chain must end in it.
    obtain ⟨-, same⟩ := otherTrail.stop_unique otherStops (chain_iff_trail.mp lives)
      (stops_iff.mpr (.inl ⟨fields, rfl, noReference⟩))
    have isRoot : place.document = (resolver.scope unicode).documentOr place.document := congrArg Place.document same
    rw [isEmpty] at isRoot
    exact isRoot.symm
  · obtain ⟨rfl, rfl⟩ := trail.stop_unique (stops_iff.mpr (.inr breaks)) otherTrail otherStops
    exact absurd breaks (not_breaks_of_plain otherPlain)

theorem finished_of_settles (settles : (resolver.scope unicode).Settles start outcome) : outcome ≠ .error .unfinished := by
  obtain ⟨visited, place, -, ⟨fields, plain, rfl⟩ | ⟨-, error, raises, rfl⟩⟩ := settles
  · intro impossible
    cases impossible
  · intro same
    cases same
    by_cases unsplittable : (resolver.scope unicode).Unsplittable place
    · cases raises.value unsplittable
    · obtain ⟨_, _, _, impossible⟩ := raises.reference unsplittable
      cases impossible

end Code

/-- The resolver ends on every value; it keeps its contract exactly when no reference of the chain is refused by
`urllib` and none leads to an empty document that the root document then stands in for. -/
theorem resolve_meets_iff (resolver : OpenApiReferenceResolver) (unicode : Unicode) (value : Json) (document : JsonObject)
    (sourceVersionId : Uuid) (path : Text) :
    let scope := resolver.scope unicode
    let start : Place := ⟨value, if document = [] then resolver.rootDocument else document, sourceVersionId, path⟩
    ∃ bound outcome, (∀ fuel ≥ bound, scope.resolve fuel [] value document sourceVersionId path = outcome) ∧
      outcome ≠ .error .unfinished ∧
      (Meets resolver.external unicode start outcome ↔
        Splittable resolver.external unicode start ∧
          KeepsDocument resolver.external unicode resolver.rootDocument start) := by
  intro scope start
  have isGiven : start = ⟨value, scope.documentOr document, sourceVersionId, path⟩ := by
    simp only [start, ReferenceScope.documentOr, List.isEmpty_iff]
    rfl
  have given : scope.documentOr start.document = start.document := by
    rw [isGiven]
    exact scope.documentOr_idem document
  obtain ⟨bound, outcome, ran, settles⟩ := ReferenceScope.exists_settled (resolver.reportsTargets unicode) given
    fun trail => (OpenApiReferenceResolver.stays trail).visited
  refine ⟨bound, outcome, fun fuel enough => ?_, finished_of_settles settles, ?_⟩
  · rw [ReferenceScope.resolve_documentOr, ← isGiven]
    exact ran fuel enough
  · constructor
    · intro meets
      exact ⟨splittable_of_meets settles meets, keepsDocument_of_meets settles meets⟩
    · rintro ⟨splittable, keeps⟩
      exact meets_of_settles given settles splittable keeps

/-- The document that is captured under its file's name, with an entry that refers to another one. -/
def sharedPets : JsonObject :=
  [Json.entry "Pet" (.object [Json.entry "$ref" (.string "#/kinds/cat~1kitten")]),
    Json.entry "kinds" (.object [Json.entry "cat/kitten" (.object [Json.entry "type" (.string "object")])])]

def petsResolver : OpenApiReferenceResolver :=
  ⟨[Json.entry "openapi" (.string "3.1.0")], 1, [("pets.json", ⟨sharedPets, 2⟩)]⟩

def petReference : Json :=
  .object [Json.entry "$ref" (.string "../shared/pets.json#/Pet")]

/-- What the chain ends at, in the captured document. -/
def kitten : Resolved :=
  ⟨[Json.entry "type" (.string "object")], sharedPets, 2, "#/kinds/cat~1kitten"⟩

/-- The places of the chain: the reference, the entry of the captured document and its kind. -/
def referencePlace : Place :=
  ⟨petReference, petsResolver.rootDocument, 1, "#/paths"⟩

def petPlace : Place :=
  ⟨.object [Json.entry "$ref" (.string "#/kinds/cat~1kitten")], sharedPets, 2, "#/Pet"⟩

def kittenPlace : Place :=
  ⟨.object kitten.value, sharedPets, 2, "#/kinds/cat~1kitten"⟩

theorem follow_referencePlace :
    (petsResolver.scope asciiUnicode).follow referencePlace = some ((2, petPlace.pointer), petPlace) := rfl

theorem follow_petPlace :
    (petsResolver.scope asciiUnicode).follow petPlace = some ((2, kittenPlace.pointer), kittenPlace) := rfl

theorem place_of_chain {visited : List (Uuid × Text)} {place : Place}
    (chain : Chain petsResolver.external asciiUnicode referencePlace visited place) :
    place = referencePlace ∨ place = petPlace ∨ place = kittenPlace := by
  induction chain with
  | start => exact .inl rfl
  | more _ hop _ ih =>
    have leads := hop_iff_follow.mp hop
    rcases ih with rfl | rfl | rfl
    · rw [follow_referencePlace, Option.some.injEq, Prod.mk.injEq] at leads
      exact .inr (.inl leads.2.symm)
    · rw [follow_petPlace, Option.some.injEq, Prod.mk.injEq] at leads
      exact .inr (.inr leads.2.symm)
    · cases leads

theorem resolve_petReference (fuel : Nat) :
    (petsResolver.scope asciiUnicode).resolve (fuel + 2) [] petReference [] 1 "#/paths" = .ok kitten := by
  rw [ReferenceScope.resolve_documentOr]
  refine (ReferenceScope.run_more rfl follow_referencePlace List.not_mem_nil (fuel + 1)).trans ?_
  rw [ReferenceScope.run_more rfl follow_petPlace (by decide) fuel,
    @ReferenceScope.run_plain _ _ kittenPlace _ ⟨rfl, rfl⟩]
  rfl

/-- The chain goes into the captured document and on in it, and what it ends at comes with that document's source. -/
theorem resolve_meets_shared_pets :
    (∃ bound, ∀ fuel ≥ bound,
      (petsResolver.scope asciiUnicode).resolve fuel [] petReference [] 1 "#/paths" = .ok kitten) ∧
    Meets petsResolver.external asciiUnicode referencePlace (.ok kitten) := by
  obtain ⟨bound, outcome, ran, -, meets⟩ := resolve_meets_iff petsResolver asciiUnicode petReference [] 1 "#/paths"
  have computed : outcome = .ok kitten :=
    (ran (bound + 2) (Nat.le_add_right _ _)).symm.trans (resolve_petReference bound)
  rw [computed] at ran meets
  refine ⟨⟨bound, ran⟩, meets.mpr ⟨?_, ?_⟩⟩
  · intro visited place reference chain refers unsplit
    have unsplittable : (petsResolver.scope asciiUnicode).Unsplittable place :=
      unsplittable_iff.mpr ⟨reference, refers, unsplit⟩
    obtain ⟨other, isReference, failed⟩ := unsplittable
    rcases place_of_chain chain with rfl | rfl | rfl
    · cases isReference
      cases failed
    · cases isReference
      cases failed
    · cases isReference
  · intro visited place chain _ isEmpty
    rcases place_of_chain chain with rfl | rfl | rfl
    · cases isEmpty
    · cases isEmpty
    · cases isEmpty

/-- A reference to a host that is no host leaves the documents, and what the resolver raises is a `ValueError`. -/
theorem unsplittable_reference_raises_value :
    let resolver : OpenApiReferenceResolver := ⟨[Json.entry "openapi" (.string "3.1.0")], 1, []⟩
    let scope := resolver.scope asciiUnicode
    let value : Json := .object [Json.entry "$ref" (.string "http://[pets")]
    let start : Place := ⟨value, resolver.rootDocument, 1, "#"⟩
    Broken [] asciiUnicode [] start ∧
      (∀ fuel, scope.resolve fuel [] value resolver.rootDocument 1 "#" = .error .value) ∧
      ¬ ∃ bound outcome, (∀ fuel ≥ bound, scope.resolve fuel [] value resolver.rootDocument 1 "#" = outcome) ∧
        Meets [] asciiUnicode start outcome := by
  intro resolver scope value start
  have unsplit : urldefrag asciiUnicode "http://[pets" = some (("http://[pets" : Text), []) := rfl
  have noUrl : urlsplit asciiUnicode "http://[pets" = none := rfl
  have broken : Broken [] asciiUnicode [] start := by
    refine @Broken.leaves [] asciiUnicode [] start "http://[pets" ⟨_, rfl, rfl, List.cons_ne_nil _ _⟩ ?_
    intro home fragment isNamed
    cases isNamed with
    | own splits => rw [unsplit] at splits; cases splits
    | other splits _ isUrl _ _ =>
      rw [unsplit] at splits
      cases splits
      rw [noUrl] at isUrl
      cases isUrl
  have fails : ∀ fuel, scope.resolve fuel [] value resolver.rootDocument 1 "#" = .error .value := by
    intro fuel
    rw [ReferenceScope.resolve.eq_def]
    rfl
  refine ⟨broken, fails, ?_⟩
  rintro ⟨bound, outcome, ran, meets⟩
  obtain ⟨message, id, path, raised⟩ := meets.raises.mpr ⟨[], start, .start, broken⟩
  have isValue := ran bound le_rfl
  rw [fails, raised] at isValue
  cases isValue

end Mcplica.Parsers
