import Mcplica.Library.Trail
import Mcplica.Parsers.OpenApiSchemas

/-! # Chains of references

Where `OpenApiReferenceResolver.resolve` comes when a reference leads to a reference, told in the steps of the code: the
trail of its calls, where that stops, and what is returned or raised there. -/

namespace Mcplica.Parsers

open Mcplica.Library
open Mcplica.Contracts
open Mcplica.Domain

/-- A node and where it stands. -/
structure Place where
  value : Json
  document : JsonObject
  sourceVersionId : Uuid
  pointer : Text

/-- The `$ref` of a node, if it can be one. -/
def referenceOf (value : Json) : Option Text :=
  match value with
  | .object fields =>
    match Json.get fields "$ref" with
    | some (.string (first :: rest)) => some (first :: rest)
    | _ => none
  | _ => none

/-- The node is an object without a `$ref`. -/
def Plain (fields : JsonObject) (place : Place) : Prop :=
  place.value = .object fields ∧ Json.get fields "$ref" = none

namespace ReferenceScope

section Steps

variable (scope : ReferenceScope)

/-- The node that a reference leads to, under the identity of its place. -/
def follow (place : Place) : Option ((Uuid × Text) × Place) :=
  match referenceOf place.value with
  | none => none
  | some reference =>
    match scope.target reference place.document place.sourceVersionId with
    | .error _ => none
    | .ok target =>
      match pointer target.document target.pointer with
      | .error _ => none
      | .ok value => some ((target.sourceVersionId, target.pointer),
          ⟨value, target.document, target.sourceVersionId, target.pointer⟩)

/-- The code cannot go on from the place and has not come to its end. -/
inductive Breaks (visited : List (Uuid × Text)) (place : Place) : Prop
  | notObject (isOther : ∀ fields, place.value ≠ .object fields)
  | invalid {fields : JsonObject} {reference : Json} (isObject : place.value = .object fields)
      (given : Json.get fields "$ref" = some reference) (refused : ∀ first rest, reference ≠ .string (first :: rest))
  | leaves {reference : Text} {error : SourceError} (isReference : referenceOf place.value = some reference)
      (failed : scope.target reference place.document place.sourceVersionId = .error error)
  | missing {reference : Text} {target : ReferenceTarget} {error : SourceError}
      (isReference : referenceOf place.value = some reference)
      (isTarget : scope.target reference place.document place.sourceVersionId = .ok target)
      (failed : pointer target.document target.pointer = .error error)
  | revisits {reference : Text} {target : ReferenceTarget} (isReference : referenceOf place.value = some reference)
      (isTarget : scope.target reference place.document place.sourceVersionId = .ok target)
      (seen : (target.sourceVersionId, target.pointer) ∈ visited)

/-- The target of the reference is a `ValueError`. -/
def Unsplittable (place : Place) : Prop :=
  ∃ reference, referenceOf place.value = some reference ∧
    scope.target reference place.document place.sourceVersionId = .error .value

end Steps

variable {scope : ReferenceScope} {visited : List (Uuid × Text)} {place other : Place} {mark : Uuid × Text}
  {fields : JsonObject}

theorem follow_eq_some : scope.follow place = some (mark, other) ↔
    ∃ reference target value, referenceOf place.value = some reference ∧
      scope.target reference place.document place.sourceVersionId = .ok target ∧
      pointer target.document target.pointer = .ok value ∧ mark = (target.sourceVersionId, target.pointer) ∧
      other = ⟨value, target.document, target.sourceVersionId, target.pointer⟩ := by
  unfold follow
  cases isReference : referenceOf place.value with
  | none => simp
  | some reference =>
    cases isTarget : scope.target reference place.document place.sourceVersionId with
    | error error => simp [isTarget]
    | ok target =>
      cases found : pointer target.document target.pointer with
      | error error => simp [isTarget, found]
      | ok value => simp [isTarget, found, eq_comm]

theorem referenceOf_plain (plain : Plain fields place) : referenceOf place.value = none := by
  rw [plain.1]
  simp only [referenceOf, plain.2]

theorem follow_plain (plain : Plain fields place) : scope.follow place = none := by
  rw [follow, referenceOf_plain plain]

theorem not_breaks_of_plain (plain : Plain fields place) : ¬ scope.Breaks visited place := by
  intro breaks
  have noReference := referenceOf_plain plain
  cases breaks with
  | notObject isOther => exact isOther fields plain.1
  | invalid isObject given refused =>
    rw [plain.1, Json.object.injEq] at isObject
    subst isObject
    rw [plain.2] at given
    cases given
  | leaves isReference failed => rw [noReference] at isReference; cases isReference
  | missing isReference isTarget failed => rw [noReference] at isReference; cases isReference
  | revisits isReference isTarget seen => rw [noReference] at isReference; cases isReference

/-- The chain stops where it breaks and at a node without a reference. -/
theorem stops_iff : Stops scope.follow visited place ↔ (∃ fields, Plain fields place) ∨ scope.Breaks visited place := by
  constructor
  · intro stops
    cases isReference : referenceOf place.value with
    | some reference =>
      right
      cases isTarget : scope.target reference place.document place.sourceVersionId with
      | error error => exact .leaves isReference isTarget
      | ok target =>
        cases found : pointer target.document target.pointer with
        | error error => exact .missing isReference isTarget found
        | ok value =>
          exact .revisits isReference isTarget
            (stops _ _ (follow_eq_some.mpr ⟨reference, target, value, isReference, isTarget, found, rfl, rfl⟩))
    | none =>
      cases isObject : place.value with
      | object fields =>
        cases given : Json.get fields "$ref" with
        | none => exact .inl ⟨fields, isObject, given⟩
        | some reference =>
          refine .inr (.invalid isObject given ?_)
          rintro first rest rfl
          rw [isObject] at isReference
          simp only [referenceOf, given] at isReference
          cases isReference
      | null | bool | number | string | array =>
        refine .inr (.notObject fun fields same => ?_)
        rw [isObject] at same
        cases same
  · rintro (⟨fields, plain⟩ | breaks) mark other leads
    · rw [follow_plain plain] at leads
      cases leads
    · obtain ⟨reference, target, value, isReference, isTarget, found, rfl, -⟩ := follow_eq_some.mp leads
      cases breaks with
      | notObject isOther =>
        cases isValue : place.value with
        | object fields => exact absurd isValue (isOther fields)
        | null | bool | number | string | array =>
          rw [isValue] at isReference
          cases isReference
      | invalid isObject given refused =>
        rw [isObject] at isReference
        simp only [referenceOf, given] at isReference
        split at isReference
        · rename_i first rest same
          exact absurd (Option.some.inj same) (refused first rest)
        · cases isReference
      | leaves isOther failed =>
        rw [isReference, Option.some.injEq] at isOther
        subst isOther
        rw [isTarget] at failed
        cases failed
      | missing isOther isTarget' failed =>
        rw [isReference, Option.some.injEq] at isOther
        subst isOther
        rw [isTarget, Except.ok.injEq] at isTarget'
        subst isTarget'
        rw [found] at failed
        cases failed
      | revisits isOther isTarget' seen =>
        rw [isReference, Option.some.injEq] at isOther
        subst isOther
        rw [isTarget, Except.ok.injEq] at isTarget'
        subst isTarget'
        exact seen

/-! ## Runs -/

/-- `document or self._root_document` -/
def documentOr (scope : ReferenceScope) (document : JsonObject) : JsonObject :=
  if document.isEmpty then scope.rootDocument else document

/-- The resolver at a place. -/
def run (scope : ReferenceScope) (fuel : Nat) (visited : List (Uuid × Text)) (place : Place) : Except SourceError Resolved :=
  scope.resolve fuel visited place.value place.document place.sourceVersionId place.pointer

/-- The targets of references fail with a `ReferenceResolutionError` or with a `ValueError`. -/
def ReportsTargets (scope : ReferenceScope) : Prop :=
  ∀ {reference document sourceVersionId error}, scope.target reference document sourceVersionId = .error error →
    error = .value ∨ ∃ message, error = .parse .referenceResolution message none none

theorem run_plain (plain : Plain fields place) (fuel : Nat) : scope.run fuel visited place =
    .ok ⟨fields, scope.documentOr place.document, place.sourceVersionId, place.pointer⟩ := by
  rw [run, resolve.eq_def, plain.1]
  simp only [plain.2]
  rfl

theorem resolve_reference {reference : Text} (isReference : referenceOf place.value = some reference) (fuel : Nat) :
    scope.run fuel visited place = attributed place.sourceVersionId place.pointer (do
      let target ← scope.target reference (scope.documentOr place.document) place.sourceVersionId
      if visited.contains (target.sourceVersionId, target.pointer) then
        referenceResolutionError (("Circular non-schema $ref: " : Text) ++ reference)
      else
        match fuel with
        | 0 => .error .unfinished
        | fuel + 1 =>
          let node ← attributed target.sourceVersionId target.pointer (pointer target.document target.pointer)
          scope.run fuel ((target.sourceVersionId, target.pointer) :: visited)
            ⟨node, target.document, target.sourceVersionId, target.pointer⟩) := by
  cases isValue : place.value with
  | object fields =>
    rw [isValue] at isReference
    simp only [referenceOf] at isReference
    split at isReference
    · rename_i first rest given
      cases isReference
      rw [run, resolve.eq_def, isValue]
      simp only [given]
      rfl
    · cases isReference
  | null | bool | number | string | array =>
    rw [isValue] at isReference
    cases isReference

theorem run_more (kept : scope.documentOr place.document = place.document) (leads : scope.follow place = some (mark, other))
    (isNew : mark ∉ visited) (fuel : Nat) : scope.run (fuel + 1) visited place =
      attributed place.sourceVersionId place.pointer (scope.run fuel (mark :: visited) other) := by
  obtain ⟨reference, target, value, isReference, isTarget, found, rfl, rfl⟩ := follow_eq_some.mp leads
  have unseen : visited.contains (target.sourceVersionId, target.pointer) = false := by simpa using isNew
  rw [resolve_reference isReference, kept, isTarget]
  simp only [bind, Except.bind, unseen, found]
  rfl

/-- What the resolver raises where the chain breaks. -/
structure Raises (scope : ReferenceScope) (place : Place) (error : SourceError) : Prop where
  value : scope.Unsplittable place → error = .value
  reference : ¬ scope.Unsplittable place → ∃ message id pointer, error = .parse .referenceResolution message id pointer

theorem Raises.attribute {error : SourceError} (raises : scope.Raises place error) (id : Uuid) (pointer : Text) :
    scope.Raises place (error.attribute id pointer) where
  value unsplittable := by rw [raises.value unsplittable]; rfl
  reference splittable := by
    obtain ⟨message, knownId, knownPointer, rfl⟩ := raises.reference splittable
    exact ⟨message, _, _, rfl⟩

theorem raises_reference (splittable : ¬ scope.Unsplittable place) (message : Text) :
    scope.Raises place (.parse .referenceResolution message none none) where
  value unsplittable := absurd unsplittable splittable
  reference _ := ⟨message, none, none, rfl⟩

theorem raises_of_report (splittable : ¬ scope.Unsplittable place) (message : Text)
    (fails : ∀ fuel, scope.run (fuel + 1) visited place =
      attributed place.sourceVersionId place.pointer (referenceResolutionError message)) :
    ∃ error, scope.Raises place error ∧ ∀ fuel, scope.run (fuel + 1) visited place = .error error :=
  ⟨_, (raises_reference splittable message).attribute _ _, fails⟩

theorem run_breaks (reports : ReportsTargets scope) (kept : scope.documentOr place.document = place.document)
    (breaks : scope.Breaks visited place) :
    ∃ error, scope.Raises place error ∧ ∀ fuel, scope.run (fuel + 1) visited place = .error error := by
  have notUnsplittable (noReference : referenceOf place.value = none) : ¬ scope.Unsplittable place := by
    rintro ⟨reference, isReference, -⟩
    rw [noReference] at isReference
    cases isReference
  have splits {reference : Text} {target : ReferenceTarget} (isReference : referenceOf place.value = some reference)
      (isTarget : scope.target reference place.document place.sourceVersionId = .ok target) :
      ¬ scope.Unsplittable place := by
    rintro ⟨other, isOther, failed⟩
    rw [isReference, Option.some.injEq] at isOther
    subst isOther
    rw [isTarget] at failed
    cases failed
  cases breaks with
  | notObject isOther =>
    cases isValue : place.value with
    | object fields => exact absurd isValue (isOther fields)
    | null | bool | number | string | array =>
      have noReference : referenceOf place.value = none := by rw [isValue]; rfl
      refine raises_of_report (notUnsplittable noReference) (("Expected an object at " : Text) ++ place.pointer) fun fuel => ?_
      rw [run, resolve.eq_def, isValue]
  | @invalid fields reference isObject given refused =>
    have noReference : referenceOf place.value = none := by
      rw [isObject]
      simp only [referenceOf, given]
      split
      · rename_i first rest same
        exact absurd (Option.some.inj same) (refused first rest)
      · rfl
    refine raises_of_report (notUnsplittable noReference) (("Invalid $ref at " : Text) ++ place.pointer) fun fuel => ?_
    rw [run, resolve.eq_def, isObject]
    simp only [given]
  | leaves isReference failed =>
    rename_i reference error
    have raises : scope.Raises place error := by
      rcases reports failed with rfl | ⟨message, rfl⟩
      · exact ⟨fun _ => rfl, fun splittable => absurd ⟨reference, isReference, failed⟩ splittable⟩
      · refine raises_reference ?_ message
        rintro ⟨other, isOther, unsplittable⟩
        rw [isReference, Option.some.injEq] at isOther
        subst isOther
        rw [failed] at unsplittable
        cases unsplittable
    refine ⟨_, raises.attribute place.sourceVersionId place.pointer, fun fuel => ?_⟩
    rw [resolve_reference isReference, kept, failed]
    rfl
  | missing isReference isTarget failed =>
    rename_i reference target error
    obtain ⟨message, rfl⟩ := pointer_error failed
    have splittable := splits isReference isTarget
    by_cases seen : visited.contains (target.sourceVersionId, target.pointer) = true
    · refine raises_of_report splittable (("Circular non-schema $ref: " : Text) ++ reference) fun fuel => ?_
      rw [resolve_reference isReference, kept, isTarget]
      simp only [bind, Except.bind, seen, if_true]
    · refine ⟨_, ((raises_reference splittable message).attribute target.sourceVersionId target.pointer).attribute
        place.sourceVersionId place.pointer, fun fuel => ?_⟩
      rw [resolve_reference isReference, kept, isTarget]
      simp only [bind, Except.bind, seen, failed]
      rfl
  | revisits isReference isTarget seen =>
    rename_i reference target
    have isSeen : visited.contains (target.sourceVersionId, target.pointer) = true := List.contains_iff_mem.mpr seen
    refine raises_of_report (splits isReference isTarget) (("Circular non-schema $ref: " : Text) ++ reference)
      fun fuel => ?_
    rw [resolve_reference isReference, kept, isTarget]
    simp only [bind, Except.bind, isSeen, if_true]

/-! ## Where runs end -/

/-- A document that is empty has one node. -/
theorem eq_of_pointer_empty {path : Text} {value : Json} (found : pointer [] path = .ok value) : value = .object [] := by
  unfold pointer at found
  split at found
  · cases found
    rfl
  · split at found
    · rename_i tokens _
      cases parts : tokens.splitOn '/' with
      | nil => exact absurd parts (List.splitOn_ne_nil _ _)
      | cons token rest =>
        rw [parts] at found
        cases found
    · cases found

variable {start : Place}

/-- Wherever the chain goes on or breaks, the resolver looks in the document of the place. -/
theorem documentOr_eq (given : scope.documentOr start.document = start.document)
    (trail : Trail scope.follow start visited place) (notPlain : ∀ fields, ¬ Plain fields place) :
    scope.documentOr place.document = place.document := by
  cases trail with
  | start => exact given
  | more _ leads _ =>
    obtain ⟨_, target, value, _, _, found, _, rfl⟩ := follow_eq_some.mp leads
    cases isDocument : target.document with
    | nil =>
      rw [isDocument] at found
      refine absurd ?_ (notPlain [])
      exact ⟨eq_of_pointer_empty found, rfl⟩
    | cons first rest => simp [documentOr]

/-- How the run from a place ends. -/
def Settles (scope : ReferenceScope) (start : Place) (outcome : Except SourceError Resolved) : Prop :=
  ∃ visited place, Trail scope.follow start visited place ∧
    ((∃ fields, Plain fields place ∧
        outcome = .ok ⟨fields, scope.documentOr place.document, place.sourceVersionId, place.pointer⟩) ∨
      (scope.Breaks visited place ∧ ∃ error, scope.Raises place error ∧ outcome = .error error))

theorem Settles.attributed {outcome : Except SourceError Resolved} (settles : scope.Settles start outcome) (id : Uuid)
    (pointer : Text) : scope.Settles start (attributed id pointer outcome) := by
  obtain ⟨visited, place, trail, ⟨fields, plain, rfl⟩ | ⟨breaks, error, raises, rfl⟩⟩ := settles
  · exact ⟨visited, place, trail, .inl ⟨fields, plain, rfl⟩⟩
  · exact ⟨visited, place, trail, .inr ⟨breaks, _, raises.attribute id pointer, rfl⟩⟩

/-- With finitely many identities, enough fuel settles every run. -/
theorem exists_settled (reports : ReportsTargets scope) (given : scope.documentOr start.document = start.document)
    {identities : List (Uuid × Text)}
    (within : ∀ {visited : List (Uuid × Text)} {place : Place}, Trail scope.follow start visited place →
      visited ⊆ identities) :
    ∃ bound outcome, (∀ fuel ≥ bound, scope.run fuel [] start = outcome) ∧ scope.Settles start outcome := by
  have everywhere : ∀ {visited : List (Uuid × Text)} {place : Place}, Trail scope.follow start visited place →
      ∃ bound outcome, (∀ fuel ≥ bound, scope.run fuel visited place = outcome) ∧ scope.Settles start outcome := by
    intro visited place trail
    refine Trail.induction_back (fun visited place => ∃ bound outcome,
      (∀ fuel ≥ bound, scope.run fuel visited place = outcome) ∧ scope.Settles start outcome) within ?_ ?_ trail
    · intro visited place trail stops
      rcases stops_iff.mp stops with ⟨fields, plain⟩ | breaks
      · exact ⟨0, _, fun fuel _ => run_plain plain fuel, visited, place, trail, .inl ⟨fields, plain, rfl⟩⟩
      · have kept := documentOr_eq given trail fun fields plain => not_breaks_of_plain plain breaks
        obtain ⟨error, raises, failed⟩ := run_breaks reports kept breaks
        refine ⟨1, _, fun fuel enough => ?_, visited, place, trail, .inr ⟨breaks, error, raises, rfl⟩⟩
        cases fuel with
        | zero => omega
        | succ fuel => exact failed fuel
    · intro visited place other mark trail leads isNew ⟨bound, outcome, ran, settles⟩
      have kept := documentOr_eq given trail fun fields plain => by
        rw [follow_plain plain] at leads
        cases leads
      refine ⟨bound + 1, _, fun fuel enough => ?_, settles.attributed place.sourceVersionId place.pointer⟩
      cases fuel with
      | zero => omega
      | succ fuel => rw [run_more kept leads isNew, ran fuel (by omega)]
  exact everywhere .start

end ReferenceScope

/-! ## The references of a document set -/

namespace OpenApiReferenceResolver

open ReferenceScope

variable {resolver : OpenApiReferenceResolver} {unicode : Unicode} {start place : Place}
  {visited : List (Uuid × Text)}

theorem reportsTargets (resolver : OpenApiReferenceResolver) (unicode : Unicode) :
    ReportsTargets (resolver.scope unicode) := by
  intro reference document sourceVersionId error failed
  change resolver.referenceTarget unicode reference document sourceVersionId = .error error at failed
  unfold referenceTarget at failed
  cases defragged : urldefrag unicode reference with
  | none =>
    rw [defragged] at failed
    cases failed
    exact .inl rfl
  | some parts =>
    obtain ⟨documentRef, fragment⟩ := parts
    rw [defragged] at failed
    change (if documentRef = [] then _ else _) = _ at failed
    split at failed
    · cases failed
    · rw [bind_eq_error] at failed
      rcases failed with missing | ⟨_, _, impossible⟩
      · unfold externalDocument at missing
        cases parsed : urlsplit unicode documentRef with
        | none =>
          rw [parsed] at missing
          cases missing
          exact .inl rfl
        | some parts =>
          rw [parsed] at missing
          cases found : (documentCandidates documentRef parts).findSome? (List.lookup · resolver.external) with
          | some external =>
            simp only [orValueError, obtain?, bind, Except.bind, found] at missing
            cases missing
          | none =>
            simp only [orValueError, obtain?, bind, Except.bind, found, referenceResolutionError] at missing
            exact .inr ⟨_, (Except.error.inj missing).symm⟩
      · cases impossible

/-- The pointer of a reference in the documents. -/
def pointerOf (unicode : Unicode) : Json → Text
  | .string reference =>
    match urldefrag unicode reference with
    | some (_, []) | none => "#"
    | some (_, fragment) => '#' :: fragment
  | _ => "#"

theorem referenceTarget_spec {reference : Text} {document : JsonObject} {sourceVersionId : Uuid} {target : ReferenceTarget}
    (isTarget : resolver.referenceTarget unicode reference document sourceVersionId = .ok target) :
    target.pointer = pointerOf unicode (.string reference) ∧
      ((target.document = document ∧ target.sourceVersionId = sourceVersionId) ∨
        ∃ entry ∈ resolver.external, target.document = entry.2.document ∧
          target.sourceVersionId = entry.2.sourceVersionId) := by
  unfold referenceTarget at isTarget
  simp only [bind_eq_ok, orValueError_eq_ok] at isTarget
  obtain ⟨⟨documentRef, fragment⟩, defragged, isTarget⟩ := isTarget
  have isPointer : (if fragment = [] then ("#" : Text) else '#' :: fragment) = pointerOf unicode (.string reference) := by
    cases fragment with
    | nil => simp [pointerOf, defragged]
    | cons first rest => simp [pointerOf, defragged]
  dsimp only at isTarget
  split at isTarget
  · cases isTarget
    exact ⟨isPointer, .inl ⟨rfl, rfl⟩⟩
  · simp only [bind_eq_ok, externalDocument, orValueError_eq_ok] at isTarget
    obtain ⟨external, ⟨parsed, -, found⟩, same⟩ := isTarget
    cases same
    refine ⟨isPointer, .inr ?_⟩
    split at found
    · rename_i found' isFound
      cases found
      obtain ⟨candidate, -, isEntry⟩ := List.exists_of_findSome?_eq_some isFound
      exact ⟨_, mem_of_lookup isEntry, rfl, rfl⟩
    · cases found

variable (resolver unicode start)

/-- The documents that a chain can come to. -/
def documents : List JsonObject :=
  start.document :: resolver.external.map fun entry => entry.2.document

/-- The references that are written in them. -/
def written : List Json :=
  start.value.references ++ (resolver.documents start).flatMap fun document => Json.references (.object document)

/-- The sources that they are versions of. -/
def sources : List Uuid :=
  start.sourceVersionId :: resolver.external.map fun entry => entry.2.sourceVersionId

/-- The identities that a chain can visit. -/
def identities : List (Uuid × Text) :=
  resolver.sources start ×ˢ (resolver.written start).map (pointerOf unicode)

variable {resolver unicode start}

theorem followPointer_references {shown : Text} {tokens : List Text} : ∀ {node value : Json},
    followPointer shown tokens node = .ok value → value.references ⊆ node.references := by
  induction tokens with
  | nil =>
    intro node value found
    cases found
    exact List.Subset.refl _
  | cons token rest ih =>
    intro node value found
    cases node with
    | object fields =>
      simp only [followPointer] at found
      split at found
      · rename_i member isMember
        intro reference isReference
        exact Json.mem_references_object.mpr
          (.inr ⟨_, Json.mem_of_get isMember, ih found isReference⟩)
      · cases found
    | null | bool | number | string | array => cases found

theorem pointer_references {document : JsonObject} {path : Text} {value : Json} (found : pointer document path = .ok value) :
    value.references ⊆ (Json.object document).references := by
  unfold pointer at found
  split at found
  · cases found
    exact List.Subset.refl _
  · split at found
    · exact followPointer_references found
    · cases found

theorem referenceOf_mem {value : Json} {reference : Text} (isReference : referenceOf value = some reference) :
    Json.string reference ∈ value.references := by
  cases value with
  | object fields =>
    simp only [referenceOf] at isReference
    split at isReference
    · rename_i first rest given
      cases isReference
      refine Json.mem_references_object.mpr (.inl ⟨given, ?_⟩)
      intro same
      cases same
    · cases isReference
  | null | bool | number | string | array => cases isReference

/-- A reference that is written in the documents leads to one of them. -/
theorem target_stays {reference : Text} {document : JsonObject} {sourceVersionId : Uuid} {target : ReferenceTarget}
    (isDocument : document ∈ resolver.documents start) (isSource : sourceVersionId ∈ resolver.sources start)
    (isWritten : Json.string reference ∈ resolver.written start)
    (isTarget : resolver.referenceTarget unicode reference document sourceVersionId = .ok target) :
    target.document ∈ resolver.documents start ∧ target.sourceVersionId ∈ resolver.sources start ∧
      (target.sourceVersionId, target.pointer) ∈ resolver.identities unicode start := by
  obtain ⟨isPointer, origin⟩ := referenceTarget_spec isTarget
  have both : target.document ∈ resolver.documents start ∧ target.sourceVersionId ∈ resolver.sources start := by
    rcases origin with ⟨sameDocument, sameSource⟩ | ⟨entry, member, sameDocument, sameSource⟩
    · rw [sameDocument, sameSource]
      exact ⟨isDocument, isSource⟩
    · rw [sameDocument, sameSource]
      exact ⟨List.mem_cons_of_mem _ (List.mem_map.mpr ⟨entry, member, rfl⟩),
        List.mem_cons_of_mem _ (List.mem_map.mpr ⟨entry, member, rfl⟩)⟩
  refine ⟨both.1, both.2, List.pair_mem_product.mpr ⟨both.2, ?_⟩⟩
  exact List.mem_map.mpr ⟨.string reference, isWritten, isPointer.symm⟩

/-- What is found in a document is written in the documents. -/
theorem found_written {document : JsonObject} {path : Text} {value : Json} (isDocument : document ∈ resolver.documents start)
    (found : pointer document path = .ok value) : value.references ⊆ resolver.written start := fun _ member =>
  List.mem_append_right _ (List.mem_flatMap.mpr ⟨document, isDocument, pointer_references found member⟩)

/-- The chain stays in the documents, and all it reads is written there. -/
structure Stays (resolver : OpenApiReferenceResolver) (unicode : Unicode) (start : Place) (visited : List (Uuid × Text))
    (place : Place) : Prop where
  document : place.document ∈ resolver.documents start
  source : place.sourceVersionId ∈ resolver.sources start
  references : place.value.references ⊆ resolver.written start
  visited : visited ⊆ resolver.identities unicode start

theorem stays (trail : Trail (resolver.scope unicode).follow start visited place) :
    Stays resolver unicode start visited place := by
  induction trail with
  | start =>
    exact ⟨List.mem_cons_self, List.mem_cons_self, List.subset_append_left _ _, List.nil_subset _⟩
  | more _ leads _ ih =>
    obtain ⟨reference, target, value, isReference, isTarget, found, rfl, rfl⟩ := follow_eq_some.mp leads
    obtain ⟨isDocument, isSource, isIdentity⟩ := target_stays ih.document ih.source
      (ih.references (referenceOf_mem isReference)) isTarget
    exact ⟨isDocument, isSource, found_written isDocument found,
      List.cons_subset.mpr ⟨isIdentity, ih.visited⟩⟩

end OpenApiReferenceResolver

namespace ReferenceScope

variable {scope : ReferenceScope} {start : Place} {outcome : Except SourceError Resolved}

theorem documentOr_idem (scope : ReferenceScope) (document : JsonObject) :
    scope.documentOr (scope.documentOr document) = scope.documentOr document := by
  unfold documentOr
  split <;> simp_all

theorem resolve_documentOr (scope : ReferenceScope) (fuel : Nat) (visited : List (Uuid × Text)) (value : Json)
    (document : JsonObject) (sourceVersionId : Uuid) (path : Text) :
    scope.resolve fuel visited value document sourceVersionId path =
      scope.run fuel visited ⟨value, scope.documentOr document, sourceVersionId, path⟩ := by
  cases document with
  | cons first rest => rfl
  | nil =>
    show _ = scope.resolve fuel visited value scope.rootDocument sourceVersionId path
    rw [resolve.eq_def, resolve.eq_def scope fuel visited value scope.rootDocument]
    simp only [List.isEmpty_nil, if_true, ite_self]

end ReferenceScope

end Mcplica.Parsers
