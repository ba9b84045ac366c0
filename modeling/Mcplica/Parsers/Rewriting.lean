import Mcplica.Contracts.Json
import Mcplica.Domain.Sources
import Mcplica.Library.Checks

/-! # Rewriting of schemas

The walk that both parsers make through a schema: every `$ref` where a schema stands is followed and replaced by a
reference to a definition of the root. The two differ in where schemas stand and in how a reference is followed. -/

namespace Mcplica.Parsers

open Mcplica.Library
open Mcplica.Contracts
open Mcplica.Domain

/-- What stands under a keyword. -/
inductive Position where
  | schema
  | schemas
  | schemaMap
  | data
  deriving Repr, DecidableEq

/-- Which parts of a schema a walk enters. -/
structure Descent where
  intoLists : Bool
  position : Text → Position

def definitionReference (key : Text) : Json :=
  .string (("#/$defs/" : Text) ++ key)

section Visit

variable {σ : Type} (descent : Descent) (invalid : SourceError)
  (follow : Text → σ → Except SourceError (Text × σ))

/-- The `$ref` of a node: followed unless it is absent. -/
def visitReference (state : σ) : Option Json → Except SourceError (JsonObject × σ)
  | none | some .null => .ok ([], state)
  | some (.string (first :: rest)) => do
    let (key, state) ← follow (first :: rest) state
    return ([("$ref", definitionReference key)], state)
  | some _ => .error invalid

mutual

def visit : Json → σ → Except SourceError (Json × σ)
  | .array items, state =>
    if descent.intoLists then do
      let (items, state) ← visitItems items state
      return (.array items, state)
    else
      .ok (.array items, state)
  | .object fields, state => do
    let (reference, state) ← visitReference invalid follow state (Json.get fields "$ref")
    let (others, state) ← visitFields fields state
    return (.object (reference ++ others), state)
  | node, state => .ok (node, state)

def visitItems : List Json → σ → Except SourceError (List Json × σ)
  | [], state => .ok ([], state)
  | item :: rest, state => do
    let (item, state) ← visit item state
    let (rest, state) ← visitItems rest state
    return (item :: rest, state)

/-- The other keywords of a node. -/
def visitFields : JsonObject → σ → Except SourceError (JsonObject × σ)
  | [], state => .ok ([], state)
  | (key, item) :: rest, state =>
    if key = "$ref" then visitFields rest state
    else do
      let (item, state) ←
        match descent.position key with
        | .schema => visit item state
        | .schemas => visitList item state
        | .schemaMap => visitMap item state
        | .data => .ok (item, state)
      let (rest, state) ← visitFields rest state
      return ((key, item) :: rest, state)

def visitList : Json → σ → Except SourceError (Json × σ)
  | .array items, state => do
    let (items, state) ← visitItems items state
    return (.array items, state)
  | item, state => .ok (item, state)

def visitMap : Json → σ → Except SourceError (Json × σ)
  | .object entries, state => do
    let (entries, state) ← visitEntries entries state
    return (.object entries, state)
  | item, state => .ok (item, state)

def visitEntries : JsonObject → σ → Except SourceError (JsonObject × σ)
  | [], state => .ok ([], state)
  | (name, item) :: rest, state => do
    let (item, state) ← visit item state
    let (rest, state) ← visitEntries rest state
    return ((name, item) :: rest, state)

end

end Visit

/-! ## The references of a schema -/

section References

variable (descent : Descent)

def ownReference : Option Json → Option (List Text)
  | none | some .null => some []
  | some (.string (first :: rest)) => some [first :: rest]
  | some _ => none

mutual

/-- The references in the order in which they are followed; `none` when one is not a text. -/
def schemaReferences : Json → Option (List Text)
  | .array items => if descent.intoLists then referencesInItems items else some []
  | .object fields => do
    let own ← ownReference (Json.get fields "$ref")
    let others ← referencesInFields fields
    return own ++ others
  | _ => some []

def referencesInItems : List Json → Option (List Text)
  | [] => some []
  | item :: rest => do
    let first ← schemaReferences item
    let others ← referencesInItems rest
    return first ++ others

def referencesInFields : JsonObject → Option (List Text)
  | [] => some []
  | (key, item) :: rest =>
    if key = "$ref" then referencesInFields rest
    else do
      let first ←
        match descent.position key with
        | .schema => schemaReferences item
        | .schemas => referencesInList item
        | .schemaMap => referencesInMap item
        | .data => some []
      let others ← referencesInFields rest
      return first ++ others

def referencesInList : Json → Option (List Text)
  | .array items => referencesInItems items
  | _ => some []

def referencesInMap : Json → Option (List Text)
  | .object entries => referencesInEntries entries
  | _ => some []

def referencesInEntries : JsonObject → Option (List Text)
  | [] => some []
  | (_, item) :: rest => do
    let first ← schemaReferences item
    let others ← referencesInEntries rest
    return first ++ others

end

/-! ## The rewritten schema -/

variable (keyOf : Text → Text)

def rewrittenReference : Option Json → JsonObject
  | some (.string reference) => [("$ref", definitionReference (keyOf reference))]
  | _ => []

mutual

/-- Every reference replaced by the reference to its definition. -/
def rewrite : Json → Json
  | .array items => if descent.intoLists then .array (rewriteItems items) else .array items
  | .object fields => .object (rewrittenReference keyOf (Json.get fields "$ref") ++ rewriteFields fields)
  | node => node

def rewriteItems : List Json → List Json
  | [] => []
  | item :: rest => rewrite item :: rewriteItems rest

def rewriteFields : JsonObject → JsonObject
  | [] => []
  | (key, item) :: rest =>
    if key = "$ref" then rewriteFields rest
    else
      (key,
        match descent.position key with
        | .schema => rewrite item
        | .schemas => rewriteList item
        | .schemaMap => rewriteMap item
        | .data => item) :: rewriteFields rest

def rewriteList : Json → Json
  | .array items => .array (rewriteItems items)
  | item => item

def rewriteMap : Json → Json
  | .object entries => .object (rewriteEntries entries)
  | item => item

def rewriteEntries : JsonObject → JsonObject
  | [] => []
  | (name, item) :: rest => (name, rewrite item) :: rewriteEntries rest

end

end References

/-! ## What the walk does -/

section Walk

variable {σ : Type} {descent : Descent} {invalid : SourceError} {follow : Text → σ → Except SourceError (Text × σ)}
  {keyOf : Text → Text}

/-- The references are followed one after the other. -/
def Followed (follow : Text → σ → Except SourceError (Text × σ)) (state : σ) (references : List Text) (final : σ) : Prop :=
  references.foldlM (fun state reference => (follow reference state).map Prod.snd) state = .ok final

theorem followed_append {first second : List Text} {state final : σ} :
    Followed follow state (first ++ second) final ↔
      ∃ between, Followed follow state first between ∧ Followed follow between second final := by
  unfold Followed
  rw [List.foldlM_append, bind_eq_ok]

/-- A part of the walk follows some references and makes a value that does not depend on the state. -/
def Realises {β : Type} (follow : Text → σ → Except SourceError (Text × σ)) (run : σ → Except SourceError (β × σ))
    (references : Option (List Text)) (value : β) : Prop :=
  ∀ state out final, run state = .ok (out, final) ↔
    ∃ followed, references = some followed ∧ out = value ∧ Followed follow state followed final

theorem Realises.pure {β : Type} (value : β) : Realises follow (fun state => .ok (value, state)) (some []) value := by
  intro state out final
  simp [Followed, Pure.pure, Except.pure, eq_comm]

theorem Realises.pair {β γ δ : Type} {first : σ → Except SourceError (β × σ)} {second : σ → Except SourceError (γ × σ)}
    {firstReferences secondReferences : Option (List Text)} {left : β} {right : γ} (combine : β → γ → δ)
    (isFirst : Realises follow first firstReferences left) (isSecond : Realises follow second secondReferences right) :
    Realises follow
      (fun state => do
        let (left, state) ← first state
        let (right, state) ← second state
        return (combine left right, state))
      (do
        let first ← firstReferences
        let second ← secondReferences
        return first ++ second)
      (combine left right) := by
  intro state out final
  simp only [bind_eq_ok]
  constructor
  · rintro ⟨⟨leftOut, between⟩, ran, ⟨rightOut, last⟩, ranNext, same⟩
    cases same
    obtain ⟨firstFollowed, rfl, rfl, followed⟩ := (isFirst _ _ _).mp ran
    obtain ⟨secondFollowed, rfl, rfl, followedNext⟩ := (isSecond _ _ _).mp ranNext
    exact ⟨firstFollowed ++ secondFollowed, rfl, rfl, followed_append.mpr ⟨between, followed, followedNext⟩⟩
  · rintro ⟨followed, collected, rfl, isFollowed⟩
    cases firstReferences with
    | none => cases collected
    | some firstFollowed =>
      cases secondReferences with
      | none => cases collected
      | some secondFollowed =>
        cases collected
        obtain ⟨between, followed, followedNext⟩ := followed_append.mp isFollowed
        exact ⟨(left, between), (isFirst _ _ _).mpr ⟨_, rfl, rfl, followed⟩, (right, final),
          (isSecond _ _ _).mpr ⟨_, rfl, rfl, followedNext⟩, rfl⟩

theorem Realises.map {β γ : Type} {run : σ → Except SourceError (β × σ)} {references : Option (List Text)} {value : β}
    (make : β → γ) (realises : Realises follow run references value) :
    Realises follow
      (fun state => do
        let (value, state) ← run state
        return (make value, state))
      references (make value) := by
  intro state out final
  simp only [bind_eq_ok]
  constructor
  · rintro ⟨⟨made, last⟩, ran, same⟩
    cases same
    obtain ⟨followed, rfl, rfl, isFollowed⟩ := (realises _ _ _).mp ran
    exact ⟨followed, rfl, rfl, isFollowed⟩
  · rintro ⟨followed, rfl, rfl, isFollowed⟩
    exact ⟨(value, final), (realises _ _ _).mpr ⟨followed, rfl, rfl, isFollowed⟩, rfl⟩

/-- The key that following a reference returns does not depend on the state. -/
def Keyed (follow : Text → σ → Except SourceError (Text × σ)) (keyOf : Text → Text) : Prop :=
  ∀ reference state key next, follow reference state = .ok (key, next) → key = keyOf reference

theorem visitReference_realises (keyed : Keyed follow keyOf) (reference : Option Json) :
    Realises follow (fun state => visitReference invalid follow state reference) (ownReference reference)
      (rewrittenReference keyOf reference) := by
  intro state out final
  unfold visitReference ownReference
  split
  · exact Realises.pure [] state out final
  · exact Realises.pure [] state out final
  · rename_i first rest
    simp only [bind_eq_ok]
    constructor
    · rintro ⟨⟨key, next⟩, followed, same⟩
      cases same
      obtain rfl := keyed _ _ _ _ followed
      exact ⟨_, rfl, rfl, by simp [Followed, followed, Except.map, bind, Except.bind, Pure.pure, Except.pure]⟩
    · rintro ⟨_, same, rfl, isFollowed⟩
      cases same
      cases followed : follow (first :: rest) state with
      | error error => simp [Followed, followed, Except.map, bind, Except.bind] at isFollowed
      | ok result =>
        obtain ⟨key, next⟩ := result
        obtain rfl := keyed _ _ _ _ followed
        simp only [Followed, followed, Except.map, List.foldlM_cons, List.foldlM_nil] at isFollowed
        cases isFollowed
        exact ⟨_, rfl, rfl⟩
  · constructor
    · intro same
      cases same
    · rintro ⟨_, same, -⟩
      cases same

mutual

/-- The walk returns the rewritten node and follows the references of the node in order. -/
theorem visit_realises (keyed : Keyed follow keyOf) : ∀ node, Realises follow (visit descent invalid follow node) (schemaReferences descent node)
    (rewrite descent keyOf node)
  | .array items => by
    simp only [visit, schemaReferences, rewrite]
    by_cases into : descent.intoLists = true
    · simp only [into, if_true]
      exact (visitItems_realises keyed items).map Json.array
    · simp only [into]
      exact Realises.pure _
  | .object fields => by
    simp only [visit, schemaReferences, rewrite]
    exact (visitReference_realises keyed _).pair (fun reference others => Json.object (reference ++ others))
      (visitFields_realises keyed fields)
  | .null => Realises.pure _
  | .bool _ => Realises.pure _
  | .number _ _ => Realises.pure _
  | .string _ => Realises.pure _

theorem visitItems_realises (keyed : Keyed follow keyOf) : ∀ items, Realises follow (visitItems descent invalid follow items)
    (referencesInItems descent items) (rewriteItems descent keyOf items)
  | [] => Realises.pure _
  | item :: rest => (visit_realises keyed item).pair List.cons (visitItems_realises keyed rest)

theorem visitFields_realises (keyed : Keyed follow keyOf) : ∀ fields, Realises follow (visitFields descent invalid follow fields)
    (referencesInFields descent fields) (rewriteFields descent keyOf fields)
  | [] => Realises.pure _
  | (key, item) :: rest => by
    simp only [visitFields, referencesInFields, rewriteFields]
    by_cases isReference : key = "$ref"
    · simp only [isReference, if_true]
      exact visitFields_realises keyed rest
    · simp only [isReference, if_false]
      cases descent.position key with
      | schema =>
        exact (visit_realises keyed item).pair (fun item rest => (key, item) :: rest) (visitFields_realises keyed rest)
      | schemas =>
        exact (visitList_realises keyed item).pair (fun item rest => (key, item) :: rest) (visitFields_realises keyed rest)
      | schemaMap =>
        exact (visitMap_realises keyed item).pair (fun item rest => (key, item) :: rest) (visitFields_realises keyed rest)
      | data =>
        exact (Realises.pure item).pair (fun item rest => (key, item) :: rest) (visitFields_realises keyed rest)

theorem visitList_realises (keyed : Keyed follow keyOf) : ∀ item, Realises follow (visitList descent invalid follow item)
    (referencesInList descent item) (rewriteList descent keyOf item)
  | .array items => (visitItems_realises keyed items).map Json.array
  | .object _ => Realises.pure _
  | .null => Realises.pure _
  | .bool _ => Realises.pure _
  | .number _ _ => Realises.pure _
  | .string _ => Realises.pure _

theorem visitMap_realises (keyed : Keyed follow keyOf) : ∀ item, Realises follow (visitMap descent invalid follow item)
    (referencesInMap descent item) (rewriteMap descent keyOf item)
  | .object entries => (visitEntries_realises keyed entries).map Json.object
  | .array _ => Realises.pure _
  | .null => Realises.pure _
  | .bool _ => Realises.pure _
  | .number _ _ => Realises.pure _
  | .string _ => Realises.pure _

theorem visitEntries_realises (keyed : Keyed follow keyOf) : ∀ entries, Realises follow (visitEntries descent invalid follow entries)
    (referencesInEntries descent entries) (rewriteEntries descent keyOf entries)
  | [] => Realises.pure _
  | (name, item) :: rest =>
    (visit_realises keyed item).pair (fun item rest => (name, item) :: rest) (visitEntries_realises keyed rest)

end

end Walk

/-! ## Empty schemas -/

theorem referencesInFields_of_empty {descent : Descent} {keyOf : Text → Text} {fields : JsonObject}
    (empty : rewriteFields descent keyOf fields = []) : referencesInFields descent fields = some [] := by
  induction fields with
  | nil => rfl
  | cons field rest ih =>
    obtain ⟨key, item⟩ := field
    rw [rewriteFields] at empty
    rw [referencesInFields]
    split at empty
    · rename_i isReference
      rw [if_pos isReference]
      exact ih empty
    · cases empty

/-- What is rewritten to the empty schema has no references. -/
theorem schemaReferences_of_empty {descent : Descent} {keyOf : Text → Text} {schema : JsonObject} {references : List Text}
    (empty : rewrite descent keyOf (.object schema) = .object [])
    (collected : schemaReferences descent (.object schema) = some references) : references = [] := by
  rw [rewrite, Json.object.injEq, List.append_eq_nil_iff] at empty
  obtain ⟨noReference, noFields⟩ := empty
  rw [schemaReferences, referencesInFields_of_empty noFields] at collected
  cases isReference : Json.get schema "$ref" with
  | none =>
    rw [isReference] at collected
    cases collected
    rfl
  | some reference =>
    rw [isReference] at noReference collected
    cases reference with
    | string text => cases noReference
    | null =>
      cases collected
      rfl
    | bool _ => cases collected
    | number _ _ => cases collected
    | array _ => cases collected
    | object _ => cases collected

end Mcplica.Parsers
