import Mcplica.Library.Expansion
import Mcplica.Parsers.Rewriting

/-! # Materialization of schemas

The scheme of both parsers: the first reference to a place enters an empty definition under its key, walks through
the schema at the place and puts the result in. The walks share one table of definitions. -/

namespace Mcplica.Parsers

open Mcplica.Library
open Mcplica.Contracts
open Mcplica.Domain

/-- What the parsers do differently. A reference is located in the context of the document it stands in; the schema at
a place is walked through in the context of its own. -/
structure Materializer (Context Place Identity : Type) where
  descent : Descent
  invalid : SourceError
  locate : Context → Text → Except SourceError Place
  schemaAt : Place → Except SourceError JsonObject
  unreadable : Text → SourceError → SourceError
  context : Place → Context
  key : Place → Text
  identity : Place → Identity
  attributing : Context → SourceError → SourceError

namespace Materializer

variable {Context Place Identity : Type} (parser : Materializer Context Place Identity)

section Walk

variable [DecidableEq Identity]

/-- The first reference to a place enters a placeholder and, unless the place is being built, what stands there. -/
def follow (fuel : Nat) (building : List Identity) (context : Context) (reference : Text) (definitions : JsonObject) :
    Except SourceError (Text × JsonObject) := do
  let place ← parser.locate context reference
  let key := parser.key place
  if (Json.get definitions key).isSome then
    return (key, definitions)
  else
    let opened := Json.set definitions key (.object [])
    if building.contains (parser.identity place) then
      return (key, opened)
    else
      match fuel with
      | 0 => .error .unfinished
      | fuel + 1 =>
        let schema ← (parser.schemaAt place).mapError (parser.unreadable reference)
        let inside := parser.context place
        let (visited, definitions) ←
          (visit parser.descent parser.invalid (follow fuel (parser.identity place :: building) inside) (.object schema)
            opened).mapError (parser.attributing inside)
        return (key, Json.set definitions key visited)

/-- The walk through a schema, with the definitions it adds. -/
def walk (fuel : Nat) (building : List Identity) (context : Context) (node : Json) (definitions : JsonObject) :
    Except SourceError (Json × JsonObject) :=
  (visit parser.descent parser.invalid (parser.follow fuel building context) node definitions).mapError
    (parser.attributing context)

end Walk

/-! ## The graph of references -/

/-- The key of the place that a reference denotes. -/
def keyOf (context : Context) (reference : Text) : Text :=
  match parser.locate context reference with
  | .ok place => parser.key place
  | .error _ => []

/-- A node with every reference replaced by the one to its definition. -/
def rewriting (context : Context) (node : Json) : Json :=
  rewrite parser.descent (parser.keyOf context) node

/-- The places that a node refers to; `none` when one of them does not resolve. -/
def placesOf (context : Context) (node : Json) : Option (List Place) := do
  let references ← schemaReferences parser.descent node
  references.mapM fun reference => (parser.locate context reference).toOption

/-- The schema at a place with its references rewritten. -/
def definition (place : Place) : Json :=
  match parser.schemaAt place with
  | .ok schema => parser.rewriting (parser.context place) (.object schema)
  | .error _ => .null

def graph : ReferenceGraph Place Text Identity Json where
  key := parser.key
  mark := parser.identity
  references place := do
    let schema ← (parser.schemaAt place).toOption
    parser.placesOf (parser.context place) (.object schema)
  value := parser.definition
  placeholder := .object []

/-! ## What the walk does -/

variable {parser}
variable {fuel : Nat} {building : List Identity} {context : Context} {definitions after : JsonObject}

theorem set_eq_assign {key : Text} {value : Json} (isKey : key ∈ definitions.map Prod.fst) :
    Json.set definitions key value = ReferenceGraph.assign definitions key value := by
  unfold Json.set ReferenceGraph.assign
  rw [if_pos (Json.get_isSome.mpr isKey)]

theorem references_graph {place : Place} {schema : JsonObject} (isSchema : parser.schemaAt place = .ok schema) :
    parser.graph.references place = parser.placesOf (parser.context place) (.object schema) := by
  simp [graph, isSchema, Except.toOption]

theorem exists_schema {place : Place} {references : List Place}
    (read : parser.graph.references place = some references) : ∃ schema, parser.schemaAt place = .ok schema := by
  cases isSchema : parser.schemaAt place with
  | ok schema => exact ⟨schema, rfl⟩
  | error error => simp [graph, isSchema, Except.toOption] at read

theorem definition_eq {place : Place} {schema : JsonObject} (isSchema : parser.schemaAt place = .ok schema) :
    parser.graph.value place = parser.rewriting (parser.context place) (.object schema) := by
  simp [graph, definition, isSchema]

theorem explores_singleton {place : Place} : ReferenceGraph.Explores parser.graph fuel building definitions [place] after ↔
    (parser.key place ∈ definitions.map Prod.fst ∧ after = definitions) ∨
    (parser.key place ∉ definitions.map Prod.fst ∧
      ((parser.identity place ∈ building ∧ after = definitions ++ [(parser.key place, .object [])]) ∨
      (parser.identity place ∉ building ∧ ∃ smaller, fuel = smaller + 1 ∧ ∃ references inner,
        parser.graph.references place = some references ∧
        ReferenceGraph.Explores parser.graph smaller (parser.identity place :: building)
          (definitions ++ [(parser.key place, .object [])]) references inner ∧
        after = ReferenceGraph.assign inner (parser.key place) (parser.graph.value place)))) := by
  constructor
  · intro run
    cases run with
    | seen isKnown others =>
      cases others
      exact .inl ⟨isKnown, rfl⟩
    | inside isNew onTrail others =>
      cases others
      exact .inr ⟨isNew, .inl ⟨onTrail, rfl⟩⟩
    | fresh isNew offTrail read expanded others =>
      cases others
      exact .inr ⟨isNew, .inr ⟨offTrail, _, rfl, _, _, read, expanded, rfl⟩⟩
  · rintro (⟨isKnown, rfl⟩ | ⟨isNew, ⟨onTrail, rfl⟩ | ⟨offTrail, smaller, rfl, references, inner, read, expanded, rfl⟩⟩)
    · exact .seen isKnown .done
    · exact .inside isNew onTrail .done
    · exact .fresh isNew offTrail read expanded .done

theorem blankEnds (parser : Materializer Context Place Identity) : ReferenceGraph.BlankEnds parser.graph := by
  intro place places isBlank read
  obtain ⟨schema, isSchema⟩ := exists_schema read
  rw [definition_eq isSchema] at isBlank
  rw [references_graph isSchema] at read
  obtain ⟨references, collected, located⟩ := Option.bind_eq_some_iff.mp read
  obtain rfl := schemaReferences_of_empty isBlank collected
  cases located
  rfl

variable [DecidableEq Identity]

/-- The walks of one depth expand the places of a node. -/
def WalksExpand (parser : Materializer Context Place Identity) (fuel : Nat) : Prop :=
  ∀ building context node definitions out after, parser.walk fuel building context node definitions = .ok (out, after) ↔
    ∃ places, parser.placesOf context node = some places ∧ out = parser.rewriting context node ∧
      ReferenceGraph.Explores parser.graph fuel building definitions places after

/-- Following a reference expands the place it denotes. -/
theorem follow_iff (deeper : ∀ smaller, fuel = smaller + 1 → WalksExpand parser smaller) {reference key : Text} :
    parser.follow fuel building context reference definitions = .ok (key, after) ↔
      ∃ place, parser.locate context reference = .ok place ∧ key = parser.key place ∧
        ReferenceGraph.Explores parser.graph fuel building definitions [place] after := by
  unfold follow
  simp only [bind_eq_ok]
  refine exists_congr fun place => and_congr_right fun located => ?_
  rw [explores_singleton]
  by_cases isKnown : parser.key place ∈ definitions.map Prod.fst
  · rw [if_pos (Json.get_isSome.mpr isKnown)]
    simp [isKnown, pure, Except.pure, eq_comm]
  rw [if_neg (fun found => isKnown (Json.get_isSome.mp found)), Json.set_of_not_mem isKnown]
  by_cases onTrail : parser.identity place ∈ building
  · rw [if_pos (List.contains_iff_mem.mpr onTrail)]
    simp [isKnown, onTrail, pure, Except.pure, eq_comm]
  rw [if_neg (fun found => onTrail (List.contains_iff_mem.mp found))]
  cases fuel with
  | zero => simp [isKnown, onTrail]
  | succ smaller =>
    have expands := deeper smaller rfl
    have isOpened (inner : JsonObject) (kept : (definitions ++ [(parser.key place, Json.object [])]).map Prod.fst ⊆
        inner.map Prod.fst) : parser.key place ∈ inner.map Prod.fst := kept (by simp)
    simp only [isKnown, onTrail, false_and, false_or, not_false_eq_true, true_and, bind_eq_ok, mapError_eq_ok]
    constructor
    · rintro ⟨schema, isSchema, ⟨visited, inner⟩, walked, same⟩
      cases same
      obtain ⟨places, arePlaces, rfl, run⟩ := (expands _ _ _ _ _ _).mp (mapError_eq_ok.mpr walked)
      refine ⟨rfl, smaller, rfl, places, inner, (references_graph isSchema).trans arePlaces, run, ?_⟩
      rw [set_eq_assign (isOpened inner run.keeps_keys), definition_eq isSchema]
    · rintro ⟨rfl, other, sameFuel, references, inner, read, run, rfl⟩
      cases sameFuel
      obtain ⟨schema, isSchema⟩ := exists_schema read
      rw [references_graph isSchema] at read
      have walked := mapError_eq_ok.mp ((expands _ _ _ _ _ _).mpr ⟨references, read, rfl, run⟩)
      refine ⟨schema, isSchema, (_, inner), walked, ?_⟩
      rw [set_eq_assign (isOpened inner run.keeps_keys), definition_eq isSchema]
      rfl

theorem followed_iff (deeper : ∀ smaller, fuel = smaller + 1 → WalksExpand parser smaller) {references : List Text} :
    Followed (parser.follow fuel building context) definitions references after ↔ ∃ places,
      references.mapM (fun reference => (parser.locate context reference).toOption) = some places ∧
        ReferenceGraph.Explores parser.graph fuel building definitions places after := by
  induction references generalizing definitions with
  | nil =>
    constructor
    · intro followed
      cases followed
      exact ⟨[], rfl, .done⟩
    · rintro ⟨places, collected, run⟩
      cases collected
      cases run
      rfl
  | cons reference rest ih =>
    have split : Followed (parser.follow fuel building context) definitions (reference :: rest) after ↔
        ∃ key between, parser.follow fuel building context reference definitions = .ok (key, between) ∧
          Followed (parser.follow fuel building context) between rest after := by
      unfold Followed
      rw [List.foldlM_cons, bind_eq_ok]
      cases parser.follow fuel building context reference definitions with
      | error error => simp [Except.map]
      | ok result => simp [Except.map, Prod.ext_iff]
    rw [split, List.mapM_cons]
    constructor
    · rintro ⟨key, between, followed, others⟩
      obtain ⟨place, located, -, first⟩ := (follow_iff deeper).mp followed
      obtain ⟨places, collected, second⟩ := ih.mp others
      refine ⟨place :: places, ?_, ReferenceGraph.explores_append.mpr ⟨between, first, second⟩⟩
      rw [located, collected]
      rfl
    · rintro ⟨places, collected, run⟩
      cases located : parser.locate context reference with
      | error error =>
        rw [located] at collected
        cases collected
      | ok place =>
        rw [located] at collected
        change Option.bind (rest.mapM _) (fun others => some (place :: others)) = some places at collected
        obtain ⟨others, areOthers, collected⟩ := Option.bind_eq_some_iff.mp collected
        cases collected
        rw [← List.singleton_append, ReferenceGraph.explores_append] at run
        obtain ⟨between, first, second⟩ := run
        exact ⟨_, between, (follow_iff deeper).mpr ⟨place, located, rfl, first⟩,
          ih.mpr ⟨others, areOthers, second⟩⟩

/-- The walk through a node returns its rewriting and expands the places it refers to. -/
theorem walksExpand (parser : Materializer Context Place Identity) (fuel : Nat) : WalksExpand parser fuel := by
  induction fuel using Nat.strong_induction_on with
  | _ fuel ih =>
    have deeper : ∀ smaller, fuel = smaller + 1 → WalksExpand parser smaller := by
      intro smaller same
      exact ih smaller (by omega)
    intro building context node definitions out after
    have keyed : Keyed (parser.follow fuel building context) (parser.keyOf context) := by
      intro reference definitions key after followed
      obtain ⟨place, located, rfl, -⟩ := (follow_iff deeper).mp followed
      simp [keyOf, located]
    have realised : Realises _ (visit parser.descent parser.invalid (parser.follow fuel building context) node) _ _ :=
      visit_realises keyed node
    rw [walk, mapError_eq_ok, realised definitions out after]
    simp only [followed_iff deeper, placesOf]
    constructor
    · rintro ⟨references, isReferences, rfl, places, collected, run⟩
      exact ⟨places, by simp [isReferences, collected], rfl, run⟩
    · rintro ⟨places, collected, rfl, run⟩
      obtain ⟨references, isReferences, collected⟩ := Option.bind_eq_some_iff.mp collected
      exact ⟨references, isReferences, rfl, places, collected, run⟩

/-- A whole walk: the table is faithful to the places reached exactly when the search through them is clear. -/
theorem walk_spec {node out : Json} (walked : parser.walk fuel [] context node [] = .ok (out, after)) :
    ∃ places, parser.placesOf context node = some places ∧ out = parser.rewriting context node ∧
      ReferenceGraph.Explores parser.graph fuel [] [] places after ∧
      (ReferenceGraph.KeysApart parser.graph places → (ReferenceGraph.Faithful parser.graph places after ↔
        ∃ keys, ReferenceGraph.Clear parser.graph [] [] places keys)) := by
  obtain ⟨places, arePlaces, isOut, run⟩ := (walksExpand parser fuel _ _ _ _ _ _).mp walked
  exact ⟨places, arePlaces, isOut, run, fun apart => run.faithful_iff (blankEnds parser) apart⟩

end Materializer

end Mcplica.Parsers
