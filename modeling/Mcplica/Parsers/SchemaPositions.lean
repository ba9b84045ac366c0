import Mcplica.Parsers.Rewriting

/-! # Schemas and data

A walk through everything in a schema, and one that knows where schemas stand. The two do the same exactly on schemas
whose data have no member `$ref`. -/

namespace Mcplica.Parsers

open Mcplica.Library
open Mcplica.Contracts
open Mcplica.Domain

/-! ## The members `$ref` of a value -/

section EveryReference

variable (holds : Json → Prop)

mutual

/-- What every member `$ref` in a value is. -/
def EveryReference : Json → Prop
  | .object fields => EveryReferenceOfFields fields
  | .array items => EveryReferenceOfItems items
  | _ => True

def EveryReferenceOfItems : List Json → Prop
  | [] => True
  | item :: rest => EveryReference item ∧ EveryReferenceOfItems rest

def EveryReferenceOfFields : JsonObject → Prop
  | [] => True
  | (key, item) :: rest => (key = "$ref" → holds item) ∧ EveryReference item ∧ EveryReferenceOfFields rest

end

/-- No object in the value has a member `$ref`. -/
abbrev Unreferring (node : Json) : Prop :=
  EveryReference (fun _ => False) node

variable {holds}

theorem everyReferenceOfFields_iff {fields : JsonObject} : EveryReferenceOfFields holds fields ↔
    ∀ field ∈ fields, (field.1 = "$ref" → holds field.2) ∧ EveryReference holds field.2 := by
  induction fields with
  | nil => simp [EveryReferenceOfFields]
  | cons field rest ih =>
    obtain ⟨key, item⟩ := field
    rw [EveryReferenceOfFields, ih, List.forall_mem_cons, and_assoc]

theorem everyReferenceOfItems_iff {items : List Json} : EveryReferenceOfItems holds items ↔
    ∀ item ∈ items, EveryReference holds item := by
  induction items with
  | nil => simp [EveryReferenceOfItems]
  | cons item rest ih => rw [EveryReferenceOfItems, ih, List.forall_mem_cons]

theorem everyReference_object {fields : JsonObject} : EveryReference holds (.object fields) ↔
    ∀ field ∈ fields, (field.1 = "$ref" → holds field.2) ∧ EveryReference holds field.2 := by
  rw [EveryReference, everyReferenceOfFields_iff]

theorem everyReference_array {items : List Json} : EveryReference holds (.array items) ↔
    ∀ item ∈ items, EveryReference holds item := by
  rw [EveryReference, everyReferenceOfItems_iff]

end EveryReference

mutual

/-- Two things that no value can both be leave no member `$ref`. -/
theorem EveryReference.unreferring {first second : Json → Prop} (apart : ∀ value, first value → ¬ second value) :
    ∀ {node : Json}, EveryReference first node → EveryReference second node → Unreferring node
  | .object _, left, right => unreferring_fields apart left right
  | .array _, left, right => unreferring_items apart left right
  | .null, _, _ => trivial
  | .bool _, _, _ => trivial
  | .number _ _, _, _ => trivial
  | .string _, _, _ => trivial

theorem unreferring_items {first second : Json → Prop} (apart : ∀ value, first value → ¬ second value) :
    ∀ {items : List Json}, EveryReferenceOfItems first items → EveryReferenceOfItems second items →
      EveryReferenceOfItems (fun _ => False) items
  | [], _, _ => trivial
  | _ :: _, left, right => ⟨EveryReference.unreferring apart left.1 right.1, unreferring_items apart left.2 right.2⟩

theorem unreferring_fields {first second : Json → Prop} (apart : ∀ value, first value → ¬ second value) :
    ∀ {fields : JsonObject}, EveryReferenceOfFields first fields → EveryReferenceOfFields second fields →
      EveryReferenceOfFields (fun _ => False) fields
  | [], _, _ => trivial
  | (_, _) :: _, left, right =>
    ⟨fun isReference => apart _ (left.1 isReference) (right.1 isReference),
      EveryReference.unreferring apart left.2.1 right.2.1, unreferring_fields apart left.2.2 right.2.2⟩

end

mutual

theorem EveryReference.references {holds : Json → Prop} : ∀ {node : Json}, EveryReference holds node →
    ∀ reference ∈ node.references, holds reference
  | .object _, every => by
    intro reference member
    rw [EveryReference] at every
    rcases Json.mem_references_object.mp member with ⟨own, -⟩ | inside
    · exact (everyReferenceOfFields_iff.mp every _ (Json.mem_of_get own)).1 rfl
    · exact references_fields every reference (Json.mem_referencesOfFields.mpr inside)
  | .array _, every => by
    intro reference member
    rw [Json.references] at member
    exact references_items every reference member
  | .null, _ => by simp [Json.references]
  | .bool _, _ => by simp [Json.references]
  | .number _ _, _ => by simp [Json.references]
  | .string _, _ => by simp [Json.references]

theorem references_items {holds : Json → Prop} : ∀ {items : List Json}, EveryReferenceOfItems holds items →
    ∀ reference ∈ Json.referencesOfItems items, holds reference
  | [], _ => by simp [Json.referencesOfItems]
  | _ :: _, every => by
    intro reference member
    rw [Json.referencesOfItems] at member
    rcases List.mem_append.mp member with later | here
    · exact references_items every.2 reference later
    · exact EveryReference.references every.1 reference here

theorem references_fields {holds : Json → Prop} : ∀ {fields : JsonObject}, EveryReferenceOfFields holds fields →
    ∀ reference ∈ Json.referencesOfFields fields, holds reference
  | [], _ => by simp [Json.referencesOfFields]
  | (_, _) :: _, every => by
    intro reference member
    rw [Json.referencesOfFields] at member
    rcases List.mem_append.mp member with later | here
    · exact references_fields every.2.2 reference later
    · exact EveryReference.references every.2.1 reference here

end

/-! ## The references that are followed -/

section Followed

variable {descent : Descent}

theorem collected_append {first second : Option (List Text)} {references : List Text}
    (collected : (do
      let left ← first
      let right ← second
      return left ++ right) = some references) :
    ∃ left right, first = some left ∧ second = some right ∧ references = left ++ right := by
  cases first with
  | none => cases collected
  | some left =>
    cases second with
    | none => cases collected
    | some right =>
      cases collected
      exact ⟨left, right, rfl, rfl, rfl⟩

theorem referencesInFields_cons {key : Text} {item : Json} {rest : JsonObject} {references : List Text}
    (notReference : key ≠ "$ref") (collected : referencesInFields descent ((key, item) :: rest) = some references) :
    ∃ here others,
      (match descent.position key with
        | .schema => schemaReferences descent item
        | .schemas => referencesInList descent item
        | .schemaMap => referencesInMap descent item
        | .data => some []) = some here ∧
      referencesInFields descent rest = some others ∧ references = here ++ others := by
  rw [referencesInFields, if_neg notReference] at collected
  dsimp only at collected
  cases isPosition : descent.position key with
  | schema | schemas | schemaMap | data =>
    rw [isPosition] at collected
    exact collected_append collected

theorem ownReference_eq_some {own : Option Json} {references : List Text} (collected : ownReference own = some references) :
    ∀ reference ∈ references, own = some (.string reference) := by
  unfold ownReference at collected
  intro reference member
  split at collected
  · cases collected
    cases member
  · cases collected
    cases member
  · cases collected
    rw [List.mem_singleton.mp member]
  · cases collected

mutual

/-- A reference that is followed is a member `$ref` of the node. -/
theorem string_mem_references : ∀ {node : Json} {references : List Text}, schemaReferences descent node = some references →
    ∀ reference ∈ references, Json.string reference ∈ node.references
  | .object fields, _, collected => by
    rw [schemaReferences] at collected
    obtain ⟨own, others, isOwn, areOthers, rfl⟩ := collected_append collected
    intro reference member
    refine Json.mem_references_object.mpr ?_
    rcases List.mem_append.mp member with isFirst | later
    · exact .inl ⟨ownReference_eq_some isOwn reference isFirst, nofun⟩
    · exact .inr (Json.mem_referencesOfFields.mp (string_mem_referencesOfFields areOthers reference later))
  | .array items, _, collected => by
    rw [schemaReferences] at collected
    rw [Json.references]
    split at collected
    · exact string_mem_referencesOfItems collected
    · cases collected
      simp
  | .null, _, collected => by cases collected; simp
  | .bool _, _, collected => by cases collected; simp
  | .number _ _, _, collected => by cases collected; simp
  | .string _, _, collected => by cases collected; simp

theorem string_mem_referencesOfItems : ∀ {items : List Json} {references : List Text},
    referencesInItems descent items = some references → ∀ reference ∈ references, Json.string reference ∈ Json.referencesOfItems items
  | [], _, collected => by cases collected; simp
  | item :: rest, _, collected => by
    rw [referencesInItems] at collected
    obtain ⟨here, others, isHere, areOthers, rfl⟩ := collected_append collected
    intro reference member
    rw [Json.referencesOfItems, List.mem_append]
    rcases List.mem_append.mp member with isFirst | later
    · exact .inr (string_mem_references isHere reference isFirst)
    · exact .inl (string_mem_referencesOfItems areOthers reference later)

theorem string_mem_referencesOfFields : ∀ {fields : JsonObject} {references : List Text},
    referencesInFields descent fields = some references → ∀ reference ∈ references, Json.string reference ∈ Json.referencesOfFields fields
  | [], _, collected => by cases collected; simp
  | (key, item) :: rest, _, collected => by
    by_cases isReference : key = "$ref"
    · rw [referencesInFields, if_pos isReference] at collected
      intro reference member
      rw [Json.referencesOfFields, List.mem_append]
      exact .inl (string_mem_referencesOfFields collected reference member)
    · obtain ⟨here, others, isHere, areOthers, rfl⟩ := referencesInFields_cons isReference collected
      intro reference member
      rw [Json.referencesOfFields, List.mem_append]
      rcases List.mem_append.mp member with isFirst | later
      · refine .inr ?_
        split at isHere
        · exact string_mem_references isHere reference isFirst
        · exact string_mem_referencesOfList isHere reference isFirst
        · exact string_mem_referencesOfMap isHere reference isFirst
        · cases isHere
          cases isFirst
      · exact .inl (string_mem_referencesOfFields areOthers reference later)

theorem string_mem_referencesOfList : ∀ {item : Json} {references : List Text},
    referencesInList descent item = some references → ∀ reference ∈ references, Json.string reference ∈ item.references
  | .array items, _, collected => by
    rw [Json.references]
    exact string_mem_referencesOfItems collected
  | .object _, _, collected => by cases collected; simp
  | .null, _, collected => by cases collected; simp
  | .bool _, _, collected => by cases collected; simp
  | .number _ _, _, collected => by cases collected; simp
  | .string _, _, collected => by cases collected; simp

theorem string_mem_referencesOfMap : ∀ {item : Json} {references : List Text},
    referencesInMap descent item = some references → ∀ reference ∈ references, Json.string reference ∈ item.references
  | .object entries, _, collected => fun reference member => Json.mem_references_object.mpr
      (.inr (Json.mem_referencesOfFields.mp (string_mem_referencesOfEntries collected reference member)))
  | .array _, _, collected => by cases collected; simp
  | .null, _, collected => by cases collected; simp
  | .bool _, _, collected => by cases collected; simp
  | .number _ _, _, collected => by cases collected; simp
  | .string _, _, collected => by cases collected; simp

theorem string_mem_referencesOfEntries : ∀ {entries : JsonObject} {references : List Text},
    referencesInEntries descent entries = some references → ∀ reference ∈ references, Json.string reference ∈ Json.referencesOfFields entries
  | [], _, collected => by cases collected; simp
  | (name, item) :: rest, _, collected => by
    rw [referencesInEntries] at collected
    obtain ⟨here, others, isHere, areOthers, rfl⟩ := collected_append collected
    intro reference member
    rw [Json.referencesOfFields, List.mem_append]
    rcases List.mem_append.mp member with isFirst | later
    · exact .inr (string_mem_references isHere reference isFirst)
    · exact .inl (string_mem_referencesOfEntries areOthers reference later)

end

end Followed

/-! ## The walk through everything -/

/-- The walk of the OpenAPI parser. -/
def everywhere : Descent :=
  ⟨true, fun _ => .schema⟩

section Everywhere

variable {keyOf : Text → Text}

theorem ownReference_unreferring {fields : JsonObject} (free : EveryReferenceOfFields (fun _ => False) fields) :
    Json.get fields "$ref" = none := by
  cases found : Json.get fields "$ref" with
  | none => rfl
  | some value => exact absurd rfl (everyReferenceOfFields_iff.mp free _ (Json.mem_of_get found)).1

mutual

theorem schemaReferences_unreferring : ∀ {node : Json}, Unreferring node →
    schemaReferences everywhere node = some [] ∧ rewrite everywhere keyOf node = node
  | .object fields, free => by
    have inside := unreferring_walk_fields free
    have noReference := ownReference_unreferring free
    rw [schemaReferences, rewrite, noReference, inside.1, inside.2]
    exact ⟨rfl, rfl⟩
  | .array items, free => by
    have inside := unreferring_walk_items free
    simp only [schemaReferences, rewrite, everywhere, if_true]
    exact ⟨inside.1, congrArg Json.array inside.2⟩
  | .null, _ => ⟨rfl, rfl⟩
  | .bool _, _ => ⟨rfl, rfl⟩
  | .number _ _, _ => ⟨rfl, rfl⟩
  | .string _, _ => ⟨rfl, rfl⟩

theorem unreferring_walk_items : ∀ {items : List Json}, EveryReferenceOfItems (fun _ => False) items →
    referencesInItems everywhere items = some [] ∧ rewriteItems everywhere keyOf items = items
  | [], _ => ⟨rfl, rfl⟩
  | item :: rest, free => by
    have here := schemaReferences_unreferring free.1
    have later := unreferring_walk_items free.2
    rw [referencesInItems, rewriteItems, here.1, here.2, later.1, later.2]
    exact ⟨rfl, rfl⟩

theorem unreferring_walk_fields : ∀ {fields : JsonObject}, EveryReferenceOfFields (fun _ => False) fields →
    referencesInFields everywhere fields = some [] ∧ rewriteFields everywhere keyOf fields = fields
  | [], _ => ⟨rfl, rfl⟩
  | (key, item) :: rest, free => by
    have here := schemaReferences_unreferring free.2.1
    have later := unreferring_walk_fields free.2.2
    rw [referencesInFields, rewriteFields, if_neg free.1, if_neg free.1, later.1, later.2]
    show (do let first ← schemaReferences everywhere item; let others ← some []; return first ++ others) = _ ∧
      (key, rewrite everywhere keyOf item) :: rest = _
    rw [here.1, here.2]
    exact ⟨rfl, rfl⟩

end

/-- The references that a walk through everything leaves are those to the definitions of the references it follows. -/
def Rewritten (holds : Json → Prop) (keyOf : Text → Text) (references : Option (List Text)) : Prop :=
  ∃ followed, references = some followed ∧ ∀ reference ∈ followed, holds (definitionReference (keyOf reference))

theorem rewritten_append {holds : Json → Prop} {first second : Option (List Text)}
    (rewritten : Rewritten holds keyOf do
      let left ← first
      let right ← second
      return left ++ right) : Rewritten holds keyOf first ∧ Rewritten holds keyOf second := by
  obtain ⟨followed, collected, all⟩ := rewritten
  cases first with
  | none => cases collected
  | some left =>
    cases second with
    | none => cases collected
    | some right =>
      cases collected
      exact ⟨⟨left, rfl, fun reference member => all reference (List.mem_append_left _ member)⟩,
        ⟨right, rfl, fun reference member => all reference (List.mem_append_right _ member)⟩⟩

theorem everyReference_rewrittenReference {holds : Json → Prop} {own : Option Json}
    (rewritten : Rewritten holds keyOf (ownReference own)) :
    EveryReferenceOfFields holds (rewrittenReference keyOf own) := by
  obtain ⟨followed, collected, all⟩ := rewritten
  unfold ownReference at collected
  split at collected
  · trivial
  · trivial
  · cases collected
    exact ⟨fun _ => all _ List.mem_cons_self, trivial, trivial⟩
  · cases collected

theorem everyReferenceOfFields_append {holds : Json → Prop} {left right : JsonObject}
    (first : EveryReferenceOfFields holds left) (second : EveryReferenceOfFields holds right) :
    EveryReferenceOfFields holds (left ++ right) := by
  rw [everyReferenceOfFields_iff] at first second ⊢
  intro field member
  exact (List.mem_append.mp member).elim (first field) (second field)

mutual

theorem everyReference_rewrite {holds : Json → Prop} : ∀ {node : Json},
    Rewritten holds keyOf (schemaReferences everywhere node) → EveryReference holds (rewrite everywhere keyOf node)
  | .object fields, rewritten => by
    rw [schemaReferences] at rewritten
    obtain ⟨own, others⟩ := rewritten_append rewritten
    rw [rewrite, EveryReference]
    exact everyReferenceOfFields_append (everyReference_rewrittenReference own) (everyReference_rewriteFields others)
  | .array items, rewritten => by
    simp only [schemaReferences, everywhere, if_true] at rewritten
    simp only [rewrite, everywhere, if_true, EveryReference]
    exact everyReference_rewriteItems rewritten
  | .null, _ => trivial
  | .bool _, _ => trivial
  | .number _ _, _ => trivial
  | .string _, _ => trivial

theorem everyReference_rewriteItems {holds : Json → Prop} : ∀ {items : List Json},
    Rewritten holds keyOf (referencesInItems everywhere items) →
      EveryReferenceOfItems holds (rewriteItems everywhere keyOf items)
  | [], _ => trivial
  | _ :: _, rewritten => by
    rw [referencesInItems] at rewritten
    obtain ⟨here, later⟩ := rewritten_append rewritten
    exact ⟨everyReference_rewrite here, everyReference_rewriteItems later⟩

theorem everyReference_rewriteFields {holds : Json → Prop} : ∀ {fields : JsonObject},
    Rewritten holds keyOf (referencesInFields everywhere fields) →
      EveryReferenceOfFields holds (rewriteFields everywhere keyOf fields)
  | [], _ => trivial
  | (key, item) :: rest, rewritten => by
    rw [referencesInFields] at rewritten
    rw [rewriteFields]
    by_cases isReference : key = "$ref"
    · rw [if_pos isReference] at rewritten ⊢
      exact everyReference_rewriteFields rewritten
    · rw [if_neg isReference] at rewritten ⊢
      obtain ⟨here, later⟩ := rewritten_append rewritten
      exact ⟨fun same => absurd same isReference, everyReference_rewrite here, everyReference_rewriteFields later⟩

end

end Everywhere

/-! ## Where the walks do the same -/

section Separated

variable (position : Text → Position)

mutual

/-- No data in the schema have a member `$ref`, and no map of schemas has one. -/
def Separated : Json → Prop
  | .object fields => SeparatedFields fields
  | node => Unreferring node

def SeparatedFields : JsonObject → Prop
  | [] => True
  | (key, item) :: rest =>
    (key = "$ref" ∨
      match position key with
      | .schema => Separated item
      | .schemas => SeparatedList item
      | .schemaMap => SeparatedMap item
      | .data => Unreferring item) ∧ SeparatedFields rest

def SeparatedList : Json → Prop
  | .array items => SeparatedItems items
  | item => Unreferring item

def SeparatedItems : List Json → Prop
  | [] => True
  | item :: rest => Separated item ∧ SeparatedItems rest

def SeparatedMap : Json → Prop
  | .object entries => SeparatedEntries entries
  | item => Unreferring item

def SeparatedEntries : JsonObject → Prop
  | [] => True
  | (name, item) :: rest => name ≠ "$ref" ∧ Separated item ∧ SeparatedEntries rest

end

variable {position} {keyOf : Text → Text}

/-- The walk that knows where schemas stand. -/
abbrev aware (position : Text → Position) : Descent :=
  ⟨false, position⟩

theorem get_of_separatedEntries {entries : JsonObject} (separated : SeparatedEntries position entries) :
    Json.get entries "$ref" = none := by
  induction entries with
  | nil => rfl
  | cons entry rest ih =>
    obtain ⟨name, item⟩ := entry
    have different : (("$ref" : Text) == name) = false := by simpa using Ne.symm separated.1
    rw [Json.get, List.lookup_cons, different]
    exact ih separated.2.2

mutual

theorem walk_separated : ∀ {node : Json}, Separated position node →
    schemaReferences everywhere node = schemaReferences (aware position) node ∧
      rewrite everywhere keyOf node = rewrite (aware position) keyOf node
  | .object fields, separated => by
    obtain ⟨references, rewritten⟩ := walk_separatedFields separated
    simp only [schemaReferences, rewrite, references, rewritten, and_self]
  | .array _, separated => schemaReferences_unreferring separated
  | .null, _ => ⟨rfl, rfl⟩
  | .bool _, _ => ⟨rfl, rfl⟩
  | .number _ _, _ => ⟨rfl, rfl⟩
  | .string _, _ => ⟨rfl, rfl⟩

theorem walk_separatedFields : ∀ {fields : JsonObject}, SeparatedFields position fields →
    referencesInFields everywhere fields = referencesInFields (aware position) fields ∧
      rewriteFields everywhere keyOf fields = rewriteFields (aware position) keyOf fields
  | [], _ => ⟨rfl, rfl⟩
  | (key, item) :: rest, separated => by
    obtain ⟨references, rewritten⟩ := walk_separatedFields separated.2
    by_cases isReference : key = "$ref"
    · simp only [referencesInFields, rewriteFields, if_pos isReference]
      exact ⟨references, rewritten⟩
    · have inside := separated.1.resolve_left isReference
      simp only [referencesInFields, rewriteFields, if_neg isReference, references, rewritten]
      dsimp only [everywhere, aware]
      -- At each kind of place the walk through everything does what the other one does there.
      cases isPosition : position key with
      | schema =>
        rw [isPosition] at inside
        obtain ⟨here, written⟩ := walk_separated inside
        exact ⟨by rw [← here]; rfl, by rw [← written]; rfl⟩
      | schemas =>
        rw [isPosition] at inside
        obtain ⟨here, written⟩ := walk_separatedList inside
        exact ⟨by rw [← here]; rfl, by rw [← written]; rfl⟩
      | schemaMap =>
        rw [isPosition] at inside
        obtain ⟨here, written⟩ := walk_separatedMap inside
        exact ⟨by rw [← here]; rfl, by rw [← written]; rfl⟩
      | data =>
        rw [isPosition] at inside
        have written : rewrite everywhere keyOf item = item := (schemaReferences_unreferring inside).2
        have here : schemaReferences everywhere item = some [] := (@schemaReferences_unreferring keyOf _ inside).1
        exact ⟨by dsimp only; rw [← here]; rfl, congrArg (fun value => (key, value) :: _) written⟩

theorem walk_separatedList : ∀ {item : Json}, SeparatedList position item →
    schemaReferences everywhere item = referencesInList (aware position) item ∧
      rewrite everywhere keyOf item = rewriteList (aware position) keyOf item
  | .array items, separated => by
    obtain ⟨references, rewritten⟩ := walk_separatedItems separated
    exact ⟨references, congrArg Json.array rewritten⟩
  | .object _, separated => schemaReferences_unreferring separated
  | .null, _ => ⟨rfl, rfl⟩
  | .bool _, _ => ⟨rfl, rfl⟩
  | .number _ _, _ => ⟨rfl, rfl⟩
  | .string _, _ => ⟨rfl, rfl⟩

theorem walk_separatedItems : ∀ {items : List Json}, SeparatedItems position items →
    referencesInItems everywhere items = referencesInItems (aware position) items ∧
      rewriteItems everywhere keyOf items = rewriteItems (aware position) keyOf items
  | [], _ => ⟨rfl, rfl⟩
  | item :: rest, separated => by
    obtain ⟨here, written⟩ := walk_separated separated.1
    obtain ⟨references, rewritten⟩ := walk_separatedItems separated.2
    simp only [referencesInItems, rewriteItems, here, written, references, rewritten, and_self]

theorem walk_separatedMap : ∀ {item : Json}, SeparatedMap position item →
    schemaReferences everywhere item = referencesInMap (aware position) item ∧
      rewrite everywhere keyOf item = rewriteMap (aware position) keyOf item
  | .object entries, separated => by
    obtain ⟨references, rewritten⟩ := walk_separatedEntries separated
    rw [schemaReferences, rewrite, get_of_separatedEntries separated, references, rewritten]
    refine ⟨?_, rfl⟩
    show (do let others ← referencesInEntries (aware position) entries; return [] ++ others) =
      referencesInEntries (aware position) entries
    cases referencesInEntries (aware position) entries with
    | none => rfl
    | some others => rfl
  | .array _, separated => schemaReferences_unreferring separated
  | .null, _ => ⟨rfl, rfl⟩
  | .bool _, _ => ⟨rfl, rfl⟩
  | .number _ _, _ => ⟨rfl, rfl⟩
  | .string _, _ => ⟨rfl, rfl⟩

theorem walk_separatedEntries : ∀ {entries : JsonObject}, SeparatedEntries position entries →
    referencesInFields everywhere entries = referencesInEntries (aware position) entries ∧
      rewriteFields everywhere keyOf entries = rewriteEntries (aware position) keyOf entries
  | [], _ => ⟨rfl, rfl⟩
  | (name, item) :: rest, separated => by
    obtain ⟨here, written⟩ := walk_separated separated.2.1
    obtain ⟨references, rewritten⟩ := walk_separatedEntries separated.2.2
    rw [referencesInFields, rewriteFields, if_neg separated.1, if_neg separated.1, references, rewritten]
    exact ⟨by rw [referencesInEntries, ← here]; rfl, by rw [rewriteEntries, ← written]; rfl⟩

end

/-! ### Two rewritings

If the walk that knows where schemas stand leaves nothing but references to one definition, whatever definition that
is, then the data have none. -/

section Apart

variable {firstKey secondKey : Text → Text} {first second : Text}

/-- Every member `$ref` is the text. -/
abbrev EveryReferenceIs (reference : Text) (node : Json) : Prop :=
  EveryReference (fun value => value = .string reference) node

theorem unreferring_of_texts (apart : first ≠ second) {node : Json} (left : EveryReferenceIs first node)
    (right : EveryReferenceIs second node) : Unreferring node := by
  refine EveryReference.unreferring (fun value isFirst isSecond => apart ?_) left right
  exact Json.string.inj (isFirst.symm.trans isSecond)

theorem rewrite_eq_string {descent : Descent} {node : Json} {text : Text}
    (same : rewrite descent keyOf node = .string text) : node = .string text := by
  cases node with
  | object fields => cases same
  | array items =>
    rw [rewrite] at same
    split at same <;> cases same
  | null | bool | number | string => exact same

mutual

theorem separated_of_rewrites (apart : first ≠ second) : ∀ {node : Json},
    EveryReferenceIs first (rewrite (aware position) firstKey node) →
    EveryReferenceIs second (rewrite (aware position) secondKey node) → Separated position node
  | .object fields, left, right => by
    rw [rewrite] at left right
    have inLeft := everyReference_object.mp left
    have inRight := everyReference_object.mp right
    refine separatedFields_of_rewrites apart ?_ ?_
    · exact everyReferenceOfFields_iff.mpr fun field member => inLeft field (List.mem_append_right _ member)
    · exact everyReferenceOfFields_iff.mpr fun field member => inRight field (List.mem_append_right _ member)
  | .array _, left, right => unreferring_of_texts apart left right
  | .null, _, _ => trivial
  | .bool _, _, _ => trivial
  | .number _ _, _, _ => trivial
  | .string _, _, _ => trivial

theorem separatedFields_of_rewrites (apart : first ≠ second) : ∀ {fields : JsonObject},
    EveryReferenceOfFields (fun value => value = .string first) (rewriteFields (aware position) firstKey fields) →
    EveryReferenceOfFields (fun value => value = .string second) (rewriteFields (aware position) secondKey fields) →
      SeparatedFields position fields
  | [], _, _ => trivial
  | (key, item) :: rest, left, right => by
    rw [rewriteFields] at left right
    by_cases isReference : key = "$ref"
    · rw [if_pos isReference] at left right
      exact ⟨.inl isReference, separatedFields_of_rewrites apart left right⟩
    · rw [if_neg isReference] at left right
      refine ⟨.inr ?_, separatedFields_of_rewrites apart left.2.2 right.2.2⟩
      have inLeft := left.2.1
      have inRight := right.2.1
      dsimp only [aware] at inLeft inRight
      cases isPosition : position key with
      | schema =>
        rw [isPosition] at inLeft inRight
        exact separated_of_rewrites apart inLeft inRight
      | schemas =>
        rw [isPosition] at inLeft inRight
        exact separatedList_of_rewrites apart inLeft inRight
      | schemaMap =>
        rw [isPosition] at inLeft inRight
        exact separatedMap_of_rewrites apart inLeft inRight
      | data =>
        rw [isPosition] at inLeft inRight
        exact unreferring_of_texts apart inLeft inRight

theorem separatedList_of_rewrites (apart : first ≠ second) : ∀ {item : Json},
    EveryReferenceIs first (rewriteList (aware position) firstKey item) →
    EveryReferenceIs second (rewriteList (aware position) secondKey item) → SeparatedList position item
  | .array _, left, right => separatedItems_of_rewrites apart left right
  | .object _, left, right => unreferring_of_texts apart left right
  | .null, _, _ => trivial
  | .bool _, _, _ => trivial
  | .number _ _, _, _ => trivial
  | .string _, _, _ => trivial

theorem separatedItems_of_rewrites (apart : first ≠ second) : ∀ {items : List Json},
    EveryReferenceOfItems (fun value => value = .string first) (rewriteItems (aware position) firstKey items) →
    EveryReferenceOfItems (fun value => value = .string second) (rewriteItems (aware position) secondKey items) →
      SeparatedItems position items
  | [], _, _ => trivial
  | _ :: _, left, right =>
    ⟨separated_of_rewrites apart left.1 right.1, separatedItems_of_rewrites apart left.2 right.2⟩

theorem separatedMap_of_rewrites (apart : first ≠ second) : ∀ {item : Json},
    EveryReferenceIs first (rewriteMap (aware position) firstKey item) →
    EveryReferenceIs second (rewriteMap (aware position) secondKey item) → SeparatedMap position item
  | .object _, left, right => separatedEntries_of_rewrites apart left right
  | .array _, left, right => unreferring_of_texts apart left right
  | .null, _, _ => trivial
  | .bool _, _, _ => trivial
  | .number _ _, _, _ => trivial
  | .string _, _, _ => trivial

theorem separatedEntries_of_rewrites (apart : first ≠ second) : ∀ {entries : JsonObject},
    EveryReferenceOfFields (fun value => value = .string first) (rewriteEntries (aware position) firstKey entries) →
    EveryReferenceOfFields (fun value => value = .string second) (rewriteEntries (aware position) secondKey entries) →
      SeparatedEntries position entries
  | [], _, _ => trivial
  | (name, item) :: rest, left, right => by
    refine ⟨fun isReference => apart ?_, separated_of_rewrites apart left.2.1 right.2.1,
      separatedEntries_of_rewrites apart left.2.2 right.2.2⟩
    have isFirst := rewrite_eq_string (left.1 isReference)
    have isSecond := rewrite_eq_string (right.1 isReference)
    exact Json.string.inj (isFirst.symm.trans isSecond)

end

end Apart

end Separated

end Mcplica.Parsers
