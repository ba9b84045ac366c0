import Mcplica.Library.Text

/-! # JSON values

Dictionaries keep the order in which their keys were written. -/

namespace Mcplica.Contracts

open Mcplica.Library

inductive Json where
  | null
  | bool (value : Bool)
  /-- The literal is how the number is written back. -/
  | number (value : Rat) (literal : Text)
  | string (value : Text)
  | array (items : List Json)
  | object (fields : List (Text × Json))
  deriving Repr, Inhabited

abbrev JsonObject := List (Text × Json)

namespace Json

def integer (value : Nat) : Json :=
  .number value (Text.ofNat value)

def text (value : String) : Json :=
  .string value

/-! ## Dictionaries -/

def entry (key : String) (value : Json) : Text × Json :=
  (key, value)

def get (fields : JsonObject) (key : Text) : Option Json :=
  fields.lookup key

/-- `fields[key] = value`: a key that is there keeps its place. -/
def set (fields : JsonObject) (key : Text) (value : Json) : JsonObject :=
  if (get fields key).isSome then
    fields.map fun field => if field.1 = key then (key, value) else field
  else
    fields ++ [(key, value)]

/-- `fields.pop(key, None)` -/
def pop (fields : JsonObject) (key : Text) : JsonObject :=
  fields.filter fun field => field.1 ≠ key

theorem get_isSome {fields : JsonObject} {key : Text} : (get fields key).isSome = true ↔ key ∈ fields.map Prod.fst := by
  induction fields with
  | nil => simp [get]
  | cons field rest ih =>
    unfold get at ih ⊢
    by_cases same : key = field.1
    · simp [same]
    · have different : (key == field.1) = false := by simpa using same
      rw [List.lookup_cons, different]
      simp only [List.map_cons, List.mem_cons, same, false_or]
      exact ih

theorem mem_of_get {fields : JsonObject} {key : Text} {value : Json} (found : get fields key = some value) :
    (key, value) ∈ fields := by
  induction fields with
  | nil => cases found
  | cons field rest ih =>
    unfold get at ih found
    by_cases same : key = field.1
    · rw [List.lookup_cons, beq_iff_eq.mpr same] at found
      cases found
      rw [same]
      exact List.mem_cons_self
    · have different : (key == field.1) = false := by simpa using same
      rw [List.lookup_cons, different] at found
      exact List.mem_cons_of_mem _ (ih found)

theorem set_of_not_mem {fields : JsonObject} {key : Text} (absent : key ∉ fields.map Prod.fst) (value : Json) :
    set fields key value = fields ++ [(key, value)] := by
  unfold set
  rw [if_neg (fun found => absent (get_isSome.mp found))]

theorem get_set_self (fields : JsonObject) (key : Text) (value : Json) : get (set fields key value) key = some value := by
  by_cases found : (get fields key).isSome = true
  · unfold set
    rw [if_pos found]
    induction fields with
    | nil => cases found
    | cons field rest ih =>
      unfold get at found ih ⊢
      by_cases same : field.1 = key
      · simp [same]
      · have different : (key == field.1) = false := by simpa using fun isKey : key = field.1 => same isKey.symm
        rw [List.lookup_cons, different] at found
        rw [List.map_cons, if_neg same, List.lookup_cons, different]
        exact ih found
  · have absent : get fields key = none := by simpa using found
    unfold set
    rw [if_neg found]
    unfold get at absent ⊢
    rw [List.lookup_append, absent]
    simp

theorem get_set_of_ne (fields : JsonObject) {key other : Text} (value : Json) (different : other ≠ key) :
    get (set fields key value) other = get fields other := by
  have notKey : (other == key) = false := by simpa using different
  by_cases found : (get fields key).isSome = true
  · unfold set
    rw [if_pos found]
    clear found
    induction fields with
    | nil => rfl
    | cons field rest ih =>
      unfold get at ih ⊢
      rw [List.map_cons, List.lookup_cons, List.lookup_cons, ih]
      by_cases same : field.1 = key
      · rw [if_pos same, same, notKey]
      · rw [if_neg same]
  · unfold set
    rw [if_neg found]
    unfold get
    rw [List.lookup_append, List.lookup_cons, notKey]
    simp

/-- Every entry after the write is the one written or was there before. -/
theorem mem_set {fields : JsonObject} {key : Text} {value : Json} {field : Text × Json}
    (member : field ∈ set fields key value) : field = (key, value) ∨ field ∈ fields := by
  unfold set at member
  split at member
  · obtain ⟨old, oldMember, rfl⟩ := List.mem_map.mp member
    split
    · exact .inl rfl
    · exact .inr oldMember
  · rcases List.mem_append.mp member with before | last
    · exact .inr before
    · exact .inl (List.mem_singleton.mp last)

/-! ## Equality -/

mutual

/-- The `==` of Python: dictionaries are compared without order and booleans are numbers. -/
def same : Json → Json → Bool
  | .null, .null => true
  | .string left, .string right => left = right
  | .bool left, .bool right => left = right
  | .number left _, .number right _ => left = right
  | .bool left, .number right _ => right = if left then 1 else 0
  | .number left _, .bool right => left = if right then 1 else 0
  | .array left, .array right => sameItems left right
  | .object left, .object right => left.length = right.length && sameFields left right
  | _, _ => false

def sameItems : List Json → List Json → Bool
  | [], [] => true
  | left :: lefts, right :: rights => same left right && sameItems lefts rights
  | _, _ => false

def sameFields : JsonObject → JsonObject → Bool
  | [], _ => true
  | (key, left) :: lefts, rights =>
    (match get rights key with
      | some right => same left right
      | none => false) && sameFields lefts rights

end

/-! ## Python values -/

/-- `bool(value)` -/
def truthy : Json → Bool
  | .null => false
  | .bool value => value
  | .number value _ => value ≠ 0
  | .string value => !value.isEmpty
  | .array items => !items.isEmpty
  | .object fields => !fields.isEmpty

mutual

def repr (unicode : Unicode) : Json → Text
  | .null => "None"
  | .bool true => "True"
  | .bool false => "False"
  | .number _ literal => literal
  | .string value => Text.repr unicode value
  | .array items => '[' :: Text.join ", " (reprItems unicode items) ++ [']']
  | .object fields => Char.ofNat 0x7b :: Text.join ", " (reprFields unicode fields) ++ [Char.ofNat 0x7d]

def reprItems (unicode : Unicode) : List Json → List Text
  | [] => []
  | item :: rest => repr unicode item :: reprItems unicode rest

def reprFields (unicode : Unicode) : JsonObject → List Text
  | [] => []
  | (key, value) :: rest => (Text.repr unicode key ++ (": " : Text) ++ repr unicode value) :: reprFields unicode rest

end

/-- `str(value)` -/
def str (unicode : Unicode) : Json → Text
  | .string value => value
  | value => repr unicode value

/-! ## Canonical text -/

def hexDigit (value : Nat) : Char :=
  Nat.digitChar value

def escape (character : Char) : Text :=
  match character with
  | '"' => "\\\""
  | '\\' => "\\\\"
  | '\n' => "\\n"
  | '\r' => "\\r"
  | '\t' => "\\t"
  | _ =>
    if character.toNat = 8 then "\\b"
    else if character.toNat = 12 then "\\f"
    else if character.toNat < 32 then
      ("\\u00" : Text) ++ [hexDigit (character.toNat / 16), hexDigit (character.toNat % 16)]
    else [character]

def quote (text : Text) : Text :=
  '"' :: text.flatMap escape ++ ['"']

mutual

/-- `json.dumps(value, ensure_ascii=False, sort_keys=True, separators=(",", ":"))` -/
def canonical : Json → Text
  | .null => "null"
  | .bool true => "true"
  | .bool false => "false"
  | .number _ literal => literal
  | .string value => quote value
  | .array items => '[' :: Text.join "," (canonicalItems items) ++ [']']
  | .object fields =>
    let sorted := Text.sortedBy Prod.fst (canonicalFields fields)
    Char.ofNat 0x7b :: Text.join "," (sorted.map fun (key, value) => quote key ++ ':' :: value) ++ [Char.ofNat 0x7d]

def canonicalItems : List Json → List Text
  | [] => []
  | item :: rest => canonical item :: canonicalItems rest

def canonicalFields : JsonObject → List (Text × Text)
  | [] => []
  | (key, value) :: rest => (key, canonical value) :: canonicalFields rest

end

/-! ## References -/

mutual

/-- The values of `$ref` in the order in which a stack of pending values reaches them. -/
def references : Json → List Json
  | .object fields =>
    (match get fields "$ref" with
      | none | some .null => []
      | some reference => [reference]) ++ referencesOfFields fields
  | .array items => referencesOfItems items
  | _ => []

def referencesOfItems : List Json → List Json
  | [] => []
  | item :: rest => referencesOfItems rest ++ references item

def referencesOfFields : JsonObject → List Json
  | [] => []
  | (_, value) :: rest => referencesOfFields rest ++ references value

end

theorem mem_referencesOfFields {fields : JsonObject} {reference : Json} :
    reference ∈ referencesOfFields fields ↔ ∃ field ∈ fields, reference ∈ references field.2 := by
  induction fields with
  | nil => simp [referencesOfFields]
  | cons field rest ih =>
    obtain ⟨key, value⟩ := field
    rw [referencesOfFields, List.mem_append, ih]
    simp [or_comm]

theorem mem_references_array {items : List Json} {reference : Json} :
    reference ∈ references (.array items) ↔ ∃ item ∈ items, reference ∈ references item := by
  rw [references]
  induction items with
  | nil => simp [referencesOfItems]
  | cons item rest ih =>
    rw [referencesOfItems, List.mem_append, ih]
    simp [or_comm]

theorem mem_references_object {fields : JsonObject} {reference : Json} :
    reference ∈ references (.object fields) ↔
      (get fields "$ref" = some reference ∧ reference ≠ .null) ∨ ∃ field ∈ fields, reference ∈ references field.2 := by
  rw [references, List.mem_append, mem_referencesOfFields]
  refine or_congr ?_ Iff.rfl
  cases get fields "$ref" with
  | none => simp
  | some own => cases own <;> simp [eq_comm] <;> rintro rfl <;> simp

mutual

/-- No dictionary in the value has a key twice. -/
def WellFormed : Json → Prop
  | .object fields => (fields.map Prod.fst).Nodup ∧ WellFormedFields fields
  | .array items => WellFormedItems items
  | _ => True

def WellFormedItems : List Json → Prop
  | [] => True
  | item :: rest => WellFormed item ∧ WellFormedItems rest

def WellFormedFields : JsonObject → Prop
  | [] => True
  | (_, value) :: rest => WellFormed value ∧ WellFormedFields rest

end

theorem wellFormed_of_mem {fields : JsonObject} (wellFormed : WellFormedFields fields) {field : Text × Json}
    (member : field ∈ fields) : WellFormed field.2 := by
  induction fields with
  | nil => cases member
  | cons first rest ih =>
    rcases List.mem_cons.mp member with rfl | later
    · exact wellFormed.1
    · exact ih wellFormed.2 later

end Json

end Mcplica.Contracts
