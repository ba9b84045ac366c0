import Mcplica.Library.Fragments
import Mcplica.Runtime.Sampling

/-! # Schemas that accept their samples

What the keywords say that the harness is asked to sample, and when the sample is a value that they accept. The bounds of
the schemas are whole numbers, and their references point to definitions of the root. -/

namespace Mcplica.Runtime.Sampling

open Mcplica.Library Mcplica.Contracts
open Doubles (nearest IsDouble)

/-! ## The meaning of the keywords -/

def hasType (type : Text) : Json → Bool
  | .null => type = "null"
  | .bool _ => type = "boolean"
  | .number value _ => type = "number" || (type = "integer" && value.den = 1)
  | .string _ => type = "string"
  | .array _ => type = "array"
  | .object _ => type = "object"

def typeAllows (expected value : Json) : Bool :=
  match expected with
  | .string type => hasType type value
  | .array types => types.any fun type =>
    match type with
    | .string type => hasType type value
    | _ => false
  | _ => false

mutual

/-- Equality of JSON values, for which booleans are no numbers. -/
def equals : Json → Json → Bool
  | .null, .null => true
  | .bool left, .bool right => left = right
  | .number left _, .number right _ => left = right
  | .string left, .string right => left = right
  | .array left, .array right => equalsItems left right
  | .object left, .object right => left.length = right.length && equalsFields left right
  | _, _ => false

def equalsItems : List Json → List Json → Bool
  | [], [] => true
  | left :: lefts, right :: rights => equals left right && equalsItems lefts rights
  | _, _ => false

def equalsFields : JsonObject → JsonObject → Bool
  | [], _ => true
  | (key, left) :: lefts, rights =>
    (match Json.get rights key with
      | some right => equals left right
      | none => false) && equalsFields lefts rights

end

/-- The number that a keyword gives. -/
def bound (schema : JsonObject) (key : Text) : Option ℚ :=
  (Json.get schema key).bind numberOf

def property (schema : JsonObject) (name : Text) : Option JsonObject :=
  match Json.get schema "properties" with
  | some (.object properties) =>
    match Json.get properties name with
    | some (.object schema) => some schema
    | _ => none
  | _ => none

def itemsOf (schema : JsonObject) : Option JsonObject :=
  match Json.get schema "items" with
  | some (.object items) => some items
  | _ => none

def definitionOf (root : JsonObject) (name : Text) : Option JsonObject :=
  match Json.get root "$defs" with
  | some (.object definitions) =>
    match Json.get definitions name with
    | some (.object definition) => some definition
    | _ => none
  | _ => none

def definitionStart : Text := "#/$defs/"

structure NumberAllowed (schema : JsonObject) (number : ℚ) : Prop where
  minimum : ∀ limit, bound schema "minimum" = some limit → limit ≤ number
  maximum : ∀ limit, bound schema "maximum" = some limit → number ≤ limit
  exclusiveMinimum : ∀ limit, bound schema "exclusiveMinimum" = some limit → limit < number
  exclusiveMaximum : ∀ limit, bound schema "exclusiveMaximum" = some limit → number < limit
  multipleOf : ∀ multiple, bound schema "multipleOf" = some multiple → ∃ times : ℤ, number = times * multiple

structure LengthAllowed (schema : JsonObject) (minimum maximum : Text) (length : Nat) : Prop where
  least : ∀ limit, bound schema minimum = some limit → limit ≤ length
  most : ∀ limit, bound schema maximum = some limit → length ≤ limit

/-- What the keywords of a schema ask of a value by themselves. -/
structure Allows (schema : JsonObject) (value : Json) : Prop where
  type : ∀ expected, Json.get schema "type" = some expected → typeAllows expected value = true
  const : ∀ expected, Json.get schema "const" = some expected → equals expected value = true
  enum : ∀ options, Json.get schema "enum" = some (.array options) → ∃ option ∈ options, equals option value = true
  number : ∀ number literal, value = .number number literal → NumberAllowed schema number
  string : ∀ text, value = .string text → LengthAllowed schema "minLength" "maxLength" text.length
  array : ∀ items, value = .array items → LengthAllowed schema "minItems" "maxItems" items.length
  object : ∀ fields, value = .object fields → ∀ name ∈ requiredNames schema, (Json.get fields name).isSome = true

/-- The value is valid under the schema, and under the schemas that it refers to or that stand within it. -/
inductive Accepts (root : JsonObject) : JsonObject → Json → Prop where
  | intro {schema : JsonObject} {value : Json} (allows : Allows schema value)
      (properties : ∀ fields, value = .object fields → ∀ name within item, property schema name = some within →
        Json.get fields name = some item → Accepts root within item)
      (items : ∀ values, value = .array values → ∀ within, itemsOf schema = some within → ∀ item ∈ values,
        Accepts root within item)
      (reference : ∀ name target, Json.get schema "$ref" = some (.string (definitionStart ++ name)) →
        definitionOf root name = some target → Accepts root target value) :
      Accepts root schema value

/-- The same without the schema that a reference of this one refers to. -/
structure AcceptsBeside (root schema : JsonObject) (value : Json) : Prop where
  allows : Allows schema value
  properties : ∀ fields, value = .object fields → ∀ name within item, property schema name = some within →
    Json.get fields name = some item → Accepts root within item
  items : ∀ values, value = .array values → ∀ within, itemsOf schema = some within → ∀ item ∈ values, Accepts root within item

/-! ## Schemas of these keywords -/

def otherKeywords : List Text :=
  ["default", "example", "examples", "oneOf", "anyOf", "allOf", "format", "pattern"]

def boundKeywords : List Text :=
  ["minimum", "maximum", "exclusiveMinimum", "exclusiveMaximum"]

def countKeywords : List Text :=
  ["minItems", "maxItems", "minLength", "maxLength"]

def typeNames : List Text :=
  ["object", "array", "string", "integer", "number", "boolean", "null"]

def IsWhole (value : Json) (number : ℤ) : Prop :=
  ∃ literal, value = .number number literal

/-- The shapes of the keywords in a schema. -/
structure Plain (root schema : JsonObject) : Prop where
  others : ∀ key ∈ otherKeywords, Json.get schema key = none
  type : ∀ expected, Json.get schema "type" = some expected → (∃ name ∈ typeNames, expected = .string name) ∨
    ∃ names : List Text, names ≠ [] ∧ (∀ name ∈ names, name ∈ typeNames) ∧ expected = .array (names.map .string)
  properties : ∀ value, Json.get schema "properties" = some value → ∃ properties, value = .object properties ∧
    (properties.map Prod.fst).Nodup ∧ ∀ property ∈ properties, ∃ within, property.2 = .object within
  items : ∀ value, Json.get schema "items" = some value → ∃ within, value = .object within
  enum : ∀ value, Json.get schema "enum" = some value → ∃ options, value = .array options
  bounds : ∀ key ∈ boundKeywords, ∀ value, Json.get schema key = some value → ∃ number, IsWhole value number
  multipleOf : ∀ value, Json.get schema "multipleOf" = some value → ∃ number, IsWhole value number ∧ 0 < number
  counts : ∀ key ∈ countKeywords, ∀ value, Json.get schema key = some value → ∃ count, value = Json.integer count
  reference : ∀ value, Json.get schema "$ref" = some value → ∃ name target,
    value = .string (definitionStart ++ name) ∧ '/' ∉ name ∧ '~' ∉ name ∧ '%' ∉ name ∧
      definitionOf root name = some target

/-- Where the search for a number starts: at the lower bound as a double. -/
def startOf (schema : JsonObject) (step : ℚ) : ℚ :=
  match bound schema "minimum", bound schema "exclusiveMinimum" with
  | some minimum, some _ => nearest (nearest minimum + step)
  | some minimum, none => nearest minimum
  | none, some limit => nearest (nearest limit + step)
  | none, none => 0

/-- The start, or a positive multiple from there on. -/
def Tried (schema : JsonObject) (step number : ℚ) : Prop :=
  match bound schema "multipleOf" with
  | none => number = startOf schema step
  | some multiple => startOf schema step ≤ number ∧ ∃ times : ℤ, 1 ≤ times ∧ number = times * multiple

structure WithinLower (schema : JsonObject) (number : ℚ) : Prop where
  minimum : ∀ limit, bound schema "minimum" = some limit → limit ≤ number
  exclusiveMinimum : ∀ limit, bound schema "exclusiveMinimum" = some limit → limit < number

structure WithinUpper (rounded : ℚ → ℚ) (schema : JsonObject) (number : ℚ) : Prop where
  maximum : ∀ limit, bound schema "maximum" = some limit → number ≤ rounded limit
  exclusiveMaximum : ∀ limit, bound schema "exclusiveMaximum" = some limit → number < rounded limit

/-- The upper bounds as doubles leave room for what is tried. -/
def Reachable (schema : JsonObject) (step : ℚ) : Prop :=
  ∃ number, Tried schema step number ∧ WithinUpper nearest schema number

/-- The upper bounds themselves leave room for what is tried, and all that may be tried is past the lower ones. -/
def Clears (schema : JsonObject) (step : ℚ) : Prop :=
  (∃ number, Tried schema step number ∧ WithinUpper id schema number) ∧
    ∀ number, Tried schema step number → WithinLower schema number

/-- The number is not too large for a double. -/
def Convertible (number : ℚ) : Prop :=
  |nearest number| < 2 ^ 1024

/-- Doubles are enough to find the first positive multiple from the start on: it is the first of all, or a double that is
the start itself, or one whose count is not too large, or that follows on a multiple that is a double, too. -/
def Countable (start multiple : ℚ) : Prop :=
  start ≤ 0 ∨ (start ≤ multiple ∧ nearest multiple ≤ multiple) ∨
    IsDouble multiple ∧ ∃ times : ℤ, (times - 1) * multiple < start ∧ start ≤ times * multiple ∧
      IsDouble (times * multiple) ∧ times * multiple < 2 ^ 1024 ∧
      (start = times * multiple ∨ times ≤ 2 ^ 51 ∨ IsDouble ((times - 1) * multiple))

/-- The bounds can be converted, and the multiple that is tried is found. -/
structure Precise (schema : JsonObject) (step : ℚ) : Prop where
  lower : ∀ limit, (bound schema "minimum").or (bound schema "exclusiveMinimum") = some limit → Convertible limit
  upper : ∀ limit, (bound schema "maximum").or (bound schema "exclusiveMaximum") = some limit → Convertible limit
  exclusiveMaximum : ∀ limit, bound schema "exclusiveMaximum" = some limit → Convertible limit
  multipleOf : ∀ multiple, bound schema "multipleOf" = some multiple →
    Convertible multiple ∧ Countable (startOf schema step) multiple

/-- What may be sampled for the schema, by its preset or its type. -/
def MaySample (schema : JsonObject) (value : Json) : Prop :=
  match presetOf schema, typeOf schema with
  | some preset, _ => value = preset
  | none, some (.string kind) => if kind = "boolean" then value = .bool true else hasType kind value = true
  | none, _ => value = .null

/-- The bounds on a length contradict each other. -/
def Crossed (schema : JsonObject) (minimum maximum : Text) : Prop :=
  ∃ least most, bound schema minimum = some least ∧ bound schema maximum = some most ∧ most < least

section

variable (root : JsonObject) (includeOptional : Bool) (precise raises fits : JsonObject → Prop)

/-- The numbers of the schemas that are sampled for this one are found. -/
structure PreciseWithin (schema : JsonObject) : Prop where
  properties : typeOf schema = some (.string "object") → ∀ name within, property schema name = some within →
    includeOptional = true ∨ name ∈ requiredNames schema → precise within
  items : typeOf schema = some (.string "array") → bound schema "maxItems" ≠ some 0 →
    ∀ within, itemsOf schema = some within → precise within
  integer : typeOf schema = some (.string "integer") → Precise schema 1
  number : typeOf schema = some (.string "number") → Precise schema (1 / 2)

/-- The bounds of a schema cannot be met by what is tried, or those of a schema whose sample is needed. -/
def RaisesWithin (schema : JsonObject) : Prop :=
  presetOf schema = none ∧
    ((typeOf schema = some (.string "object") ∧
        ∃ name ∈ requiredNames schema, ∃ within, property schema name = some within ∧ raises within) ∨
      (typeOf schema = some (.string "array") ∧ bound schema "maxItems" ≠ some 0 ∧
        ∃ within, itemsOf schema = some within ∧ raises within) ∨
      (typeOf schema = some (.string "string") ∧ Crossed schema "minLength" "maxLength") ∨
      (typeOf schema = some (.string "integer") ∧ ¬ Reachable schema 1) ∨
      (typeOf schema = some (.string "number") ∧ ¬ Reachable schema (1 / 2)))

/-- The sample of a schema without a reference satisfies its keywords. -/
structure FitsKeywords (schema : JsonObject) : Prop where
  /-- The constant, or the first of the listed values, satisfies all the other keywords. -/
  preset : ∀ value, presetOf schema = some value → Accepts root schema value
  listed : presetOf schema = none → Json.get schema "enum" = none
  /-- Every required name has a property. -/
  required : presetOf schema = none → typeOf schema = some (.string "object") → ∀ name ∈ requiredNames schema,
    ∃ within, property schema name = some within
  properties : presetOf schema = none → typeOf schema = some (.string "object") → ∀ name within,
    property schema name = some within → includeOptional = true ∨ name ∈ requiredNames schema → ¬ raises within → fits within
  length : presetOf schema = none → typeOf schema = some (.string "array") → ¬ Crossed schema "minItems" "maxItems"
  items : presetOf schema = none → typeOf schema = some (.string "array") → bound schema "maxItems" ≠ some 0 →
    ∀ within, itemsOf schema = some within → fits within
  integer : presetOf schema = none → typeOf schema = some (.string "integer") → Clears schema 1
  number : presetOf schema = none → typeOf schema = some (.string "number") → Clears schema (1 / 2)

/-- The same for a schema that a reference may stand for: a further reference is not followed, and must ask for nothing
more of what may be sampled. -/
structure FitsTarget (schema : JsonObject) : Prop where
  keywords : FitsKeywords root includeOptional raises fits schema
  reference : presetOf schema = none → ∀ value, MaySample schema value → AcceptsBeside root schema value →
    Accepts root schema value

end

/-- Sampling the schema raises a `ValueError`. -/
def Raises (root : JsonObject) : Nat → JsonObject → Prop
  | _, [] => False
  | 0, _ :: _ => True
  | levels + 1, schema => ∃ target, dereference root schema = .ok target ∧ RaisesWithin (Raises root levels) target

/-- The sample of the schema is accepted, if there is one: what stands beside a reference asks for nothing more of what may
be sampled for its target, and the keywords are among those that the sample takes into account. -/
def Fits (root : JsonObject) (includeOptional : Bool) : Nat → JsonObject → Prop
  | _, [] => True
  | 0, _ :: _ => True
  | levels + 1, schema => ∃ target, dereference root schema = .ok target ∧
      FitsTarget root includeOptional (Raises root levels) (Fits root includeOptional levels) target ∧
      ∀ value, MaySample target value → Accepts root target value → Accepts root schema value

end Mcplica.Runtime.Sampling
