import Mathlib.Data.Rat.Floor
import Mcplica.Contracts.Json
import Mcplica.Library.Checks
import Mcplica.Library.Doubles

/-! # Samples of schemas

`_sample` of the validation harness makes up the arguments and the responses that a build is tried with. The schema
validator and regular expressions come from outside. -/

namespace Mcplica.Runtime.Sampling

open Mcplica.Library Mcplica.Contracts

inductive SampleFailure where
  /-- A `ValueError`, which the harness catches in places. -/
  | value
  /-- An `OverflowError` or an error of a pattern; an infinite sample, which is no value of JSON, counts as one, too. -/
  | other
  deriving Repr, DecidableEq

/-- What the harness calls. -/
structure Tools where
  /-- How a sampled number is written. -/
  literalOf : ℚ → Text
  isValid : JsonObject → Json → Bool
  search : Text → Text → Except SampleFailure Bool

/-! ## Leaves -/

/-- A number as `isinstance(value, int | float)` finds it: booleans are integers. -/
def numberOf : Json → Option ℚ
  | .number value _ => some value
  | .bool value => some (if value then 1 else 0)
  | _ => none

/-- The numbers that a JSON text writes without a fraction are of type `int`. -/
def isIntLiteral (literal : Text) : Bool :=
  !literal.includesAny ".eE"

/-- `_integer_keyword` -/
def integerKeyword (value : Option Json) (default : Int) : Int :=
  match value with
  | some (.number value literal) => if isIntLiteral literal then value.num else default
  | _ => default

def formats : List (Text × Text) :=
  [("date-time", "2026-01-01T00:00:00Z"), ("date", "2026-01-01"), ("time", "00:00:00Z"),
    ("email", "validation@example.com"), ("hostname", "validation.example.com"), ("ipv4", "8.8.8.8"),
    ("ipv6", "2001:4860:4860::8888"), ("uri", "https://validation.example.com/value"), ("uri-reference", "/validation"),
    ("uuid", "00000000-0000-4000-8000-000000000001"), ("byte", "dmFsaWRhdGlvbg=="), ("binary", "dmFsaWRhdGlvbg==")]

def formatOf (schema : JsonObject) : Option Text :=
  match Json.get schema "format" with
  | some (.string format) => formats.lookup format
  | _ => none

section

variable (tools : Tools)

/-- The first candidate that the pattern finds, after padding and cutting. -/
def firstMatch (pattern : Option Json) (minimum maximum : Nat) : List Text → Except SampleFailure Json
  | [] => .error .value
  | candidate :: rest => do
    let fitted := (candidate ++ List.replicate (minimum - candidate.length) 'a').take maximum
    let found ← match pattern with
      | some (.string pattern) => tools.search pattern fitted
      | _ => .ok true
    if found then return .string fitted
    firstMatch pattern minimum maximum rest

/-- `_sample_string` -/
def sampleString (schema : JsonObject) : Except SampleFailure Json :=
  let minimum := max 0 (integerKeyword (Json.get schema "minLength") 0)
  let maximum := integerKeyword (Json.get schema "maxLength") (max 32 minimum)
  if maximum < minimum then .error .value
  else
    firstMatch tools (Json.get schema "pattern") minimum.toNat maximum.toNat
      ((formatOf schema).toList ++ [("validation" : Text), ("value" : Text), ("a" : Text), ("1" : Text), ("" : Text)])

/-- `float` of a number -/
def toDouble (number : ℚ) : Except SampleFailure ℚ := do
  ensure (|Doubles.nearest number| < 2 ^ 1024) SampleFailure.other
  return Doubles.nearest number

/-- The lower bound, moved past an exclusive one. -/
def startNumber (schema : JsonObject) (integer : Bool) : Except SampleFailure ℚ :=
  let exclusiveMinimum := Json.get schema "exclusiveMinimum"
  let moved (value : ℚ) : ℚ :=
    if (exclusiveMinimum.bind numberOf).isSome then Doubles.nearest (value + if integer then 1 else 1 / 2) else value
  match numberOf ((Json.get schema "minimum").getD (exclusiveMinimum.getD (Json.integer 0))) with
  | some minimum => (toDouble minimum).map moved
  | none => .ok (moved 0)

/-- The number that is tried: the start, or the next multiple from there on. There is none where it is infinite. -/
def lowerNumber (schema : JsonObject) (integer : Bool) : Except SampleFailure (Option ℚ) := do
  let value ← startNumber schema integer
  match (Json.get schema "multipleOf").bind numberOf with
  | some multiple =>
    if 0 < multiple then
      let divisor ← toDouble multiple
      let steps := Doubles.nearest (Doubles.floorDiv value divisor + if 0 < Doubles.floorMod value divisor then 1 else 0)
      let product := Doubles.nearest (steps * divisor)
      return if steps < 2 ^ 1024 ∧ product < 2 ^ 1024 then some (max multiple product) else none
    else
      return some value
  | none => return some value

def checkLimit (limit : Option ℚ) (allows : ℚ → Bool) : Except SampleFailure Unit :=
  match limit with
  | some limit => do
    let limit ← toDouble limit
    ensure (allows limit) SampleFailure.value
  | none => .ok ()

/-- `_sample_number` -/
def sampleNumber (schema : JsonObject) (integer : Bool) : Except SampleFailure Json := do
  let value ← lowerNumber schema integer
  let exclusiveMaximum := Json.get schema "exclusiveMaximum"
  checkLimit (((Json.get schema "maximum").or exclusiveMaximum).bind numberOf) fun limit => value.any (· ≤ limit)
  checkLimit (exclusiveMaximum.bind numberOf) fun limit => value.any (· < limit)
  let value ← obtain? value .other
  let value : ℚ := if integer then (value.num.tdiv value.den : ℤ) else value
  return .number value (tools.literalOf value)

/-! ## References -/

/-- The walk of a pointer through objects. -/
def followPointer : Json → List Text → Except SampleFailure Json
  | value, [] => .ok value
  | .object fields, component :: rest =>
    match Json.get fields (Text.replacePair '~' '0' '~' (Text.replacePair '~' '1' '/' component)) with
    | some value => followPointer value rest
    | none => .error .value
  | _, _ :: _ => .error .value

/-- `_dereference`: one reference is followed, and what stands beside it is dropped. -/
def dereference (root schema : JsonObject) : Except SampleFailure JsonObject :=
  match Json.get schema "$ref" with
  | some (.string reference) => do
    ensure (reference.startsWith "#/") SampleFailure.value
    match ← followPointer (.object root) ((reference.drop 2).splitOn '/') with
    | .object fields => return fields
    | _ => throw .value
  | _ => .ok schema

/-- `_sample_is_valid` -/
def sampleIsValid (root schema : JsonObject) (candidate : Json) : Bool :=
  match Json.get schema "$defs", Json.get root "$defs" with
  | none, some (.object definitions) => tools.isValid (Json.set schema "$defs" (.object definitions)) candidate
  | _, _ => tools.isValid schema candidate

/-! ## Containers -/

/-- What is sampled without a look at the type. -/
def presetOf (schema : JsonObject) : Option Json :=
  match ([("const" : Text), ("default" : Text), ("example" : Text)]).findSome? (Json.get schema) with
  | some value => some value
  | none =>
    match Json.get schema "examples", Json.get schema "enum" with
    | some (.array (first :: _)), _ => some first
    | _, some (.array (first :: _)) => some first
    | _, _ => none

def typeOf (schema : JsonObject) : Option Json :=
  match Json.get schema "type" with
  | some (.array types) =>
    let named := types.filter fun type =>
      match type with
      | .string name => name ≠ "null"
      | _ => false
    some (named.head?.getD (.string "null"))
  | some .null | none =>
    match Json.get schema "properties", Json.get schema "items" with
    | some (.object _), _ => some (.string "object")
    | _, some (.object _) => some (.string "array")
    | _, _ => none
  | type => type

def requiredNames (schema : JsonObject) : List Text :=
  match Json.get schema "required" with
  | some (.array names) => names.filterMap fun name =>
    match name with
    | .string name => some name
    | _ => none
  | _ => []

variable (recurse : JsonObject → Except SampleFailure Json)

/-- The branches of `oneOf` or `anyOf` in order, until the sample of one is valid. -/
def firstValid (root schema : JsonObject) : List Json → Except SampleFailure (Option Json)
  | .object branch :: rest =>
    match recurse branch with
    | .ok candidate => if sampleIsValid tools root schema candidate then .ok (some candidate) else firstValid root schema rest
    | .error .value => firstValid root schema rest
    | .error failure => .error failure
  | _ :: rest => firstValid root schema rest
  | [] => .ok none

def alternatives (root schema : JsonObject) (key : Text) : Except SampleFailure (Option Json) :=
  match Json.get schema key with
  | some (.array branches) => firstValid tools recurse root schema branches
  | _ => .ok none

/-- One round of the loop over the branches of `allOf`. -/
def mergeBranch (merged : JsonObject) : Json → Except SampleFailure JsonObject
  | .object branch => do
    match ← recurse branch with
    | .object fields => return fields.foldl (fun merged field => Json.set merged field.1 field.2) merged
    | _ => return merged
  | _ => .ok merged

def combination (root schema : JsonObject) : Except SampleFailure (Option Json) :=
  match Json.get schema "allOf" with
  | some (.array branches) => do
    let merged ← branches.foldlM (mergeBranch recurse) []
    return if sampleIsValid tools root schema (.object merged) then some (.object merged) else none
  | _ => .ok none

/-- One round of the loop over the properties. -/
def sampleProperty (required : List Text) (includeOptional : Bool) (value : JsonObject) (property : Text × Json) :
    Except SampleFailure JsonObject :=
  match property with
  | (name, .object schema) =>
    if !includeOptional && !required.contains name then .ok value
    else
      match recurse schema with
      | .ok sample => .ok (Json.set value name sample)
      | .error .value => if required.contains name then .error .value else .ok value
      | .error failure => .error failure
  | _ => .ok value

def sampleObject (includeOptional : Bool) (schema : JsonObject) : Except SampleFailure Json :=
  match Json.get schema "properties" with
  | none => .ok (.object [])
  | some (.object properties) => do
    let value ← properties.foldlM (sampleProperty recurse (requiredNames schema) includeOptional) []
    return .object value
  | some _ => .error .value

def sampleArray (schema : JsonObject) : Except SampleFailure Json :=
  let minimum := max 0 (integerKeyword (Json.get schema "minItems") 0)
  let maximum := integerKeyword (Json.get schema "maxItems") (max 1 minimum)
  let count := (min maximum (max 1 minimum)).toNat
  if maximum = 0 then .ok (.array [])
  else
    match Json.get schema "items" with
    | some (.object items) => do
      let samples ← (List.replicate count items).mapM recurse
      return .array samples
    | _ => .ok (.array (List.replicate count .null))

def sampleTyped (includeOptional : Bool) (schema : JsonObject) : Except SampleFailure Json :=
  match typeOf schema with
  | some (.string type) =>
    if type = "object" then sampleObject recurse includeOptional schema
    else if type = "array" then sampleArray recurse schema
    else if type = "string" then sampleString tools schema
    else if type = "integer" then sampleNumber tools schema true
    else if type = "number" then sampleNumber tools schema false
    else if type = "boolean" then .ok (.bool true)
    else .ok .null
  | _ => .ok .null

/-- The body of `_sample` for a schema that is not empty, with the samples of the schemas within it. -/
def sampleWithin (root : JsonObject) (includeOptional : Bool) (rawSchema : JsonObject) : Except SampleFailure Json := do
  let schema ← dereference root rawSchema
  match presetOf schema with
  | some value => return value
  | none =>
    if let some candidate ← alternatives tools recurse root schema "oneOf" then return candidate
    if let some candidate ← alternatives tools recurse root schema "anyOf" then return candidate
    if let some merged ← combination tools recurse root schema then return merged
    sampleTyped tools recurse includeOptional schema

end

/-- `_sample`, by the number of levels that are left. -/
def sample (tools : Tools) (root : JsonObject) (includeOptional : Bool) : Nat → JsonObject → Except SampleFailure Json
  | _, [] => .ok .null
  | 0, _ :: _ => .error .value
  | levels + 1, rawSchema => sampleWithin tools (sample tools root includeOptional levels) root includeOptional rawSchema

end Mcplica.Runtime.Sampling
