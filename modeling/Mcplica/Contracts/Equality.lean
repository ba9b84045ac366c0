import Mcplica.Contracts.Canonical
import Mcplica.Contracts.CanonicalText

/-! # Decidable equality

Values, and the models that hold schemas, are compared as they stand, with the order of their keys. -/

namespace Mcplica.Contracts

open Mcplica.Library

namespace Json

mutual

/-- Whether two values are one. -/
def isEqual : Json → Json → Bool
  | .null, .null => true
  | .bool value, .bool other => value = other
  | .number value literal, .number other otherLiteral => value = other && literal = otherLiteral
  | .string value, .string other => value = other
  | .array items, .array others => areEqualItems items others
  | .object fields, .object others => areEqualFields fields others
  | _, _ => false

def areEqualItems : List Json → List Json → Bool
  | [], [] => true
  | item :: rest, other :: others => isEqual item other && areEqualItems rest others
  | _, _ => false

def areEqualFields : JsonObject → JsonObject → Bool
  | [], [] => true
  | (key, value) :: rest, (otherKey, other) :: others => key = otherKey && isEqual value other && areEqualFields rest others
  | _, _ => false

end

mutual

theorem isEqual_iff : ∀ value other : Json, isEqual value other = true ↔ value = other
  | .array items, other => by
    cases other <;> simp [isEqual, areEqualItems_iff items]
  | .object fields, other => by
    cases other <;> simp [isEqual, areEqualFields_iff fields]
  | .null, other | .bool _, other | .number .., other | .string _, other => by
    cases other <;> simp [isEqual]

theorem areEqualItems_iff : ∀ items others : List Json, areEqualItems items others = true ↔ items = others
  | [], others => by
    cases others <;> simp [areEqualItems]
  | item :: rest, others => by
    cases others <;> simp [areEqualItems, isEqual_iff item, areEqualItems_iff rest]

theorem areEqualFields_iff : ∀ fields others : JsonObject, areEqualFields fields others = true ↔ fields = others
  | [], others => by
    cases others <;> simp [areEqualFields]
  | (key, value) :: rest, others => by
    cases others <;> simp [areEqualFields, isEqual_iff value, areEqualFields_iff rest, Prod.ext_iff]

end

instance : DecidableEq Json :=
  fun value other => decidable_of_iff _ (isEqual_iff value other)

/-! ## Literals -/

mutual

def decidableWritten : (value : Json) → Decidable value.Written
  | .number _ literal => inferInstanceAs (Decidable (isNumberLiteral literal = true))
  | .array items => decidableWrittenItems items
  | .object fields => decidableWrittenFields fields
  | .null | .bool _ | .string _ => isTrue trivial

def decidableWrittenItems : (items : List Json) → Decidable (WrittenItems items)
  | [] => isTrue trivial
  | item :: rest => @instDecidableAnd _ _ (decidableWritten item) (decidableWrittenItems rest)

def decidableWrittenFields : (fields : JsonObject) → Decidable (WrittenFields fields)
  | [] => isTrue trivial
  | (_, value) :: rest => @instDecidableAnd _ _ (decidableWritten value) (decidableWrittenFields rest)

end

instance : DecidablePred Json.Written :=
  decidableWritten

end Json

deriving instance DecidableEq for CanonicalParameter, CanonicalMediaType, CanonicalRequestBody, CanonicalResponse,
  CanonicalOperation

end Mcplica.Contracts
