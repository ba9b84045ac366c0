import Mcplica.Parsers.Identifiers
import Mcplica.Parsers.Materialization
import Mcplica.Parsers.References

/-! # API Inventory schemas

`_materialize_schema` of the API Inventory parser. A reference is either local to the resource it stands in or names
a schema of the inventory; the first kind is identified by its pointer as written, the second by the pointer that
remains after the name of the schema. -/

namespace Mcplica.Parsers

open Mcplica.Library
open Mcplica.Contracts
open Mcplica.Domain

/-! ## Pointers -/

/-- `_pointer_tokens` -/
def pointerTokens (pointer : Text) : Except SourceError (List Text) :=
  if pointer = [] || pointer = "#" then .ok []
  else
    match (if pointer.startsWith "#" then pointer.tail else pointer) with
    | '/' :: tokens => .ok ((tokens.splitOn '/').map fun token => unescapePointerToken (Text.unquote token))
    | _ => referenceResolutionError (("Unsupported API Inventory JSON pointer: " : Text) ++ pointer)

/-- `_traverse_pointer`; `int` raises on digits that are not decimal. -/
def traversePointer (unicode : Unicode) (pointer : Text) : List Text → Json → Except SourceError Json
  | [], node => .ok node
  | token :: rest, node =>
    let unresolved := referenceResolutionError (("Unresolved API Inventory $ref: " : Text) ++ pointer)
    match node with
    | .object fields =>
      match Json.get fields token with
      | some value => traversePointer unicode pointer rest value
      | none => unresolved
    | .array items =>
      if token.isDigit unicode && (token = "0" || !token.startsWith "0") then do
        let index ← orValueError (token.int unicode)
        match items[index]? with
        | some value => traversePointer unicode pointer rest value
        | none => unresolved
      else
        unresolved
    | _ => unresolved

/-! ## References -/

/-- The resource a schema belongs to: its root and its name. -/
structure InventoryContext where
  root : JsonObject
  resourceId : Text

structure InventoryPlace where
  context : InventoryContext
  /-- The pointer as the reference has it. -/
  pointer : Text
  nestedPointer : Text
  node : Json

/-- The name and the rest of a pointer into the schemas of the inventory. -/
def namedSchema? : List Text → Option (Text × List Text)
  | first :: name :: nested => if first = "schemas" then some (name, nested) else none
  | _ => none

def inventoryLocate (unicode : Unicode) (schemas : List (Text × JsonObject)) (context : InventoryContext)
    (reference : Text) : Except SourceError InventoryPlace := do
  let (documentRef, fragment) ← orValueError (urldefrag unicode reference)
  if documentRef ≠ [] then
    referenceResolutionError "API Inventory external schema refs require an immutable linked source"
  else
    let pointer : Text := if fragment = [] then "#" else '#' :: fragment
    let tokens ← pointerTokens pointer
    match namedSchema? tokens with
    | some (name, nested) =>
      match schemas.lookup name with
      | none => referenceResolutionError (("Unresolved API Inventory schema ref: " : Text) ++ reference)
      | some target => do
        let node ← traversePointer unicode pointer nested (.object target)
        let nestedPointer : Text := if nested = [] then "#" else ("#/" : Text) ++ Text.join "/" (nested.map pointerToken)
        return ⟨⟨target, ("#/schemas/" : Text) ++ pointerToken name⟩, pointer, nestedPointer, node⟩
    | none => do
      let node ← traversePointer unicode pointer tokens (.object context.root)
      return ⟨context, pointer, pointer, node⟩

/-! ## Materialization -/

def singleSchemaKeywords : List Text :=
  ["additionalProperties", "contains", "contentSchema", "else", "if", "items", "not", "propertyNames", "then",
    "unevaluatedItems", "unevaluatedProperties"]

def schemaArrayKeywords : List Text :=
  ["allOf", "anyOf", "oneOf", "prefixItems"]

def inventorySchemaMapKeywords : List Text :=
  ["$defs", "definitions", "dependentSchemas", "patternProperties", "properties"]

def inventoryDescent : Descent where
  intoLists := false
  position key :=
    if singleSchemaKeywords.contains key then .schema
    else if schemaArrayKeywords.contains key then .schemas
    else if inventorySchemaMapKeywords.contains key then .schemaMap
    else .data

section Inventory

/-! The digest is `sha256(text.encode()).hexdigest()[:20]`. -/

variable (unicode : Unicode) (digest : Text → Text) (schemas : List (Text × JsonObject)) (sourceVersionId : Uuid)
  (location : Text)

def inventoryKey (place : InventoryPlace) : Text :=
  ("mcplica_ref_" : Text) ++
    digest (Text.ofUuid sourceVersionId ++ ':' :: place.context.resourceId ++ ':' :: place.pointer)

def inventoryParser : Materializer InventoryContext InventoryPlace (Text × Text) where
  descent := inventoryDescent
  invalid := .parse .referenceResolution (("Invalid API Inventory $ref at " : Text) ++ location) none none
  locate := inventoryLocate unicode schemas
  schemaAt place :=
    match place.node with
    | .object fields => .ok fields
    | _ => referenceResolutionError []
  unreadable reference _ :=
    .parse .referenceResolution (("API Inventory schema ref is not an object: " : Text) ++ reference) none none
  context := InventoryPlace.context
  key := inventoryKey digest sourceVersionId
  identity place := (place.context.resourceId, place.nestedPointer)
  attributing _ error := error

/-- The definitions of a schema. -/
def definitionsOf (schema : JsonObject) : JsonObject :=
  match Json.get schema "$defs" with
  | some (.object definitions) => definitions
  | _ => []

/-- `_materialize_schema` -/
def materializeInventorySchema (fuel : Nat) (schema : JsonObject) : Except SourceError JsonObject := do
  let (materialized, definitions) ←
    (inventoryParser unicode digest schemas sourceVersionId location).walk fuel [] ⟨schema, location⟩ (.object schema) []
  match materialized with
  | .object materialized =>
    if definitions.isEmpty then return materialized
    else
      let existing := definitionsOf materialized
      if existing.any fun entry => (Json.get definitions entry.1).isSome then
        referenceResolutionError "Generated API Inventory definition key collided"
      else
        return Json.set materialized "$defs" (.object (existing ++ definitions))
  | _ => .error .value

end Inventory

variable {unicode : Unicode} {digest : Text → Text} {schemas : List (Text × JsonObject)} {sourceVersionId : Uuid}
  {location : Text} {fuel : Nat} {schema result : JsonObject}

/-- The merged definitions have the generated ones under their keys. -/
theorem materializeInventorySchema_eq_ok
    (materialized : materializeInventorySchema unicode digest schemas sourceVersionId location fuel schema = .ok result) :
    ∃ fields definitions, (inventoryParser unicode digest schemas sourceVersionId location).walk fuel [] ⟨schema, location⟩
        (.object schema) [] = .ok (.object fields, definitions) ∧
      ∀ key ∈ definitions.map Prod.fst, Json.get (definitionsOf result) key = Json.get definitions key := by
  unfold materializeInventorySchema at materialized
  rw [bind_eq_ok] at materialized
  obtain ⟨⟨node, definitions⟩, walked, materialized⟩ := materialized
  cases node with
  | object fields =>
    refine ⟨fields, definitions, walked, fun key isKey => ?_⟩
    have some : ¬ definitions.isEmpty = true := by
      rw [List.isEmpty_iff]
      rintro rfl
      cases isKey
    change (if definitions.isEmpty = true then _ else _) = _ at materialized
    rw [if_neg some] at materialized
    change (if _ then _ else _) = _ at materialized
    split at materialized
    · cases materialized
    · rename_i apart
      cases materialized
      have notExisting : Json.get (definitionsOf fields) key = none := by
        rw [← Option.not_isSome_iff_eq_none, Json.get_isSome]
        intro isExisting
        obtain ⟨entry, isEntry, rfl⟩ := List.mem_map.mp isExisting
        exact apart (List.any_eq_true.mpr ⟨entry, isEntry, Json.get_isSome.mpr isKey⟩)
      have merged : definitionsOf (Json.set fields "$defs" (.object (definitionsOf fields ++ definitions))) =
          definitionsOf fields ++ definitions := by
        rw [definitionsOf, Json.get_set_self]
      rw [merged]
      unfold Json.get at notExisting ⊢
      rw [List.lookup_append, notExisting, Option.none_or]
  | null => cases materialized
  | bool _ => cases materialized
  | number _ _ => cases materialized
  | string _ => cases materialized
  | array _ => cases materialized

end Mcplica.Parsers
