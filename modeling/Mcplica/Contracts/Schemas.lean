import Mcplica.Contracts.Json

/-! # The JSON Schema meta-schema

`Draft202012Validator.check_schema`. The meta-schema of draft 2020-12 constrains every keyword on its own;
the laws below are what it says about the keywords that the compiler writes. -/

namespace Mcplica.Contracts

open Mcplica.Library

def simpleTypes : List Text :=
  ["array", "boolean", "integer", "null", "number", "object", "string"].map String.toList

/-- The keywords whose value is a dictionary of schemas. -/
def schemaMapKeywords : List Text :=
  ["$defs", "properties"].map String.toList

structure MetaSchema where
  check : Json → Bool
  keyword : Text → Json → Bool
  boolean : ∀ value, check (.bool value) = true
  object : ∀ fields, check (.object fields) = fields.all fun field => keyword field.1 field.2
  schemaMap : ∀ key ∈ schemaMapKeywords, ∀ fields,
    keyword key (.object fields) = fields.all fun field => check field.2
  /-- Only a dictionary is a dictionary of schemas. -/
  schemaMapOnly : ∀ key ∈ schemaMapKeywords, ∀ value, keyword key value = true → ∃ fields, value = .object fields
  additionalProperties : ∀ value, keyword "additionalProperties" value = check value
  anyOf : ∀ items, keyword "anyOf" (.array items) = (!items.isEmpty && items.all check)
  type : ∀ name ∈ simpleTypes, keyword "type" (.string name) = true
  required : ∀ names : List Text, names.Nodup → keyword "required" (.array (names.map .string)) = true
  bounds : ∀ value literal, keyword "minimum" (.number value literal) = true ∧
    keyword "maximum" (.number value literal) = true
  description : ∀ value, keyword "description" (.string value) = true
  contentEncoding : ∀ value, keyword "contentEncoding" (.string value) = true

/-! ## A reading of the meta-schema -/

mutual

/-- The meta-schema on the keywords whose values are schemas; other keywords are not looked at. -/
def checkDraft : Json → Bool
  | .bool _ => true
  | .object fields => checkKeywords fields
  | _ => false

def checkKeyword (key : Text) : Json → Bool
  | .object fields =>
    if schemaMapKeywords.contains key then checkSchemas fields
    else if key = "additionalProperties" then checkKeywords fields
    else true
  | .array items =>
    if schemaMapKeywords.contains key || key = "additionalProperties" then false
    else if key = "anyOf" then !items.isEmpty && checkItems items
    else true
  | .bool _ => !schemaMapKeywords.contains key
  | _ => !schemaMapKeywords.contains key && key ≠ "additionalProperties"

def checkKeywords : JsonObject → Bool
  | [] => true
  | (key, value) :: rest => checkKeyword key value && checkKeywords rest

def checkSchemas : JsonObject → Bool
  | [] => true
  | (_, value) :: rest => checkDraft value && checkSchemas rest

def checkItems : List Json → Bool
  | [] => true
  | item :: rest => checkDraft item && checkItems rest

end

theorem checkKeywords_eq_all (fields : JsonObject) :
    checkKeywords fields = fields.all fun field => checkKeyword field.1 field.2 := by
  induction fields with
  | nil => rfl
  | cons field rest ih => simp [checkKeywords, ih]

theorem checkSchemas_eq_all (fields : JsonObject) : checkSchemas fields = fields.all fun field => checkDraft field.2 := by
  induction fields with
  | nil => rfl
  | cons field rest ih => simp [checkSchemas, ih]

theorem checkItems_eq_all (items : List Json) : checkItems items = items.all checkDraft := by
  induction items with
  | nil => rfl
  | cons item rest ih => simp [checkItems, ih]

def draft202012 : MetaSchema where
  check := checkDraft
  keyword := checkKeyword
  boolean _ := rfl
  object fields := checkKeywords_eq_all fields
  schemaMap key isMap fields := by
    rw [← checkSchemas_eq_all]
    simp [checkKeyword, isMap]
  schemaMapOnly key isMap value passed := by
    have isMap : schemaMapKeywords.contains key = true := List.contains_iff_mem.mpr isMap
    cases value with
    | object fields => exact ⟨fields, rfl⟩
    | null | bool | number | string | array =>
      simp only [checkKeyword, isMap, Bool.not_true, Bool.false_and, Bool.true_or, if_true] at passed
      cases passed
  additionalProperties value := by
    have notMap : schemaMapKeywords.contains ("additionalProperties" : Text) = false := by decide
    cases value <;> simp only [checkKeyword, notMap, checkDraft] <;> rfl
  anyOf items := by
    have notMap : schemaMapKeywords.contains ("anyOf" : Text) = false := by decide
    have different : ("anyOf" : Text) ≠ ("additionalProperties" : Text) := by decide
    rw [← checkItems_eq_all]
    simp only [checkKeyword, notMap, different, decide_false, Bool.or_false, Bool.false_eq_true, if_false, if_true]
  type _ _ := rfl
  required _ _ := rfl
  bounds _ _ := ⟨rfl, rfl⟩
  description _ := rfl
  contentEncoding _ := rfl

end Mcplica.Contracts
