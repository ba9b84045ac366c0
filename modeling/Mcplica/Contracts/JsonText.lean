import Mcplica.Contracts.Json
import Mcplica.Library.Infixes
import Mcplica.Library.Uuid

/-! # Other texts of JSON values

`json.dumps` with escapes for everything beyond ASCII, and with indentation. What is searched for in the former is found
in a string, a key or a number of the value, if it has nothing that is escaped. -/

namespace Mcplica.Contracts.Json

open Mcplica.Library

/-! ## ASCII -/

/-- `\uXXXX` of a code unit -/
def escapeUnit (value : Nat) : Text :=
  '\\' :: 'u' :: Text.hexDigits 4 value

/-- What is beyond the basic plane is written as two surrogates. -/
def escapeAscii (character : Char) : Text :=
  match character with
  | '"' => "\\\""
  | '\\' => "\\\\"
  | '\n' => "\\n"
  | '\r' => "\\r"
  | '\t' => "\\t"
  | _ =>
    if character.toNat = 8 then "\\b"
    else if character.toNat = 12 then "\\f"
    else if 32 ≤ character.toNat ∧ character.toNat ≤ 126 then [character]
    else if character.toNat < 0x10000 then escapeUnit character.toNat
    else
      escapeUnit (0xd800 + (character.toNat - 0x10000) / 0x400) ++
        escapeUnit (0xdc00 + (character.toNat - 0x10000) % 0x400)

def quoteAscii (text : Text) : Text :=
  '"' :: text.flatMap escapeAscii ++ ['"']

mutual

/-- `json.dumps(value, ensure_ascii=True, sort_keys=True, separators=(",", ":"))` -/
def ascii : Json → Text
  | .null => "null"
  | .bool true => "true"
  | .bool false => "false"
  | .number _ literal => literal
  | .string value => quoteAscii value
  | .array items => '[' :: Text.join [','] (asciiItems items) ++ [']']
  | .object fields =>
    let sorted := Text.sortedBy Prod.fst (asciiFields fields)
    Char.ofNat 0x7b :: Text.join [','] (sorted.map fun entry => quoteAscii entry.1 ++ ':' :: entry.2) ++ [Char.ofNat 0x7d]

def asciiItems : List Json → List Text
  | [] => []
  | item :: rest => ascii item :: asciiItems rest

def asciiFields : JsonObject → List (Text × Text)
  | [] => []
  | (key, value) :: rest => (key, ascii value) :: asciiFields rest

end

/-! ## Indentation -/

def newLine (level : Nat) : Text :=
  '\n' :: List.replicate (2 * level) ' '

mutual

/-- `json.dumps(value, ensure_ascii=False, indent=2, sort_keys=True, separators=(",", ": "))` at a level of nesting -/
def indented : Json → Nat → Text
  | .array (item :: rest), level =>
    '[' :: newLine (level + 1) ++ Text.join (',' :: newLine (level + 1)) (indentedItems (item :: rest) (level + 1)) ++
      newLine level ++ [']']
  | .object (field :: rest), level =>
    let sorted := Text.sortedBy Prod.fst (indentedFields (field :: rest) (level + 1))
    Char.ofNat 0x7b :: newLine (level + 1) ++
      Text.join (',' :: newLine (level + 1)) (sorted.map fun entry => quote entry.1 ++ (": " : Text) ++ entry.2) ++
      newLine level ++ [Char.ofNat 0x7d]
  | value, _ => canonical value

def indentedItems : List Json → Nat → List Text
  | [], _ => []
  | item :: rest, level => indented item level :: indentedItems rest level

def indentedFields : JsonObject → Nat → List (Text × Text)
  | [], _ => []
  | (key, value) :: rest, level => (key, indented value level) :: indentedFields rest level

end

example : indented (.object [entry "b" (.array [.null, .object []]), entry "a" (.text "x")]) 0 =
    ("\x7b\n  \"a\": \"x\",\n  \"b\": [\n    null,\n    \x7b\x7d\n  ]\n\x7d" : Text) := by decide

/-! ## Searching -/

mutual

/-- The strings, the keys and the numbers as they are written. -/
def tokens : Json → List Text
  | .number _ literal => [literal]
  | .string value => [value]
  | .array items => tokensOfItems items
  | .object fields => tokensOfFields fields
  | .null | .bool _ => []

def tokensOfItems : List Json → List Text
  | [] => []
  | item :: rest => tokens item ++ tokensOfItems rest

def tokensOfFields : JsonObject → List Text
  | [] => []
  | (key, value) :: rest => key :: tokens value ++ tokensOfFields rest

end

/-- What is written between strings and numbers, and the quotes around strings. -/
def delimiters : Text :=
  ['"', ',', ':', '[', ']', Char.ofNat 0x7b, Char.ofNat 0x7d]

/-- A reference into a document that is written without escapes. -/
structure Searchable (reference : Text) : Prop where
  begins : ∃ rest, reference = '#' :: rest
  verbatim : ∀ character ∈ reference, escapeAscii character = [character] ∧ character ∉ '\\' :: delimiters

theorem number_not_mem_escapeUnit (value : Nat) : '#' ∉ escapeUnit value := by
  have digits : ∀ count value, '#' ∉ Text.hexDigits count value := by
    intro count
    induction count with
    | zero => exact fun value => List.not_mem_nil
    | succ count ih =>
      have digit : ∀ digit < 16, Nat.digitChar digit ≠ '#' := by decide
      intro value member
      rcases List.mem_append.mp member with before | last
      · exact ih _ before
      · exact digit (value % 16) (by omega) (List.mem_singleton.mp last).symm
  intro member
  rcases List.mem_cons.mp member with impossible | later
  · exact absurd impossible (by decide)
  rcases List.mem_cons.mp later with impossible | inDigits
  · exact absurd impossible (by decide)
  · exact digits 4 value inDigits

/-- A character is written as itself, or behind a backslash without a number sign. -/
theorem escapeAscii_cases (character : Char) :
    escapeAscii character = [character] ∨ ∃ tail, escapeAscii character = '\\' :: tail ∧ '#' ∉ tail := by
  have short : ∀ text : Text, '#' ∉ text → ∃ tail, '\\' :: text = '\\' :: tail ∧ '#' ∉ tail :=
    fun text absent => ⟨text, rfl, absent⟩
  have unit : ∀ value, '#' ∉ 'u' :: Text.hexDigits 4 value := fun value member =>
    number_not_mem_escapeUnit value (List.mem_cons_of_mem _ member)
  unfold escapeAscii
  split
  · exact .inr (short _ (by decide))
  · exact .inr (short _ (by decide))
  · exact .inr (short _ (by decide))
  · exact .inr (short _ (by decide))
  · exact .inr (short _ (by decide))
  · split
    · exact .inr (short _ (by decide))
    split
    · exact .inr (short _ (by decide))
    split
    · exact .inl rfl
    split
    · exact .inr (short _ (unit _))
    · refine .inr (short _ fun member => ?_)
      rcases List.mem_append.mp member with inFirst | inSecond
      · exact unit _ inFirst
      · exact number_not_mem_escapeUnit _ inSecond

section Searching

variable {reference : Text}

theorem Searchable.nonempty (searchable : Searchable reference) : reference ≠ [] := by
  obtain ⟨rest, rfl⟩ := searchable.begins
  exact List.cons_ne_nil _ _

theorem Searchable.absent (searchable : Searchable reference) {character : Char} (delimits : character ∈ delimiters) :
    character ∉ reference :=
  fun member => (searchable.verbatim character member).2 (List.mem_cons_of_mem _ delimits)

theorem Searchable.infix_quoteAscii_iff (searchable : Searchable reference) {text : Text} :
    reference <:+: quoteAscii text ↔ reference <:+: text := by
  have absent : '"' ∉ reference := searchable.absent (by decide)
  unfold quoteAscii
  rw [List.cons_append, infix_cons_iff_of_not_mem searchable.nonempty absent,
    infix_concat_iff_of_not_mem searchable.nonempty absent]
  obtain ⟨rest, rfl⟩ := searchable.begins
  refine infix_flatMap_escape escapeAscii_cases fun character member => ?_
  obtain ⟨asItself, plain⟩ := searchable.verbatim character member
  exact ⟨asItself, fun isMarker => plain (isMarker ▸ List.mem_cons_self)⟩

/-- What is written between delimiters is searched part by part. -/
theorem Searchable.infix_bracketed_iff (searchable : Searchable reference) {opening closing : Char} {texts : List Text}
    (opens : opening ∈ delimiters) (closes : closing ∈ delimiters) :
    reference <:+: opening :: Text.join [','] texts ++ [closing] ↔ ∃ text ∈ texts, reference <:+: text := by
  rw [List.cons_append, infix_cons_iff_of_not_mem searchable.nonempty (searchable.absent opens),
    infix_concat_iff_of_not_mem searchable.nonempty (searchable.absent closes),
    infix_join_iff searchable.nonempty (searchable.absent (by decide))]

theorem Searchable.not_infix (searchable : Searchable reference) {text : Text} (absent : '#' ∉ text) :
    ¬ reference <:+: text := by
  obtain ⟨rest, rfl⟩ := searchable.begins
  exact fun found => absent (found.subset List.mem_cons_self)

mutual

/-- A reference stands in the text of a value exactly when it stands in one of its strings, keys and numbers. -/
theorem infix_ascii_iff (searchable : Searchable reference) : ∀ value : Json,
    reference <:+: value.ascii ↔ ∃ token ∈ value.tokens, reference <:+: token
  | .null => by
    refine iff_of_false (searchable.not_infix (by decide)) ?_
    rintro ⟨token, member, -⟩
    cases member
  | .bool true => by
    refine iff_of_false (searchable.not_infix (by decide)) ?_
    rintro ⟨token, member, -⟩
    cases member
  | .bool false => by
    refine iff_of_false (searchable.not_infix (by decide)) ?_
    rintro ⟨token, member, -⟩
    cases member
  | .number _ literal => by simp [ascii, tokens]
  | .string text => by
    rw [ascii, searchable.infix_quoteAscii_iff]
    simp [tokens]
  | .array items => by
    rw [ascii, searchable.infix_bracketed_iff (by decide) (by decide), infix_asciiItems_iff searchable items, tokens]
  | .object fields => by
    rw [ascii, searchable.infix_bracketed_iff (by decide) (by decide), tokens, ← infix_asciiFields_iff searchable fields]
    simp only [List.mem_map, Text.mem_sortedBy, exists_exists_and_eq_and]
    have absent : ':' ∉ reference := searchable.absent (by decide)
    simp only [infix_append_cons_iff absent, searchable.infix_quoteAscii_iff]

theorem infix_asciiItems_iff (searchable : Searchable reference) : ∀ items : List Json,
    (∃ text ∈ asciiItems items, reference <:+: text) ↔ ∃ token ∈ tokensOfItems items, reference <:+: token
  | [] => by simp [asciiItems, tokensOfItems]
  | item :: rest => by
    rw [asciiItems, tokensOfItems]
    simp only [List.mem_cons, List.mem_append, or_and_right, exists_or, exists_eq_left]
    rw [infix_ascii_iff searchable item, infix_asciiItems_iff searchable rest]

theorem infix_asciiFields_iff (searchable : Searchable reference) : ∀ fields : JsonObject,
    (∃ entry ∈ asciiFields fields, reference <:+: entry.1 ∨ reference <:+: entry.2) ↔
      ∃ token ∈ tokensOfFields fields, reference <:+: token
  | [] => by simp [asciiFields, tokensOfFields]
  | (key, value) :: rest => by
    rw [asciiFields, tokensOfFields]
    simp only [List.mem_cons, List.cons_append, List.mem_append, or_and_right, exists_or, exists_eq_left]
    rw [infix_ascii_iff searchable value, infix_asciiFields_iff searchable rest, or_assoc]

end

end Searching

end Mcplica.Contracts.Json
