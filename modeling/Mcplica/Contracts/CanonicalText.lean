import Mathlib.Data.List.Basic
import Mathlib.Tactic.IntervalCases
import Mcplica.Contracts.Json
import Mcplica.Library.Checks

/-! # Reading canonical text back

The canonical text of a value determines the value up to the order of its dictionaries: a value is read off the front
of a longer text in one way only. -/

namespace Mcplica.Contracts.Json

open Mcplica.Library

/-! ## Delimited texts -/

/-- What may come after a value. -/
def Follows (rest : Text) : Prop :=
  ∀ character ∈ rest.head?, character = ',' ∨ character = ']' ∨ character = Char.ofNat 0x7d

/-- Among the tokens, only the text itself is read off the front of a text that goes on as after a value. -/
def Delimited (isToken : Text → Prop) (text : Text) : Prop :=
  ∀ other rest otherRest, isToken other → Follows rest → Follows otherRest → text ++ rest = other ++ otherRest →
    text = other ∧ rest = otherRest

theorem follows_cons {character : Char} {rest : Text}
    (closes : character = ',' ∨ character = ']' ∨ character = Char.ofNat 0x7d) : Follows (character :: rest) := by
  intro first isFirst
  cases isFirst
  exact closes

/-- The texts after the first one, each behind its comma. -/
def continued (texts : List Text) : Text :=
  texts.flatMap (',' :: ·)

theorem join_cons (first : Text) (rest : List Text) : Text.join "," (first :: rest) = first ++ continued rest := by
  induction rest generalizing first with
  | nil => simp [Text.join, continued]
  | cons second rest ih =>
    rw [Text.join_cons_cons, ih second]
    rfl

section Lists

variable {isToken : Text → Prop} {closing : Char} {texts others : List Text} {rest otherRest : Text}

theorem follows_continued (closes : closing = ']' ∨ closing = Char.ofNat 0x7d) :
    Follows (continued texts ++ closing :: rest) := by
  cases texts with
  | nil => exact follows_cons (.inr closes)
  | cons text texts => exact follows_cons (.inl rfl)

theorem continued_inj (closes : closing = ']' ∨ closing = Char.ofNat 0x7d)
    (delimited : ∀ text ∈ texts, Delimited isToken text) (tokens : ∀ text ∈ others, isToken text)
    (same : continued texts ++ closing :: rest = continued others ++ closing :: otherRest) :
    texts = others ∧ rest = otherRest := by
  have notComma : closing ≠ ',' := by
    rcases closes with rfl | rfl <;> decide
  induction texts generalizing others with
  | nil =>
    cases others with
    | nil => exact ⟨rfl, (List.cons.inj same).2⟩
    | cons other others => exact absurd (List.cons.inj same).1 notComma
  | cons text texts ih =>
    cases others with
    | nil => exact absurd (List.cons.inj same).1.symm notComma
    | cons other others =>
      have tails : text ++ (continued texts ++ closing :: rest) = other ++ (continued others ++ closing :: otherRest) := by
        simpa [continued] using same
      obtain ⟨rfl, later⟩ := delimited text List.mem_cons_self other _ _ (tokens other List.mem_cons_self)
        (follows_continued closes) (follows_continued closes) tails
      obtain ⟨rfl, sameRest⟩ := ih (fun text member => delimited text (List.mem_cons_of_mem _ member))
        (fun text member => tokens text (List.mem_cons_of_mem _ member)) later
      exact ⟨rfl, sameRest⟩

/-- A list of tokens between brackets is read in one way only. -/
theorem joined_inj (closes : closing = ']' ∨ closing = Char.ofNat 0x7d)
    (begins : ∀ text, isToken text → ∃ first tail, text = first :: tail ∧ first ≠ closing)
    (areTokens : ∀ text ∈ texts, isToken text) (delimited : ∀ text ∈ texts, Delimited isToken text)
    (tokens : ∀ text ∈ others, isToken text)
    (same : Text.join "," texts ++ closing :: rest = Text.join "," others ++ closing :: otherRest) :
    texts = others ∧ rest = otherRest := by
  cases texts with
  | nil =>
    cases others with
    | nil => exact ⟨rfl, (List.cons.inj same).2⟩
    | cons other others =>
      obtain ⟨first, tail, rfl, notClosing⟩ := begins other (tokens other List.mem_cons_self)
      rw [join_cons] at same
      exact absurd (List.cons.inj same).1.symm notClosing
  | cons text texts =>
    cases others with
    | nil =>
      obtain ⟨first, tail, rfl, notClosing⟩ := begins text (areTokens text List.mem_cons_self)
      rw [join_cons] at same
      exact absurd (List.cons.inj same).1 notClosing
    | cons other others =>
      have tails : text ++ (continued texts ++ closing :: rest) = other ++ (continued others ++ closing :: otherRest) := by
        rwa [join_cons, join_cons, List.append_assoc, List.append_assoc] at same
      obtain ⟨rfl, later⟩ := delimited text List.mem_cons_self other _ _ (tokens other List.mem_cons_self)
        (follows_continued closes) (follows_continued closes) tails
      obtain ⟨rfl, sameRest⟩ := continued_inj closes (fun text member => delimited text (List.mem_cons_of_mem _ member))
        (fun text member => tokens text (List.mem_cons_of_mem _ member)) later
      exact ⟨rfl, sameRest⟩

end Lists

/-! ## Strings -/

/-- The character that the front of an escaped text stands for. -/
def unescape : Text → Option (Char × Text)
  | '\\' :: 'n' :: rest => some ('\n', rest)
  | '\\' :: 'r' :: rest => some ('\r', rest)
  | '\\' :: 't' :: rest => some ('\t', rest)
  | '\\' :: 'b' :: rest => some (Char.ofNat 8, rest)
  | '\\' :: 'f' :: rest => some (Char.ofNat 12, rest)
  | '\\' :: 'u' :: '0' :: '0' :: high :: low :: rest => do
    let high ← Text.hexValue high
    let low ← Text.hexValue low
    some (Char.ofNat (high * 16 + low), rest)
  | '\\' :: character :: rest => some (character, rest)
  | character :: rest => some (character, rest)
  | [] => none

theorem unescape_control : ∀ value < 32, ∀ rest : Text,
    unescape (escape (Char.ofNat value) ++ rest) = some (Char.ofNat value, rest) := by
  intro value bound rest
  interval_cases value <;> rfl

theorem unescape_escape (character : Char) (rest : Text) : unescape (escape character ++ rest) = some (character, rest) := by
  by_cases control : character.toNat < 32
  · have isControl := unescape_control character.toNat control rest
    rwa [Char.ofNat_toNat] at isControl
  · by_cases quoted : character = '"'
    · subst quoted
      rfl
    · by_cases slashed : character = '\\'
      · subst slashed
        rfl
      · have plain : escape character = [character] := by
          unfold escape
          split
          · exact absurd rfl quoted
          · exact absurd rfl slashed
          · exact absurd (by decide) control
          · exact absurd (by decide) control
          · exact absurd (by decide) control
          · rw [if_neg (by omega), if_neg (by omega), if_neg control]
        rw [plain]
        unfold unescape
        split <;> simp_all

theorem escape_begins (character : Char) : ∃ first tail, escape character = first :: tail ∧ first ≠ '"' := by
  by_cases quoted : character = '"'
  · subst quoted
    exact ⟨'\\', ['"'], rfl, by decide⟩
  · unfold escape
    split
    · exact ⟨_, _, rfl, by decide⟩
    · exact ⟨_, _, rfl, by decide⟩
    · exact ⟨_, _, rfl, by decide⟩
    · exact ⟨_, _, rfl, by decide⟩
    · exact ⟨_, _, rfl, by decide⟩
    · split
      · exact ⟨_, _, rfl, by decide⟩
      · split
        · exact ⟨_, _, rfl, by decide⟩
        · split
          · exact ⟨_, _, rfl, by decide⟩
          · exact ⟨_, _, rfl, quoted⟩

theorem escaped_inj {text other rest otherRest : Text}
    (same : text.flatMap escape ++ '"' :: rest = other.flatMap escape ++ '"' :: otherRest) :
    text = other ∧ rest = otherRest := by
  induction text generalizing other with
  | nil =>
    cases other with
    | nil => exact ⟨rfl, (List.cons.inj same).2⟩
    | cons character other =>
      obtain ⟨first, tail, begins, notQuote⟩ := escape_begins character
      rw [List.flatMap_cons, begins] at same
      exact absurd (List.cons.inj same).1.symm notQuote
  | cons character text ih =>
    cases other with
    | nil =>
      obtain ⟨first, tail, begins, notQuote⟩ := escape_begins character
      rw [List.flatMap_cons, begins] at same
      exact absurd (List.cons.inj same).1 notQuote
    | cons otherCharacter other =>
      have read := congrArg unescape same
      rw [List.flatMap_cons, List.flatMap_cons, List.append_assoc, List.append_assoc, unescape_escape, unescape_escape,
        Option.some.injEq, Prod.mk.injEq] at read
      obtain ⟨rfl, later⟩ := read
      obtain ⟨rfl, sameRest⟩ := ih later
      exact ⟨rfl, sameRest⟩

theorem quote_append_inj {text other rest otherRest : Text} (same : quote text ++ rest = quote other ++ otherRest) :
    text = other ∧ rest = otherRest := by
  refine escaped_inj (List.cons.inj ?_ : '"' = '"' ∧ _).2
  simpa [quote] using same

/-! ## Numbers -/

def isNumberCharacter (character : Char) : Bool :=
  character.isDigit || ("+-.eE" : Text).contains character

/-- The literal of a number is one. -/
def isNumberLiteral (literal : Text) : Bool :=
  !literal.isEmpty && literal.all isNumberCharacter

theorem takeWhile_literal {literal rest : Text} (written : isNumberLiteral literal = true) (follows : Follows rest) :
    (literal ++ rest).takeWhile isNumberCharacter = literal := by
  unfold isNumberLiteral at written
  rw [Bool.and_eq_true, List.all_eq_true] at written
  rw [List.takeWhile_append_of_pos written.2]
  cases rest with
  | nil => simp
  | cons character rest =>
    have stops : isNumberCharacter character = false := by
      rcases follows character rfl with rfl | rfl | rfl <;> decide
    rw [List.takeWhile_cons_of_neg (by rw [stops]; decide), List.append_nil]

/-! ## Values -/

mutual

/-- Every number of the value has a literal. -/
def Written : Json → Prop
  | .number _ literal => isNumberLiteral literal = true
  | .array items => WrittenItems items
  | .object fields => WrittenFields fields
  | _ => True

def WrittenItems : List Json → Prop
  | [] => True
  | item :: rest => Written item ∧ WrittenItems rest

def WrittenFields : JsonObject → Prop
  | [] => True
  | (_, value) :: rest => Written value ∧ WrittenFields rest

end

def IsValue (text : Text) : Prop :=
  ∃ value : Json, value.Written ∧ text = value.canonical

/-- An entry of a dictionary. -/
def entryText (entry : Text × Text) : Text :=
  quote entry.1 ++ ':' :: entry.2

def IsEntry (text : Text) : Prop :=
  ∃ key value, IsValue value ∧ text = entryText (key, value)

theorem canonical_object (fields : JsonObject) : canonical (.object fields) = Char.ofNat 0x7b ::
    Text.join "," ((Text.sortedBy Prod.fst (canonicalFields fields)).map entryText) ++ [Char.ofNat 0x7d] := by
  simp only [canonical]
  rfl

def kindOf : Json → Nat
  | .number _ _ => 0
  | .string _ => 1
  | .array _ => 2
  | .object _ => 3
  | .null => 4
  | .bool true => 5
  | .bool false => 6

/-- The kind of value that starts with the character. -/
def kindOfCharacter (character : Char) : Nat :=
  if character = '"' then 1 else if character = '[' then 2 else if character = Char.ofNat 0x7b then 3
  else if character = 'n' then 4 else if character = 't' then 5 else if character = 'f' then 6 else 0

theorem kindOfCharacter_number {character : Char} (isNumber : isNumberCharacter character = true) :
    kindOfCharacter character = 0 ∧ character ≠ ']' ∧ character ≠ Char.ofNat 0x7d := by
  have other : ∀ special ∈ ['"', '[', Char.ofNat 0x7b, 'n', 't', 'f', ']', Char.ofNat 0x7d], character ≠ special := by
    rintro special member rfl
    have none : ∀ special ∈ ['"', '[', Char.ofNat 0x7b, 'n', 't', 'f', ']', Char.ofNat 0x7d],
        isNumberCharacter special = false := Text.forall_of_all (by decide)
    rw [none character member] at isNumber
    cases isNumber
  refine ⟨?_, other _ (by decide), other _ (by decide)⟩
  unfold kindOfCharacter
  rw [if_neg (other _ (by decide)), if_neg (other _ (by decide)), if_neg (other _ (by decide)),
    if_neg (other _ (by decide)), if_neg (other _ (by decide)), if_neg (other _ (by decide))]

theorem canonical_begins {value : Json} (written : value.Written) : ∃ first tail, value.canonical = first :: tail ∧
    kindOfCharacter first = kindOf value ∧ first ≠ ']' ∧ first ≠ Char.ofNat 0x7d := by
  cases value with
  | null => exact ⟨_, _, rfl, by decide, by decide, by decide⟩
  | bool value => cases value <;> exact ⟨_, _, rfl, by decide, by decide, by decide⟩
  | string value => exact ⟨_, _, rfl, rfl, by decide, by decide⟩
  | array items => exact ⟨'[', _, rfl, rfl, by decide, by decide⟩
  | object fields => exact ⟨_, _, canonical_object fields, rfl, by decide, by decide⟩
  | number value literal =>
    cases literal with
    | nil => cases written
    | cons first tail =>
      have isNumber : isNumberCharacter first = true := by
        have all := (Bool.and_eq_true_iff.mp written).2
        exact List.all_eq_true.mp all first List.mem_cons_self
      obtain ⟨isKind, notBracket, notBrace⟩ := kindOfCharacter_number isNumber
      exact ⟨first, tail, rfl, isKind, notBracket, notBrace⟩

/-- Values whose texts begin alike are of one kind. -/
theorem kindOf_eq (value other : Json) (written : value.Written) (otherWritten : other.Written) {rest otherRest : Text}
    (same : value.canonical ++ rest = other.canonical ++ otherRest) : kindOf value = kindOf other := by
  obtain ⟨first, tail, isText, isKind, -⟩ := canonical_begins written
  obtain ⟨otherFirst, otherTail, isOtherText, isOtherKind, -⟩ := canonical_begins otherWritten
  rw [isText, isOtherText] at same
  rw [← isKind, ← isOtherKind, (List.cons.inj same).1]

theorem isValue_begins {text : Text} (isValue : IsValue text) : ∃ first tail, text = first :: tail ∧
    first ≠ ']' ∧ first ≠ Char.ofNat 0x7d := by
  obtain ⟨value, written, rfl⟩ := isValue
  obtain ⟨first, tail, isText, -, notBracket, notBrace⟩ := canonical_begins written
  exact ⟨first, tail, isText, notBracket, notBrace⟩

theorem isValue_items {items : List Json} (written : WrittenItems items) : ∀ text ∈ canonicalItems items, IsValue text := by
  induction items with
  | nil =>
    intro text member
    cases member
  | cons item items ih =>
    intro text member
    rcases List.mem_cons.mp member with rfl | later
    · exact ⟨item, written.1, rfl⟩
    · exact ih written.2 text later

theorem isValue_fields {fields : JsonObject} (written : WrittenFields fields) :
    ∀ entry ∈ canonicalFields fields, IsValue entry.2 := by
  induction fields with
  | nil =>
    intro entry member
    cases member
  | cons field fields ih =>
    intro entry member
    rcases List.mem_cons.mp member with rfl | later
    · exact ⟨field.2, written.1, rfl⟩
    · exact ih written.2 entry later

theorem isEntry_sorted {fields : JsonObject} (written : WrittenFields fields) :
    ∀ text ∈ (Text.sortedBy Prod.fst (canonicalFields fields)).map entryText, IsEntry text := by
  intro text member
  obtain ⟨entry, isEntry, rfl⟩ := List.mem_map.mp member
  exact ⟨entry.1, entry.2, isValue_fields written entry (Text.mem_sortedBy.mp isEntry), rfl⟩

theorem entryText_inj {entry other : Text × Text} {rest otherRest : Text}
    (same : entryText entry ++ rest = entryText other ++ otherRest) :
    entry.1 = other.1 ∧ entry.2 ++ rest = other.2 ++ otherRest := by
  unfold entryText at same
  rw [List.append_assoc, List.append_assoc] at same
  obtain ⟨sameKey, later⟩ := quote_append_inj same
  exact ⟨sameKey, (List.cons.inj later).2⟩

theorem delimited_entry {entry : Text × Text} (delimited : Delimited IsValue entry.2) :
    Delimited IsEntry (entryText entry) := by
  intro other rest otherRest isEntry follows otherFollows same
  obtain ⟨key, value, isValue, rfl⟩ := isEntry
  obtain ⟨sameKey, values⟩ := entryText_inj same
  obtain ⟨sameValue, sameRest⟩ := delimited value rest otherRest isValue follows otherFollows values
  refine ⟨?_, sameRest⟩
  rw [entryText, entryText, sameKey, sameValue]

theorem entryText_injective : Function.Injective entryText := by
  intro entry other same
  obtain ⟨sameKey, sameValue⟩ := entryText_inj (congrArg (· ++ []) same)
  rw [List.append_nil, List.append_nil] at sameValue
  exact Prod.ext sameKey sameValue

theorem array_inj {items others : List Json} {rest otherRest : Text} (written : WrittenItems items)
    (otherWritten : WrittenItems others) (delimited : ∀ text ∈ canonicalItems items, Delimited IsValue text)
    (same : canonical (.array items) ++ rest = canonical (.array others) ++ otherRest) :
    canonicalItems items = canonicalItems others ∧ rest = otherRest := by
  have inner : Text.join "," (canonicalItems items) ++ ']' :: rest =
      Text.join "," (canonicalItems others) ++ ']' :: otherRest := by
    simpa [canonical] using same
  refine joined_inj (.inl rfl) ?_ (isValue_items written) delimited (isValue_items otherWritten) inner
  intro text isValue
  obtain ⟨first, tail, isText, notBracket, -⟩ := isValue_begins isValue
  exact ⟨first, tail, isText, notBracket⟩

theorem object_inj {fields others : JsonObject} {rest otherRest : Text} (written : WrittenFields fields)
    (otherWritten : WrittenFields others) (delimited : ∀ entry ∈ canonicalFields fields, Delimited IsValue entry.2)
    (same : canonical (.object fields) ++ rest = canonical (.object others) ++ otherRest) :
    Text.sortedBy Prod.fst (canonicalFields fields) = Text.sortedBy Prod.fst (canonicalFields others) ∧ rest = otherRest := by
  rw [canonical_object, canonical_object, List.cons_append, List.cons_append, List.append_assoc,
    List.append_assoc] at same
  have entries : ∀ text ∈ (Text.sortedBy Prod.fst (canonicalFields fields)).map entryText, Delimited IsEntry text := by
    intro text member
    obtain ⟨entry, isEntry, rfl⟩ := List.mem_map.mp member
    exact delimited_entry (delimited entry (Text.mem_sortedBy.mp isEntry))
  obtain ⟨sameEntries, sameRest⟩ := joined_inj (.inr rfl) (fun text isEntry => by
      obtain ⟨key, value, -, rfl⟩ := isEntry
      exact ⟨'"', _, rfl, by decide⟩)
    (isEntry_sorted written) entries (isEntry_sorted otherWritten) (List.cons.inj same).2
  exact ⟨List.map_injective_iff.mpr entryText_injective sameEntries, sameRest⟩

theorem delimited_array {items : List Json} (written : WrittenItems items)
    (delimited : ∀ text ∈ canonicalItems items, Delimited IsValue text) :
    Delimited IsValue (canonical (.array items)) := by
  rintro _ rest otherRest ⟨other, otherWritten, rfl⟩ - - same
  have sameKind : kindOf (.array items) = kindOf other := kindOf_eq (.array items) other written otherWritten same
  cases other with
  | array others =>
    obtain ⟨sameItems, sameRest⟩ := array_inj written otherWritten delimited same
    refine ⟨?_, sameRest⟩
    simp only [canonical, sameItems]
  | bool value => cases value <;> cases sameKind
  | null | number | string | object => cases sameKind

theorem delimited_object {fields : JsonObject} (written : WrittenFields fields)
    (delimited : ∀ entry ∈ canonicalFields fields, Delimited IsValue entry.2) :
    Delimited IsValue (canonical (.object fields)) := by
  rintro _ rest otherRest ⟨other, otherWritten, rfl⟩ - - same
  have sameKind : kindOf (.object fields) = kindOf other := kindOf_eq (.object fields) other written otherWritten same
  cases other with
  | object others =>
    obtain ⟨sameEntries, sameRest⟩ := object_inj written otherWritten delimited same
    refine ⟨?_, sameRest⟩
    rw [canonical_object, canonical_object, sameEntries]
  | bool value => cases value <;> cases sameKind
  | null | number | string | array => cases sameKind

mutual

/-- The canonical text of a value is delimited. -/
theorem delimited_canonical : ∀ value : Json, value.Written → Delimited IsValue value.canonical
  | .array items, written => delimited_array written (delimited_items items written)
  | .object fields, written => delimited_object written (delimited_fields fields written)
  | .string text, written => by
    rintro _ rest otherRest ⟨other, otherWritten, rfl⟩ - - same
    have sameKind : kindOf (.string text) = kindOf other := kindOf_eq (.string text) other written otherWritten same
    cases other with
    | string otherText =>
      obtain ⟨rfl, sameRest⟩ := quote_append_inj same
      exact ⟨rfl, sameRest⟩
    | bool value => cases value <;> cases sameKind
    | null | number | array | object => cases sameKind
  | .number value literal, written => by
    rintro _ rest otherRest ⟨other, otherWritten, rfl⟩ follows otherFollows same
    have sameKind : kindOf (.number value literal) = kindOf other :=
      kindOf_eq (.number value literal) other written otherWritten same
    cases other with
    | number otherValue otherLiteral =>
      have sameLiteral : literal = otherLiteral := by
        rw [← takeWhile_literal written follows, ← takeWhile_literal otherWritten otherFollows]
        exact congrArg _ same
      subst sameLiteral
      exact ⟨rfl, List.append_cancel_left same⟩
    | bool value => cases value <;> cases sameKind
    | null | string | array | object => cases sameKind
  | .null, written => by
    rintro _ rest otherRest ⟨other, otherWritten, rfl⟩ - - same
    have sameKind : kindOf .null = kindOf other := kindOf_eq .null other written otherWritten same
    cases other with
    | null => exact ⟨rfl, List.append_cancel_left same⟩
    | bool value => cases value <;> cases sameKind
    | number | string | array | object => cases sameKind
  | .bool value, written => by
    rintro _ rest otherRest ⟨other, otherWritten, rfl⟩ - - same
    have sameKind : kindOf (.bool value) = kindOf other := kindOf_eq (.bool value) other written otherWritten same
    cases other with
    | bool otherValue =>
      have sameValue : value = otherValue := by cases value <;> cases otherValue <;> first | rfl | cases sameKind
      subst sameValue
      exact ⟨rfl, List.append_cancel_left same⟩
    | null | number | string | array | object => cases value <;> cases sameKind

theorem delimited_items : ∀ items : List Json, WrittenItems items → ∀ text ∈ canonicalItems items, Delimited IsValue text
  | [], _ => fun text member => by cases member
  | item :: rest, written => fun text member => by
    rcases List.mem_cons.mp member with rfl | later
    · exact delimited_canonical item written.1
    · exact delimited_items rest written.2 text later

theorem delimited_fields : ∀ fields : JsonObject, WrittenFields fields →
    ∀ entry ∈ canonicalFields fields, Delimited IsValue entry.2
  | [], _ => fun entry member => by cases member
  | (key, value) :: rest, written => fun entry member => by
    rcases List.mem_cons.mp member with rfl | later
    · exact delimited_canonical value written.1
    · exact delimited_fields rest written.2 entry later

end

/-! ## Equal texts -/

theorem string_of_canonical_eq {text other : Text} (same : canonical (.string text) = canonical (.string other)) :
    text = other :=
  (quote_append_inj (congrArg (· ++ []) same)).1

theorem items_of_canonical_eq {items others : List Json} (written : WrittenItems items)
    (otherWritten : WrittenItems others) (same : canonical (.array items) = canonical (.array others)) :
    canonicalItems items = canonicalItems others :=
  (array_inj written otherWritten (delimited_items items written) (congrArg (· ++ []) same)).1

theorem lookup_canonicalFields (fields : JsonObject) (key : Text) :
    (canonicalFields fields).lookup key = (get fields key).map canonical := by
  induction fields with
  | nil => rfl
  | cons field fields ih =>
    unfold get at ih ⊢
    rw [canonicalFields, List.lookup_cons, List.lookup_cons]
    split
    · rfl
    · exact ih

theorem keys_canonicalFields (fields : JsonObject) : (canonicalFields fields).map Prod.fst = fields.map Prod.fst := by
  induction fields with
  | nil => rfl
  | cons field fields ih => simp [canonicalFields, ih]

/-- Dictionaries with one text have, under every key, values with one text. -/
theorem get_of_canonical_eq {fields others : JsonObject} (written : WrittenFields fields)
    (otherWritten : WrittenFields others) (distinct : (fields.map Prod.fst).Nodup)
    (same : canonical (.object fields) = canonical (.object others)) (key : Text) :
    (get fields key).map canonical = (get others key).map canonical := by
  have sorted := (object_inj written otherWritten (delimited_fields fields written) (congrArg (· ++ []) same)).1
  have perm : (canonicalFields fields).Perm (canonicalFields others) :=
    (Text.perm_sortedBy Prod.fst _).symm.trans (sorted ▸ Text.perm_sortedBy Prod.fst _)
  rw [← lookup_canonicalFields, ← lookup_canonicalFields]
  exact lookup_perm perm (by rwa [keys_canonicalFields]) key

theorem eq_of_perm_of_keys {κ ν : Type} {entries others : List (κ × ν)} (perm : entries.Perm others)
    (sameKeys : entries.map Prod.fst = others.map Prod.fst) (distinct : (entries.map Prod.fst).Nodup) : entries = others := by
  induction entries generalizing others with
  | nil => exact perm.nil_eq
  | cons entry rest ih =>
    cases others with
    | nil => cases sameKeys
    | cons other others =>
      obtain ⟨sameKey, sameRest⟩ := List.cons.inj sameKeys
      obtain ⟨fresh, restDistinct⟩ := List.nodup_cons.mp distinct
      have isOther : entry = other := by
        refine (List.mem_cons.mp (perm.subset List.mem_cons_self)).resolve_right fun later => fresh ?_
        rw [sameRest]
        exact List.mem_map_of_mem later
      subst isOther
      exact congrArg (entry :: ·) (ih (List.perm_cons entry |>.mp perm) sameRest restDistinct)

/-- Dictionaries with the same keys in the same order have one text exactly when all their values have. -/
theorem canonical_object_eq_iff {fields others : JsonObject} (written : WrittenFields fields)
    (otherWritten : WrittenFields others) (sameKeys : fields.map Prod.fst = others.map Prod.fst)
    (distinct : (fields.map Prod.fst).Nodup) :
    canonical (.object fields) = canonical (.object others) ↔ canonicalFields fields = canonicalFields others := by
  constructor
  · intro same
    have sorted := (object_inj written otherWritten (delimited_fields fields written) (congrArg (· ++ []) same)).1
    refine eq_of_perm_of_keys ((Text.perm_sortedBy Prod.fst _).symm.trans (sorted ▸ Text.perm_sortedBy Prod.fst _)) ?_ ?_
    · rwa [keys_canonicalFields, keys_canonicalFields]
    · rwa [keys_canonicalFields]
  · intro same
    rw [canonical, canonical, same]

theorem canonical_array_eq_iff {items others : List Json} (written : WrittenItems items) (otherWritten : WrittenItems others) :
    canonical (.array items) = canonical (.array others) ↔ canonicalItems items = canonicalItems others := by
  constructor
  · exact items_of_canonical_eq written otherWritten
  · intro same
    rw [canonical, canonical, same]

theorem canonicalItems_eq_map (items : List Json) : canonicalItems items = items.map canonical := by
  induction items with
  | nil => rfl
  | cons item rest ih => rw [canonicalItems, ih, List.map_cons]

theorem canonicalFields_eq_map (fields : JsonObject) :
    canonicalFields fields = fields.map fun field => (field.1, field.2.canonical) := by
  induction fields with
  | nil => rfl
  | cons field rest ih => rw [canonicalFields, ih, List.map_cons]

theorem writtenItems_iff {items : List Json} : WrittenItems items ↔ ∀ item ∈ items, item.Written := by
  induction items with
  | nil => simp [WrittenItems]
  | cons item rest ih => rw [WrittenItems, ih, List.forall_mem_cons]

end Mcplica.Contracts.Json
