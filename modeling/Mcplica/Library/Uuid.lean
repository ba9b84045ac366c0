import Mcplica.Library.Quote
import Mathlib.Algebra.Group.Nat.Defs

/-! # UUIDs

The constructor `UUID(text)` of Python, which reads the digits as an integer, and `str` of a UUID. -/

namespace Mcplica.Library.Text

def strips (characters text : Text) : Text :=
  stripEnd characters (text.dropWhile characters.contains)

/-- Digits of a base with single underscores between them; the state says whether a digit was read last. -/
def readDigits (digit : Char → Option Nat) (base : Nat) : Bool → Nat → Text → Option Nat
  | afterDigit, value, [] => if afterDigit then some value else none
  | afterDigit, value, character :: rest =>
    if character = '_' then (if afterDigit then readDigits digit base false value rest else none)
    else
      match digit character with
      | some read => readDigits digit base true (value * base + read) rest
      | none => none

/-- `int(text, 16)` of a text without minus sign. Other decimal digits than ASCII ones are read by the given table. -/
def int16 (decimal : Char → Option Nat) (text : Text) : Option Nat :=
  let digit (character : Char) := (hexValue character).or (decimal character)
  let unsigned := match strip text with
    | '+' :: rest => rest
    | other => other
  match unsigned with
  | '0' :: 'x' :: '_' :: rest | '0' :: 'X' :: '_' :: rest | '0' :: 'x' :: rest | '0' :: 'X' :: rest =>
    readDigits digit 16 false 0 rest
  | digits => readDigits digit 16 false 0 digits

/-- `UUID(text)`; `none` where it raises. -/
def uuid (decimal : Char → Option Nat) (text : Text) : Option Nat :=
  let unprefixed := replace "uuid:" [] (replace "urn:" [] text)
  let digits := (strips "{}" unprefixed).filter (· ≠ '-')
  if digits.length = 32 then int16 decimal digits else none

def hexDigits : Nat → Nat → Text
  | 0, _ => []
  | count + 1, value => hexDigits count (value / 16) ++ [Nat.digitChar (value % 16)]

/-- `str` of a UUID. -/
def ofUuid (value : Nat) : Text :=
  let digits := hexDigits 32 value
  digits.take 8 ++ '-' :: (digits.drop 8).take 4 ++ '-' :: (digits.drop 12).take 4 ++ '-' :: (digits.drop 16).take 4 ++
    '-' :: digits.drop 20

theorem digitChar_inj : ∀ left < 16, ∀ right < 16, Nat.digitChar left = Nat.digitChar right → left = right := by
  decide

theorem hexDigits_inj {count left right : Nat} (leftBound : left < 16 ^ count) (rightBound : right < 16 ^ count)
    (same : hexDigits count left = hexDigits count right) : left = right := by
  induction count generalizing left right with
  | zero => omega
  | succ count ih =>
    obtain ⟨higher, lowest⟩ := List.append_inj' same rfl
    have sameDigit := digitChar_inj (left % 16) (by omega) (right % 16) (by omega) (List.singleton_inj.mp lowest)
    have sameHigher := ih (by omega) (by omega) higher
    omega

theorem not_mem_hexDigits (count value : Nat) : '-' ∉ hexDigits count value := by
  induction count generalizing value with
  | zero => simp [hexDigits]
  | succ count ih =>
    have digit : ∀ digit < 16, Nat.digitChar digit ≠ '-' := by decide
    intro member
    rcases List.mem_append.mp member with before | last
    · exact ih _ before
    · exact digit (value % 16) (by omega) (List.mem_singleton.mp last).symm

/-- Without its hyphens, the text of a UUID is its digits. -/
theorem filter_ofUuid (value : Nat) : (ofUuid value).filter (· ≠ '-') = hexDigits 32 value := by
  have kept : ∀ part : Text, (∀ character ∈ part, character ∈ hexDigits 32 value) → part.filter (· ≠ '-') = part := by
    intro part subset
    rw [List.filter_eq_self]
    intro character member
    simp only [ne_eq, decide_eq_true_eq]
    rintro rfl
    exact not_mem_hexDigits 32 value (subset _ member)
  have taken : ∀ start length, (((hexDigits 32 value).drop start).take length).filter (· ≠ '-') =
      ((hexDigits 32 value).drop start).take length := fun start length =>
    kept _ fun _ member => List.mem_of_mem_drop (List.mem_of_mem_take member)
  have first := taken 0 8
  have rest := kept ((hexDigits 32 value).drop 20) fun _ member => List.mem_of_mem_drop member
  rw [List.drop_zero] at first
  unfold ofUuid
  simp only [List.filter_append, List.filter_cons, first, taken 8 4, taken 12 4, taken 16 4, rest]
  have parts := List.take_append_drop 8 (hexDigits 32 value)
  have second := List.take_append_drop 4 ((hexDigits 32 value).drop 8)
  have third := List.take_append_drop 4 ((hexDigits 32 value).drop 12)
  have fourth := List.take_append_drop 4 ((hexDigits 32 value).drop 16)
  rw [List.drop_drop] at second third fourth
  simp only [Nat.reduceAdd] at second third fourth
  simp only [ne_eq, not_true_eq_false, decide_false, Bool.false_eq_true, if_false, List.append_assoc]
  rw [fourth, third, second, parts]

theorem ofUuid_inj {left right : Nat} (leftBound : left < 2 ^ 128) (rightBound : right < 2 ^ 128)
    (same : ofUuid left = ofUuid right) : left = right := by
  have digits := congrArg (List.filter (· ≠ '-')) same
  rw [filter_ofUuid, filter_ofUuid] at digits
  exact @hexDigits_inj 32 left right (by omega) (by omega) digits

theorem length_hexDigits (count value : Nat) : (hexDigits count value).length = count := by
  induction count generalizing value with
  | zero => rfl
  | succ count ih => rw [hexDigits, List.length_append, ih, List.length_singleton]

theorem length_ofUuid (value : Nat) : (ofUuid value).length = 36 := by
  simp [ofUuid, length_hexDigits]

theorem hexDigits_characters {count value : Nat} {character : Char} (member : character ∈ hexDigits count value) :
    ∃ digit < 16, character = Nat.digitChar digit := by
  induction count generalizing value with
  | zero => cases member
  | succ count ih =>
    rcases List.mem_append.mp member with before | last
    · exact ih before
    · exact ⟨value % 16, Nat.mod_lt value (by decide), List.mem_singleton.mp last⟩

/-- The text of a UUID has hyphens and hexadecimal digits. -/
theorem ofUuid_characters {value : Nat} {character : Char} (member : character ∈ ofUuid value) :
    character = '-' ∨ ∃ digit < 16, character = Nat.digitChar digit := by
  by_cases hyphen : character = '-'
  · exact .inl hyphen
  · have kept : character ∈ (ofUuid value).filter (· ≠ '-') := List.mem_filter.mpr ⟨member, by simpa using hyphen⟩
    rw [filter_ofUuid] at kept
    exact .inr (hexDigits_characters kept)

theorem uuid_nil (decimal : Char → Option Nat) : uuid decimal [] = none := rfl

end Mcplica.Library.Text
