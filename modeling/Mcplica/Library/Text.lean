import Mathlib.Data.List.Basic
import Mathlib.Data.List.Dedup
import Mathlib.Data.List.DropRight
import Mathlib.Data.List.Infix
import Mathlib.Data.List.Sort
import Mathlib.Tactic.Common

/-! # Text

The string operations of the Python standard library, on lists of characters. A Python string may hold lone
surrogates as well, which are no characters here. What depends on the Unicode tables is a parameter beyond
ASCII. -/

namespace Mcplica.Library

abbrev Text := List Char

instance : Coe String Text := ⟨String.toList⟩

namespace Text

def isAscii (text : Text) : Bool :=
  text.all fun character => character.toNat < 128

def startsWith (text start : Text) : Bool :=
  start.isPrefixOf text

def endsWith (text ending : Text) : Bool :=
  ending.isSuffixOf text

/-- The `in` of two strings. -/
def includes (text needle : Text) : Bool :=
  text.tails.any needle.isPrefixOf

/-- A property that is checked of every character holds of each of them. -/
theorem forall_of_all {text : Text} {holds : Char → Prop} [DecidablePred holds]
    (checked : text.all (fun character => decide (holds character)) = true) : ∀ character ∈ text, holds character :=
  fun character member => of_decide_eq_true (List.all_eq_true.mp checked character member)

theorem includes_iff {text needle : Text} : includes text needle = true ↔ needle <:+: text := by
  simp only [includes, List.any_eq_true, List.mem_tails, List.isPrefixOf_iff_prefix]
  constructor
  · rintro ⟨rest, ⟨before, rfl⟩, ⟨after, rfl⟩⟩
    exact ⟨before, after, List.append_assoc _ _ _⟩
  · rintro ⟨before, after, rfl⟩
    exact ⟨needle ++ after, ⟨before, (List.append_assoc _ _ _).symm⟩, ⟨after, rfl⟩⟩

def includesAny (text characters : Text) : Bool :=
  text.any characters.contains

/-- The text before and after the first separator; the second is `none` without one. -/
def partition (separator : Char) (text : Text) : Text × Option Text :=
  (text.takeWhile (· != separator),
    match text.dropWhile (· != separator) with
    | [] => none
    | _ :: rest => some rest)

/-- The text before the last separator, if there is one, and the text after it. -/
def rpartition (separator : Char) (text : Text) : Option Text × Text :=
  match partition separator text.reverse with
  | (after, before) => (before.map List.reverse, after.reverse)

theorem partition_of_not_mem {separator : Char} {text : Text} (absent : separator ∉ text) :
    partition separator text = (text, none) := by
  have all : ∀ character ∈ text, (character != separator) = true := by
    intro character member
    simpa using fun same : character = separator => absent (same ▸ member)
  simp only [partition, List.takeWhile_eq_self_iff.mpr all, List.dropWhile_eq_nil_iff.mpr all]

theorem partition_append_cons {separator : Char} {before : Text} (absent : separator ∉ before) (after : Text) :
    partition separator (before ++ separator :: after) = (before, some after) := by
  have all : ∀ character ∈ before, (character != separator) = true := by
    intro character member
    simpa using fun same : character = separator => absent (same ▸ member)
  simp only [partition, List.takeWhile_append_of_pos all, List.dropWhile_append_of_pos all]
  simp

theorem partition_fst_subset (separator : Char) (text : Text) : (partition separator text).1 ⊆ text :=
  (List.takeWhile_prefix _).subset

theorem not_mem_partition_fst (separator : Char) (text : Text) : separator ∉ (partition separator text).1 := by
  intro member
  have passed := List.mem_takeWhile_imp member
  simp at passed

theorem partition_eq_some {separator : Char} {text before rest : Text}
    (parted : partition separator text = (before, some rest)) : text = before ++ separator :: rest := by
  simp only [partition, Prod.mk.injEq] at parted
  obtain ⟨rfl, parted⟩ := parted
  split at parted
  · cases parted
  · rename_i first others dropped
    cases parted
    have isSeparator : first = separator := by
      have stopped := List.head?_dropWhile_not (· != separator) text
      rw [dropped] at stopped
      simpa using stopped
    subst isSeparator
    rw [← dropped, List.takeWhile_append_dropWhile]

theorem partition_eq_none {separator : Char} {text before : Text}
    (parted : partition separator text = (before, none)) : separator ∉ text ∧ before = text := by
  simp only [partition, Prod.mk.injEq] at parted
  obtain ⟨rfl, parted⟩ := parted
  split at parted
  · rename_i dropped
    have all := List.dropWhile_eq_nil_iff.mp dropped
    refine ⟨fun member => ?_, List.takeWhile_eq_self_iff.mpr all⟩
    have passed := all separator member
    simp at passed
  · cases parted

theorem rpartition_of_not_mem {separator : Char} {text : Text} (absent : separator ∉ text) :
    rpartition separator text = (none, text) := by
  have absentReversed : separator ∉ text.reverse := fun member => absent (List.mem_reverse.mp member)
  unfold rpartition
  rw [partition_of_not_mem absentReversed]
  simp

theorem rpartition_append_cons {separator : Char} {after : Text} (absent : separator ∉ after) (before : Text) :
    rpartition separator (before ++ separator :: after) = (some before, after) := by
  have absentReversed : separator ∉ after.reverse := fun member => absent (List.mem_reverse.mp member)
  unfold rpartition
  rw [List.reverse_append, List.reverse_cons, List.append_assoc, List.singleton_append,
    partition_append_cons absentReversed]
  simp

theorem rpartition_snd_subset (separator : Char) (text : Text) : (rpartition separator text).2 ⊆ text := by
  intro character member
  exact List.mem_reverse.mp (partition_fst_subset separator text.reverse (List.mem_reverse.mp member))

theorem not_mem_rpartition_snd (separator : Char) (text : Text) : separator ∉ (rpartition separator text).2 :=
  fun member => not_mem_partition_fst separator text.reverse (List.mem_reverse.mp member)

def stripEnd (characters text : Text) : Text :=
  text.rdropWhile characters.contains

theorem stripEnd_append_cons {characters : Text} {character : Char} (kept : characters.contains character = false)
    (before after : Text) :
    stripEnd characters (before ++ character :: after) = before ++ character :: stripEnd characters after := by
  have stops : (character :: before.reverse).dropWhile characters.contains = character :: before.reverse :=
    List.dropWhile_cons_of_neg (by rw [kept]; decide)
  unfold stripEnd List.rdropWhile
  rw [List.reverse_append, List.reverse_cons, List.append_assoc, List.singleton_append, List.dropWhile_append, stops]
  split
  · rename_i nothing
    rw [List.isEmpty_iff.mp nothing]
    simp
  · simp

theorem mem_stripEnd {characters text : Text} {character : Char} (kept : characters.contains character = false)
    (member : character ∈ text) : character ∈ stripEnd characters text := by
  obtain ⟨before, after, rfl⟩ := List.append_of_mem member
  rw [stripEnd_append_cons kept]
  exact List.mem_append_right _ List.mem_cons_self

theorem isAscii_append {first second : Text} : isAscii (first ++ second) = (isAscii first && isAscii second) :=
  List.all_append

theorem isAscii_stripEnd (characters : Text) {text : Text} (ascii : isAscii text = true) :
    isAscii (stripEnd characters text) = true := by
  unfold isAscii at ascii ⊢
  rw [List.all_eq_true] at ascii ⊢
  exact fun character member => ascii character ((List.rdropWhile_prefix _ _).subset member)

def isSpace (character : Char) : Bool :=
  let code := character.toNat
  (9 ≤ code && code ≤ 13) || (28 ≤ code && code ≤ 32) || code = 0x85 || code = 0xa0 || code = 0x1680 ||
    (0x2000 ≤ code && code ≤ 0x200a) || code = 0x2028 || code = 0x2029 || code = 0x202f || code = 0x205f ||
    code = 0x3000

def strip (text : Text) : Text :=
  (text.dropWhile isSpace).rdropWhile isSpace

theorem strip_strip (text : Text) : strip (strip text) = strip text := by
  have noSpace : (strip text).dropWhile isSpace = strip text := by
    have isStart : strip text <+: text.dropWhile isSpace := List.rdropWhile_prefix _ _
    cases stripped : strip text with
    | nil => rfl
    | cons first rest =>
      rw [stripped] at isStart
      obtain ⟨spaces, whole⟩ := isStart
      have again := List.dropWhile_idempotent isSpace text
      rw [← whole, List.cons_append, List.dropWhile_cons] at again
      have notSpace : ¬ isSpace first = true := by
        intro isFirst
        rw [if_pos isFirst] at again
        have shorter := (List.dropWhile_suffix isSpace (l := rest ++ spaces)).length_le
        rw [again, List.length_cons] at shorter
        omega
      rw [List.dropWhile_cons, if_neg notSpace]
  show ((strip text).dropWhile isSpace).rdropWhile isSpace = strip text
  rw [noSpace]
  exact List.rdropWhile_idempotent _ _

/-- Replaces every occurrence of two characters in a row. -/
def replacePair (first second replacement : Char) : Text → Text
  | left :: right :: rest =>
    if left = first ∧ right = second then replacement :: replacePair first second replacement rest
    else left :: replacePair first second replacement (right :: rest)
  | rest => rest

/-- The order of strings, by code points. -/
def le : Text → Text → Bool
  | [], _ => true
  | _ :: _, [] => false
  | left :: lefts, right :: rights => left.toNat < right.toNat || (left = right && le lefts rights)

/-- `sorted(values, key=key)`, which is stable. -/
def sortedBy {α : Type} (key : α → Text) (values : List α) : List α :=
  values.insertionSort fun left right => le (key left) (key right)

def sorted (texts : List Text) : List Text :=
  sortedBy id texts

theorem perm_sortedBy {α : Type} (key : α → Text) (values : List α) : (sortedBy key values).Perm values :=
  List.perm_insertionSort _ values

@[simp] theorem mem_sortedBy {α : Type} {key : α → Text} {values : List α} {value : α} :
    value ∈ sortedBy key values ↔ value ∈ values :=
  (perm_sortedBy key values).mem_iff

@[simp] theorem mem_sorted {texts : List Text} {text : Text} : text ∈ sorted texts ↔ text ∈ texts :=
  mem_sortedBy

@[simp] theorem sorted_eq_nil {texts : List Text} : sorted texts = [] ↔ texts = [] := by
  rw [← List.length_eq_zero_iff, ← List.length_eq_zero_iff, sorted, (perm_sortedBy id texts).length_eq]

theorem le_total (left right : Text) : le left right = true ∨ le right left = true := by
  induction left generalizing right with
  | nil => exact .inl rfl
  | cons first left ih =>
    cases right with
    | nil => exact .inr rfl
    | cons second right =>
      simp only [le, Bool.or_eq_true, Bool.and_eq_true, decide_eq_true_eq]
      rcases Nat.lt_trichotomy first.toNat second.toNat with less | same | more
      · exact .inl (.inl less)
      · rcases ih right with before | after
        · exact .inl (.inr ⟨Char.toNat_inj.mp same, before⟩)
        · exact .inr (.inr ⟨Char.toNat_inj.mp same.symm, after⟩)
      · exact .inr (.inl more)

theorem le_trans {first second third : Text} (left : le first second = true) (right : le second third = true) :
    le first third = true := by
  induction first generalizing second third with
  | nil => rfl
  | cons character first ih =>
    cases second with
    | nil => cases left
    | cons next second =>
      cases third with
      | nil => cases right
      | cons last third =>
        simp only [le, Bool.or_eq_true, Bool.and_eq_true, decide_eq_true_eq] at left right ⊢
        rcases left with less | ⟨rfl, left⟩
        · rcases right with later | ⟨rfl, -⟩
          · exact .inl (Nat.lt_trans less later)
          · exact .inl less
        · rcases right with later | ⟨rfl, right⟩
          · exact .inl later
          · exact .inr ⟨rfl, ih left right⟩

theorem le_antisymm {left right : Text} (before : le left right = true) (after : le right left = true) : left = right := by
  induction left generalizing right with
  | nil =>
    cases right with
    | nil => rfl
    | cons _ _ => cases after
  | cons first left ih =>
    cases right with
    | nil => cases before
    | cons second right =>
      simp only [le, Bool.or_eq_true, Bool.and_eq_true, decide_eq_true_eq] at before after
      rcases before with less | ⟨rfl, before⟩
      · rcases after with more | ⟨rfl, -⟩
        · omega
        · omega
      · rcases after with more | ⟨-, after⟩
        · omega
        · rw [ih before after]

theorem pairwise_sortedBy {α : Type} (key : α → Text) (values : List α) :
    (sortedBy key values).Pairwise fun left right => le (key left) (key right) = true := by
  have total : Std.Total fun left right : α => le (key left) (key right) = true :=
    ⟨fun left right => le_total (key left) (key right)⟩
  have transitive : IsTrans α fun left right : α => le (key left) (key right) = true := ⟨fun _ _ _ => le_trans⟩
  exact List.pairwise_insertionSort _ values

/-- Values with distinct keys are sorted alike in whatever order they come. -/
theorem sortedBy_eq_of_perm {α : Type} {key : α → Text} {values others : List α} (perm : values.Perm others)
    (distinct : ∀ value ∈ values, ∀ other ∈ values, key value = key other → value = other) :
    sortedBy key values = sortedBy key others := by
  have sameSorted : (sortedBy key values).Perm (sortedBy key others) :=
    (perm_sortedBy key values).trans (perm.trans (perm_sortedBy key others).symm)
  refine List.Perm.eq_of_pairwise ?_ (pairwise_sortedBy key values) (pairwise_sortedBy key others) sameSorted
  intro value other isValue isOther before after
  refine distinct value (mem_sortedBy.mp isValue) other ?_ (le_antisymm before after)
  exact perm.mem_iff.mpr (mem_sortedBy.mp isOther)

theorem sorted_eq_of_perm {texts others : List Text} (perm : texts.Perm others) : sorted texts = sorted others :=
  sortedBy_eq_of_perm perm fun _ _ _ _ same => same

def join (separator : Text) (texts : List Text) : Text :=
  (texts.intersperse separator).flatten

theorem join_cons_cons (separator first second : Text) (rest : List Text) :
    join separator (first :: second :: rest) = first ++ (separator ++ join separator (second :: rest)) := by
  simp [join]

theorem mem_join {separator : Text} {texts : List Text} {character : Char} (member : character ∈ join separator texts) :
    character ∈ separator ∨ ∃ text ∈ texts, character ∈ text := by
  induction texts with
  | nil => cases member
  | cons first rest ih =>
    cases rest with
    | nil => exact .inr ⟨first, List.mem_cons_self, by simpa [join] using member⟩
    | cons second others =>
      rw [join_cons_cons, List.mem_append, List.mem_append] at member
      rcases member with inFirst | inSeparator | later
      · exact .inr ⟨first, List.mem_cons_self, inFirst⟩
      · exact .inl inSeparator
      · obtain inSeparator | ⟨text, isText, inText⟩ := ih later
        · exact .inl inSeparator
        · exact .inr ⟨text, List.mem_cons_of_mem _ isText, inText⟩

/-! ## Numbers -/

def isDigits (text : Text) : Bool :=
  text ≠ [] && text.all Char.isDigit

def digitsValue (text : Text) : Nat :=
  text.foldl (fun value digit => value * 10 + (digit.toNat - '0'.toNat)) 0

def hexValue (character : Char) : Option Nat :=
  if '0' ≤ character ∧ character ≤ '9' then some (character.toNat - '0'.toNat)
  else if 'a' ≤ character ∧ character ≤ 'f' then some (character.toNat - 'a'.toNat + 10)
  else if 'A' ≤ character ∧ character ≤ 'F' then some (character.toNat - 'A'.toNat + 10)
  else none

def ofNat (value : Nat) : Text :=
  Nat.toDigits 10 value

theorem ofNat_injective {left right : Nat} (same : ofNat left = ofNat right) : left = right := by
  have read : Nat.ofDigitChars 10 (ofNat left) 0 = Nat.ofDigitChars 10 (ofNat right) 0 := by rw [same]
  simpa only [ofNat, Nat.ofDigitChars_toDigits (show 1 < 10 by decide) (show 10 ≤ 10 by decide)] using read

theorem isDigits_ofNat (value : Nat) : isDigits (ofNat value) = true := by
  have digits : ∀ digit ∈ ofNat value, digit.isDigit = true :=
    fun _ member => Nat.isDigit_of_mem_toDigits (by decide) (by decide) member
  have nonempty : ofNat value ≠ [] := Nat.toDigits_ne_nil
  simpa [isDigits, nonempty] using digits

theorem digitsValue_ofNat (value : Nat) : digitsValue (ofNat value) = value := by
  have read := Nat.ofDigitChars_toDigits (n := value) (show 1 < 10 by decide) (show 10 ≤ 10 by decide)
  unfold Nat.ofDigitChars at read
  simpa only [digitsValue, ofNat, Nat.mul_comm] using read

/-! ## Percent decoding -/

/-- A character that is being decoded: how many bytes it still needs and where the next one must lie. -/
structure PartialCharacter where
  owed : Nat
  low : Nat
  high : Nat
  value : Nat

def replacementCharacter : Char := Char.ofNat 0xfffd

def startCharacter (byte : Nat) : Text × Option PartialCharacter :=
  if byte < 0x80 then ([Char.ofNat byte], none)
  else if 0xc2 ≤ byte ∧ byte ≤ 0xdf then ([], some ⟨1, 0x80, 0xbf, byte % 32⟩)
  else if byte = 0xe0 then ([], some ⟨2, 0xa0, 0xbf, byte % 16⟩)
  else if byte = 0xed then ([], some ⟨2, 0x80, 0x9f, byte % 16⟩)
  else if 0xe1 ≤ byte ∧ byte ≤ 0xef then ([], some ⟨2, 0x80, 0xbf, byte % 16⟩)
  else if byte = 0xf0 then ([], some ⟨3, 0x90, 0xbf, byte % 8⟩)
  else if byte = 0xf4 then ([], some ⟨3, 0x80, 0x8f, byte % 8⟩)
  else if 0xf1 ≤ byte ∧ byte ≤ 0xf3 then ([], some ⟨3, 0x80, 0xbf, byte % 8⟩)
  else ([replacementCharacter], none)

def feedByte : Option PartialCharacter → Nat → Text × Option PartialCharacter
  | none, byte => startCharacter byte
  | some character, byte =>
    if character.low ≤ byte ∧ byte ≤ character.high then
      let value := character.value * 64 + byte % 64
      if character.owed = 1 then ([Char.ofNat value], none)
      else ([], some ⟨character.owed - 1, 0x80, 0xbf, value⟩)
    else
      -- The bytes read so far are one replacement character, and this byte starts afresh.
      let (text, next) := startCharacter byte
      (replacementCharacter :: text, next)

/-- `bytes.decode("utf-8", "replace")` -/
def decodeUtf8 : Option PartialCharacter → List Nat → Text
  | none, [] => []
  | some _, [] => [replacementCharacter]
  | character, byte :: rest =>
    let (text, next) := feedByte character byte
    text ++ decodeUtf8 next rest

def percentBytes : Text → List Nat
  | '%' :: high :: low :: rest =>
    match hexValue high, hexValue low with
    | some highValue, some lowValue => (highValue * 16 + lowValue) :: percentBytes rest
    | _, _ => '%'.toNat :: percentBytes (high :: low :: rest)
  | character :: rest => character.toNat :: percentBytes rest
  | [] => []

/-- `urllib.parse.unquote`: every run of ASCII characters is decoded on its own. -/
def unquote (text : Text) : Text :=
  (text.splitBy fun left right => isAscii [left] == isAscii [right]).flatMap fun run =>
    if isAscii run then decodeUtf8 none (percentBytes run) else run

end Text

/-! ## Unicode -/

/-- The string methods as the Unicode tables define them on text that is not all ASCII. -/
structure Unicode where
  lower : Text → Text
  upper : Text → Text
  casefold : Text → Text
  title : Text → Text
  nfkc : Text → Text
  repr : Text → Text
  /-- `str.encode("idna")`, where it does not raise. -/
  idna : Text → Option Text
  isDigit : Text → Bool
  int : Text → Option Nat

/-- Tables for text that is all ASCII. -/
def asciiUnicode : Unicode :=
  ⟨id, id, id, id, id, id, fun _ => none, fun _ => false, fun _ => none⟩

namespace Text

/-! ### ASCII case -/

theorem toNat_toLower (character : Char) : character.toLower.toNat =
    if 65 ≤ character.toNat ∧ character.toNat ≤ 90 then character.toNat + 32 else character.toNat := by
  have bounds : (character.val ≥ 'A'.val ∧ character.val ≤ 'Z'.val) ↔ 65 ≤ character.toNat ∧ character.toNat ≤ 90 :=
    and_congr UInt32.le_iff_toNat_le UInt32.le_iff_toNat_le
  unfold Char.toLower
  by_cases isUpper : 65 ≤ character.toNat ∧ character.toNat ≤ 90
  · rw [dif_pos (bounds.mpr isUpper), if_pos isUpper]
    show (character.val + _).toNat = _
    rw [UInt32.toNat_add, show ('a'.val - 'A'.val).toNat = 32 from rfl, Nat.mod_eq_of_lt]
    · rfl
    · have : character.val.toNat ≤ 90 := isUpper.2
      omega
  · rw [dif_neg (fun upper => isUpper (bounds.mp upper)), if_neg isUpper]

/-- A character that is no lower-case letter is only lowered from itself. -/
theorem eq_of_toLower_eq {character lowered : Char} (same : character.toLower = lowered)
    (caseless : ¬ (97 ≤ lowered.toNat ∧ lowered.toNat ≤ 122)) : character = lowered := by
  have value := toNat_toLower character
  rw [same] at value
  apply Char.toNat_inj.mp
  split at value <;> omega

theorem toLower_toLower (character : Char) : character.toLower.toLower = character.toLower := by
  apply Char.toNat_inj.mp
  have value := toNat_toLower character
  have again := toNat_toLower character.toLower
  split at value <;> split at again <;> omega

theorem isAscii_map_toLower {text : Text} (ascii : text.isAscii = true) : isAscii (text.map Char.toLower) = true := by
  unfold isAscii at ascii ⊢
  rw [List.all_eq_true] at ascii ⊢
  intro character member
  obtain ⟨source, sourceMember, rfl⟩ := List.mem_map.mp member
  have value := toNat_toLower source
  have bound : source.toNat < 128 := by simpa using ascii source sourceMember
  simp only [decide_eq_true_eq]
  split at value <;> omega

/-- Only lower-case letters come from other characters. -/
theorem mem_of_mem_map_toLower {text : Text} {character : Char} (member : character ∈ text.map Char.toLower)
    (caseless : ¬ (97 ≤ character.toNat ∧ character.toNat ≤ 122)) : character ∈ text := by
  obtain ⟨source, sourceMember, same⟩ := List.mem_map.mp member
  rw [← eq_of_toLower_eq same caseless]
  exact sourceMember

section

variable (unicode : Unicode)

def lower (text : Text) : Text :=
  if text.isAscii then text.map Char.toLower else unicode.lower text

def upper (text : Text) : Text :=
  if text.isAscii then text.map Char.toUpper else unicode.upper text

def casefold (text : Text) : Text :=
  if text.isAscii then text.map Char.toLower else unicode.casefold text

/-- ASCII letters after a letter are lowered, others raised. -/
def titleAscii : Bool → Text → Text
  | _, [] => []
  | afterLetter, character :: rest =>
    (if afterLetter then character.toLower else character.toUpper) :: titleAscii character.isAlpha rest

def title (text : Text) : Text :=
  if text.isAscii then titleAscii false text else unicode.title text

def repr (text : Text) : Text :=
  if text.all fun character => 32 ≤ character.toNat && character.toNat < 127 && character.toNat != 39 &&
      character.toNat != 92 then
    ("'" : Text) ++ text ++ ("'" : Text)
  else
    unicode.repr text

def reprList (texts : List Text) : Text :=
  ("[" : Text) ++ join ", " (texts.map (repr unicode)) ++ ("]" : Text)

/-- ASCII names are encoded as they are when no label is too long and none but the last is empty. -/
def idna (text : Text) : Option Text :=
  if text.isAscii then
    let labels := text.splitOn '.'
    if (labels.dropLast.all fun label => 0 < label.length && label.length < 64) &&
        (labels.getLast?.all fun label => label.length < 64) then
      some text
    else
      none
  else
    unicode.idna text

def isDigit (text : Text) : Bool :=
  if text.isAscii then isDigits text else unicode.isDigit text

def int (text : Text) : Option Nat :=
  if text.isAscii then some (digitsValue text) else unicode.int text

end

variable {unicode : Unicode} {text : Text}

theorem lower_of_isAscii (ascii : text.isAscii = true) : text.lower unicode = text.map Char.toLower :=
  if_pos ascii

theorem casefold_of_isAscii (ascii : text.isAscii = true) : text.casefold unicode = text.map Char.toLower :=
  if_pos ascii

theorem splitOn_map_toLower (text : Text) :
    (text.map Char.toLower).splitOn '.' = (text.splitOn '.').map (List.map Char.toLower) := by
  induction text with
  | nil => rfl
  | cons character rest ih =>
    rw [List.map_cons, List.splitOn_cons_eq_if_modifyHead, List.splitOn_cons_eq_if_modifyHead, ih]
    by_cases isDot : character = '.'
    · subst isDot
      rfl
    · have stillNoDot : (character.toLower == '.') = false := by
        simpa using fun same => isDot (eq_of_toLower_eq same (by decide))
      have noDot : (character == '.') = false := by simpa using isDot
      rw [stillNoDot, noDot]
      cases rest.splitOn '.' <;> rfl

/-- Encoding an ASCII name changes nothing, and it does not depend on case. -/
theorem idna_of_isAscii {encoded : Text} (ascii : text.isAscii = true) (isEncoded : text.idna unicode = some encoded) :
    encoded = text ∧ idna unicode (text.map Char.toLower) = some (text.map Char.toLower) := by
  unfold idna at isEncoded ⊢
  rw [if_pos ascii] at isEncoded
  rw [if_pos (isAscii_map_toLower ascii), splitOn_map_toLower]
  dsimp only at isEncoded ⊢
  split at isEncoded
  · rename_i shortLabels
    refine ⟨(Option.some.inj isEncoded).symm, if_pos ?_⟩
    simpa [List.all_map, Function.comp_def, ← List.map_dropLast, List.getLast?_map, Option.all_map] using shortLabels
  · cases isEncoded

end Text

end Mcplica.Library
