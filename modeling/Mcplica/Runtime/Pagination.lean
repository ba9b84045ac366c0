import Mcplica.Library.Checks
import Mcplica.Library.Text
import Mathlib.Algebra.Group.Nat.Defs

/-! # Pages of tools and resources

`_page` cuts a list into pages of one hundred; a cursor names the offset of the next one. `listAll` is the loop of a
client that follows the cursors. -/

namespace Mcplica.Runtime.Pagination

open Mcplica.Library

inductive PageError where
  /-- `MCPError(INVALID_PARAMS, message)` -/
  | invalidParams (message : Text)
  /-- The `ValueError` of `int`. -/
  | value
  deriving Repr, DecidableEq

def listPageSize : Nat := 100

def cursorOf (nameSpace : Text) (offset : Nat) : Text :=
  nameSpace ++ ':' :: Text.ofNat offset

variable {α : Type} (unicode : Unicode) (nameSpace : Text) (values : List α)

def invalidCursor : PageError :=
  .invalidParams "Invalid pagination cursor"

/-- The page at an offset and the cursor of the next one. -/
def pageAt (offset : Nat) : List α × Option Text :=
  let stop := min values.length (offset + listPageSize)
  ((values.take stop).drop offset, if stop < values.length then some (cursorOf nameSpace stop) else none)

/-- `str.removeprefix` -/
def afterStart (text start : Text) : Text :=
  if text.startsWith start then text.drop start.length else text

def offsetOf (cursor : Text) : Except PageError Nat := do
  let start := nameSpace ++ [':']
  let rawOffset := afterStart cursor start
  ensure (!(!cursor.startsWith start || !rawOffset.isDigit unicode || rawOffset.length > 10)) invalidCursor
  let offset ← obtain? (rawOffset.int unicode) .value
  ensure (!(offset ≤ 0 || offset ≥ values.length)) invalidCursor
  return offset

def page (cursor : Option Text) : Except PageError (List α × Option Text) := do
  let offset ←
    match cursor with
    | none => pure 0
    | some cursor => offsetOf unicode nameSpace values cursor
  return pageAt nameSpace values offset

/-- The loop of `_list_tools`; `none` when it has not ended after so many pages. -/
def listAll : Nat → Option Text → List α → Option (Except PageError (List α))
  | 0, _, _ => none
  | pages + 1, cursor, collected =>
    match page unicode nameSpace values cursor with
    | .error error => some (.error error)
    | .ok (items, none) => some (.ok (collected ++ items))
    | .ok (items, some next) => listAll pages (some next) (collected ++ items)

/-! ## One page -/

/-- The offsets at which a page begins when the list is read from the start. -/
def OwnOffset (length offset : Nat) : Prop :=
  0 < offset ∧ offset < length ∧ listPageSize ∣ offset

variable {unicode nameSpace values} {cursor raw : Text} {offset : Nat}

/-- The texts behind the name space that `_page` hands to `int`. -/
def Readable (unicode : Unicode) (raw : Text) : Prop :=
  raw.isDigit unicode = true ∧ raw.length ≤ 10

theorem startsWith_iff {text start : Text} : text.startsWith start = true ↔ ∃ rest, text = start ++ rest := by
  rw [Text.startsWith, List.isPrefixOf_iff_prefix]
  exact ⟨fun ⟨rest, same⟩ => ⟨rest, same.symm⟩, fun ⟨rest, same⟩ => ⟨rest, same.symm⟩⟩

theorem offsetOf_readable (readable : Readable unicode raw) :
    offsetOf unicode nameSpace values (nameSpace ++ ':' :: raw) =
      match raw.int unicode with
      | none => .error .value
      | some offset => if 0 < offset ∧ offset < values.length then .ok offset else .error invalidCursor := by
  have starts : Text.startsWith (nameSpace ++ [':'] ++ raw) (nameSpace ++ [':']) = true := startsWith_iff.mpr ⟨raw, rfl⟩
  have short : ¬ raw.length > 10 := not_lt.mpr readable.2
  rw [List.append_cons, offsetOf, afterStart]
  rw [starts, if_pos rfl, List.drop_left, readable.1, decide_eq_false short]
  cases raw.int unicode with
  | none => rfl
  | some offset =>
    by_cases inside : 0 < offset ∧ offset < values.length
    · have passed : (!(decide (offset ≤ 0) || decide (offset ≥ values.length))) = true := by
        simp
        omega
      simp only [if_pos inside, obtain?, bind, Except.bind, passed]
      rfl
    · have failed : (!(decide (offset ≤ 0) || decide (offset ≥ values.length))) = false := by
        simp
        omega
      simp only [if_neg inside, obtain?, bind, Except.bind, failed]
      rfl

/-- Every other cursor is refused. -/
theorem offsetOf_of_not_readable (other : ∀ raw, cursor = nameSpace ++ ':' :: raw → ¬ Readable unicode raw) :
    offsetOf unicode nameSpace values cursor = .error invalidCursor := by
  have failed : (!(!cursor.startsWith (nameSpace ++ [':']) || !(afterStart cursor (nameSpace ++ [':'])).isDigit unicode ||
      (afterStart cursor (nameSpace ++ [':'])).length > 10)) = false := by
    rw [Bool.eq_false_iff]
    intro passed
    simp only [Bool.not_eq_true', Bool.or_eq_false_iff, Bool.not_eq_false', decide_eq_false_iff_not,
      gt_iff_lt, not_lt] at passed
    obtain ⟨⟨starts, digits⟩, short⟩ := passed
    obtain ⟨raw, rfl⟩ := startsWith_iff.mp starts
    rw [afterStart, if_pos starts, List.drop_left] at digits short
    exact other raw (List.append_cons ..).symm ⟨digits, short⟩
  rw [offsetOf, failed]
  rfl

/-! ## Own cursors -/

/-- No cursor for the start, its offset for every other page. -/
def startCursor (nameSpace : Text) (offset : Nat) : Option Text :=
  if offset = 0 then none else some (cursorOf nameSpace offset)

theorem isAscii_ofNat (value : Nat) : (Text.ofNat value).isAscii = true := by
  simp only [Text.isAscii, List.all_eq_true, decide_eq_true_eq]
  intro digit member
  have isDigit : digit.isDigit = true := Nat.isDigit_of_mem_toDigits (by decide) (by decide) member
  simp only [Char.isDigit, ge_iff_le, Bool.and_eq_true, decide_eq_true_eq, UInt32.le_iff_toNat_le] at isDigit
  have atMost : digit.toNat ≤ 57 := isDigit.2
  omega

theorem int_ofNat (value : Nat) : (Text.ofNat value).int unicode = some value := by
  rw [Text.int, if_pos (isAscii_ofNat value), Text.digitsValue_ofNat]

theorem readable_ofNat {value : Nat} : Readable unicode (Text.ofNat value) ↔ value < 10 ^ 10 := by
  have digits : (Text.ofNat value).isDigit unicode = true := by
    rw [Text.isDigit, if_pos (isAscii_ofNat value), Text.isDigits_ofNat]
  exact (and_iff_right digits).trans (Nat.length_toDigits_le_iff (by decide) (by decide))

theorem page_startCursor (inside : offset = 0 ∨ offset < values.length) (short : offset < 10 ^ 10) :
    page unicode nameSpace values (startCursor nameSpace offset) = .ok (pageAt nameSpace values offset) := by
  by_cases isStart : offset = 0
  · subst isStart
    rfl
  · have read : offsetOf unicode nameSpace values (cursorOf nameSpace offset) = .ok offset := by
      rw [cursorOf, offsetOf_readable (readable_ofNat.mpr short), int_ofNat]
      exact if_pos ⟨Nat.pos_of_ne_zero isStart, inside.resolve_left isStart⟩
    rw [startCursor, if_neg isStart, page, read]
    rfl

/-- A cursor of more than ten digits is refused, also when `_page` has made it. -/
theorem page_startCursor_of_long (long : 10 ^ 10 ≤ offset) :
    page unicode nameSpace values (startCursor nameSpace offset) = .error invalidCursor := by
  have refused : offsetOf unicode nameSpace values (cursorOf nameSpace offset) = .error invalidCursor := by
    apply offsetOf_of_not_readable
    intro raw same readable
    have isRaw : Text.ofNat offset = raw := by
      simpa [cursorOf] using same
    rw [← isRaw, readable_ofNat] at readable
    omega
  have notStart : offset ≠ 0 := by omega
  rw [startCursor, if_neg notStart, page, refused]
  rfl

/-! ## All pages -/

theorem take_append_page (offset : Nat) : values.take offset ++ (pageAt nameSpace values offset).1 =
    values.take (min values.length (offset + listPageSize)) := by
  have inside : min offset (min values.length (offset + listPageSize)) = min offset values.length := by omega
  have joined := List.take_append_drop offset (values.take (min values.length (offset + listPageSize)))
  rw [List.take_take, inside, ← List.take_eq_take_min] at joined
  exact joined

/-- One turn of the loop. -/
theorem listAll_succ (inside : offset = 0 ∨ offset < values.length) (short : offset < 10 ^ 10) (pages : Nat) :
    listAll unicode nameSpace values (pages + 1) (startCursor nameSpace offset) (values.take offset) =
      if offset + listPageSize < values.length then
        listAll unicode nameSpace values pages (startCursor nameSpace (offset + listPageSize))
          (values.take (offset + listPageSize))
      else some (.ok values) := by
  have joined := @take_append_page _ nameSpace values offset
  have isPage : pageAt nameSpace values offset = ((pageAt nameSpace values offset).1,
      if min values.length (offset + listPageSize) < values.length then
        some (cursorOf nameSpace (min values.length (offset + listPageSize))) else none) := rfl
  rw [listAll, page_startCursor inside short, isPage]
  by_cases more : offset + listPageSize < values.length
  · have stops : min values.length (offset + listPageSize) = offset + listPageSize := min_eq_right more.le
    have notStart : offset + listPageSize ≠ 0 := Nat.succ_ne_zero _
    rw [stops] at joined ⊢
    rw [if_pos more, if_pos more, startCursor, if_neg notStart]
    dsimp only
    rw [joined]
  · have stops : min values.length (offset + listPageSize) = values.length := min_eq_left (not_lt.mp more)
    rw [stops, List.take_length] at joined
    rw [stops, if_neg (lt_irrefl _), if_neg more]
    dsimp only
    rw [joined]

/-- The pages from an offset on, as long as every offset has a cursor that is accepted. -/
theorem listAll_from (short : values.length ≤ 10 ^ 10) (pages : Nat) (enough : values.length ≤ offset + listPageSize * pages)
    (inside : offset = 0 ∨ offset < values.length) :
    listAll unicode nameSpace values (pages + 1) (startCursor nameSpace offset) (values.take offset) =
      some (.ok values) := by
  induction pages generalizing offset with
  | zero =>
    rw [listAll_succ inside (by omega), if_neg (by omega)]
  | succ pages ih =>
    rw [listAll_succ inside (by omega)]
    by_cases more : offset + listPageSize < values.length
    · rw [if_pos more]
      exact ih (by rw [Nat.mul_succ] at enough; omega) (.inr more)
    · rw [if_neg more]

/-- A longer list is never read to its end: the loop fails at the first cursor of eleven digits. -/
theorem listAll_of_long (long : 10 ^ 10 < values.length) (pages : Nat) (own : listPageSize ∣ offset)
    (inside : offset ≤ 10 ^ 10) :
    listAll unicode nameSpace values pages (startCursor nameSpace offset) (values.take offset) ≠ some (.ok values) := by
  induction pages generalizing offset with
  | zero => exact nofun
  | succ pages ih =>
    by_cases short : offset < 10 ^ 10
    · have next : offset + listPageSize ≤ 10 ^ 10 := by
        unfold listPageSize at own ⊢
        omega
      rw [listAll_succ (.inr (by omega)) short, if_pos (by omega)]
      exact ih (Nat.dvd_add own (Nat.dvd_refl _)) next
    · rw [listAll, page_startCursor_of_long (not_lt.mp short)]
      exact nofun

/-- Following the cursors from the start ends and gives the list. -/
def Covers (unicode : Unicode) (nameSpace : Text) (values : List α) : Prop :=
  ∃ pages, listAll unicode nameSpace values pages none [] = some (.ok values)

theorem covers_iff : Covers unicode nameSpace values ↔ values.length ≤ 10 ^ 10 := by
  constructor
  · rintro ⟨pages, listed⟩
    by_contra long
    exact @listAll_of_long _ _ _ _ 0 (not_le.mp long) pages ⟨0, rfl⟩ (Nat.zero_le _) listed
  · intro short
    exact ⟨_, @listAll_from _ _ _ _ 0 short values.length (by unfold listPageSize; omega) (.inl rfl)⟩

/-! ## Cursors of a client -/

/-- The cursor gives a page at one of the own offsets, or it is refused. -/
def Answers (unicode : Unicode) (nameSpace : Text) (values : List α) (cursor : Text) : Prop :=
  (∃ offset, OwnOffset values.length offset ∧
    page unicode nameSpace values (some cursor) = .ok (pageAt nameSpace values offset)) ∨
  ∃ message, page unicode nameSpace values (some cursor) = .error (.invalidParams message)

/-- What stands behind the name space converts where it counts as digits, to the start of a page where it lies inside
the list. -/
def Converts (unicode : Unicode) (nameSpace : Text) (length : Nat) (cursor : Text) : Prop :=
  ∀ raw : Text, cursor = nameSpace ++ ':' :: raw → Readable unicode raw →
    ∃ offset, raw.int unicode = some offset ∧ (0 < offset → offset < length → listPageSize ∣ offset)

/-- A page tells its offset, even when the list repeats its values. -/
theorem offset_of_pageAt {other : Nat} (otherInside : other < values.length)
    (same : pageAt nameSpace values offset = pageAt nameSpace values other) : offset = other := by
  have lengths := congrArg (List.length ∘ Prod.fst) same
  have cursors := congrArg Prod.snd same
  simp only [pageAt, Function.comp_apply, List.length_drop, List.length_take] at lengths cursors
  split at cursors
  · rename_i more
    split at cursors
    · have isNext : min values.length (offset + listPageSize) = min values.length (other + listPageSize) := by
        have ends := Option.some.inj cursors
        simp only [cursorOf, List.append_cancel_left_eq, List.cons.injEq, true_and] at ends
        exact Text.ofNat_injective ends
      omega
    · cases cursors
  · split at cursors
    · cases cursors
    · omega

theorem answers_iff : Answers unicode nameSpace values cursor ↔ Converts unicode nameSpace values.length cursor := by
  by_cases isReadable : ∃ raw, cursor = nameSpace ++ ':' :: raw ∧ Readable unicode raw
  · obtain ⟨raw, rfl, readable⟩ := isReadable
    have converts : Converts unicode nameSpace values.length (nameSpace ++ ':' :: raw) ↔
        ∃ offset, Text.int unicode raw = some offset ∧
          (0 < offset → offset < values.length → listPageSize ∣ offset) := by
      constructor
      · exact fun converts => converts raw rfl readable
      · rintro converts other same -
        have isRaw : raw = other := by simpa using same
        exact isRaw ▸ converts
    rw [converts, Answers, page, offsetOf_readable readable]
    cases Text.int unicode raw with
    | none =>
      simp [bind, Except.bind]
    | some offset =>
      by_cases inside : 0 < offset ∧ offset < values.length
      · simp only [if_pos inside, bind, Except.bind, pure, Except.pure, Except.ok.injEq, reduceCtorEq, exists_const,
          or_false, Option.some.injEq, exists_eq_left']
        constructor
        · rintro ⟨own, isOwn, same⟩ - -
          rw [offset_of_pageAt isOwn.2.1 same]
          exact isOwn.2.2
        · exact fun own => ⟨offset, ⟨inside.1, inside.2, own inside.1 inside.2⟩, rfl⟩
      · simp only [if_neg inside, bind, Except.bind]
        refine iff_of_true (.inr ⟨_, rfl⟩) ⟨offset, rfl, fun positive less => absurd ⟨positive, less⟩ inside⟩
  · have other : ∀ raw, cursor = nameSpace ++ ':' :: raw → ¬ Readable unicode raw :=
      fun raw same readable => isReadable ⟨raw, same, readable⟩
    refine iff_of_true (.inr ⟨"Invalid pagination cursor", ?_⟩) fun raw same readable => absurd readable (other raw same)
    rw [page, offsetOf_of_not_readable other]
    rfl

/-- The pages cover a list as long as its offsets have ten digits, and a cursor is answered as long as its digits convert
to the start of a page. -/
theorem pagination_iff {α : Type} (unicode : Unicode) (nameSpace : Text) (values : List α) :
    (Covers unicode nameSpace values ↔ values.length ≤ 10 ^ 10) ∧
    ∀ cursor, Answers unicode nameSpace values cursor ↔ Converts unicode nameSpace values.length cursor :=
  ⟨covers_iff, fun _ => answers_iff⟩

/-! ## A superscript -/

/-- `str.isdigit` holds of a superscript two, and `int` raises. -/
def superscripts : Unicode :=
  { asciiUnicode with isDigit := fun text => text ≠ [] && text.all fun character => character.isDigit || character = '²' }

theorem superscript_cursor_raises_value :
    page superscripts "tools" [0, 1] (some "tools:²") = .error .value ∧
      ¬ Answers superscripts "tools" [0, 1] "tools:²" := by
  have raised : page superscripts "tools" [0, 1] (some "tools:²") = .error .value := rfl
  refine ⟨raised, ?_⟩
  rintro (⟨offset, -, answered⟩ | ⟨message, refused⟩)
  · rw [raised] at answered
    cases answered
  · rw [raised] at refused
    cases refused

end Mcplica.Runtime.Pagination
