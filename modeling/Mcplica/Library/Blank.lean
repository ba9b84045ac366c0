import Mcplica.Library.Text

/-! # Texts up to white space

What trimming, cutting and splitting at blank lines leave of a text: every character that is no white space, in
order. -/

namespace Mcplica.Library.Text

/-- The characters that are no white space. -/
def ink (text : Text) : Text :=
  text.filter fun character => !isSpace character

@[simp] theorem ink_nil : ink [] = [] := rfl

@[simp] theorem ink_append (first second : Text) : ink (first ++ second) = ink first ++ ink second :=
  List.filter_append _ _

theorem ink_of_isSpace {text : Text} (blank : ∀ character ∈ text, isSpace character = true) : ink text = [] := by
  unfold ink
  rw [List.filter_eq_nil_iff]
  intro character member
  simp [blank character member]

theorem ink_dropWhile (text : Text) : ink (text.dropWhile isSpace) = ink text := by
  have blank := @ink_of_isSpace (text.takeWhile isSpace) fun _ member => List.mem_takeWhile_imp member
  calc ink (text.dropWhile isSpace) = ink (text.takeWhile isSpace ++ text.dropWhile isSpace) := by
        rw [ink_append, blank, List.nil_append]
    _ = ink text := by rw [List.takeWhile_append_dropWhile]

theorem ink_reverse (text : Text) : ink text.reverse = (ink text).reverse :=
  List.filter_reverse

@[simp] theorem ink_strip (text : Text) : ink (strip text) = ink text := by
  unfold strip List.rdropWhile
  rw [ink_reverse, ink_dropWhile, ink_reverse, List.reverse_reverse, ink_dropWhile]

theorem length_strip_le (text : Text) : (strip text).length ≤ text.length :=
  (List.rdropWhile_prefix _ _).length_le.trans (List.dropWhile_suffix _).length_le

theorem ink_take_drop (count : Nat) (text : Text) : ink (text.take count) ++ ink (text.drop count) = ink text := by
  rw [← ink_append, List.take_append_drop]

theorem flatMap_ink_filter (parts : List Text) : (parts.filter (· ≠ [])).flatMap ink = parts.flatMap ink := by
  induction parts with
  | nil => rfl
  | cons part rest ih =>
    rw [List.filter_cons, List.flatMap_cons, ← ih]
    split
    · rfl
    · rename_i empty
      have isEmpty : part = [] := by simpa using empty
      rw [isEmpty]
      rfl

/-! ## Trimmed texts -/

/-- The text begins and ends with a character that is no white space. -/
structure Trimmed (text : Text) : Prop where
  starts : ∃ first ∈ text.head?, isSpace first = false
  ends : ∃ last ∈ text.getLast?, isSpace last = false

namespace Trimmed

variable {text first second : Text}

theorem ne_nil (trimmed : Trimmed text) : text ≠ [] := by
  rintro rfl
  obtain ⟨_, member, -⟩ := trimmed.starts
  cases member

theorem length_pos (trimmed : Trimmed text) : 0 < text.length :=
  List.length_pos_iff.mpr trimmed.ne_nil

theorem strip_eq (trimmed : Trimmed text) : strip text = text := by
  obtain ⟨start, isStart, startInk⟩ := trimmed.starts
  obtain ⟨last, isLast, lastInk⟩ := trimmed.ends
  have kept : text.dropWhile isSpace = text := by
    obtain ⟨rest, rfl⟩ := List.head?_eq_some_iff.mp isStart
    rw [List.dropWhile_cons, if_neg (by simp [startInk])]
  unfold strip
  rw [kept, List.rdropWhile_eq_self_iff]
  intro nonempty
  rw [List.getLast?_eq_some_getLast nonempty, Option.mem_some_iff] at isLast
  simp [isLast, lastInk]

theorem append (trimmed : Trimmed first) (between : Text) (trimmedSecond : Trimmed second) :
    Trimmed (first ++ between ++ second) := by
  obtain ⟨start, isStart, startInk⟩ := trimmed.starts
  obtain ⟨last, isLast, lastInk⟩ := trimmedSecond.ends
  refine ⟨⟨start, ?_, startInk⟩, ⟨last, ?_, lastInk⟩⟩
  · obtain ⟨rest, rfl⟩ := List.head?_eq_some_iff.mp isStart
    rfl
  · rw [Option.mem_def, List.getLast?_append, Option.mem_def.mp isLast, Option.some_or]

end Trimmed

theorem trimmed_strip {text : Text} (nonempty : strip text ≠ []) : Trimmed (strip text) := by
  have endInk := List.rdropWhile_last_not isSpace (text.dropWhile isSpace) nonempty
  refine ⟨⟨(strip text).head nonempty, List.head?_eq_some_head nonempty, ?_⟩,
    ⟨(strip text).getLast nonempty, List.getLast?_eq_some_getLast nonempty, by simpa [strip] using endInk⟩⟩
  -- what is left after the second trimming begins like what was left after the first
  have isStart : strip text <+: text.dropWhile isSpace := List.rdropWhile_prefix _ _
  have remains : text.dropWhile isSpace ≠ [] := fun empty => nonempty (List.prefix_nil.mp (empty ▸ isStart))
  have sameHead : (strip text).head nonempty = (text.dropWhile isSpace).head remains := by
    obtain ⟨rest, whole⟩ := isStart
    simp only [← whole, List.head_append_of_ne_nil nonempty]
  rw [sameHead]
  simpa using List.head_dropWhile_not isSpace remains

theorem strip_ne_nil {text : Text} {character : Char} (member : character ∈ text) (isInk : isSpace character = false) :
    strip text ≠ [] := by
  intro empty
  have inked : character ∈ ink (strip text) := by
    rw [ink_strip]
    exact List.mem_filter.mpr ⟨member, by simp [isInk]⟩
  rw [empty] at inked
  cases inked

namespace Trimmed

variable {text : Text}

theorem take (trimmed : Trimmed text) {count : Nat} (positive : 0 < count) : Trimmed (strip (text.take count)) := by
  obtain ⟨start, isStart, startInk⟩ := trimmed.starts
  obtain ⟨rest, rfl⟩ := List.head?_eq_some_iff.mp isStart
  obtain ⟨fewer, rfl⟩ := Nat.exists_eq_add_one_of_ne_zero (Nat.pos_iff_ne_zero.mp positive)
  apply trimmed_strip
  rw [List.take_succ_cons]
  exact strip_ne_nil List.mem_cons_self startInk

theorem drop (trimmed : Trimmed text) {count : Nat} (shorter : count < text.length) :
    Trimmed (strip (text.drop count)) := by
  obtain ⟨last, isLast, lastInk⟩ := trimmed.ends
  apply trimmed_strip
  have remains : text.drop count ≠ [] := List.ne_nil_of_length_pos (by rw [List.length_drop]; omega)
  have isEnd : last ∈ (text.drop count).getLast? := by
    rw [List.getLast?_drop, if_neg (by omega)]
    exact isLast
  exact strip_ne_nil (List.mem_of_getLast? isEnd) lastInk

/-- The end of the text ends with ink, so only its start is trimmed. -/
theorem strip_drop_suffix (trimmed : Trimmed text) (count : Nat) : strip (text.drop count) <:+ text := by
  obtain ⟨last, isLast, lastInk⟩ := trimmed.ends
  have isEnd : (text.drop count).dropWhile isSpace <:+ text := (List.dropWhile_suffix _).trans (List.drop_suffix _ _)
  have kept : strip (text.drop count) = (text.drop count).dropWhile isSpace := by
    unfold strip
    rw [List.rdropWhile_eq_self_iff]
    intro nonempty isBlank
    obtain ⟨front, whole⟩ := isEnd
    rw [Option.mem_def, ← whole, List.getLast?_append_of_ne_nil _ nonempty, List.getLast?_eq_some_getLast nonempty,
      Option.some.injEq] at isLast
    rw [isLast, lastInk] at isBlank
    cases isBlank
  rw [kept]
  exact isEnd

end Trimmed

/-! ## The last place of a character -/

/-- `text.rfind(character, 0, limit)` -/
def rfind (character : Char) (text : Text) (limit : Nat) : Option Nat :=
  let front := text.take limit
  (front.reverse.idxOf? character).map fun fromEnd => front.length - 1 - fromEnd

theorem rfind_lt {character : Char} {text : Text} {limit index : Nat}
    (found : rfind character text limit = some index) : index < limit ∧ index < text.length := by
  obtain ⟨fromEnd, isIndex, rfl⟩ := Option.map_eq_some_iff.mp found
  have nonempty : 0 < (text.take limit).length := by
    rw [List.length_pos_iff]
    intro empty
    rw [empty] at isIndex
    cases isIndex
  rw [List.length_take] at nonempty ⊢
  omega

/-! ## Blank lines -/

/-- What stands behind a match of `\n\s*\n+` at the start of a text. -/
def blankLine : Text → Option Text
  | '\n' :: rest =>
    let spaces := rest.takeWhile isSpace
    -- the match is greedy: it ends with the last line feed among the white space
    if spaces.contains '\n' then
      some ((spaces.reverse.takeWhile (· != '\n')).reverse ++ rest.dropWhile isSpace)
    else
      none
  | _ => none

theorem blankLine_eq_some {text behind : Text} (found : blankLine text = some behind) :
    behind.length < text.length ∧ ink behind = ink text := by
  unfold blankLine at found
  split at found
  · rename_i rest
    dsimp only at found
    split at found
    · cases found
      have blank : ∀ character ∈ (rest.takeWhile isSpace).reverse.takeWhile (· != '\n'), isSpace character = true := by
        intro character member
        exact List.mem_takeWhile_imp (List.mem_reverse.mp ((List.takeWhile_prefix _).subset member))
      constructor
      · have shorter := (List.takeWhile_prefix (· != '\n') (l := (rest.takeWhile isSpace).reverse)).length_le
        have whole := congrArg List.length (List.takeWhile_append_dropWhile (p := isSpace) (l := rest))
        rw [List.length_reverse] at shorter
        rw [List.length_append] at whole
        rw [List.length_append, List.length_reverse, List.length_cons]
        omega
      · have lineFeed : ink ('\n' :: rest) = ink rest := rfl
        rw [ink_append, ink_reverse, ink_of_isSpace blank, ink_dropWhile, lineFeed]
        rfl
    · cases found
  · cases found

/-- The pieces of `re.split(r"\n\s*\n+", text)`, the first of which begins with what was read before, in reverse. -/
def splitBlankLines (piece : Text) : Text → List Text
  | [] => [piece.reverse]
  | character :: rest =>
    match _found : blankLine (character :: rest) with
    | some behind => piece.reverse :: splitBlankLines [] behind
    | none => splitBlankLines (character :: piece) rest
termination_by text => text.length
decreasing_by
  · exact (blankLine_eq_some ‹_›).1
  · exact Nat.lt_succ_self _

theorem ink_splitBlankLines (piece text : Text) :
    (splitBlankLines piece text).flatMap ink = ink piece.reverse ++ ink text := by
  induction piece, text using splitBlankLines.induct with
  | case1 piece => simp [splitBlankLines]
  | case2 piece character rest behind found ih =>
    rw [splitBlankLines]
    split
    · rename_i other same
      cases found.symm.trans same
      rw [List.flatMap_cons, ih, (blankLine_eq_some found).2]
      rfl
    · rename_i absent
      cases found.symm.trans absent
  | case3 piece character rest absent ih =>
    rw [splitBlankLines]
    split
    · rename_i behind found
      cases absent.symm.trans found
    · rw [ih, List.reverse_cons, ink_append, List.append_assoc, ← ink_append]
      rfl

end Mcplica.Library.Text
