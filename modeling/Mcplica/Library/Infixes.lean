import Mcplica.Library.Text

/-! # Parts of longer texts

Where a text can be found in one that was put together from parts: between separators that it does not contain, and in
escaped parts of which it has nothing to escape. -/

namespace Mcplica.Library

variable {α : Type} {needle before after : List α}

/-! ## Separators -/

theorem infix_append_cons_iff {separator : α} (absent : separator ∉ needle) :
    needle <:+: before ++ separator :: after ↔ needle <:+: before ∨ needle <:+: after := by
  constructor
  · rintro ⟨left, right, same⟩
    rw [List.append_assoc, List.append_eq_append_iff] at same
    obtain ⟨rest, rfl, isRest⟩ | ⟨rest, rfl, isRest⟩ := same
    · rw [List.append_eq_append_iff] at isRest
      obtain ⟨inner, rfl, isInner⟩ | ⟨inner, rfl, isInner⟩ := isRest
      · exact .inl ⟨left, inner, by simp⟩
      · cases inner with
        | nil => exact .inl ⟨left, [], by simp⟩
        | cons first others =>
          obtain rfl := (List.cons.inj isInner).1
          exact absurd (List.mem_append_right rest List.mem_cons_self) absent
    · cases rest with
      | nil =>
        cases needle with
        | nil => exact .inl List.nil_infix
        | cons first others => exact absurd (List.cons.inj isRest).1 fun same => absent (same ▸ List.mem_cons_self)
      | cons first others =>
        obtain rfl := (List.cons.inj isRest).2
        exact .inr ⟨others, right, List.append_assoc _ _ _⟩
  · rintro (inBefore | inAfter)
    · exact inBefore.trans (List.prefix_append _ _).isInfix
    · exact inAfter.trans ((List.suffix_cons separator after).trans (List.suffix_append _ _)).isInfix

theorem infix_cons_iff_of_not_mem {first : α} (nonempty : needle ≠ []) (absent : first ∉ needle) :
    needle <:+: first :: after ↔ needle <:+: after := by
  have split := @infix_append_cons_iff α needle [] after first absent
  rw [List.nil_append, List.infix_nil] at split
  exact split.trans (or_iff_right nonempty)

theorem infix_concat_iff_of_not_mem {last : α} (nonempty : needle ≠ []) (absent : last ∉ needle) :
    needle <:+: before ++ [last] ↔ needle <:+: before := by
  rw [infix_append_cons_iff absent, List.infix_nil]
  exact or_iff_left nonempty

theorem infix_join_iff {separator : Char} {needle : Text} {texts : List Text} (nonempty : needle ≠ [])
    (absent : separator ∉ needle) : needle <:+: Text.join [separator] texts ↔ ∃ text ∈ texts, needle <:+: text := by
  induction texts with
  | nil => simp [Text.join, nonempty]
  | cons first rest ih =>
    cases rest with
    | nil => simp [Text.join]
    | cons second others =>
      rw [Text.join_cons_cons, List.singleton_append, infix_append_cons_iff absent, ih]
      simp only [List.mem_cons, exists_eq_or_imp]

/-! ## Escapes -/

section Escapes

variable {escape : α → List α} {marker first : α} {rest text : List α}

/-- A part that is written without escapes can only start at a character that is written as itself. -/
theorem infix_append_of_not_mem (absent : first ∉ before) :
    first :: rest <:+: before ++ after ↔ first :: rest <:+: after := by
  induction before with
  | nil => rfl
  | cons other others ih =>
    rw [List.mem_cons, not_or] at absent
    rw [List.cons_append, List.infix_cons_iff, ih absent.2]
    refine or_iff_right ?_
    intro isPrefix
    exact absent.1 (List.cons_prefix_cons.mp isPrefix).1

variable (marked : ∀ character, escape character = [character] ∨ ∃ tail, escape character = marker :: tail ∧ first ∉ tail)

include marked

theorem prefix_flatMap_escape (verbatim : ∀ character ∈ needle, escape character = [character] ∧ character ≠ marker) :
    needle <+: text.flatMap escape ↔ needle <+: text := by
  induction needle generalizing text with
  | nil => simp
  | cons here others ih =>
    cases text with
    | nil => simp
    | cons character characters =>
      have later := @ih characters fun other member => verbatim other (List.mem_cons_of_mem _ member)
      obtain ⟨asItself, notMarker⟩ := verbatim here List.mem_cons_self
      rw [List.flatMap_cons]
      rcases marked character with single | ⟨tail, isEscape, -⟩
      · rw [single, List.singleton_append, List.cons_prefix_cons, List.cons_prefix_cons, later]
      · rw [isEscape, List.cons_append, List.cons_prefix_cons, List.cons_prefix_cons]
        constructor
        · rintro ⟨isMarker, -⟩
          exact absurd isMarker notMarker
        · rintro ⟨rfl, -⟩
          rw [asItself] at isEscape
          exact absurd (List.cons.inj isEscape).1 notMarker

theorem infix_flatMap_escape (verbatim : ∀ character ∈ first :: rest, escape character = [character] ∧ character ≠ marker) :
    first :: rest <:+: text.flatMap escape ↔ first :: rest <:+: text := by
  obtain ⟨asItself, notMarker⟩ := verbatim first List.mem_cons_self
  induction text with
  | nil => rfl
  | cons character characters ih =>
    rcases marked character with single | ⟨tail, isEscape, absent⟩
    · have isPrefix := @prefix_flatMap_escape α (first :: rest) escape marker first (character :: characters) marked verbatim
      rw [List.flatMap_cons, single, List.singleton_append] at isPrefix ⊢
      rw [List.infix_cons_iff, List.infix_cons_iff, ih, isPrefix]
    · have outside : first ∉ marker :: tail := by
        rw [List.mem_cons, not_or]
        exact ⟨notMarker, absent⟩
      rw [List.flatMap_cons, isEscape, infix_append_of_not_mem outside, ih, List.infix_cons_iff]
      refine (or_iff_right ?_).symm
      intro isPrefix
      obtain ⟨rfl, -⟩ := List.cons_prefix_cons.mp isPrefix
      rw [asItself] at isEscape
      exact notMarker (List.cons.inj isEscape).1

end Escapes

end Mcplica.Library
