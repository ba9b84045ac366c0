import Mathlib.Logic.Function.Basic
import Mcplica.Library.Quote

/-! # Templates with names in braces

A template is a list of characters and names. Replacing the names one after another in the text is the same as replacing
them all at once, as long as what is put in has no braces. -/

namespace Mcplica.Library.Template

inductive Piece where
  | literal (character : Char)
  | name (text : Text)
  deriving Repr, DecidableEq

def braced (name : Text) : Text :=
  '{' :: name ++ ['}']

def NoBraces (text : Text) : Prop :=
  '{' ∉ text ∧ '}' ∉ text

namespace Piece

/-- The braces of a template stand around its names. -/
def Valid : Piece → Prop
  | literal character => character ≠ '{' ∧ character ≠ '}'
  | name text => NoBraces text

def render (values : Text → Text) : Piece → Text
  | literal character => [character]
  | name text => values text

def names : Piece → List Text
  | literal _ => []
  | name text => [text]

end Piece

/-- Every name replaced by its value. -/
def render (values : Text → Text) (pieces : List Piece) : Text :=
  pieces.flatMap (Piece.render values)

/-- The text of the template itself. -/
def source (pieces : List Piece) : Text :=
  render braced pieces

def names (pieces : List Piece) : List Text :=
  pieces.flatMap Piece.names

/-! ## Replacing -/

section Replace

variable {needle replacement before rest : Text} {name other : Text}

theorem replaceFrom_append (skipped : Text) :
    Text.replaceFrom needle replacement skipped.length (skipped ++ rest) = Text.replaceFrom needle replacement 0 rest := by
  induction skipped with
  | nil => rfl
  | cons character skipped ih => exact ih

/-- Nothing is replaced in front of the first brace. -/
theorem replaceFrom_of_not_mem (absent : '{' ∉ before) :
    Text.replaceFrom (braced name) replacement 0 (before ++ rest) =
      before ++ Text.replaceFrom (braced name) replacement 0 rest := by
  induction before with
  | nil => rfl
  | cons character before ih =>
    obtain ⟨notBrace, later⟩ := not_or.mp (List.mem_cons.not.mp absent)
    have noMatch : (braced name).isPrefixOf (character :: (before ++ rest)) = false := by
      simp [braced, List.isPrefixOf, notBrace]
    rw [List.cons_append, Text.replaceFrom, if_neg (by simp [noMatch]), ih later, List.cons_append]

theorem replaceFrom_braced_self :
    Text.replaceFrom (braced name) replacement 0 (braced name ++ rest) =
      replacement ++ Text.replaceFrom (braced name) replacement 0 rest := by
  have isMatch : (braced name).isPrefixOf (braced name ++ rest) = true :=
    List.isPrefixOf_iff_prefix.mpr (List.prefix_append _ _)
  have shape : braced name ++ rest = '{' :: ((name ++ ['}']) ++ rest) := by simp [braced]
  have count : (braced name).length - 1 = (name ++ ['}']).length := by simp [braced]
  rw [shape] at isMatch ⊢
  rw [Text.replaceFrom, if_pos isMatch, count, replaceFrom_append]

/-- Two names in braces that agree up to the closing brace are the same. -/
theorem eq_of_prefix_braced (noBraces : NoBraces name) (otherNoBraces : NoBraces other)
    (isPrefix : braced name <+: braced other ++ rest) : name = other := by
  have start : name ++ ['}'] <+: other ++ '}' :: rest := by
    have unfolded : '{' :: (name ++ ['}']) <+: '{' :: (other ++ '}' :: rest) := by simpa [braced] using isPrefix
    exact (List.cons_prefix_cons.mp unfolded).2
  obtain ⟨tail, same⟩ := start
  have left := congrArg (List.takeWhile (· != '}')) same
  have stops (text : Text) (absent : '}' ∉ text) (after : Text) : (text ++ '}' :: after).takeWhile (· != '}') = text := by
    rw [List.takeWhile_append_of_pos fun character member => bne_iff_ne.mpr (ne_of_mem_of_not_mem member absent)]
    simp
  rw [List.append_assoc] at left
  exact (stops name noBraces.2 tail).symm.trans (left.trans (stops other otherNoBraces.2 rest))

theorem replaceFrom_braced_of_ne (noBraces : NoBraces name) (otherNoBraces : NoBraces other) (different : other ≠ name) :
    Text.replaceFrom (braced name) replacement 0 (braced other ++ rest) =
      braced other ++ Text.replaceFrom (braced name) replacement 0 rest := by
  have noMatch : ¬ (braced name).isPrefixOf (braced other ++ rest) = true := by
    intro isMatch
    exact different (eq_of_prefix_braced noBraces otherNoBraces (List.isPrefixOf_iff_prefix.mp isMatch)).symm
  have shape : braced other ++ rest = '{' :: ((other ++ ['}']) ++ rest) := by simp [braced]
  rw [shape] at noMatch ⊢
  have noBrace : '{' ∉ other ++ ['}'] := by
    simp [otherNoBraces.1]
  rw [Text.replaceFrom, if_neg noMatch, replaceFrom_of_not_mem noBrace]
  simp [braced]

end Replace

/-! ## One name after another -/

section Rendered

variable {values : Text → Text} {pieces : List Piece} {name value : Text}

/-- Some names are still there, the others are replaced by text without braces. -/
def Partly (values : Text → Text) : Prop :=
  ∀ name, values name = braced name ∨ NoBraces (values name)

theorem Partly.update (partly : Partly values) (noBraces : NoBraces value) : Partly (Function.update values name value) := by
  intro other
  by_cases same : other = name
  · subst same
    rw [Function.update_self]
    exact .inr noBraces
  · rw [Function.update_of_ne same]
    exact partly other

theorem partly_braced : Partly braced :=
  fun _ => .inl rfl

/-- Replacing a name that is still there gives it its value and leaves the others alone. -/
theorem replace_render (valid : ∀ piece ∈ pieces, piece.Valid) (partly : Partly values) (noBraces : NoBraces name)
    (present : values name = braced name) :
    Text.replace (braced name) value (render values pieces) = render (Function.update values name value) pieces := by
  unfold Text.replace
  induction pieces with
  | nil => rfl
  | cons piece pieces ih =>
    have later := ih fun other member => valid other (List.mem_cons_of_mem piece member)
    have isValid := valid piece List.mem_cons_self
    simp only [render, List.flatMap_cons] at later ⊢
    cases piece with
    | literal character =>
      have absent : '{' ∉ [character] := by simpa [eq_comm] using isValid.1
      rw [show Piece.render values (.literal character) = [character] from rfl, replaceFrom_of_not_mem absent, later]
      rfl
    | name other =>
      show Text.replaceFrom _ _ _ (values other ++ _) = Function.update values name value other ++ _
      by_cases same : other = name
      · subst same
        rw [present, replaceFrom_braced_self, later, Function.update_self]
      · rw [Function.update_of_ne same]
        rcases partly other with isBraced | replaced
        · rw [isBraced, replaceFrom_braced_of_ne noBraces isValid same, later]
        · rw [replaceFrom_of_not_mem replaced.1, later]

theorem braced_infix_render (member : name ∈ names pieces) (present : values name = braced name) :
    braced name <:+: render values pieces := by
  obtain ⟨piece, isPiece, isName⟩ := List.mem_flatMap.mp member
  cases piece with
  | literal character => cases isName
  | name other =>
    rw [List.mem_singleton.mp isName] at present ⊢
    obtain ⟨before, after, rfl⟩ := List.append_of_mem isPiece
    refine ⟨render values before, render values after, ?_⟩
    simp [render, List.flatMap_append, Piece.render, present]

/-- When every name of a template has a value without braces, no braces are left. -/
theorem noBraces_render (valid : ∀ piece ∈ pieces, piece.Valid) (replaced : ∀ name ∈ names pieces, NoBraces (values name)) :
    NoBraces (render values pieces) := by
  have none_ (brace : Char) (isBrace : brace = '{' ∨ brace = '}') : brace ∉ render values pieces := by
    intro member
    obtain ⟨piece, isPiece, inPiece⟩ := List.mem_flatMap.mp member
    have isValid := valid piece isPiece
    cases piece with
    | literal character =>
      rw [List.mem_singleton.mp inPiece] at isBrace
      exact isBrace.elim isValid.1 isValid.2
    | name name =>
      have clean := replaced name (List.mem_flatMap.mpr ⟨_, isPiece, List.mem_singleton_self name⟩)
      rcases isBrace with rfl | rfl
      · exact clean.1 inPiece
      · exact clean.2 inPiece
  exact ⟨none_ '{' (.inl rfl), none_ '}' (.inr rfl)⟩

end Rendered

/-! ## All names at once -/

/-- One pass over the text of a template; inside braces it carries the name read so far. -/
def substitute (values : Text → Text) : Option Text → Text → Text
  | none, [] => []
  | some name, [] => '{' :: name
  | none, character :: rest =>
    if character = '{' then substitute values (some []) rest else character :: substitute values none rest
  | some name, character :: rest =>
    if character = '}' then values name ++ substitute values none rest
    else substitute values (some (name ++ [character])) rest

theorem substitute_name {values : Text → Text} {name read rest : Text} (noBraces : '}' ∉ name) :
    substitute values (some read) (name ++ '}' :: rest) = values (read ++ name) ++ substitute values none rest := by
  induction name generalizing read with
  | nil => simp [substitute]
  | cons character name ih =>
    obtain ⟨notBrace, later⟩ := not_or.mp (List.mem_cons.not.mp noBraces)
    rw [List.cons_append, substitute, if_neg (Ne.symm notBrace), ih later, List.append_assoc]
    rfl

theorem substitute_source {values : Text → Text} {pieces : List Piece} (valid : ∀ piece ∈ pieces, piece.Valid) :
    substitute values none (source pieces) = render values pieces := by
  induction pieces with
  | nil => rfl
  | cons piece pieces ih =>
    have later := ih fun other member => valid other (List.mem_cons_of_mem piece member)
    have isValid := valid piece List.mem_cons_self
    cases piece with
    | literal character =>
      show substitute values none (character :: source pieces) = character :: render values pieces
      rw [substitute, if_neg isValid.1, later]
    | name name =>
      have shape : source (.name name :: pieces) = '{' :: (name ++ '}' :: source pieces) := by
        simp [source, render, Piece.render, braced]
      rw [shape, substitute, if_pos rfl, substitute_name isValid.2, later]
      rfl

end Mcplica.Library.Template
