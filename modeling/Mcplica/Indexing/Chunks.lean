import Mcplica.Library.Checks
import Mcplica.Parsers.Documentation

/-! # Bounded texts for the index

`_bounded_semantic_text` cuts what is rendered of the source at line feeds and spaces. Together with `chunk_document` it
gives every chunk of the index its text: nothing but white space gets lost, and no chunk is longer than the limit. -/

namespace Mcplica.Indexing

open Mcplica.Domain Mcplica.Library Mcplica.Parsers
open Mcplica.Library.Text (ink rfind)

/-! ## Semantic texts -/

/-- Where the remaining text is cut: behind the first half at a line feed, or else at a space, if there is one. -/
def semanticBoundary (maxChars : Nat) (remaining : Text) : Nat :=
  if maxChars < remaining.length then
    let lateEnough (index : Nat) : Bool := maxChars / 2 ≤ index
    let lineFeed := (rfind '\n' remaining (maxChars + 1)).filter lateEnough
    let space := (rfind ' ' remaining (maxChars + 1)).filter lateEnough
    (lineFeed.or space).getD maxChars
  else
    remaining.length

theorem semanticBoundary_bounds {maxChars : Nat} (large : 2 ≤ maxChars) {remaining : Text} (nonempty : remaining ≠ []) :
    0 < semanticBoundary maxChars remaining ∧ semanticBoundary maxChars remaining ≤ maxChars := by
  have late : ∀ character index, (rfind character remaining (maxChars + 1)).filter (maxChars / 2 ≤ ·) = some index →
      0 < index ∧ index ≤ maxChars := by
    intro character index found
    obtain ⟨isIndex, lateEnough⟩ := Option.filter_eq_some_iff.mp found
    have bound := (Text.rfind_lt isIndex).1
    rw [decide_eq_true_eq] at lateEnough
    omega
  unfold semanticBoundary
  split
  · dsimp only
    cases lineFeed : (rfind '\n' remaining (maxChars + 1)).filter (maxChars / 2 ≤ ·) with
    | some index => exact late _ _ lineFeed
    | none =>
      cases space : (rfind ' ' remaining (maxChars + 1)).filter (maxChars / 2 ≤ ·) with
      | some index => exact late _ _ space
      | none => exact ⟨by show 0 < maxChars; omega, le_refl _⟩
  · have := List.length_pos_iff.mpr nonempty
    omega

/-- The `while` loop. -/
def cutSemanticText (maxChars : Nat) (large : 2 ≤ maxChars) (remaining : Text) : List Text :=
  if _nonempty : remaining ≠ [] then
    let index := semanticBoundary maxChars remaining
    Text.strip (remaining.take index) :: cutSemanticText maxChars large (Text.strip (remaining.drop index))
  else
    []
termination_by remaining.length
decreasing_by
  have shorter := Text.length_strip_le (remaining.drop (semanticBoundary maxChars remaining))
  have positive := (semanticBoundary_bounds large ‹_›).1
  have := List.length_pos_iff.mpr ‹remaining ≠ []›
  rw [List.length_drop] at shorter
  omega

/-- `_bounded_semantic_text` -/
def boundedSemanticText (value : Text) (maxChars : Nat) (large : 2 ≤ maxChars) : List Text :=
  if value.length ≤ maxChars then [value] else (cutSemanticText maxChars large value).filter (· ≠ [])

variable {maxChars : Nat}

theorem cutSemanticText_spec (large : 2 ≤ maxChars) (remaining : Text) :
    (∀ part ∈ cutSemanticText maxChars large remaining, part.length ≤ maxChars) ∧
      (cutSemanticText maxChars large remaining).flatMap ink = ink remaining := by
  induction remaining using cutSemanticText.induct maxChars large with
  | case1 remaining nonempty index ih =>
    have bounded : index ≤ maxChars := (semanticBoundary_bounds large nonempty).2
    obtain ⟨fits, content⟩ := ih
    rw [cutSemanticText, dif_pos nonempty]
    constructor
    · intro part member
      rcases List.mem_cons.mp member with rfl | later
      · refine (Text.length_strip_le _).trans ?_
        rw [List.length_take]
        exact (Nat.min_le_left _ _).trans bounded
      · exact fits part later
    · show ink (Text.strip (remaining.take index)) ++
        (cutSemanticText maxChars large (Text.strip (remaining.drop index))).flatMap ink = _
      rw [content, Text.ink_strip, Text.ink_strip, Text.ink_take_drop]
  | case2 remaining empty =>
    rw [not_not.mp empty, cutSemanticText, dif_neg (not_not.mpr rfl)]
    exact ⟨fun part member => (List.not_mem_nil member).elim, rfl⟩

/-- The parts fit and hold every character that is no white space; only an empty text has an empty part. -/
theorem boundedSemanticText_spec (value : Text) (large : 2 ≤ maxChars) :
    (∀ part ∈ boundedSemanticText value maxChars large, part.length ≤ maxChars ∧ (value ≠ [] → part ≠ [])) ∧
      (boundedSemanticText value maxChars large).flatMap ink = ink value := by
  unfold boundedSemanticText
  split
  · rename_i short
    constructor
    · intro part member
      rw [List.mem_singleton.mp member]
      exact ⟨short, id⟩
    · exact List.append_nil _
  · obtain ⟨fits, content⟩ := cutSemanticText_spec large value
    constructor
    · intro part member
      obtain ⟨isPart, nonempty⟩ := List.mem_filter.mp member
      exact ⟨fits part isPart, fun _ => of_decide_eq_true nonempty⟩
    · rw [Text.flatMap_ink_filter, content]

/-! ## Chunking loses nothing -/

/-- The chunks of a document fit, are told apart by their identifiers, and hold what its sections hold. -/
structure ChunksDocument (maxChars overlapChars : Nat) (document : NormalizedDocument) (chunks : List DocumentChunk) :
    Prop where
  fits : ∀ chunk ∈ chunks, chunk.text ≠ [] ∧ chunk.text.length ≤ maxChars
  distinct : (chunks.map DocumentChunk.chunkId).Nodup
  sections : ∃ parts : List (List DocumentChunk), parts.flatten = chunks ∧
    List.Forall₂ (Chunking.Holds maxChars overlapChars) document.sections parts

theorem chunking_loses_nothing (unicode : Unicode) (sha256 : Text → Text) (injective : Function.Injective sha256)
    (hexadecimal : ∀ text, ∀ character ∈ sha256 text, (Text.hexValue character).isSome = true)
    (maxChars overlapChars : Int) (large : 100 ≤ maxChars) (nonnegative : 0 ≤ overlapChars)
    (smaller : overlapChars < maxChars) :
    (∀ (document : NormalizedDocument) (projectId generationId : Uuid) (sourceContentSha256 : Text), ∃ chunks,
      chunkDocument unicode sha256 document projectId generationId sourceContentSha256 maxChars overlapChars = .ok chunks ∧
        ChunksDocument maxChars.toNat overlapChars.toNat document chunks) ∧
    ∀ (value : Text) (enough : 2 ≤ maxChars.toNat),
      (∀ part ∈ boundedSemanticText value maxChars.toNat enough,
        part.length ≤ maxChars.toNat ∧ (value ≠ [] → part ≠ [])) ∧
      (boundedSemanticText value maxChars.toNat enough).flatMap ink = ink value := by
  refine ⟨?_, fun value enough => boundedSemanticText_spec value enough⟩
  intro document projectId generationId sourceContentSha256
  let chunking : Chunking :=
    ⟨unicode, sha256, projectId, generationId, sourceContentSha256, maxChars.toNat, overlapChars.toNat⟩
  have enough : 2 ≤ chunking.maxChars := by
    show 2 ≤ maxChars.toNat
    omega
  have holds := @Chunking.holds_documentChunks chunking document enough 0 document.sections
  refine ⟨(chunking.documentChunks enough document 0 document.sections).flatten, ?_, ?_, ?_, ⟨_, rfl, holds⟩⟩
  · unfold chunkDocument
    rw [dif_neg (by omega)]
  · intro chunk member
    obtain ⟨chunks, isPart, inPart⟩ := List.mem_flatten.mp member
    obtain ⟨part, -, partHolds⟩ := exists_of_forall₂_right holds isPart
    exact partHolds.fits chunk inPart
  · apply (Chunking.numbered_documentChunks enough 0 document.sections).nodup injective
    intro text member
    exact absurd (hexadecimal text _ member) (by decide)

/-- A digest that is as long as it takes: eight hexadecimal digits for every character. -/
def spelledOut (text : Text) : Text :=
  text.flatMap fun character => Text.hexDigits 8 character.toNat

theorem spelledOut_injective : Function.Injective spelledOut := by
  intro text other same
  induction text generalizing other with
  | nil =>
    cases other with
    | nil => rfl
    | cons character rest =>
      have lengths := congrArg List.length same
      simp [spelledOut, Text.length_hexDigits] at lengths
      omega
  | cons character rest ih =>
    cases other with
    | nil =>
      have lengths := congrArg List.length same
      simp [spelledOut, Text.length_hexDigits] at lengths
    | cons otherCharacter otherRest =>
      unfold spelledOut at same ih
      rw [List.flatMap_cons, List.flatMap_cons] at same
      obtain ⟨sameDigits, sameRest⟩ := List.append_inj same (by rw [Text.length_hexDigits, Text.length_hexDigits])
      have bound : ∀ character : Char, character.toNat < 16 ^ 8 := fun character => character.val.toNat_lt
      have sameCharacter := Text.hexDigits_inj (bound character) (bound otherCharacter) sameDigits
      rw [Char.toNat_inj.mp sameCharacter, ih sameRest]

theorem hexadecimal_spelledOut (text : Text) :
    ∀ character ∈ spelledOut text, (Text.hexValue character).isSome = true := by
  have digits : ∀ digit < 16, (Text.hexValue (Nat.digitChar digit)).isSome = true := by decide
  intro character member
  obtain ⟨source, -, isDigit⟩ := List.mem_flatMap.mp member
  obtain ⟨digit, bound, rfl⟩ := Text.hexDigits_characters isDigit
  exact digits digit bound

/-- A guide whose first paragraph is too long for a chunk. -/
def guide : NormalizedDocument where
  sourceVersionId := 1
  sections := [⟨["Guide"], ("First step: create the pet with its name and its tag, and keep the identifier that the " : Text) ++
    ("answer gives for later.\n\nSecond step: read the pet." : Text), by decide⟩]
  sectionsNonempty := by decide

def guideTexts : List Text :=
  [("First step: create the pet with its name and its tag, and keep the identifier that the answer gives" : Text),
    ("hat the answer gives\n\nfor later.\n\nSecond step: read the pet." : Text)]

/-- The first paragraph is cut, and the second chunk begins with the end of the first one. -/
theorem chunking_loses_nothing_guide :
    ∃ chunks, chunkDocument asciiUnicode spelledOut guide 2 3 [] 100 20 = .ok chunks ∧
      ChunksDocument 100 20 guide chunks ∧ chunks.map DocumentChunk.text = guideTexts := by
  obtain ⟨chunks, isChunks, holds⟩ := (chunking_loses_nothing asciiUnicode spelledOut spelledOut_injective
    hexadecimal_spelledOut 100 20 (by decide) (by decide) (by decide)).1 guide 2 3 []
  have texts : (chunkDocument asciiUnicode spelledOut guide 2 3 [] 100 20).toOption.map (List.map DocumentChunk.text) =
      some guideTexts := by decide +kernel
  rw [isChunks] at texts
  exact ⟨chunks, isChunks, holds, Option.some.inj texts⟩

/-- An empty text is not cut: its only part is empty. -/
theorem not_chunking_loses_nothing :
    ¬ ∀ value : Text, ∀ part ∈ boundedSemanticText value 100 (by decide), part ≠ [] ∧ part.length ≤ 100 := by
  intro law
  exact (law [] [] (by simp [boundedSemanticText])).1 rfl

end Mcplica.Indexing
