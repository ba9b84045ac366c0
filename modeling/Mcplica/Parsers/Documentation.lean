import Mcplica.Library.Blank
import Mcplica.Library.Uuid
import Mcplica.Domain.Shared

/-! # Chunks of documents

`app.parsers.documentation.chunker`: the sections of a normalized document are cut into segments of bounded length, and
every segment is preceded by the end of the one before, as far as there is room for it. -/

namespace Mcplica.Parsers

open Mcplica.Domain Mcplica.Library
open Mcplica.Library.Text (ink Trimmed rfind)

/-! ## Documents and chunks -/

structure DocumentSection where
  path : List Text
  text : Text
  pathNonempty : path ≠ []

structure NormalizedDocument where
  sourceVersionId : Uuid
  title : Option Text := none
  sections : List DocumentSection
  sectionsNonempty : sections ≠ []

structure DocumentChunk where
  chunkId : Text
  projectId : Uuid
  generationId : Uuid
  sourceVersionId : Uuid
  sourceKind : Text := "documentation"
  title : Option Text := none
  sectionPath : List Text
  operationKeys : List Text := []
  text : Text
  contentSha256 : Text
  deriving Repr, DecidableEq

/-! ## Segments -/

/-- Where a text that is too long is cut: at its last space, unless that is in the first half. -/
def boundary (maxChars : Nat) (remaining : Text) : Nat :=
  match rfind ' ' remaining (maxChars + 1) with
  | some index => if index < maxChars / 2 then maxChars else index
  | none => maxChars

theorem boundary_le (maxChars : Nat) (remaining : Text) : boundary maxChars remaining ≤ maxChars := by
  unfold boundary
  split
  · rename_i index found
    have bound := (Text.rfind_lt found).1
    split <;> omega
  · exact le_refl _

theorem boundary_pos {maxChars : Nat} (large : 2 ≤ maxChars) (remaining : Text) : 0 < boundary maxChars remaining := by
  unfold boundary
  split
  · split <;> omega
  · omega

/-- The `while` loop over one paragraph: the segments that are cut off, and what remains. -/
def cutParagraph (maxChars : Nat) (large : 2 ≤ maxChars) (remaining : Text) : List Text × Text :=
  if maxChars < remaining.length then
    let index := boundary maxChars remaining
    let rest := cutParagraph maxChars large (Text.strip (remaining.drop index))
    (Text.strip (remaining.take index) :: rest.1, rest.2)
  else
    ([], remaining)
termination_by remaining.length
decreasing_by
  have shorter := Text.length_strip_le (remaining.drop (boundary maxChars remaining))
  have positive := boundary_pos large remaining
  rw [List.length_drop] at shorter
  omega

/-- The current segment with one paragraph more. -/
def candidate (current paragraph : Text) : Text :=
  if current = [] then paragraph else Text.strip (current ++ "\n\n" ++ paragraph)

/-- What `result.append(current)` adds when there is a current segment. -/
def flush (current : Text) : List Text :=
  if current = [] then [] else [current]

/-- One paragraph: the segments so far and the one that is still being filled. -/
def addParagraph (maxChars : Nat) (large : 2 ≤ maxChars) : List Text × Text → Text → List Text × Text
  | (result, current), paragraph =>
    if (candidate current paragraph).length ≤ maxChars then
      (result, candidate current paragraph)
    else
      let (segments, last) := cutParagraph maxChars large paragraph
      (result ++ flush current ++ segments, last)

/-- `[item.strip() for item in _PARAGRAPHS.split(text) if item.strip()]` -/
def paragraphs (text : Text) : List Text :=
  ((Text.splitBlankLines [] text).map Text.strip).filter (· ≠ [])

/-- `_bounded_segments` -/
def boundedSegments (text : Text) (maxChars : Nat) (large : 2 ≤ maxChars) : List Text :=
  let (result, current) := (paragraphs text).foldl (addParagraph maxChars large) ([], [])
  result ++ flush current

/-! ## Chunks -/

/-- The end of the previous segment that there is room for before a segment. -/
def overlapOf (maxChars overlapChars : Nat) (previous segment : Text) : Text :=
  let overlapSize := min overlapChars (maxChars - segment.length - 2)
  if previous ≠ [] ∧ overlapSize ≠ 0 then Text.strip (previous.drop (previous.length - overlapSize)) else []

def chunkText (maxChars overlapChars : Nat) (previous segment : Text) : Text :=
  let overlap := overlapOf maxChars overlapChars previous segment
  if overlap ≠ [] then Text.strip (overlap ++ "\n\n" ++ segment) else segment

/-- What `chunk_document` is given, with the digest in hexadecimal digits that it uses. -/
structure Chunking where
  unicode : Unicode
  sha256 : Text → Text
  projectId : Uuid
  generationId : Uuid
  sourceContentSha256 : Text
  maxChars : Nat
  overlapChars : Nat

namespace Chunking

variable (chunking : Chunking)

/-- `"\x00".join(...)` -/
def identity (document : NormalizedDocument) (path : List Text) (ordinal : Nat) (contentDigest : Text) : Text :=
  Text.join [Char.ofNat 0] [Text.ofUuid chunking.projectId, Text.ofUuid chunking.generationId,
    Text.ofUuid document.sourceVersionId, chunking.sourceContentSha256,
    Text.join "/" (path.map fun item => item.strip.casefold chunking.unicode), Text.ofNat ordinal, contentDigest]

def chunk (document : NormalizedDocument) (path : List Text) (ordinal : Nat) (text : Text) : DocumentChunk :=
  let contentDigest := chunking.sha256 text
  { chunkId := ("chunk_" : Text) ++ chunking.sha256 (chunking.identity document path ordinal contentDigest)
    projectId := chunking.projectId
    generationId := chunking.generationId
    sourceVersionId := document.sourceVersionId
    title := document.title
    sectionPath := path
    text
    contentSha256 := contentDigest }

/-- The chunks of the segments of a section, of which the first has the given ordinal. -/
def sectionChunks (document : NormalizedDocument) (path : List Text) : Nat → Text → List Text → List DocumentChunk
  | _, _, [] => []
  | ordinal, previous, segment :: rest =>
    chunking.chunk document path ordinal (chunkText chunking.maxChars chunking.overlapChars previous segment) ::
      sectionChunks document path (ordinal + 1) segment rest

/-- The chunks of each section. -/
def documentChunks (large : 2 ≤ chunking.maxChars) (document : NormalizedDocument) :
    Nat → List DocumentSection → List (List DocumentChunk)
  | _, [] => []
  | ordinal, part :: rest =>
    let chunks := chunking.sectionChunks document part.path ordinal [] (boundedSegments part.text chunking.maxChars large)
    chunks :: documentChunks large document (ordinal + chunks.length) rest

end Chunking

/-- `chunk_document` -/
def chunkDocument (unicode : Unicode) (sha256 : Text → Text) (document : NormalizedDocument) (projectId generationId : Uuid)
    (sourceContentSha256 : Text) (maxChars overlapChars : Int) : Except Text (List DocumentChunk) :=
  if refused : maxChars < 100 ∨ overlapChars < 0 ∨ overlapChars ≥ maxChars then
    .error "Chunk size must be positive and overlap smaller than the chunk"
  else
    let chunking : Chunking :=
      ⟨unicode, sha256, projectId, generationId, sourceContentSha256, maxChars.toNat, overlapChars.toNat⟩
    have large : 2 ≤ chunking.maxChars := by
      show 2 ≤ maxChars.toNat
      omega
    .ok (chunking.documentChunks large document 0 document.sections).flatten

/-! ## What the segments keep -/

/-- A trimmed text that fits into a chunk. -/
structure Fits (maxChars : Nat) (segment : Text) : Prop where
  trimmed : Trimmed segment
  bounded : segment.length ≤ maxChars

/-- The segments so far are bounded, and with the current one they hold what was read. -/
structure Keeps (maxChars : Nat) (read : Text) (state : List Text × Text) : Prop where
  fits : ∀ segment ∈ state.1, Fits maxChars segment
  current : state.2 = [] ∨ Fits maxChars state.2
  content : state.1.flatMap ink ++ ink state.2 = read

variable {maxChars overlapChars : Nat}

theorem keeps_cutParagraph (large : 2 ≤ maxChars) {remaining : Text} (trimmed : Trimmed remaining) :
    Keeps maxChars (ink remaining) (cutParagraph maxChars large remaining) ∧
      Fits maxChars (cutParagraph maxChars large remaining).2 := by
  induction remaining using cutParagraph.induct maxChars large with
  | case1 remaining tooLong index ih =>
    have positive : 0 < index := boundary_pos large remaining
    have bounded : index ≤ maxChars := boundary_le maxChars remaining
    obtain ⟨rest, last⟩ := ih (trimmed.drop (by omega))
    have cut : cutParagraph maxChars large remaining = (Text.strip (remaining.take index) ::
        (cutParagraph maxChars large (Text.strip (remaining.drop index))).1,
        (cutParagraph maxChars large (Text.strip (remaining.drop index))).2) := by
      rw [cutParagraph, if_pos tooLong]
    rw [cut]
    refine ⟨⟨?_, .inr last, ?_⟩, last⟩
    · intro segment member
      rcases List.mem_cons.mp member with rfl | later
      · refine ⟨trimmed.take positive, (Text.length_strip_le _).trans ?_⟩
        rw [List.length_take]
        omega
      · exact rest.fits segment later
    · have content := rest.content
      rw [Text.ink_strip] at content
      rw [List.flatMap_cons, List.append_assoc, content, Text.ink_strip, Text.ink_take_drop]
  | case2 remaining fits =>
    rw [cutParagraph, if_neg fits]
    have last : Fits maxChars remaining := ⟨trimmed, by omega⟩
    exact ⟨⟨fun segment member => (List.not_mem_nil member).elim, .inr last, rfl⟩, last⟩

theorem candidate_keeps {current paragraph : Text} (isCurrent : current = [] ∨ Fits maxChars current)
    (trimmed : Trimmed paragraph) :
    Trimmed (candidate current paragraph) ∧ ink (candidate current paragraph) = ink current ++ ink paragraph := by
  unfold candidate
  split
  · rename_i empty
    rw [empty]
    exact ⟨trimmed, rfl⟩
  · rename_i nonempty
    have whole := (isCurrent.resolve_left nonempty).trimmed.append "\n\n" trimmed
    rw [whole.strip_eq, Text.ink_append, Text.ink_append]
    exact ⟨whole, congrArg (· ++ ink paragraph) (List.append_nil _)⟩

theorem flush_keeps {current : Text} (isCurrent : current = [] ∨ Fits maxChars current) :
    (∀ segment ∈ flush current, Fits maxChars segment) ∧ (flush current).flatMap ink = ink current := by
  unfold flush
  split
  · rename_i empty
    rw [empty]
    exact ⟨fun segment member => (List.not_mem_nil member).elim, rfl⟩
  · rename_i nonempty
    refine ⟨?_, List.append_nil _⟩
    intro segment member
    rw [List.mem_singleton.mp member]
    exact isCurrent.resolve_left nonempty

theorem keeps_addParagraph (large : 2 ≤ maxChars) {read paragraph : Text} {state : List Text × Text}
    (keeps : Keeps maxChars read state) (trimmed : Trimmed paragraph) :
    Keeps maxChars (read ++ ink paragraph) (addParagraph maxChars large state paragraph) := by
  obtain ⟨result, current⟩ := state
  obtain ⟨fits, isCurrent, content⟩ := keeps
  dsimp only at fits isCurrent content
  unfold addParagraph
  dsimp only
  by_cases short : (candidate current paragraph).length ≤ maxChars
  · obtain ⟨joined, joinedInk⟩ := candidate_keeps isCurrent trimmed
    rw [if_pos short]
    refine ⟨fits, .inr ⟨joined, short⟩, ?_⟩
    rw [joinedInk, ← List.append_assoc, content]
  · obtain ⟨cut, last⟩ := keeps_cutParagraph large trimmed
    obtain ⟨flushed, flushedInk⟩ := flush_keeps isCurrent
    rw [if_neg short]
    refine ⟨?_, .inr last, ?_⟩
    · intro segment member
      rcases List.mem_append.mp member with before | later
      · exact (List.mem_append.mp before).elim (fits segment) (flushed segment)
      · exact cut.fits segment later
    · rw [List.flatMap_append, List.flatMap_append, flushedInk, content, List.append_assoc, cut.content]

theorem keeps_foldl (large : 2 ≤ maxChars) {pieces : List Text} (trimmed : ∀ piece ∈ pieces, Trimmed piece)
    {read : Text} {state : List Text × Text} (keeps : Keeps maxChars read state) :
    Keeps maxChars (read ++ pieces.flatMap ink) (pieces.foldl (addParagraph maxChars large) state) := by
  induction pieces generalizing read state with
  | nil =>
    rw [List.flatMap_nil, List.append_nil]
    exact keeps
  | cons piece rest ih =>
    obtain ⟨isTrimmed, restTrimmed⟩ := List.forall_mem_cons.mp trimmed
    rw [List.flatMap_cons, ← List.append_assoc]
    exact ih restTrimmed (keeps_addParagraph large keeps isTrimmed)

theorem trimmed_paragraphs (text : Text) : ∀ piece ∈ paragraphs text, Trimmed piece := by
  intro piece member
  obtain ⟨isPiece, nonempty⟩ := List.mem_filter.mp member
  obtain ⟨whole, -, rfl⟩ := List.mem_map.mp isPiece
  exact Text.trimmed_strip (of_decide_eq_true nonempty)

/-- Nothing but white space is lost between the paragraphs. -/
theorem ink_paragraphs (text : Text) : (paragraphs text).flatMap ink = ink text := by
  have stripped : ∀ pieces : List Text, (pieces.map Text.strip).flatMap ink = pieces.flatMap ink := by
    intro pieces
    rw [List.flatMap_map]
    exact congrArg (List.flatMap · pieces) (funext Text.ink_strip)
  unfold paragraphs
  rw [Text.flatMap_ink_filter, stripped, Text.ink_splitBlankLines]
  rfl

/-- `_bounded_segments` keeps every character that is no white space, in segments that fit. -/
theorem boundedSegments_spec (text : Text) (large : 2 ≤ maxChars) :
    (∀ segment ∈ boundedSegments text maxChars large, Fits maxChars segment) ∧
      (boundedSegments text maxChars large).flatMap ink = ink text := by
  have start : Keeps maxChars [] ([], []) := ⟨fun segment member => (List.not_mem_nil member).elim, .inl rfl, rfl⟩
  have keeps := keeps_foldl large (trimmed_paragraphs text) start
  obtain ⟨flushed, flushedInk⟩ := flush_keeps keeps.current
  unfold boundedSegments
  dsimp only
  constructor
  · intro segment member
    exact (List.mem_append.mp member).elim (keeps.fits segment) (flushed segment)
  · rw [List.flatMap_append, flushedInk, keeps.content, ink_paragraphs, List.nil_append]

/-! ## What the chunks keep -/

/-- The texts are the segments, each with at most so many characters from the end of the one before it. -/
inductive Overlapped (overlapChars : Nat) : Text → List Text → List Text → Prop where
  | nil {previous : Text} : Overlapped overlapChars previous [] []
  | plain {previous segment : Text} {segments texts : List Text} (rest : Overlapped overlapChars segment segments texts) :
    Overlapped overlapChars previous (segment :: segments) (segment :: texts)
  | overlap {previous segment overlap : Text} {segments texts : List Text} (nonempty : overlap ≠ [])
    (isEnd : overlap <:+ previous) (bounded : overlap.length ≤ overlapChars)
    (rest : Overlapped overlapChars segment segments texts) :
    Overlapped overlapChars previous (segment :: segments) ((overlap ++ "\n\n" ++ segment) :: texts)

theorem overlapOf_spec {previous segment : Text} (isPrevious : previous = [] ∨ Trimmed previous)
    (nonempty : overlapOf maxChars overlapChars previous segment ≠ []) :
    Trimmed (overlapOf maxChars overlapChars previous segment) ∧
      overlapOf maxChars overlapChars previous segment <:+ previous ∧
      (overlapOf maxChars overlapChars previous segment).length ≤ min overlapChars (maxChars - segment.length - 2) := by
  unfold overlapOf at nonempty ⊢
  dsimp only at nonempty ⊢
  split
  · rename_i room
    rw [if_pos room] at nonempty
    have trimmed := isPrevious.resolve_left room.1
    refine ⟨Text.trimmed_strip nonempty, trimmed.strip_drop_suffix _, ?_⟩
    refine (Text.length_strip_le _).trans ?_
    rw [List.length_drop]
    omega
  · rename_i noRoom
    rw [if_neg noRoom] at nonempty
    exact absurd rfl nonempty

/-- The text of a chunk fits, and is the segment or the segment with an overlap before it. -/
theorem chunkText_spec {previous segment : Text} (isPrevious : previous = [] ∨ Trimmed previous)
    (fits : Fits maxChars segment) : (chunkText maxChars overlapChars previous segment).length ≤ maxChars ∧
      chunkText maxChars overlapChars previous segment ≠ [] ∧
      (chunkText maxChars overlapChars previous segment = segment ∨ ∃ overlap, overlap ≠ [] ∧ overlap <:+ previous ∧
        overlap.length ≤ overlapChars ∧
        chunkText maxChars overlapChars previous segment = overlap ++ "\n\n" ++ segment) := by
  unfold chunkText
  dsimp only
  by_cases nonempty : overlapOf maxChars overlapChars previous segment ≠ []
  · obtain ⟨trimmed, isEnd, bounded⟩ := overlapOf_spec isPrevious nonempty
    have whole := trimmed.append "\n\n" fits.trimmed
    have positive := trimmed.length_pos
    have segmentBound := fits.bounded
    rw [if_pos nonempty, whole.strip_eq]
    refine ⟨?_, whole.ne_nil, .inr ⟨_, nonempty, isEnd, by omega, rfl⟩⟩
    have separator : ("\n\n" : Text).length = 2 := rfl
    rw [List.length_append, List.length_append, separator]
    omega
  · rw [if_neg nonempty]
    exact ⟨fits.bounded, fits.trimmed.ne_nil, .inl rfl⟩

namespace Chunking

variable {chunking : Chunking} {document : NormalizedDocument}

@[simp] theorem text_chunk (path : List Text) (ordinal : Nat) (text : Text) :
    (chunking.chunk document path ordinal text).text = text := rfl

theorem overlapped_sectionChunks (path : List Text) {segments : List Text}
    (fits : ∀ segment ∈ segments, Fits chunking.maxChars segment) (ordinal : Nat) {previous : Text}
    (isPrevious : previous = [] ∨ Trimmed previous) :
    Overlapped chunking.overlapChars previous segments
      ((chunking.sectionChunks document path ordinal previous segments).map DocumentChunk.text) := by
  induction segments generalizing ordinal previous with
  | nil => exact .nil
  | cons segment rest ih =>
    obtain ⟨isFit, restFits⟩ := List.forall_mem_cons.mp fits
    have later := ih restFits (ordinal + 1) (.inr isFit.trimmed)
    rw [sectionChunks, List.map_cons]
    obtain ⟨-, -, isSegment | ⟨overlap, nonempty, isEnd, bounded, isText⟩⟩ :=
      @chunkText_spec chunking.maxChars chunking.overlapChars _ _ isPrevious isFit
    · rw [text_chunk, isSegment]
      exact .plain later
    · rw [text_chunk, isText]
      exact .overlap nonempty isEnd bounded later

theorem fits_sectionChunks (path : List Text) {segments : List Text}
    (fits : ∀ segment ∈ segments, Fits chunking.maxChars segment) (ordinal : Nat) {previous : Text}
    (isPrevious : previous = [] ∨ Trimmed previous) :
    ∀ chunk ∈ chunking.sectionChunks document path ordinal previous segments,
      chunk.text ≠ [] ∧ chunk.text.length ≤ chunking.maxChars := by
  induction segments generalizing ordinal previous with
  | nil => exact fun chunk member => (List.not_mem_nil member).elim
  | cons segment rest ih =>
    obtain ⟨isFit, restFits⟩ := List.forall_mem_cons.mp fits
    intro chunk member
    rcases List.mem_cons.mp member with rfl | later
    · obtain ⟨bounded, nonempty, -⟩ :=
        @chunkText_spec chunking.maxChars chunking.overlapChars _ _ isPrevious isFit
      exact ⟨nonempty, bounded⟩
    · exact ih restFits (ordinal + 1) (.inr isFit.trimmed) chunk later

/-! ### Identifiers of chunks -/

/-- Neither the digits of the ordinal nor the digest contain the separator, so the ordinal can be read off. -/
theorem ordinal_of_identity_eq {other : NormalizedDocument} {path otherPath : List Text} {ordinal otherOrdinal : Nat}
    {digest otherDigest : Text} (plain : Char.ofNat 0 ∉ digest) (otherPlain : Char.ofNat 0 ∉ otherDigest)
    (same : chunking.identity document path ordinal digest = chunking.identity other otherPath otherOrdinal otherDigest) :
    ordinal = otherOrdinal := by
  have split : ∀ (document : NormalizedDocument) (path : List Text) (ordinal : Nat) (digest : Text), ∃ front,
      chunking.identity document path ordinal digest =
        (front ++ Char.ofNat 0 :: Text.ofNat ordinal) ++ Char.ofNat 0 :: digest := by
    intro document path ordinal digest
    refine ⟨Text.join [Char.ofNat 0] [Text.ofUuid chunking.projectId, Text.ofUuid chunking.generationId,
      Text.ofUuid document.sourceVersionId, chunking.sourceContentSha256,
      Text.join "/" (path.map fun item => item.strip.casefold chunking.unicode)], ?_⟩
    simp [identity, Text.join]
  have digits : ∀ value : Nat, Char.ofNat 0 ∉ Text.ofNat value := by
    intro value member
    have isDigits := Text.isDigits_ofNat value
    unfold Text.isDigits at isDigits
    rw [Bool.and_eq_true, List.all_eq_true] at isDigits
    exact absurd (isDigits.2 _ member) (by decide)
  obtain ⟨front, isFront⟩ := split document path ordinal digest
  obtain ⟨otherFront, isOtherFront⟩ := split other otherPath otherOrdinal otherDigest
  have last := congrArg (Text.rpartition (Char.ofNat 0)) same
  rw [isFront, isOtherFront, Text.rpartition_append_cons plain, Text.rpartition_append_cons otherPlain,
    Prod.mk.injEq, Option.some.injEq] at last
  have middle := congrArg (Text.rpartition (Char.ofNat 0)) last.1
  rw [Text.rpartition_append_cons (digits ordinal), Text.rpartition_append_cons (digits otherOrdinal),
    Prod.mk.injEq] at middle
  exact Text.ofNat_injective middle.2

/-- The chunks are numbered in order, the first with the given ordinal. -/
inductive Numbered (chunking : Chunking) (document : NormalizedDocument) : Nat → List DocumentChunk → Prop where
  | nil {ordinal : Nat} : Numbered chunking document ordinal []
  | cons {ordinal : Nat} {path : List Text} {text : Text} {rest : List DocumentChunk}
    (later : Numbered chunking document (ordinal + 1) rest) :
    Numbered chunking document ordinal (chunking.chunk document path ordinal text :: rest)

theorem Numbered.append {ordinal : Nat} {first second : List DocumentChunk}
    (numbered : Numbered chunking document ordinal first)
    (later : Numbered chunking document (ordinal + first.length) second) :
    Numbered chunking document ordinal (first ++ second) := by
  induction numbered with
  | nil => exact later
  | cons _ ih =>
    apply Numbered.cons
    apply ih
    rw [List.length_cons] at later
    rw [show ∀ start length : Nat, start + 1 + length = start + (length + 1) by omega]
    exact later

theorem Numbered.of_mem {ordinal : Nat} {chunks : List DocumentChunk} (numbered : Numbered chunking document ordinal chunks) :
    ∀ chunk ∈ chunks, ∃ position path text, ordinal ≤ position ∧ chunk = chunking.chunk document path position text := by
  induction numbered with
  | nil => exact fun chunk member => (List.not_mem_nil member).elim
  | cons _ ih =>
    intro chunk member
    rcases List.mem_cons.mp member with rfl | later
    · exact ⟨_, _, _, le_refl _, rfl⟩
    · obtain ⟨position, path, text, bound, isChunk⟩ := ih chunk later
      exact ⟨position, path, text, by omega, isChunk⟩

theorem Numbered.nodup {ordinal : Nat} {chunks : List DocumentChunk} (numbered : Numbered chunking document ordinal chunks)
    (injective : Function.Injective chunking.sha256) (plain : ∀ text, Char.ofNat 0 ∉ chunking.sha256 text) :
    (chunks.map DocumentChunk.chunkId).Nodup := by
  induction numbered with
  | nil => exact List.nodup_nil
  | cons later ih =>
    rw [List.map_cons, List.nodup_cons]
    refine ⟨?_, ih⟩
    intro member
    obtain ⟨other, isOther, same⟩ := List.mem_map.mp member
    obtain ⟨position, path, text, bound, rfl⟩ := later.of_mem other isOther
    have sameIdentity := injective (List.append_cancel_left same)
    have samePosition := ordinal_of_identity_eq (plain _) (plain _) sameIdentity
    omega

theorem numbered_sectionChunks (path : List Text) (segments : List Text) (ordinal : Nat) (previous : Text) :
    Numbered chunking document ordinal (chunking.sectionChunks document path ordinal previous segments) := by
  induction segments generalizing ordinal previous with
  | nil => exact .nil
  | cons segment rest ih => exact .cons (ih (ordinal + 1) segment)

theorem numbered_documentChunks (large : 2 ≤ chunking.maxChars) (ordinal : Nat) (sections : List DocumentSection) :
    Numbered chunking document ordinal (chunking.documentChunks large document ordinal sections).flatten := by
  induction sections generalizing ordinal with
  | nil => exact .nil
  | cons part rest ih =>
    rw [documentChunks, List.flatten_cons]
    exact (numbered_sectionChunks part.path _ ordinal []).append (ih _)

/-! ### Sections -/

/-- The chunks of a section: with each overlap taken away, they hold what the section holds up to white space. -/
structure Holds (maxChars overlapChars : Nat) (part : DocumentSection) (chunks : List DocumentChunk) : Prop where
  path : ∀ chunk ∈ chunks, chunk.sectionPath = part.path
  fits : ∀ chunk ∈ chunks, chunk.text ≠ [] ∧ chunk.text.length ≤ maxChars
  content : ∃ segments, Overlapped overlapChars [] segments (chunks.map DocumentChunk.text) ∧
    segments.flatMap ink = ink part.text

theorem path_sectionChunks (path : List Text) (segments : List Text) (ordinal : Nat) (previous : Text) :
    ∀ chunk ∈ chunking.sectionChunks document path ordinal previous segments, chunk.sectionPath = path := by
  induction segments generalizing ordinal previous with
  | nil => exact fun chunk member => (List.not_mem_nil member).elim
  | cons segment rest ih =>
    intro chunk member
    rcases List.mem_cons.mp member with rfl | later
    · rfl
    · exact ih _ _ chunk later

theorem holds_documentChunks (large : 2 ≤ chunking.maxChars) (ordinal : Nat) (sections : List DocumentSection) :
    List.Forall₂ (Holds chunking.maxChars chunking.overlapChars) sections
      (chunking.documentChunks large document ordinal sections) := by
  induction sections generalizing ordinal with
  | nil => exact .nil
  | cons part rest ih =>
    obtain ⟨fits, content⟩ := boundedSegments_spec part.text large
    refine .cons ⟨path_sectionChunks _ _ _ _, fits_sectionChunks _ fits _ (.inl rfl), ?_⟩ (ih _)
    exact ⟨_, overlapped_sectionChunks part.path fits ordinal (.inl rfl), content⟩

end Chunking

end Mcplica.Parsers
