import Mcplica.Contracts.Validation
import Mcplica.Library.Template

/-! # The grammar of path templates

`path_parameter_names` scans a path once. What it accepts are the templates of `Library.Template` whose names are not
empty and have no slash. -/

namespace Mcplica.Contracts

open Mcplica.Library
open Mcplica.Library.Template (Piece NoBraces braced)

def ValidPlaceholder (name : Text) : Prop :=
  name ≠ [] ∧ NoBraces name ∧ '/' ∉ name

/-- Characters that are not braces, and names in braces. -/
structure WellFormedTemplate (pieces : List Piece) : Prop where
  valid : ∀ piece ∈ pieces, piece.Valid
  placeholders : ∀ name ∈ Template.names pieces, ValidPlaceholder name

namespace WellFormedTemplate

variable {piece : Piece} {pieces others : List Piece} {name : Text} {character : Char}

theorem nil : WellFormedTemplate [] :=
  ⟨by simp, by simp [Template.names]⟩

theorem append (wellFormed : WellFormedTemplate pieces) (othersWellFormed : WellFormedTemplate others) :
    WellFormedTemplate (pieces ++ others) where
  valid := by
    intro piece member
    exact (List.mem_append.mp member).elim (wellFormed.valid piece) (othersWellFormed.valid piece)
  placeholders := by
    intro name member
    rw [Template.names, List.flatMap_append, List.mem_append] at member
    exact member.elim (wellFormed.placeholders name) (othersWellFormed.placeholders name)

theorem literal (notOpening : character ≠ '{') (notClosing : character ≠ '}') :
    WellFormedTemplate [.literal character] :=
  ⟨by simpa [Piece.Valid] using ⟨notOpening, notClosing⟩, by simp [Template.names, Piece.names]⟩

theorem placeholder (valid : ValidPlaceholder name) : WellFormedTemplate [.name name] :=
  ⟨by simpa [Piece.Valid] using valid.2.1, by simpa [Template.names, Piece.names] using valid⟩

theorem tail (wellFormed : WellFormedTemplate (piece :: pieces)) : WellFormedTemplate pieces where
  valid other member := wellFormed.valid other (List.mem_cons_of_mem piece member)
  placeholders name member := wellFormed.placeholders name (by
    rw [Template.names, List.flatMap_cons]
    exact List.mem_append_right _ member)

end WellFormedTemplate

/-! ## The scan -/

def placeholderRejected (name : Text) : Bool :=
  name = [] || name.contains '{' || name.contains '/'

theorem placeholderRejected_eq_false {name : Text} (noClosing : '}' ∉ name) :
    placeholderRejected name = false ↔ ValidPlaceholder name := by
  rw [placeholderRejected, Bool.or_eq_false_iff, Bool.or_eq_false_iff, decide_eq_false_iff_not, ← Bool.not_eq_true,
    ← Bool.not_eq_true, List.contains_iff_mem, List.contains_iff_mem]
  exact ⟨fun ⟨⟨nonempty, noOpening⟩, noSlash⟩ => ⟨nonempty, ⟨noOpening, noClosing⟩, noSlash⟩,
    fun ⟨nonempty, ⟨noOpening, _⟩, noSlash⟩ => ⟨⟨nonempty, noOpening⟩, noSlash⟩⟩

/-- After an opening brace the name ends where `path.find` finds the next closing brace. -/
theorem scanPath_name (read text : Text) :
    scanPath (some read) text =
      match Text.partition '}' text with
      | (_, none) => .error "path template contains an unmatched opening brace"
      | (name, some rest) =>
        if placeholderRejected (read ++ name) then .error "path template contains an invalid parameter expression"
        else do
          let names ← scanPath none rest
          return (read ++ name) :: names := by
  induction text generalizing read with
  | nil => rfl
  | cons character rest ih =>
    by_cases closes : character = '}'
    · subst closes
      have parted : Text.partition '}' ('}' :: rest) = ([], some rest) :=
        @Text.partition_append_cons '}' [] (by simp) rest
      rw [parted, scanPath, if_neg (not_not.mpr rfl)]
      dsimp only
      rw [List.append_nil, placeholderRejected]
    · have parted : Text.partition '}' (character :: rest) =
          (character :: (Text.partition '}' rest).1, (Text.partition '}' rest).2) := by
        simp [Text.partition, closes]
      rw [scanPath, if_pos closes, ih, parted]
      rcases Text.partition '}' rest with ⟨name, after⟩
      cases after with
      | none => rfl
      | some after =>
        dsimp only
        rw [List.append_assoc, List.singleton_append]

theorem scanPath_literal {character : Char} (notOpening : character ≠ '{') (notClosing : character ≠ '}') (rest : Text) :
    scanPath none (character :: rest) = scanPath none rest := by
  rw [scanPath, if_neg notClosing, if_neg notOpening]

theorem scanPath_braced {name : Text} (valid : ValidPlaceholder name) (rest : Text) :
    scanPath none (braced name ++ rest) = (name :: ·) <$> scanPath none rest := by
  have opened : scanPath none (braced name ++ rest) = scanPath (some []) (name ++ '}' :: rest) := by
    simp [braced, scanPath]
  have accepted := (placeholderRejected_eq_false valid.2.1.2).mpr valid
  rw [opened, scanPath_name, Text.partition_append_cons valid.2.1.2]
  simp only [List.nil_append, accepted]
  cases scanPath none rest <;> rfl

/-- A well-formed template in front adds its names. -/
theorem scanPath_append {pieces : List Piece} (wellFormed : WellFormedTemplate pieces) (rest : Text) :
    scanPath none (Template.source pieces ++ rest) = (Template.names pieces ++ ·) <$> scanPath none rest := by
  induction pieces with
  | nil => exact (id_map _).symm
  | cons piece pieces ih =>
    have later := ih wellFormed.tail
    cases piece with
    | literal character =>
      have valid : character ≠ '{' ∧ character ≠ '}' := wellFormed.valid _ List.mem_cons_self
      exact (scanPath_literal valid.1 valid.2 _).trans later
    | name name =>
      have valid : ValidPlaceholder name := wellFormed.placeholders name List.mem_cons_self
      calc scanPath none (Template.source (.name name :: pieces) ++ rest)
          = scanPath none (braced name ++ (Template.source pieces ++ rest)) := by
            simp [Template.source, Template.render, Piece.render]
        _ = (name :: ·) <$> ((Template.names pieces ++ ·) <$> scanPath none rest) := by
            rw [scanPath_braced valid, later]
        _ = _ := by cases scanPath none rest <;> rfl

/-- What the scan accepts is a well-formed template. -/
theorem exists_template {path : Text} {names : List Text} (scanned : scanPath none path = .ok names) :
    ∃ pieces, WellFormedTemplate pieces ∧ Template.source pieces = path ∧ Template.names pieces = names := by
  induction length : path.length using Nat.strong_induction_on generalizing path names with
  | _ length ih =>
    subst length
    cases path with
    | nil =>
      cases scanned
      exact ⟨[], .nil, rfl, rfl⟩
    | cons character rest =>
      by_cases closes : character = '}'
      · rw [scanPath, if_pos closes] at scanned
        cases scanned
      by_cases opens : character = '{'
      · subst opens
        rw [scanPath, if_neg closes, if_pos rfl, scanPath_name] at scanned
        -- without a closing brace the scan fails, otherwise it goes on behind it
        rcases parts : Text.partition '}' rest with ⟨name, after⟩
        rw [parts] at scanned
        cases after with
        | none => cases scanned
        | some after =>
          have isRest := Text.partition_eq_some parts
          have noClosing : '}' ∉ name := by
            have absent := Text.not_mem_partition_fst '}' rest
            rwa [parts] at absent
          simp only [List.nil_append] at scanned
          split at scanned
          · cases scanned
          rename_i accepted
          have valid := (placeholderRejected_eq_false noClosing).mp (Bool.eq_false_iff.mpr accepted)
          rw [bind_eq_ok] at scanned
          obtain ⟨later, scannedLater, same⟩ := scanned
          cases same
          have shorter : after.length < ('{' :: rest).length := by
            simp [isRest]
            omega
          obtain ⟨pieces, wellFormed, isSource, areNames⟩ := ih _ shorter scannedLater rfl
          refine ⟨[.name name] ++ pieces, (WellFormedTemplate.placeholder valid).append wellFormed, ?_, ?_⟩
          · rw [isRest, ← isSource]
            simp [Template.source, Template.render, Piece.render, braced]
          · rw [← areNames]
            simp [Template.names, Piece.names]
      · rw [scanPath_literal opens closes] at scanned
        obtain ⟨pieces, wellFormed, isSource, areNames⟩ := ih _ (by simp) scanned rfl
        refine ⟨[.literal character] ++ pieces, (WellFormedTemplate.literal opens closes).append wellFormed, ?_, ?_⟩
        · rw [← isSource]
          rfl
        · rw [← areNames]
          rfl

/-- The texts that are written with well-formed pieces. -/
def IsTemplate (path : Text) (names : List Text) : Prop :=
  ∃ pieces, WellFormedTemplate pieces ∧ Template.source pieces = path ∧ Template.names pieces = names

theorem isTemplate_iff {path : Text} {names : List Text} : IsTemplate path names ↔ pathParameterNames path = .ok names := by
  constructor
  · rintro ⟨pieces, wellFormed, rfl, rfl⟩
    have scanned := scanPath_append wellFormed []
    rw [List.append_nil] at scanned
    rw [pathParameterNames, scanned]
    exact congrArg Except.ok (List.append_nil _)
  · exact exists_template

/-- A path is a template or is refused, and the names of two templates that stand side by side follow each other. -/
theorem path_template_grammar :
    (∀ path names, pathParameterNames path = .ok names ↔ IsTemplate path names) ∧
    (∀ path, (¬ ∃ names, IsTemplate path names) ↔ ∃ error, pathParameterNames path = .error error) ∧
    (∀ first second firstNames secondNames, IsTemplate first firstNames → IsTemplate second secondNames →
      pathParameterNames (first ++ second) = .ok (firstNames ++ secondNames)) := by
  refine ⟨fun path names => isTemplate_iff.symm, ?_, ?_⟩
  · intro path
    simp only [isTemplate_iff]
    cases pathParameterNames path with
    | error error => simp
    | ok names => simp
  · rintro first second firstNames secondNames ⟨pieces, wellFormed, rfl, rfl⟩ isTemplate
    have scanned := isTemplate_iff.mp isTemplate
    rw [pathParameterNames] at scanned ⊢
    rw [scanPath_append wellFormed, scanned]
    rfl

theorem pets_and_toys :
    pathParameterNames (("/pets/\x7bpet\x7d" : Text) ++ ("/toys/\x7btoy\x7d" : Text)) = .ok ["pet", "toy"] :=
  path_template_grammar.2.2 "/pets/\x7bpet\x7d" "/toys/\x7btoy\x7d" ["pet"] ["toy"]
    (isTemplate_iff.mpr rfl) (isTemplate_iff.mpr rfl)

end Mcplica.Contracts
