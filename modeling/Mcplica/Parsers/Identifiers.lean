import Mcplica.Library.Uuid

/-! # Identifiers

`app.parsers.identifiers`: the keys of operations, servers and schemas, and the names that tools are seeded with. -/

namespace Mcplica.Parsers

open Mcplica.Library

/-! ## Names -/

/-- `_ACRONYM_BOUNDARY`: the last capital before a small letter starts a word of its own. -/
def separateAcronyms : Text → Text
  | first :: second :: third :: rest =>
    if first.isUpper && second.isUpper && third.isLower then first :: '_' :: separateAcronyms (second :: third :: rest)
    else first :: separateAcronyms (second :: third :: rest)
  | short => short

/-- `_CAMEL_BOUNDARY` -/
def separateCamelCase : Text → Text
  | first :: second :: rest =>
    if (first.isLower || first.isDigit) && second.isUpper then first :: '_' :: separateCamelCase (second :: rest)
    else first :: separateCamelCase (second :: rest)
  | short => short

/-- Every run of the characters becomes one underscore; the flag says that one was written for the current run. -/
def underscoreRuns (inRun : Char → Bool) : Bool → Text → Text
  | _, [] => []
  | written, character :: rest =>
    if inRun character then (if written then [] else ['_']) ++ underscoreRuns inRun true rest
    else character :: underscoreRuns inRun false rest

def isIdentifierCharacter (character : Char) : Bool :=
  character.isAlphanum || character == '_'

/-- `normalize_identifier` -/
def normalizeIdentifier (maxLength : Nat) (value : Text) : Text :=
  let separated := separateCamelCase (separateAcronyms value)
  let plain := underscoreRuns (fun character => !isIdentifierCharacter character) false separated
  let lowered := (Text.strips "_" plain).map Char.toLower
  let normalized := underscoreRuns (· == '_') false lowered
  let named : Text := if normalized = [] then "operation" else normalized
  let started : Text := if named.head?.any Char.isDigit then ("op_" : Text) ++ named else named
  started.take maxLength

example : normalizeIdentifier 96 "getHTTPResponse/v2" = "get_http_response_v2" := by decide

/-! ## The characters of a name -/

def isNameCharacter (character : Char) : Bool :=
  character.isLower || character.isDigit || character = '_'

theorem mem_underscoreRuns {inRun : Char → Bool} {character : Char} {text : Text} : ∀ {written : Bool},
    character ∈ underscoreRuns inRun written text → character = '_' ∨ (character ∈ text ∧ inRun character = false) := by
  induction text with
  | nil =>
    intro written member
    cases member
  | cons first rest ih =>
    intro written member
    have later : ∀ {written : Bool}, character ∈ underscoreRuns inRun written rest →
        character = '_' ∨ (character ∈ first :: rest ∧ inRun character = false) := by
      intro written inRest
      rcases ih inRest with isUnderscore | ⟨inText, outside⟩
      · exact .inl isUnderscore
      · exact .inr ⟨List.mem_cons_of_mem _ inText, outside⟩
    simp only [underscoreRuns] at member
    split at member
    · rcases List.mem_append.mp member with here | inRest
      · cases written with
        | true => cases here
        | false => exact .inl (List.mem_singleton.mp here)
      · exact later inRest
    · rename_i outside
      rcases List.mem_cons.mp member with rfl | inRest
      · exact .inr ⟨List.mem_cons_self, by simpa using outside⟩
      · exact later inRest

theorem mem_of_mem_strips {characters text : Text} {character : Char} (member : character ∈ Text.strips characters text) :
    character ∈ text := by
  have kept : character ∈ text.dropWhile characters.contains := by
    have reversed := (List.dropWhile_sublist _).subset (List.mem_reverse.mp member)
    exact List.mem_reverse.mp reversed
  exact (List.dropWhile_sublist _).subset kept

theorem isLower_iff {character : Char} : character.isLower = true ↔ 97 ≤ character.toNat ∧ character.toNat ≤ 122 := by
  change (decide (character.val ≥ 'a'.val) && decide (character.val ≤ 'z'.val)) = true ↔ _
  simp only [Bool.and_eq_true, decide_eq_true_eq, ge_iff_le, UInt32.le_iff_toNat_le]
  rfl

theorem isDigit_iff {character : Char} : character.isDigit = true ↔ 48 ≤ character.toNat ∧ character.toNat ≤ 57 := by
  simp only [Char.isDigit, Bool.and_eq_true, decide_eq_true_eq, ge_iff_le, UInt32.le_iff_toNat_le]
  rfl

theorem isNameCharacter_toLower {character : Char} (allowed : isIdentifierCharacter character = true) :
    isNameCharacter character.toLower = true := by
  have value := Text.toNat_toLower character
  simp only [isIdentifierCharacter, Bool.or_eq_true, beq_iff_eq, Text.isAlphanum_iff] at allowed
  simp only [isNameCharacter, Bool.or_eq_true, decide_eq_true_eq, isLower_iff, isDigit_iff]
  rcases allowed with ((upper | lower) | digit) | rfl
  · rw [if_pos upper] at value
    omega
  · rw [if_neg (by omega)] at value
    omega
  · rw [if_neg (by omega)] at value
    omega
  · exact .inr rfl

/-- What `normalize_identifier` returns: a name of small letters, digits and underscores that starts with no digit. -/
structure Named (maxLength : Nat) (name : Text) : Prop where
  nonempty : name ≠ []
  start : name.head?.any Char.isDigit = false
  characters : ∀ character ∈ name, isNameCharacter character = true
  short : name.length ≤ maxLength

theorem Named.take {length maxLength : Nat} {name : Text} (named : Named length name) (positive : 0 < maxLength) :
    Named maxLength (name.take maxLength) where
  nonempty := by
    intro nothing
    rcases List.take_eq_nil_iff.mp nothing with noLength | noName
    · omega
    · exact named.nonempty noName
  start := by
    rw [List.head?_take, if_neg (by omega)]
    exact named.start
  characters character member := named.characters character (List.mem_of_mem_take member)
  short := List.length_take_le maxLength name

theorem Named.longer {length maxLength : Nat} {name : Text} (named : Named length name) (fits : length ≤ maxLength) :
    Named maxLength name :=
  { named with short := Nat.le_trans named.short fits }

theorem named_started {name : Text} (nonempty : name ≠ [])
    (characters : ∀ character ∈ name, isNameCharacter character = true) :
    Named (name.length + 3) (if name.head?.any Char.isDigit then ("op_" : Text) ++ name else name) := by
  split
  · refine ⟨List.append_ne_nil_of_right_ne_nil _ nonempty, rfl, ?_, ?_⟩
    · intro character member
      rcases List.mem_append.mp member with inStart | inName
      · have start : ∀ character ∈ ("op_" : Text), isNameCharacter character = true :=
          Text.forall_of_all (by decide)
        exact start character inStart
      · exact characters character inName
    · rw [List.length_append]
      exact Nat.le_of_eq (Nat.add_comm _ _)
  · rename_i noDigit
    exact ⟨nonempty, by simpa using noDigit, characters, Nat.le_add_right _ _⟩

theorem normalizeIdentifier_named {maxLength : Nat} (positive : 0 < maxLength) (value : Text) :
    Named maxLength (normalizeIdentifier maxLength value) := by
  unfold normalizeIdentifier
  dsimp only
  generalize separateCamelCase (separateAcronyms value) = separated
  have lowered : ∀ character ∈ (Text.strips "_"
      (underscoreRuns (fun character => !isIdentifierCharacter character) false separated)).map Char.toLower,
      isNameCharacter character = true := by
    intro character member
    obtain ⟨original, inPlain, rfl⟩ := List.mem_map.mp member
    apply isNameCharacter_toLower
    rcases mem_underscoreRuns (mem_of_mem_strips inPlain) with rfl | ⟨-, allowed⟩
    · rfl
    · simpa using allowed
  generalize (Text.strips "_" _).map Char.toLower = plain at lowered ⊢
  have normalized : ∀ character ∈ underscoreRuns (· == '_') false plain, isNameCharacter character = true := by
    intro character member
    rcases mem_underscoreRuns member with rfl | ⟨inPlain, -⟩
    · rfl
    · exact lowered character inPlain
  generalize underscoreRuns (· == '_') false plain = name at normalized ⊢
  have nonempty : (if name = [] then ("operation" : Text) else name) ≠ [] := by
    split
    · decide
    · assumption
  have characters : ∀ character ∈ (if name = [] then ("operation" : Text) else name), isNameCharacter character = true := by
    split
    · exact Text.forall_of_all (by decide)
    · exact normalized
  exact (named_started nonempty characters).take positive

/-! ## Keys -/

/-- `pointer_token` -/
def pointerToken (value : Text) : Text :=
  Text.replace "/" "~1" (Text.replace "~" "~0" value)

section Digest

/-! The digest is `sha256(text.encode()).hexdigest()`. -/

variable (sha256 : Text → Text)

/-- `stable_digest` of one part -/
def stableDigest (length : Nat) (part : Text) : Text :=
  (sha256 part).take length

/-- `operation_key` -/
def operationKey (unicode : Unicode) (method path : Text) (operationId : Option Text) : Text :=
  let identity := match operationId.filter (· ≠ []) with
    | some operationId => Text.strip operationId
    | none => method.upper unicode ++ ' ' :: path
  ("op_" : Text) ++ stableDigest sha256 24 identity

/-- `tool_name_seed` -/
def toolNameSeed (method path : Text) (operationId : Option Text) : Text :=
  match operationId.filter (· ≠ []) with
  | some operationId => normalizeIdentifier 96 operationId
  | none =>
    let unbraced := path.filter fun character => character ≠ Char.ofNat 0x7b && character ≠ Char.ofNat 0x7d
    normalizeIdentifier 96 (method ++ '_' :: Text.replace "/" "_" (Text.strips "/" unbraced))

theorem toolNameSeed_named (method path : Text) (operationId : Option Text) :
    Named 96 (toolNameSeed method path operationId) := by
  unfold toolNameSeed
  split
  · exact normalizeIdentifier_named (by decide) _
  · exact normalizeIdentifier_named (by decide) _

/-- `server_key` of a server without a declared id -/
def serverKey (url : Text) : Text :=
  ("server_" : Text) ++ stableDigest sha256 16 url

/-- `schema_key` -/
def schemaKey (name : Text) : Text :=
  ("schema_" : Text) ++ normalizeIdentifier 80 name ++ '_' :: stableDigest sha256 8 name

end Digest

end Mcplica.Parsers
