import Mcplica.Library.Quote

/-! # JSON pointers as URL fragments

The text of a JSON pointer, from its reference tokens to the fragment of a URL. The way is stated as a relation, since
any character of a fragment may be spelled as its bytes. -/

namespace Mcplica.Library.Text

/-! ## Percent encoding -/

/-- A percent sign and two hexadecimal digits, of either case, for each byte. -/
inductive Spells : Text → List Nat → Prop
  | nil : Spells [] []
  | cons {high low : Char} {highValue lowValue : Nat} {rest : Text} {bytes : List Nat}
      (isHigh : hexValue high = some highValue) (isLow : hexValue low = some lowValue) (spells : Spells rest bytes) :
      Spells ('%' :: high :: low :: rest) ((highValue * 16 + lowValue) :: bytes)

/-- Each character of the text stands for itself, if it may, or is spelled. -/
inductive PercentEncodes (allowed : Char → Bool) : Text → Text → Prop
  | nil : PercentEncodes allowed [] []
  | literal {character : Char} {encoded text : Text} (isAllowed : allowed character = true)
      (encodes : PercentEncodes allowed encoded text) : PercentEncodes allowed (character :: encoded) (character :: text)
  | spelled {character : Char} {spelling encoded text : Text} (spells : Spells spelling (utf8Bytes character))
      (encodes : PercentEncodes allowed encoded text) : PercentEncodes allowed (spelling ++ encoded) (character :: text)

/-- The characters of a URL's fragment. -/
def isFragment (character : Char) : Bool :=
  isUnreserved character || ("!$&'()*+,;=:@/?" : Text).contains character

theorem isFragment_ascii {character : Char} (allowed : isFragment character = true) :
    character.toNat < 0x80 ∧ 32 < character.toNat ∧ character ≠ '%' := by
  unfold isFragment at allowed
  rw [Bool.or_eq_true] at allowed
  rcases allowed with unreserved | isOther
  · obtain ⟨ascii, noSign⟩ := unreserved_ascii unreserved
    refine ⟨ascii, ?_, noSign⟩
    unfold isUnreserved at unreserved
    rw [Bool.or_eq_true] at unreserved
    rcases unreserved with alphanumeric | isOther
    · rw [isAlphanum_iff] at alphanumeric
      omega
    · have others : ∀ other ∈ ("_.-~" : Text), 32 < other.toNat := Text.forall_of_all (by decide)
      exact others character (List.contains_iff_mem.mp isOther)
  · have others : ∀ other ∈ ("!$&'()*+,;=:@/?" : Text), other.toNat < 0x80 ∧ 32 < other.toNat ∧ other ≠ '%' :=
      Text.forall_of_all (by decide)
    exact others character (List.contains_iff_mem.mp isOther)

theorem hexValue_ascii {character : Char} {value : Nat} (isHex : hexValue character = some value) :
    character.toNat < 0x80 ∧ 32 < character.toNat := by
  unfold hexValue at isHex
  simp only [Char.le_def, UInt32.le_iff_toNat_le] at isHex
  have code : character.val.toNat = character.toNat := rfl
  simp only [code] at isHex
  split at isHex
  · rename_i isDigit
    simp at isDigit
    omega
  split at isHex
  · rename_i isLower
    simp at isLower
    omega
  split at isHex
  · rename_i isUpper
    simp at isUpper
    omega
  · cases isHex

theorem Spells.graphic {spelling : Text} {bytes : List Nat} (spells : Spells spelling bytes) :
    ∀ character ∈ spelling, character.toNat < 0x80 ∧ 32 < character.toNat := by
  induction spells with
  | nil => simp
  | cons isHigh isLow _ ih =>
    simp only [List.mem_cons, forall_eq_or_imp]
    exact ⟨by decide, hexValue_ascii isHigh, hexValue_ascii isLow, ih⟩

theorem PercentEncodes.graphic {encoded text : Text} (encodes : PercentEncodes isFragment encoded text) :
    ∀ character ∈ encoded, character.toNat < 0x80 ∧ 32 < character.toNat := by
  induction encodes with
  | nil => simp
  | literal isAllowed _ ih =>
    simp only [List.mem_cons, forall_eq_or_imp]
    have ascii := isFragment_ascii isAllowed
    exact ⟨⟨ascii.1, ascii.2.1⟩, ih⟩
  | spelled spells _ ih =>
    intro character member
    rcases List.mem_append.mp member with isSpelled | isRest
    · exact spells.graphic character isSpelled
    · exact ih character isRest

theorem Spells.sign_mem {spelling : Text} {bytes : List Nat} (spells : Spells spelling bytes) (some_ : bytes ≠ []) :
    '%' ∈ spelling := by
  cases spells with
  | nil => exact absurd rfl some_
  | cons _ _ _ => exact List.mem_cons_self

theorem utf8Bytes_ne_nil (character : Char) : utf8Bytes character ≠ [] := by
  unfold utf8Bytes
  dsimp only
  split
  · exact List.cons_ne_nil _ _
  split
  · exact List.cons_ne_nil _ _
  split <;> exact List.cons_ne_nil _ _

theorem PercentEncodes.self {allowed : Char → Bool} {text : Text} (all : text.all allowed = true) :
    PercentEncodes allowed text text := by
  induction text with
  | nil => exact .nil
  | cons character text ih =>
    rw [List.all_cons, Bool.and_eq_true] at all
    exact .literal all.1 (ih all.2)

/-- Without a percent sign nothing is spelled. -/
theorem PercentEncodes.eq_of_noSign {allowed : Char → Bool} {encoded text : Text}
    (encodes : PercentEncodes allowed encoded text) (noSign : '%' ∉ encoded) : encoded = text := by
  induction encodes with
  | nil => rfl
  | literal _ _ ih =>
    rw [ih fun member => noSign (List.mem_cons_of_mem _ member)]
  | spelled spells _ _ =>
    exact absurd (List.mem_append_left _ (spells.sign_mem (utf8Bytes_ne_nil _))) noSign

/-! ### Weights

Percent signs and twos are what spelling adds to: a character that is spelled weighs less than its spelling. -/

def weight (text : Text) : Nat :=
  text.count '%' + text.count '2'

@[simp]
theorem weight_nil : weight [] = 0 := rfl

@[simp]
theorem weight_append (left right : Text) : weight (left ++ right) = weight left + weight right := by
  simp only [weight, List.count_append]
  omega

theorem weight_cons (character : Char) (text : Text) : weight (character :: text) = weight [character] + weight text :=
  weight_append [character] text

theorem weight_singleton {character : Char} (noSign : character ≠ '%') (notTwo : character ≠ '2') :
    weight [character] = 0 := by
  simp [weight, noSign, notTwo]

theorem hexValue_eq_two {character : Char} (isTwo : hexValue character = some 2) : character = '2' := by
  have ascii := (hexValue_ascii isTwo).1
  have isCode : character.toNat = 50 := by
    unfold hexValue at isTwo
    simp only [Char.le_def, UInt32.le_iff_toNat_le] at isTwo
    have code : character.val.toNat = character.toNat := rfl
    simp only [code] at isTwo
    split at isTwo
    · rename_i isDigit
      simp at isDigit isTwo
      omega
    split at isTwo
    · simp at isTwo
    split at isTwo
    · simp at isTwo
    · cases isTwo
  exact Char.ext (UInt32.toNat_inj.mp isCode)

theorem hexValue_lt {character : Char} {value : Nat} (isHex : hexValue character = some value) : value < 16 := by
  unfold hexValue at isHex
  simp only [Char.le_def, UInt32.le_iff_toNat_le] at isHex
  have code : character.val.toNat = character.toNat := rfl
  simp only [code] at isHex
  split at isHex
  · rename_i isDigit
    simp at isDigit isHex
    omega
  split at isHex
  · rename_i isLower
    simp at isLower isHex
    omega
  split at isHex
  · rename_i isUpper
    simp at isUpper isHex
    omega
  · cases isHex

theorem Spells.weight_lt {character : Char} {spelling : Text} (spells : Spells spelling (utf8Bytes character)) :
    weight [character] < weight spelling := by
  generalize isBytes : utf8Bytes character = bytes at spells
  cases spells with
  | nil => exact absurd isBytes (utf8Bytes_ne_nil character)
  | @cons high low highValue lowValue rest others isHigh isLow _ =>
    have highBound := hexValue_lt isHigh
    have lowBound := hexValue_lt isLow
    have signWeight : weight ['%'] = 1 := by decide
    have twoWeight : weight ['2'] = 1 := by decide
    rw [weight_cons '%', weight_cons high, weight_cons low, signWeight]
    by_cases isSign : character = '%'
    · -- The spelling of the sign has a two as its first digit.
      subst isSign
      have same : [37] = (highValue * 16 + lowValue) :: others := isBytes
      rw [List.cons.injEq] at same
      have isTwo : highValue = 2 := by omega
      rw [isTwo] at isHigh
      rw [hexValue_eq_two isHigh, signWeight, twoWeight]
      omega
    · by_cases isDigit : character = '2'
      · -- The spelling of a two has a two as its second digit.
        subst isDigit
        have same : [50] = (highValue * 16 + lowValue) :: others := isBytes
        rw [List.cons.injEq] at same
        have isTwo : lowValue = 2 := by omega
        rw [isTwo] at isLow
        rw [hexValue_eq_two isLow, twoWeight]
        omega
      · rw [weight_singleton isSign isDigit]
        omega

theorem PercentEncodes.weight_le {allowed : Char → Bool} {encoded text : Text}
    (encodes : PercentEncodes allowed encoded text) : weight text ≤ weight encoded := by
  induction encodes with
  | nil => exact le_rfl
  | @literal character encoded text _ _ ih =>
    rw [weight_cons, weight_cons character encoded]
    omega
  | @spelled character spelling encoded text spells _ ih =>
    have lighter := spells.weight_lt
    rw [weight_cons, weight_append]
    omega

/-- Spelling shows in the weight. -/
theorem PercentEncodes.noSign_of_weight {encoded text : Text} (encodes : PercentEncodes isFragment encoded text)
    (same : weight encoded = weight text) : '%' ∉ encoded := by
  induction encodes with
  | nil => exact List.not_mem_nil
  | @literal character encoded text isAllowed _ ih =>
    rw [weight_cons, weight_cons character text] at same
    rw [List.mem_cons]
    rintro (isSign | member)
    · exact (isFragment_ascii isAllowed).2.2 isSign.symm
    · exact ih (by omega) member
  | @spelled character spelling encoded text spells encodes _ =>
    have lighter := spells.weight_lt
    have notHeavier := encodes.weight_le
    rw [weight_append, weight_cons character text] at same
    omega

/-! ## Reference tokens -/

/-- `~` and `/` are written as `~0` and `~1`. -/
def escapeToken (token : Text) : Text :=
  token.flatMap fun character => if character = '~' then "~0" else if character = '/' then "~1" else [character]

def unescapeToken (token : Text) : Text :=
  replacePair '~' '0' '~' (replacePair '~' '1' '/' token)

/-- The JSON pointer with these reference tokens. -/
def renderPointer (tokens : List Text) : Text :=
  tokens.flatMap fun token => '/' :: escapeToken token

/-- The reference tokens of a text that starts with a slash or is empty. -/
def literalTokens : Text → Option (List Text)
  | [] => some []
  | '/' :: rest => some ((rest.splitOn '/').map unescapeToken)
  | _ => none

theorem replace_singleton (needle : Char) (replacement text : Text) :
    replace [needle] replacement text = text.flatMap fun character =>
      if character = needle then replacement else [character] := by
  unfold replace
  induction text with
  | nil => rfl
  | cons character text ih =>
    rw [List.flatMap_cons, ← ih, replaceFrom]
    by_cases isNeedle : character = needle
    · subst isNeedle
      simp [List.isPrefixOf]
    · simp [List.isPrefixOf, isNeedle, Ne.symm isNeedle]

/-- The two replacements one after the other. -/
theorem escapeToken_eq_replace (token : Text) : escapeToken token = replace "/" "~1" (replace "~" "~0" token) := by
  show _ = replace ['/'] _ (replace ['~'] _ token)
  rw [replace_singleton, replace_singleton, List.flatMap_assoc]
  refine congrArg (token.flatMap ·) (funext fun character => ?_)
  by_cases isTilde : character = '~'
  · rw [if_pos isTilde, if_pos isTilde]
    rfl
  · rw [if_neg isTilde, if_neg isTilde]
    simp

theorem replacePair_cons {first second replacement left : Char} (notFirst : left ≠ first) (rest : Text) :
    replacePair first second replacement (left :: rest) = left :: replacePair first second replacement rest := by
  cases rest with
  | nil => rfl
  | cons right rest => rw [replacePair, if_neg fun same => notFirst same.1]

theorem replacePair_pair (first second replacement : Char) (rest : Text) :
    replacePair first second replacement (first :: second :: rest) =
      replacement :: replacePair first second replacement rest := by
  rw [replacePair, if_pos ⟨rfl, rfl⟩]

theorem replacePair_other {first second replacement right : Char} (notSecond : right ≠ second) (rest : Text) :
    replacePair first second replacement (first :: right :: rest) =
      first :: replacePair first second replacement (right :: rest) := by
  rw [replacePair, if_neg fun same => notSecond same.2]

theorem replacePair_of_not_mem {first second replacement : Char} {text : Text} (absent : first ∉ text) :
    replacePair first second replacement text = text := by
  induction text with
  | nil => rfl
  | cons character text ih =>
    rw [List.mem_cons, not_or] at absent
    rw [replacePair_cons fun same => absent.1 same.symm, ih absent.2]

theorem unescapeToken_escapeToken (token : Text) : unescapeToken (escapeToken token) = token := by
  unfold unescapeToken
  induction token with
  | nil => rfl
  | cons character token ih =>
    have split : escapeToken (character :: token) =
        (if character = '~' then ("~0" : Text) else if character = '/' then "~1" else [character]) ++
          escapeToken token := rfl
    rw [split]
    by_cases isTilde : character = '~'
    · rw [if_pos isTilde, isTilde]
      show replacePair '~' '0' '~' (replacePair '~' '1' '/' ('~' :: '0' :: escapeToken token)) = _
      have kept : replacePair '~' '1' '/' ('0' :: escapeToken token) = '0' :: replacePair '~' '1' '/' (escapeToken token) :=
        replacePair_cons (by decide) _
      rw [replacePair_other (by decide), kept, replacePair_pair, ih]
    · rw [if_neg isTilde]
      by_cases isSlash : character = '/'
      · rw [if_pos isSlash, isSlash]
        show replacePair '~' '0' '~' (replacePair '~' '1' '/' ('~' :: '1' :: escapeToken token)) = _
        rw [replacePair_pair, replacePair_cons (by decide), ih]
      · rw [if_neg isSlash, List.singleton_append, replacePair_cons isTilde, replacePair_cons isTilde, ih]

theorem slash_not_mem_escapeToken (token : Text) : '/' ∉ escapeToken token := by
  intro member
  obtain ⟨character, -, isEscaped⟩ := List.mem_flatMap.mp member
  split at isEscaped
  · revert isEscaped
    decide
  split at isEscaped
  · revert isEscaped
    decide
  · rename_i notSlash
    exact notSlash (List.mem_singleton.mp isEscaped).symm

theorem splitOn_renderPointer (token : Text) (tokens : List Text) :
    (escapeToken token ++ renderPointer tokens).splitOn '/' = (token :: tokens).map escapeToken := by
  induction tokens generalizing token with
  | nil =>
    show (escapeToken token ++ []).splitOn '/' = [escapeToken token]
    rw [List.append_nil]
    exact List.splitOn_eq_singleton (slash_not_mem_escapeToken token)
  | cons next tokens ih =>
    show (escapeToken token ++ '/' :: (escapeToken next ++ renderPointer tokens)).splitOn '/' = _
    rw [List.splitOn_append_cons_self, List.splitOn_eq_singleton (slash_not_mem_escapeToken token), ih]
    rfl

theorem literalTokens_renderPointer (tokens : List Text) : literalTokens (renderPointer tokens) = some tokens := by
  cases tokens with
  | nil => rfl
  | cons token tokens =>
    show some (((escapeToken token ++ renderPointer tokens).splitOn '/').map unescapeToken) = _
    rw [splitOn_renderPointer, List.map_map]
    simp only [Function.comp_def, unescapeToken_escapeToken, List.map_id']

/-- The parts of a text between its slashes. -/
theorem splitOn_eq_cons_iff {text first : Text} {rest : List Text} : text.splitOn '/' = first :: rest ↔
    (∀ part ∈ first :: rest, '/' ∉ part) ∧ text = first ++ rest.flatMap ('/' :: ·) := by
  constructor
  · intro isSplit
    induction text generalizing first rest with
    | nil =>
      rw [List.splitOn_nil, List.cons.injEq] at isSplit
      obtain ⟨rfl, rfl⟩ := isSplit
      simp
    | cons character text ih =>
      rw [List.splitOn_cons_eq_if_modifyHead] at isSplit
      cases parts : text.splitOn '/' with
      | nil => exact absurd parts (List.splitOn_ne_nil _ _)
      | cons part others =>
        obtain ⟨noSlash, isText⟩ := ih parts
        rw [parts] at isSplit
        split at isSplit
        · rename_i isSlash
          rw [List.cons.injEq] at isSplit
          obtain ⟨rfl, rfl⟩ := isSplit
          rw [beq_iff_eq] at isSlash
          refine ⟨List.forall_mem_cons.mpr ⟨List.not_mem_nil, noSlash⟩, ?_⟩
          rw [isText, isSlash]
          simp
        · rename_i notSlash
          rw [List.modifyHead_cons, List.cons.injEq] at isSplit
          obtain ⟨rfl, rfl⟩ := isSplit
          rw [List.forall_mem_cons] at noSlash
          refine ⟨List.forall_mem_cons.mpr ⟨?_, noSlash.2⟩, by rw [isText]; rfl⟩
          intro member
          rcases List.mem_cons.mp member with same | member
          · exact notSlash (beq_iff_eq.mpr same.symm)
          · exact noSlash.1 member
  · rintro ⟨noSlash, rfl⟩
    induction rest generalizing first with
    | nil =>
      rw [List.flatMap_nil, List.append_nil]
      exact List.splitOn_eq_singleton (noSlash first List.mem_cons_self)
    | cons second rest ih =>
      rw [List.forall_mem_cons] at noSlash
      rw [List.flatMap_cons, List.cons_append, List.splitOn_append_cons_self, List.splitOn_eq_singleton noSlash.1,
        ih noSlash.2]
      rfl

/-- A text that is split at its slashes, with one in front, is read part by part. -/
theorem split_eq_some_iff {read : Text → Text} {split : Text → Option (List Text)} (empty : split [] = some [])
    (slash : ∀ rest, split ('/' :: rest) = some ((rest.splitOn '/').map read))
    (other : ∀ first rest, first ≠ '/' → split (first :: rest) = none) {text : Text} {tokens : List Text} :
    split text = some tokens ↔ ∃ parts : List Text, (∀ part ∈ parts, '/' ∉ part) ∧ text = parts.flatMap ('/' :: ·) ∧
      tokens = parts.map read := by
  constructor
  · intro parsed
    cases text with
    | nil =>
      rw [empty, Option.some.injEq] at parsed
      exact ⟨[], by simp, rfl, parsed.symm⟩
    | cons first rest =>
      by_cases isSlash : first = '/'
      · subst isSlash
        rw [slash, Option.some.injEq] at parsed
        cases parts : rest.splitOn '/' with
        | nil => exact absurd parts (List.splitOn_ne_nil _ _)
        | cons first others =>
          rw [parts] at parsed
          obtain ⟨noSlash, rfl⟩ := splitOn_eq_cons_iff.mp parts
          exact ⟨first :: others, noSlash, rfl, parsed.symm⟩
      · rw [other first rest isSlash] at parsed
        cases parsed
  · rintro ⟨parts, noSlash, rfl, rfl⟩
    cases parts with
    | nil => exact empty
    | cons first others =>
      rw [List.flatMap_cons, List.cons_append, slash, splitOn_eq_cons_iff.mpr ⟨noSlash, rfl⟩]

/-- The tokens of a pointer are what stands after its slashes. -/
theorem literalTokens_eq_some_iff {text : Text} {tokens : List Text} : literalTokens text = some tokens ↔
    ∃ parts : List Text, (∀ part ∈ parts, '/' ∉ part) ∧ text = parts.flatMap ('/' :: ·) ∧
      tokens = parts.map unescapeToken :=
  split_eq_some_iff rfl (fun _ => rfl) fun _ _ notSlash => by simp [literalTokens, notSlash]

theorem count_replacePair {first second replacement character : Char} (notFirst : character ≠ first)
    (notSecond : character ≠ second) (notReplacement : character ≠ replacement) (text : Text) :
    (replacePair first second replacement text).count character = text.count character := by
  fun_induction replacePair first second replacement text with
  | case1 left right rest isPair ih =>
    obtain ⟨rfl, rfl⟩ := isPair
    rw [List.count_cons_of_ne notReplacement.symm, List.count_cons_of_ne notFirst.symm, List.count_cons_of_ne notSecond.symm,
      ih]
  | case2 left right rest notPair ih =>
    rw [List.count_cons, ih, ← List.count_cons]
  | case3 rest => rfl

theorem weight_unescapeToken (token : Text) : weight (unescapeToken token) = weight token := by
  unfold weight unescapeToken
  simp only [ne_eq, Char.reduceEq, not_false_eq_true, count_replacePair]

theorem weight_splitOn (text : Text) : weight (text.splitOn '/').flatten = weight text := by
  induction text with
  | nil => rfl
  | cons character text ih =>
    rw [List.splitOn_cons_eq_if_modifyHead]
    by_cases isSlash : character = '/'
    · subst isSlash
      rw [if_pos (by rfl), weight_cons, ← ih]
      simp [weight_singleton]
    · rw [if_neg (by simpa using isSlash), weight_cons, ← ih]
      cases isSplit : text.splitOn '/' with
      | nil => exact absurd isSplit (List.splitOn_ne_nil _ _)
      | cons part parts =>
        show weight ((character :: part) ++ parts.flatten) = _
        rw [List.cons_append, weight_cons]
        rfl

theorem weight_literalTokens {text : Text} {tokens : List Text} (parsed : literalTokens text = some tokens) :
    weight tokens.flatten = weight text := by
  have unescaped : ∀ parts : List Text, weight (parts.map unescapeToken).flatten = weight parts.flatten := by
    intro parts
    induction parts with
    | nil => rfl
    | cons part parts ih =>
      rw [List.map_cons, List.flatten_cons, List.flatten_cons, weight_append, weight_append, weight_unescapeToken,
        ih]
  unfold literalTokens at parsed
  split at parsed
  · cases parsed
    rfl
  · cases parsed
    rw [unescaped, weight_splitOn, weight_cons '/', weight_singleton (by decide) (by decide), Nat.zero_add]
  · cases parsed

/-- The fragment spells the pointer with these tokens. -/
def FragmentOf (fragment : Text) (tokens : List Text) : Prop :=
  PercentEncodes isFragment fragment (renderPointer tokens)

/-- Read without decoding, a fragment has its tokens exactly if nothing is spelled. -/
theorem literalTokens_eq_iff {fragment : Text} {tokens : List Text} (isFragment : FragmentOf fragment tokens) :
    literalTokens fragment = some tokens ↔ '%' ∉ fragment := by
  constructor
  · intro parsed
    refine isFragment.noSign_of_weight ?_
    rw [← weight_literalTokens parsed, weight_literalTokens (literalTokens_renderPointer tokens)]
  · intro noSign
    rw [isFragment.eq_of_noSign noSign, literalTokens_renderPointer]

theorem subset_of_mem_splitOn {text part : Text} (isPart : part ∈ text.splitOn '/') : part ⊆ text := by
  induction text generalizing part with
  | nil =>
    rw [List.splitOn_nil, List.mem_singleton] at isPart
    rw [isPart]
    exact List.Subset.refl _
  | cons character text ih =>
    rw [List.splitOn_cons_eq_if_modifyHead] at isPart
    split at isPart
    · rcases List.mem_cons.mp isPart with rfl | isPart
      · exact List.nil_subset _
      · exact List.subset_cons_of_subset _ (ih isPart)
    · cases isSplit : text.splitOn '/' with
      | nil => exact absurd isSplit (List.splitOn_ne_nil _ _)
      | cons first others =>
        rw [isSplit, List.modifyHead_cons] at isPart
        rcases List.mem_cons.mp isPart with rfl | isOther
        · exact List.cons_subset_cons _ (ih (isSplit ▸ List.mem_cons_self))
        · exact List.subset_cons_of_subset _ (ih (isSplit ▸ List.mem_cons_of_mem _ isOther))

/-- Text without a percent sign is decoded to itself. -/
theorem unquote_of_noSign {text : Text} (ascii : isAscii text = true) (noSign : '%' ∉ text) : unquote text = text := by
  have bytes : percentBytes text = utf8 text := by
    induction text with
    | nil => rfl
    | cons character text ih =>
      simp only [isAscii, List.all_cons, Bool.and_eq_true, decide_eq_true_eq] at ascii
      rw [List.mem_cons, not_or] at noSign
      rw [percentBytes_cons fun same => noSign.1 same.symm, ih ascii.2 noSign.2]
      show _ = utf8Bytes character ++ utf8 text
      rw [utf8Bytes_of_lt ascii.1]
      rfl
  rw [unquote_of_isAscii ascii, bytes, decodeUtf8_utf8]

end Mcplica.Library.Text
