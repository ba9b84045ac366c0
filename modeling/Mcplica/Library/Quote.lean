import Mathlib.Data.List.SplitBy
import Mcplica.Library.Text

/-! # Percent encoding

`urllib.parse.quote` with the characters that may stand in its result. -/

namespace Mcplica.Library.Text

/-- The bytes of a character in UTF-8. -/
def utf8Bytes (character : Char) : List Nat :=
  let code := character.toNat
  if code < 0x80 then [code]
  else if code < 0x800 then [0xc0 + code / 64, 0x80 + code % 64]
  else if code < 0x10000 then [0xe0 + code / 4096, 0x80 + code / 64 % 64, 0x80 + code % 64]
  else [0xf0 + code / 262144, 0x80 + code / 4096 % 64, 0x80 + code / 64 % 64, 0x80 + code % 64]

/-- The characters that `quote` never encodes. -/
def isUnreserved (character : Char) : Bool :=
  character.isAlphanum || ("_.-~" : Text).contains character

def upperHexDigit (value : Nat) : Char :=
  (Nat.digitChar value).toUpper

def percentEncode (byte : Nat) : Text :=
  ['%', upperHexDigit (byte / 16), upperHexDigit (byte % 16)]

/-- `quote(text, safe=safe)` -/
def quote (safe text : Text) : Text :=
  text.flatMap fun character =>
    if isUnreserved character || safe.contains character then [character]
    else (utf8Bytes character).flatMap percentEncode

/-- `text.encode("utf-8")` -/
def utf8 (text : Text) : List Nat :=
  text.flatMap utf8Bytes

/-! ## Base64 -/

def base64Value (character : Char) : Option Nat :=
  if character.isUpper then some (character.toNat - 'A'.toNat)
  else if character.isLower then some (character.toNat - 'a'.toNat + 26)
  else if character.isDigit then some (character.toNat - '0'.toNat + 52)
  else if character = '+' then some 62
  else if character = '/' then some 63
  else none

/-- `base64.b64decode(text, validate=True)`, where it does not raise. -/
def base64Decode : Text → Option (List Nat)
  | [] => some []
  | [first, second, '=', '='] => do
    let first ← base64Value first
    let second ← base64Value second
    return [first * 4 + second / 16]
  | [first, second, third, '='] => do
    let first ← base64Value first
    let second ← base64Value second
    let third ← base64Value third
    return [first * 4 + second / 16, second % 16 * 16 + third / 4]
  | first :: second :: third :: fourth :: rest => do
    let first ← base64Value first
    let second ← base64Value second
    let third ← base64Value third
    let fourth ← base64Value fourth
    let bytes ← base64Decode rest
    return [first * 4 + second / 16, second % 16 * 16 + third / 4, third % 4 * 64 + fourth] ++ bytes
  | _ => none

def base64Character (value : Nat) : Char :=
  if value < 26 then Char.ofNat (65 + value)
  else if value < 52 then Char.ofNat (97 + (value - 26))
  else if value < 62 then Char.ofNat (48 + (value - 52))
  else if value = 62 then '+'
  else '/'

/-- `base64.b64encode` -/
def base64Encode : List Nat → Text
  | [] => []
  | [first] => [base64Character (first / 4), base64Character (first % 4 * 16), '=', '=']
  | [first, second] =>
    [base64Character (first / 4), base64Character (first % 4 * 16 + second / 16), base64Character (second % 16 * 4), '=']
  | first :: second :: third :: rest =>
    [base64Character (first / 4), base64Character (first % 4 * 16 + second / 16),
      base64Character (second % 16 * 4 + third / 64), base64Character (third % 64)] ++ base64Encode rest

example : base64Encode (utf8 "user:pass") = "dXNlcjpwYXNz" := by decide

/-! ## Replacing -/

/-- The `replace` of strings; the first characters that are counted belong to the last match. -/
def replaceFrom (needle replacement : Text) : Nat → Text → Text
  | _, [] => []
  | skipped + 1, _ :: rest => replaceFrom needle replacement skipped rest
  | 0, character :: rest =>
    if needle.isPrefixOf (character :: rest) then replacement ++ replaceFrom needle replacement (needle.length - 1) rest
    else character :: replaceFrom needle replacement 0 rest

/-- `text.replace(needle, replacement)` for a needle that is not empty. -/
def replace (needle replacement text : Text) : Text :=
  replaceFrom needle replacement 0 text

/-! ## What stands in the result -/

theorem utf8Bytes_lt (character : Char) : ∀ byte ∈ utf8Bytes character, byte < 256 := by
  have valid := character.valid
  have bound : character.toNat < 0x110000 := by
    rcases valid with low | ⟨-, high⟩
    · exact Nat.lt_trans low (by decide)
    · exact high
  unfold utf8Bytes
  dsimp only
  intro byte member
  split at member
  · simp only [List.mem_singleton] at member
    omega
  · split at member
    · simp only [List.mem_cons, List.not_mem_nil, or_false] at member
      omega
    · split at member
      · simp only [List.mem_cons, List.not_mem_nil, or_false] at member
        omega
      · simp only [List.mem_cons, List.not_mem_nil, or_false] at member
        omega

def isUpperHex (character : Char) : Bool :=
  ("0123456789ABCDEF" : Text).contains character

theorem isUpperHex_upperHexDigit : ∀ value < 16, isUpperHex (upperHexDigit value) = true := by
  decide

/-- Every character of an encoded text is unreserved, safe, a percent sign or a hexadecimal digit. -/
theorem quote_characters {safe text : Text} {character : Char} (member : character ∈ quote safe text) :
    isUnreserved character = true ∨ safe.contains character = true ∨ character = '%' ∨ isUpperHex character = true := by
  obtain ⟨source, -, inside⟩ := List.mem_flatMap.mp member
  split at inside
  · rename_i kept
    rw [List.mem_singleton.mp inside]
    rw [Bool.or_eq_true] at kept
    exact kept.imp_right .inl
  · obtain ⟨byte, isByte, inByte⟩ := List.mem_flatMap.mp inside
    have bound := utf8Bytes_lt source byte isByte
    simp only [percentEncode, List.mem_cons, List.not_mem_nil, or_false] at inByte
    rcases inByte with rfl | rfl | rfl
    · exact .inr (.inr (.inl rfl))
    · exact .inr (.inr (.inr (isUpperHex_upperHexDigit _ (by omega))))
    · exact .inr (.inr (.inr (isUpperHex_upperHexDigit _ (by omega))))

/-- A character that needs encoding and is not safe does not stand in the result. -/
theorem not_mem_quote {safe text : Text} {character : Char} (reserved : isUnreserved character = false)
    (notSafe : safe.contains character = false) (noSign : character ≠ '%') : character ∉ quote safe text := by
  intro member
  have noHex : isUpperHex character = false := by
    by_contra isHex
    rw [Bool.not_eq_false, isUpperHex, List.contains_iff_mem] at isHex
    have unreserved : ∀ digit ∈ ("0123456789ABCDEF" : Text), isUnreserved digit = true := Text.forall_of_all (by decide)
    rw [unreserved character isHex] at reserved
    cases reserved
  rcases quote_characters member with isUnreserved | isSafe | isSign | isHex
  · rw [reserved] at isUnreserved
    cases isUnreserved
  · rw [notSafe] at isSafe
    cases isSafe
  · exact noSign isSign
  · rw [noHex] at isHex
    cases isHex

/-! ## Decoding -/

theorem utf8Bytes_of_lt {character : Char} (ascii : character.toNat < 0x80) : utf8Bytes character = [character.toNat] := by
  unfold utf8Bytes
  exact if_pos ascii

theorem hexValue_upperHexDigit : ∀ value < 16, hexValue (upperHexDigit value) = some value := by
  decide

theorem percentBytes_percentEncode {byte : Nat} (bound : byte < 256) (rest : Text) :
    percentBytes (percentEncode byte ++ rest) = byte :: percentBytes rest := by
  have high := hexValue_upperHexDigit (byte / 16) (by omega)
  have low := hexValue_upperHexDigit (byte % 16) (by omega)
  show percentBytes ('%' :: upperHexDigit (byte / 16) :: upperHexDigit (byte % 16) :: rest) = _
  rw [percentBytes, high, low]
  show (byte / 16 * 16 + byte % 16) :: percentBytes rest = _
  rw [Nat.div_add_mod']

theorem percentBytes_encoded {bytes : List Nat} (bounds : ∀ byte ∈ bytes, byte < 256) (rest : Text) :
    percentBytes (bytes.flatMap percentEncode ++ rest) = bytes ++ percentBytes rest := by
  induction bytes with
  | nil => rfl
  | cons byte bytes ih =>
    rw [List.flatMap_cons, List.append_assoc, percentBytes_percentEncode (bounds byte (List.mem_cons_self ..)),
      ih fun other member => bounds other (List.mem_cons_of_mem byte member), List.cons_append]

theorem percentBytes_cons {character : Char} (noSign : character ≠ '%') (rest : Text) :
    percentBytes (character :: rest) = character.toNat :: percentBytes rest := by
  rw [percentBytes]
  intro high low others same
  exact absurd same noSign

theorem decodeUtf8_cons (character : Option PartialCharacter) (byte : Nat) (rest : List Nat) :
    decodeUtf8 character (byte :: rest) = (feedByte character byte).1 ++ decodeUtf8 (feedByte character byte).2 rest := by
  cases character <;> rfl

/-- A byte where it is expected brings its six bits. -/
theorem decodeUtf8_continuation {owed low high value byte : Nat} (above : low ≤ byte) (below : byte ≤ high) (rest : List Nat) :
    decodeUtf8 (some ⟨owed + 1, low, high, value⟩) (byte :: rest) =
      if owed = 0 then Char.ofNat (value * 64 + byte % 64) :: decodeUtf8 none rest
      else decodeUtf8 (some ⟨owed, 0x80, 0xbf, value * 64 + byte % 64⟩) rest := by
  have inside : low ≤ byte ∧ byte ≤ high := ⟨above, below⟩
  rw [decodeUtf8_cons]
  simp only [feedByte, if_pos inside, Nat.add_sub_cancel]
  by_cases last : owed = 0
  · simp [last]
  · simp [last]

/-- The bytes of a character are decoded to it. -/
theorem decodeUtf8_utf8Bytes (character : Char) (rest : List Nat) :
    decodeUtf8 none (utf8Bytes character ++ rest) = character :: decodeUtf8 none rest := by
  have valid : character.toNat < 0xd800 ∨ (0xdfff < character.toNat ∧ character.toNat < 0x110000) := character.valid
  have same := Char.ofNat_toNat character
  revert valid same
  generalize hcode : character.toNat = code
  intro valid same
  unfold utf8Bytes
  rw [hcode]
  dsimp only
  split
  · rename_i one
    rw [List.singleton_append, decodeUtf8_cons]
    simp only [feedByte, startCharacter, if_pos one, same]
    rfl
  split
  · rename_i notOne two
    have first : 0xc2 ≤ 0xc0 + code / 64 ∧ 0xc0 + code / 64 ≤ 0xdf := by omega
    have bits : (0xc0 + code / 64) % 32 * 64 + (0x80 + code % 64) % 64 = code := by omega
    rw [List.cons_append, List.singleton_append, decodeUtf8_cons]
    rw [feedByte, startCharacter, if_neg (by omega), if_pos first]
    rw [List.nil_append, decodeUtf8_continuation (by omega) (by omega), if_pos rfl, bits, same]
  split
  · rename_i notOne notTwo three
    have low : (if 0xe0 + code / 4096 = 0xe0 then 0xa0 else 0x80) ≤ 0x80 + code / 64 % 64 := by
      split <;> omega
    have high : 0x80 + code / 64 % 64 ≤ (if 0xe0 + code / 4096 = 0xed then 0x9f else 0xbf) := by
      split <;> omega
    have bits : ((0xe0 + code / 4096) % 16 * 64 + (0x80 + code / 64 % 64) % 64) * 64 + (0x80 + code % 64) % 64 = code := by
      omega
    have started : startCharacter (0xe0 + code / 4096) = ([], some ⟨2, if 0xe0 + code / 4096 = 0xe0 then 0xa0 else 0x80,
        if 0xe0 + code / 4096 = 0xed then 0x9f else 0xbf, (0xe0 + code / 4096) % 16⟩) := by
      rw [startCharacter, if_neg (by omega), if_neg (by omega)]
      split
      · rename_i isFirst
        simp [isFirst]
      split
      · rename_i isLast
        simp [isLast]
      rw [if_pos (by omega)]
    rw [List.cons_append, List.cons_append, List.singleton_append, decodeUtf8_cons, feedByte, started, List.nil_append,
      decodeUtf8_continuation low high, if_neg (by omega), decodeUtf8_continuation (by omega) (by omega), if_pos rfl, bits, same]
  · rename_i notOne notTwo notThree
    have low : (if 0xf0 + code / 262144 = 0xf0 then 0x90 else 0x80) ≤ 0x80 + code / 4096 % 64 := by
      split <;> omega
    have high : 0x80 + code / 4096 % 64 ≤ (if 0xf0 + code / 262144 = 0xf4 then 0x8f else 0xbf) := by
      split <;> omega
    have bits : (((0xf0 + code / 262144) % 8 * 64 + (0x80 + code / 4096 % 64) % 64) * 64 +
        (0x80 + code / 64 % 64) % 64) * 64 + (0x80 + code % 64) % 64 = code := by
      omega
    have started : startCharacter (0xf0 + code / 262144) = ([], some ⟨3, if 0xf0 + code / 262144 = 0xf0 then 0x90 else 0x80,
        if 0xf0 + code / 262144 = 0xf4 then 0x8f else 0xbf, (0xf0 + code / 262144) % 8⟩) := by
      rw [startCharacter, if_neg (by omega), if_neg (by omega), if_neg (by omega), if_neg (by omega), if_neg (by omega)]
      split
      · rename_i isFirst
        simp [isFirst]
      split
      · rename_i isLast
        simp [isLast]
      rw [if_pos (by omega)]
    rw [List.cons_append, List.cons_append, List.cons_append, List.singleton_append, decodeUtf8_cons, feedByte, started,
      List.nil_append, decodeUtf8_continuation low high, if_neg (by omega), decodeUtf8_continuation (by omega) (by omega),
      if_neg (by omega), decodeUtf8_continuation (by omega) (by omega), if_pos rfl, bits, same]

theorem decodeUtf8_utf8 (text : Text) : decodeUtf8 none (utf8 text) = text := by
  induction text with
  | nil => rfl
  | cons character text ih =>
    show decodeUtf8 none (utf8Bytes character ++ utf8 text) = _
    rw [decodeUtf8_utf8Bytes, ih]

theorem isAlphanum_iff {character : Char} : character.isAlphanum = true ↔
    (65 ≤ character.toNat ∧ character.toNat ≤ 90 ∨ 97 ≤ character.toNat ∧ character.toNat ≤ 122) ∨
      48 ≤ character.toNat ∧ character.toNat ≤ 57 := by
  change ((decide (character.val ≥ 'A'.val ∧ character.val ≤ 'Z'.val) ||
      decide (character.val ≥ 'a'.val) && decide (character.val ≤ 'z'.val)) ||
    decide (character.val ≥ '0'.val) && decide (character.val ≤ '9'.val)) = true ↔ _
  simp only [Bool.or_eq_true, Bool.and_eq_true, decide_eq_true_eq, ge_iff_le, UInt32.le_iff_toNat_le]
  rfl

theorem unreserved_ascii {character : Char} (unreserved : isUnreserved character = true) :
    character.toNat < 0x80 ∧ character ≠ '%' := by
  unfold isUnreserved at unreserved
  rw [Bool.or_eq_true] at unreserved
  rcases unreserved with alphanumeric | isOther
  · rw [isAlphanum_iff] at alphanumeric
    constructor
    · omega
    · rintro rfl
      simp at alphanumeric
  · have others : ∀ other ∈ ("_.-~" : Text), other.toNat < 0x80 ∧ other ≠ '%' := Text.forall_of_all (by decide)
    exact others character (List.contains_iff_mem.mp isOther)

/-! ### Round trip -/

section

variable {safe : Text}

/-- One encoded character is read as the bytes of the character. -/
theorem percentBytes_quote (ascii : isAscii safe = true) (noSign : '%' ∉ safe) (text : Text) :
    percentBytes (quote safe text) = utf8 text := by
  induction text with
  | nil => rfl
  | cons character text ih =>
    show percentBytes ((if _ then _ else _) ++ quote safe text) = utf8Bytes character ++ utf8 text
    split
    · rename_i kept
      rw [Bool.or_eq_true] at kept
      have plain : character.toNat < 0x80 ∧ character ≠ '%' := by
        rcases kept with unreserved | isSafe
        · exact unreserved_ascii unreserved
        · have member := List.contains_iff_mem.mp isSafe
          refine ⟨of_decide_eq_true (List.all_eq_true.mp ascii character member), ?_⟩
          rintro rfl
          exact noSign member
      rw [List.singleton_append, percentBytes_cons plain.2, utf8Bytes_of_lt plain.1, ih]
      rfl
    · rw [percentBytes_encoded (utf8Bytes_lt character), ih]

theorem isAscii_quote (ascii : isAscii safe = true) (text : Text) : isAscii (quote safe text) = true := by
  unfold isAscii
  rw [List.all_eq_true]
  intro character member
  rw [decide_eq_true_eq]
  rcases quote_characters member with unreserved | isSafe | rfl | isHex
  · exact (unreserved_ascii unreserved).1
  · exact of_decide_eq_true (List.all_eq_true.mp ascii character (List.contains_iff_mem.mp isSafe))
  · decide
  · have digits : ∀ digit ∈ ("0123456789ABCDEF" : Text), digit.toNat < 0x80 := Text.forall_of_all (by decide)
    exact digits character (List.contains_iff_mem.mp isHex)

theorem unquote_of_isAscii {text : Text} (ascii : isAscii text = true) : unquote text = decodeUtf8 none (percentBytes text) := by
  by_cases empty : text = []
  · rw [empty]
    rfl
  · have alike : text.IsChain fun left right => (isAscii [left] == isAscii [right]) = true := by
      refine List.Pairwise.isChain (List.pairwise_of_forall_mem_list fun left isLeft right isRight => ?_)
      have leftAscii := List.all_eq_true.mp ascii left isLeft
      have rightAscii := List.all_eq_true.mp ascii right isRight
      simp only [isAscii, List.all_cons, List.all_nil, leftAscii, rightAscii]
      rfl
    unfold unquote
    rw [List.splitBy_of_isChain empty alike, List.flatMap_singleton, if_pos ascii]

/-- Nothing is lost by encoding, as long as the sign itself is encoded. -/
theorem unquote_quote (ascii : isAscii safe = true) (noSign : '%' ∉ safe) (text : Text) :
    unquote (quote safe text) = text := by
  rw [unquote_of_isAscii (isAscii_quote ascii text), percentBytes_quote ascii noSign, decodeUtf8_utf8]

end

end Mcplica.Library.Text
