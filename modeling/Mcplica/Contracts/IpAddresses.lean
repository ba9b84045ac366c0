import Mcplica.Contracts.Urls
import Mathlib.Algebra.Group.Nat.Defs

/-! # Numeric addresses

The module `ipaddress`: the texts it accepts as addresses, the texts it writes, and membership in networks. -/

namespace Mcplica.Contracts

open Mcplica.Library

inductive IpAddress where
  | v4 (value : BitVec 32)
  | v6 (value : BitVec 128) (scopeId : Option Text)
  deriving Repr, DecidableEq

/-! ## Reading -/

/-- The number that has the given digits. -/
def numberOf (base : Nat) (digits : List Nat) : Nat :=
  digits.foldl (fun value digit => value * base + digit) 0

def ipv4Value (text : Text) : BitVec 32 :=
  .ofNat 32 (numberOf 256 ((text.splitOn '.').map Text.digitsValue))

def hextetValue (text : Text) : Nat :=
  numberOf 16 (text.filterMap Text.hexValue)

def hextetText (value : Nat) : Text :=
  Nat.toDigits 16 value

/-- The groups between the colons; a dotted quad at the end makes two of them. -/
def spelledGroups (text : Text) : List Text :=
  let groups := text.splitOn ':'
  match groups.getLast? with
  | some last =>
    if last.contains '.' then
      let quad := (ipv4Value last).toNat
      groups.dropLast ++ [hextetText (quad / 65536), hextetText (quad % 65536)]
    else
      groups
  | none => groups

/-- The eight groups, with the zeros that a double colon stands for. -/
def filledGroups (groups : List Text) : List Text :=
  match groups.tail.dropLast.idxOf? [] with
  | none => groups
  | some index =>
    let before := (groups.take (index + 1)).filter (· ≠ [])
    let after := (groups.drop (index + 2)).filter (· ≠ [])
    before ++ List.replicate (8 - before.length - after.length) ("0" : Text) ++ after

def ipv6Value (text : Text) : BitVec 128 :=
  .ofNat 128 (numberOf 65536 ((filledGroups (spelledGroups text)).map hextetValue))

/-- `ip_address`; `none` where it raises `ValueError`. -/
def ipAddress (text : Text) : Option IpAddress :=
  if isIpv4 text then some (.v4 (ipv4Value text))
  else if !text.contains '/' && isIpv6 text then
    let (address, scopeId) := Text.partition '%' text
    some (.v6 (ipv6Value address) scopeId)
  else
    none

/-! ## Writing -/

def ipv4Text (value : Nat) : Text :=
  Text.join "." ([16777216, 65536, 256, 1].map fun weight => Text.ofNat (value / weight % 256))

/-- What the loop over the groups remembers: the longest run of zeros so far and the one it is in. -/
structure ZeroRuns where
  bestStart : Nat := 0
  bestLength : Nat := 0
  start : Option Nat := none
  length : Nat := 0

def ZeroRuns.next (runs : ZeroRuns) (hextet : Text × Nat) : ZeroRuns :=
  if hextet.1 = "0" then
    let start := runs.start.getD hextet.2
    let length := runs.length + 1
    if runs.bestLength < length then ⟨start, length, some start, length⟩
    else { runs with start := some start, length }
  else
    { runs with start := none, length := 0 }

/-- `_compress_hextets` -/
def compressHextets (hextets : List Text) : List Text :=
  let runs := hextets.zipIdx.foldl ZeroRuns.next {}
  let stop := runs.bestStart + runs.bestLength
  if 1 < runs.bestLength then
    (if runs.bestStart = 0 then [[]] else []) ++ hextets.take runs.bestStart ++ [[]] ++ hextets.drop stop ++
      (if stop = hextets.length then [[]] else [])
  else
    hextets

def ipv6Text (value : Nat) : Text :=
  -- An address that maps one of the fourth version shows it.
  if value / 2 ^ 32 = 0xffff then ("::ffff:" : Text) ++ ipv4Text (value % 2 ^ 32)
  else Text.join ":" (compressHextets ((List.range 8).map fun place => hextetText (value / 65536 ^ (7 - place) % 65536)))

/-- `str` of an address. -/
def IpAddress.str : IpAddress → Text
  | .v4 value => ipv4Text value.toNat
  | .v6 value none => ipv6Text value.toNat
  | .v6 value (some scopeId) => ipv6Text value.toNat ++ '%' :: scopeId

example : (ipAddress "2606:4700:0:0::1111").map IpAddress.str = some "2606:4700::1111" := by decide +kernel

example : (ipAddress "::ffff:10.1.2.3").map IpAddress.str = some "::ffff:10.1.2.3" := by decide +kernel

/-! ## Networks -/

inductive IpNetwork where
  | v4 (address : BitVec 32) (length : Nat)
  | v6 (address : BitVec 128) (length : Nat)
  deriving Repr, DecidableEq

/-- `address in network` -/
def IpNetwork.contains : IpNetwork → IpAddress → Bool
  | .v4 network length, .v4 value => value >>> (32 - length) = network >>> (32 - length)
  | .v6 network length, .v6 value _ => value >>> (128 - length) = network >>> (128 - length)
  | _, _ => false

/-! ## The characters of an address -/

/-- What stands before the zone of an address. -/
def isAddressCharacter (character : Char) : Bool :=
  (Text.hexValue character).isSome || character == ':' || character == '.'

theorem isAddressCharacter_of_isDigit {character : Char} (isDigit : character.isDigit = true) :
    isAddressCharacter character = true := by
  have isBetween : '0' ≤ character ∧ character ≤ '9' := by simpa [Char.isDigit, Char.le_def] using isDigit
  simp [isAddressCharacter, Text.hexValue, isBetween]

theorem isAddressCharacter_of_isDigits {text : Text} (isDigits : text.isDigits = true) :
    ∀ character ∈ text, isAddressCharacter character = true := by
  intro character member
  simp only [Text.isDigits, Bool.and_eq_true, List.all_eq_true] at isDigits
  exact isAddressCharacter_of_isDigit (isDigits.2 character member)

/-- A character of a text that is split is a separator or stands in one of the parts. -/
theorem mem_splitOn {separator character : Char} {text : Text} (member : character ∈ text) :
    character = separator ∨ ∃ part ∈ text.splitOn separator, character ∈ part := by
  have whole : Text.join [separator] (text.splitOn separator) = text := List.intercalate_splitOn separator
  rw [← whole] at member
  exact (Text.mem_join member).imp_left List.mem_singleton.mp

theorem isAddressCharacter_of_isIpv4 {text : Text} (isQuad : isIpv4 text = true) :
    ∀ character ∈ text, isAddressCharacter character = true ∧ character ≠ ':' := by
  intro character member
  simp only [isIpv4, Bool.and_eq_true, List.all_eq_true] at isQuad
  obtain rfl | ⟨octet, isOctet, inOctet⟩ := @mem_splitOn '.' _ _ member
  · exact ⟨by decide, by decide⟩
  · have isDigits := (isQuad.2 octet isOctet).1.1.1
    refine ⟨isAddressCharacter_of_isDigits isDigits character inOctet, ?_⟩
    rintro rfl
    simp only [Text.isDigits, Bool.and_eq_true, List.all_eq_true] at isDigits
    exact absurd (isDigits.2 ':' inOctet) (by decide)

theorem isAddressCharacter_of_isHextet {text : Text} (isGroup : isHextet text = true) :
    ∀ character ∈ text, isAddressCharacter character = true := by
  intro character member
  simp only [isHextet, Bool.and_eq_true, List.all_eq_true] at isGroup
  simp [isAddressCharacter, isGroup.2 character member]

/-- A group that is written is one of the groups that are read, or the dotted quad. -/
theorem isAddressCharacter_of_ipv6Groups {text : Text} {groups : List Text} (isRead : ipv6Groups text = some groups)
    (written : ∀ group ∈ groups, group = [] ∨ isHextet group = true) :
    ∀ character ∈ text, isAddressCharacter character = true := by
  intro character member
  have ofGroup {group : Text} (isGroup : group ∈ groups) (inGroup : character ∈ group) :
      isAddressCharacter character = true := by
    rcases written group isGroup with rfl | isGroup
    · cases inGroup
    · exact isAddressCharacter_of_isHextet isGroup character inGroup
  obtain rfl | ⟨group, isGroup, inGroup⟩ := @mem_splitOn ':' _ _ member
  · decide
  unfold ipv6Groups at isRead
  dsimp only at isRead
  split at isRead
  · rename_i last isLast
    split at isRead
    · split at isRead
      · rename_i isQuad
        cases isRead
        -- The last group is the quad, the others are groups of the address.
        rw [← List.dropLast_append_getLast? last isLast] at isGroup
        rcases List.mem_append.mp isGroup with early | late
        · exact ofGroup (List.mem_append_left _ early) inGroup
        · cases List.mem_singleton.mp late
          exact (isAddressCharacter_of_isIpv4 isQuad character inGroup).1
      · cases isRead
    · cases isRead
      exact ofGroup isGroup inGroup
  · cases isRead

theorem isAddressCharacter_of_isIpv6 {text : Text} (isIpv6 : isIpv6 text = true) :
    ∀ character ∈ (Text.partition '%' text).1, isAddressCharacter character = true := by
  unfold Contracts.isIpv6 at isIpv6
  dsimp only at isIpv6
  rw [Bool.and_eq_true] at isIpv6
  replace isIpv6 := isIpv6.2
  split at isIpv6
  · cases isIpv6
  rename_i groups isRead
  apply isAddressCharacter_of_ipv6Groups isRead
  intro group isGroup
  split at isIpv6
  · split at isIpv6
    · simp only [Bool.and_eq_true, List.all_eq_true] at isIpv6
      exact .inr (isIpv6.2 group isGroup)
    · simp only [Bool.and_eq_true, List.all_eq_true] at isIpv6
      by_cases isEmpty : group = []
      · exact .inl isEmpty
      · exact .inr (isIpv6.1.1.1 group (List.mem_filter.mpr ⟨isGroup, by simpa using isEmpty⟩))
    · cases isIpv6
  · cases isIpv6

/-- The zone holds nothing that delimits the parts of a URL. -/
def PlainZone (text : Text) : Prop :=
  ∀ zone, (Text.partition '%' text).2 = some zone → ∀ character ∈ ("/?#@" : Text), character ∉ zone

/-- What an address is as the host of a URL: no delimiter is in it, and it cannot be taken for a bracketed one. -/
structure PlainAddress (text : Text) : Prop where
  nonempty : text ≠ []
  unbracketed : text.head? ≠ some '['
  clean : ∀ character ∈ ("/?#@" : Text), character ∉ text

theorem plainAddress_of_ipAddress {text : Text} {address : IpAddress} (isAddress : ipAddress text = some address)
    (plain : PlainZone text) : PlainAddress text := by
  have numeric : ∀ character ∈ (Text.partition '%' text).1, isAddressCharacter character = true := by
    unfold ipAddress at isAddress
    split at isAddress
    · rename_i isQuad
      intro character member
      exact (isAddressCharacter_of_isIpv4 isQuad character (Text.partition_fst_subset _ _ member)).1
    · split at isAddress
      · rename_i allowed
        rw [Bool.and_eq_true] at allowed
        exact isAddressCharacter_of_isIpv6 allowed.2
      · cases isAddress
  have made : ∀ character ∈ text, isAddressCharacter character = true ∨ character = '%' ∨
      ∃ zone, (Text.partition '%' text).2 = some zone ∧ character ∈ zone := by
    intro character member
    cases parted : Text.partition '%' text with
    | mk before zone =>
      rw [parted] at numeric
      cases zone with
      | none =>
        rw [← (Text.partition_eq_none parted).2] at member
        exact .inl (numeric character member)
      | some zone =>
        rw [Text.partition_eq_some parted] at member
        rcases List.mem_append.mp member with inAddress | rest
        · exact .inl (numeric character inAddress)
        · rcases List.mem_cons.mp rest with rfl | inZone
          · exact .inr (.inl rfl)
          · exact .inr (.inr ⟨zone, rfl, inZone⟩)
  refine ⟨?_, ?_, ?_⟩
  · rintro rfl
    cases isAddress
  · intro starts
    cases text with
    | nil => cases starts
    | cons first rest =>
      cases starts
      have outside : '[' ∈ (Text.partition '%' ('[' :: rest)).1 := by simp [Text.partition]
      exact absurd (numeric '[' outside) (by decide)
  · intro character listed member
    rcases made character member with isNumeric | rfl | ⟨zone, isZone, inZone⟩
    · have noDelimiter : ∀ delimiter ∈ ("/?#@" : Text), isAddressCharacter delimiter = false :=
        Text.forall_of_all (by decide)
      rw [noDelimiter character listed] at isNumeric
      cases isNumeric
    · exact absurd listed (by decide)
    · exact plain zone isZone character listed inZone

/-! ### The text of an address -/

theorem isAddressCharacter_hextetText (value : Nat) : ∀ character ∈ hextetText value, isAddressCharacter character = true := by
  have ofDigit : ∀ digit < 16, isAddressCharacter digit.digitChar = true := by decide
  unfold hextetText
  induction value using Nat.strongRecOn with
  | ind value ih =>
    intro character member
    by_cases isDigit : value < 16
    · rw [Nat.toDigits_of_lt_base isDigit, List.mem_singleton] at member
      rw [member]
      exact ofDigit value isDigit
    · rw [Nat.toDigits_of_base_le (by decide) (Nat.le_of_not_lt isDigit), List.mem_append, List.mem_singleton] at member
      rcases member with earlier | rfl
      · exact ih (value / 16) (by omega) character earlier
      · exact ofDigit (value % 16) (Nat.mod_lt value (by decide))

theorem isAddressCharacter_ipv4Text (value : Nat) : ∀ character ∈ ipv4Text value, isAddressCharacter character = true := by
  intro character member
  rcases Text.mem_join member with isDot | ⟨octet, isOctet, inOctet⟩
  · cases List.mem_singleton.mp isDot
    decide
  · obtain ⟨weight, -, rfl⟩ := List.mem_map.mp isOctet
    exact isAddressCharacter_of_isDigits (Text.isDigits_ofNat _) character inOctet

theorem mem_compressHextets {hextets : List Text} {text : Text} (member : text ∈ compressHextets hextets) :
    text = [] ∨ text ∈ hextets := by
  have ofBound {condition : Prop} [Decidable condition] (isBound : text ∈ if condition then [([] : Text)] else []) :
      text = [] := by
    split at isBound
    · exact List.mem_singleton.mp isBound
    · cases isBound
  unfold compressHextets at member
  dsimp only at member
  split at member
  · simp only [List.mem_append] at member
    rcases member with (((isBound | early) | isGap) | late) | isBound
    · exact .inl (ofBound isBound)
    · exact .inr (List.mem_of_mem_take early)
    · exact .inl (List.mem_singleton.mp isGap)
    · exact .inr (List.mem_of_mem_drop late)
    · exact .inl (ofBound isBound)
  · exact .inr member

theorem isAddressCharacter_ipv6Text (value : Nat) : ∀ character ∈ ipv6Text value, isAddressCharacter character = true := by
  intro character member
  unfold ipv6Text at member
  split at member
  · rcases List.mem_append.mp member with isStart | isQuad
    · have allNumeric : ∀ character ∈ ("::ffff:" : Text), isAddressCharacter character = true :=
        Text.forall_of_all (by decide)
      exact allNumeric character isStart
    · exact isAddressCharacter_ipv4Text _ character isQuad
  · rcases Text.mem_join member with isColon | ⟨group, isGroup, inGroup⟩
    · cases List.mem_singleton.mp isColon
      decide
    · rcases mem_compressHextets isGroup with rfl | isHextet
      · cases inGroup
      · obtain ⟨place, -, rfl⟩ := List.mem_map.mp isHextet
        exact isAddressCharacter_hextetText _ character inGroup

/-- The zone of an address is written as it was read. -/
theorem partition_str {text : Text} {address : IpAddress} (isAddress : ipAddress text = some address) :
    (Text.partition '%' address.str).2 = none ∨ (Text.partition '%' address.str).2 = (Text.partition '%' text).2 := by
  have outside {written : Text} (numeric : ∀ character ∈ written, isAddressCharacter character = true) : '%' ∉ written :=
    fun member => absurd (numeric '%' member) (by decide)
  unfold ipAddress at isAddress
  split at isAddress
  · cases isAddress
    exact .inl (congrArg Prod.snd (Text.partition_of_not_mem (outside (isAddressCharacter_ipv4Text _))))
  · split at isAddress
    · have parts : address = .v6 (ipv6Value (Text.partition '%' text).1) (Text.partition '%' text).2 :=
        (Option.some.inj isAddress).symm
      rw [parts]
      cases (Text.partition '%' text).2 with
      | none => exact .inl (congrArg Prod.snd (Text.partition_of_not_mem (outside (isAddressCharacter_ipv6Text _))))
      | some zone => exact .inr (congrArg Prod.snd (Text.partition_append_cons (outside (isAddressCharacter_ipv6Text _)) zone))
    · cases isAddress

end Mcplica.Contracts
