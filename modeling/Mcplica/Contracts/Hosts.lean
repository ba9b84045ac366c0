import Mcplica.Contracts.Validation

/-! # Hosts of server URLs

The host of a server URL is spelled twice: the allowlist names it without case and trailing dots, and the
contract reads that name as a host again. Both readings give the host back exactly when it is plain. -/

namespace Mcplica.Contracts

open Mcplica.Library

variable {platform : Platform} {unicode : Unicode}

/-- What every host of a split ASCII URL is made of. -/
structure HostText (host : Text) : Prop where
  ascii : host.isAscii = true
  nonempty : host ≠ []
  clean : ∀ character ∈ ("/?#@\t\r\n" : Text), character ∉ host
  unpaired : ¬ ('[' ∈ host ∧ ']' ∈ host)

/-- A registered name or an IPv4 address, without a trailing dot. -/
def PlainHost (host : Text) : Prop :=
  (host.endsWith "." = false) ∧ ∀ character ∈ (":[]\\" : Text) ++ [Char.ofNat 0], character ∉ host

instance (host : Text) : Decidable (PlainHost host) := inferInstanceAs (Decidable (_ ∧ _))

/-! ## Reading a host -/

/-- The authority of a split URL, which is a part of the URL without delimiters. -/
structure NetlocOf (url : Text) (parsed : SplitResult) : Prop where
  subset : parsed.netloc ⊆ url
  clean : ∀ character ∈ ("/?#\t\r\n" : Text), character ∉ parsed.netloc

theorem splitScheme_snd_subset (url : Text) : (splitScheme url).2 ⊆ url := by
  unfold splitScheme
  split
  · rename_i scheme rest parted
    split
    · rw [Text.partition_eq_some parted]
      exact fun _ member => List.mem_append_right _ (List.mem_cons_of_mem _ member)
    · exact List.Subset.refl _
  · exact List.Subset.refl _

theorem splitNetloc_fst (url : Text) : (splitNetloc url).1 ⊆ url ∧
    ∀ character ∈ (splitNetloc url).1, isAuthorityEnd character = false := by
  unfold splitNetloc
  split
  · rename_i rest
    rw [List.span_eq_takeWhile_dropWhile]
    refine ⟨fun _ member => ?_, fun character member => ?_⟩
    · exact List.mem_cons_of_mem _ (List.mem_cons_of_mem _ ((List.takeWhile_prefix _).subset member))
    · simpa using List.mem_takeWhile_imp member
  · exact ⟨(fun _ member => by cases member), (fun _ member => by cases member)⟩

/-- `urlsplit` removes tabs and line breaks wherever they stand. -/
def withoutBreaks (text : Text) : Text :=
  text.filter fun character => character ≠ '\t' && character ≠ '\r' && character ≠ '\n'

/-- The text that `urlsplit` splits. -/
def strippedUrl (value : Text) : Text :=
  withoutBreaks (value.dropWhile fun character => character.toNat ≤ 32)

theorem mem_withoutBreaks {text : Text} {character : Char} : character ∈ withoutBreaks text ↔
    character ∈ text ∧ character ∉ ("\t\r\n" : Text) := by
  simp only [withoutBreaks, List.mem_filter, List.mem_cons, List.not_mem_nil, or_false, String.reduceToList]
  simp [and_assoc]

theorem withoutBreaks_append (first second : Text) :
    withoutBreaks (first ++ second) = withoutBreaks first ++ withoutBreaks second :=
  List.filter_append ..

theorem withoutBreaks_eq_self {text : Text} (clean : ∀ character ∈ ("\t\r\n" : Text), character ∉ text) :
    withoutBreaks text = text := by
  refine List.filter_eq_self.mpr fun character member => ?_
  have apart : character ≠ '\t' ∧ character ≠ '\r' ∧ character ≠ '\n' := by
    refine ⟨?_, ?_, ?_⟩ <;> rintro rfl <;> exact clean _ (by decide) member
  simpa using ⟨⟨apart.1, apart.2.1⟩, apart.2.2⟩

theorem strippedUrl_subset (value : Text) : strippedUrl value ⊆ value :=
  fun _ member => (List.dropWhile_suffix _).subset (mem_withoutBreaks.mp member).1

/-- What `urlsplit` makes of the scheme, the authority and the rest. -/
def splitResult (unicode : Unicode) (scheme netloc rest : Text) : Option SplitResult :=
  if netloc.contains '[' ≠ netloc.contains ']' then none
  else if netloc.contains '[' && !checkBracketedNetloc netloc then none
  else if !checkNetloc unicode netloc then none
  else
    let (url, fragment) := Text.partition '#' rest
    let (path, query) := Text.partition '?' url
    some ⟨scheme, netloc, path, query.getD [], fragment.getD []⟩

theorem urlsplit_eq (unicode : Unicode) (url : Text) : urlsplit unicode url =
    splitResult unicode (splitScheme (strippedUrl url)).1 (splitNetloc (splitScheme (strippedUrl url)).2).1
      (splitNetloc (splitScheme (strippedUrl url)).2).2 := rfl

theorem splitResult_parts {scheme netloc rest : Text} {parsed : SplitResult}
    (parts : splitResult unicode scheme netloc rest = some parsed) : parsed.scheme = scheme ∧ parsed.netloc = netloc := by
  unfold splitResult at parts
  split at parts
  · cases parts
  · split at parts
    · cases parts
    · split at parts
      · cases parts
      · cases parts
        exact ⟨rfl, rfl⟩

theorem urlsplit_parts {url : Text} {parsed : SplitResult} (parts : urlsplit unicode url = some parsed) :
    parsed.scheme = (splitScheme (strippedUrl url)).1 ∧
      parsed.netloc = (splitNetloc (splitScheme (strippedUrl url)).2).1 := by
  rw [urlsplit_eq] at parts
  exact splitResult_parts parts

theorem netlocOf_urlsplit {url : Text} {parsed : SplitResult} (parts : urlsplit unicode url = some parsed) :
    NetlocOf url parsed := by
  obtain ⟨fromUrl, noEnd⟩ := splitNetloc_fst (splitScheme (strippedUrl url)).2
  rw [← (urlsplit_parts parts).2] at fromUrl noEnd
  have stripped : parsed.netloc ⊆ strippedUrl url := fun _ member => splitScheme_snd_subset _ (fromUrl member)
  refine ⟨fun _ member => strippedUrl_subset url (stripped member), ?_⟩
  intro character listed member
  have kept := (mem_withoutBreaks.mp (stripped member)).2
  have inside := noEnd character member
  simp only [List.mem_cons, List.not_mem_nil, or_false, String.reduceToList] at listed kept
  rcases listed with rfl | rfl | rfl | isBreak
  · exact absurd inside (by decide)
  · exact absurd inside (by decide)
  · exact absurd inside (by decide)
  · exact kept isBreak

namespace SplitResult

variable {parsed : SplitResult}

theorem hostinfo_fst_subset (parsed : SplitResult) : parsed.hostinfo.1 ⊆ (parsed.netloc.rpartition '@').2 := by
  intro character member
  unfold hostinfo at member
  dsimp only at member
  split at member
  · rename_i before bracketed parted
    have inBracketed := Text.partition_fst_subset ']' bracketed member
    rw [Text.partition_eq_some parted]
    exact List.mem_append_right _ (List.mem_cons_of_mem _ inBracketed)
  · exact Text.partition_fst_subset ':' _ member

/-- Inside brackets there is no closing one, and without brackets there is no opening one. -/
theorem hostinfo_fst_unpaired (parsed : SplitResult) : ¬ ('[' ∈ parsed.hostinfo.1 ∧ ']' ∈ parsed.hostinfo.1) := by
  rintro ⟨opening, closing⟩
  unfold hostinfo at opening closing
  dsimp only at opening closing
  split at opening
  · rename_i before bracketed parted
    rw [parted] at closing
    exact Text.not_mem_partition_fst ']' _ closing
  · rename_i before parted
    exact (Text.partition_eq_none parted).1 (Text.partition_fst_subset ':' _ opening)

/-- Reading the host lowers its letters and changes nothing else. -/
theorem hostname_eq_some {host : Text} (ascii : parsed.hostinfo.1.isAscii = true)
    (isHost : parsed.hostname unicode = some host) :
    host ≠ [] ∧ host.isAscii = true ∧
      ∀ character ∈ host, ¬ (97 ≤ character.toNat ∧ character.toNat ≤ 122) → character ∈ parsed.hostinfo.1 := by
  unfold hostname at isHost
  dsimp only at isHost
  split at isHost
  · cases isHost
  · rename_i nonempty
    split at isHost
    · rename_i address parted
      cases isHost
      obtain ⟨-, rfl⟩ := Text.partition_eq_none parted
      rw [Text.lower_of_isAscii ascii]
      refine ⟨?_, Text.isAscii_map_toLower ascii, fun character member => Text.mem_of_mem_map_toLower member⟩
      simpa using nonempty
    · rename_i address zone parted
      cases isHost
      have whole := Text.partition_eq_some parted
      rw [whole, Text.isAscii_append, Bool.and_eq_true] at ascii
      rw [Text.lower_of_isAscii ascii.1, whole]
      refine ⟨by simp, ?_, ?_⟩
      · rw [Text.isAscii_append, Text.isAscii_map_toLower ascii.1, ascii.2]
        rfl
      · intro character member caseless
        rcases List.mem_append.mp member with inAddress | inZone
        · exact List.mem_append_left _ (Text.mem_of_mem_map_toLower inAddress caseless)
        · exact List.mem_append_right _ inZone

end SplitResult

theorem isAscii_of_subset {part whole : Text} (subset : part ⊆ whole) (ascii : whole.isAscii = true) :
    part.isAscii = true := by
  unfold Text.isAscii at ascii ⊢
  rw [List.all_eq_true] at ascii ⊢
  exact fun character member => ascii character (subset member)

theorem hostText_of_urlsplit {url host : Text} {parsed : SplitResult} (ascii : url.isAscii = true)
    (parts : urlsplit unicode url = some parsed) (isHost : parsed.hostname unicode = some host) : HostText host := by
  have netlocOf := netlocOf_urlsplit parts
  have inNetloc : parsed.hostinfo.1 ⊆ parsed.netloc :=
    fun _ member => Text.rpartition_snd_subset '@' _ (parsed.hostinfo_fst_subset member)
  have infoAscii := isAscii_of_subset (fun _ member => netlocOf.subset (inNetloc member)) ascii
  obtain ⟨nonempty, hostAscii, fromInfo⟩ := SplitResult.hostname_eq_some infoAscii isHost
  have caseless : ∀ character ∈ ("/?#@\t\r\n" : Text), ¬ (97 ≤ character.toNat ∧ character.toNat ≤ 122) :=
    Text.forall_of_all (by decide)
  refine ⟨hostAscii, nonempty, ?_, ?_⟩
  · intro character listed member
    have inInfo := fromInfo character member (caseless character listed)
    by_cases isAt : character = '@'
    · subst isAt
      exact Text.not_mem_rpartition_snd '@' _ (parsed.hostinfo_fst_subset inInfo)
    · have others : ∀ character ∈ ("/?#@\t\r\n" : Text), character ≠ '@' → character ∈ ("/?#\t\r\n" : Text) :=
        Text.forall_of_all (by decide)
      exact netlocOf.clean character (others character listed isAt) (inNetloc inInfo)
  · rintro ⟨opening, closing⟩
    exact parsed.hostinfo_fst_unpaired ⟨fromInfo _ opening (by decide), fromInfo _ closing (by decide)⟩

/-! ## The name in the allowlist -/

theorem endsWith_dot_iff {text : Text} : text.endsWith "." = true ↔ text.getLast? = some '.' := by
  simp only [Text.endsWith, List.isSuffixOf_iff_suffix]
  constructor
  · rintro ⟨before, rfl⟩
    simp
  · intro isLast
    exact ⟨text.dropLast, List.dropLast_append_getLast? '.' isLast⟩

theorem stripEnd_dot_of_not_endsWith {text : Text} (noDot : text.endsWith "." = false) : Text.stripEnd "." text = text := by
  have notLast : text.getLast? ≠ some '.' := fun isLast => by
    rw [endsWith_dot_iff.mpr isLast] at noDot
    cases noDot
  refine List.rdropWhile_eq_self_iff.mpr fun nonempty dropped => notLast ?_
  rw [List.getLast?_eq_some_getLast nonempty]
  simpa using dropped

theorem not_endsWith_stripEnd_dot (text : Text) : (Text.stripEnd "." text).endsWith "." = false := by
  by_contra ends
  rw [Bool.not_eq_false, endsWith_dot_iff] at ends
  have nonempty : Text.stripEnd "." text ≠ [] := by
    intro nothing
    rw [nothing] at ends
    cases ends
  have notDot := List.rdropWhile_last_not (("." : Text).contains) text nonempty
  rw [List.getLast?_eq_some_getLast nonempty] at ends
  apply notDot
  show ("." : Text).contains ((Text.stripEnd "." text).getLast nonempty) = true
  rw [Option.some.inj ends]
  rfl

theorem endsWith_dot_map_toLower (text : Text) : Text.endsWith (text.map Char.toLower) "." = text.endsWith "." := by
  apply Bool.eq_iff_iff.mpr
  rw [endsWith_dot_iff, endsWith_dot_iff, List.getLast?_map]
  cases text.getLast? with
  | none => simp
  | some character =>
    simp only [Option.map_some, Option.some.injEq]
    exact ⟨fun same => Text.eq_of_toLower_eq same (by decide), fun same => by rw [same]; rfl⟩

section Names

variable {host name read : Text}

theorem normalizedHost_eq_some (ascii : host.isAscii = true) (made : normalizedHost unicode host = some name) :
    name = (Text.stripEnd "." host).map Char.toLower ∧ name.idna unicode = some name := by
  unfold normalizedHost at made
  rw [Option.map_eq_some_iff] at made
  obtain ⟨encoded, isEncoded, rfl⟩ := made
  have stripped := Text.isAscii_stripEnd "." ascii
  obtain ⟨rfl, again⟩ := Text.idna_of_isAscii stripped isEncoded
  rw [Text.lower_of_isAscii stripped]
  exact ⟨rfl, again⟩

/-- A name of the allowlist is a host in lower case without trailing dots. -/
structure HostName (unicode : Unicode) (name : Text) : Prop where
  ascii : name.isAscii = true
  clean : ∀ character ∈ ("/?#@\t\r\n" : Text), character ∉ name
  unpaired : ¬ ('[' ∈ name ∧ ']' ∈ name)
  lowered : name.map Char.toLower = name
  undotted : name.endsWith "." = false
  encoded : name.idna unicode = some name

theorem caseless_of_mem_delimiters : ∀ character ∈ ("/?#@\t\r\n:[]\\" : Text) ++ [Char.ofNat 0],
    ¬ (97 ≤ character.toNat ∧ character.toNat ≤ 122) :=
  Text.forall_of_all (by decide)

theorem mem_host_of_mem_name {character : Char} (caseless : ¬ (97 ≤ character.toNat ∧ character.toNat ≤ 122))
    (member : character ∈ (Text.stripEnd "." host).map Char.toLower) : character ∈ host :=
  (List.rdropWhile_prefix _ _).subset (Text.mem_of_mem_map_toLower member caseless)

theorem hostName_of_normalizedHost (hostText : HostText host) (made : normalizedHost unicode host = some name) :
    HostName unicode name := by
  obtain ⟨rfl, encoded⟩ := normalizedHost_eq_some hostText.ascii made
  refine ⟨Text.isAscii_map_toLower (Text.isAscii_stripEnd "." hostText.ascii), ?_, ?_, ?_, ?_, encoded⟩
  · intro character listed member
    refine hostText.clean character listed (mem_host_of_mem_name ?_ member)
    exact caseless_of_mem_delimiters character (by revert listed; simp; tauto)
  · rintro ⟨opening, closing⟩
    exact hostText.unpaired ⟨mem_host_of_mem_name (by decide) opening, mem_host_of_mem_name (by decide) closing⟩
  · rw [List.map_map, Function.comp_def]
    simp only [Text.toLower_toLower]
  · rw [endsWith_dot_map_toLower]
    exact not_endsWith_stripEnd_dot host

/-- Splitting a name as an authority without scheme leaves it whole. -/
theorem urlsplit_name (hostName : HostName unicode name) : urlsplit unicode ("//" ++ name) =
    if name.contains '[' ≠ name.contains ']' then none
    else if name.contains '[' && !checkBracketedNetloc name then none
    else some ⟨[], name, [], [], []⟩ := by
  have inside : ∀ character ∈ name, (!isAuthorityEnd character) = true := by
    intro character member
    have apart : character ≠ '/' ∧ character ≠ '?' ∧ character ≠ '#' := by
      refine ⟨?_, ?_, ?_⟩ <;> rintro rfl <;> exact hostName.clean _ (by decide) member
    simpa [isAuthorityEnd] using ⟨⟨apart.1, apart.2.1⟩, apart.2.2⟩
  have stripped : strippedUrl ("//" ++ name) = "//" ++ name := by
    have clean : ∀ character ∈ ("\t\r\n" : Text), character ∉ name :=
      fun character listed => hostName.clean character (by revert listed; simp; tauto)
    show withoutBreaks (("//" : Text) ++ name) = _
    rw [withoutBreaks_append, withoutBreaks_eq_self clean]
    rfl
  have scheme : splitScheme ("//" ++ name) = ([], "//" ++ name) := by
    unfold splitScheme
    split
    · rename_i before rest parted
      have whole := Text.partition_eq_some parted
      cases before with
      | nil => cases whole
      | cons first others =>
        have isSlash : '/' = first := (List.cons.inj whole).1
        subst isSlash
        rfl
    · rfl
  have netloc : splitNetloc ("//" ++ name) = (name, []) := by
    show name.span _ = _
    rw [List.span_eq_takeWhile_dropWhile, List.takeWhile_eq_self_iff.mpr inside, List.dropWhile_eq_nil_iff.mpr inside]
  have noDelimiter : checkNetloc unicode name = true := by
    unfold checkNetloc
    rw [hostName.ascii]
    rfl
  rw [urlsplit_eq, stripped, scheme, netloc]
  unfold splitResult
  rw [noDelimiter]
  rfl

/-- The host that is read from an authority which is a name without brackets. -/
theorem hostinfo_name (hostName : HostName unicode name) (noBracket : '[' ∉ name) :
    SplitResult.hostinfo ⟨[], name, [], [], []⟩ =
      ((Text.partition ':' name).1, (Text.partition ':' name).2.filter (· ≠ [])) := by
  unfold SplitResult.hostinfo
  simp only [Text.rpartition_of_not_mem (hostName.clean '@' (by decide)), Text.partition_of_not_mem noBracket]

/-- A name that the contract reads has none of the refused characters, and what it reads has no colon. -/
theorem normalizeAllowedHost_eq_ok (hostName : HostName platform.unicode name)
    (isRead : normalizeAllowedHost platform name = .ok read) :
    (∀ character ∈ ("[]\\" : Text) ++ [Char.ofNat 0], character ∉ name) ∧ ':' ∉ read := by
  simp only [normalizeAllowedHost, bind_eq_ok, ensure_eq_ok, obtain?_eq_ok] at isRead
  obtain ⟨-, allowed, parsed, parts, host, isHost, -, noPort, isRead⟩ := isRead
  rw [urlsplit_name hostName] at parts
  split at parts
  · cases parts
  · rename_i paired
    have noBracket : '[' ∉ name := by
      intro opening
      apply hostName.unpaired
      have closing : name.contains ']' = true := by
        rw [← not_not.mp paired]
        exact List.contains_iff_mem.mpr opening
      exact ⟨opening, List.contains_iff_mem.mp closing⟩
    have noClosing : ']' ∉ name := by
      intro closing
      have opening : name.contains '[' = true := by
        rw [not_not.mp paired]
        exact List.contains_iff_mem.mpr closing
      exact noBracket (List.contains_iff_mem.mp opening)
    split at parts
    · cases parts
    · cases parts
      have info := hostinfo_name hostName noBracket
      have subset : (SplitResult.hostinfo ⟨[], name, [], [], []⟩).1 ⊆ name := by
        rw [info]
        exact Text.partition_fst_subset ':' name
      obtain ⟨-, hostAscii, fromInfo⟩ := SplitResult.hostname_eq_some (isAscii_of_subset subset hostName.ascii) isHost
      obtain ⟨rfl, -⟩ := normalizedHost_eq_some hostAscii isRead
      refine ⟨?_, ?_⟩
      · intro character listed member
        simp only [Text.includesAny, Bool.not_eq_true', Bool.or_eq_false_iff] at allowed
        have refused := List.any_eq_false.mp allowed.2 character member
        have cases : character = '[' ∨ character = ']' ∨ character = '\\' ∨ character = Char.ofNat 0 := by
          simpa using listed
        rcases cases with rfl | rfl | rfl | rfl
        · exact noBracket member
        · exact noClosing member
        · exact refused (by decide)
        · exact refused (by decide)
      · intro colon
        have inInfo := fromInfo ':' (mem_host_of_mem_name (by decide) colon) (by decide)
        rw [info] at inInfo
        exact Text.not_mem_partition_fst ':' name inInfo

theorem hostname_name {parsed : SplitResult} (hostName : HostName unicode name) (nonempty : name ≠ [])
    (info : parsed.hostinfo.1 = name) : parsed.hostname unicode = some name := by
  unfold SplitResult.hostname
  rw [info]
  dsimp only
  rw [if_neg nonempty]
  split
  · rename_i address parted
    obtain ⟨-, rfl⟩ := Text.partition_eq_none parted
    rw [Text.lower_of_isAscii hostName.ascii, hostName.lowered]
  · rename_i address zone parted
    have whole := Text.partition_eq_some parted
    have addressAscii : address.isAscii = true := by
      have ascii := hostName.ascii
      rw [whole, Text.isAscii_append, Bool.and_eq_true] at ascii
      exact ascii.1
    have lowered := hostName.lowered
    rw [whole, List.map_append] at lowered
    have same := (List.append_inj lowered (List.length_map _)).1
    rw [Text.lower_of_isAscii addressAscii, same, whole]

theorem normalizedHost_name (hostName : HostName unicode name) : normalizedHost unicode name = some name := by
  unfold normalizedHost
  rw [stripEnd_dot_of_not_endsWith hostName.undotted, hostName.encoded]
  show some (name.lower unicode) = _
  rw [Text.lower_of_isAscii hostName.ascii, hostName.lowered]

/-- The characters that the contract refuses in an allowed host are the delimiters and a part of the others. -/
theorem refused_cases : ∀ character ∈ (("/?#@\\" : Text) ++ lineBreaks),
    character ∈ ("/?#@\t\r\n" : Text) ∨ character ∈ (":[]\\" : Text) ++ [Char.ofNat 0] :=
  Text.forall_of_all (by decide)

/-- A plain name is read back as it stands. -/
theorem normalizeAllowedHost_plain (hostName : HostName platform.unicode name) (nonempty : name ≠ [])
    (plain : PlainHost name) : normalizeAllowedHost platform name = .ok name := by
  have noBracket := plain.2 '[' (by decide)
  have noClosing := plain.2 ']' (by decide)
  have noColon := plain.2 ':' (by decide)
  have noSeparator : name.includes "://" = false := by
    by_contra includes
    rw [Bool.not_eq_false, Text.includes_iff] at includes
    exact noColon (includes.subset (by decide))
  have noRefused : Text.includesAny name (("/?#@\\" : Text) ++ lineBreaks) = false := by
    refine List.any_eq_false.mpr fun character member listed => ?_
    rcases refused_cases character (List.contains_iff_mem.mp listed) with delimiter | other
    · exact hostName.clean character delimiter member
    · exact plain.2 character other member
  have parts : urlsplit platform.unicode ("//" ++ name) = some ⟨[], name, [], [], []⟩ := by
    rw [urlsplit_name hostName]
    simp [noBracket, noClosing]
  have info : SplitResult.hostinfo ⟨[], name, [], [], []⟩ = (name, none) := by
    rw [hostinfo_name hostName noBracket, Text.partition_of_not_mem noColon]
    rfl
  have isHost : SplitResult.hostname platform.unicode ⟨[], name, [], [], []⟩ = some name :=
    hostname_name hostName nonempty (by rw [info])
  have noPort : SplitResult.port ⟨[], name, [], [], []⟩ = .absent := by
    unfold SplitResult.port
    rw [info]
  simp only [normalizeAllowedHost, bind_eq_ok, ensure_eq_ok, obtain?_eq_ok]
  refine ⟨(), ?_, _, parts, name, isHost, (), ?_, normalizedHost_name hostName⟩
  · rw [noSeparator, noRefused]
    rfl
  · rw [noPort]
    rfl

end Names

/-! ## The scheme -/

theorem isHttp_of_parse {urls : AnyHttpUrl} {value url : Text} {parsed : SplitResult} (isUrl : urls.parse value = some url)
    (parts : urlsplit unicode url = some parsed) : parsed.isHttp = true := by
  have starts := urls.scheme isUrl
  rw [Bool.or_eq_true] at starts
  have scheme := (urlsplit_parts parts).1
  unfold SplitResult.isHttp
  rw [scheme]
  rcases starts with plain | secure
  · obtain ⟨rest, rfl⟩ := List.isPrefixOf_iff_prefix.mp plain
    rfl
  · obtain ⟨rest, rfl⟩ := List.isPrefixOf_iff_prefix.mp secure
    rfl

/-! ## All hosts -/

theorem toLower_of_mem_delimiters : ∀ character ∈ (":[]\\" : Text) ++ [Char.ofNat 0], character.toLower = character :=
  Text.forall_of_all (by decide)

/-- A host and its name in the allowlist. -/
def Named (unicode : Unicode) (host name : Text) : Prop :=
  HostText host ∧ normalizedHost unicode host = some name

section Agreement

variable {host name : Text} {hosts names : List Text}

theorem Named.name_eq (named : Named unicode host name) (undotted : host.endsWith "." = false) :
    name = host.map Char.toLower := by
  rw [(normalizedHost_eq_some named.1.ascii named.2).1, stripEnd_dot_of_not_endsWith undotted]

theorem Named.casefold_eq (named : Named unicode host name) : host.casefold unicode = host.map Char.toLower :=
  Text.casefold_of_isAscii named.1.ascii

theorem plainHost_map_toLower (plain : PlainHost host) : PlainHost (host.map Char.toLower) := by
  refine ⟨by rw [endsWith_dot_map_toLower]; exact plain.1, fun character listed member => ?_⟩
  have caseless : ∀ character ∈ (":[]\\" : Text) ++ [Char.ofNat 0], ¬ (97 ≤ character.toNat ∧ character.toNat ≤ 122) :=
    Text.forall_of_all (by decide)
  exact plain.2 character listed (Text.mem_of_mem_map_toLower member (caseless character listed))

theorem plainHost_of_map_toLower (undotted : host.endsWith "." = false)
    (absent : ∀ character ∈ (":[]\\" : Text) ++ [Char.ofNat 0], character ∉ host.map Char.toLower) : PlainHost host := by
  refine ⟨undotted, fun character listed member => absent character listed ?_⟩
  rw [← toLower_of_mem_delimiters character listed]
  exact List.mem_map_of_mem member

/-- The contract reads the allowlist back as the hosts of the servers, and the build validator finds it equal to
them without case, exactly when every host is plain. -/
theorem allowlist_matches_iff (named : List.Forall₂ (Named platform.unicode) hosts names) :
    ((∃ read, (Text.sorted names.dedup).mapM (normalizeAllowedHost platform) = .ok read ∧
        (read.all names.contains && names.all read.contains) = true) ∧
      ((Text.sorted names.dedup).all (hosts.map (Text.casefold platform.unicode)).contains &&
        (hosts.map (Text.casefold platform.unicode)).all (Text.sorted names.dedup).contains) = true) ↔
      ∀ host ∈ hosts, PlainHost host := by
  have listed : ∀ name, name ∈ Text.sorted names.dedup ↔ name ∈ names := by simp
  simp only [Bool.and_eq_true, List.all_eq_true, List.contains_iff_mem, listed]
  constructor
  · rintro ⟨⟨read, ran, -, covered⟩, -, folded⟩ host member
    obtain ⟨name, isName, hostNamed⟩ := exists_of_forall₂_left named member
    have undotted : host.endsWith "." = false := by
      have inNames := folded _ (List.mem_map_of_mem member)
      rw [hostNamed.casefold_eq] at inNames
      obtain ⟨other, -, otherNamed⟩ := exists_of_forall₂_right named inNames
      rw [← endsWith_dot_map_toLower]
      exact (hostName_of_normalizedHost otherNamed.1 otherNamed.2).undotted
    have isLowered := hostNamed.name_eq undotted
    refine plainHost_of_map_toLower undotted ?_
    rw [← isLowered]
    obtain ⟨result, -, isRead⟩ := exists_of_mapM_source ran ((listed name).mpr isName)
    have refused := (normalizeAllowedHost_eq_ok (hostName_of_normalizedHost hostNamed.1 hostNamed.2) isRead).1
    -- The name itself was read from some name, so it has no colon.
    obtain ⟨source, isSource, readFrom⟩ := exists_of_mapM_result ran (covered name isName)
    obtain ⟨other, -, otherNamed⟩ := exists_of_forall₂_right named ((listed source).mp isSource)
    have noColon := (normalizeAllowedHost_eq_ok (hostName_of_normalizedHost otherNamed.1 otherNamed.2) readFrom).2
    intro character isDelimiter
    by_cases isColon : character = ':'
    · rw [isColon]
      exact noColon
    · refine refused character ?_
      revert isDelimiter
      simp [isColon]
  · intro plain
    have readBack : ∀ name ∈ names, normalizeAllowedHost platform name = .ok name := by
      intro name member
      obtain ⟨host, isHost, hostNamed⟩ := exists_of_forall₂_right named member
      have isLowered := hostNamed.name_eq (plain host isHost).1
      refine normalizeAllowedHost_plain (hostName_of_normalizedHost hostNamed.1 hostNamed.2) ?_ ?_
      · rw [isLowered]
        simpa using hostNamed.1.nonempty
      · rw [isLowered]
        exact plainHost_map_toLower (plain host isHost)
    refine ⟨⟨Text.sorted names.dedup, ?_, ?_⟩, ?_, ?_⟩
    · exact mapM_eq_ok.mpr (List.forall₂_same.mpr fun name member => readBack name ((listed name).mp member))
    · exact ⟨fun name member => (listed name).mp member, fun name member => (listed name).mpr member⟩
    · intro name member
      obtain ⟨host, isHost, hostNamed⟩ := exists_of_forall₂_right named member
      rw [hostNamed.name_eq (plain host isHost).1, ← hostNamed.casefold_eq]
      exact List.mem_map_of_mem isHost
    · intro folded member
      obtain ⟨host, isHost, rfl⟩ := List.mem_map.mp member
      obtain ⟨name, isName, hostNamed⟩ := exists_of_forall₂_left named isHost
      rw [hostNamed.casefold_eq, ← hostNamed.name_eq (plain host isHost).1]
      exact isName

end Agreement

end Mcplica.Contracts
