import Mcplica.Contracts.Hosts
import Mcplica.Library.Quote
import Mcplica.Runtime.Startup

/-! # The upstream URL policy

`UpstreamUrlPolicy`: the URL it makes for an operation, and the check of a URL before a connection. -/

namespace Mcplica.Runtime

open Mcplica.Library Mcplica.Contracts

/-! ## Rendering -/

/-- `urlunsplit` without query and fragment, for the schemes `http` and `https`. -/
def urlunsplit (scheme netloc path : Text) : Text :=
  let url : Text :=
    if netloc ≠ [] then ("//" : Text) ++ netloc ++ (if path ≠ [] && path.head? ≠ some '/' then '/' :: path else path)
    else if path.startsWith "//" then ("//" : Text) ++ path
    else if path = [] || path.head? = some '/' then ("//" : Text) ++ path
    else path
  scheme ++ ':' :: url

namespace AllowedOrigin

def authority (origin : AllowedOrigin) : Text :=
  let default := (origin.scheme = "https" && origin.port = 443) || (origin.scheme = "http" && origin.port = 80)
  if default then origin.hostname else origin.hostname ++ ':' :: Text.ofNat origin.port

/-- The paths that `resolve` takes. -/
def isSafeOperationPath (path : Text) : Bool :=
  path.startsWith "/" && !path.startsWith "//" && !path.contains '\\' && !path.contains '?' && !path.contains '#' &&
    !Text.includesAny path lineBreaks && !hasDotSegment path

def resolve (origin : AllowedOrigin) (operationPath : Text) : Except Text Text := do
  ensure (isSafeOperationPath operationPath) ("Resolved upstream path is unsafe" : Text)
  let path := origin.basePath ++ '/' :: operationPath.dropWhile (· = '/')
  return urlunsplit origin.scheme origin.authority path

end AllowedOrigin

structure QueryParameter where
  name : Text
  value : Text
  allowReserved : Bool := false
  deriving Repr, DecidableEq

def reservedSafe : Text := ":/?@!$'()*+,;"

def encodeQueryParameter (parameter : QueryParameter) : Text :=
  Text.quote [] parameter.name ++ '=' :: Text.quote (if parameter.allowReserved then reservedSafe else []) parameter.value

/-- `_append_query` -/
def appendQuery (url : Text) (parameters : List QueryParameter) : Text :=
  if parameters.isEmpty then url else url ++ '?' :: Text.join "&" (parameters.map encodeQueryParameter)

/-! ## The check -/

namespace UpstreamUrlPolicy

def resolve (policy : UpstreamUrlPolicy) (serverRef operationPath : Text) : Except Text Text := do
  let origin ← obtain? (policy.origins.lookup serverRef) ("Manifest references an unknown upstream server" : Text)
  origin.resolve operationPath

def destinationRefused : Text := "Upstream destination is blocked by runtime policy"

def assertUrlIsAllowlisted (platform : Platform) (policy : UpstreamUrlPolicy) (url : Text) :
    Except Text AllowedOrigin := do
  let parsed ← obtain? (urlsplit platform.unicode url) ("Invalid IPv6 URL" : Text)
  ensure parsed.isHttp destinationRefused
  let hostname ← obtain? (parsed.hostname platform.unicode) destinationRefused
  ensure ((parsed.username.getD []) = [] && (parsed.password.getD []) = [] && parsed.fragment = []) destinationRefused
  let hostname ← obtain? (normalizedHost platform.unicode hostname) destinationRefused
  let port ← obtain? (effectivePort parsed.scheme parsed.port) destinationRefused
  let origin : AllowedOrigin := ⟨parsed.scheme, hostname, port, []⟩
  ensure (policy.origins.any fun (_, allowed) =>
      origin.scheme = allowed.scheme && origin.hostname = allowed.hostname && origin.port = allowed.port)
    destinationRefused
  return origin

end UpstreamUrlPolicy

/-! ## Origins -/

variable {platform : Platform}

/-- What `from_url` makes of a URL. -/
structure OriginOf (platform : Platform) (url : Text) (origin : AllowedOrigin) : Prop where
  scheme : origin.scheme = "http" ∨ origin.scheme = "https"
  host : ∃ parsed host, urlsplit platform.unicode url = some parsed ∧ parsed.hostname platform.unicode = some host ∧
    Named platform.unicode host origin.hostname
  port : origin.port ≤ 65535
  rooted : origin.basePath = [] ∨ origin.basePath.head? = some '/'
  clean : ∀ character ∈ ("?#\t\r\n" : Text), character ∉ origin.basePath

theorem splitResult_path {unicode : Unicode} {scheme netloc rest : Text} {parsed : SplitResult}
    (parts : splitResult unicode scheme netloc rest = some parsed) :
    parsed.path = (Text.partition '?' (Text.partition '#' rest).1).1 := by
  unfold splitResult at parts
  split at parts
  · cases parts
  · split at parts
    · cases parts
    · split at parts
      · cases parts
      · cases parts
        rfl

/-- After an authority there is nothing, or the path begins with a slash, or there is no path. -/
theorem splitNetloc_snd_head {url : Text} (hasNetloc : (splitNetloc url).1 ≠ []) {character : Char}
    (isHead : (splitNetloc url).2.head? = some character) : isAuthorityEnd character = true := by
  unfold splitNetloc at hasNetloc isHead
  split at hasNetloc
  · rename_i rest
    change (rest.span fun character => !isAuthorityEnd character).2.head? = some character at isHead
    rw [List.span_eq_takeWhile_dropWhile] at isHead
    have stopped := List.head?_dropWhile_not (fun character => !isAuthorityEnd character) rest
    rw [isHead] at stopped
    simpa using stopped
  · exact absurd rfl hasNetloc

theorem rooted_path {unicode : Unicode} {url host : Text} {parsed : SplitResult}
    (parts : urlsplit unicode url = some parsed) (isHost : parsed.hostname unicode = some host) :
    parsed.path = [] ∨ parsed.path.head? = some '/' := by
  rw [urlsplit_eq] at parts
  have path := splitResult_path parts
  have netloc := (splitResult_parts parts).2
  have hasNetloc : (splitNetloc (splitScheme (strippedUrl url)).2).1 ≠ [] := by
    rw [← netloc]
    intro nothing
    have info := parsed.hostinfo_fst_subset
    rw [nothing] at info
    have noInfo : parsed.hostinfo.1 = [] := List.eq_nil_of_subset_nil info
    unfold SplitResult.hostname at isHost
    rw [noInfo] at isHost
    cases isHost
  cases isRest : (splitNetloc (splitScheme (strippedUrl url)).2).2 with
  | nil =>
    rw [isRest] at path
    exact .inl path
  | cons character rest =>
    rw [isRest] at path
    have isEnd := splitNetloc_snd_head hasNetloc (by rw [isRest]; rfl)
    by_cases isSlash : character = '/'
    · subst isSlash
      right
      rw [path]
      rfl
    · left
      rw [path]
      have others : character = '?' ∨ character = '#' := by
        simp only [isAuthorityEnd, Bool.or_eq_true, beq_iff_eq] at isEnd
        tauto
      rcases others with rfl | rfl
      · rfl
      · rfl

theorem path_clean {unicode : Unicode} {url : Text} {parsed : SplitResult} (parts : urlsplit unicode url = some parsed) :
    ∀ character ∈ ("?#\t\r\n" : Text), character ∉ parsed.path := by
  rw [urlsplit_eq] at parts
  rw [splitResult_path parts]
  intro character listed member
  have inFragmentless := Text.partition_fst_subset '?' _ member
  have inRest := Text.partition_fst_subset '#' _ inFragmentless
  have inStripped : character ∈ strippedUrl url := by
    refine splitScheme_snd_subset _ ?_
    unfold splitNetloc at inRest
    split at inRest
    · rename_i rest isRest
      rw [isRest]
      rw [List.span_eq_takeWhile_dropWhile] at inRest
      exact List.mem_cons_of_mem _ (List.mem_cons_of_mem _ ((List.dropWhile_suffix _).subset inRest))
    · exact inRest
  have kept := (mem_withoutBreaks.mp inStripped).2
  have cases_ : ∀ character ∈ ("?#\t\r\n" : Text), character = '?' ∨ character = '#' ∨ character ∈ ("\t\r\n" : Text) :=
    Text.forall_of_all (by decide)
  rcases cases_ character listed with rfl | rfl | isBreak
  · exact Text.not_mem_partition_fst '?' _ member
  · exact Text.not_mem_partition_fst '#' _ inFragmentless
  · exact kept isBreak

theorem effectivePort_le {scheme : Text} {parsed : SplitResult} {port : Nat}
    (isPort : effectivePort scheme parsed.port = some port) : port ≤ 65535 := by
  unfold SplitResult.port at isPort
  split at isPort
  · cases isPort
    split <;> decide
  · split at isPort
    · rename_i inRange
      cases isPort
      simp only [Bool.and_eq_true, decide_eq_true_eq] at inRange
      exact inRange.2
    · cases isPort

theorem originOf_fromUrl {url : Text} {origin : AllowedOrigin} (ascii : url.isAscii = true)
    (made : AllowedOrigin.fromUrl platform url = .ok origin) : OriginOf platform url origin := by
  simp only [AllowedOrigin.fromUrl, bind_eq_ok, obtain?_eq_ok, ensure_eq_ok] at made
  obtain ⟨parsed, parts, -, http, host, isHost, -, -, port, isPort, -, -, name, isName, same⟩ := made
  cases same
  refine ⟨?_, ⟨parsed, host, parts, isHost, hostText_of_urlsplit ascii parts isHost, isName⟩, ?_, ?_, ?_⟩
  · exact SplitResult.isHttp_iff.mp http
  · exact effectivePort_le isPort
  · rcases rooted_path parts isHost with nothing | rooted
    · exact .inl (by show Text.stripEnd "/" parsed.path = []; rw [nothing]; rfl)
    · obtain ⟨stripped, whole⟩ := List.rdropWhile_prefix (("/" : Text).contains) parsed.path
      show Text.stripEnd "/" parsed.path = [] ∨ (Text.stripEnd "/" parsed.path).head? = some '/'
      unfold Text.stripEnd
      cases isBase : parsed.path.rdropWhile (("/" : Text).contains) with
      | nil => exact .inl rfl
      | cons first rest =>
        rw [isBase] at whole
        rw [← whole] at rooted
        exact .inr rooted
  · intro character listed member
    exact path_clean parts character listed ((List.rdropWhile_prefix _ _).subset member)

/-! ## Parsing what was rendered -/

section Render

variable {unicode : Unicode} {scheme authority rest : Text}

theorem splitNetloc_render (clean : ∀ character ∈ ("/?#" : Text), character ∉ authority)
    (ends : ∀ character, rest.head? = some character → isAuthorityEnd character = true) :
    splitNetloc ('/' :: '/' :: authority ++ rest) = (authority, rest) := by
  have inside : ∀ character ∈ authority, (!isAuthorityEnd character) = true := by
    intro character member
    have apart : character ≠ '/' ∧ character ≠ '?' ∧ character ≠ '#' := by
      refine ⟨?_, ?_, ?_⟩ <;> rintro rfl <;> exact clean _ (by decide) member
    simpa [isAuthorityEnd] using ⟨⟨apart.1, apart.2.1⟩, apart.2.2⟩
  show (authority ++ rest).span _ = _
  rw [List.span_eq_takeWhile_dropWhile, List.takeWhile_append_of_pos inside, List.dropWhile_append_of_pos inside]
  cases rest with
  | nil => simp
  | cons character others => simp [ends character rfl]

/-- A URL that is put together from its parts is split into them again. -/
theorem urlsplit_render (isHttp : scheme = "http" ∨ scheme = "https")
    (clean : ∀ character ∈ ("/?#\t\r\n" : Text), character ∉ authority)
    (ends : ∀ character, rest.head? = some character → isAuthorityEnd character = true) :
    urlsplit unicode (scheme ++ ':' :: '/' :: '/' :: authority ++ rest) =
      splitResult unicode scheme authority (withoutBreaks rest) := by
  have amongEnds : ∀ character ∈ ("/?#" : Text), character ∈ ("/?#\t\r\n" : Text) := Text.forall_of_all (by decide)
  have amongBreaks : ∀ character ∈ ("\t\r\n" : Text), character ∈ ("/?#\t\r\n" : Text) := Text.forall_of_all (by decide)
  have cleanEnds : ∀ character ∈ ("/?#" : Text), character ∉ authority :=
    fun character listed => clean character (amongEnds character listed)
  have cleanBreaks : ∀ character ∈ ("\t\r\n" : Text), character ∉ authority :=
    fun character listed => clean character (amongBreaks character listed)
  have stripped : strippedUrl (scheme ++ ':' :: '/' :: '/' :: authority ++ rest) =
      scheme ++ ':' :: '/' :: '/' :: authority ++ withoutBreaks rest := by
    have filtered : withoutBreaks (scheme ++ ':' :: '/' :: '/' :: authority ++ rest) =
        scheme ++ ':' :: '/' :: '/' :: authority ++ withoutBreaks rest := by
      rw [withoutBreaks_append]
      congr 1
      show withoutBreaks (scheme ++ (("://" : Text) ++ authority)) = _
      rw [withoutBreaks_append, withoutBreaks_append, withoutBreaks_eq_self cleanBreaks]
      rcases isHttp with rfl | rfl <;> rfl
    rw [← filtered]
    rcases isHttp with rfl | rfl <;> rfl
  have endsStripped : ∀ character, (withoutBreaks rest).head? = some character → isAuthorityEnd character = true := by
    cases rest with
    | nil =>
      intro character isHead
      cases isHead
    | cons first others =>
      have isEnd := ends first rfl
      have kept : withoutBreaks (first :: others) = first :: withoutBreaks others := by
        refine List.filter_cons_of_pos ?_
        simp only [isAuthorityEnd, Bool.or_eq_true, beq_iff_eq] at isEnd
        rcases isEnd with (rfl | rfl) | rfl <;> decide
      rw [kept]
      intro character isHead
      rw [List.head?_cons, Option.some.injEq] at isHead
      rw [← isHead]
      exact isEnd
  have schemeSplit : splitScheme (scheme ++ ':' :: '/' :: '/' :: authority ++ withoutBreaks rest) =
      (scheme, '/' :: '/' :: authority ++ withoutBreaks rest) := by
    rcases isHttp with rfl | rfl <;> rfl
  rw [urlsplit_eq, stripped, schemeSplit, splitNetloc_render cleanEnds endsStripped]

end Render

/-! ## Resolved URLs -/

def querySuffix (parameters : List QueryParameter) : Text :=
  if parameters.isEmpty then [] else '?' :: Text.join "&" (parameters.map encodeQueryParameter)

theorem appendQuery_eq (url : Text) (parameters : List QueryParameter) :
    appendQuery url parameters = url ++ querySuffix parameters := by
  unfold appendQuery querySuffix
  split <;> simp

/-- The query never opens a fragment. -/
theorem hash_not_mem_querySuffix (parameters : List QueryParameter) : '#' ∉ querySuffix parameters := by
  unfold querySuffix
  split
  · exact List.not_mem_nil
  · intro member
    rcases List.mem_cons.mp member with isMark | inJoin
    · cases isMark
    · rcases Text.mem_join inJoin with isSeparator | ⟨text, isText, inText⟩
      · revert isSeparator
        decide
      · obtain ⟨parameter, -, rfl⟩ := List.mem_map.mp isText
        simp only [encodeQueryParameter, List.mem_append, List.mem_cons] at inText
        rcases inText with inName | isEquals | inValue
        · exact Text.not_mem_quote (by decide) (by decide) (by decide) inName
        · cases isEquals
        · refine Text.not_mem_quote (by decide) ?_ (by decide) inValue
          cases parameter.allowReserved <;> decide

namespace AllowedOrigin

/-- The path of the URL for an operation path. -/
def resolvedPath (origin : AllowedOrigin) (operationPath : Text) : Text :=
  origin.basePath ++ '/' :: operationPath.dropWhile (· = '/')

theorem resolve_eq_ok {origin : AllowedOrigin} {path url : Text}
    (rooted : origin.basePath = [] ∨ origin.basePath.head? = some '/') (resolved : origin.resolve path = .ok url) :
    isSafeOperationPath path = true ∧
      url = origin.scheme ++ ':' :: '/' :: '/' :: origin.authority ++ origin.resolvedPath path := by
  simp only [resolve, bind_eq_ok, ensure_eq_ok] at resolved
  obtain ⟨-, safe, same⟩ := resolved
  cases same
  refine ⟨safe, ?_⟩
  have head : (origin.resolvedPath path).head? = some '/' := by
    unfold resolvedPath
    rcases rooted with nothing | isSlash
    · rw [nothing]
      rfl
    · cases isBase : origin.basePath with
      | nil => rfl
      | cons first rest =>
        rw [isBase] at isSlash
        exact isSlash
  show urlunsplit origin.scheme origin.authority (origin.resolvedPath path) = _
  unfold urlunsplit
  by_cases hasAuthority : origin.authority = []
  · simp only [hasAuthority, ne_eq, not_true_eq_false, if_false, head]
    split <;> simp
  · simp [hasAuthority, head]

end AllowedOrigin

/-! ## Authorities -/

/-- A host that can be written into an authority as it stands. -/
def Renderable (host : Text) : Prop :=
  Text.stripEnd "." host ≠ [] ∧ ∀ character ∈ (":[]" : Text), character ∉ host

section Authority

variable {origin : AllowedOrigin}

theorem mem_authority {character : Char} (member : character ∈ origin.authority) :
    character ∈ origin.hostname ∨ character = ':' ∨ character.isDigit = true := by
  unfold AllowedOrigin.authority at member
  dsimp only at member
  split at member
  · exact .inl member
  · rcases List.mem_append.mp member with inHost | inPort
    · exact .inl inHost
    · rcases List.mem_cons.mp inPort with isColon | inDigits
      · exact .inr (.inl isColon)
      · have digits := Text.isDigits_ofNat origin.port
        simp only [Text.isDigits, Bool.and_eq_true, List.all_eq_true] at digits
        exact .inr (.inr (digits.2 character inDigits))

theorem hostname_subset_authority : origin.hostname ⊆ origin.authority := by
  unfold AllowedOrigin.authority
  dsimp only
  split
  · exact List.Subset.refl _
  · exact List.subset_append_left _ _

theorem not_mem_authority {character : Char} (notColon : character ≠ ':') (notDigit : character.isDigit = false)
    (absent : character ∉ origin.hostname) : character ∉ origin.authority := by
  intro member
  rcases mem_authority member with inHost | isColon | isDigit
  · exact absent inHost
  · exact notColon isColon
  · rw [notDigit] at isDigit
    cases isDigit

theorem isAscii_authority (ascii : origin.hostname.isAscii = true) : origin.authority.isAscii = true := by
  unfold Text.isAscii at ascii ⊢
  rw [List.all_eq_true] at ascii ⊢
  intro character member
  rcases mem_authority member with inHost | rfl | isDigit
  · exact ascii character inHost
  · rfl
  · simp only [Char.isDigit, Bool.and_eq_true, decide_eq_true_eq] at isDigit
    have bound : character.val.toNat ≤ 57 := UInt32.le_iff_toNat_le.mp isDigit.2
    have : character.toNat ≤ 57 := bound
    simp only [decide_eq_true_eq]
    omega

/-- The authority of an origin is read back as its host and its port. -/
theorem partition_authority (noColon : ':' ∉ origin.hostname) :
    (Text.partition ':' origin.authority = (origin.hostname, none) ∧ effectivePort origin.scheme .absent = some origin.port) ∨
      Text.partition ':' origin.authority = (origin.hostname, some (Text.ofNat origin.port)) := by
  unfold AllowedOrigin.authority
  dsimp only
  split
  · rename_i default
    left
    refine ⟨Text.partition_of_not_mem noColon, ?_⟩
    simp only [Bool.or_eq_true, Bool.and_eq_true, decide_eq_true_eq] at default
    rcases default with ⟨isScheme, isPort⟩ | ⟨isScheme, isPort⟩
    · rw [isScheme, isPort]
      rfl
    · rw [isScheme, isPort]
      rfl
  · exact .inr (Text.partition_append_cons noColon _)

theorem effectivePort_authority {parsed : SplitResult} (noColon : ':' ∉ origin.hostname) (bound : origin.port ≤ 65535)
    (info : parsed.hostinfo.2 = (Text.partition ':' origin.authority).2.filter (· ≠ [])) :
    effectivePort origin.scheme parsed.port = some origin.port := by
  unfold SplitResult.port
  rw [info]
  rcases partition_authority noColon with ⟨parted, port⟩ | parted
  · rw [parted]
    exact port
  · have nonempty : Text.ofNat origin.port ≠ [] := Nat.toDigits_ne_nil
    rw [parted]
    simp [Option.filter, nonempty, Text.isDigits_ofNat, Text.digitsValue_ofNat, bound, effectivePort]

end Authority

/-! ## The policy and its own URLs -/

section Accepts

variable {network : RuntimeNetworkPolicy platform} {servers : List ServerDefinition} {policy : UpstreamUrlPolicy}

theorem exists_origin (made : UpstreamUrlPolicy.make platform network servers = .ok policy) {server : ServerDefinition}
    (member : server ∈ servers) :
    ∃ origin, AllowedOrigin.fromUrl platform server.url = .ok origin ∧ policy.origins.lookup server.id = some origin ∧
      (server.id, origin) ∈ policy.origins := by
  simp only [UpstreamUrlPolicy.make, bind_eq_ok, ensure_eq_ok, decide_eq_true_eq] at made
  obtain ⟨origins, ran, -, unique, privateHosts, -, developmentHosts, -, same⟩ := made
  cases same
  obtain ⟨entry, isEntry, isMade⟩ := exists_of_mapM_source ran member
  simp only [namedOrigin, bind_eq_ok] at isMade
  obtain ⟨origin, isOrigin, same⟩ := isMade
  cases same
  have ids : (origins.map Prod.fst).Nodup := by
    have keys : origins.map Prod.fst = servers.map ServerDefinition.id := by
      refine map_of_mapM ran fun value result isResult => ?_
      simp only [namedOrigin, bind_eq_ok] at isResult
      obtain ⟨_, _, same⟩ := isResult
      cases same
      rfl
    rw [keys]
    exact unique
  refine ⟨origin, isOrigin, ?_, isEntry⟩
  exact lookup_of_mem ids isEntry

/-- The URL of an operation, with any query, is split into the parts of the origin. -/
theorem urlsplit_resolved {url : Text} {origin : AllowedOrigin} {serverUrl path : Text}
    (originOf : OriginOf platform serverUrl origin) (resolved : origin.resolve path = .ok url)
    (parameters : List QueryParameter) :
    urlsplit platform.unicode (appendQuery url parameters) = splitResult platform.unicode origin.scheme origin.authority
      (withoutBreaks (origin.resolvedPath path ++ querySuffix parameters)) := by
  obtain ⟨-, rfl⟩ := AllowedOrigin.resolve_eq_ok originOf.rooted resolved
  obtain ⟨_, _, _, _, named⟩ := originOf.host
  have hostName := hostName_of_normalizedHost named.1 named.2
  rw [appendQuery_eq, List.append_assoc]
  refine urlsplit_render originOf.scheme ?_ ?_
  · intro character listed
    refine not_mem_authority ?_ ?_ (hostName.clean character ?_)
    · rintro rfl
      revert listed
      decide
    · have noDigit : ∀ character ∈ ("/?#\t\r\n" : Text), character.isDigit = false := Text.forall_of_all (by decide)
      exact noDigit character listed
    · revert listed
      simp
      tauto
  · intro character isHead
    have head : (origin.resolvedPath path ++ querySuffix parameters).head? = some '/' := by
      unfold AllowedOrigin.resolvedPath
      rcases originOf.rooted with nothing | isSlash
      · rw [nothing]
        rfl
      · cases isBase : origin.basePath with
        | nil => rfl
        | cons first rest =>
          rw [isBase] at isSlash
          exact isSlash
    rw [head, Option.some.injEq] at isHead
    rw [← isHead]
    rfl

theorem splitResult_plain {unicode : Unicode} {scheme netloc rest : Text} (ascii : netloc.isAscii = true)
    (noOpening : '[' ∉ netloc) (noClosing : ']' ∉ netloc) (noHash : '#' ∉ rest) :
    splitResult unicode scheme netloc rest =
      some ⟨scheme, netloc, (Text.partition '?' rest).1, (Text.partition '?' rest).2.getD [], []⟩ := by
  have allowed : checkNetloc unicode netloc = true := by
    unfold checkNetloc
    rw [ascii]
    rfl
  unfold splitResult
  simp [noOpening, noClosing, allowed, Text.partition_of_not_mem noHash]

theorem hash_not_mem_resolved {serverUrl path : Text} {origin : AllowedOrigin} (originOf : OriginOf platform serverUrl origin)
    (safe : AllowedOrigin.isSafeOperationPath path = true) (parameters : List QueryParameter) :
    '#' ∉ withoutBreaks (origin.resolvedPath path ++ querySuffix parameters) := by
  intro member
  have member := (mem_withoutBreaks.mp member).1
  simp only [AllowedOrigin.resolvedPath, List.mem_append, List.mem_cons] at member
  rcases member with (inBase | isSlash | inPath) | inQuery
  · exact originOf.clean '#' (by decide) inBase
  · cases isSlash
  · have inPath := (List.dropWhile_suffix _).subset inPath
    simp only [AllowedOrigin.isSafeOperationPath, Bool.and_eq_true, Bool.not_eq_true', List.contains_eq_mem,
      decide_eq_false_iff_not] at safe
    exact safe.1.1.2 inPath
  · exact hash_not_mem_querySuffix parameters inQuery

theorem renderable_iff {host name : Text} (named : Named platform.unicode host name) :
    Renderable host ↔ name ≠ [] ∧ ∀ character ∈ (":[]" : Text), character ∉ name := by
  obtain ⟨rfl, -⟩ := normalizedHost_eq_some named.1.ascii named.2
  have caseless : ∀ character ∈ (":[]" : Text), ¬ (97 ≤ character.toNat ∧ character.toNat ≤ 122) ∧
      character.toLower = character ∧ character ≠ '.' := Text.forall_of_all (by decide)
  have sameCharacters : ∀ character ∈ (":[]" : Text),
      (character ∈ (Text.stripEnd "." host).map Char.toLower ↔ character ∈ host) := by
    intro character listed
    obtain ⟨noCase, lowered, notDot⟩ := caseless character listed
    refine ⟨mem_host_of_mem_name noCase, fun member => ?_⟩
    rw [← lowered]
    refine List.mem_map_of_mem (Text.mem_stripEnd ?_ member)
    simpa using notDot
  unfold Renderable
  rw [ne_eq, ne_eq, List.map_eq_nil_iff]
  exact and_congr_right fun _ => forall₂_congr fun character listed => not_congr (sameCharacters character listed).symm

/-- With an authority that cannot be written the URL is refused or read as another origin. -/
theorem assert_refuses {url serverUrl path : Text} {origin : AllowedOrigin} (originOf : OriginOf platform serverUrl origin)
    (resolved : origin.resolve path = .ok url) (parameters : List QueryParameter) {read : AllowedOrigin}
    (accepted : policy.assertUrlIsAllowlisted platform (appendQuery url parameters) = .ok read)
    (sameHost : read.hostname = origin.hostname) :
    origin.hostname ≠ [] ∧ ∀ character ∈ (":[]" : Text), character ∉ origin.hostname := by
  obtain ⟨_, _, _, _, named⟩ := originOf.host
  have hostName := hostName_of_normalizedHost named.1 named.2
  simp only [UpstreamUrlPolicy.assertUrlIsAllowlisted, bind_eq_ok, obtain?_eq_ok, ensure_eq_ok] at accepted
  obtain ⟨parsed, parts, -, -, host, isHost, -, -, name, isName, port, -, -, -, same⟩ := accepted
  cases same
  rw [urlsplit_resolved originOf resolved] at parts
  have netloc := (splitResult_parts parts).2
  have noAt : '@' ∉ origin.authority := not_mem_authority (by decide) (by decide) (hostName.clean '@' (by decide))
  have paired : origin.authority.contains '[' = origin.authority.contains ']' := by
    unfold splitResult at parts
    split at parts
    · cases parts
    · rename_i paired
      exact not_not.mp paired
  have noOpening : '[' ∉ origin.hostname := by
    intro opening
    have closing : ']' ∈ origin.authority := by
      rw [← List.contains_iff_mem, ← paired, List.contains_iff_mem]
      exact hostname_subset_authority opening
    refine hostName.unpaired ⟨opening, ?_⟩
    by_contra absent
    exact not_mem_authority (by decide) (by decide) absent closing
  have noClosing : ']' ∉ origin.hostname := by
    intro closing
    have opening : '[' ∈ origin.authority := by
      rw [← List.contains_iff_mem, paired, List.contains_iff_mem]
      exact hostname_subset_authority closing
    exact not_mem_authority (by decide) (by decide) noOpening opening
  have noBracket : '[' ∉ origin.authority := not_mem_authority (by decide) (by decide) noOpening
  have info : parsed.hostinfo.1 = (Text.partition ':' origin.authority).1 := by
    unfold SplitResult.hostinfo
    simp only [netloc, Text.rpartition_of_not_mem noAt, Text.partition_of_not_mem noBracket]
  have infoSubset : parsed.hostinfo.1 ⊆ origin.authority := by
    rw [info]
    exact Text.partition_fst_subset ':' _
  have infoAscii := isAscii_of_subset infoSubset (isAscii_authority hostName.ascii)
  obtain ⟨-, hostAscii, fromInfo⟩ := SplitResult.hostname_eq_some infoAscii isHost
  have isOrigin : name = origin.hostname := sameHost
  have spelled := (normalizedHost_eq_some hostAscii isName).1
  have noColon : ':' ∉ origin.hostname := by
    intro colon
    rw [← isOrigin, spelled] at colon
    have inInfo := fromInfo ':' (mem_host_of_mem_name (by decide) colon) (by decide)
    rw [info] at inInfo
    exact Text.not_mem_partition_fst ':' _ inInfo
  refine ⟨?_, ?_⟩
  · intro nothing
    -- The authority is empty or a port, and no host can be read from it.
    have noHost : (Text.partition ':' origin.authority).1 = [] := by
      rcases partition_authority noColon with ⟨parted, -⟩ | parted <;> rw [parted] <;> exact nothing
    unfold SplitResult.hostname at isHost
    rw [info, noHost] at isHost
    cases isHost
  · intro character listed
    simp only [List.mem_cons, List.not_mem_nil, or_false, String.reduceToList] at listed
    rcases listed with rfl | rfl | rfl
    · exact noColon
    · exact noOpening
    · exact noClosing

/-- With a host that can be written the URL is read as the origin. -/
theorem assert_accepts {url serverUrl path : Text} {origin : AllowedOrigin} (originOf : OriginOf platform serverUrl origin)
    (listed : ∃ serverId, (serverId, origin) ∈ policy.origins) (resolved : origin.resolve path = .ok url)
    (parameters : List QueryParameter) (nonempty : origin.hostname ≠ [])
    (absent : ∀ character ∈ (":[]" : Text), character ∉ origin.hostname) :
    policy.assertUrlIsAllowlisted platform (appendQuery url parameters) =
      .ok ⟨origin.scheme, origin.hostname, origin.port, []⟩ := by
  obtain ⟨_, _, _, _, named⟩ := originOf.host
  have hostName := hostName_of_normalizedHost named.1 named.2
  have noColon := absent ':' (by decide)
  have noOpening : '[' ∉ origin.authority := not_mem_authority (by decide) (by decide) (absent '[' (by decide))
  have noClosing : ']' ∉ origin.authority := not_mem_authority (by decide) (by decide) (absent ']' (by decide))
  have noAt : '@' ∉ origin.authority := not_mem_authority (by decide) (by decide) (hostName.clean '@' (by decide))
  obtain ⟨safe, -⟩ := AllowedOrigin.resolve_eq_ok originOf.rooted resolved
  have parts := urlsplit_resolved originOf resolved parameters
  rw [splitResult_plain (isAscii_authority hostName.ascii) noOpening noClosing
    (hash_not_mem_resolved originOf safe parameters)] at parts
  generalize (Text.partition '?' (withoutBreaks (origin.resolvedPath path ++ querySuffix parameters))) = target at parts
  have info : SplitResult.hostinfo ⟨origin.scheme, origin.authority, target.1, target.2.getD [], []⟩ =
      ((Text.partition ':' origin.authority).1, (Text.partition ':' origin.authority).2.filter (· ≠ [])) := by
    unfold SplitResult.hostinfo
    simp only [Text.rpartition_of_not_mem noAt, Text.partition_of_not_mem noOpening]
  have isHost : SplitResult.hostname platform.unicode ⟨origin.scheme, origin.authority, target.1, target.2.getD [], []⟩ =
      some origin.hostname := by
    refine hostname_name hostName nonempty ?_
    rw [info]
    rcases partition_authority noColon with ⟨parted, -⟩ | parted <;> rw [parted]
  have isPort : effectivePort origin.scheme
      (SplitResult.port ⟨origin.scheme, origin.authority, target.1, target.2.getD [], []⟩) = some origin.port :=
    effectivePort_authority noColon originOf.port (by rw [info])
  have isHttp : SplitResult.isHttp ⟨origin.scheme, origin.authority, target.1, target.2.getD [], []⟩ = true :=
    SplitResult.isHttp_iff.mpr originOf.scheme
  have noUser : SplitResult.userinfo ⟨origin.scheme, origin.authority, target.1, target.2.getD [], []⟩ = none := by
    unfold SplitResult.userinfo
    rw [Text.rpartition_of_not_mem noAt]
    rfl
  have allowed : (policy.origins.any fun (_, allowed) => decide (origin.scheme = allowed.scheme) &&
      decide (origin.hostname = allowed.hostname) && decide (origin.port = allowed.port)) = true := by
    obtain ⟨serverId, member⟩ := listed
    exact List.any_eq_true.mpr ⟨_, member, by simp⟩
  simp only [UpstreamUrlPolicy.assertUrlIsAllowlisted, bind_eq_ok, obtain?_eq_ok, ensure_eq_ok]
  refine ⟨_, parts, (), isHttp, _, isHost, (), ?_, _, normalizedHost_name hostName, _, isPort, (), allowed, rfl⟩
  simp [SplitResult.username, SplitResult.password, noUser]

/-- The check before a connection accepts the URL that the policy made for a server, and reads the server's origin
from it, exactly when the host of the server can be written without brackets. -/
theorem policy_accepts_own_url_iff
    (parsedUrls : ∀ server ∈ servers, ∃ value, platform.urls.parse value = some server.url)
    (made : UpstreamUrlPolicy.make platform network servers = .ok policy) {server : ServerDefinition}
    (member : server ∈ servers) {path url : Text} (resolved : policy.resolve server.id path = .ok url)
    (parameters : List QueryParameter) :
    (∃ origin read, AllowedOrigin.fromUrl platform server.url = .ok origin ∧
        policy.assertUrlIsAllowlisted platform (appendQuery url parameters) = .ok read ∧
        read.scheme = origin.scheme ∧ read.hostname = origin.hostname ∧ read.port = origin.port) ↔
      ∀ parsed host, urlsplit platform.unicode server.url = some parsed →
        parsed.hostname platform.unicode = some host → Renderable host := by
  obtain ⟨origin, isOrigin, isLookup, isListed⟩ := exists_origin made member
  obtain ⟨value, isUrl⟩ := parsedUrls server member
  have originOf := originOf_fromUrl (platform.urls.ascii isUrl) isOrigin
  obtain ⟨parsed, host, parts, isHost, named⟩ := originOf.host
  have originResolved : origin.resolve path = .ok url := by
    simpa only [UpstreamUrlPolicy.resolve, isLookup, obtain?, bind, Except.bind] using resolved
  have onlyHost : (∀ parsed host, urlsplit platform.unicode server.url = some parsed →
      parsed.hostname platform.unicode = some host → Renderable host) ↔ Renderable host := by
    refine ⟨fun each => each parsed host parts isHost, fun renderable other otherHost otherParts isOther => ?_⟩
    rw [parts, Option.some.injEq] at otherParts
    subst otherParts
    rw [isHost, Option.some.injEq] at isOther
    rw [← isOther]
    exact renderable
  rw [onlyHost, renderable_iff named]
  constructor
  · rintro ⟨same, read, isSame, accepted, -, sameHost, -⟩
    rw [isOrigin, Except.ok.injEq] at isSame
    subst isSame
    exact assert_refuses originOf originResolved parameters accepted sameHost
  · rintro ⟨nonempty, absent⟩
    exact ⟨origin, _, isOrigin, assert_accepts originOf ⟨server.id, isListed⟩ originResolved parameters nonempty absent,
      rfl, rfl, rfl⟩

end Accepts

/-! ## Brackets are lost -/

def petServer (url : Text) : ServerDefinition := ⟨"main", url, none⟩

/-- The URL that the policy makes for an operation of the server, and whether the check takes it. -/
def acceptsOwnUrl (url path : Text) : Bool :=
  match UpstreamUrlPolicy.make plainPlatform closedNetwork [petServer url] with
  | .error _ => true
  | .ok policy =>
    match policy.resolve "main" path with
    | .error _ => true
    | .ok resolved => (policy.assertUrlIsAllowlisted plainPlatform (appendQuery resolved [])).isOk

/-- A server that is an IPv6 address: its URL is written without the brackets and refused. -/
theorem ipv6_server_refused :
    ¬ ∀ (platform : Platform) (network : RuntimeNetworkPolicy platform) (servers : List ServerDefinition)
      (policy : UpstreamUrlPolicy), (∀ server ∈ servers, ∃ value, platform.urls.parse value = some server.url) →
      UpstreamUrlPolicy.make platform network servers = .ok policy → ∀ server ∈ servers, ∀ path url,
      policy.resolve server.id path = .ok url → ∀ parameters, ∃ origin read,
        AllowedOrigin.fromUrl platform server.url = .ok origin ∧
        policy.assertUrlIsAllowlisted platform (appendQuery url parameters) = .ok read ∧
        read.scheme = origin.scheme ∧ read.hostname = origin.hostname ∧ read.port = origin.port := by
  intro always
  have refused : acceptsOwnUrl "https://[::1]/" "/pets" = false := by decide +kernel
  unfold acceptsOwnUrl at refused
  split at refused
  · cases refused
  · rename_i policy isMade
    split at refused
    · cases refused
    · rename_i url isResolved
      have parsed : ∀ server ∈ [petServer "https://[::1]/"], ∃ value, plainPlatform.urls.parse value = some server.url := by
        intro server member
        rw [List.mem_singleton.mp member]
        exact ⟨"https://[::1]/", by decide⟩
      obtain ⟨origin, read, -, accepted, -⟩ := always plainPlatform closedNetwork [petServer "https://[::1]/"] policy
        parsed isMade (petServer "https://[::1]/") List.mem_cons_self "/pets" url isResolved []
      rw [accepted] at refused
      cases refused

/-- A server with a name and a port: its URL is accepted with any query. -/
theorem named_server_accepted :
    ∃ policy url, UpstreamUrlPolicy.make plainPlatform closedNetwork [petServer "https://api.example.com:8443/v1"] =
        .ok policy ∧
      policy.resolve "main" "/pets" = .ok url ∧ ∀ parameters, ∃ origin read,
        AllowedOrigin.fromUrl plainPlatform "https://api.example.com:8443/v1" = .ok origin ∧
        policy.assertUrlIsAllowlisted plainPlatform (appendQuery url parameters) = .ok read ∧
        read.scheme = origin.scheme ∧ read.hostname = origin.hostname ∧ read.port = origin.port := by
  have made : (UpstreamUrlPolicy.make plainPlatform closedNetwork [petServer "https://api.example.com:8443/v1"]).isOk =
      true := by decide +kernel
  cases isMade : UpstreamUrlPolicy.make plainPlatform closedNetwork [petServer "https://api.example.com:8443/v1"] with
  | error message =>
    rw [isMade] at made
    cases made
  | ok policy =>
    obtain ⟨origin, isOrigin, isLookup, -⟩ := exists_origin isMade List.mem_cons_self
    have safe : AllowedOrigin.isSafeOperationPath "/pets" = true := by decide
    have resolved : policy.resolve "main" "/pets" =
        .ok (urlunsplit origin.scheme origin.authority (origin.resolvedPath "/pets")) := by
      have known : policy.origins.lookup ("main" : Text) = some origin := isLookup
      simp only [UpstreamUrlPolicy.resolve, known, obtain?, bind, Except.bind, AllowedOrigin.resolve, ensure, safe,
        if_true, pure, Except.pure]
      rfl
    refine ⟨policy, _, rfl, resolved, fun parameters => ?_⟩
    have member : petServer "https://api.example.com:8443/v1" ∈ [petServer "https://api.example.com:8443/v1"] :=
      List.mem_cons_self
    refine (policy_accepts_own_url_iff ?_ isMade member resolved parameters).mpr ?_
    · intro server member
      rw [List.mem_singleton.mp member]
      exact ⟨"https://api.example.com:8443/v1", by decide⟩
    · intro parsed host parts isHost
      have expected : urlsplit plainPlatform.unicode "https://api.example.com:8443/v1" =
          some ⟨"https", "api.example.com:8443", "/v1", [], []⟩ := by decide
      have expectedHost : SplitResult.hostname plainPlatform.unicode ⟨"https", "api.example.com:8443", "/v1", [], []⟩ =
          some ("api.example.com" : Text) := by decide
      rw [show (petServer "https://api.example.com:8443/v1").url = "https://api.example.com:8443/v1" from rfl, expected,
        Option.some.injEq] at parts
      subst parts
      rw [expectedHost, Option.some.injEq] at isHost
      subst isHost
      exact ⟨by decide, Text.forall_of_all (by decide)⟩

end Mcplica.Runtime
