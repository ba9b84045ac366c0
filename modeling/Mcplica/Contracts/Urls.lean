import Mcplica.Library.Text

/-! # URLs

`urllib.parse.urlsplit` and the attributes of its result, and pydantic's `AnyHttpUrl`. -/

namespace Mcplica.Contracts

open Mcplica.Library

structure SplitResult where
  scheme : Text
  netloc : Text
  path : Text
  query : Text
  fragment : Text
  deriving Repr, DecidableEq

namespace SplitResult

/-- The user name and the password, when the authority has an `@`. -/
def userinfo (parsed : SplitResult) : Option (Text × Option Text) :=
  (parsed.netloc.rpartition '@').1.map (Text.partition ':')

def username (parsed : SplitResult) : Option Text :=
  parsed.userinfo.map Prod.fst

def password (parsed : SplitResult) : Option Text :=
  parsed.userinfo.bind Prod.snd

def hostinfo (parsed : SplitResult) : Text × Option Text :=
  let hostinfo := (parsed.netloc.rpartition '@').2
  let (hostname, port) :=
    match Text.partition '[' hostinfo with
    | (_, some bracketed) =>
      let (hostname, port) := Text.partition ']' bracketed
      (hostname, (Text.partition ':' (port.getD [])).2)
    | (_, none) => Text.partition ':' hostinfo
  (hostname, port.filter (· ≠ []))

/-- The host in lower case, up to its zone. -/
def hostname (unicode : Unicode) (parsed : SplitResult) : Option Text :=
  let hostname := parsed.hostinfo.1
  if hostname = [] then none
  else
    match Text.partition '%' hostname with
    | (address, none) => some (address.lower unicode)
    | (address, some zone) => some (address.lower unicode ++ '%' :: zone)

inductive Port where
  | absent
  | number (value : Nat)
  | invalid
  deriving Repr, DecidableEq

def port (parsed : SplitResult) : Port :=
  match parsed.hostinfo.2 with
  | none => .absent
  | some text =>
    if text.isDigits && text.digitsValue ≤ 65535 then .number text.digitsValue
    else .invalid

end SplitResult

/-! ## Splitting -/

def isSchemeCharacter (character : Char) : Bool :=
  character.isAlphanum || character == '+' || character == '-' || character == '.'

def splitScheme (url : Text) : Text × Text :=
  match Text.partition ':' url with
  | (scheme, some rest) =>
    if scheme.head?.any Char.isAlpha && scheme.all isSchemeCharacter then (scheme.map Char.toLower, rest)
    else ([], url)
  | (_, none) => ([], url)

def isAuthorityEnd (character : Char) : Bool :=
  character == '/' || character == '?' || character == '#'

def splitNetloc : Text → Text × Text
  | '/' :: '/' :: rest => rest.span fun character => !isAuthorityEnd character
  | url => ([], url)

/-! ### Bracketed hosts -/

def isIpv4 (text : Text) : Bool :=
  let octets := text.splitOn '.'
  octets.length = 4 && octets.all fun (octet : Text) =>
    octet.isDigits && octet.length ≤ 3 && octet.digitsValue ≤ 255 && (octet.length = 1 || octet.head? ≠ some '0')

def isHextet (text : Text) : Bool :=
  0 < text.length && text.length ≤ 4 && text.all fun character => (Text.hexValue character).isSome

/-- The groups of an address: a dotted quad stands for the last two. -/
def ipv6Groups (text : Text) : Option (List Text) :=
  let groups := text.splitOn ':'
  match groups.getLast? with
  | some last =>
    if last.contains '.' then
      if isIpv4 last then some (groups.dropLast ++ [("0" : Text), ("0" : Text)]) else none
    else
      some groups
  | none => none

def isIpv6 (text : Text) : Bool :=
  match Text.partition '%' text with
  | (address, zone) =>
    !(zone.any fun zone => zone = [] || zone.contains '%') &&
    match ipv6Groups address with
    | none => false
    | some groups =>
      let inner := groups.tail.dropLast
      if 3 ≤ groups.length && groups.length ≤ 9 then
        match inner.count [] with
        | 0 => groups.length = 8 && groups.all isHextet
        | 1 =>
          -- One `::`, which may stand at either end and replaces at least one group.
          let written := groups.filter (· ≠ [])
          written.all isHextet && written.length ≤ 7 &&
            (groups.head? ≠ some [] || inner.head? = some []) &&
            (groups.getLast? ≠ some [] || inner.getLast? = some [])
        | _ => false
      else
        false

def isIpvFuture (text : Text) : Bool :=
  match text with
  | 'v' :: rest =>
    match Text.partition '.' rest with
    | (version, some address) =>
      version ≠ [] && (version.all fun character => (Text.hexValue character).isSome) && address ≠ [] &&
        !address.contains '\n'
    | (_, none) => false
  | _ => false

def checkBracketedHost (hostname : Text) : Bool :=
  if hostname.startsWith "v" then isIpvFuture hostname else isIpv6 hostname

def checkBracketedNetloc (netloc : Text) : Bool :=
  let hostnameAndPort := (netloc.rpartition '@').2
  match Text.partition '[' hostnameAndPort with
  | (before, some bracketed) =>
    let (hostname, port) := Text.partition ']' bracketed
    before = [] && (port.all fun (port : Text) => port = [] || port.startsWith ":") && checkBracketedHost hostname
  | (_, none) => checkBracketedHost (Text.partition ':' hostnameAndPort).1

/-- `_checknetloc`: no character may become a delimiter under compatibility normalization. -/
def checkNetloc (unicode : Unicode) (netloc : Text) : Bool :=
  netloc.isAscii ||
    let kept := netloc.filter fun character => !("@:#?" : Text).contains character
    unicode.nfkc kept = kept || !(unicode.nfkc kept).includesAny "/?#@:"

/-! ### The whole -/

/-- `urlsplit`; `none` where it raises `ValueError`. -/
def urlsplit (unicode : Unicode) (value : Text) : Option SplitResult :=
  let url := (value.dropWhile fun character => character.toNat ≤ 32).filter fun character =>
    character ≠ '\t' && character ≠ '\r' && character ≠ '\n'
  let (scheme, url) := splitScheme url
  let (netloc, url) := splitNetloc url
  if netloc.contains '[' ≠ netloc.contains ']' then none
  else if netloc.contains '[' && !checkBracketedNetloc netloc then none
  else if !checkNetloc unicode netloc then none
  else
    let (url, fragment) := Text.partition '#' url
    let (path, query) := Text.partition '?' url
    some ⟨scheme, netloc, path, query.getD [], fragment.getD []⟩

/-! ## Hosts -/

/-- `hostname.rstrip(".").encode("idna").decode("ascii").lower()` -/
def normalizedHost (unicode : Unicode) (hostname : Text) : Option Text :=
  ((Text.stripEnd "." hostname).idna unicode).map (Text.lower unicode)

/-! ## `AnyHttpUrl` -/

/-- Parsing by pydantic: the text of the normalized URL, if the text is an absolute HTTP URL. International
hosts come out as punycode, and the text may be parsed again without its trailing slashes. -/
structure AnyHttpUrl where
  parse : Text → Option Text
  reparses : ∀ {value url : Text}, parse value = some url → (parse (Text.stripEnd "/" url)).isSome = true
  ascii : ∀ {value url : Text}, parse value = some url → url.isAscii = true
  scheme : ∀ {value url : Text}, parse value = some url →
    (url.startsWith "http://" || url.startsWith "https://") = true

/-- The `normalize_url` validators. -/
def AnyHttpUrl.normalize (urls : AnyHttpUrl) (url : Text) : Option Text :=
  urls.parse (Text.stripEnd "/" url)

/-! ### Plain URLs -/

/-- A reader of ASCII `https` URLs that have a host and nothing to normalize but an empty path. -/
def plainHttpUrl (value : Text) : Option Text :=
  match value with
  | 'h' :: 't' :: 't' :: 'p' :: 's' :: ':' :: '/' :: '/' :: host :: rest =>
    if host = '/' || !value.isAscii then none
    else if rest.contains '/' then some value
    else some (value ++ ['/'])
  | _ => none

theorem plainHttpUrl_spec {value url : Text} (parsed : plainHttpUrl value = some url) :
    ∃ host rest, host ≠ '/' ∧ url = ("https://" : Text) ++ host :: rest ∧ url.isAscii = true := by
  unfold plainHttpUrl at parsed
  split at parsed
  · rename_i host rest
    split at parsed
    · cases parsed
    · rename_i allowed
      simp only [Bool.or_eq_true, decide_eq_true_eq, Bool.not_eq_true', not_or, Bool.not_eq_false] at allowed
      split at parsed
      · cases parsed
        exact ⟨host, rest, allowed.1, rfl, allowed.2⟩
      · cases parsed
        refine ⟨host, rest ++ ['/'], allowed.1, rfl, ?_⟩
        rw [Text.isAscii_append, allowed.2]
        rfl
  · cases parsed

def plainUrls : AnyHttpUrl where
  parse := plainHttpUrl
  reparses := by
    intro value url parsed
    obtain ⟨host, rest, isHost, rfl, ascii⟩ := plainHttpUrl_spec parsed
    have stillAscii := Text.isAscii_stripEnd "/" ascii
    have kept : ("/" : Text).contains host = false := by simpa using isHost
    rw [Text.stripEnd_append_cons kept] at stillAscii ⊢
    show (plainHttpUrl ('h' :: 't' :: 't' :: 'p' :: 's' :: ':' :: '/' :: '/' :: host :: _)).isSome = true
    have allowed : ¬ (host = '/' || !Text.isAscii ('h' :: 't' :: 't' :: 'p' :: 's' :: ':' :: '/' :: '/' :: host ::
        Text.stripEnd "/" rest)) = true := by
      simp only [Bool.or_eq_true, decide_eq_true_eq, Bool.not_eq_true', not_or, Bool.not_eq_false]
      exact ⟨isHost, stillAscii⟩
    simp only [plainHttpUrl, if_neg allowed]
    split <;> rfl
  ascii parsed := by
    obtain ⟨host, rest, -, -, ascii⟩ := plainHttpUrl_spec parsed
    exact ascii
  scheme parsed := by
    obtain ⟨host, rest, -, rfl, -⟩ := plainHttpUrl_spec parsed
    rfl

end Mcplica.Contracts
