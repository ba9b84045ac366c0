import Mcplica.Core.NetworkPolicy
import Mcplica.Core.RequestLimits

/-! # Bounded fetches

`HttpClient.fetch_bounded`: the loop over redirects around the loop over attempts, against a server and a resolver that
answer every attempt as they like. A send opens one connection to the authority of the URL of its request. -/

namespace Mcplica.Clients

open Mcplica.Library Mcplica.Contracts Mcplica.Core

def redirectStatuses : List Nat := [301, 302, 303, 307, 308]

def sensitiveFetchHeaders : List Text :=
  ["authorization", "connection", "cookie", "host", "proxy-authorization"]

inductive ClientErrorKind where
  | connection
  | timeout
  | authentication
  | rateLimit
  | response
  | unavailable
  | payloadTooLarge
  deriving Repr, DecidableEq

inductive FetchFailure where
  | policy (failure : PolicyFailure)
  /-- `statusCode` is the one in the details, where the raising statement gives one. -/
  | client (kind : ClientErrorKind) (message : Text) (statusCode : Option Nat := none)
  /-- A `ValueError`, with its message if the client raises it. -/
  | value (message : Option Text)
  /-- An exception of the HTTP library that is neither a timeout nor an error of the transport. -/
  | library
  deriving Repr, DecidableEq

structure FetchedResponse where
  statusCode : Nat
  url : Text
  headers : List (Text × Text)
  body : Bytes
  deriving Repr, DecidableEq

/-- What is built for `send`; the method is `GET`. -/
structure FetchRequest where
  url : Text
  headers : List (Text × Text)
  sniHostname : Text
  deriving Repr, DecidableEq

/-! ## The answers -/

inductive Ending where
  | complete
  | timeout
  | transport
  | raised
  | deadline
  deriving Repr, DecidableEq

/-- A response whose body comes in chunks; the names of its headers are in lower case. -/
structure Reply where
  statusCode : Nat
  headers : List (Text × Text) := []
  chunks : List Bytes := []
  ending : Ending := .complete
  deriving Repr, DecidableEq

inductive Sending where
  | reply (reply : Reply)
  | failed (ending : Ending)
  deriving Repr, DecidableEq

/-- What the resolver and the server do in one attempt. -/
structure Answer where
  getaddrinfo : Text → Nat → Except LookupFailure (List Text)
  sending : Sending

/-- The deadline may also pass while a host is resolved or between two attempts. -/
inductive Action where
  | attempt (answer : Answer)
  | deadline

/-! ## One attempt -/

structure FetchOptions where
  maxBytes : Int
  maxRedirects : Int
  maxAttempts : Int
  headers : List (Text × Text) := []
  deriving Repr, DecidableEq

section Client

variable (policy : UrlPolicy) (unicode : Unicode) (classify : IpAddress → AddressClass) (unicodeInt : Text → Option Int)
  (options : FetchOptions)

/-- The address as the host of an authority, in brackets if it holds a colon. -/
def bracketed (address : Text) : Text :=
  if address.contains ':' then '[' :: address ++ [']'] else address

/-- `_pinned_destination`; `none` where it raises `ValueError`. -/
def pinnedDestination (url address : Text) : Option (Text × Text) :=
  match urlsplit unicode url with
  | none => none
  | some parsed =>
    let pinned (addressAuthority : Text) : Text × Text :=
      (urlunsplit ⟨parsed.scheme, addressAuthority, parsed.path, parsed.query, []⟩, parsed.netloc)
    match parsed.port with
    | .absent => some (pinned (bracketed address))
    | .number port => some (pinned (bracketed address ++ ':' :: Text.ofNat port))
    | .invalid => none

def safeHeaders : List (Text × Text) :=
  options.headers.filter fun (name, _) => !sensitiveFetchHeaders.contains (name.casefold unicode)

/-- The URL that is validated, resolved and pinned, and the request that is built for it. -/
def prepare (answer : Answer) (currentUrl : Text) : Except FetchFailure (ValidatedUrl × FetchRequest) := do
  let validated ← (policy.validate unicode classify (resolveAddresses answer.getaddrinfo) currentUrl).mapError .policy
  let (pinnedUrl, host) ← obtain?
    (pinnedDestination unicode validated.url (validated.resolvedAddresses.head validated.resolved)) (.value none)
  return (validated, {
    url := pinnedUrl
    headers := safeHeaders unicode options ++ [(("Host" : Text), host), (("Connection" : Text), ("close" : Text))]
    sniHostname := validated.hostname })

/-- `int` of a header; what it makes of characters beyond ASCII is a table. -/
def declaredSize (value : Text) : Int :=
  ((if value.isAscii then asciiInt value else unicodeInt value).getD 0)

inductive AttemptOutcome where
  | redirect (url : Text)
  | retry (error : FetchFailure)
  | done (result : Except FetchFailure FetchedResponse)

def failedOutcome : Ending → AttemptOutcome
  | .timeout => .retry (.client .timeout "Remote source fetch timed out")
  | .transport => .retry (.client .connection "Remote source fetch failed to connect")
  | .deadline => .done (.error (.client .timeout "Remote source fetch exceeded its total deadline"))
  | .complete | .raised => .done (.error .library)

/-- The loop over the chunks of the body. -/
def addChunk (body chunk : Bytes) : Except FetchFailure Bytes := do
  ensure ((body ++ chunk).length ≤ options.maxBytes)
    (.client .payloadTooLarge "Remote source exceeds configured byte limit")
  return body ++ chunk

def readBody (validated : ValidatedUrl) (reply : Reply) : AttemptOutcome :=
  if (reply.headers.lookup ("content-length" : Text)).any fun value => options.maxBytes < declaredSize unicodeInt value then
    .done (.error (.client .payloadTooLarge "Remote source exceeds configured byte limit"))
  else
    match reply.chunks.foldlM (addChunk options) [], reply.ending with
    | .error failure, _ => .done (.error failure)
    | .ok body, .complete => .done (.ok ⟨reply.statusCode, validated.url, reply.headers, body⟩)
    | .ok _, ending => failedOutcome ending

def followRedirect (redirectCount : Nat) (validated : ValidatedUrl) (reply : Reply) : AttemptOutcome :=
  if options.maxRedirects ≤ redirectCount then
    .done (.error (.policy (.securityPolicy "Remote source exceeded redirect limit")))
  else
    match reply.headers.lookup ("location" : Text) with
    | none | some [] => .done (.error (.client .response "Remote source redirect omitted Location"))
    | some location =>
      match urljoin unicode validated.url location with
      | some url => .redirect url
      | none => .done (.error (.value none))

/-- The cases of the status code. -/
def handleReply (redirectCount : Nat) (validated : ValidatedUrl) (reply : Reply) : AttemptOutcome :=
  if redirectStatuses.contains reply.statusCode then followRedirect unicode options redirectCount validated reply
  else if reply.statusCode = 401 || reply.statusCode = 403 then
    .done (.error (.client .authentication "Remote source rejected authentication"))
  else if reply.statusCode = 429 then
    .retry (.client .rateLimit "Remote source rate limit persisted after retries")
  else if 500 ≤ reply.statusCode then
    .retry (.client .unavailable "Remote source remained unavailable after retries" (some reply.statusCode))
  else if reply.statusCode = 304 then .done (.ok ⟨304, validated.url, reply.headers, []⟩)
  else if 400 ≤ reply.statusCode then
    .done (.error (.client .response (("Remote source returned HTTP " : Text) ++ Text.ofNat reply.statusCode)
      (some reply.statusCode)))
  else readBody unicodeInt options validated reply

def handleSending (redirectCount : Nat) (validated : ValidatedUrl) : Sending → AttemptOutcome
  | .reply reply => handleReply unicode unicodeInt options redirectCount validated reply
  | .failed ending => failedOutcome ending

/-! ## The loops -/

structure Fetch where
  currentUrl : Text
  redirectCount : Nat := 0
  attempt : Nat := 1
  deriving Repr, DecidableEq

inductive Progress where
  | fetching (fetch : Fetch)
  | done (result : Except FetchFailure FetchedResponse)

/-- `fetch_bounded` up to the first attempt. -/
def start (url : Text) : Progress :=
  if options.maxBytes ≤ 0 then .done (.error (.value (some "Remote source byte limit must be positive")))
  else if options.maxRedirects < 0 then
    .done (.error (.value (some "Remote source redirect limit cannot be negative")))
  else if 1 ≤ options.maxAttempts ∧ options.maxAttempts ≤ 8 then .fetching { currentUrl := url }
  else .done (.error (.value (some "Remote source attempts must be between 1 and 8")))

/-- After an attempt: the loop over the attempts ends with a redirect, or with the last of them. -/
def Fetch.next (fetch : Fetch) : AttemptOutcome → Progress
  | .redirect url => .fetching { currentUrl := url, redirectCount := fetch.redirectCount + 1 }
  | .retry error =>
    if (fetch.attempt : Int) = options.maxAttempts then .done (.error error)
    else .fetching { fetch with attempt := fetch.attempt + 1 }
  | .done result => .done result

def step : Progress → Action → Progress
  | .done result, _ => .done result
  | .fetching _, .deadline => .done (.error (.client .timeout "Remote source fetch exceeded its total deadline"))
  | .fetching fetch, .attempt answer =>
    match prepare policy unicode classify options answer fetch.currentUrl with
    | .error failure => .done (.error failure)
    | .ok (validated, _) =>
      fetch.next options (handleSending unicode unicodeInt options fetch.redirectCount validated answer.sending)

/-- The request that is sent in a step. -/
def sent : Progress → Action → List FetchRequest
  | .fetching fetch, .attempt answer =>
    match prepare policy unicode classify options answer fetch.currentUrl with
    | .error _ => []
    | .ok (_, request) => [request]
  | _, _ => []

end Client

/-! ## Connections -/

/-- What stands between the slashes and the path of a URL. -/
def authority (url : Text) : Text :=
  (splitNetloc (splitScheme url).2).1

/-- The host that a client connects to. -/
def authorityHost (authority : Text) : Text :=
  match (authority.rpartition '@').2 with
  | '[' :: bracketed => (Text.rpartition ']' bracketed).1.getD []
  | hostinfo => (Text.partition ':' hostinfo).1

theorem splitScheme_http {scheme : Text} (isHttp : IsHttpScheme scheme) (rest : Text) :
    splitScheme (scheme ++ ':' :: rest) = (scheme, rest) := by
  rcases isHttp with rfl | rfl
  · unfold splitScheme
    rw [Text.partition_append_cons (by decide)]
    exact if_pos (by decide)
  · unfold splitScheme
    rw [Text.partition_append_cons (by decide)]
    exact if_pos (by decide)

/-- The authority ends where the path or the query starts. -/
theorem splitNetloc_append {netloc rest : Text} (clean : ∀ character ∈ netloc, isAuthorityEnd character = false)
    (ends : ∀ character, rest.head? = some character → isAuthorityEnd character = true) :
    splitNetloc ('/' :: '/' :: (netloc ++ rest)) = (netloc, rest) := by
  have inside : ∀ character ∈ netloc, (!isAuthorityEnd character) = true :=
    fun character member => by rw [clean character member]; rfl
  show (netloc ++ rest).span (fun character => !isAuthorityEnd character) = _
  rw [List.span_eq_takeWhile_dropWhile, List.takeWhile_append_of_pos inside, List.dropWhile_append_of_pos inside]
  cases rest with
  | nil => simp
  | cons first rest =>
    have stops := ends first rfl
    simp [stops]

/-- Composing a URL of a scheme puts the scheme first, and then the authority up to the path or the query. -/
theorem exists_urlunsplit {parts : SplitResult} (hasScheme : parts.scheme ≠ []) :
    ∃ rest, urlunsplit parts = parts.scheme ++ ':' :: rest := by
  unfold urlunsplit
  dsimp only
  rw [if_pos hasScheme]
  split
  · split
    · exact ⟨_, by rw [List.append_assoc, List.append_assoc, List.cons_append, List.cons_append]⟩
    · exact ⟨_, by rw [List.append_assoc, List.cons_append]⟩
  · split
    · exact ⟨_, by rw [List.append_assoc, List.cons_append]⟩
    · exact ⟨_, rfl⟩

theorem authority_urlunsplit {scheme netloc path query : Text} (isHttp : IsHttpScheme scheme) (nonempty : netloc ≠ [])
    (clean : ∀ character ∈ netloc, isAuthorityEnd character = false) :
    authority (urlunsplit ⟨scheme, netloc, path, query, []⟩) = netloc := by
  have hasScheme : scheme ≠ [] := by rcases isHttp with rfl | rfl <;> decide
  have ofParts {rest : Text} (ends : ∀ character, rest.head? = some character → isAuthorityEnd character = true) :
      authority (scheme ++ ':' :: (("//" : Text) ++ netloc ++ rest)) = netloc := by
    unfold authority
    rw [splitScheme_http isHttp]
    exact congrArg Prod.fst (splitNetloc_append clean ends)
  have startsWell (tail : Text) (ends : ∀ character, tail.head? = some character → isAuthorityEnd character = true) :
      ∀ character, ((if rooted path then path else '/' :: path) ++ tail).head? = some character →
        isAuthorityEnd character = true := by
    intro character isFirst
    split at isFirst
    · rename_i isRooted
      cases path with
      | nil => exact ends character isFirst
      | cons first rest =>
        unfold rooted at isRooted
        rw [Bool.or_eq_true, decide_eq_true_eq] at isRooted
        obtain ⟨others, isSlash⟩ := exists_of_startsWith (isRooted.resolve_left (List.cons_ne_nil _ _))
        cases isFirst
        cases isSlash
        rfl
    · cases isFirst
      rfl
  unfold urlunsplit
  dsimp only
  rw [if_pos nonempty, if_pos hasScheme, if_neg (not_not_intro rfl)]
  split
  · rw [List.append_assoc, List.cons_append, List.append_assoc _ _ ('?' :: query)]
    apply ofParts
    apply startsWell
    intro character isFirst
    cases isFirst
    rfl
  · apply ofParts
    have ends := startsWell [] (by rintro _ ⟨⟩)
    rwa [List.append_nil] at ends

/-! ## The pinned destination -/

/-- What stands after the host of an authority. -/
inductive PortText : Text → Prop where
  | absent : PortText []
  | number (port : Nat) : PortText (':' :: Text.ofNat port)

theorem PortText.characters {text : Text} (isPort : PortText text) :
    ∀ character ∈ text, character = ':' ∨ character.isDigit = true := by
  intro character member
  cases isPort with
  | absent => cases member
  | number port =>
    rcases List.mem_cons.mp member with rfl | isDigit
    · exact .inl rfl
    · have digits := Text.isDigits_ofNat port
      simp only [Text.isDigits, Bool.and_eq_true, List.all_eq_true] at digits
      exact .inr (digits.2 character isDigit)

theorem PortText.not_mem {text : Text} (isPort : PortText text) {character : Char} (noColon : character ≠ ':')
    (noDigit : character.isDigit = false) : character ∉ text := by
  intro member
  rcases isPort.characters character member with isColon | isDigit
  · exact noColon isColon
  · rw [noDigit] at isDigit
    cases isDigit

theorem not_mem_bracketed {address : Text} {character : Char} (absent : character ∉ address)
    (noBracket : character ∉ ("[]" : Text)) : character ∉ bracketed address := by
  intro member
  unfold bracketed at member
  split at member
  · rcases List.mem_append.mp member with opened | isClosing
    · rcases List.mem_cons.mp opened with rfl | inside
      · exact noBracket (by decide)
      · exact absent inside
    · cases List.mem_singleton.mp isClosing
      exact noBracket (by decide)
  · exact absent member

theorem not_mem_pinned {address portText : Text} (plain : PlainAddress address) (isPort : PortText portText) :
    ∀ character ∈ ("/?#@" : Text), character ∉ bracketed address ++ portText := by
  intro character listed member
  have neither : ∀ delimiter ∈ ("/?#@" : Text), delimiter ∉ ("[]" : Text) ∧ delimiter ≠ ':' ∧ delimiter.isDigit = false :=
    Text.forall_of_all (by decide)
  obtain ⟨noBracket, noColon, noDigit⟩ := neither character listed
  rcases List.mem_append.mp member with inHost | inPort
  · exact not_mem_bracketed (plain.clean character listed) noBracket inHost
  · exact isPort.not_mem noColon noDigit inPort

/-- A client that is sent to the authority of an address connects to the address. -/
theorem authorityHost_pinned {address portText : Text} (plain : PlainAddress address) (isPort : PortText portText) :
    authorityHost (bracketed address ++ portText) = address := by
  unfold authorityHost
  rw [Text.rpartition_of_not_mem (not_mem_pinned plain isPort '@' (by decide))]
  unfold bracketed
  split
  · rename_i opened rest starts
    split at starts
    · have isRest : rest = address ++ ']' :: portText := by
        rw [List.append_assoc, List.cons_append] at starts
        exact (List.cons.inj starts).2.symm
      rw [isRest, Text.rpartition_append_cons (isPort.not_mem (by decide) (by decide))]
      rfl
    · cases address with
      | nil => exact absurd rfl plain.nonempty
      | cons first others => exact absurd (congrArg some (List.cons.inj starts).1) plain.unbracketed
  · rename_i other starts
    split
    · rename_i hasColon
      rw [if_pos hasColon] at starts
      exact absurd rfl (starts _)
    · rename_i noColon
      have absent : ':' ∉ address := by simpa using noColon
      cases isPort with
      | absent => rw [List.append_nil, Text.partition_of_not_mem absent]
      | number port => rw [Text.partition_append_cons absent]

section

variable {policy : UrlPolicy} {unicode : Unicode} {classify : IpAddress → AddressClass}

theorem pinnedDestination_eq_some {url address pinnedUrl host : Text}
    (isPinned : pinnedDestination unicode url address = some (pinnedUrl, host)) :
    ∃ parsed portText, urlsplit unicode url = some parsed ∧ parsed.netloc = host ∧ PortText portText ∧
      pinnedUrl = urlunsplit ⟨parsed.scheme, bracketed address ++ portText, parsed.path, parsed.query, []⟩ := by
  unfold pinnedDestination at isPinned
  split at isPinned
  · cases isPinned
  rename_i parsed isParsed
  dsimp only at isPinned
  split at isPinned
  · cases isPinned
    exact ⟨parsed, [], isParsed, rfl, .absent, by rw [List.append_nil]⟩
  · rename_i port isPort
    cases isPinned
    exact ⟨parsed, _, isParsed, rfl, .number port, rfl⟩
  · cases isPinned

theorem scheme_of_urlsplit {scheme netloc path query : Text} {parsed : SplitResult} (isHttp : IsHttpScheme scheme)
    (isParsed : urlsplit unicode (urlunsplit ⟨scheme, netloc, path, query, []⟩) = some parsed) :
    parsed.scheme = scheme := by
  have hasScheme : scheme ≠ [] := by rcases isHttp with rfl | rfl <;> decide
  obtain ⟨rest, composed⟩ := @exists_urlunsplit ⟨scheme, netloc, path, query, []⟩ hasScheme
  have stripped : strippedUrl (scheme ++ ':' :: rest) = scheme ++ ':' :: withoutBreaks rest := by
    rcases isHttp with rfl | rfl <;> rfl
  rw [composed] at isParsed
  rw [(urlsplit_parts isParsed).1, stripped, splitScheme_http isHttp]

/-- A request for an accepted URL goes to the address it is pinned to. -/
theorem authorityHost_pinnedDestination {resolver : Text → Nat → Except PolicyFailure (List Text)}
    {url address pinnedUrl host : Text} {validated : ValidatedUrl}
    (accepts : policy.Accepts unicode classify resolver url validated) (plain : PlainAddress address)
    (isPinned : pinnedDestination unicode validated.url address = some (pinnedUrl, host)) :
    authorityHost (authority pinnedUrl) = address := by
  obtain ⟨parsed, portText, isParsed, -, isPort, rfl⟩ := pinnedDestination_eq_some isPinned
  obtain ⟨_, _, scheme, _, _, -, -, -, isHttp, isUrl⟩ := UrlPolicy.validateSyntax_parts accepts.syntactic
  rw [isUrl] at isParsed
  rw [scheme_of_urlsplit isHttp isParsed, authority_urlunsplit isHttp, authorityHost_pinned plain isPort]
  · intro isEmpty
    obtain ⟨noHost, -⟩ := List.append_eq_nil_iff.mp isEmpty
    unfold bracketed at noHost
    split at noHost
    · cases noHost
    · exact plain.nonempty noHost
  · intro character member
    by_contra isEnd
    have isDelimiter : character ∈ ("/?#@" : Text) := by
      simp only [isAuthorityEnd, Bool.not_eq_false, Bool.or_eq_true, beq_iff_eq] at isEnd
      rcases isEnd with (rfl | rfl) | rfl <;> decide
    exact not_mem_pinned plain isPort character isDelimiter member

end

/-! ## Requests -/

variable (policy : UrlPolicy) (unicode : Unicode) (classify : IpAddress → AddressClass) (unicodeInt : Text → Option Int)
  (options : FetchOptions)

/-- A request for a URL that the policy has just accepted: it connects to an address that has been accepted with it, its
host is the authority of the URL, and nothing that the caller gives stands in for a header the client sets or keeps back. -/
structure Confined (answer : Answer) (hopUrl : Text) (request : FetchRequest) (validated : ValidatedUrl)
    (parsed : SplitResult) : Prop where
  accepted : policy.validate unicode classify (resolveAddresses answer.getaddrinfo) hopUrl = .ok validated
  connects : authorityHost (authority request.url) ∈ validated.resolvedAddresses
  allowed : policy.addressAllowed classify validated.hostname (authorityHost (authority request.url)) = .ok true
  hop : urlsplit unicode validated.url = some parsed
  host : (("Host" : Text), parsed.netloc) ∈ request.headers
  headers : ∀ header ∈ request.headers, header.1.map Char.toLower ∈ sensitiveFetchHeaders →
    header = (("Host" : Text), parsed.netloc) ∨ header = (("Connection" : Text), ("close" : Text))

/-- The same for a request that is sent in a step. -/
def SentConfined : Progress → Action → FetchRequest → Prop
  | .fetching fetch, .attempt answer, request =>
    ∃ validated parsed, Confined policy unicode classify answer fetch.currentUrl request validated parsed
  | _, _, _ => False

variable {policy unicode classify unicodeInt options}

theorem isAscii_of_map_toLower {text : Text} (ascii : Text.isAscii (text.map Char.toLower) = true) :
    text.isAscii = true := by
  simp only [Text.isAscii, List.all_map, List.all_eq_true, Function.comp_apply, decide_eq_true_eq] at ascii ⊢
  intro character member
  have lowered := ascii character member
  rw [Text.toNat_toLower] at lowered
  split at lowered <;> omega

/-- No letter case gets a header of the caller past the filter. -/
theorem not_sensitive_of_safe {header : Text × Text} (isSafe : header ∈ safeHeaders unicode options) :
    header.1.map Char.toLower ∉ sensitiveFetchHeaders := by
  intro isSensitive
  have ascii : ∀ name ∈ sensitiveFetchHeaders, Text.isAscii name = true := by decide
  have kept := (List.mem_filter.mp isSafe).2
  rw [Bool.not_eq_true', Text.casefold_of_isAscii (isAscii_of_map_toLower (ascii _ isSensitive))] at kept
  exact absurd (List.contains_iff_mem.mpr isSensitive) (by rw [kept]; decide)

theorem confined_of_prepare {answer : Answer} {hopUrl : Text} {validated : ValidatedUrl} {request : FetchRequest}
    (keepsOut : KeepsDelimitersOut unicode) (plain : PlainResults answer.getaddrinfo)
    (isPrepared : prepare policy unicode classify options answer hopUrl = .ok (validated, request)) :
    ∃ parsed, Confined policy unicode classify answer hopUrl request validated parsed := by
  unfold prepare at isPrepared
  obtain ⟨found, isValid, isPrepared⟩ := bind_eq_ok.mp isPrepared
  obtain ⟨⟨pinnedUrl, host⟩, isPinned, isPrepared⟩ := bind_eq_ok.mp isPrepared
  cases isPrepared
  replace isValid := mapError_eq_ok.mp isValid
  replace isPinned := obtain?_eq_ok.mp isPinned
  have accepts := UrlPolicy.accepts_of_validate isValid
  have isHead := List.head_mem validated.resolved
  have isPlain := UrlPolicy.plainAddress_of_accepts keepsOut plain accepts _ isHead
  have connects := authorityHost_pinnedDestination accepts isPlain isPinned
  obtain ⟨parsed, _, isParsed, rfl, -⟩ := pinnedDestination_eq_some isPinned
  refine ⟨parsed, isValid, ?_, ?_, isParsed, ?_, ?_⟩
  · rw [connects]
    exact isHead
  · rw [connects]
    exact accepts.allowed _ isHead
  · exact List.mem_append_right _ List.mem_cons_self
  · intro header member isSensitive
    rcases List.mem_append.mp member with isSafe | isOwn
    · exact absurd isSensitive (not_sensitive_of_safe isSafe)
    · rcases List.mem_cons.mp isOwn with rfl | isOwn
      · exact .inl rfl
      · exact .inr (List.mem_singleton.mp isOwn)

/-! ## Redirects, attempts and bodies -/

/-- What an outcome of an attempt promises. -/
def OutcomeFits (options : FetchOptions) (redirectCount : Nat) : AttemptOutcome → Prop
  | .redirect _ => redirectCount < options.maxRedirects
  | .done (.ok response) => response.body.length ≤ options.maxBytes
  | .retry _ | .done (.error _) => True

theorem outcomeFits_failedOutcome (redirectCount : Nat) (ending : Ending) :
    OutcomeFits options redirectCount (failedOutcome ending) := by
  cases ending <;> exact trivial

theorem outcomeFits_readBody (redirectCount : Nat) (validated : ValidatedUrl) (reply : Reply)
    (positive : 0 < options.maxBytes) :
    OutcomeFits options redirectCount (readBody unicodeInt options validated reply) := by
  have added (read : List Bytes) (body chunk next : Bytes) (_ : (body.length : Int) ≤ options.maxBytes)
      (isNext : addChunk options body chunk = .ok next) : (next.length : Int) ≤ options.maxBytes := by
    obtain ⟨fits, isNext⟩ := check_bind_eq_ok.mp isNext
    cases isNext
    simpa using fits
  unfold readBody
  split
  · exact trivial
  split
  · exact trivial
  · rename_i body read _
    exact foldlM_induction (fun _ body => (body.length : Int) ≤ options.maxBytes) (Int.le_of_lt positive) added read
  · exact outcomeFits_failedOutcome redirectCount _

theorem outcomeFits_handleReply (redirectCount : Nat) (validated : ValidatedUrl) (reply : Reply)
    (positive : 0 < options.maxBytes) :
    OutcomeFits options redirectCount (handleReply unicode unicodeInt options redirectCount validated reply) := by
  unfold handleReply
  split
  · unfold followRedirect
    split
    · exact trivial
    · rename_i inBudget
      split
      · exact trivial
      · exact trivial
      · split
        · exact Int.lt_of_not_ge inBudget
        · exact trivial
  split
  · exact trivial
  split
  · exact trivial
  split
  · exact trivial
  split
  · exact Int.le_of_lt positive
  split
  · exact trivial
  exact outcomeFits_readBody redirectCount validated reply positive

theorem outcomeFits_handleSending (redirectCount : Nat) (validated : ValidatedUrl) (sending : Sending)
    (positive : 0 < options.maxBytes) :
    OutcomeFits options redirectCount (handleSending unicode unicodeInt options redirectCount validated sending) := by
  cases sending with
  | reply reply => exact outcomeFits_handleReply redirectCount validated reply positive
  | failed ending => exact outcomeFits_failedOutcome redirectCount ending

/-- The invariant of the loops: their counters are within bounds, and what is returned is small enough. -/
def Bounded (options : FetchOptions) : Progress → Prop
  | .fetching fetch => 0 < options.maxBytes ∧ fetch.redirectCount ≤ options.maxRedirects ∧ 1 ≤ fetch.attempt ∧
      fetch.attempt ≤ options.maxAttempts
  | .done (.ok response) => response.body.length ≤ options.maxBytes
  | .done (.error _) => True

/-- The attempts that are left. -/
def attemptsLeft (options : FetchOptions) : Progress → Nat
  | .fetching fetch => (options.maxRedirects.toNat - fetch.redirectCount) * options.maxAttempts.toNat +
      (options.maxAttempts.toNat + 1 - fetch.attempt)
  | .done _ => 0

theorem bounded_start (url : Text) : Bounded options (start options url) := by
  unfold start
  split
  · exact trivial
  split
  · exact trivial
  split
  · rename_i positive allowed attempts
    exact ⟨by omega, by simpa using allowed, Nat.le_refl 1, attempts.1⟩
  · exact trivial

theorem attemptsLeft_start (url : Text) :
    attemptsLeft options (start options url) ≤ (options.maxRedirects.toNat + 1) * options.maxAttempts.toNat := by
  unfold start
  split
  · exact Nat.zero_le _
  split
  · exact Nat.zero_le _
  split
  · show (options.maxRedirects.toNat - 0) * options.maxAttempts.toNat + (options.maxAttempts.toNat + 1 - 1) ≤ _
    rw [Nat.add_mul, Nat.one_mul]
    exact Nat.le_refl _
  · exact Nat.zero_le _

theorem bounded_next {fetch : Fetch} {outcome : AttemptOutcome} (bounded : Bounded options (.fetching fetch))
    (fits : OutcomeFits options fetch.redirectCount outcome) : Bounded options (fetch.next options outcome) := by
  obtain ⟨positive, redirects, started, attempts⟩ := bounded
  cases outcome with
  | redirect url =>
    have another : (fetch.redirectCount : Int) < options.maxRedirects := fits
    refine ⟨positive, ?_, Nat.le_refl 1, ?_⟩
    · show ((fetch.redirectCount + 1 : Nat) : Int) ≤ _
      omega
    · show ((1 : Nat) : Int) ≤ _
      omega
  | retry error =>
    unfold Fetch.next
    dsimp only
    split
    · exact trivial
    · rename_i notLast
      refine ⟨positive, redirects, Nat.le_add_left 1 _, ?_⟩
      show ((fetch.attempt + 1 : Nat) : Int) ≤ _
      omega
  | done result =>
    cases result with
    | ok _ => exact fits
    | error _ => exact trivial

theorem attemptsLeft_next {fetch : Fetch} {outcome : AttemptOutcome} (bounded : Bounded options (.fetching fetch))
    (fits : OutcomeFits options fetch.redirectCount outcome) :
    1 + attemptsLeft options (fetch.next options outcome) ≤ attemptsLeft options (.fetching fetch) := by
  obtain ⟨positive, redirects, started, attempts⟩ := bounded
  cases outcome with
  | redirect url =>
    have another : (fetch.redirectCount : Int) < options.maxRedirects := fits
    obtain ⟨others, isOthers⟩ : ∃ others, options.maxRedirects.toNat - fetch.redirectCount = others + 1 :=
      ⟨options.maxRedirects.toNat - fetch.redirectCount - 1, by omega⟩
    show 1 + ((options.maxRedirects.toNat - (fetch.redirectCount + 1)) * options.maxAttempts.toNat +
      (options.maxAttempts.toNat + 1 - 1)) ≤ (options.maxRedirects.toNat - fetch.redirectCount) * options.maxAttempts.toNat +
      (options.maxAttempts.toNat + 1 - fetch.attempt)
    rw [show options.maxRedirects.toNat - (fetch.redirectCount + 1) = others by omega, isOthers, Nat.add_mul, Nat.one_mul]
    omega
  | retry error =>
    unfold Fetch.next
    dsimp only
    split
    · show 1 + 0 ≤ _ + (options.maxAttempts.toNat + 1 - fetch.attempt)
      omega
    · rename_i notLast
      show 1 + ((options.maxRedirects.toNat - fetch.redirectCount) * options.maxAttempts.toNat +
        (options.maxAttempts.toNat + 1 - (fetch.attempt + 1))) ≤
        (options.maxRedirects.toNat - fetch.redirectCount) * options.maxAttempts.toNat +
        (options.maxAttempts.toNat + 1 - fetch.attempt)
      omega
  | done result =>
    show 1 + 0 ≤ _ + (options.maxAttempts.toNat + 1 - fetch.attempt)
    omega

/-! ## Runs -/

/-- An attempt fails before it sends anything, or its outcome decides what comes next. -/
theorem step_attempt (fetch : Fetch) (answer : Answer) :
    (∃ failure, step policy unicode classify unicodeInt options (.fetching fetch) (.attempt answer) =
        .done (.error failure) ∧ sent policy unicode classify options (.fetching fetch) (.attempt answer) = []) ∨
      ∃ validated request, prepare policy unicode classify options answer fetch.currentUrl = .ok (validated, request) ∧
        step policy unicode classify unicodeInt options (.fetching fetch) (.attempt answer) =
          fetch.next options (handleSending unicode unicodeInt options fetch.redirectCount validated answer.sending) ∧
        sent policy unicode classify options (.fetching fetch) (.attempt answer) = [request] := by
  cases isPrepared : prepare policy unicode classify options answer fetch.currentUrl with
  | error failure => exact .inl ⟨failure, by simp only [step, isPrepared], by simp only [sent, isPrepared]⟩
  | ok prepared =>
    exact .inr ⟨prepared.1, prepared.2, rfl, by simp only [step, isPrepared], by simp only [sent, isPrepared]⟩

theorem bounded_step (progress : Progress) (action : Action) (bounded : Bounded options progress) :
    Bounded options (step policy unicode classify unicodeInt options progress action) := by
  cases progress with
  | done result => exact bounded
  | fetching fetch =>
    cases action with
    | deadline => exact trivial
    | attempt answer =>
      rcases step_attempt fetch answer with ⟨failure, stepped, -⟩ | ⟨validated, request, -, stepped, -⟩
      · rw [stepped]
        exact trivial
      · rw [stepped]
        exact bounded_next bounded (outcomeFits_handleSending _ _ _ bounded.1)

/-- A request uses up an attempt. -/
theorem attemptsLeft_step (progress : Progress) (action : Action) (bounded : Bounded options progress) :
    (sent policy unicode classify options progress action).length +
      attemptsLeft options (step policy unicode classify unicodeInt options progress action) ≤
        attemptsLeft options progress := by
  cases progress with
  | done result => exact Nat.le_refl 0
  | fetching fetch =>
    cases action with
    | deadline => exact Nat.zero_le _
    | attempt answer =>
      rcases @step_attempt policy unicode classify unicodeInt options fetch answer with
        ⟨failure, stepped, isSent⟩ | ⟨validated, request, -, stepped, isSent⟩
      · rw [stepped, isSent]
        exact Nat.zero_le _
      · rw [stepped, isSent]
        exact attemptsLeft_next bounded (outcomeFits_handleSending _ _ _ bounded.1)

theorem sentConfined_step (keepsOut : KeepsDelimitersOut unicode) (progress : Progress) (action : Action)
    (plain : ∀ answer, action = .attempt answer → PlainResults answer.getaddrinfo) :
    ∀ request ∈ sent policy unicode classify options progress action,
      SentConfined policy unicode classify progress action request := by
  intro request isSent
  cases progress with
  | done result => cases isSent
  | fetching fetch =>
    cases action with
    | deadline => cases isSent
    | attempt answer =>
      rcases @step_attempt policy unicode classify (fun _ => none) options fetch answer with
        ⟨failure, -, nothing⟩ | ⟨validated, prepared, isPrepared, -, one⟩
      · rw [nothing] at isSent
        cases isSent
      · rw [one, List.mem_singleton] at isSent
        subst isSent
        exact ⟨validated, confined_of_prepare keepsOut (plain answer rfl) isPrepared⟩

variable (policy classify unicodeInt options) in
/-- Whatever the resolver and the server answer, a fetch makes a bounded number of requests, each of which stays within
what the policy has accepted in the same attempt, and what it returns is within the limit of bytes. -/
theorem bounded_fetch_confined (url : Text) (actions : List Action) (keepsOut : KeepsDelimitersOut unicode)
    (plain : ∀ answer, Action.attempt answer ∈ actions → PlainResults answer.getaddrinfo) :
    (events (step policy unicode classify unicodeInt options) (sent policy unicode classify options)
        (start options url) actions).length ≤ (options.maxRedirects.toNat + 1) * options.maxAttempts.toNat ∧
      Along (step policy unicode classify unicodeInt options)
        (fun progress action => ∀ request ∈ sent policy unicode classify options progress action,
          SentConfined policy unicode classify progress action request) (start options url) actions ∧
      ∀ response, run (step policy unicode classify unicodeInt options) (start options url) actions =
        .done (.ok response) → response.body.length ≤ options.maxBytes := by
  refine ⟨?_, ?_, ?_⟩
  · exact Nat.le_trans (length_events_le (Bounded options) (attemptsLeft options) bounded_step attemptsLeft_step
      (bounded_start url) actions) (attemptsLeft_start url)
  · have plainActions : Along (step policy unicode classify unicodeInt options)
        (fun _ action => ∀ answer, action = .attempt answer → PlainResults answer.getaddrinfo) (start options url) actions :=
      along_of_mem fun action member answer isAttempt => plain answer (isAttempt ▸ member)
    exact fun taken member => sentConfined_step keepsOut taken.1 taken.2 (plainActions taken member)
  · intro response returned
    have bounded : Bounded options (run (step policy unicode classify unicodeInt options) (start options url) actions) :=
      run_invariant (Bounded options) bounded_step (bounded_start url) actions
    rw [returned] at bounded
    exact bounded

/-! ### A redirect to an address -/

/-- Two public addresses, and nothing else. -/
def publicAddresses (address : IpAddress) : AddressClass :=
  { isGlobal := [("93.184.216.34" : Text), ("2606:4700::1111" : Text)].contains address.str }

def petsOptions : FetchOptions :=
  { maxBytes := 2, maxRedirects := 1, maxAttempts := 3, headers := [("COOKIE", "session"), ("Accept", "*/*")] }

def petsAnswers : List Action :=
  [.attempt ⟨fun _ _ => .ok ["93.184.216.34"],
      .reply { statusCode := 302, headers := [("location", "https://[2606:4700:0::1111]/v2.json")] }⟩,
    .attempt ⟨fun _ _ => .error .os, .reply { statusCode := 200, chunks := [[123], [125]] }⟩]

example : (events (step {} asciiUnicode publicAddresses (fun _ => none) petsOptions)
    (sent {} asciiUnicode publicAddresses petsOptions) (start petsOptions "https://api.example.com/v1.json")
    petsAnswers).map FetchRequest.url = ["https://93.184.216.34/v1.json", "https://[2606:4700::1111]/v2.json"] := by
  decide +kernel

theorem pets_fetch_confined :
    (events (step {} asciiUnicode publicAddresses (fun _ => none) petsOptions)
        (sent {} asciiUnicode publicAddresses petsOptions) (start petsOptions "https://api.example.com/v1.json")
        petsAnswers).length ≤ (petsOptions.maxRedirects.toNat + 1) * petsOptions.maxAttempts.toNat ∧
      Along (step {} asciiUnicode publicAddresses (fun _ => none) petsOptions)
        (fun progress action => ∀ request ∈ sent {} asciiUnicode publicAddresses petsOptions progress action,
          SentConfined {} asciiUnicode publicAddresses progress action request)
        (start petsOptions "https://api.example.com/v1.json") petsAnswers ∧
      ∀ response, run (step {} asciiUnicode publicAddresses (fun _ => none) petsOptions)
        (start petsOptions "https://api.example.com/v1.json") petsAnswers = .done (.ok response) →
          response.body.length ≤ petsOptions.maxBytes := by
  apply bounded_fetch_confined {} publicAddresses (fun _ => none) petsOptions _ petsAnswers
    UrlPolicy.keepsDelimitersOut_asciiUnicode
  intro answer member hostname port results answered address isResult zone isZone
  rcases List.mem_cons.mp member with isFirst | isSecond
  · cases isFirst
    cases answered
    cases List.mem_singleton.mp isResult
    cases isZone
  · cases List.mem_singleton.mp isSecond
    cases answered

end Mcplica.Clients
