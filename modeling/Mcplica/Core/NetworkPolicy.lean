import Mcplica.Contracts.Hosts
import Mcplica.Contracts.IpAddresses
import Mcplica.Sources.Creation

/-! # The URL policy

`UrlPolicy`: which URLs may be fetched, and from which of the addresses that their hosts have. How an address is classed
is a table of the Python version, and what the resolver answers is up to whoever runs the name servers. -/

namespace Mcplica.Core

open Mcplica.Library Mcplica.Contracts

/-- The attributes of an address object. -/
structure AddressClass where
  isGlobal : Bool
  isLinkLocal : Bool := false
  isLoopback : Bool := false
  isMulticast : Bool := false
  isReserved : Bool := false
  isUnspecified : Bool := false
  deriving Repr, DecidableEq

structure UrlPolicy where
  allowHttp : Bool := false
  allowedHosts : List Text := []
  allowedNetworks : List IpNetwork := []
  allowSpecialUse : Bool := false
  deriving Repr, DecidableEq

inductive PolicyFailure where
  /-- A `ValueError` that nothing catches. -/
  | value
  | validation (message : Text)
  | securityPolicy (message : Text)
  deriving Repr, DecidableEq

/-- What `getaddrinfo` raises. -/
inductive LookupFailure where
  | os
  | value
  deriving Repr, DecidableEq

/-- `resolve_addresses` -/
def resolveAddresses (getaddrinfo : Text → Nat → Except LookupFailure (List Text)) (hostname : Text) (port : Nat) :
    Except PolicyFailure (List Text) :=
  match getaddrinfo hostname port with
  | .ok results => .ok (Text.sorted results.dedup)
  | .error .os => .error (.securityPolicy "Source hostname could not be resolved")
  | .error .value => .error .value

/-- The zones of a resolver are names or numbers of interfaces. -/
def PlainResults (getaddrinfo : Text → Nat → Except LookupFailure (List Text)) : Prop :=
  ∀ hostname port results, getaddrinfo hostname port = .ok results → ∀ address ∈ results, PlainZone address

theorem mem_resolveAddresses {getaddrinfo : Text → Nat → Except LookupFailure (List Text)} {hostname : Text} {port : Nat}
    {addresses : List Text} (resolved : resolveAddresses getaddrinfo hostname port = .ok addresses) :
    ∃ results, getaddrinfo hostname port = .ok results ∧ ∀ address ∈ addresses, address ∈ results := by
  unfold resolveAddresses at resolved
  split at resolved
  · rename_i results found
    cases resolved
    exact ⟨results, found, fun address member => List.mem_dedup.mp (Text.mem_sorted.mp member)⟩
  · cases resolved
  · cases resolved

structure ValidatedUrl where
  url : Text
  hostname : Text
  port : Nat
  resolvedAddresses : List Text
  resolved : resolvedAddresses ≠ []
  deriving Repr, DecidableEq

/-- The encoding of host names puts no delimiter into a host that `urlsplit` has let through: `urlsplit` refuses an
authority whose compatibility form has one. -/
def KeepsDelimitersOut (unicode : Unicode) : Prop :=
  ∀ url parsed name hostname, urlsplit unicode url = some parsed → parsed.hostname unicode = some name →
    Sources.normalizeHostname unicode name = some hostname → ∀ character ∈ ("/?#@" : Text), character ∉ hostname

def IsHttpScheme (scheme : Text) : Prop :=
  scheme = "https" ∨ scheme = "http"

namespace UrlPolicy

variable (policy : UrlPolicy) (unicode : Unicode) (classify : IpAddress → AddressClass)

/-- `validate_syntax`: the normalized URL, the host and the port. -/
def validateSyntax (url : Text) : Except PolicyFailure (Text × Text × Nat) := do
  let malformed : PolicyFailure := .validation "Source URL is malformed"
  let parsed ← obtain? (urlsplit unicode url) malformed
  ensure (parsed.port ≠ .invalid) malformed
  let scheme := parsed.scheme.casefold unicode
  ensure (scheme = "https" || (policy.allowHttp && scheme = "http")) (.securityPolicy "Source URL must use HTTPS")
  ensure (parsed.username.isNone && parsed.password.isNone) (.securityPolicy "Source URL must not contain credentials")
  let hostname ← obtain? (parsed.hostname unicode) (.validation "Source URL must contain a hostname")
  let hostname ← obtain? (Sources.normalizeHostname unicode hostname) .value
  -- Port zero is falsy and stands for the port of the scheme.
  let schemePort := if scheme = "https" then 443 else 80
  let effectivePort := match parsed.port with
    | .number port => if port = 0 then schemePort else port
    | _ => schemePort
  ensure (1 ≤ effectivePort && effectivePort ≤ 65535) (.validation "Source URL port is invalid")
  let bracketed := if hostname.contains ':' && !hostname.startsWith "[" then '[' :: hostname ++ [']'] else hostname
  let netloc := match parsed.port with
    | .number port => bracketed ++ ':' :: Text.ofNat port
    | _ => bracketed
  let path : Text := if parsed.path = [] then "/" else parsed.path
  return (urlunsplit ⟨scheme, netloc, path, parsed.query, []⟩, hostname, effectivePort)

/-- `_host_explicitly_allowed` -/
def hostExplicitlyAllowed (hostname : Text) : Bool :=
  policy.allowedHosts.any fun allowed =>
    if allowed.startsWith "*." then hostname.endsWith (allowed.drop 1) && hostname ≠ allowed.drop 2
    else hostname = allowed

/-- `_address_allowed` -/
def addressAllowed (hostname rawAddress : Text) : Except PolicyFailure Bool := do
  let address ← obtain? (ipAddress rawAddress) (.securityPolicy "Source DNS returned an invalid address")
  let kind := classify address
  if kind.isGlobal then return true
  if kind.isLinkLocal || kind.isLoopback || kind.isMulticast || kind.isReserved || kind.isUnspecified then
    return policy.allowSpecialUse && policy.hostExplicitlyAllowed hostname
  if policy.hostExplicitlyAllowed hostname then return true
  return policy.allowedNetworks.any (·.contains address)

/-- The addresses of a host: a literal is its own, the others come from the resolver. -/
def addressesOf (resolver : Text → Nat → Except PolicyFailure (List Text)) (hostname : Text) (port : Nat) :
    Except PolicyFailure (List Text) :=
  match ipAddress hostname with
  | some literalAddress => .ok [literalAddress.str]
  | none => resolver hostname port

def validate (resolver : Text → Nat → Except PolicyFailure (List Text)) (url : Text) :
    Except PolicyFailure ValidatedUrl := do
  let (normalized, hostname, port) ← policy.validateSyntax unicode url
  let addresses ← addressesOf resolver hostname port
  if resolved : addresses ≠ [] then
    let blocked ← filterChecked (fun value => (policy.addressAllowed classify hostname value).map not) addresses
    ensure (blocked = [])
      (.securityPolicy "Source destination resolves to a blocked private or special-use address")
    return ⟨normalized, hostname, port, addresses, resolved⟩
  else
    throw (.securityPolicy "Source hostname resolved to no addresses")

/-! ## What is accepted -/

/-- What the policy has found out about a URL that it accepts. -/
structure Accepts (resolver : Text → Nat → Except PolicyFailure (List Text)) (url : Text) (validated : ValidatedUrl) :
    Prop where
  syntactic : policy.validateSyntax unicode url = .ok (validated.url, validated.hostname, validated.port)
  addresses : addressesOf resolver validated.hostname validated.port = .ok validated.resolvedAddresses
  allowed : ∀ address ∈ validated.resolvedAddresses, policy.addressAllowed classify validated.hostname address = .ok true

variable {policy unicode classify}

theorem all_of_filterChecked {holds : Text → Except PolicyFailure Bool} {values : List Text}
    (ran : filterChecked (fun value => (holds value).map not) values = .ok []) :
    ∀ value ∈ values, holds value = .ok true := by
  induction values with
  | nil =>
    intro value member
    cases member
  | cons first rest ih =>
    simp only [filterChecked, bind_eq_ok, map_eq_ok, pure, Except.pure, Except.ok.injEq] at ran
    obtain ⟨_, ⟨isAllowed, judged, rfl⟩, others, ran, kept⟩ := ran
    cases isAllowed with
    | false => cases kept
    | true =>
      cases kept
      exact List.forall_mem_cons.mpr ⟨judged, ih ran⟩

theorem exists_address_of_addressAllowed {hostname rawAddress : Text} {isAllowed : Bool}
    (judged : policy.addressAllowed classify hostname rawAddress = .ok isAllowed) :
    ∃ address, ipAddress rawAddress = some address := by
  obtain ⟨address, isAddress, -⟩ := bind_eq_ok.mp judged
  exact ⟨address, obtain?_eq_ok.mp isAddress⟩

theorem accepts_of_validate {resolver : Text → Nat → Except PolicyFailure (List Text)} {url : Text}
    {validated : ValidatedUrl} (isValid : policy.validate unicode classify resolver url = .ok validated) :
    policy.Accepts unicode classify resolver url validated := by
  unfold validate at isValid
  obtain ⟨⟨normalized, hostname, port⟩, syntactic, isValid⟩ := bind_eq_ok.mp isValid
  obtain ⟨addresses, found, isValid⟩ := bind_eq_ok.mp isValid
  split at isValid
  · obtain ⟨blocked, filtered, isValid⟩ := bind_eq_ok.mp isValid
    obtain ⟨noneBlocked, isValid⟩ := check_bind_eq_ok.mp isValid
    cases isValid
    have unblocked : blocked = [] := by simpa using noneBlocked
    subst unblocked
    exact ⟨syntactic, found, all_of_filterChecked filtered⟩
  · cases isValid

/-! ## The normalized URL -/

theorem validateSyntax_parts {url normalized hostname : Text} {port : Nat}
    (isValid : policy.validateSyntax unicode url = .ok (normalized, hostname, port)) :
    ∃ parsed name scheme netloc path, urlsplit unicode url = some parsed ∧ parsed.hostname unicode = some name ∧
      Sources.normalizeHostname unicode name = some hostname ∧ IsHttpScheme scheme ∧
      normalized = urlunsplit ⟨scheme, netloc, path, parsed.query, []⟩ := by
  unfold validateSyntax at isValid
  obtain ⟨parsed, isParsed, isValid⟩ := bind_eq_ok.mp isValid
  obtain ⟨-, isValid⟩ := check_bind_eq_ok.mp isValid
  obtain ⟨isHttp, isValid⟩ := check_bind_eq_ok.mp isValid
  obtain ⟨-, isValid⟩ := check_bind_eq_ok.mp isValid
  obtain ⟨name, isName, isValid⟩ := bind_eq_ok.mp isValid
  obtain ⟨host, isHost, isValid⟩ := bind_eq_ok.mp isValid
  obtain ⟨-, isValid⟩ := check_bind_eq_ok.mp isValid
  cases isValid
  refine ⟨parsed, name, _, _, _, obtain?_eq_ok.mp isParsed, obtain?_eq_ok.mp isName, obtain?_eq_ok.mp isHost, ?_, rfl⟩
  rw [ensure_eq_ok, Bool.or_eq_true, Bool.and_eq_true, decide_eq_true_eq, decide_eq_true_eq] at isHttp
  exact isHttp.imp_right And.right

theorem clean_hostname (keepsOut : KeepsDelimitersOut unicode) {url normalized hostname : Text} {port : Nat}
    (isValid : policy.validateSyntax unicode url = .ok (normalized, hostname, port)) :
    ∀ character ∈ ("/?#@" : Text), character ∉ hostname := by
  obtain ⟨parsed, name, _, _, _, isParsed, isName, isHost, -⟩ := validateSyntax_parts isValid
  exact keepsOut url parsed name hostname isParsed isName isHost

/-- The addresses of an accepted URL can stand in a URL. -/
theorem plainAddress_of_accepts {getaddrinfo : Text → Nat → Except LookupFailure (List Text)} {url : Text}
    {validated : ValidatedUrl} (keepsOut : KeepsDelimitersOut unicode) (plain : PlainResults getaddrinfo)
    (accepts : policy.Accepts unicode classify (resolveAddresses getaddrinfo) url validated) :
    ∀ address ∈ validated.resolvedAddresses, PlainAddress address := by
  intro address member
  obtain ⟨_, isAddress⟩ := exists_address_of_addressAllowed (accepts.allowed address member)
  apply plainAddress_of_ipAddress isAddress
  have found := accepts.addresses
  unfold addressesOf at found
  split at found
  · rename_i literalAddress isLiteral
    have isWritten : [literalAddress.str] = validated.resolvedAddresses := Except.ok.inj found
    rw [← isWritten, List.mem_singleton] at member
    subst member
    intro zone isZone character listed inZone
    rcases partition_str isLiteral with noZone | sameZone
    · rw [noZone] at isZone
      cases isZone
    · -- The zone of the literal is the one of the host.
      rw [sameZone] at isZone
      have whole := Text.partition_eq_some (Prod.ext rfl isZone :
        Text.partition '%' validated.hostname = ((Text.partition '%' validated.hostname).1, some zone))
      apply clean_hostname keepsOut accepts.syntactic character listed
      rw [whole]
      exact List.mem_append_right _ (List.mem_cons_of_mem _ inZone)
  · obtain ⟨results, answered, fromResults⟩ := mem_resolveAddresses found
    exact plain _ _ results answered address (fromResults address member)

/-! ### ASCII tables -/

theorem mem_of_mem_lower {text : Text} {character : Char} (caseless : ¬ (97 ≤ character.toNat ∧ character.toNat ≤ 122))
    (member : character ∈ text.lower asciiUnicode) : character ∈ text := by
  unfold Text.lower at member
  split at member
  · exact Text.mem_of_mem_map_toLower member caseless
  · exact member

theorem mem_of_mem_casefold {text : Text} {character : Char}
    (caseless : ¬ (97 ≤ character.toNat ∧ character.toNat ≤ 122)) (member : character ∈ text.casefold asciiUnicode) :
    character ∈ text := by
  unfold Text.casefold at member
  split at member
  · exact Text.mem_of_mem_map_toLower member caseless
  · exact member

theorem eq_of_idna {text encoded : Text} (isEncoded : text.idna asciiUnicode = some encoded) : encoded = text := by
  by_cases ascii : text.isAscii = true
  · exact (Text.idna_of_isAscii ascii isEncoded).1
  · unfold Text.idna at isEncoded
    rw [if_neg ascii] at isEncoded
    cases isEncoded

theorem mem_of_mem_hostname {parsed : SplitResult} {name : Text} {character : Char}
    (caseless : ¬ (97 ≤ character.toNat ∧ character.toNat ≤ 122))
    (isName : parsed.hostname asciiUnicode = some name) (member : character ∈ name) : character ∈ parsed.hostinfo.1 := by
  unfold SplitResult.hostname at isName
  dsimp only at isName
  split at isName
  · cases isName
  · split at isName
    · rename_i address parted
      cases isName
      rw [← (Text.partition_eq_none parted).2]
      exact mem_of_mem_lower caseless member
    · rename_i address zone parted
      cases isName
      rw [Text.partition_eq_some parted]
      rcases List.mem_append.mp member with inAddress | rest
      · exact List.mem_append_left _ (mem_of_mem_lower caseless inAddress)
      · exact List.mem_append_right _ rest

theorem keepsDelimitersOut_asciiUnicode : KeepsDelimitersOut asciiUnicode := by
  intro url parsed name hostname isParsed isName isHost character listed member
  have allCaseless : ∀ delimiter ∈ ("/?#@" : Text), ¬ (97 ≤ delimiter.toNat ∧ delimiter.toNat ≤ 122) :=
    Text.forall_of_all (by decide)
  have caseless := allCaseless character listed
  unfold Sources.normalizeHostname at isHost
  dsimp only at isHost
  split at isHost
  · cases isHost
  rw [eq_of_idna isHost] at member
  have inStripped := mem_of_mem_casefold caseless member
  have inName : character ∈ name :=
    (List.dropWhile_suffix _).subset ((List.rdropWhile_prefix _ _).subset ((List.rdropWhile_prefix _ _).subset inStripped))
  have inHostinfo := SplitResult.hostinfo_fst_subset parsed (mem_of_mem_hostname caseless isName inName)
  by_cases isSign : character = '@'
  · subst isSign
    exact Text.not_mem_rpartition_snd _ _ inHostinfo
  · refine (netlocOf_urlsplit isParsed).clean character ?_ (Text.rpartition_snd_subset _ _ inHostinfo)
    have kept : ∀ delimiter ∈ ("/?#@" : Text), delimiter = '@' ∨ delimiter ∈ ("/?#\t\r\n" : Text) :=
      Text.forall_of_all (by decide)
    exact (kept character listed).resolve_left isSign

end UrlPolicy

end Mcplica.Core
