import Mcplica.Contracts.Hosts

/-! # Runtime secrets

The bundle of secrets that a deployment mounts for its runtime: how its parts are validated, and how it is written
to the mount and read back. -/

namespace Mcplica.Contracts

open Mcplica.Library

/-! ## Upstream credentials -/

inductive CredentialType where
  | bearer
  | apiKey
  | basic
  | oauth2ClientCredentials
  | staticHeader
  deriving Repr, DecidableEq

namespace CredentialType

/-- The type of the profiles that use such a credential. -/
def authType : CredentialType → AuthType
  | bearer => .bearer
  | apiKey => .apiKey
  | basic => .basic
  | oauth2ClientCredentials => .oauth2ClientCredentials
  | staticHeader => .staticHeader

def value (type : CredentialType) : Text :=
  type.authType.value

def all : List CredentialType :=
  [.bearer, .apiKey, .basic, .oauth2ClientCredentials, .staticHeader]

/-- The fields of a credential of this type. -/
def required : CredentialType → List Text
  | bearer => ["token"]
  | apiKey => ["api_key"]
  | basic => ["username", "password"]
  | oauth2ClientCredentials => ["client_id", "client_secret"]
  | staticHeader => ["headers"]

end CredentialType

structure UpstreamCredential where
  type : CredentialType
  token : Option Text := none
  apiKey : Option Text := none
  username : Option Text := none
  password : Option Text := none
  clientId : Option Text := none
  clientSecret : Option Text := none
  headers : Option (List (Text × Text)) := none

namespace UpstreamCredential

/-- The fields that hold one secret. -/
def secrets (credential : UpstreamCredential) : List (Text × Option Text) :=
  [("token", credential.token), ("api_key", credential.apiKey), ("username", credential.username),
    ("password", credential.password), ("client_id", credential.clientId), ("client_secret", credential.clientSecret)]

/-- The names of the fields that are set, in the order of the fields. -/
def present (credential : UpstreamCredential) : List Text :=
  (credential.secrets.filter fun field => field.2.isSome).map Prod.fst ++
    if credential.headers.isSome then [("headers" : Text)] else []

/-- The loop over the headers; it has seen some names in lower case. -/
def validateHeaders (unicode : Unicode) : List Text → List (Text × Text) → Except Text Unit
  | _, [] => .ok ()
  | lowered, (name, value) :: rest => do
    ensure (isHeaderName name && !lowered.contains (name.lower unicode))
      ("static secret headers contain an invalid or duplicate name" : Text)
    ensure (value ≠ [] && !Text.includesAny value lineBreaks) ("static secret header value is empty or invalid" : Text)
    validateHeaders unicode (name.lower unicode :: lowered) rest

def validateExactSecretShape (unicode : Unicode) (credential : UpstreamCredential) : Except Text Unit := do
  ensure (credential.present = credential.type.required)
    (credential.type.value ++ (" credential secret shape is invalid" : Text))
  ensure (credential.secrets.all fun field => field.2 ≠ some [])
    (credential.type.value ++ (" credential contains an empty secret" : Text))
  ensure (!(credential.type = .basic && credential.username.any fun username => username.contains ':'))
    ("Basic-auth usernames cannot contain a colon" : Text)
  validateHeaders unicode [] (credential.headers.getD [])

end UpstreamCredential

/-! ## Inbound authentication -/

/-- A point in time in microseconds, with the offset of its time zone if it has one. -/
structure DateTime where
  instant : Int
  offset : Option Int
  deriving DecidableEq

/-- How pydantic writes points in time to JSON and reads them. -/
structure DateTimes where
  write : DateTime → Text
  read : Json → Option DateTime
  rereads : ∀ {time : DateTime}, time.offset.isSome = true → read (.string (write time)) = some time

structure StaticTokenDigest where
  id : Text
  sha256 : Text
  expiresAt : Option DateTime := none

def removeStart (start text : Text) : Text :=
  if text.startsWith start then text.drop start.length else text

def validSha256 (unicode : Unicode) (value : Text) : Except Text Text := do
  let normalized := (removeStart "sha256:" value).lower unicode
  ensure (isSha256 normalized) ("token verifier must be a SHA-256 digest" : Text)
  return normalized

/-- The validated digest. -/
def StaticTokenDigest.make (unicode : Unicode) (id sha256 : Text) (expiresAt : Option DateTime) :
    Except Text StaticTokenDigest := do
  ensure (1 ≤ id.length && id.length ≤ 128) ("String should have between 1 and 128 characters" : Text)
  ensure (!Text.includesAny id lineBreaks) ("token verifier identifier contains forbidden characters" : Text)
  let sha256 ← validSha256 unicode sha256
  ensure (expiresAt.all fun time => time.offset.isSome) ("token verifier expiration must include a timezone" : Text)
  return ⟨id, sha256, expiresAt⟩

inductive InboundAuthMode where
  | staticBearer
  | externalOauthOidc
  | disabledDev
  deriving Repr, DecidableEq

def InboundAuthMode.value : InboundAuthMode → Text
  | staticBearer => "static_bearer"
  | externalOauthOidc => "external_oauth_oidc"
  | disabledDev => "disabled_dev"

def InboundAuthMode.all : List InboundAuthMode :=
  [.staticBearer, .externalOauthOidc, .disabledDev]

structure InboundAuthSecrets where
  mode : InboundAuthMode
  staticTokens : List StaticTokenDigest := []
  issuerUrl : Option Text := none
  jwksUrl : Option Text := none
  resourceUrl : Option Text := none
  audiences : List Text := []
  requiredScopes : List Text := []
  allowedAlgorithms : List Text := []

def normalizeString (value : Text) : Except Text Text := do
  let item := Text.strip value
  ensure (item ≠ [] && item.length ≤ 512 && !Text.includesAny item lineBreaks)
    ("inbound authentication values are invalid" : Text)
  return item

def normalizeStringSets (values : List Text) : Except Text (List Text) := do
  let normalized ← distinctResults normalizeString values
  ensure (normalized.length ≤ 100) ("inbound authentication contains too many values" : Text)
  return normalized

def permittedAlgorithms : List Text :=
  ["RS256", "RS384", "RS512", "PS256", "PS384", "PS512", "ES256", "ES384", "ES512", "EdDSA"].map String.toList

namespace InboundAuthSecrets

/-- One of the fields of the OIDC mode is set. -/
def hasOidcConfiguration (secrets : InboundAuthSecrets) : Bool :=
  secrets.issuerUrl.isSome || secrets.jwksUrl.isSome || secrets.resourceUrl.isSome || secrets.audiences ≠ [] ||
    secrets.requiredScopes ≠ [] || secrets.allowedAlgorithms ≠ []

def modeConfigurationIsComplete (secrets : InboundAuthSecrets) : Except Text Unit := do
  ensure (decide (secrets.staticTokens.map StaticTokenDigest.id).Nodup)
    ("static bearer token verifier identifiers must be unique" : Text)
  match secrets.mode with
  | .staticBearer => do
    ensure (!secrets.staticTokens.isEmpty) ("static bearer mode requires at least one token verifier" : Text)
    ensure (!secrets.hasOidcConfiguration) ("static bearer mode cannot contain OIDC configuration" : Text)
  | .externalOauthOidc => do
    ensure (secrets.issuerUrl.isSome && secrets.resourceUrl.isSome && secrets.audiences ≠ [])
      ("OIDC mode requires issuer, resource URL, and audience" : Text)
    ensure secrets.staticTokens.isEmpty ("OIDC mode cannot contain static token verifiers" : Text)
    ensure (secrets.allowedAlgorithms ≠ [] && secrets.allowedAlgorithms.all permittedAlgorithms.contains)
      ("OIDC algorithms must be an explicit asymmetric allowlist" : Text)
  | .disabledDev =>
    ensure (secrets.staticTokens.isEmpty && !secrets.hasOidcConfiguration)
      ("disabled authentication mode cannot contain verifier material" : Text)

/-- The validated secrets: the lists are normalized before the mode is checked. -/
def make (secrets : InboundAuthSecrets) : Except Text InboundAuthSecrets := do
  let audiences ← normalizeStringSets secrets.audiences
  let requiredScopes ← normalizeStringSets secrets.requiredScopes
  let allowedAlgorithms ← normalizeStringSets secrets.allowedAlgorithms
  let secrets := { secrets with audiences, requiredScopes, allowedAlgorithms }
  secrets.modeConfigurationIsComplete
  return secrets

end InboundAuthSecrets

/-! ## The network policy -/

structure NetworkPolicy where
  allowedPrivateHosts : List Text := []
  allowedDevelopmentHosts : List Text := []

section

variable (platform : Platform)

def networkHostRefused : Text := "runtime network allowlists contain invalid host names"

def normalizeNetworkHost (value : Text) : Except Text Text := do
  ensure (!(value = [] || value.includes "://" || Text.includesAny value (("/?#@\\" : Text) ++ lineBreaks)))
    networkHostRefused
  let parsed ← obtain? (urlsplit platform.unicode ("//" ++ value)) ("Invalid IPv6 URL" : Text)
  let hostname ← obtain? (parsed.hostname platform.unicode) networkHostRefused
  ensure (parsed.port = .absent) networkHostRefused
  obtain? (normalizedHost platform.unicode hostname) networkHostRefused

def normalizeHostAllowlist (values : List Text) : Except Text (List Text) :=
  distinctResults (normalizeNetworkHost platform) values

/-- The validated policy, `RuntimeNetworkPolicy` of the bundle. -/
def NetworkPolicy.make (policy : NetworkPolicy) : Except Text NetworkPolicy := do
  let allowedPrivateHosts ← normalizeHostAllowlist platform policy.allowedPrivateHosts
  let allowedDevelopmentHosts ← normalizeHostAllowlist platform policy.allowedDevelopmentHosts
  return { allowedPrivateHosts, allowedDevelopmentHosts }

/-! ## The bundle -/

structure RuntimeSecretBundle where
  upstreamCredentials : List (Text × UpstreamCredential) := []
  inboundAuth : InboundAuthSecrets
  networkPolicy : NetworkPolicy := {}

def bundleVersion : Text := "mcplica-runtime-secrets/v1"

def validateCredentialReferences (credentials : List (Text × UpstreamCredential)) : Except Text Unit :=
  ensure (credentials.all fun (reference, _) =>
      reference ≠ [] && reference.length ≤ 200 && !Text.includesAny reference lineBreaks)
    ("runtime credential reference is invalid" : Text)

/-! ## Writing -/

/-- A JSON object whose keys are written in order. -/
def sortedObject (fields : JsonObject) : Json :=
  .object (Text.sortedBy Prod.fst fields)

/-- A field of a model, `null` when it is not set. -/
def optionalText : Option Text → Json
  | none => .null
  | some text => .string text

def UpstreamCredential.write (credential : UpstreamCredential) : Json :=
  sortedObject (Json.entry "type" (.string credential.type.value) ::
    ((credential.secrets.filterMap fun field => field.2.map fun secret => (field.1, Json.string secret)) ++
      credential.headers.toList.map fun headers =>
        Json.entry "headers" (sortedObject (headers.map fun header => (header.1, Json.string header.2)))))

variable (times : DateTimes)

def StaticTokenDigest.write (digest : StaticTokenDigest) : Json :=
  sortedObject [Json.entry "id" (.string digest.id), Json.entry "sha256" (.string digest.sha256),
    Json.entry "expires_at" (optionalText (digest.expiresAt.map times.write))]

def writeTexts (texts : List Text) : Json :=
  .array (texts.map Json.string)

def InboundAuthSecrets.write (secrets : InboundAuthSecrets) : Json :=
  sortedObject [Json.entry "mode" (.string secrets.mode.value),
    Json.entry "static_tokens" (.array (secrets.staticTokens.map (StaticTokenDigest.write times))),
    Json.entry "issuer_url" (optionalText secrets.issuerUrl), Json.entry "jwks_url" (optionalText secrets.jwksUrl),
    Json.entry "resource_url" (optionalText secrets.resourceUrl), Json.entry "audiences" (writeTexts secrets.audiences),
    Json.entry "required_scopes" (writeTexts secrets.requiredScopes),
    Json.entry "allowed_algorithms" (writeTexts secrets.allowedAlgorithms)]

def NetworkPolicy.write (policy : NetworkPolicy) : Json :=
  sortedObject [Json.entry "allowed_private_hosts" (writeTexts policy.allowedPrivateHosts),
    Json.entry "allowed_development_hosts" (writeTexts policy.allowedDevelopmentHosts)]

/-- The value that `serialize_for_secret_mount` hands to `json.dumps`, which sorts the keys. -/
def RuntimeSecretBundle.serializeForSecretMount (bundle : RuntimeSecretBundle) : Json :=
  sortedObject [Json.entry "version" (.string bundleVersion),
    Json.entry "inbound_auth" (bundle.inboundAuth.write times),
    Json.entry "network_policy" bundle.networkPolicy.write,
    Json.entry "upstream_credentials"
      (sortedObject (bundle.upstreamCredentials.map fun (reference, credential) => (reference, credential.write)))]

/-! ## Reading -/

def readText : Json → Except Text Text
  | .string text => .ok text
  | _ => .error "Input should be a valid string"

def readObject : Json → Except Text JsonObject
  | .object fields => .ok fields
  | _ => .error "Input should be an object"

def readList {α : Type} (read : Json → Except Text α) : Json → Except Text (List α)
  | .array items => items.mapM read
  | _ => .error "Input should be a valid list"

/-- A field that may be `null`. -/
def readNullable {α : Type} (read : Json → Except Text α) : Json → Except Text (Option α)
  | .null => .ok none
  | value => some <$> read value

/-- A field with a default. -/
def readField {α : Type} (fields : JsonObject) (name : Text) (default : α) (read : Json → Except Text α) :
    Except Text α :=
  match Json.get fields name with
  | none => .ok default
  | some value => read value

def readRequired {α : Type} (fields : JsonObject) (name : Text) (read : Json → Except Text α) : Except Text α :=
  match Json.get fields name with
  | none => .error "Field required"
  | some value => read value

def forbidExtra (fields : JsonObject) (names : List Text) : Except Text Unit :=
  ensure (fields.all fun field => names.contains field.1) ("Extra inputs are not permitted" : Text)

/-- A value of an enumeration. -/
def readLiteral {α : Type} (values : List α) (spelling : α → Text) (json : Json) : Except Text α := do
  let text ← readText json
  obtain? (values.find? fun value => spelling value = text) ("Input should be one of the literals" : Text)

/-- The entries of a dictionary. -/
def readEntries {α : Type} (read : Json → Except Text α) (json : Json) : Except Text (List (Text × α)) := do
  let fields ← readObject json
  fields.mapM fun field => do
    let value ← read field.2
    return (field.1, value)

def UpstreamCredential.read (json : Json) : Except Text UpstreamCredential := do
  let fields ← readObject json
  forbidExtra fields ["type", "token", "api_key", "username", "password", "client_id", "client_secret", "headers"]
  let type ← readRequired fields "type" (readLiteral CredentialType.all CredentialType.value)
  let token ← readField fields "token" none (readNullable readText)
  let apiKey ← readField fields "api_key" none (readNullable readText)
  let username ← readField fields "username" none (readNullable readText)
  let password ← readField fields "password" none (readNullable readText)
  let clientId ← readField fields "client_id" none (readNullable readText)
  let clientSecret ← readField fields "client_secret" none (readNullable readText)
  let headers ← readField fields "headers" none (readNullable (readEntries readText))
  let credential : UpstreamCredential := ⟨type, token, apiKey, username, password, clientId, clientSecret, headers⟩
  credential.validateExactSecretShape platform.unicode
  return credential

def readTime (json : Json) : Except Text DateTime :=
  obtain? (times.read json) ("Input should be a valid datetime" : Text)

def readUrl (json : Json) : Except Text Text := do
  let text ← readText json
  obtain? (platform.urls.parse text) ("Input should be a valid URL" : Text)

def StaticTokenDigest.read (json : Json) : Except Text StaticTokenDigest := do
  let fields ← readObject json
  forbidExtra fields ["id", "sha256", "expires_at"]
  let id ← readRequired fields "id" readText
  let sha256 ← readRequired fields "sha256" readText
  let expiresAt ← readField fields "expires_at" none (readNullable (readTime times))
  StaticTokenDigest.make platform.unicode id sha256 expiresAt

def InboundAuthSecrets.read (json : Json) : Except Text InboundAuthSecrets := do
  let fields ← readObject json
  forbidExtra fields ["mode", "static_tokens", "issuer_url", "jwks_url", "resource_url", "audiences", "required_scopes",
    "allowed_algorithms"]
  let mode ← readRequired fields "mode" (readLiteral InboundAuthMode.all InboundAuthMode.value)
  let staticTokens ← readField fields "static_tokens" [] (readList (StaticTokenDigest.read platform times))
  let issuerUrl ← readField fields "issuer_url" none (readNullable (readUrl platform))
  let jwksUrl ← readField fields "jwks_url" none (readNullable (readUrl platform))
  let resourceUrl ← readField fields "resource_url" none (readNullable (readUrl platform))
  let audiences ← readField fields "audiences" [] (readList readText)
  let requiredScopes ← readField fields "required_scopes" [] (readList readText)
  let allowedAlgorithms ← readField fields "allowed_algorithms" [] (readList readText)
  InboundAuthSecrets.make
    ⟨mode, staticTokens, issuerUrl, jwksUrl, resourceUrl, audiences, requiredScopes, allowedAlgorithms⟩

def NetworkPolicy.read (json : Json) : Except Text NetworkPolicy := do
  let fields ← readObject json
  forbidExtra fields ["allowed_private_hosts", "allowed_development_hosts"]
  let allowedPrivateHosts ← readField fields "allowed_private_hosts" [] (readList readText)
  let allowedDevelopmentHosts ← readField fields "allowed_development_hosts" [] (readList readText)
  NetworkPolicy.make platform { allowedPrivateHosts, allowedDevelopmentHosts }

def RuntimeSecretBundle.modelValidate (json : Json) : Except Text RuntimeSecretBundle := do
  let fields ← readObject json
  forbidExtra fields ["version", "upstream_credentials", "inbound_auth", "network_policy"]
  let _ ← readField fields "version" bundleVersion (readLiteral [bundleVersion] id)
  let upstreamCredentials ← readField fields "upstream_credentials" [] (readEntries (UpstreamCredential.read platform))
  validateCredentialReferences upstreamCredentials
  let inboundAuth ← readRequired fields "inbound_auth" (InboundAuthSecrets.read platform times)
  let networkPolicy ← readField fields "network_policy" {} (NetworkPolicy.read platform)
  return { upstreamCredentials, inboundAuth, networkPolicy }

end

/-! ## Profiles of the enabled tools -/

namespace MCPManifest

def requiredProfileIds (manifest : MCPManifest) : List Text :=
  (manifest.enabledTools.filterMap MCPTool.securityProfileRef).dedup

/-- The dictionary of the profiles, in which the last one of an identifier counts. -/
def profile? (manifest : MCPManifest) (profileId : Text) : Option AuthProfile :=
  manifest.authProfiles.reverse.find? fun profile => profile.id = profileId

end MCPManifest

end Mcplica.Contracts
