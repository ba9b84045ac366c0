import Mcplica.Deployments.Credentials
import Mcplica.Library.Uuid

/-! # Materializing secrets

`materialize_inbound_auth` and `DeploymentSecretMaterializer`: from the stored access configuration and the
decrypted credentials to the bundle that the runtime mounts. -/

namespace Mcplica.Deployments

open Mcplica.Domain Mcplica.Library Mcplica.Contracts

structure MCPAuthConfigRecord where
  mode : InboundAuthMode
  issuerUrl : Option Text
  audiences : List Text
  requiredScopes : List Text
  metadata : JsonObject

structure MCPTokenVerifierRecord where
  id : Uuid
  tokenHash : Text
  expiresAt : Option DateTime

structure Settings where
  isProduction : Bool
  traefikTls : Bool
  runtimeAllowedPrivateHosts : List Text
  runtimeAllowedDevelopmentHosts : List Text

section

variable (platform : Platform)

/-! ## Inbound authentication -/

def verifierDigest (verifier : MCPTokenVerifierRecord) : Except Text StaticTokenDigest :=
  StaticTokenDigest.make platform.unicode (Text.ofUuid verifier.id) verifier.tokenHash verifier.expiresAt

def anyHttpUrl (text : Text) : Except Text Text :=
  obtain? (platform.urls.parse text) ("Input should be a valid URL" : Text)

/-- `metadata.get("jwks_url")`, which is a text or missing. -/
def jwksText (metadata : JsonObject) : Except Text (Option Text) :=
  match Json.get metadata "jwks_url" with
  | none | some .null => .ok none
  | some (.string url) => .ok (some url)
  | some _ => .error "OIDC JWKS URL is invalid"

def allowedAlgorithms (metadata : JsonObject) : Except Text (List Text) :=
  match Json.get metadata "allowed_algorithms" with
  | none => .ok ["RS256", "ES256"]
  | some (.array values) => values.mapM fun value => match value with
    | .string algorithm => .ok algorithm
    | _ => .error "OIDC algorithm allowlist is invalid"
  | some _ => .error "OIDC algorithm allowlist is invalid"

def materializeInboundAuth (hostname : Text) (config : Option MCPAuthConfigRecord)
    (verifiers : List MCPTokenVerifierRecord) (settings : Settings) : Except Text InboundAuthSecrets :=
  match (config.map MCPAuthConfigRecord.mode).getD .staticBearer, config with
  | .staticBearer, _ => do
    let staticTokens ← verifiers.mapM (verifierDigest platform)
    InboundAuthSecrets.make { mode := .staticBearer, staticTokens }
  | .disabledDev, _ => do
    ensure (!settings.isProduction) ("Unauthenticated MCP access is forbidden in production" : Text)
    InboundAuthSecrets.make { mode := .disabledDev }
  | .externalOauthOidc, none => .error "OIDC access configuration is incomplete"
  | .externalOauthOidc, some config => do
    ensure ((config.issuerUrl.getD []) ≠ []) ("OIDC access configuration is incomplete" : Text)
    let jwksText ← jwksText config.metadata
    let allowedAlgorithms ← allowedAlgorithms config.metadata
    let issuerUrl ← anyHttpUrl platform (config.issuerUrl.getD [])
    let jwksUrl ← jwksText.mapM (anyHttpUrl platform)
    let scheme : Text := if settings.traefikTls then "https" else "http"
    let resourceUrl ← anyHttpUrl platform (scheme ++ ("://" : Text) ++ hostname ++ ("/mcp" : Text))
    InboundAuthSecrets.make {
      mode := .externalOauthOidc
      issuerUrl := some issuerUrl
      jwksUrl
      resourceUrl := some resourceUrl
      audiences := config.audiences
      requiredScopes := config.requiredScopes
      allowedAlgorithms }

/-! ## Credentials -/

variable (decimal : Char → Option Nat)

/-- The credential reference of a required profile is entered in the dictionary of the references. -/
def addReference (manifest : MCPManifest) (references : List (Text × Uuid)) (profileId : Text) :
    Except Text (List (Text × Uuid)) := do
  let profile ← obtain? (manifest.profile? profileId) ("Manifest references an unknown authentication profile" : Text)
  if profile.type = .none then return references
  let reference := profile.credentialRef.getD []
  ensure (reference ≠ []) ("Manifest authentication profile has no credential reference" : Text)
  let credentialId ← obtain? (Text.uuid decimal reference)
    ("Manifest credential references must be immutable credential UUIDs" : Text)
  -- The same reference stands for the same identifier.
  return if (references.lookup reference).isSome then references else references ++ [(reference, credentialId)]

def credentialReferences (manifest : MCPManifest) : Except Text (List (Text × Uuid)) :=
  manifest.requiredProfileIds.foldlM (addReference decimal manifest) []

/-- The type of the credentials of a scheme. -/
def runtimeType : CredentialScheme → CredentialType
  | .bearer => .bearer
  | .apiKeyHeader | .apiKeyQuery => .apiKey
  | .basic => .basic
  | .oauth2ClientCredentials => .oauth2ClientCredentials
  | .staticHeaders => .staticHeader

/-- The location that an API key of the scheme has. -/
def requiredLocation : CredentialScheme → Option CredentialLocation
  | .apiKeyHeader => some .header
  | .apiKeyQuery => some .query
  | .bearer | .basic | .oauth2ClientCredentials | .staticHeaders => none

/-- The required profiles that use a credential reference. -/
def referencingProfiles (manifest : MCPManifest) (reference : Text) : List AuthProfile :=
  manifest.authProfiles.filter fun profile =>
    manifest.requiredProfileIds.contains profile.id && profile.credentialRef = some reference

def plainText : Json → Except Text Text
  | .string [] => .error "Deployment credential contains an invalid secret value"
  | .string text => .ok text
  | _ => .error "Deployment credential contains an invalid secret value"

def secretText (secret : JsonObject) (name : Text) : Except Text Text := do
  let value ← obtain? (Json.get secret name) ("Deployment credential is incomplete" : Text)
  plainText value

/-- `UpstreamCredential(...)` -/
def makeCredential (credential : UpstreamCredential) : Except Text UpstreamCredential := do
  credential.validateExactSecretShape platform.unicode
  return credential

/-- The names of the headers that the profiles expect, in lower case. -/
def expectedNames (profiles : List AuthProfile) : List Text :=
  (((profiles.filterMap AuthProfile.name).filter (· ≠ [])).map (Text.lower platform.unicode)).dedup

/-- The header of a name in lower case: the last one counts. -/
def availableByName (headers : JsonObject) (name : Text) : Option (Text × Json) :=
  headers.reverse.find? fun header => header.1.lower platform.unicode = name

/-- The header of an expected name, with its own spelling of the name. -/
def selectedHeader (headers : JsonObject) (name : Text) : Except Text (Text × Text) := do
  let header ← obtain? (availableByName platform headers name) ("Static-header deployment credential is incomplete" : Text)
  let value ← plainText header.2
  return (header.1, value)

def staticHeaders (profiles : List AuthProfile) (secret : JsonObject) : Except Text (List (Text × Text)) :=
  match Json.get secret "headers" with
  | some (.object headers) => do
    let expected := expectedNames platform profiles
    ensure (expected.all fun name => (availableByName platform headers name).isSome)
      ("Static-header deployment credential is incomplete" : Text)
    (Text.sorted expected).mapM (selectedHeader platform headers)
  | _ => .error "Static-header deployment credential is malformed"

/-- The secrets of a credential of a type. -/
def credentialOf (type : CredentialType) (profiles : List AuthProfile) (secret : JsonObject) :
    Except Text UpstreamCredential :=
  match type with
  | .bearer => do
    let token ← secretText secret "token"
    makeCredential platform { type := .bearer, token := some token }
  | .apiKey => do
    let value ← secretText secret "value"
    makeCredential platform { type := .apiKey, apiKey := some value }
  | .basic => do
    let username ← secretText secret "username"
    let password ← secretText secret "password"
    makeCredential platform { type := .basic, username := some username, password := some password }
  | .oauth2ClientCredentials => do
    let clientId ← secretText secret "client_id"
    let clientSecret ← secretText secret "client_secret"
    makeCredential platform
      { type := .oauth2ClientCredentials, clientId := some clientId, clientSecret := some clientSecret }
  | .staticHeader => do
    let headers ← staticHeaders platform profiles secret
    makeCredential platform { type := .staticHeader, headers := some headers }

/-- `_runtime_credential` -/
def runtimeCredential (manifest : MCPManifest) (reference : Text) (scheme : CredentialScheme) (secret : JsonObject) :
    Except Text UpstreamCredential := do
  let profiles := referencingProfiles manifest reference
  -- The types of the profiles are a set with this one element.
  ensure (!profiles.isEmpty && profiles.all fun profile => profile.type = (runtimeType scheme).authType)
    ("Deployment credential scheme does not match the manifest" : Text)
  ensure (!(runtimeType scheme = .apiKey && profiles.any fun profile => profile.location ≠ requiredLocation scheme))
    ("Deployment API-key location does not match the manifest" : Text)
  credentialOf platform (runtimeType scheme) profiles secret

/-! ## The bundle -/

/-- The hosts that the settings allow the runtime to reach. -/
def configuredHosts (settings : Settings) : NetworkPolicy where
  allowedPrivateHosts := settings.runtimeAllowedPrivateHosts
  allowedDevelopmentHosts := if settings.isProduction then [] else settings.runtimeAllowedDevelopmentHosts

/-- What a deployment reads of its project. -/
structure ProjectState where
  projectId : Uuid
  hostname : Text
  authConfig : Option MCPAuthConfigRecord
  tokenVerifiers : List MCPTokenVerifierRecord
  credentials : Table EncryptedCredential

variable (cipher : Cipher)

/-- The credential of a reference, with the decrypted secrets of all identifiers. -/
def upstreamCredential (manifest : MCPManifest) (decrypted : List (Uuid × CredentialScheme × JsonObject))
    (reference : Text × Uuid) : Except Text (Text × UpstreamCredential) := do
  let (scheme, secret) ← obtain? (decrypted.lookup reference.2) ("KeyError" : Text)
  let credential ← runtimeCredential platform manifest reference.1 scheme secret
  return (reference.1, credential)

def buildBundle (settings : Settings) (state : ProjectState) (manifest : MCPManifest) :
    Except Text RuntimeSecretBundle := do
  let references ← credentialReferences decimal manifest
  let decrypted ← decryptManyForExecution cipher state.credentials state.projectId (references.map Prod.snd).dedup
  let upstreamCredentials ← references.mapM (upstreamCredential platform manifest decrypted)
  let inboundAuth ← materializeInboundAuth platform state.hostname state.authConfig state.tokenVerifiers settings
  let networkPolicy ← NetworkPolicy.make platform (configuredHosts settings)
  validateCredentialReferences upstreamCredentials
  return { upstreamCredentials, inboundAuth, networkPolicy }

end

end Mcplica.Deployments
