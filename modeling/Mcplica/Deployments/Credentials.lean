import Mcplica.Domain.Shared
import Mcplica.Library.Table
import Mcplica.Contracts.RuntimeSecrets

/-! # Project credentials

The stored credentials of a project, what the credential service accepts as the secret of a scheme, and the
decryption for a deployment. -/

namespace Mcplica.Deployments

open Mcplica.Domain Mcplica.Library Mcplica.Contracts

inductive CredentialScheme where
  | bearer
  | apiKeyHeader
  | apiKeyQuery
  | basic
  | oauth2ClientCredentials
  | staticHeaders
  deriving Repr, DecidableEq

def CredentialScheme.value : CredentialScheme → Text
  | bearer => "bearer"
  | apiKeyHeader => "api_key_header"
  | apiKeyQuery => "api_key_query"
  | basic => "basic"
  | oauth2ClientCredentials => "oauth2_client_credentials"
  | staticHeaders => "static_headers"

/-- A row of the credentials: the record and the encrypted payload. -/
structure EncryptedCredential where
  id : Uuid
  projectId : Uuid
  schemeType : CredentialScheme
  keyVersion : Text
  metadata : JsonObject
  revokedAt : Option Instant
  encryptedPayload : List Nat

instance : Row EncryptedCredential Uuid := ⟨EncryptedCredential.id⟩

/-! ## Accepted secrets -/

def allowedMetadata (scheme : CredentialScheme) : List Text :=
  ("security_scheme" : Text) :: match scheme with
    | .apiKeyHeader | .apiKeyQuery => ["name"]
    | .oauth2ClientCredentials => ["scope", "token_auth_method"]
    | .bearer | .basic | .staticHeaders => []

/-- The fields of the secret of a scheme. -/
def expectedFields : CredentialScheme → List Text
  | .bearer => ["token"]
  | .apiKeyHeader | .apiKeyQuery => ["value"]
  | .basic => ["username", "password"]
  | .oauth2ClientCredentials => ["client_id", "client_secret"]
  | .staticHeaders => ["headers"]

/-- `isinstance(value, str)` and a condition on the text. -/
def isTextWith (valid : Text → Bool) : Json → Bool
  | .string text => valid text
  | _ => false

def textHas (value : Option Json) (holds : Text → Bool) : Bool :=
  value.any (isTextWith holds)

section

variable (unicode : Unicode)

def validateMetadata (scheme : CredentialScheme) (metadata : JsonObject) : Except Text Unit := do
  let unknown := (metadata.map Prod.fst).filter fun name => !(allowedMetadata scheme).contains name
  ensure unknown.isEmpty
    (("unexpected public credential metadata: " : Text) ++ Text.join ", " (Text.sorted unknown))
  forM metadata fun (name, value) =>
    ensure (isTextWith (fun text => Text.strip text ≠ [] && text.length ≤ 200 && !Text.includesAny text lineBreaks) value)
      (("credential metadata " : Text) ++ name ++ (" must be non-empty safe text" : Text))

def validateSecretFields (scheme : CredentialScheme) (secret : JsonObject) : Except Text Unit := do
  let required := expectedFields scheme
  let supplied := secret.map Prod.fst
  ensure (required.all supplied.contains)
    (scheme.value ++ (" credential requires: " : Text) ++ Text.join ", " (Text.sorted required))
  let unexpected := supplied.filter fun name => !required.contains name
  ensure unexpected.isEmpty
    (("unexpected secret fields for " : Text) ++ scheme.value ++ (": " : Text) ++ Text.join ", " (Text.sorted unexpected))
  forM (secret.filter fun field => field.1 ≠ ("headers" : Text)) fun (name, value) =>
    ensure (isTextWith (fun text => text ≠ [] && text.length ≤ 10000) value)
      (("credential field " : Text) ++ name ++ (" must be non-empty text" : Text))

/-- The field of a secret that becomes the value of a header. -/
def headerField : CredentialScheme → Option Text
  | .bearer => some "token"
  | .apiKeyHeader => some "value"
  | .apiKeyQuery | .basic | .oauth2ClientCredentials | .staticHeaders => none

def validateApiKeyName (scheme : CredentialScheme) (metadata : JsonObject) : Except Text Unit := do
  let name := Json.get metadata "name"
  ensure (textHas name fun name => Text.strip name ≠ []) ("API key credentials require non-secret metadata.name" : Text)
  ensure (scheme ≠ .apiKeyHeader ||
      textHas name fun name => isHeaderName name && !forbiddenAuthHeaders.contains (name.casefold unicode))
    ("API key header name is invalid or forbidden" : Text)

/-- `text.split()` -/
def words (text : Text) : List Text :=
  (text.splitOnP Text.isSpace).filter (· ≠ [])

def validateOauthMetadata (metadata : JsonObject) : Except Text Unit := do
  ensure ((Json.get metadata "token_auth_method").all (isTextWith fun method =>
      method = "client_secret_basic" || method = "client_secret_post"))
    ("OAuth token_auth_method is invalid" : Text)
  match Json.get metadata "scope" with
  | none | some .null => return ()
  | some (.string scope) => do
    let scopes := words scope
    ensure (scopes ≠ [] && decide scopes.Nodup && scopes.length ≤ 100)
      ("OAuth scope metadata must contain unique scope tokens" : Text)
    ensure (scopes.all fun scope => scope.length ≤ 200) ("OAuth scope metadata contains an invalid scope token" : Text)
  | some _ => .error "OAuth scope metadata must be text"

/-- The loop over the headers; it carries the names and the characters counted so far. -/
def validateStaticHeader (state : List Text × Nat) (header : Text × Json) : Except Text (List Text × Nat) := do
  let (names, total) := state
  let (rawName, rawValue) := header
  ensure (isHeaderName rawName) ("static credential header name is invalid" : Text)
  let name := rawName.casefold unicode
  ensure (!names.contains name) ("static credential header names must be unique ignoring case" : Text)
  ensure (!forbiddenAuthHeaders.contains name)
    (("static credential header " : Text) ++ rawName.repr unicode ++ (" is forbidden" : Text))
  match rawValue with
  | .string value => do
    ensure (value ≠ [] && value.length ≤ 10000 && !Text.includesAny value lineBreaks)
      ("static credential header values must be non-empty text" : Text)
    return (name :: names, total + value.length)
  | _ => .error "static credential header values must be non-empty text"

def validateStaticHeaders (secret : JsonObject) : Except Text Unit := do
  match Json.get secret "headers" with
  | some (.object headers) => do
    ensure (!headers.isEmpty) ("static_headers credentials require at least one header" : Text)
    ensure (headers.length ≤ 64) ("static_headers credentials exceed the header-count limit" : Text)
    let (_, total) ← headers.foldlM (validateStaticHeader unicode) ([], 0)
    ensure (total ≤ 100000) ("static_headers credentials exceed the total value-size limit" : Text)
  | _ => .error "static_headers credentials require at least one header"

def validateCredentialSecret (scheme : CredentialScheme) (secret metadata : JsonObject) : Except Text Unit := do
  validateMetadata scheme metadata
  validateSecretFields scheme secret
  ensure (!(scheme = .basic && textHas (Json.get secret "username") fun username => username.contains ':'))
    ("Basic-auth usernames cannot contain a colon" : Text)
  forM (headerField scheme).toList fun field =>
    ensure (!(textHas (Json.get secret field) fun value => Text.includesAny value lineBreaks))
      (("credential field " : Text) ++ field ++ (" contains unsafe characters" : Text))
  match scheme with
  | .apiKeyHeader | .apiKeyQuery => validateApiKeyName unicode scheme metadata
  | .oauth2ClientCredentials => validateOauthMetadata metadata
  | .staticHeaders => validateStaticHeaders unicode secret
  | .bearer | .basic => return ()

end

/-! ## Decryption -/

/-- `decrypt_json` of a stored payload, with its key version and the associated data of its row. -/
abbrev Cipher := EncryptedCredential → Except Text JsonObject

/-- `get_encrypted_many` -/
def getEncryptedMany (credentials : Table EncryptedCredential) (projectId : Uuid) (credentialIds : List Uuid) :
    List EncryptedCredential :=
  credentials.rows.filter fun credential => credential.projectId = projectId && credentialIds.contains credential.id

def decryptCredential (cipher : Cipher) (credential : EncryptedCredential) :
    Except Text (Uuid × CredentialScheme × JsonObject) := do
  ensure credential.revokedAt.isNone ("A required deployment credential is revoked" : Text)
  let secret ← cipher credential
  return (credential.id, credential.schemeType, secret)

/-- The identifiers are those of a set, each once. -/
def decryptManyForExecution (cipher : Cipher) (credentials : Table EncryptedCredential) (projectId : Uuid)
    (credentialIds : List Uuid) : Except Text (List (Uuid × CredentialScheme × JsonObject)) := do
  let encrypted := getEncryptedMany credentials projectId credentialIds
  ensure (encrypted.length = credentialIds.length) ("A required deployment credential was not found" : Text)
  encrypted.mapM (decryptCredential cipher)

end Mcplica.Deployments
