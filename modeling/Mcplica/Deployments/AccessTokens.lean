import Mcplica.Deployments.SecretAgreement
import Mcplica.Compilers.Compiler

/-! # Inbound access

`MCPAccessService` and its repository: the access configurations of the projects and their static tokens, of which only
the digests are stored. Each action reads its own clock, and nothing orders the clocks of two actions. -/

namespace Mcplica.Deployments

open Mcplica.Domain Mcplica.Library Mcplica.Contracts Mcplica.Compilers

namespace Access

/-- `datetime.now(UTC)` at an instant in microseconds. -/
def utc (now : Instant) : DateTime :=
  ⟨now, some 0⟩

structure MCPAccessToken where
  id : Uuid
  projectId : Uuid
  name : Text
  tokenPrefix : Text
  tokenHash : Text
  expiresAt : Option DateTime
  revokedAt : Option DateTime := none
  deriving DecidableEq

instance : Row MCPAccessToken Uuid where
  key := MCPAccessToken.id

/-- The condition of `active_verifiers` when the clock of the database shows `clock`. -/
def MCPAccessToken.activeAt (token : MCPAccessToken) (clock : Instant) : Bool :=
  token.revokedAt.isNone && token.expiresAt.all fun expires => decide (clock < expires.instant)

/-- The rows of the audit trail that the service appends. -/
inductive AccessEvent where
  | authModeUpdated (projectId : Uuid) (mode : InboundAuthMode)
  | tokenCreated (tokenId : Uuid) (name : Text)
  | tokenRotated (tokenId replacedTokenId : Uuid) (overlapSeconds : Int)
  | tokenRevoked (tokenId : Uuid)
  deriving DecidableEq

structure AccessStore where
  /-- The projects with their host names. -/
  hostnames : Uuid → Option Text
  configs : Uuid → Option MCPAuthConfigRecord
  tokens : Table MCPAccessToken
  audit : List AccessEvent

/-- A project is created elsewhere. -/
def AccessStore.addProject (store : AccessStore) (projectId : Uuid) (hostname : Text) : AccessStore :=
  { store with hostnames := fun id => if id = projectId then some ((store.hostnames id).getD hostname) else store.hostnames id }

/-- What `uuid4` and `secrets.token_urlsafe(32)` return. -/
structure TokenDraw where
  tokenId : Uuid
  isUuid : tokenId < 2 ^ 128
  secret : Text

structure IssuedMCPAccessToken where
  token : MCPAccessToken
  plaintext : Text

/-! ## Configurations -/

section

variable (unicode : Unicode) (settings : Settings)

def normalizeValue (label : String) (value : Text) : Except McplicaError Text := do
  let item := Text.strip value
  require (item ≠ [] && item.length ≤ 512 && !Text.includesAny item lineBreaks) .validation
    (label ++ " values are invalid")
  return item

/-- `_normalize_values` -/
def normalizeValues (values : List Text) (label : String) (limit : Nat) : Except McplicaError (List Text) := do
  let normalized ← distinctResults (normalizeValue label) values
  require (decide (normalized.length ≤ limit)) .validation ("Too many " ++ label ++ " values")
  return Text.sorted normalized

/-- `_validate_oidc_url` -/
def validateOidcUrl (value : Text) (label : String) : Except McplicaError Unit := do
  -- What `urlsplit` refuses is a `ValueError` that nothing turns into an answer.
  let parsed ← orRaise (urlsplit unicode value) .validation "Invalid URL"
  require (parsed.port ≠ .invalid) .validation ("OIDC " ++ label ++ " URL is invalid")
  require ((parsed.scheme = ("http" : Text) || parsed.scheme = ("https" : Text)) &&
      (parsed.hostname unicode).any (· ≠ []) && parsed.username.all (· = []) && parsed.password.all (· = []) &&
      parsed.query = [] && parsed.fragment = [] && value.length ≤ 2048) .validation
    ("OIDC " ++ label ++ " URL is invalid")
  require (!settings.isProduction || parsed.scheme = ("https" : Text)) .validation
    ("Production OIDC " ++ label ++ " URL must use HTTPS")

def permitted : List Text :=
  ["RS256", "RS384", "RS512", "PS256", "PS384", "PS512", "ES256", "ES384", "ES512", "EdDSA"].map String.toList

def algorithmName : Json → Except McplicaError Text
  | .string algorithm => .ok algorithm
  | _ => raise .validation "OIDC algorithms must be an asymmetric allowlist"

def rawAlgorithms (metadata : JsonObject) : Except McplicaError (List Text) :=
  match Json.get metadata "allowed_algorithms" with
  | none => .ok ["RS256", "ES256"]
  | some (.array values) => values.mapM algorithmName
  | some _ => raise .validation "OIDC algorithms must be an asymmetric allowlist"

/-- The names under `allowed_algorithms`, checked. -/
def validAlgorithms (metadata : JsonObject) : Except McplicaError (List Text) := do
  let algorithms ← rawAlgorithms metadata
  require (algorithms ≠ [] && algorithms.all permitted.contains) .validation
    "OIDC algorithms must be an asymmetric allowlist"
  return algorithms

def validateJwksUrl (metadata : JsonObject) : Except McplicaError Unit :=
  match Json.get metadata "jwks_url" with
  | none | some .null => .ok ()
  | some (.string url) => validateOidcUrl unicode settings url "JWKS"
  | some _ => raise .validation "OIDC JWKS URL is invalid"

/-- `_validate_auth_configuration`, and the metadata that is stored. -/
def validateAuthConfiguration (config : MCPAuthConfigRecord) : Except McplicaError JsonObject := do
  require (config.metadata.all fun field => field.1 = ("jwks_url" : Text) || field.1 = ("allowed_algorithms" : Text))
    .validation "OIDC metadata contains unsupported fields"
  require (!(config.mode = .disabledDev && settings.isProduction)) .invalidState
    "Unauthenticated MCP access is forbidden in production"
  match config.mode with
  | .externalOauthOidc => do
    require ((config.issuerUrl.getD []) ≠ [] && config.audiences ≠ []) .validation
      "OIDC mode requires an issuer URL and audience"
    validateOidcUrl unicode settings (config.issuerUrl.getD []) "issuer"
    let algorithms ← validAlgorithms config.metadata
    validateJwksUrl unicode settings config.metadata
    return Json.set config.metadata "allowed_algorithms" (.array ((Text.sorted algorithms.dedup).map .string))
  | .staticBearer | .disabledDev => do
    require ((config.issuerUrl.getD []) = [] && config.audiences = [] && config.requiredScopes = [] &&
        config.metadata.isEmpty) .validation "Only OIDC mode accepts issuer, audience, scope, or metadata"
    return config.metadata

/-- The configuration that `configure` stores for the one it is given. -/
def checkedConfiguration (config : MCPAuthConfigRecord) : Except McplicaError MCPAuthConfigRecord := do
  let audiences ← normalizeValues config.audiences "OIDC audience" 50
  let requiredScopes ← normalizeValues config.requiredScopes "OIDC scope" 100
  let config := { config with audiences, requiredScopes }
  let metadata ← validateAuthConfiguration unicode settings config
  return { config with metadata }

end

/-! ## The repository -/

namespace AccessStore

def activeVerifiers (store : AccessStore) (projectId : Uuid) (clock : Instant) : List MCPTokenVerifierRecord :=
  (store.tokens.rows.filter fun token => decide (token.projectId = projectId) && token.activeAt clock).map fun token =>
    ⟨token.id, token.tokenHash, token.expiresAt⟩

def write (store : AccessStore) (tokenId : Uuid) (values : MCPAccessToken → MCPAccessToken)
    (keeps : ∀ token, (values token).id = token.id := by intro _; rfl) : AccessStore :=
  { store with
    tokens := store.tokens.update (fun token => decide (token.id = tokenId) && token.revokedAt.isNone) values keeps }

def expireForRotation (store : AccessStore) (tokenId : Uuid) (expiresAt : DateTime) (revokeImmediately : Bool) :
    AccessStore :=
  store.write tokenId ({ · with
    expiresAt := some expiresAt
    revokedAt := if revokeImmediately then some expiresAt else none })

def revoke (store : AccessStore) (tokenId : Uuid) (revokedAt : DateTime) : AccessStore :=
  store.write tokenId ({ · with revokedAt := some revokedAt, expiresAt := some revokedAt })

/-- The identifier and the digest of a token are unique. -/
def insertToken (store : AccessStore) (token : MCPAccessToken) : Except McplicaError AccessStore := do
  require (!store.tokens.exists_ fun other => decide (other.tokenHash = token.tokenHash)) .conflict
    "duplicate key value violates unique constraint"
  let tokens ← orRaise (store.tokens.insert token) .conflict "duplicate key value violates unique constraint"
  return { store with tokens }

def upsertConfig (store : AccessStore) (projectId : Uuid) (config : MCPAuthConfigRecord) : AccessStore :=
  { store with configs := fun id => if id = projectId then some config else store.configs id }

def append (store : AccessStore) (event : AccessEvent) : AccessStore :=
  { store with audit := store.audit ++ [event] }

/-! ## The service -/

section

variable (platform : Platform) (settings : Settings)

/-- The inbound authentication can be materialized, so that `_schedule_security_effect` does not stop the project. -/
def safelyServable (store : AccessStore) (projectId : Uuid) (clock : Instant) : Bool :=
  match store.hostnames projectId, store.configs projectId with
  | some hostname, some config =>
    (materializeInboundAuth platform hostname (some config) (store.activeVerifiers projectId clock) settings).isOk
  | _, _ => false

/-- The end of a transaction: the commands of the runtime are scheduled, which may raise. -/
def scheduleSecurityEffect (store : AccessStore) (projectId : Uuid) (clock : Instant)
    (schedule : Bool → Except McplicaError Unit) : Except McplicaError Unit :=
  schedule (store.safelyServable platform settings projectId clock)

def lockProject (store : AccessStore) (projectId : Uuid) : Except McplicaError Text :=
  orRaise (store.hostnames projectId) .notFound "Project was not found"

def requireStaticMode (store : AccessStore) (projectId : Uuid) : Except McplicaError Unit :=
  require ((store.configs projectId).all fun config => decide (config.mode = .staticBearer)) .invalidState
    "Static access tokens require static bearer auth mode"

def currentToken (store : AccessStore) (projectId tokenId : Uuid) : Except McplicaError MCPAccessToken := do
  let current ← orRaise (store.tokens.get? tokenId) .notFound "MCP access token was not found"
  require (decide (current.projectId = projectId)) .notFound "MCP access token was not found"
  return current

def configure (store : AccessStore) (projectId : Uuid) (config : MCPAuthConfigRecord) (clock : Instant)
    (schedule : Bool → Except McplicaError Unit) : Except McplicaError (AccessStore × Option IssuedMCPAccessToken) := do
  let config ← checkedConfiguration platform.unicode settings config
  let _ ← store.lockProject projectId
  let store := (store.upsertConfig projectId config).append (.authModeUpdated projectId config.mode)
  store.scheduleSecurityEffect platform settings projectId clock schedule
  return (store, none)

/-! ### Tokens -/

variable (hashing : Hashing)

/-- What the column `token_hash` holds for a token. -/
def tokenHash (token : Text) : Text :=
  ("sha256:" : Text) ++ (hashing.ofText token).hexdigest

def issueToken (store : AccessStore) (projectId : Uuid) (name : Text) (expiresAt : Option DateTime) (draw : TokenDraw) :
    Except McplicaError (AccessStore × IssuedMCPAccessToken) := do
  let normalizedName := Text.strip name
  require (normalizedName ≠ [] && normalizedName.length ≤ 160 && !Text.includesAny normalizedName lineBreaks) .validation
    "Token name must contain 1 to 160 characters"
  let plaintext := ("mcp_" : Text) ++ draw.secret
  let token : MCPAccessToken := {
    id := draw.tokenId
    projectId
    name := normalizedName
    tokenPrefix := plaintext.take 12
    tokenHash := tokenHash hashing plaintext
    expiresAt }
  let store ← store.insertToken token
  return (store, ⟨token, plaintext⟩)

def createToken (store : AccessStore) (projectId : Uuid) (name : Text) (expiresAt : Option DateTime)
    (now clock : Instant) (draw : TokenDraw) (schedule : Bool → Except McplicaError Unit) :
    Except McplicaError (AccessStore × Option IssuedMCPAccessToken) := do
  require (expiresAt.all fun expires => expires.offset.isSome && decide (now < expires.instant)) .validation
    "Token expiration must be a future timezone-aware value"
  let _ ← store.lockProject projectId
  store.requireStaticMode projectId
  let (store, issued) ← store.issueToken hashing projectId name expiresAt draw
  let store := store.append (.tokenCreated issued.token.id issued.token.name)
  store.scheduleSecurityEffect platform settings projectId clock schedule
  return (store, some issued)

/-- `min(expires_at, current.expires_at)`, where the token expires at all. -/
def rotationExpiry (now : Instant) (overlapSeconds : Int) (current : Option DateTime) : DateTime :=
  let expiresAt := utc (now + overlapSeconds * 1000000)
  match current with
  | none => expiresAt
  | some expires => if expires.instant < expiresAt.instant then expires else expiresAt

def rotateToken (store : AccessStore) (projectId tokenId : Uuid) (overlapSeconds : Int) (now clock : Instant)
    (draw : TokenDraw) (schedule : Bool → Except McplicaError Unit) :
    Except McplicaError (AccessStore × Option IssuedMCPAccessToken) := do
  require (decide (0 ≤ overlapSeconds) && decide (overlapSeconds ≤ 900)) .validation
    "Token rotation overlap must be between 0 and 900 seconds"
  let _ ← store.lockProject projectId
  store.requireStaticMode projectId
  let current ← store.currentToken projectId tokenId
  require current.revokedAt.isNone .invalidState "Revoked MCP access tokens cannot be rotated"
  require (current.expiresAt.all fun expires => decide (now < expires.instant)) .invalidState
    "Expired MCP access tokens cannot be rotated"
  let store := store.expireForRotation tokenId (rotationExpiry now overlapSeconds current.expiresAt)
    (decide (overlapSeconds = 0))
  let (store, issued) ← store.issueToken hashing projectId current.name current.expiresAt draw
  let store := store.append (.tokenRotated issued.token.id tokenId overlapSeconds)
  store.scheduleSecurityEffect platform settings projectId clock schedule
  return (store, some issued)

def revokeToken (store : AccessStore) (projectId tokenId : Uuid) (now clock : Instant)
    (schedule : Bool → Except McplicaError Unit) : Except McplicaError (AccessStore × Option IssuedMCPAccessToken) := do
  let _ ← store.lockProject projectId
  let current ← store.currentToken projectId tokenId
  if current.revokedAt.isSome then
    return (store, none)
  else
    let store := (store.revoke tokenId (utc now)).append (.tokenRevoked tokenId)
    store.scheduleSecurityEffect platform settings projectId clock schedule
    return (store, none)

/-! ## Runs -/

inductive AccessAction where
  | addProject (projectId : Uuid) (hostname : Text)
  | configure (projectId : Uuid) (config : MCPAuthConfigRecord) (clock : Instant)
      (schedule : Bool → Except McplicaError Unit)
  | createToken (projectId : Uuid) (name : Text) (expiresAt : Option DateTime) (now clock : Instant) (draw : TokenDraw)
      (schedule : Bool → Except McplicaError Unit)
  | rotateToken (projectId tokenId : Uuid) (overlapSeconds : Int) (now clock : Instant) (draw : TokenDraw)
      (schedule : Bool → Except McplicaError Unit)
  | revokeToken (projectId tokenId : Uuid) (now clock : Instant) (schedule : Bool → Except McplicaError Unit)

def transact (store : AccessStore) : AccessAction → Except McplicaError (AccessStore × Option IssuedMCPAccessToken)
  | .addProject projectId hostname => .ok (store.addProject projectId hostname, none)
  | .configure projectId config clock schedule => store.configure platform settings projectId config clock schedule
  | .createToken projectId name expiresAt now clock draw schedule =>
    store.createToken platform settings hashing projectId name expiresAt now clock draw schedule
  | .rotateToken projectId tokenId overlapSeconds now clock draw schedule =>
    store.rotateToken platform settings hashing projectId tokenId overlapSeconds now clock draw schedule
  | .revokeToken projectId tokenId now clock schedule =>
    store.revokeToken platform settings projectId tokenId now clock schedule

/-- A transaction that raises is rolled back. -/
def step (store : AccessStore) (action : AccessAction) : AccessStore :=
  commit store ((store.transact platform settings hashing action).map Prod.fst)

end

/-! ## Heirs -/

/-- The token that replaces one of the given tokens is one of them from then on. -/
def withHeir (tokenIds : List Uuid) : AccessEvent → List Uuid
  | .tokenRotated tokenId replacedTokenId _ => if replacedTokenId ∈ tokenIds then tokenIds ++ [tokenId] else tokenIds
  | _ => tokenIds

/-- The tokens that rotations put in the place of the given ones, with these. -/
def heirs (events : List AccessEvent) (tokenIds : List Uuid) : List Uuid :=
  events.foldl withHeir tokenIds

@[simp] theorem heirs_append (events later : List AccessEvent) (tokenIds : List Uuid) :
    heirs (events ++ later) tokenIds = heirs later (heirs events tokenIds) :=
  List.foldl_append

/-- A row that a later state holds for the same token: it is active at no further time, and revoked for good. -/
structure Narrows (row old : MCPAccessToken) : Prop where
  sameId : row.id = old.id
  sameProject : row.projectId = old.projectId
  sameName : row.name = old.name
  samePrefix : row.tokenPrefix = old.tokenPrefix
  sameHash : row.tokenHash = old.tokenHash
  narrower : ∀ clock, row.activeAt clock = true → old.activeAt clock = true
  final : old.revokedAt.isSome = true → row = old

theorem Narrows.refl (row : MCPAccessToken) : Narrows row row :=
  ⟨rfl, rfl, rfl, rfl, rfl, fun _ active => active, fun _ => rfl⟩

theorem Narrows.trans {first second third : MCPAccessToken} (later : Narrows first second) (earlier : Narrows second third) :
    Narrows first third where
  sameId := later.sameId.trans earlier.sameId
  sameProject := later.sameProject.trans earlier.sameProject
  sameName := later.sameName.trans earlier.sameName
  samePrefix := later.samePrefix.trans earlier.samePrefix
  sameHash := later.sameHash.trans earlier.sameHash
  narrower clock active := earlier.narrower clock (later.narrower clock active)
  final revoked := by
    have unchanged := earlier.final revoked
    rw [later.final (unchanged ▸ revoked), unchanged]

theorem activeAt_iff {token : MCPAccessToken} {clock : Instant} :
    token.activeAt clock = true ↔
      token.revokedAt = none ∧ ∀ expires, token.expiresAt = some expires → clock < expires.instant := by
  simp only [MCPAccessToken.activeAt, Bool.and_eq_true, Option.isNone_iff_eq_none, Option.all_eq_true, decide_eq_true_eq]

/-- A rotation does not move the expiration of a token to a later time. -/
theorem rotationExpiry_le {now : Instant} {overlapSeconds : Int} {current : Option DateTime} :
    (rotationExpiry now overlapSeconds current).instant ≤ now + overlapSeconds * 1000000 ∧
      ∀ expires, current = some expires → (rotationExpiry now overlapSeconds current).instant ≤ expires.instant := by
  cases current with
  | none => exact ⟨le_refl _, fun expires given => by cases given⟩
  | some expires =>
    by_cases earlier : expires.instant < (utc (now + overlapSeconds * 1000000)).instant
    · have kept : rotationExpiry now overlapSeconds (some expires) = expires := if_pos earlier
      rw [kept]
      refine ⟨le_of_lt earlier, fun other same => ?_⟩
      cases same
      exact le_refl _
    · have shortened : rotationExpiry now overlapSeconds (some expires) = utc (now + overlapSeconds * 1000000) :=
        if_neg earlier
      rw [shortened]
      refine ⟨le_refl _, fun other same => ?_⟩
      cases same
      exact not_lt.mp earlier

section

variable {store : AccessStore} {tokenId : Uuid}

/-- A token that is written stays in the table. -/
theorem exists_of_write {values : MCPAccessToken → MCPAccessToken} {keeps}
    (narrows : ∀ old ∈ store.tokens, old.id = tokenId → old.revokedAt = none → Narrows (values old) old) :
    ∀ old ∈ store.tokens, ∃ row ∈ (store.write tokenId values keeps).tokens, Narrows row old := by
  intro old member
  refine ⟨_, Table.mem_update_of_mem member keeps, ?_⟩
  split
  · rename_i selected
    simp only [Bool.and_eq_true, decide_eq_true_eq, Option.isNone_iff_eq_none] at selected
    exact narrows old member selected.1 selected.2
  · exact Narrows.refl old

theorem exists_of_expireForRotation {now : Instant} {overlapSeconds : Int} {current : MCPAccessToken}
    (isCurrent : current ∈ store.tokens) {immediately : Bool} :
    ∀ old ∈ store.tokens, ∃ row ∈ (store.expireForRotation current.id
      (rotationExpiry now overlapSeconds current.expiresAt) immediately).tokens, Narrows row old := by
  refine exists_of_write fun old member same unrevoked => ?_
  obtain rfl : old = current := Table.eq_of_key member isCurrent same
  refine ⟨rfl, rfl, rfl, rfl, rfl, fun clock active => ?_, fun revoked => by rw [unrevoked] at revoked; cases revoked⟩
  obtain ⟨-, before⟩ := activeAt_iff.mp active
  refine activeAt_iff.mpr ⟨unrevoked, fun expires given => ?_⟩
  exact lt_of_lt_of_le (before _ rfl) (rotationExpiry_le.2 expires given)

theorem exists_of_revoke {revokedAt : DateTime} :
    ∀ old ∈ store.tokens, ∃ row ∈ (store.revoke tokenId revokedAt).tokens, Narrows row old := by
  refine exists_of_write fun old member same unrevoked => ?_
  refine ⟨rfl, rfl, rfl, rfl, rfl, fun clock active => ?_, fun revoked => by rw [unrevoked] at revoked; cases revoked⟩
  have revoked := (activeAt_iff.mp active).1
  cases revoked

end

/-! ## What a transaction does -/

section

variable {platform : Platform} {settings : Settings} {hashing : Hashing} {store next : AccessStore}

/-- The row that a draw adds to the table. -/
structure Issued (hashing : Hashing) (store : AccessStore) (projectId : Uuid) (name : Text) (expiresAt : Option DateTime)
    (draw : TokenDraw) (next : AccessStore) (issued : IssuedMCPAccessToken) : Prop where
  plaintext : issued.plaintext = ("mcp_" : Text) ++ draw.secret
  token : issued.token = {
    id := draw.tokenId
    projectId
    name := Text.strip name
    tokenPrefix := issued.plaintext.take 12
    tokenHash := tokenHash hashing issued.plaintext
    expiresAt }
  unused : ∀ other ∈ store.tokens, other.tokenHash ≠ issued.token.tokenHash
  inserted : ∃ tokens, store.tokens.insert issued.token = some tokens ∧ next = { store with tokens }

theorem issued_of_issueToken {projectId : Uuid} {name : Text} {expiresAt : Option DateTime} {draw : TokenDraw}
    {issued : IssuedMCPAccessToken}
    (ran : store.issueToken hashing projectId name expiresAt draw = .ok (next, issued)) :
    Issued hashing store projectId name expiresAt draw next issued := by
  simp only [issueToken, insertToken, bind_eq_ok, require_eq_ok, orRaise_eq_ok, exists_const] at ran
  obtain ⟨-, inserted, ⟨unused, tokens, isInserted, same⟩, isIssued⟩ := ran
  cases same
  cases isIssued
  refine ⟨rfl, rfl, fun other member sameHash => ?_, tokens, isInserted, rfl⟩
  rw [Bool.not_eq_true', Table.exists_eq_false] at unused
  simpa [sameHash] using unused other member

/-- What a committed transaction did. -/
inductive Change (platform : Platform) (settings : Settings) (hashing : Hashing) (store next : AccessStore) : Prop where
  | kept (same : next = store)
  | projectAdded (projectId : Uuid) (hostname : Text) (added : next = store.addProject projectId hostname)
  | configured (projectId : Uuid) (given config : MCPAuthConfigRecord)
      (checked : checkedConfiguration platform.unicode settings given = .ok config)
      (written : next = (store.upsertConfig projectId config).append (.authModeUpdated projectId config.mode))
  | created (projectId : Uuid) (name : Text) (expiresAt : Option DateTime) (draw : TokenDraw) (added : AccessStore)
      (issued : IssuedMCPAccessToken)
      (zoned : expiresAt.all (fun expires => expires.offset.isSome) = true)
      (isIssued : Issued hashing store projectId name expiresAt draw added issued)
      (written : next = added.append (.tokenCreated issued.token.id issued.token.name))
  | rotated (now : Instant) (overlapSeconds : Int) (current : MCPAccessToken) (draw : TokenDraw) (added : AccessStore)
      (issued : IssuedMCPAccessToken) (member : current ∈ store.tokens) (unrevoked : current.revokedAt = none)
      (isIssued : Issued hashing
        (store.expireForRotation current.id (rotationExpiry now overlapSeconds current.expiresAt)
          (decide (overlapSeconds = 0)))
        current.projectId current.name current.expiresAt draw added issued)
      (written : next = added.append (.tokenRotated issued.token.id current.id overlapSeconds))
  | revoked (now : Instant) (current : MCPAccessToken) (member : current ∈ store.tokens)
      (unrevoked : current.revokedAt = none)
      (written : next = (store.revoke current.id (utc now)).append (.tokenRevoked current.id))

theorem currentToken_eq_ok {projectId tokenId : Uuid} {current : MCPAccessToken} :
    store.currentToken projectId tokenId = .ok current ↔
      current ∈ store.tokens ∧ current.id = tokenId ∧ current.projectId = projectId := by
  simp only [currentToken, bind_eq_ok, orRaise_eq_ok, require_eq_ok, decide_eq_true_eq, exists_const, Table.get?_eq_some]
  constructor
  · rintro ⟨found, ⟨member, isKey⟩, isProject, same⟩
    cases same
    exact ⟨member, isKey, isProject⟩
  · rintro ⟨member, isKey, isProject⟩
    exact ⟨current, ⟨member, isKey⟩, isProject, rfl⟩

theorem rotateToken_eq_ok {projectId tokenId : Uuid} {overlapSeconds : Int} {now clock : Instant} {draw : TokenDraw}
    {schedule : Bool → Except McplicaError Unit} {result : Option IssuedMCPAccessToken}
    (ran : store.rotateToken platform settings hashing projectId tokenId overlapSeconds now clock draw schedule =
      .ok (next, result)) :
    ∃ current added issued, current ∈ store.tokens ∧ current.id = tokenId ∧ current.revokedAt = none ∧
      Issued hashing
        (store.expireForRotation current.id (rotationExpiry now overlapSeconds current.expiresAt)
          (decide (overlapSeconds = 0)))
        current.projectId current.name current.expiresAt draw added issued ∧
      next = added.append (.tokenRotated issued.token.id current.id overlapSeconds) := by
  simp only [rotateToken, bind_eq_ok, require_eq_ok, exists_const, currentToken_eq_ok] at ran
  obtain ⟨-, -, -, -, -, current, ⟨member, rfl, rfl⟩, unrevoked, -, ⟨added, issued⟩, isIssued, -, -, same⟩ := ran
  cases same
  exact ⟨current, added, issued, member, rfl, Option.isNone_iff_eq_none.mp unrevoked, issued_of_issueToken isIssued, rfl⟩

theorem change_of_transact {action : AccessAction} {issued : Option IssuedMCPAccessToken}
    (ran : store.transact platform settings hashing action = .ok (next, issued)) :
    Change platform settings hashing store next := by
  cases action with
  | addProject projectId hostname =>
    cases ran
    exact .projectAdded projectId hostname rfl
  | configure projectId given clock schedule =>
    simp only [transact, configure, bind_eq_ok] at ran
    obtain ⟨config, checked, -, -, -, -, same⟩ := ran
    cases same
    exact .configured projectId given config checked rfl
  | createToken projectId name expiresAt now clock draw schedule =>
    simp only [transact, createToken, bind_eq_ok, require_eq_ok, exists_const] at ran
    obtain ⟨future, -, -, -, -, ⟨added, issued⟩, isIssued, -, -, same⟩ := ran
    cases same
    refine .created projectId name expiresAt draw added issued ?_ (issued_of_issueToken isIssued) rfl
    cases expiresAt with
    | none => rfl
    | some expires => exact (Bool.and_eq_true _ _ ▸ future).1
  | rotateToken projectId tokenId overlapSeconds now clock draw schedule =>
    obtain ⟨current, added, issued, member, -, unrevoked, isIssued, written⟩ := rotateToken_eq_ok ran
    exact .rotated now overlapSeconds current draw added issued member unrevoked isIssued written
  | revokeToken projectId tokenId now clock schedule =>
    simp only [transact, revokeToken, bind_eq_ok, currentToken_eq_ok] at ran
    obtain ⟨-, -, current, ⟨member, rfl, -⟩, ran⟩ := ran
    split at ran
    · cases ran
      exact .kept rfl
    · rename_i unrevoked
      simp only [bind_eq_ok] at ran
      obtain ⟨-, -, same⟩ := ran
      cases same
      exact .revoked now current member (by simpa using unrevoked) rfl

/-- The row that replaces a rotated token is active when that one was. -/
structure Replaces (row current : MCPAccessToken) : Prop where
  sameProject : row.projectId = current.projectId
  narrower : ∀ clock, row.activeAt clock = true → current.activeAt clock = true

theorem Issued.mem {projectId : Uuid} {name : Text} {expiresAt : Option DateTime} {draw : TokenDraw}
    {issued : IssuedMCPAccessToken} (isIssued : Issued hashing store projectId name expiresAt draw next issued)
    {row : MCPAccessToken} : row ∈ next.tokens ↔ row ∈ store.tokens ∨ row = issued.token := by
  obtain ⟨tokens, inserted, rfl⟩ := isIssued.inserted
  exact Table.mem_insert inserted

/-- The step lemma: every token stays, and the token that an event names as an heir replaces the one it inherits from. -/
theorem Change.heirs (change : Change platform settings hashing store next) :
    ∃ events, next.audit = store.audit ++ events ∧ (∀ old ∈ store.tokens, ∃ row ∈ next.tokens, Narrows row old) ∧
      ∀ tokenIds, ∀ heir ∈ heirs events tokenIds, heir ∈ tokenIds ∨
        ∃ current ∈ store.tokens, current.id ∈ tokenIds ∧ ∃ row ∈ next.tokens, row.id = heir ∧ Replaces row current := by
  cases change with
  | kept same =>
    cases same
    exact ⟨[], (List.append_nil _).symm, fun old member => ⟨old, member, Narrows.refl old⟩, fun _ _ member => .inl member⟩
  | projectAdded projectId hostname added =>
    cases added
    exact ⟨[], (List.append_nil _).symm, fun old member => ⟨old, member, Narrows.refl old⟩, fun _ _ member => .inl member⟩
  | configured projectId given config checked written =>
    cases written
    exact ⟨_, rfl, fun old member => ⟨old, member, Narrows.refl old⟩, fun _ _ member => .inl member⟩
  | created projectId name expiresAt draw added issued zoned isIssued written =>
    cases written
    have sameAudit : added.audit = store.audit := by
      obtain ⟨_, -, rfl⟩ := isIssued.inserted
      rfl
    refine ⟨_, congrArg (· ++ _) sameAudit, fun old member => ?_, fun _ _ member => .inl member⟩
    exact ⟨old, isIssued.mem.mpr (.inl member), Narrows.refl old⟩
  | rotated now overlapSeconds current draw added issued isCurrent unrevoked isIssued written =>
    cases written
    have sameAudit : added.audit = store.audit := by
      obtain ⟨_, -, rfl⟩ := isIssued.inserted
      rfl
    refine ⟨_, congrArg (· ++ _) sameAudit, fun old member => ?_, fun tokenIds heir member => ?_⟩
    · obtain ⟨row, isRow, narrows⟩ := exists_of_expireForRotation isCurrent old member
      exact ⟨row, isIssued.mem.mpr (.inl isRow), narrows⟩
    · simp only [AccessStore.heirs, List.foldl_cons, List.foldl_nil, withHeir] at member
      split at member
      · rename_i inherits
        rcases List.mem_append.mp member with old | isNew
        · exact .inl old
        · refine .inr ⟨current, isCurrent, inherits, issued.token, isIssued.mem.mpr (.inr rfl),
            (List.mem_singleton.mp isNew).symm, ?_, fun clock active => ?_⟩
          · rw [isIssued.token]
          · rw [isIssued.token] at active
            exact activeAt_iff.mpr ⟨unrevoked, (activeAt_iff.mp active).2⟩
      · exact .inl member
  | revoked now current isCurrent unrevoked written =>
    cases written
    exact ⟨_, rfl, exists_of_revoke, fun _ _ member => .inl member⟩

theorem change_of_step (action : AccessAction) :
    Change platform settings hashing store (store.step platform settings hashing action) := by
  unfold step
  cases ran : store.transact platform settings hashing action with
  | error error => exact .kept rfl
  | ok result => exact change_of_transact ran

/-! ## Every run -/

theorem narrows_of_run {token : MCPAccessToken} (member : token ∈ store.tokens) (actions : List AccessAction) :
    ∃ row ∈ (run (step platform settings hashing) store actions).tokens, Narrows row token := by
  refine run_invariant (fun next : AccessStore => ∃ row ∈ next.tokens, Narrows row token) ?_
    ⟨token, member, Narrows.refl token⟩ actions
  rintro state action ⟨row, isRow, narrows⟩
  obtain ⟨-, -, stays, -⟩ := (@change_of_step platform settings hashing state action).heirs
  obtain ⟨later, isLater, narrowsRow⟩ := stays row isRow
  exact ⟨later, isLater, narrowsRow.trans narrows⟩

/-- The rows of the heirs of a token. -/
def Inherited (store : AccessStore) (token : MCPAccessToken) (next : AccessStore) : Prop :=
  ∃ events, next.audit = store.audit ++ events ∧
    ∀ heir ∈ heirs events [token.id], ∃ row ∈ next.tokens, row.id = heir ∧ Replaces row token

theorem inherited_of_run {token : MCPAccessToken} (member : token ∈ store.tokens) (actions : List AccessAction) :
    Inherited store token (run (step platform settings hashing) store actions) := by
  refine run_invariant (Inherited store token) ?_ ⟨[], (List.append_nil _).symm, fun heir isHeir => ?_⟩ actions
  · rintro state action ⟨events, isAudit, inherited⟩
    obtain ⟨added, isAdded, stays, replaced⟩ := (@change_of_step platform settings hashing state action).heirs
    refine ⟨events ++ added, by rw [isAdded, isAudit, List.append_assoc], fun heir isHeir => ?_⟩
    rw [heirs_append] at isHeir
    rcases replaced _ heir isHeir with known | ⟨current, isCurrent, known, row, isRow, sameId, replaces⟩
    · obtain ⟨row, isRow, rfl, replaces⟩ := inherited heir known
      obtain ⟨later, isLater, narrows⟩ := stays row isRow
      exact ⟨later, isLater, narrows.sameId, narrows.sameProject.trans replaces.sameProject,
        fun clock active => replaces.narrower clock (narrows.narrower clock active)⟩
    · obtain ⟨old, isOld, sameOld, replacesToken⟩ := inherited _ known
      obtain rfl : old = current := Table.eq_of_key isOld isCurrent sameOld
      exact ⟨row, isRow, sameId, replaces.sameProject.trans replacesToken.sameProject,
        fun clock active => replacesToken.narrower clock (replaces.narrower clock active)⟩
  · obtain rfl := List.mem_singleton.mp isHeir
    exact ⟨token, member, rfl, rfl, fun _ active => active⟩

/-- After its rotation, a token is active up to the end of the overlap. -/
theorem exists_of_rotateToken {projectId tokenId : Uuid} {overlapSeconds : Int} {now clock : Instant} {draw : TokenDraw}
    {schedule : Bool → Except McplicaError Unit} {result : Option IssuedMCPAccessToken}
    (ran : store.rotateToken platform settings hashing projectId tokenId overlapSeconds now clock draw schedule =
      .ok (next, result)) :
    ∃ row ∈ next.tokens, row.id = tokenId ∧
      ∀ later, row.activeAt later = true → later < now + overlapSeconds * 1000000 := by
  obtain ⟨current, added, issued, member, rfl, unrevoked, isIssued, rfl⟩ := rotateToken_eq_ok ran
  refine ⟨_, isIssued.mem.mpr (.inl (Table.mem_update_of_mem member)), ?_, ?_⟩
  · split <;> rfl
  · intro later active
    rw [if_pos (by simp [unrevoked])] at active
    exact lt_of_lt_of_le ((activeAt_iff.mp active).2 _ rfl) rotationExpiry_le.1

/-- Whatever is done later, in any order and by any clocks: a token stays, and it and the tokens that rotations put in its
place are active only when it would have been. Once revoked it stays so, and once rotated it ends with the overlap. -/
theorem accessTokens_run {token : MCPAccessToken} (member : token ∈ store.tokens) :
    (∀ actions, ∃ events, (run (step platform settings hashing) store actions).audit = store.audit ++ events ∧
      (∃ row ∈ (run (step platform settings hashing) store actions).tokens, Narrows row token) ∧
      ∀ row ∈ (run (step platform settings hashing) store actions).tokens, row.id ∈ heirs events [token.id] →
        Replaces row token) ∧
    ∀ overlapSeconds now clock draw schedule next issued,
      store.transact platform settings hashing
        (.rotateToken token.projectId token.id overlapSeconds now clock draw schedule) = .ok (next, issued) →
      ∀ actions, ∀ row ∈ (run (step platform settings hashing) next actions).tokens, row.id = token.id →
        ∀ later, row.activeAt later = true → later < now + overlapSeconds * 1000000 := by
  refine ⟨fun actions => ?_, ?_⟩
  · obtain ⟨events, isAudit, inherited⟩ := @inherited_of_run platform settings hashing store token member actions
    refine ⟨events, isAudit, narrows_of_run member actions, fun row isRow isHeir => ?_⟩
    obtain ⟨heir, isHeirRow, sameId, replaces⟩ := inherited _ isHeir
    obtain rfl : heir = row := Table.eq_of_key isHeirRow isRow sameId
    exact replaces
  · intro overlapSeconds now clock draw schedule next issued ran actions row isRow sameId later active
    obtain ⟨rotated, isRotated, sameToken, ends⟩ := exists_of_rotateToken ran
    obtain ⟨kept, isKept, narrows⟩ := @narrows_of_run platform settings hashing next rotated isRotated actions
    obtain rfl : row = kept := Table.eq_of_key isRow isKept (by rw [show Row.key row = row.id from rfl, sameId, ← sameToken]; exact narrows.sameId.symm)
    exact ends later (narrows.narrower later active)

end

def developmentSettings : Settings := ⟨false, true, [], []⟩

/-- A token of project 1 that expires, and a secret for its rotation. -/
def ciToken : MCPAccessToken where
  id := 7
  projectId := 1
  name := "ci"
  tokenPrefix := "mcp_AAAAAAAA"
  tokenHash := ("sha256:" : Text) ++ List.replicate 64 '1'
  expiresAt := some (utc 2000000000)

def ciStore : AccessStore where
  hostnames := fun id => if id = 1 then some "pets.example.com" else none
  configs := fun _ => none
  tokens := ⟨[ciToken], List.nodup_singleton _⟩
  audit := []

def ciRotation : AccessAction :=
  .rotateToken 1 7 900 500000000 500000000 ⟨8, by decide, "BBBBBBBB"⟩ fun _ => .ok ()

theorem accessTokens_ciToken :
    (∃ events, (run (step plainPlatform developmentSettings zeroHashing) ciStore [ciRotation]).audit = [] ++ events ∧
      (∃ row ∈ (run (step plainPlatform developmentSettings zeroHashing) ciStore [ciRotation]).tokens, Narrows row ciToken) ∧
      ∀ row ∈ (run (step plainPlatform developmentSettings zeroHashing) ciStore [ciRotation]).tokens,
        row.id ∈ heirs events [7] → Replaces row ciToken) ∧
    ∃ next issued, ciStore.transact plainPlatform developmentSettings zeroHashing ciRotation = .ok (next, issued) ∧
      ∀ row ∈ (run (step plainPlatform developmentSettings zeroHashing) next []).tokens, row.id = 7 →
        ∀ later, row.activeAt later = true → later < 500000000 + 900 * 1000000 := by
  have member : ciToken ∈ ciStore.tokens := List.mem_singleton.mpr rfl
  have known := @accessTokens_run plainPlatform developmentSettings zeroHashing ciStore ciToken member
  refine ⟨known.1 [ciRotation], ?_⟩
  have rotates : (ciStore.transact plainPlatform developmentSettings zeroHashing ciRotation).isOk = true := by decide
  cases ran : ciStore.transact plainPlatform developmentSettings zeroHashing ciRotation with
  | error error =>
    rw [ran] at rotates
    cases rotates
  | ok result => exact ⟨result.1, result.2, rfl, known.2 _ _ _ _ _ _ _ ran []⟩

end AccessStore

end Access

end Mcplica.Deployments
