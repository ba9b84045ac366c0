import Mcplica.Deployments.SecretAgreement

/-! # Preflight

The access and credential checks of `DeploymentPreflight.validate`, compared with `build_bundle` on the same state. -/

namespace Mcplica.Deployments

open Mcplica.Domain Mcplica.Library Mcplica.Contracts Mcplica.Runtime

/-- A refusal, with the reason, the field and the remedy that are reported. -/
structure DeployabilityError where
  reasonCode : Text
  message : Text
  field : Text
  remediation : Text

namespace DeployabilityError

def accessConfigMissing : DeployabilityError :=
  ⟨"ACCESS_CONFIG_MISSING", "Inbound MCP authentication is not configured", "access.mode",
    "Configure static bearer or OIDC access before deployment."⟩

def accessConfigInvalid : DeployabilityError :=
  ⟨"ACCESS_CONFIG_INVALID", "Inbound MCP authentication is incomplete or incompatible", "access",
    "Add an unexpired static token or complete the OIDC configuration for this environment."⟩

def authProfileMissing : DeployabilityError :=
  ⟨"AUTH_PROFILE_MISSING", "Manifest references an unknown upstream authentication profile", "build_id",
    "Rebuild after correcting source authentication mappings."⟩

def credentialReferenceInvalid : DeployabilityError :=
  ⟨"CREDENTIAL_REFERENCE_INVALID", "Manifest contains an invalid upstream credential reference", "credentials",
    "Rebuild after binding an active project credential."⟩

def credentialMissing : DeployabilityError :=
  ⟨"CREDENTIAL_MISSING", "A required upstream credential is unavailable", "credentials",
    "Bind every required source security scheme to an active credential."⟩

def credentialRevoked : DeployabilityError :=
  ⟨"CREDENTIAL_REVOKED", "A required upstream credential is revoked", "credentials",
    "Bind an active replacement credential and create a new build."⟩

def credentialSchemeMismatch : DeployabilityError :=
  ⟨"CREDENTIAL_SCHEME_MISMATCH", "A required upstream credential no longer matches its manifest profile", "credentials",
    "Correct the source-scheme binding and create a new build."⟩

end DeployabilityError

section

variable (platform : Platform) (decimal : Char → Option Nat) (settings : Settings) (state : ProjectState)
  (manifest : MCPManifest)

/-- The scheme of the credentials for a profile; a profile of type `none` has no entry. -/
def expectedScheme (type : AuthType) (location : Option CredentialLocation) : Option CredentialScheme :=
  match type with
  | .bearer => some .bearer
  | .basic => some .basic
  | .oauth2ClientCredentials => some .oauth2ClientCredentials
  | .staticHeader => some .staticHeaders
  | .apiKey => some (if location = some .header then .apiKeyHeader else .apiKeyQuery)
  | .none => none

/-- `_validate_credential` -/
def validateCredential (profile : AuthProfile) (credential : EncryptedCredential) : Except DeployabilityError Unit := do
  ensure credential.revokedAt.isNone DeployabilityError.credentialRevoked
  ensure (expectedScheme profile.type profile.location = some credential.schemeType)
    DeployabilityError.credentialSchemeMismatch

def validateAccess : Except DeployabilityError Unit := do
  ensure state.authConfig.isSome .accessConfigMissing
  ensure (materializeInboundAuth platform state.hostname state.authConfig state.tokenVerifiers settings).isOk
    .accessConfigInvalid

/-- The identifier of the credential of a required profile. -/
def profileReference (profileId : Text) : Except DeployabilityError Uuid := do
  let profile ← obtain? (manifest.profile? profileId) .authProfileMissing
  obtain? (Text.uuid decimal (profile.credentialRef.getD [])) .credentialReferenceInvalid

def validateProfile (credentials : List EncryptedCredential) (profileId : Text) : Except DeployabilityError Unit := do
  let profile ← obtain? (manifest.profile? profileId) .authProfileMissing
  let reference ← profileReference decimal manifest profileId
  let credential ← obtain? (credentials.find? fun credential => credential.id = reference) .credentialMissing
  validateCredential profile credential

def validateCredentials : Except DeployabilityError Unit := do
  let required := manifest.requiredProfileIds
  ensure (required.all fun profileId => (manifest.profile? profileId).isSome) .authProfileMissing
  let references ← required.mapM (profileReference decimal manifest)
  let credentials := getEncryptedMany state.credentials state.projectId references.dedup
  let found := credentials.map EncryptedCredential.id
  ensure (found.all references.contains && references.all found.contains) .credentialMissing
  forM required (validateProfile decimal manifest credentials)

/-- The checks of `validate` after the manifest is read. -/
def preflight : Except DeployabilityError Unit := do
  validateAccess platform settings state
  validateCredentials decimal state manifest

end

/-! ## What preflight checks -/

variable {platform : Platform} {decimal : Char → Option Nat} {cipher : Cipher} {settings : Settings} {state : ProjectState}
  {manifest : MCPManifest}

/-- The credential that a profile names: stored for the project, not revoked and of the scheme that fits. -/
structure CredentialFor (decimal : Char → Option Nat) (state : ProjectState) (profile : AuthProfile) (reference : Text)
    (credentialId : Uuid) (credential : EncryptedCredential) : Prop where
  named : profile.credentialRef = some reference
  isId : Text.uuid decimal reference = some credentialId
  stored : StoredCredential state credentialId credential
  active : credential.revokedAt = none
  fits : SchemeFits credential.schemeType profile

/-- What both sides check: the inbound authentication, and the credential of every required profile that needs one. -/
structure CommonChecks (platform : Platform) (decimal : Char → Option Nat) (settings : Settings) (state : ProjectState)
    (manifest : MCPManifest) : Prop where
  inbound : Succeeds (materializeInboundAuth platform state.hostname state.authConfig state.tokenVerifiers settings)
  credentials : ∀ profileId ∈ manifest.requiredProfileIds, ∃ profile, manifest.profile? profileId = some profile ∧
    (profile.type ≠ .none → ∃ reference credentialId credential,
      CredentialFor decimal state profile reference credentialId credential)

/-- Preflight alone refuses a project without a stored access configuration and enabled tools without authentication. -/
structure PreflightOnly (state : ProjectState) (manifest : MCPManifest) : Prop where
  configured : state.authConfig.isSome = true
  authenticated : ∀ profile, Required manifest profile → profile.type ≠ .none

theorem expectedScheme_iff {profile : AuthProfile} (facts : ProfileFacts profile) {scheme : CredentialScheme} :
    expectedScheme profile.type profile.location = some scheme ↔ profile.type ≠ .none ∧ SchemeFits scheme profile := by
  unfold SchemeFits
  have located := facts.apiKey
  cases isType : profile.type with
  | apiKey =>
    obtain ⟨isLocated, -⟩ := located isType
    obtain ⟨location, isLocation⟩ := Option.isSome_iff_exists.mp isLocated
    rw [isLocation]
    cases location <;> cases scheme <;> decide
  | none | bearer | basic | oauth2ClientCredentials | staticHeader => cases scheme <;> simp [expectedScheme, runtimeType, CredentialType.authType]

theorem profileReference_eq_ok {profileId : Text} {credentialId : Uuid} :
    profileReference decimal manifest profileId = .ok credentialId ↔ ∃ profile reference,
      manifest.profile? profileId = some profile ∧ profile.credentialRef = some reference ∧
      Text.uuid decimal reference = some credentialId := by
  simp only [profileReference, bind_eq_ok, obtain?_eq_ok]
  constructor
  · rintro ⟨profile, found, isId⟩
    cases given : profile.credentialRef with
    | none =>
      rw [given, Option.getD_none, Text.uuid_nil] at isId
      cases isId
    | some reference =>
      rw [given] at isId
      exact ⟨profile, reference, found, given, isId⟩
  · rintro ⟨profile, reference, found, given, isId⟩
    exact ⟨profile, found, by rw [given]; exact isId⟩

section Checks

variable (accepted : manifest.Accepted platform.unicode platform.urls)

include accepted

theorem validateProfile_eq_ok {ids : List Uuid} {profileId : Text}
    (listed : ∀ credentialId, profileReference decimal manifest profileId = .ok credentialId → credentialId ∈ ids) :
    validateProfile decimal manifest (getEncryptedMany state.credentials state.projectId ids) profileId = .ok () ↔
      ∃ profile, manifest.profile? profileId = some profile ∧ ∃ reference credentialId credential,
        CredentialFor decimal state profile reference credentialId credential := by
  simp only [validateProfile, validateCredential, bind_eq_ok, obtain?_eq_ok, ensure_eq_ok, exists_const_unit,
    decide_eq_true_eq, Option.isNone_iff_eq_none]
  constructor
  · rintro ⟨profile, found, credentialId, isReference, credential, isFound, active, fits⟩
    obtain ⟨other, reference, isOther, given, isId⟩ := profileReference_eq_ok.mp isReference
    rw [found, Option.some.injEq] at isOther
    subst isOther
    obtain ⟨listedId, -, isStored⟩ := mem_getEncryptedMany.mp (List.mem_of_find?_eq_some isFound)
    have sameId : credential.id = credentialId := by simpa using List.find?_some isFound
    have stored : StoredCredential state credentialId credential := ⟨isStored.stored, isStored.project, sameId⟩
    have facts := profileFacts_of_profile? accepted found
    exact ⟨profile, found, reference, credentialId, credential, given, isId, stored, active,
      ((expectedScheme_iff facts).mp fits).2⟩
  · rintro ⟨profile, found, reference, credentialId, credential, credentialFor⟩
    have isReference := profileReference_eq_ok.mpr ⟨profile, reference, found, credentialFor.named, credentialFor.isId⟩
    have member := mem_getEncryptedMany.mpr ⟨credentialId, listed credentialId isReference, credentialFor.stored⟩
    obtain ⟨other, isFound⟩ : ∃ other, (getEncryptedMany state.credentials state.projectId ids).find?
        (fun credential => credential.id = credentialId) = some other :=
      Option.isSome_iff_exists.mp (List.find?_isSome.mpr ⟨credential, member, by simpa using credentialFor.stored.id⟩)
    have isOther : other = credential := by
      obtain ⟨_, -, isStored⟩ := mem_getEncryptedMany.mp (List.mem_of_find?_eq_some isFound)
      have sameId : other.id = credentialId := by simpa using List.find?_some isFound
      exact storedCredential_unique ⟨isStored.stored, isStored.project, sameId⟩ credentialFor.stored
    subst isOther
    have typed : profile.type ≠ .none := by
      rw [credentialFor.fits.1]
      cases runtimeType other.schemeType <;> decide
    exact ⟨profile, found, credentialId, isReference, other, isFound, credentialFor.active,
      (expectedScheme_iff (profileFacts_of_profile? accepted found)).mpr ⟨typed, credentialFor.fits⟩⟩

theorem validateCredentials_eq_ok : validateCredentials decimal state manifest = .ok () ↔
    ∀ profileId ∈ manifest.requiredProfileIds, ∃ profile, manifest.profile? profileId = some profile ∧
      ∃ reference credentialId credential, CredentialFor decimal state profile reference credentialId credential := by
  simp only [validateCredentials, bind_eq_ok, ensure_eq_ok, exists_const_unit, forM_eq_ok]
  constructor
  · rintro ⟨-, references, areReferences, -, each⟩ profileId isRequired
    refine (validateProfile_eq_ok accepted fun credentialId isReference => ?_).mp (each profileId isRequired)
    obtain ⟨other, isMember, isOther⟩ := exists_of_mapM_source areReferences isRequired
    rw [isReference, Except.ok.injEq] at isOther
    rw [isOther]
    exact List.mem_dedup.mpr isMember
  · intro each
    have succeeds : Succeeds (manifest.requiredProfileIds.mapM (profileReference decimal manifest)) := by
      refine succeeds_mapM.mpr fun profileId isRequired => ?_
      obtain ⟨profile, found, reference, credentialId, credential, credentialFor⟩ := each profileId isRequired
      exact ⟨credentialId,
        profileReference_eq_ok.mpr ⟨profile, reference, found, credentialFor.named, credentialFor.isId⟩⟩
    obtain ⟨references, areReferences⟩ := succeeds
    refine ⟨?_, references, areReferences, ?_, fun profileId isRequired => ?_⟩
    · refine List.all_eq_true.mpr fun profileId isRequired => ?_
      obtain ⟨profile, found, -⟩ := each profileId isRequired
      rw [found]
      rfl
    · rw [Bool.and_eq_true, List.all_eq_true, List.all_eq_true]
      simp only [List.contains_iff_mem]
      refine ⟨fun credentialId member => ?_, fun credentialId member => ?_⟩
      · obtain ⟨credential, isFound, rfl⟩ := List.mem_map.mp member
        obtain ⟨listedId, isListed, isStored⟩ := mem_getEncryptedMany.mp isFound
        rw [isStored.id]
        exact List.mem_dedup.mp isListed
      · obtain ⟨profileId, isRequired, isReference⟩ := exists_of_mapM_result areReferences member
        obtain ⟨profile, found, reference, otherId, credential, credentialFor⟩ := each profileId isRequired
        have isOther := profileReference_eq_ok.mpr
          ⟨profile, reference, found, credentialFor.named, credentialFor.isId⟩
        rw [isReference, Except.ok.injEq] at isOther
        subst isOther
        exact List.mem_map.mpr ⟨credential, mem_getEncryptedMany.mpr
          ⟨credentialId, List.mem_dedup.mpr member, credentialFor.stored⟩, credentialFor.stored.id⟩
    · refine (validateProfile_eq_ok accepted fun credentialId isReference => ?_).mpr (each profileId isRequired)
      obtain ⟨other, isMember, isOther⟩ := exists_of_mapM_source areReferences isRequired
      rw [isReference, Except.ok.injEq] at isOther
      rw [isOther]
      exact List.mem_dedup.mpr isMember

theorem succeeds_preflight_iff : Succeeds (preflight platform decimal settings state manifest) ↔
    CommonChecks platform decimal settings state manifest ∧ PreflightOnly state manifest := by
  have isPreflight : Succeeds (preflight platform decimal settings state manifest) ↔
      (state.authConfig.isSome = true ∧
        Succeeds (materializeInboundAuth platform state.hostname state.authConfig state.tokenVerifiers settings)) ∧
      validateCredentials decimal state manifest = .ok () := by
    constructor
    · rintro ⟨⟨⟩, passed⟩
      simp only [preflight, validateAccess, check_bind_eq_ok, ensure_eq_ok] at passed
      exact ⟨⟨passed.1.1, exists_ok_of_isOk passed.1.2⟩, passed.2⟩
    · rintro ⟨⟨configured, secrets, made⟩, valid⟩
      refine ⟨(), ?_⟩
      simp only [preflight, validateAccess, check_bind_eq_ok, ensure_eq_ok]
      exact ⟨⟨configured, by rw [made]; rfl⟩, valid⟩
  rw [isPreflight, validateCredentials_eq_ok accepted]
  constructor
  · rintro ⟨⟨configured, inbound⟩, each⟩
    refine ⟨⟨inbound, fun profileId isRequired => ?_⟩, configured, ?_⟩
    · obtain ⟨profile, found, credentialFor⟩ := each profileId isRequired
      exact ⟨profile, found, fun _ => credentialFor⟩
    · rintro profile ⟨profileId, isRequired, found⟩
      obtain ⟨other, isOther, _, _, credential, credentialFor⟩ := each profileId isRequired
      rw [found, Option.some.injEq] at isOther
      rw [isOther, credentialFor.fits.1]
      cases runtimeType credential.schemeType <;> decide
  · rintro ⟨common, only⟩
    refine ⟨⟨only.configured, common.inbound⟩, fun profileId isRequired => ?_⟩
    obtain ⟨profile, found, credentialFor⟩ := common.credentials profileId isRequired
    exact ⟨profile, found, credentialFor (only.authenticated profile ⟨profileId, isRequired, found⟩)⟩

end Checks

/-! ## What materialization checks -/

/-- The secret is one that the credential service accepted. -/
def AcceptedSecret (unicode : Unicode) (cipher : Cipher) (credential : EncryptedCredential) : Prop :=
  ∃ secret, cipher credential = .ok secret ∧
    validateCredentialSecret unicode credential.schemeType secret credential.metadata = .ok ()

/-- The header of a name is among the static headers of a secret. -/
def HoldsHeader (unicode : Unicode) (secret : JsonObject) (name : Text) : Prop :=
  ∃ headers, Json.get secret "headers" = some (.object headers) ∧
    ∃ header ∈ headers, header.1.lower unicode = name.lower unicode

section Secrets

variable {unicode : Unicode} {scheme : CredentialScheme} {secret metadata : JsonObject}

/-- An accepted secret has a text that is not empty in each of its fields. -/
theorem secretText_of_accepted (valid : validateCredentialSecret unicode scheme secret metadata = .ok ()) {name : Text}
    (expected : name ∈ expectedFields scheme) (notHeaders : name ≠ "headers") :
    ∃ first rest, Json.get secret name = some (.string (first :: rest)) ∧ secretText secret name = .ok (first :: rest) := by
  simp only [validateCredentialSecret, validateSecretFields, check_bind_eq_ok, ensure_eq_ok, List.all_eq_true,
    List.contains_iff_mem, forM_eq_ok] at valid
  obtain ⟨-, ⟨complete, -, texts⟩, -⟩ := valid
  obtain ⟨value, isValue⟩ := Option.isSome_iff_exists.mp (Json.get_isSome.mpr (complete name expected))
  have isText := texts (name, value) (List.mem_filter.mpr ⟨Json.mem_of_get isValue, decide_eq_true notHeaders⟩)
  cases value with
  | string text =>
    cases text with
    | nil => cases isText
    | cons first rest =>
      refine ⟨first, rest, isValue, ?_⟩
      unfold secretText
      rw [isValue]
      rfl
  | null | bool _ | number _ _ | array _ | object _ => cases isText

theorem validateStaticHeader_eq_ok {seen next : List Text × Nat} {header : Text × Json}
    (step : validateStaticHeader unicode seen header = .ok next) : isHeaderName header.1 = true ∧
      ∃ first rest, header.2 = .string (first :: rest) ∧ Text.includesAny (first :: rest) lineBreaks = false := by
  obtain ⟨name, value⟩ := header
  simp only [validateStaticHeader, bind_eq_ok, ensure_eq_ok, exists_const_unit] at step
  obtain ⟨isName, -, -, step⟩ := step
  refine ⟨isName, ?_⟩
  split at step
  · rename_i text
    simp only [check_bind_eq_ok, ensure_eq_ok, Bool.and_eq_true, decide_eq_true_eq, Bool.not_eq_true'] at step
    obtain ⟨⟨⟨nonempty, -⟩, clean⟩, -⟩ := step
    cases text with
    | nil => exact absurd rfl nonempty
    | cons first rest => exact ⟨first, rest, rfl, clean⟩
  · cases step

theorem staticHeaders_of_accepted (valid : validateCredentialSecret unicode .staticHeaders secret metadata = .ok ()) :
    ∃ headers, Json.get secret "headers" = some (.object headers) ∧ ∀ header ∈ headers, isHeaderName header.1 = true ∧
      ∃ first rest, header.2 = .string (first :: rest) ∧ Text.includesAny (first :: rest) lineBreaks = false := by
  simp only [validateCredentialSecret, check_bind_eq_ok] at valid
  obtain ⟨-, -, -, -, valid⟩ := valid
  unfold validateStaticHeaders at valid
  split at valid
  · rename_i headers isHeaders
    refine ⟨headers, isHeaders, ?_⟩
    simp only [bind_eq_ok, ensure_eq_ok, exists_const_unit] at valid
    obtain ⟨-, -, counted, ran, -⟩ := valid
    refine foldlM_induction (fun read _ => ∀ header ∈ read, isHeaderName header.1 = true ∧ ∃ first rest,
      header.2 = .string (first :: rest) ∧ Text.includesAny (first :: rest) lineBreaks = false)
      (fun _ member => by cases member) ?_ ran
    intro read state header next known step other member
    rcases List.mem_append.mp member with before | last
    · exact known other before
    · rw [List.mem_singleton.mp last]
      exact validateStaticHeader_eq_ok step
  · cases valid

theorem mem_expectedNames {profiles : List AuthProfile} {lowered : Text} : lowered ∈ expectedNames platform profiles ↔
    ∃ profile ∈ profiles, ∃ name, profile.name = some name ∧ name ≠ [] ∧ name.lower platform.unicode = lowered := by
  simp only [expectedNames, List.mem_dedup, List.mem_map, List.mem_filter, List.mem_filterMap, decide_eq_true_eq]
  constructor
  · rintro ⟨name, ⟨⟨profile, member, isName⟩, nonempty⟩, isLowered⟩
    exact ⟨profile, member, name, isName, nonempty, isLowered⟩
  · rintro ⟨profile, member, name, isName, nonempty, isLowered⟩
    exact ⟨name, ⟨⟨profile, member, isName⟩, nonempty⟩, isLowered⟩

theorem availableByName_isSome {headers : JsonObject} {lowered : Text} :
    (availableByName platform headers lowered).isSome = true ↔
      ∃ header ∈ headers, header.1.lower platform.unicode = lowered := by
  simp [availableByName, List.find?_isSome]

/-- The static headers of an accepted secret make a credential as soon as every expected header is there. -/
theorem succeeds_staticHeaders_iff {profiles : List AuthProfile}
    (valid : validateCredentialSecret platform.unicode .staticHeaders secret metadata = .ok ()) :
    Succeeds (credentialOf platform .staticHeader profiles secret) ↔
      ∀ profile ∈ profiles, ∀ name, profile.name = some name → name ≠ [] → HoldsHeader platform.unicode secret name := by
  obtain ⟨headers, isHeaders, each⟩ := staticHeaders_of_accepted valid
  have holds : ∀ name, HoldsHeader platform.unicode secret name ↔
      (availableByName platform headers (name.lower platform.unicode)).isSome = true := by
    intro name
    rw [availableByName_isSome]
    constructor
    · rintro ⟨others, isOthers, header, member, same⟩
      rw [isHeaders, Option.some.injEq, Json.object.injEq] at isOthers
      subst isOthers
      exact ⟨header, member, same⟩
    · rintro ⟨header, member, same⟩
      exact ⟨headers, isHeaders, header, member, same⟩
  simp only [holds]
  have unfolded : staticHeaders platform profiles secret = ensure ((expectedNames platform profiles).all fun name =>
      (availableByName platform headers name).isSome) ("Static-header deployment credential is incomplete" : Text) >>=
      fun _ => (Text.sorted (expectedNames platform profiles)).mapM (selectedHeader platform headers) := by
    unfold staticHeaders
    rw [isHeaders]
  constructor
  · rintro ⟨credential, made⟩ profile member name isName nonempty
    simp only [credentialOf, bind_eq_ok] at made
    obtain ⟨_, isMade, -⟩ := made
    rw [unfolded, check_bind_eq_ok, ensure_eq_ok, List.all_eq_true] at isMade
    exact isMade.1 _ (mem_expectedNames.mpr ⟨profile, member, name, isName, nonempty, rfl⟩)
  · intro available
    have allAvailable : ∀ lowered ∈ expectedNames platform profiles, ∃ header first rest,
        availableByName platform headers lowered = some header ∧ isHeaderName header.1 = true ∧
        header.2 = .string (first :: rest) ∧ Text.includesAny (first :: rest) lineBreaks = false := by
      intro lowered member
      obtain ⟨profile, isProfile, name, isName, nonempty, rfl⟩ := mem_expectedNames.mp member
      obtain ⟨header, isHeader⟩ := Option.isSome_iff_exists.mp (available profile isProfile name isName nonempty)
      obtain ⟨isHeaderName, first, rest, isValue, clean⟩ := each header (availableByName_spec isHeader).1
      exact ⟨header, first, rest, isHeader, isHeaderName, isValue, clean⟩
    have made : Succeeds (staticHeaders platform profiles secret) := by
      rw [unfolded, succeeds_ensure_bind, List.all_eq_true, succeeds_mapM]
      refine ⟨fun lowered member => ?_, fun lowered member => ?_⟩
      · obtain ⟨header, -, -, isHeader, -⟩ := allAvailable lowered member
        rw [isHeader]
        rfl
      · obtain ⟨header, first, rest, isHeader, -, isValue, -⟩ := allAvailable lowered (Text.mem_sorted.mp member)
        exact ⟨(header.1, first :: rest), selectedHeader_eq_ok.mpr ⟨header, isHeader, rfl, by rw [isValue]; rfl⟩⟩
    obtain ⟨entries, isEntries⟩ := made
    have ran := isEntries
    rw [unfolded, check_bind_eq_ok] at ran
    refine ⟨{ type := .staticHeader, headers := some entries }, ?_⟩
    simp only [credentialOf, bind_eq_ok, makeCredential_eq_ok]
    refine ⟨entries, isEntries, ?_, rfl⟩
    simp only [UpstreamCredential.validateExactSecretShape, check_bind_eq_ok]
    refine ⟨rfl, rfl, rfl, UpstreamCredential.validateHeaders_eq_ok.mpr ⟨fun entry member => ?_, ?_, fun _ _ =>
      List.not_mem_nil⟩⟩
    · obtain ⟨lowered, isLowered, isEntry⟩ := exists_of_mapM_result ran.2 member
      obtain ⟨header, first, rest, isHeader, isHeaderName, isValue, clean⟩ :=
        allAvailable lowered (Text.mem_sorted.mp isLowered)
      obtain ⟨other, isOther, sameName, isText⟩ := selectedHeader_eq_ok.mp isEntry
      rw [isHeader, Option.some.injEq] at isOther
      subst isOther
      have sameText : first :: rest = entry.2 := by
        rw [isValue] at isText
        exact Except.ok.inj isText
      rw [← sameName, ← sameText]
      exact ⟨isHeaderName, List.cons_ne_nil _ _, clean⟩
    · have sameNames : entries.map (fun entry => entry.1.lower platform.unicode) =
          (Text.sorted (expectedNames platform profiles)).map id := by
        refine map_of_mapM ran.2 fun lowered entry isEntry => ?_
        obtain ⟨header, isHeader, same, -⟩ := selectedHeader_eq_ok.mp isEntry
        rw [← same]
        exact (availableByName_spec isHeader).2
      rw [Option.getD_some, sameNames, List.map_id]
      exact (Text.perm_sortedBy id _).nodup_iff.mpr (List.nodup_dedup _)

theorem succeeds_credentialOf_iff {profiles : List AuthProfile}
    (valid : validateCredentialSecret platform.unicode scheme secret metadata = .ok ()) :
    Succeeds (credentialOf platform (runtimeType scheme) profiles secret) ↔ (scheme = .staticHeaders →
      ∀ profile ∈ profiles, ∀ name, profile.name = some name → name ≠ [] →
        HoldsHeader platform.unicode secret name) := by
  by_cases isStatic : scheme = .staticHeaders
  · subst isStatic
    exact (succeeds_staticHeaders_iff valid).trans ⟨fun holds _ => holds, fun holds => holds rfl⟩
  refine iff_of_true ?_ (fun contradiction => absurd contradiction isStatic)
  cases scheme with
  | staticHeaders => exact absurd rfl isStatic
  | bearer =>
    obtain ⟨first, rest, -, isText⟩ := secretText_of_accepted valid List.mem_cons_self (by decide)
    simp only [runtimeType, credentialOf, Succeeds, bind_eq_ok]
    exact ⟨_, _, isText, makeCredential_eq_ok.mpr ⟨rfl, rfl⟩⟩
  | apiKeyHeader | apiKeyQuery =>
    obtain ⟨first, rest, -, isText⟩ := secretText_of_accepted valid List.mem_cons_self (by decide)
    simp only [runtimeType, credentialOf, Succeeds, bind_eq_ok]
    exact ⟨_, _, isText, makeCredential_eq_ok.mpr ⟨rfl, rfl⟩⟩
  | basic =>
    obtain ⟨first, rest, isUsername, isText⟩ := secretText_of_accepted valid List.mem_cons_self (by decide)
    obtain ⟨passwordFirst, passwordRest, -, isPassword⟩ :=
      secretText_of_accepted valid (List.mem_cons_of_mem _ List.mem_cons_self) (by decide)
    have noColon : (first :: rest).contains ':' = false := by
      simp only [validateCredentialSecret, check_bind_eq_ok, ensure_eq_ok, isUsername] at valid
      simpa [textHas, isTextWith] using valid.2.2.1
    simp only [runtimeType, credentialOf, Succeeds, bind_eq_ok]
    refine ⟨_, _, isText, _, isPassword, makeCredential_eq_ok.mpr ⟨?_, rfl⟩⟩
    simp only [UpstreamCredential.validateExactSecretShape, check_bind_eq_ok, ensure_eq_ok, Option.any_some, noColon]
    exact ⟨rfl, rfl, rfl, rfl⟩
  | oauth2ClientCredentials =>
    obtain ⟨first, rest, -, isText⟩ := secretText_of_accepted valid List.mem_cons_self (by decide)
    obtain ⟨secretFirst, secretRest, -, isSecret⟩ :=
      secretText_of_accepted valid (List.mem_cons_of_mem _ List.mem_cons_self) (by decide)
    simp only [runtimeType, credentialOf, Succeeds, bind_eq_ok]
    exact ⟨_, _, isText, _, isSecret, makeCredential_eq_ok.mpr ⟨rfl, rfl⟩⟩

end Secrets

/-- Materialization alone reads the names of the static headers and the hosts of the settings. -/
structure MaterializationOnly (platform : Platform) (decimal : Char → Option Nat) (cipher : Cipher) (settings : Settings)
    (state : ProjectState) (manifest : MCPManifest) : Prop where
  headers : ∀ profile, Required manifest profile → profile.type = .staticHeader → ∀ reference credentialId credential,
    CredentialFor decimal state profile reference credentialId credential → ∀ secret name,
    cipher credential = .ok secret → profile.name = some name → HoldsHeader platform.unicode secret name
  hosts : Succeeds (NetworkPolicy.make platform (configuredHosts settings))

section Materialization

variable (accepted : manifest.Accepted platform.unicode platform.urls)
  (secrets : ∀ credential ∈ state.credentials, AcceptedSecret platform.unicode cipher credential)

theorem succeeds_buildBundle_eq : Succeeds (buildBundle platform decimal cipher settings state manifest) ↔
    ∃ references, credentialReferences decimal manifest = .ok references ∧
      ∃ decrypted, decryptManyForExecution cipher state.credentials state.projectId (references.map Prod.snd).dedup =
        .ok decrypted ∧
      ∃ credentials, references.mapM (upstreamCredential platform manifest decrypted) = .ok credentials ∧
        Succeeds (materializeInboundAuth platform state.hostname state.authConfig state.tokenVerifiers settings) ∧
        Succeeds (NetworkPolicy.make platform (configuredHosts settings)) ∧
        validateCredentialReferences credentials = .ok () := by
  simp only [buildBundle, Succeeds, bind_eq_ok, pure, Except.pure, Except.ok.injEq]
  constructor
  · rintro ⟨_, references, isReferences, decrypted, isDecrypted, credentials, ran, inbound, isInbound, network, isNetwork,
      ⟨⟩, safe, -⟩
    exact ⟨references, isReferences, decrypted, isDecrypted, credentials, ran, ⟨inbound, isInbound⟩,
      ⟨network, isNetwork⟩, safe⟩
  · rintro ⟨references, isReferences, decrypted, isDecrypted, credentials, ran, ⟨inbound, isInbound⟩,
      ⟨network, isNetwork⟩, safe⟩
    exact ⟨_, references, isReferences, decrypted, isDecrypted, credentials, ran, inbound, isInbound, network, isNetwork,
      (), safe, rfl⟩

theorem upstreamCredential_eq_ok {decrypted : List (Uuid × CredentialScheme × JsonObject)} {reference : Text × Uuid}
    {entry : Text × UpstreamCredential} : upstreamCredential platform manifest decrypted reference = .ok entry ↔
      ∃ scheme secret, decrypted.lookup reference.2 = some (scheme, secret) ∧ entry.1 = reference.1 ∧
        runtimeCredential platform manifest reference.1 scheme secret = .ok entry.2 := by
  obtain ⟨name, credential⟩ := entry
  simp only [upstreamCredential, bind_eq_ok, obtain?_eq_ok, pure, Except.pure, Except.ok.injEq, Prod.mk.injEq, Prod.exists]
  refine exists_congr fun scheme => exists_congr fun secret => and_congr_right fun _ => ?_
  constructor
  · rintro ⟨made, isMade, same, rfl⟩
    exact ⟨same.symm, isMade⟩
  · rintro ⟨same, isMade⟩
    exact ⟨credential, isMade, same.symm, rfl⟩

include accepted secrets

theorem checks_of_buildBundle (built : Succeeds (buildBundle platform decimal cipher settings state manifest)) :
    CommonChecks platform decimal settings state manifest ∧
      MaterializationOnly platform decimal cipher settings state manifest := by
  obtain ⟨references, isReferences, decrypted, isDecrypted, credentials, ran, inbound, network, -⟩ :=
    succeeds_buildBundle_eq.mp built
  have known := references_of_credentialReferences isReferences
  have distinct := List.nodup_dedup (references.map Prod.snd)
  -- The credential of a reference was decrypted and made into the one of the bundle.
  have made : ∀ entry ∈ references, ∃ credential secret, StoredCredential state entry.2 credential ∧
      credential.revokedAt = none ∧ cipher credential = .ok secret ∧
      Succeeds (runtimeCredential platform manifest entry.1 credential.schemeType secret) := by
    intro entry member
    obtain ⟨credential, secret, stored, active, isSecret, isLookup⟩ := lookup_decrypted distinct isDecrypted
      (List.mem_dedup.mpr (List.mem_map_of_mem member))
    obtain ⟨result, -, isResult⟩ := exists_of_mapM_source ran member
    obtain ⟨scheme, other, isOther, -, isCredential⟩ := upstreamCredential_eq_ok.mp isResult
    rw [isLookup, Option.some.injEq, Prod.mk.injEq] at isOther
    rw [← isOther.1, ← isOther.2] at isCredential
    exact ⟨credential, secret, stored, active, isSecret, _, isCredential⟩
  refine ⟨⟨inbound, fun profileId isRequired => ?_⟩, ⟨?_, network⟩⟩
  · obtain ⟨profile, found, referenced⟩ := known.complete profileId isRequired
    refine ⟨profile, found, fun typed => ?_⟩
    obtain ⟨entry, member, given⟩ := referenced typed
    obtain ⟨credential, secret, stored, active, -, result, isResult⟩ := made entry member
    have isProfile := (mem_referencingProfiles accepted).mpr ⟨⟨profileId, isRequired, found⟩, given⟩
    exact ⟨entry.1, entry.2, credential, given, (known.listed entry member).1, stored, active,
      (runtimeCredential_eq_ok.mp isResult).2.1 profile isProfile⟩
  · rintro profile ⟨profileId, isRequired, found⟩ isStatic reference credentialId credential credentialFor secret name
      isSecret isName
    obtain ⟨other, isOther, referenced⟩ := known.complete profileId isRequired
    rw [found, Option.some.injEq] at isOther
    subst isOther
    obtain ⟨entry, member, given⟩ := referenced (by rw [isStatic]; decide)
    have sameReference : reference = entry.1 := Option.some.inj (credentialFor.named.symm.trans given)
    subst sameReference
    have sameId : credentialId = entry.2 :=
      Option.some.inj (credentialFor.isId.symm.trans (known.listed entry member).1)
    subst sameId
    obtain ⟨same, decryptedSecret, stored, -, isDecryptedSecret, result, isResult⟩ := made entry member
    rw [storedCredential_unique stored credentialFor.stored] at isDecryptedSecret isResult
    rw [isSecret, Except.ok.injEq] at isDecryptedSecret
    subst isDecryptedSecret
    obtain ⟨acceptedSecret, isAccepted, valid⟩ := secrets credential credentialFor.stored.stored
    rw [isSecret, Except.ok.injEq] at isAccepted
    subst isAccepted
    have isProfile := (mem_referencingProfiles accepted).mpr ⟨⟨profileId, isRequired, found⟩, given⟩
    have isScheme : credential.schemeType = .staticHeaders := by
      have fits := credentialFor.fits.1
      rw [isStatic] at fits
      revert fits
      cases credential.schemeType <;> decide
    obtain ⟨given', isGiven, isHeader⟩ := (profileFacts_of_profile? accepted found).staticHeader isStatic
    refine (succeeds_credentialOf_iff valid).mp ⟨_, (runtimeCredential_eq_ok.mp isResult).2.2⟩ isScheme profile isProfile
      name isName ?_
    rintro rfl
    rw [isName, Option.some.injEq] at isGiven
    rw [← isGiven] at isHeader
    cases isHeader

theorem buildBundle_of_checks (common : CommonChecks platform decimal settings state manifest)
    (only : MaterializationOnly platform decimal cipher settings state manifest) :
    Succeeds (buildBundle platform decimal cipher settings state manifest) := by
  have hasReferences : Succeeds (credentialReferences decimal manifest) := by
    refine succeeds_credentialReferences_iff.mpr fun profileId isRequired => ?_
    obtain ⟨profile, found, credentialFor⟩ := common.credentials profileId isRequired
    refine ⟨profile, found, ?_⟩
    by_cases untyped : profile.type = .none
    · exact .inl untyped
    · obtain ⟨reference, credentialId, credential, credentialFor⟩ := credentialFor untyped
      obtain ⟨other, isOther, nonempty⟩ := (profileFacts_of_profile? accepted found).reference untyped
      rw [credentialFor.named, Option.some.injEq] at isOther
      subst isOther
      exact .inr ⟨reference, credentialId, credentialFor.named, nonempty, credentialFor.isId⟩
  obtain ⟨references, isReferences⟩ := hasReferences
  have known := references_of_credentialReferences isReferences
  have distinct := List.nodup_dedup (references.map Prod.snd)
  -- The profiles of one reference share one stored credential.
  have credentialOfEntry : ∀ entry ∈ references, ∃ credential, StoredCredential state entry.2 credential ∧
      credential.revokedAt = none ∧ referencingProfiles manifest entry.1 ≠ [] ∧
      ∀ profile ∈ referencingProfiles manifest entry.1,
        CredentialFor decimal state profile entry.1 entry.2 credential := by
    intro entry member
    obtain ⟨isId, profileId, isRequired, profile, found, typed, given⟩ := known.listed entry member
    have each : ∀ profile ∈ referencingProfiles manifest entry.1, ∃ credential,
        CredentialFor decimal state profile entry.1 entry.2 credential := by
      intro other isOther
      obtain ⟨⟨otherId, otherRequired, otherFound⟩, otherGiven⟩ := (mem_referencingProfiles accepted).mp isOther
      have otherTyped : other.type ≠ .none := by
        intro untyped
        rw [(profileFacts_of_profile? accepted otherFound).noReference untyped] at otherGiven
        cases otherGiven
      obtain ⟨same, isSame, credentialFor⟩ := common.credentials otherId otherRequired
      rw [otherFound, Option.some.injEq] at isSame
      subst isSame
      obtain ⟨reference, credentialId, credential, credentialFor⟩ := credentialFor otherTyped
      have sameReference : reference = entry.1 := Option.some.inj (credentialFor.named.symm.trans otherGiven)
      subst sameReference
      have sameId : credentialId = entry.2 := Option.some.inj (credentialFor.isId.symm.trans isId)
      subst sameId
      exact ⟨credential, credentialFor⟩
    have isProfile := (mem_referencingProfiles accepted).mpr ⟨⟨profileId, isRequired, found⟩, given⟩
    obtain ⟨credential, credentialFor⟩ := each profile isProfile
    refine ⟨credential, credentialFor.stored, credentialFor.active, List.ne_nil_of_mem isProfile, ?_⟩
    intro other isOther
    obtain ⟨otherCredential, otherFor⟩ := each other isOther
    rwa [storedCredential_unique otherFor.stored credentialFor.stored] at otherFor
  have hasDecrypted : Succeeds (decryptManyForExecution cipher state.credentials state.projectId
      (references.map Prod.snd).dedup) := by
    refine (succeeds_decryptMany_iff distinct).mpr fun credentialId member => ?_
    obtain ⟨entry, isEntry, rfl⟩ := List.mem_map.mp (List.mem_dedup.mp member)
    obtain ⟨credential, stored, active, -⟩ := credentialOfEntry entry isEntry
    obtain ⟨secret, isSecret, -⟩ := secrets credential stored.stored
    exact ⟨credential, stored, active, secret, isSecret⟩
  obtain ⟨decrypted, isDecrypted⟩ := hasDecrypted
  have hasCredentials : Succeeds (references.mapM (upstreamCredential platform manifest decrypted)) := by
    refine succeeds_mapM.mpr fun entry member => ?_
    obtain ⟨credential, stored, -, nonempty, each⟩ := credentialOfEntry entry member
    obtain ⟨same, secret, isStored, -, isSecret, isLookup⟩ := lookup_decrypted distinct isDecrypted
      (List.mem_dedup.mpr (List.mem_map_of_mem member))
    rw [storedCredential_unique isStored stored] at isSecret isLookup
    obtain ⟨acceptedSecret, isAccepted, valid⟩ := secrets credential stored.stored
    rw [isSecret, Except.ok.injEq] at isAccepted
    subst isAccepted
    have makes : Succeeds (credentialOf platform (runtimeType credential.schemeType)
        (referencingProfiles manifest entry.1) secret) := by
      refine (succeeds_credentialOf_iff valid).mpr fun isScheme profile isProfile name isName nonempty => ?_
      have isStatic : profile.type = .staticHeader := by
        rw [(each profile isProfile).fits.1, isScheme]
        rfl
      exact only.headers profile ((mem_referencingProfiles accepted).mp isProfile).1 isStatic entry.1 entry.2 credential
        (each profile isProfile) secret name isSecret isName
    obtain ⟨result, isResult⟩ := makes
    refine ⟨(entry.1, result), upstreamCredential_eq_ok.mpr ⟨credential.schemeType, secret, isLookup, rfl, ?_⟩⟩
    exact runtimeCredential_eq_ok.mpr ⟨nonempty, fun profile isProfile => (each profile isProfile).fits, isResult⟩
  obtain ⟨credentials, ran⟩ := hasCredentials
  refine succeeds_buildBundle_eq.mpr ⟨references, isReferences, decrypted, isDecrypted, credentials, ran, common.inbound,
    only.hosts, ?_⟩
  refine ensure_eq_ok.mpr (List.all_eq_true.mpr fun entry member => ?_)
  obtain ⟨reference, isReference, isEntry⟩ := exists_of_mapM_result ran member
  obtain ⟨-, -, -, sameName, -⟩ := upstreamCredential_eq_ok.mp isEntry
  obtain ⟨-, profileId, -, profile, found, typed, given⟩ := known.listed reference isReference
  have facts := profileFacts_of_profile? accepted found
  obtain ⟨other, isOther, nonempty⟩ := facts.reference typed
  rw [given, Option.some.injEq] at isOther
  obtain ⟨short, clean⟩ := facts.safeReference reference.1 given
  rw [isOther] at short clean
  show (decide (entry.1 ≠ []) && decide (List.length entry.1 ≤ 200) && !entry.1.includesAny lineBreaks) = true
  rw [sameName, isOther]
  simp only [Bool.and_eq_true, decide_eq_true_eq, Bool.not_eq_true']
  exact ⟨⟨nonempty, short⟩, clean⟩

end Materialization

/-! ## Agreement -/

/-- Preflight predicts materialization exactly when, once the common checks pass, what preflight alone refuses and what
materialization alone refuses go together. -/
theorem preflight_predicts_materialization_iff (accepted : manifest.Accepted platform.unicode platform.urls)
    (secrets : ∀ credential ∈ state.credentials, AcceptedSecret platform.unicode cipher credential) :
    (Succeeds (preflight platform decimal settings state manifest) ↔
      Succeeds (buildBundle platform decimal cipher settings state manifest)) ↔
    (CommonChecks platform decimal settings state manifest → (PreflightOnly state manifest ↔
      MaterializationOnly platform decimal cipher settings state manifest)) := by
  have bundle : Succeeds (buildBundle platform decimal cipher settings state manifest) ↔
      CommonChecks platform decimal settings state manifest ∧
        MaterializationOnly platform decimal cipher settings state manifest :=
    ⟨checks_of_buildBundle accepted secrets, fun ⟨common, only⟩ => buildBundle_of_checks accepted secrets common only⟩
  rw [succeeds_preflight_iff accepted, bundle]
  exact and_congr_right_iff

/-! ## A tool without authentication -/

def openProfile : AuthProfile where
  id := "open"
  type := .none

theorem tokenCipher_accepted : ∀ credential ∈ tokenProject.credentials,
    AcceptedSecret plainPlatform.unicode tokenCipher credential := by
  intro credential member
  rw [List.mem_singleton.mp member]
  exact ⟨_, rfl, by decide⟩

/-- An enabled tool with a profile of type `none`: preflight refuses it and materialization does not. -/
theorem open_profile_refused :
    ¬ ∀ (platform : Platform) (decimal : Char → Option Nat) (cipher : Cipher) (settings : Settings) (state : ProjectState)
      (manifest : MCPManifest) (runtimeVersion : Text), manifest.Accepted platform.unicode platform.urls →
      validateManifestContract platform manifest runtimeVersion = .ok () →
      (∀ credential ∈ state.credentials, AcceptedSecret platform.unicode cipher credential) →
      (Succeeds (preflight platform decimal settings state manifest) ↔
        Succeeds (buildBundle platform decimal cipher settings state manifest)) := by
  intro always
  have agrees := always plainPlatform (fun _ => none) tokenCipher (privateHost "db.internal") tokenProject
    (profiledManifest openProfile) "1.0.0" (profiledManifest_accepted (by decide) rfl) (by decide +kernel)
    tokenCipher_accepted
  have builds : (buildBundle plainPlatform (fun _ => none) tokenCipher (privateHost "db.internal") tokenProject
      (profiledManifest openProfile)).isOk = true := by decide +kernel
  have refused : (preflight plainPlatform (fun _ => none) (privateHost "db.internal") tokenProject
      (profiledManifest openProfile)).isOk = false := by decide +kernel
  obtain ⟨passed, isPassed⟩ := agrees.mpr (exists_ok_of_isOk builds)
  rw [isPassed] at refused
  cases refused

/-- With a bearer token both accept. -/
theorem bearer_profile_predicted :
    Succeeds (preflight plainPlatform (fun _ => none) (privateHost "db.internal") tokenProject
        (profiledManifest bearerProfile)) ↔
      Succeeds (buildBundle plainPlatform (fun _ => none) tokenCipher (privateHost "db.internal") tokenProject
        (profiledManifest bearerProfile)) := by
  refine (preflight_predicts_materialization_iff (profiledManifest_accepted (by decide) rfl) tokenCipher_accepted).mpr
    fun _ => iff_of_true ⟨rfl, ?_⟩ ⟨?_, ?_⟩
  · rintro profile ⟨profileId, isRequired, found⟩
    rw [List.mem_singleton.mp (List.mem_reverse.mp (List.mem_of_find?_eq_some found))]
    decide
  · rintro profile ⟨profileId, isRequired, found⟩ isStatic
    rw [List.mem_singleton.mp (List.mem_reverse.mp (List.mem_of_find?_eq_some found))] at isStatic
    cases isStatic
  · exact exists_ok_of_isOk (by decide)

end Mcplica.Deployments
