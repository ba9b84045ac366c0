import Mcplica.Deployments.SecretMaterializer
import Mcplica.Contracts.SecretMount

/-! # What a bundle holds

Inversion of `build_bundle`: which references it has, and what is known of the credential of each. -/

namespace Mcplica.Deployments

open Mcplica.Domain Mcplica.Library Mcplica.Contracts

variable {platform : Platform} {decimal : Char → Option Nat} {manifest : MCPManifest}

/-! ## Profiles -/

theorem isAscii_of_isHeaderName {name : Text} (isName : isHeaderName name = true) : name.isAscii = true := by
  simp only [isHeaderName, Bool.and_eq_true, List.all_eq_true] at isName
  refine List.all_eq_true.mpr fun character member => ?_
  have special : ∀ character ∈ ("!#$%&'*+.^_`|~-" : Text), character.toNat < 128 := Text.forall_of_all (by decide)
  have allowed := isName.2 character member
  rw [isHeaderNameCharacter, Bool.or_eq_true, List.contains_iff_mem] at allowed
  have bound : character.toNat < 128 := by
    rcases allowed with alphanumeric | listed
    · rw [Text.isAlphanum_iff] at alphanumeric
      omega
    · exact special character listed
  simpa using bound

/-- What a validated profile has. -/
structure ProfileFacts (profile : AuthProfile) : Prop where
  reference : profile.type ≠ .none → ∃ reference, profile.credentialRef = some reference ∧ reference ≠ []
  noReference : profile.type = .none → profile.credentialRef = none
  safeReference : ∀ reference, profile.credentialRef = some reference →
    reference.length ≤ 200 ∧ Text.includesAny reference lineBreaks = false
  apiKey : profile.type = .apiKey → profile.location.isSome = true ∧ ∃ name, profile.name = some name ∧ name ≠ []
  staticHeader : profile.type = .staticHeader → ∃ name, profile.name = some name ∧ isHeaderName name = true

theorem profileFacts {unicode : Unicode} {profile : AuthProfile} (valid : profile.validateAuthFields unicode = .ok ()) :
    ProfileFacts profile := by
  simp only [AuthProfile.validateAuthFields, check_bind_eq_ok, ensure_eq_ok, decide_eq_true_eq] at valid
  obtain ⟨complete, unreferenced, -, -, -, safe, named, headerName, -⟩ := valid
  unfold AuthProfile.missing at complete
  rw [List.append_eq_nil_iff] at complete
  obtain ⟨ownFields, referenced⟩ := complete
  have namedText : ∀ name, profile.name = some name → name ≠ [] := by
    intro name given
    rw [given] at named
    simp only [Option.all_some, Bool.and_eq_true, decide_eq_true_eq] at named
    exact named.1
  refine ⟨fun typed => ?_, fun untyped => ?_, fun reference given => ?_, fun isKey => ?_, fun isStatic => ?_⟩
  · have nonempty : profile.credentialRef.getD [] ≠ [] := by
      intro missing
      rw [if_pos (by simp [typed, missing])] at referenced
      cases referenced
    cases given : profile.credentialRef with
    | none =>
      rw [given] at nonempty
      exact absurd rfl nonempty
    | some reference =>
      rw [given] at nonempty
      exact ⟨reference, rfl, nonempty⟩
  · simpa [untyped] using unreferenced
  · rw [given] at safe
    simp only [Option.all_some, Bool.and_eq_true, decide_eq_true_eq, Bool.not_eq_true'] at safe
    exact safe
  · rw [isKey] at ownFields
    simp only [List.append_eq_nil_iff] at ownFields
    obtain ⟨located, isNamed⟩ := ownFields
    refine ⟨?_, ?_⟩
    · cases isLocation : profile.location with
      | none =>
        rw [isLocation] at located
        cases located
      | some _ => rfl
    · cases given : profile.name with
      | none =>
        rw [given] at isNamed
        cases isNamed
      | some name => exact ⟨name, rfl, namedText name given⟩
  · rw [isStatic] at ownFields headerName
    cases given : profile.name with
    | none =>
      rw [given] at ownFields
      cases ownFields
    | some name =>
      rw [given] at headerName
      simp only [Option.all_some, decide_true, Bool.or_true, Bool.true_and, Bool.not_eq_true', Bool.or_eq_false_iff,
        Bool.not_eq_false'] at headerName
      exact ⟨name, rfl, headerName.1⟩

section Accepted

variable (accepted : manifest.Accepted platform.unicode platform.urls)

include accepted

theorem authIds_nodup : manifest.authIds.Nodup := by
  have references := accepted.references
  simp only [MCPManifest.validateReferences, check_bind_eq_ok, ensure_eq_ok, decide_eq_true_eq] at references
  exact references.2.1

theorem profile?_eq_some {profileId : Text} {profile : AuthProfile} :
    manifest.profile? profileId = some profile ↔ profile ∈ manifest.authProfiles ∧ profile.id = profileId := by
  constructor
  · intro found
    exact ⟨List.mem_reverse.mp (List.mem_of_find?_eq_some found), by simpa using List.find?_some found⟩
  · rintro ⟨member, rfl⟩
    have listed : profile ∈ manifest.authProfiles.reverse := List.mem_reverse.mpr member
    obtain ⟨other, found⟩ : ∃ other, manifest.profile? profile.id = some other :=
      Option.isSome_iff_exists.mp (List.find?_isSome.mpr ⟨profile, listed, by simp⟩)
    have isOther := List.mem_reverse.mp (List.mem_of_find?_eq_some found)
    have sameId : other.id = profile.id := by simpa using List.find?_some found
    rw [found, List.inj_on_of_nodup_map (authIds_nodup accepted) isOther member sameId]

theorem profileFacts_of_profile? {profileId : Text} {profile : AuthProfile}
    (found : manifest.profile? profileId = some profile) : ProfileFacts profile :=
  profileFacts (accepted.authProfiles profile ((profile?_eq_some accepted).mp found).1).1

/-- The profile is that of an enabled tool. -/
def Required (manifest : MCPManifest) (profile : AuthProfile) : Prop :=
  ∃ profileId ∈ manifest.requiredProfileIds, manifest.profile? profileId = some profile

theorem mem_referencingProfiles {reference : Text} {profile : AuthProfile} :
    profile ∈ referencingProfiles manifest reference ↔
      Required manifest profile ∧ profile.credentialRef = some reference := by
  simp only [referencingProfiles, List.mem_filter, Bool.and_eq_true, List.contains_iff_mem, decide_eq_true_eq, Required]
  constructor
  · rintro ⟨member, required, referenced⟩
    exact ⟨⟨profile.id, required, (profile?_eq_some accepted).mpr ⟨member, rfl⟩⟩, referenced⟩
  · rintro ⟨⟨profileId, required, found⟩, referenced⟩
    obtain ⟨member, rfl⟩ := (profile?_eq_some accepted).mp found
    exact ⟨member, required, referenced⟩

end Accepted

/-! ## References -/

/-- The profile needs no credential, or it names one by a UUID. -/
def HasReference (decimal : Char → Option Nat) (profile : AuthProfile) : Prop :=
  profile.type = .none ∨ ∃ reference credentialId, profile.credentialRef = some reference ∧ reference ≠ [] ∧
    Text.uuid decimal reference = some credentialId

/-- What one round does with the references. -/
theorem addReference_eq_ok {references next : List (Text × Uuid)} {profileId : Text} :
    addReference decimal manifest references profileId = .ok next ↔
      ∃ profile, manifest.profile? profileId = some profile ∧
        (profile.type = .none ∧ next = references ∨
          profile.type ≠ .none ∧ ∃ reference credentialId, profile.credentialRef = some reference ∧ reference ≠ [] ∧
            Text.uuid decimal reference = some credentialId ∧
            next = if (references.lookup reference).isSome then references
              else references ++ [(reference, credentialId)]) := by
  unfold addReference
  simp only [bind_eq_ok, obtain?_eq_ok]
  refine exists_congr fun profile => and_congr_right fun _ => ?_
  by_cases untyped : profile.type = .none
  · rw [if_pos untyped]
    simp only [untyped, true_and, ne_eq, not_true_eq_false, false_and, or_false, pure, Except.pure, Except.ok.injEq]
    exact eq_comm
  · rw [if_neg untyped]
    simp only [bind_eq_ok, ensure_eq_ok, obtain?_eq_ok, untyped, false_and, false_or, ne_eq, not_false_eq_true, true_and,
      pure, Except.pure, Except.ok.injEq, exists_const_unit, decide_eq_true_eq]
    constructor
    · rintro ⟨nonempty, credentialId, isId, rfl⟩
      cases given : profile.credentialRef with
      | none =>
        rw [given] at nonempty
        exact absurd rfl nonempty
      | some reference =>
        rw [given] at nonempty isId
        exact ⟨reference, credentialId, rfl, nonempty, isId, rfl⟩
    · rintro ⟨reference, credentialId, given, nonempty, isId, rfl⟩
      rw [given]
      exact ⟨nonempty, credentialId, isId, rfl⟩

theorem succeeds_credentialReferences_iff : Succeeds (credentialReferences decimal manifest) ↔
    ∀ profileId ∈ manifest.requiredProfileIds, ∃ profile, manifest.profile? profileId = some profile ∧
      HasReference decimal profile := by
  refine succeeds_foldlM_iff fun references profileId _ => ?_
  simp only [Succeeds, addReference_eq_ok, HasReference]
  constructor
  · rintro ⟨next, profile, found, ⟨untyped, -⟩ | ⟨-, reference, credentialId, given, nonempty, isId, -⟩⟩
    · exact ⟨profile, found, .inl untyped⟩
    · exact ⟨profile, found, .inr ⟨reference, credentialId, given, nonempty, isId⟩⟩
  · rintro ⟨profile, found, hasReference⟩
    by_cases untyped : profile.type = .none
    · exact ⟨references, profile, found, .inl ⟨untyped, rfl⟩⟩
    · obtain ⟨reference, credentialId, given, nonempty, isId⟩ := hasReference.resolve_left untyped
      exact ⟨_, profile, found, .inr ⟨untyped, reference, credentialId, given, nonempty, isId, rfl⟩⟩

/-- The references of the required profiles that need a credential, each once. -/
structure References (decimal : Char → Option Nat) (manifest : MCPManifest) (profileIds : List Text)
    (references : List (Text × Uuid)) : Prop where
  unique : (references.map Prod.fst).Nodup
  listed : ∀ entry ∈ references, Text.uuid decimal entry.1 = some entry.2 ∧
    ∃ profileId ∈ profileIds, ∃ profile, manifest.profile? profileId = some profile ∧ profile.type ≠ .none ∧
      profile.credentialRef = some entry.1
  complete : ∀ profileId ∈ profileIds, ∃ profile, manifest.profile? profileId = some profile ∧
    (profile.type ≠ .none → ∃ entry ∈ references, profile.credentialRef = some entry.1)

theorem references_of_credentialReferences {references : List (Text × Uuid)}
    (made : credentialReferences decimal manifest = .ok references) :
    References decimal manifest manifest.requiredProfileIds references := by
  refine foldlM_induction (fun read state => References decimal manifest read state) ?_ ?_ made
  · exact ⟨List.nodup_nil, (fun _ member => by cases member), (fun _ member => by cases member)⟩
  intro read references profileId next known step
  obtain ⟨profile, found, ⟨untyped, rfl⟩ | ⟨typed, reference, credentialId, given, nonempty, isId, rfl⟩⟩ :=
    addReference_eq_ok.mp step
  · refine ⟨known.unique, fun entry member => ?_, fun other member => ?_⟩
    · obtain ⟨isId, source, isSource, rest⟩ := known.listed entry member
      exact ⟨isId, source, List.mem_append_left _ isSource, rest⟩
    · rcases List.mem_append.mp member with before | last
      · exact known.complete other before
      · rw [List.mem_singleton.mp last]
        exact ⟨profile, found, fun typed => absurd untyped typed⟩
  · have oldListed : ∀ entry ∈ references, Text.uuid decimal entry.1 = some entry.2 ∧
        ∃ source ∈ read ++ [profileId], ∃ profile, manifest.profile? source = some profile ∧ profile.type ≠ .none ∧
          profile.credentialRef = some entry.1 := by
      intro entry member
      obtain ⟨isId, source, isSource, rest⟩ := known.listed entry member
      exact ⟨isId, source, List.mem_append_left _ isSource, rest⟩
    split
    · rename_i present
      refine ⟨known.unique, oldListed, fun other member => ?_⟩
      rcases List.mem_append.mp member with before | last
      · exact known.complete other before
      · rw [List.mem_singleton.mp last]
        obtain ⟨entry, isEntry, same⟩ := List.mem_map.mp (lookup_isSome.mp present)
        exact ⟨profile, found, fun _ => ⟨entry, isEntry, by rw [given, same]⟩⟩
    · rename_i absent
      refine ⟨?_, fun entry member => ?_, fun other member => ?_⟩
      · rw [List.map_append]
        refine known.unique.append (List.nodup_singleton _) ?_
        simpa using fun entry member => absent (lookup_isSome.mpr (List.mem_map.mpr ⟨_, member, rfl⟩))
      · rcases List.mem_append.mp member with before | last
        · exact oldListed entry before
        · rw [List.mem_singleton.mp last]
          exact ⟨isId, profileId, by simp, profile, found, typed, given⟩
      · rcases List.mem_append.mp member with before | last
        · obtain ⟨known, isKnown, referenced⟩ := known.complete other before
          refine ⟨known, isKnown, fun typed => ?_⟩
          obtain ⟨entry, isEntry, same⟩ := referenced typed
          exact ⟨entry, List.mem_append_left _ isEntry, same⟩
        · rw [List.mem_singleton.mp last]
          exact ⟨profile, found, fun _ => ⟨(reference, credentialId), by simp, given⟩⟩

/-! ## Stored credentials -/

/-- The stored credential of an identifier in the project. -/
structure StoredCredential (state : ProjectState) (credentialId : Uuid) (credential : EncryptedCredential) : Prop where
  stored : credential ∈ state.credentials
  project : credential.projectId = state.projectId
  id : credential.id = credentialId

theorem storedCredential_unique {state : ProjectState} {credentialId : Uuid} {first second : EncryptedCredential}
    (isFirst : StoredCredential state credentialId first) (isSecond : StoredCredential state credentialId second) :
    first = second :=
  Table.eq_of_key isFirst.stored isSecond.stored (isFirst.id.trans isSecond.id.symm)

section Decryption

variable {cipher : Cipher} {state : ProjectState} {ids : List Uuid}

theorem mem_getEncryptedMany {credential : EncryptedCredential} :
    credential ∈ getEncryptedMany state.credentials state.projectId ids ↔
      ∃ credentialId ∈ ids, StoredCredential state credentialId credential := by
  simp only [getEncryptedMany, List.mem_filter, Bool.and_eq_true, decide_eq_true_eq, List.contains_iff_mem]
  constructor
  · rintro ⟨stored, project, listed⟩
    exact ⟨credential.id, listed, stored, project, rfl⟩
  · rintro ⟨credentialId, listed, stored, project, rfl⟩
    exact ⟨stored, project, listed⟩

theorem nodup_getEncryptedMany : ((getEncryptedMany state.credentials state.projectId ids).map EncryptedCredential.id).Nodup :=
  state.credentials.unique.sublist (List.filter_sublist.map _)

/-- As many rows as identifiers are found exactly when every identifier has one. -/
theorem length_getEncryptedMany_iff (distinct : ids.Nodup) :
    (getEncryptedMany state.credentials state.projectId ids).length = ids.length ↔
      ∀ credentialId ∈ ids, ∃ credential, StoredCredential state credentialId credential := by
  have subset : (getEncryptedMany state.credentials state.projectId ids).map EncryptedCredential.id ⊆ ids := by
    intro credentialId member
    obtain ⟨credential, found, rfl⟩ := List.mem_map.mp member
    obtain ⟨listed, isListed, isStored⟩ := mem_getEncryptedMany.mp found
    rw [isStored.id]
    exact isListed
  have subperm := List.subperm_of_subset nodup_getEncryptedMany subset
  have counted : (getEncryptedMany state.credentials state.projectId ids).length =
      ((getEncryptedMany state.credentials state.projectId ids).map EncryptedCredential.id).length :=
    (List.length_map EncryptedCredential.id).symm
  rw [counted]
  constructor
  · intro same credentialId member
    have perm := subperm.perm_of_length_le (Nat.le_of_eq same.symm)
    obtain ⟨credential, found, rfl⟩ := List.mem_map.mp (perm.mem_iff.mpr member)
    obtain ⟨listed, -, isStored⟩ := mem_getEncryptedMany.mp found
    exact ⟨credential, isStored.stored, isStored.project, rfl⟩
  · intro each
    refine Nat.le_antisymm subperm.length_le (List.subperm_of_subset distinct fun credentialId member => ?_).length_le
    obtain ⟨credential, isStored⟩ := each credentialId member
    exact List.mem_map.mpr ⟨credential, mem_getEncryptedMany.mpr ⟨credentialId, member, isStored⟩, isStored.id⟩

theorem decryptCredential_eq_ok {credential : EncryptedCredential} {result : Uuid × CredentialScheme × JsonObject} :
    decryptCredential cipher credential = .ok result ↔ credential.revokedAt = none ∧
      ∃ secret, cipher credential = .ok secret ∧ result = (credential.id, credential.schemeType, secret) := by
  simp only [decryptCredential, ensure_eq_ok, bind_eq_ok, exists_const_unit, Option.isNone_iff_eq_none, pure, Except.pure,
    Except.ok.injEq, eq_comm (a := result)]

theorem succeeds_decryptMany_iff (distinct : ids.Nodup) :
    Succeeds (decryptManyForExecution cipher state.credentials state.projectId ids) ↔
      ∀ credentialId ∈ ids, ∃ credential, StoredCredential state credentialId credential ∧ credential.revokedAt = none ∧
        Succeeds (cipher credential) := by
  unfold decryptManyForExecution
  rw [succeeds_ensure_bind, succeeds_mapM, decide_eq_true_eq, length_getEncryptedMany_iff distinct]
  constructor
  · rintro ⟨found, decrypted⟩ credentialId member
    obtain ⟨credential, isStored⟩ := found credentialId member
    obtain ⟨result, isResult⟩ := decrypted credential (mem_getEncryptedMany.mpr ⟨credentialId, member, isStored⟩)
    obtain ⟨active, secret, isSecret, -⟩ := decryptCredential_eq_ok.mp isResult
    exact ⟨credential, isStored, active, secret, isSecret⟩
  · intro each
    refine ⟨fun credentialId member => ?_, fun credential member => ?_⟩
    · obtain ⟨credential, isStored, -⟩ := each credentialId member
      exact ⟨credential, isStored⟩
    · obtain ⟨credentialId, listed, isStored⟩ := mem_getEncryptedMany.mp member
      obtain ⟨other, isOther, active, secret, isSecret⟩ := each credentialId listed
      rw [storedCredential_unique isStored isOther]
      exact ⟨_, decryptCredential_eq_ok.mpr ⟨active, secret, isSecret, rfl⟩⟩

/-- The decrypted secret of an identifier is that of its stored credential. -/
theorem lookup_decrypted {decrypted : List (Uuid × CredentialScheme × JsonObject)} (distinct : ids.Nodup)
    (made : decryptManyForExecution cipher state.credentials state.projectId ids = .ok decrypted) {credentialId : Uuid}
    (listed : credentialId ∈ ids) : ∃ credential secret, StoredCredential state credentialId credential ∧
      credential.revokedAt = none ∧ cipher credential = .ok secret ∧
      decrypted.lookup credentialId = some (credential.schemeType, secret) := by
  simp only [decryptManyForExecution, check_bind_eq_ok, ensure_eq_ok, decide_eq_true_eq] at made
  obtain ⟨complete, ran⟩ := made
  obtain ⟨credential, isStored⟩ := (length_getEncryptedMany_iff distinct).mp complete credentialId listed
  have keys : (getEncryptedMany state.credentials state.projectId ids).map EncryptedCredential.id = decrypted.map Prod.fst := by
    refine (map_of_mapM ran fun credential result isResult => ?_).symm
    obtain ⟨-, secret, -, rfl⟩ := decryptCredential_eq_ok.mp isResult
    rfl
  obtain ⟨result, isMember, isResult⟩ :=
    exists_of_mapM_source ran (mem_getEncryptedMany.mpr ⟨credentialId, listed, isStored⟩)
  obtain ⟨active, secret, isSecret, rfl⟩ := decryptCredential_eq_ok.mp isResult
  refine ⟨credential, secret, isStored, active, isSecret, ?_⟩
  have unique : (decrypted.map Prod.fst).Nodup := by
    rw [← keys]
    exact nodup_getEncryptedMany
  rw [← isStored.id]
  exact lookup_of_mem unique isMember

end Decryption

/-! ## Credentials -/

/-- A credential has what the profiles of its type need. -/
def Provides (platform : Platform) (profiles : List AuthProfile) (credential : UpstreamCredential) : Prop :=
  match credential.type with
  | .bearer => credential.token.isSome = true
  | .apiKey => credential.apiKey.isSome = true
  | .basic => credential.username.isSome = true ∧ credential.password.isSome = true
  | .oauth2ClientCredentials => credential.clientId.isSome = true ∧ credential.clientSecret.isSome = true
  | .staticHeader => ∃ headers, credential.headers = some headers ∧ (∀ header ∈ headers, isHeaderName header.1 = true) ∧
      ∀ name, name ∈ headers.map (fun header => header.1.lower platform.unicode) ↔ name ∈ expectedNames platform profiles

theorem makeCredential_eq_ok {given credential : UpstreamCredential} :
    makeCredential platform given = .ok credential ↔
      given.validateExactSecretShape platform.unicode = .ok () ∧ given = credential := by
  simp only [makeCredential, check_bind_eq_ok, pure, Except.pure, Except.ok.injEq]

theorem availableByName_spec {headers : JsonObject} {name : Text} {header : Text × Json}
    (found : availableByName platform headers name = some header) :
    header ∈ headers ∧ header.1.lower platform.unicode = name :=
  ⟨List.mem_reverse.mp (List.mem_of_find?_eq_some found), by simpa using List.find?_some found⟩

theorem selectedHeader_eq_ok {headers : JsonObject} {name : Text} {entry : Text × Text} :
    selectedHeader platform headers name = .ok entry ↔ ∃ header, availableByName platform headers name = some header ∧
      header.1 = entry.1 ∧ plainText header.2 = .ok entry.2 := by
  obtain ⟨spelling, text⟩ := entry
  simp only [selectedHeader, bind_eq_ok, obtain?_eq_ok, pure, Except.pure, Except.ok.injEq, Prod.mk.injEq]
  refine exists_congr fun header => and_congr_right fun _ => ?_
  constructor
  · rintro ⟨value, isText, same, rfl⟩
    exact ⟨same, isText⟩
  · rintro ⟨same, isText⟩
    exact ⟨text, isText, same, rfl⟩

theorem names_staticHeaders {profiles : List AuthProfile} {secret : JsonObject} {headers : List (Text × Text)}
    (made : staticHeaders platform profiles secret = .ok headers) (name : Text) :
    name ∈ headers.map (fun header => header.1.lower platform.unicode) ↔ name ∈ expectedNames platform profiles := by
  unfold staticHeaders at made
  split at made
  · rename_i available isAvailable
    simp only [check_bind_eq_ok, ensure_eq_ok] at made
    obtain ⟨-, ran⟩ := made
    have same : Text.sorted (expectedNames platform profiles) =
        headers.map fun header => header.1.lower platform.unicode := by
      have keeps : (Text.sorted (expectedNames platform profiles)).map id =
          headers.map fun header => header.1.lower platform.unicode := by
        refine (map_of_mapM ran fun expected header isMade => ?_).symm
        obtain ⟨found, isFound, same, -⟩ := selectedHeader_eq_ok.mp isMade
        rw [← same]
        exact (availableByName_spec isFound).2
      rwa [List.map_id] at keeps
    rw [← same, Text.mem_sorted]
  · cases made

/-- What a credential made for a type is. -/
theorem credentialOf_spec {type : CredentialType} {profiles : List AuthProfile} {secret : JsonObject}
    {credential : UpstreamCredential} (made : credentialOf platform type profiles secret = .ok credential) :
    credential.type = type ∧ credential.validateExactSecretShape platform.unicode = .ok () ∧
      Provides platform profiles credential := by
  cases type with
  | bearer =>
    simp only [credentialOf, bind_eq_ok, makeCredential_eq_ok] at made
    obtain ⟨token, -, valid, rfl⟩ := made
    exact ⟨rfl, valid, rfl⟩
  | apiKey =>
    simp only [credentialOf, bind_eq_ok, makeCredential_eq_ok] at made
    obtain ⟨value, -, valid, rfl⟩ := made
    exact ⟨rfl, valid, rfl⟩
  | basic =>
    simp only [credentialOf, bind_eq_ok, makeCredential_eq_ok] at made
    obtain ⟨username, -, password, -, valid, rfl⟩ := made
    exact ⟨rfl, valid, rfl, rfl⟩
  | oauth2ClientCredentials =>
    simp only [credentialOf, bind_eq_ok, makeCredential_eq_ok] at made
    obtain ⟨clientId, -, clientSecret, -, valid, rfl⟩ := made
    exact ⟨rfl, valid, rfl, rfl⟩
  | staticHeader =>
    simp only [credentialOf, bind_eq_ok, makeCredential_eq_ok] at made
    obtain ⟨headers, isHeaders, valid, rfl⟩ := made
    refine ⟨rfl, valid, headers, rfl, fun header member => ?_, names_staticHeaders isHeaders⟩
    simp only [UpstreamCredential.validateExactSecretShape, check_bind_eq_ok] at valid
    exact ((UpstreamCredential.validateHeaders_eq_ok.mp valid.2.2.2).1 header member).1

/-- The scheme of a credential is the one that the profile needs. -/
def SchemeFits (scheme : CredentialScheme) (profile : AuthProfile) : Prop :=
  profile.type = (runtimeType scheme).authType ∧ (profile.type = .apiKey → profile.location = requiredLocation scheme)

theorem runtimeCredential_eq_ok {reference : Text} {scheme : CredentialScheme} {secret : JsonObject}
    {credential : UpstreamCredential} : runtimeCredential platform manifest reference scheme secret = .ok credential ↔
      referencingProfiles manifest reference ≠ [] ∧
      (∀ profile ∈ referencingProfiles manifest reference, SchemeFits scheme profile) ∧
      credentialOf platform (runtimeType scheme) (referencingProfiles manifest reference) secret = .ok credential := by
  unfold runtimeCredential
  simp only [check_bind_eq_ok, ensure_eq_ok, Bool.and_eq_true, Bool.not_eq_true', List.isEmpty_eq_false_iff,
    List.all_eq_true, decide_eq_true_eq, Bool.and_eq_false_iff, decide_eq_false_iff_not, List.any_eq_false, and_assoc,
    SchemeFits, decide_not]
  refine and_congr_right fun _ => ?_
  rw [← and_assoc]
  refine and_congr_left fun _ => ?_
  constructor
  · rintro ⟨typed, located⟩ profile member
    refine ⟨typed profile member, fun isKey => ?_⟩
    rcases located with notKey | each
    · have : (runtimeType scheme).authType = .apiKey := (typed profile member).symm.trans isKey
      revert this notKey
      cases runtimeType scheme <;> simp [CredentialType.authType]
    · simpa using each profile member
  · intro each
    refine ⟨fun profile member => (each profile member).1, ?_⟩
    by_cases isKey : runtimeType scheme = .apiKey
    · refine .inr fun profile member => ?_
      have fits := each profile member
      rw [isKey] at fits
      simpa using fits.2 fits.1
    · exact .inl isKey

end Mcplica.Deployments
