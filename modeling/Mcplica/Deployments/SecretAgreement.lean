import Mcplica.Deployments.SecretBundles
import Mcplica.Runtime.Upstream
import Mathlib.Logic.Encodable.Basic

/-! # Bundles and the runtime

A bundle that the materializer builds for a manifest is one that the runtime of the manifest accepts: it finds every
credential it needs, and nothing else. Only its network policy may be lost on the way through the mount. -/

namespace Mcplica.Deployments

open Mcplica.Domain Mcplica.Library Mcplica.Contracts Mcplica.Runtime

variable {platform : Platform} {times : DateTimes} {decimal : Char → Option Nat} {cipher : Cipher} {settings : Settings}
  {state : ProjectState} {manifest : MCPManifest} {bundle : RuntimeSecretBundle}

/-! ## Inversion -/

/-- The parts of a built bundle. -/
structure Bundled (platform : Platform) (decimal : Char → Option Nat) (settings : Settings) (state : ProjectState)
    (manifest : MCPManifest) (bundle : RuntimeSecretBundle) (references : List (Text × Uuid)) : Prop where
  isReferences : References decimal manifest manifest.requiredProfileIds references
  keys : bundle.upstreamCredentials.map Prod.fst = references.map Prod.fst
  credentials : ∀ entry ∈ bundle.upstreamCredentials, ∃ scheme secret,
    runtimeCredential platform manifest entry.1 scheme secret = .ok entry.2
  inboundAuth : materializeInboundAuth platform state.hostname state.authConfig state.tokenVerifiers settings =
    .ok bundle.inboundAuth
  networkPolicy : NetworkPolicy.make platform (configuredHosts settings) = .ok bundle.networkPolicy
  safeReferences : validateCredentialReferences bundle.upstreamCredentials = .ok ()

theorem bundled_of_buildBundle (built : buildBundle platform decimal cipher settings state manifest = .ok bundle) :
    ∃ references, Bundled platform decimal settings state manifest bundle references := by
  simp only [buildBundle, bind_eq_ok] at built
  obtain ⟨references, isReferences, decrypted, -, credentials, ran, inboundAuth, isInbound, network, isNetwork, _,
    safe, same⟩ := built
  cases same
  have keys : credentials.map Prod.fst = references.map Prod.fst := by
    refine map_of_mapM ran fun reference entry isEntry => ?_
    simp only [upstreamCredential, bind_eq_ok] at isEntry
    obtain ⟨_, -, credential, -, same⟩ := isEntry
    cases same
    rfl
  refine ⟨references, references_of_credentialReferences isReferences, keys, ?_, isInbound, isNetwork, safe⟩
  intro entry member
  obtain ⟨reference, -, isEntry⟩ := exists_of_mapM_result ran member
  simp only [upstreamCredential, bind_eq_ok] at isEntry
  obtain ⟨⟨scheme, secret⟩, -, credential, isCredential, same⟩ := isEntry
  cases same
  exact ⟨scheme, secret, isCredential⟩

/-! ## The mount -/

theorem parsed_of_anyHttpUrl {text url : Text} (made : anyHttpUrl platform text = .ok url) : platform.urls.Parsed url :=
  ⟨text, obtain?_eq_ok.mp made⟩

theorem make_fields {given secrets : InboundAuthSecrets} (made : InboundAuthSecrets.make given = .ok secrets) :
    secrets.staticTokens = given.staticTokens ∧ secrets.issuerUrl = given.issuerUrl ∧ secrets.jwksUrl = given.jwksUrl ∧
      secrets.resourceUrl = given.resourceUrl := by
  simp only [InboundAuthSecrets.make, bind_eq_ok] at made
  obtain ⟨_, -, _, -, _, -, _, -, same⟩ := made
  cases same
  exact ⟨rfl, rfl, rfl, rfl⟩

theorem valid_inboundAuth {hostname : Text} {config : Option MCPAuthConfigRecord} {verifiers : List MCPTokenVerifierRecord}
    {secrets : InboundAuthSecrets}
    (made : materializeInboundAuth platform hostname config verifiers settings = .ok secrets) : secrets.Valid platform := by
  unfold materializeInboundAuth at made
  split at made
  · -- Static tokens are the digests of the verifiers.
    simp only [bind_eq_ok] at made
    obtain ⟨tokens, isTokens, made⟩ := made
    obtain ⟨sameTokens, sameIssuer, sameJwks, sameResource⟩ := make_fields made
    refine ⟨fun token member => ?_, fun url given => ?_, _, made⟩
    · rw [sameTokens] at member
      obtain ⟨verifier, -, isToken⟩ := exists_of_mapM_result isTokens member
      exact ⟨_, _, _, isToken⟩
    · rw [sameIssuer, sameJwks, sameResource] at given
      rcases given with given | given | given <;> cases given
  · simp only [check_bind_eq_ok] at made
    obtain ⟨-, made⟩ := made
    obtain ⟨sameTokens, sameIssuer, sameJwks, sameResource⟩ := make_fields made
    refine ⟨fun token member => ?_, fun url given => ?_, _, made⟩
    · rw [sameTokens] at member
      cases member
    · rw [sameIssuer, sameJwks, sameResource] at given
      rcases given with given | given | given <;> cases given
  · cases made
  · -- The URLs of the OIDC mode have been parsed.
    simp only [bind_eq_ok, ensure_eq_ok, exists_const_unit] at made
    obtain ⟨-, jwksText, -, algorithms, -, issuer, isIssuer, jwks, isJwks, resource, isResource, made⟩ := made
    obtain ⟨sameTokens, sameIssuer, sameJwks, sameResource⟩ := make_fields made
    refine ⟨fun token member => ?_, fun url given => ?_, _, made⟩
    · rw [sameTokens] at member
      cases member
    · rw [sameIssuer, sameJwks, sameResource] at given
      rcases given with given | given | given
      · cases given
        exact parsed_of_anyHttpUrl isIssuer
      · have isGiven : jwks = some url := given
        subst isGiven
        cases jwksText with
        | none => cases isJwks
        | some text =>
          simp only [Option.mapM_some, Functor.map, Except.map] at isJwks
          split at isJwks
          · cases isJwks
          · rename_i parsed isParsed
            cases isJwks
            exact parsed_of_anyHttpUrl isParsed
      · cases given
        exact parsed_of_anyHttpUrl isResource

theorem valid_bundle {references : List (Text × Uuid)}
    (bundled : Bundled platform decimal settings state manifest bundle references) :
    bundle.Valid platform (configuredHosts settings) := by
  refine ⟨fun entry member => ?_, bundled.safeReferences, valid_inboundAuth bundled.inboundAuth, bundled.networkPolicy⟩
  obtain ⟨scheme, secret, isCredential⟩ := bundled.credentials entry member
  exact (credentialOf_spec (runtimeCredential_eq_ok.mp isCredential).2.2).2.1

/-! ## The configuration -/

section Configuration

variable {references : List (Text × Uuid)} (accepted : manifest.Accepted platform.unicode platform.urls)
  (bundled : Bundled platform decimal settings state manifest bundle references)

include accepted bundled

/-- The credential of a reference fits the profiles that use it. -/
theorem exists_credential {profile : AuthProfile} (required : Required manifest profile) (typed : profile.type ≠ .none) :
    ∃ reference credential, profile.credentialRef = some reference ∧
      (reference, credential) ∈ bundle.upstreamCredentials ∧
      bundle.upstreamCredentials.lookup reference = some credential ∧
      credential.type.authType = profile.type ∧
      Provides platform (referencingProfiles manifest reference) credential := by
  obtain ⟨profileId, isRequired, found⟩ := required
  obtain ⟨known, isKnown, referenced⟩ := bundled.isReferences.complete profileId isRequired
  rw [found, Option.some.injEq] at isKnown
  subst isKnown
  obtain ⟨entry, isEntry, given⟩ := referenced typed
  have isKey : entry.1 ∈ bundle.upstreamCredentials.map Prod.fst := by
    rw [bundled.keys]
    exact List.mem_map_of_mem isEntry
  obtain ⟨⟨reference, credential⟩, member, same⟩ := List.mem_map.mp isKey
  have sameReference : entry.1 = reference := same.symm
  rw [sameReference] at given
  have unique : (bundle.upstreamCredentials.map Prod.fst).Nodup := by
    rw [bundled.keys]
    exact bundled.isReferences.unique
  obtain ⟨scheme, secret, isCredential⟩ := bundled.credentials _ member
  obtain ⟨-, fits, made⟩ := runtimeCredential_eq_ok.mp isCredential
  obtain ⟨isType, -, provides⟩ := credentialOf_spec made
  have isProfile := (mem_referencingProfiles accepted).mpr ⟨⟨profileId, isRequired, found⟩, given⟩
  refine ⟨reference, credential, given, member, lookup_of_mem unique member, ?_, provides⟩
  rw [isType]
  exact (fits profile isProfile).1.symm

theorem matchingCredential_eq_some {profile : AuthProfile} (required : Required manifest profile)
    (typed : profile.type ≠ .none) : ∃ reference credential, profile.credentialRef = some reference ∧
      matchingCredential bundle.upstreamCredentials profile = some credential ∧
      credential.type.authType = profile.type ∧
      Provides platform (referencingProfiles manifest reference) credential := by
  obtain ⟨reference, credential, given, -, found, sameType, provides⟩ := exists_credential accepted bundled required typed
  refine ⟨reference, credential, given, ?_, sameType, provides⟩
  unfold matchingCredential
  rw [given, Option.getD_some, found]
  simp [Option.filter, sameType]

omit bundled in
/-- The name of a profile that uses static headers. -/
theorem staticName {reference name : Text} {scheme : CredentialScheme} {credential : UpstreamCredential}
    {profile : AuthProfile} (fits : ∀ profile ∈ referencingProfiles manifest reference, SchemeFits scheme profile)
    (isType : credential.type = runtimeType scheme) (isStatic : credential.type = .staticHeader)
    (isProfile : profile ∈ referencingProfiles manifest reference) (isName : profile.name = some name) :
    name ≠ [] ∧ isHeaderName name = true := by
  obtain ⟨⟨profileId, -, found⟩, -⟩ := (mem_referencingProfiles accepted).mp isProfile
  have typed : profile.type = .staticHeader := by
    rw [(fits profile isProfile).1, ← isType, isStatic]
    rfl
  obtain ⟨given, isGiven, isHeader⟩ := (profileFacts_of_profile? accepted found).staticHeader typed
  rw [isName, Option.some.injEq] at isGiven
  subst isGiven
  refine ⟨?_, isHeader⟩
  rintro rfl
  cases isHeader

omit bundled in
theorem mem_credentialProfiles {reference : Text} {profile : AuthProfile} :
    profile ∈ credentialProfiles manifest reference ↔ profile ∈ referencingProfiles manifest reference := by
  rw [mem_referencingProfiles accepted]
  simp only [credentialProfiles, List.mem_filter, List.mem_filterMap, decide_eq_true_eq, Required]

/-- The static headers of a credential are those that its profiles name. -/
theorem checkStaticHeaders_eq_ok {reference : Text} {credential : UpstreamCredential}
    (member : (reference, credential) ∈ bundle.upstreamCredentials) :
    checkStaticHeaders platform manifest bundle.upstreamCredentials reference = .ok () := by
  have unique : (bundle.upstreamCredentials.map Prod.fst).Nodup := by
    rw [bundled.keys]
    exact bundled.isReferences.unique
  unfold checkStaticHeaders
  rw [lookup_of_mem unique member]
  by_cases isStatic : credential.type = .staticHeader
  · obtain ⟨scheme, secret, isCredential⟩ := bundled.credentials _ member
    obtain ⟨-, fits, made⟩ := runtimeCredential_eq_ok.mp isCredential
    obtain ⟨isType, -, provides⟩ := credentialOf_spec made
    rw [Provides, isStatic] at provides
    obtain ⟨headers, isHeaders, headerNames, sameNames⟩ := provides
    -- Both sides compare the same names, since header names are ASCII.
    have actual : headers.map (fun header => header.1.casefold platform.unicode) =
        headers.map fun header => header.1.lower platform.unicode := by
      refine List.map_congr_left fun header isHeader => ?_
      have ascii := isAscii_of_isHeaderName (headerNames header isHeader)
      rw [Text.casefold_of_isAscii ascii, Text.lower_of_isAscii ascii]
    have expected : ∀ name, name ∈ ((credentialProfiles manifest reference).filterMap AuthProfile.name).map
        (Text.casefold platform.unicode) ↔ name ∈ expectedNames platform (referencingProfiles manifest reference) := by
      intro name
      simp only [expectedNames, List.mem_dedup, List.mem_map, List.mem_filter, List.mem_filterMap, decide_eq_true_eq,
        mem_credentialProfiles accepted]
      refine exists_congr fun given => ?_
      constructor
      · rintro ⟨⟨profile, isProfile, isName⟩, rfl⟩
        obtain ⟨facts, isHeaderName⟩ := staticName accepted fits isType isStatic isProfile isName
        have ascii := isAscii_of_isHeaderName isHeaderName
        rw [Text.casefold_of_isAscii ascii, Text.lower_of_isAscii ascii]
        exact ⟨⟨⟨profile, isProfile, isName⟩, facts⟩, rfl⟩
      · rintro ⟨⟨⟨profile, isProfile, isName⟩, -⟩, rfl⟩
        obtain ⟨-, isHeaderName⟩ := staticName accepted fits isType isStatic isProfile isName
        have ascii := isAscii_of_isHeaderName isHeaderName
        rw [Text.casefold_of_isAscii ascii, Text.lower_of_isAscii ascii]
        exact ⟨⟨profile, isProfile, isName⟩, rfl⟩
    show (if credential.type = .staticHeader then _ else _) = _
    rw [if_pos isStatic, isHeaders, ensure_eq_ok, Bool.and_eq_true, List.all_eq_true, List.all_eq_true]
    simp only [List.contains_iff_mem, Option.getD_some, actual]
    refine ⟨fun name isActual => ?_, fun name isExpected => ?_⟩
    · exact (expected name).mpr ((sameNames name).mp isActual)
    · exact (sameNames name).mpr ((expected name).mp isExpected)
  · show (if credential.type = .staticHeader then _ else _) = _
    rw [if_neg isStatic]
    rfl

omit accepted bundled in
theorem requireCredential_eq_ok {credentials : List (Text × UpstreamCredential)} {required next : List Text}
    {profileId : Text} : requireCredential platform manifest credentials required profileId = .ok next ↔
      ∃ profile, manifest.profile? profileId = some profile ∧
        (profile.type = .none ∧ next = required ∨ profile.type ≠ .none ∧
          (matchingCredential credentials profile).isSome = true ∧ next = profile.credentialRef.getD [] :: required) := by
  unfold requireCredential
  simp only [bind_eq_ok, obtain?_eq_ok]
  refine exists_congr fun profile => and_congr_right fun _ => ?_
  by_cases untyped : profile.type = .none
  · rw [if_pos untyped]
    simp only [untyped, true_and, ne_eq, not_true_eq_false, false_and, or_false, pure, Except.pure, Except.ok.injEq]
    exact eq_comm
  · rw [if_neg untyped]
    simp only [bind_eq_ok, obtain?_eq_ok, untyped, false_and, false_or, ne_eq, not_false_eq_true, true_and, pure,
      Except.pure, Except.ok.injEq, Option.isSome_iff_exists, exists_and_right, eq_comm (a := next)]

omit accepted in
/-- The credentials that the runtime requires are those of the bundle. -/
theorem required_of_foldlM {required : List Text}
    (ran : manifest.requiredProfileIds.foldlM
      (requireCredential platform manifest bundle.upstreamCredentials) [] = .ok required) (reference : Text) :
    reference ∈ required ↔ reference ∈ bundle.upstreamCredentials.map Prod.fst := by
  have listed : ∀ reference, reference ∈ required ↔ ∃ profileId ∈ manifest.requiredProfileIds, ∃ profile,
      manifest.profile? profileId = some profile ∧ profile.type ≠ .none ∧ profile.credentialRef.getD [] = reference := by
    refine foldlM_induction (fun read state => ∀ reference, reference ∈ state ↔ ∃ profileId ∈ read, ∃ profile,
      manifest.profile? profileId = some profile ∧ profile.type ≠ .none ∧ profile.credentialRef.getD [] = reference)
      (fun _ => by simp) ?_ ran
    intro read state profileId next known step reference
    simp only [List.mem_append, List.mem_singleton, or_and_right, exists_or, exists_eq_left, ← known reference]
    obtain ⟨profile, found, ⟨untyped, rfl⟩ | ⟨typed, -, rfl⟩⟩ := requireCredential_eq_ok.mp step
    · simp only [found, Option.some.injEq, exists_eq_left', ne_eq, untyped, not_true_eq_false, false_and, or_false]
    · simp only [found, Option.some.injEq, exists_eq_left', ne_eq, typed, not_false_eq_true, true_and, List.mem_cons]
      rw [or_comm, eq_comm]
  rw [listed, bundled.keys]
  constructor
  · rintro ⟨profileId, isRequired, profile, found, typed, rfl⟩
    obtain ⟨known, isKnown, referenced⟩ := bundled.isReferences.complete profileId isRequired
    rw [found, Option.some.injEq] at isKnown
    subst isKnown
    obtain ⟨entry, isEntry, given⟩ := referenced typed
    rw [given]
    exact List.mem_map_of_mem isEntry
  · intro member
    obtain ⟨entry, isEntry, rfl⟩ := List.mem_map.mp member
    obtain ⟨-, profileId, isRequired, profile, found, typed, given⟩ := bundled.isReferences.listed entry isEntry
    exact ⟨profileId, isRequired, profile, found, typed, by rw [given]; rfl⟩

theorem validateConfiguration_eq_ok :
    validateConfiguration platform manifest bundle.upstreamCredentials = .ok () := by
  have succeeds : Succeeds (manifest.requiredProfileIds.foldlM
      (requireCredential platform manifest bundle.upstreamCredentials) []) := by
    have each : ∀ required, ∀ profileId ∈ manifest.requiredProfileIds,
        Succeeds (requireCredential platform manifest bundle.upstreamCredentials required profileId) ↔ True := ?_
    · exact (succeeds_foldlM_iff each).mpr fun _ _ => trivial
    intro required profileId isRequired
    refine iff_true_intro ?_
    obtain ⟨profile, found, -⟩ := bundled.isReferences.complete profileId isRequired
    by_cases untyped : profile.type = .none
    · exact ⟨required, requireCredential_eq_ok.mpr ⟨profile, found, .inl ⟨untyped, rfl⟩⟩⟩
    · obtain ⟨-, credential, -, isMatching, -⟩ :=
        matchingCredential_eq_some accepted bundled ⟨profileId, isRequired, found⟩ untyped
      exact ⟨_, requireCredential_eq_ok.mpr ⟨profile, found, .inr ⟨untyped, by rw [isMatching]; rfl, rfl⟩⟩⟩
  obtain ⟨required, ran⟩ := succeeds
  have sameKeys := required_of_foldlM bundled ran
  unfold validateConfiguration
  rw [ran, ok_bind, check_bind_eq_ok, ensure_eq_ok, forM_eq_ok, Bool.and_eq_true, List.all_eq_true, List.all_eq_true]
  simp only [List.contains_iff_mem]
  refine ⟨⟨fun reference => (sameKeys reference).mpr, fun reference => (sameKeys reference).mp⟩, ?_⟩
  intro reference isRequired
  obtain ⟨⟨_, credential⟩, member, rfl⟩ := List.mem_map.mp ((sameKeys reference).mp isRequired)
  exact checkStaticHeaders_eq_ok accepted bundled member

/-! ## The injection -/

omit bundled in
theorem succeeds_buildInjection {oauthToken : OAuthTokens} (answers : ∀ profile credential, Succeeds (oauthToken profile credential))
    {profile : AuthProfile} {reference : Text} {credential : UpstreamCredential} (required : Required manifest profile)
    (given : profile.credentialRef = some reference) (sameType : credential.type.authType = profile.type)
    (provides : Provides platform (referencingProfiles manifest reference) credential) :
    Succeeds (buildInjection platform oauthToken profile credential) := by
  obtain ⟨profileId, isRequired, found⟩ := required
  have facts := profileFacts_of_profile? accepted found
  cases isType : credential.type with
  | bearer =>
    rw [isType] at sameType
    rw [Provides, isType] at provides
    unfold buildInjection
    rw [← sameType]
    show Succeeds (obtain? credential.token _ >>= _)
    exact succeeds_bind_pure.mpr (succeeds_obtain?.mpr provides)
  | apiKey =>
    rw [isType] at sameType
    rw [Provides, isType] at provides
    obtain ⟨located, name, isName, nonempty⟩ := facts.apiKey sameType.symm
    unfold buildInjection
    rw [← sameType]
    show Succeeds (ensure _ _ >>= _)
    rw [succeeds_ensure_bind, isName, located, provides]
    refine ⟨by simpa using nonempty, ?_⟩
    split
    · exact succeeds_pure
    · exact succeeds_pure
  | basic =>
    rw [isType] at sameType
    rw [Provides, isType] at provides
    unfold buildInjection
    rw [← sameType]
    show Succeeds (ensure _ _ >>= _)
    rw [succeeds_ensure_bind, provides.1, provides.2]
    exact ⟨rfl, succeeds_pure⟩
  | oauth2ClientCredentials =>
    rw [isType] at sameType
    unfold buildInjection
    rw [← sameType]
    show Succeeds (oauthToken profile credential >>= _)
    exact succeeds_bind_pure.mpr (answers profile credential)
  | staticHeader =>
    rw [isType] at sameType
    rw [Provides, isType] at provides
    obtain ⟨headers, isHeaders, -, sameNames⟩ := provides
    obtain ⟨name, isName, isHeader⟩ := facts.staticHeader sameType.symm
    have nonempty : name ≠ [] := by
      rintro rfl
      cases isHeader
    have isProfile := (mem_referencingProfiles accepted).mpr ⟨⟨profileId, isRequired, found⟩, given⟩
    have expected : name.lower platform.unicode ∈ expectedNames platform (referencingProfiles manifest reference) := by
      simp only [expectedNames, List.mem_dedup, List.mem_map, List.mem_filter, List.mem_filterMap, decide_eq_true_eq]
      exact ⟨name, ⟨⟨profile, isProfile, isName⟩, nonempty⟩, rfl⟩
    obtain ⟨header, isMember, sameName⟩ := List.mem_map.mp ((sameNames _).mpr expected)
    have hasHeader : (headers.find? fun header =>
        header.1.lower platform.unicode = name.lower platform.unicode).isSome = true :=
      List.find?_isSome.mpr ⟨header, isMember, by simpa using sameName⟩
    unfold buildInjection
    rw [← sameType]
    show Succeeds (ensure _ _ >>= _)
    rw [succeeds_ensure_bind, isName, isHeaders]
    refine ⟨by simpa using nonempty, ?_⟩
    exact succeeds_bind_pure.mpr (succeeds_obtain?.mpr hasHeader)

theorem succeeds_injectionFor {oauthToken : OAuthTokens} (answers : ∀ profile credential, Succeeds (oauthToken profile credential))
    {tool : MCPTool} (enabled : tool ∈ manifest.enabledTools) :
    Succeeds (injectionFor platform manifest bundle.upstreamCredentials oauthToken tool.securityProfileRef) := by
  cases isRef : tool.securityProfileRef with
  | none => exact succeeds_ok
  | some profileId =>
    have isRequired : profileId ∈ manifest.requiredProfileIds :=
      List.mem_dedup.mpr (List.mem_filterMap.mpr ⟨tool, enabled, isRef⟩)
    obtain ⟨profile, found, -⟩ := bundled.isReferences.complete profileId isRequired
    show Succeeds (obtain? (manifest.profile? profileId) _ >>= _)
    rw [found]
    show Succeeds (if profile.type = .none then _ else _)
    by_cases untyped : profile.type = .none
    · rw [if_pos untyped]
      exact succeeds_pure
    · obtain ⟨reference, credential, given, isMatching, sameType, provides⟩ :=
        matchingCredential_eq_some accepted bundled ⟨profileId, isRequired, found⟩ untyped
      rw [if_neg untyped, isMatching]
      exact succeeds_buildInjection accepted answers ⟨profileId, isRequired, found⟩ given sameType provides

end Configuration

/-- The runtime agrees with a bundle: the bundle survives the mount, its credentials are those of the manifest, and
every enabled tool finds the one that its profile needs. -/
structure AgreesWithRuntime (platform : Platform) (times : DateTimes) (oauthToken : OAuthTokens) (manifest : MCPManifest)
    (bundle : RuntimeSecretBundle) : Prop where
  mounted : RuntimeSecretBundle.modelValidate platform times (bundle.serializeForSecretMount times) =
    .ok bundle.inKeyOrder
  configured : validateConfiguration platform manifest bundle.upstreamCredentials = .ok ()
  injected : ∀ tool ∈ manifest.enabledTools,
    Succeeds (injectionFor platform manifest bundle.upstreamCredentials oauthToken tool.securityProfileRef)

/-- A built bundle agrees with the runtime exactly when the hosts of the settings are stable. -/
theorem built_bundle_agrees_iff (stable : platform.urls.Stable) {oauthToken : OAuthTokens}
    (answers : ∀ profile credential, Succeeds (oauthToken profile credential))
    (accepted : manifest.Accepted platform.unicode platform.urls)
    (built : buildBundle platform decimal cipher settings state manifest = .ok bundle) :
    AgreesWithRuntime platform times oauthToken manifest bundle ↔
      ∀ value ∈ (configuredHosts settings).hosts, StableHost platform value := by
  obtain ⟨references, bundled⟩ := bundled_of_buildBundle built
  rw [← RuntimeSecretBundle.modelValidate_serialize_iff stable (valid_bundle bundled)]
  constructor
  · exact AgreesWithRuntime.mounted
  · intro mounted
    refine ⟨mounted, validateConfiguration_eq_ok accepted bundled, fun tool enabled => ?_⟩
    exact succeeds_injectionFor accepted bundled answers enabled

/-! ## A host that does not survive -/

/-- One tool whose profile is the given one. -/
def profiledManifest (profile : AuthProfile) : MCPManifest :=
  { sampleManifest [] with
    authProfiles := [profile]
    tools := (sampleManifest []).tools.map fun tool => { tool with securityProfileRef := some profile.id } }

theorem profiledManifest_accepted {profile : AuthProfile}
    (valid : profile.validateAuthFields plainPlatform.unicode = .ok ()) (noToken : profile.tokenUrl = none) :
    (profiledManifest profile).Accepted plainPlatform.unicode plainPlatform.urls where
  servers :=
    have sample : (sampleManifest []).Accepted plainPlatform.unicode plainPlatform.urls :=
      sampleManifest_accepted (fun _ member => by cases member)
    sample.servers
  authProfiles := by
    intro other member
    rw [List.mem_singleton.mp member]
    exact ⟨valid, fun url given => by rw [noToken] at given; cases given⟩
  responses := by
    intro tool member response isResponse
    rw [List.mem_singleton.mp member] at isResponse
    cases isResponse
  tools := by
    intro tool member
    rw [List.mem_singleton.mp member]
    rfl
  fields := rfl
  references := by
    simp only [MCPManifest.validateReferences, check_bind_eq_ok, ensure_eq_ok, forM_eq_ok]
    refine ⟨rfl, by simp [MCPManifest.authIds, profiledManifest], rfl, fun tool member => ?_⟩
    rw [List.mem_singleton.mp member]
    refine ⟨rfl, ?_⟩
    simp [MCPManifest.authIds, profiledManifest]

def bearerProfile : AuthProfile where
  id := "token"
  type := .bearer
  credentialRef := some "00000000-0000-0000-0000-000000000001"

def storedToken : EncryptedCredential := ⟨1, 7, .bearer, "v1", [], none, []⟩

/-- A project with one bearer credential and one access token. -/
def tokenProject : ProjectState where
  projectId := 7
  hostname := "pets.example.com"
  authConfig := some ⟨.staticBearer, none, [], [], []⟩
  tokenVerifiers := [⟨2, List.replicate 64 'a', none⟩]
  credentials := ⟨[storedToken], List.nodup_singleton _⟩

def tokenCipher : Cipher := fun _ => .ok [("token", .text "secret")]

/-- Settings that let the runtime reach one private host. -/
def privateHost (host : Text) : Settings := ⟨true, true, [host], []⟩

def plainTimes : DateTimes where
  write time := Text.ofNat (Encodable.encode (time.instant, time.offset))
  read
    | .string text => (Encodable.decode (α := Int × Option Int) text.digitsValue).map fun (instant, offset) => ⟨instant, offset⟩
    | _ => none
  rereads := by
    intro time _
    simp only [Text.digitsValue_ofNat, Encodable.encodek, Option.map_some]

theorem plainUrls_stable : plainUrls.Stable := by
  rintro url ⟨value, parsed⟩
  have isParsed : plainHttpUrl value = some url := parsed
  show plainHttpUrl url = some url
  unfold plainHttpUrl at isParsed
  split at isParsed
  · rename_i host rest
    split at isParsed
    · cases isParsed
    · rename_i allowed
      split at isParsed
      · rename_i slash
        cases isParsed
        simp only [plainHttpUrl, if_neg allowed, if_pos slash]
      · cases isParsed
        simp only [Bool.or_eq_true, decide_eq_true_eq, Bool.not_eq_true', not_or, Bool.not_eq_false] at allowed
        have stillAllowed : ¬ (host = '/' || !Text.isAscii ('h' :: 't' :: 't' :: 'p' :: 's' :: ':' :: '/' :: '/' :: host ::
            (rest ++ ['/']))) = true := by
          have whole : Text.isAscii ('h' :: 't' :: 't' :: 'p' :: 's' :: ':' :: '/' :: '/' :: host :: (rest ++ ['/'])) =
              (Text.isAscii ('h' :: 't' :: 't' :: 'p' :: 's' :: ':' :: '/' :: '/' :: host :: rest) && true) := by
            show Text.isAscii (('h' :: 't' :: 't' :: 'p' :: 's' :: ':' :: '/' :: '/' :: host :: rest) ++ ['/']) = _
            rw [Text.isAscii_append]
            rfl
          rw [whole, allowed.2]
          simpa using allowed.1
        simp only [plainHttpUrl, List.cons_append, if_neg stillAllowed, List.contains_append]
        simp
  · cases isParsed

/-- The settings name a private IPv6 host: its normal form has no brackets, and the mounted bundle is refused. -/
theorem ipv6_host_breaks_mount :
    ¬ ∀ (platform : Platform) (times : DateTimes) (decimal : Char → Option Nat) (cipher : Cipher) (settings : Settings)
      (state : ProjectState) (manifest : MCPManifest) (bundle : RuntimeSecretBundle) (oauthToken : OAuthTokens),
      platform.urls.Stable → (∀ profile credential, Succeeds (oauthToken profile credential)) →
      manifest.Accepted platform.unicode platform.urls →
      buildBundle platform decimal cipher settings state manifest = .ok bundle →
      AgreesWithRuntime platform times oauthToken manifest bundle := by
  intro always
  have builds : (buildBundle plainPlatform (fun _ => none) tokenCipher (privateHost "[::1]") tokenProject
      (profiledManifest bearerProfile)).isOk = true := by decide +kernel
  obtain ⟨bundle, built⟩ := exists_ok_of_isOk builds
  have agrees := always plainPlatform plainTimes (fun _ => none) tokenCipher (privateHost "[::1]") tokenProject
    (profiledManifest bearerProfile) bundle (fun _ _ => .ok "token") plainUrls_stable (fun _ _ => succeeds_ok)
    (profiledManifest_accepted (by decide) rfl) built
  have refused : ((buildBundle plainPlatform (fun _ => none) tokenCipher (privateHost "[::1]") tokenProject
      (profiledManifest bearerProfile)).bind fun bundle => RuntimeSecretBundle.modelValidate plainPlatform plainTimes
        (bundle.serializeForSecretMount plainTimes)).isOk = false := by decide +kernel
  rw [built] at refused
  have mounted := agrees.mounted
  change (RuntimeSecretBundle.modelValidate plainPlatform plainTimes
    (bundle.serializeForSecretMount plainTimes)).isOk = false at refused
  rw [mounted] at refused
  cases refused

/-- With a named private host the bundle agrees with the runtime. -/
theorem named_host_agrees :
    ∃ bundle, buildBundle plainPlatform (fun _ => none) tokenCipher (privateHost "db.internal") tokenProject
        (profiledManifest bearerProfile) = .ok bundle ∧
      AgreesWithRuntime plainPlatform plainTimes (fun _ _ => .ok "token") (profiledManifest bearerProfile) bundle := by
  have builds : (buildBundle plainPlatform (fun _ => none) tokenCipher (privateHost "db.internal") tokenProject
      (profiledManifest bearerProfile)).isOk = true := by decide +kernel
  obtain ⟨bundle, built⟩ := exists_ok_of_isOk builds
  refine ⟨bundle, built, (built_bundle_agrees_iff plainUrls_stable (fun _ _ => succeeds_ok)
    (profiledManifest_accepted (by decide) rfl) built).mpr ?_⟩
  intro value member
  rw [List.mem_singleton.mp member]
  intro host isHost
  have expected : normalizeNetworkHost plainPlatform "db.internal" = .ok "db.internal" := by decide
  rw [expected, Except.ok.injEq] at isHost
  rw [← isHost]
  exact expected

end Mcplica.Deployments
