import Mcplica.Deployments.AccessTokens

/-! # Inbound access and the runtime

What `MCPAccessService` stores is what the runtime checks: the materializer refuses no stored configuration that it can
serve, and the runtime lets in the bearers of the tokens that are active, and no others. -/

namespace Mcplica.Deployments.Access

open Mcplica.Domain Mcplica.Library Mcplica.Contracts Mcplica.Compilers

/-! ## The runtime -/

/-- `StaticBearerTokenVerifier.verify_token`: the identifier of the client, if the token is one of the configured ones. -/
def verifyToken (sha256 : Text → Sha256) (config : InboundAuthSecrets) (token : Text) (now : Instant) : Option Text :=
  if token = [] || 4096 < token.length then none
  else
    config.staticTokens.foldl (fun matchedId verifier =>
      let digestMatches := decide ((sha256 token).hexdigest = verifier.sha256)
      let notExpired := verifier.expiresAt.all fun expires => decide (now < expires.instant)
      if digestMatches && notExpired then some verifier.id else matchedId) none

section Verifier

variable {sha256 : Text → Sha256} {config : InboundAuthSecrets} {token : Text} {now : Instant}

/-- The verifier matches the token. -/
def Matches (sha256 : Text → Sha256) (token : Text) (now : Instant) (verifier : StaticTokenDigest) : Prop :=
  (sha256 token).hexdigest = verifier.sha256 ∧
    ∀ expires, verifier.expiresAt = some expires → now < expires.instant

/-- Of the verifiers that match, the last one counts. -/
theorem verifyToken_eq_some {clientId : Text}
    (unambiguous : ∀ verifier ∈ config.staticTokens, ∀ other ∈ config.staticTokens,
      verifier.sha256 = other.sha256 → verifier.id = other.id) :
    verifyToken sha256 config token now = some clientId ↔ token ≠ [] ∧ token.length ≤ 4096 ∧
      ∃ verifier ∈ config.staticTokens, Matches sha256 token now verifier ∧ clientId = verifier.id := by
  have general : ∀ (verifiers : List StaticTokenDigest) (matched : Option Text),
      (∀ verifier ∈ verifiers, ∀ other ∈ verifiers, verifier.sha256 = other.sha256 → verifier.id = other.id) →
      (verifiers.foldl (fun matchedId verifier =>
        if decide ((sha256 token).hexdigest = verifier.sha256) &&
          verifier.expiresAt.all (fun expires => decide (now < expires.instant)) then some verifier.id else matchedId)
        matched = some clientId ↔
      (∃ verifier ∈ verifiers, Matches sha256 token now verifier ∧ clientId = verifier.id) ∨
        (¬ ∃ verifier ∈ verifiers, Matches sha256 token now verifier) ∧ matched = some clientId) := by
    intro verifiers
    induction verifiers with
    | nil => simp
    | cons verifier later ih =>
      intro matched same
      have sameLater : ∀ first ∈ later, ∀ other ∈ later, first.sha256 = other.sha256 → first.id = other.id :=
        fun first isFirst other isOther => same first (List.mem_cons_of_mem _ isFirst) other (List.mem_cons_of_mem _ isOther)
      have isMatch : (decide ((sha256 token).hexdigest = verifier.sha256) &&
          verifier.expiresAt.all (fun expires => decide (now < expires.instant))) = true ↔
          Matches sha256 token now verifier := by
        simp only [Matches, Bool.and_eq_true, decide_eq_true_eq, Option.all_eq_true]
      rw [List.foldl_cons, ih _ sameLater]
      by_cases found : Matches sha256 token now verifier
      · rw [if_pos (isMatch.mpr found)]
        constructor
        · rintro (⟨other, isOther, matchesOther, isClient⟩ | ⟨-, isClient⟩)
          · exact .inl ⟨other, List.mem_cons_of_mem _ isOther, matchesOther, isClient⟩
          · exact .inl ⟨verifier, List.mem_cons_self, found, (Option.some.inj isClient).symm⟩
        · rintro (⟨other, isOther, matchesOther, isClient⟩ | ⟨absent, -⟩)
          · by_cases inLater : ∃ other ∈ later, Matches sha256 token now other
            · obtain ⟨another, isAnother, matchesAnother⟩ := inLater
              refine .inl ⟨another, isAnother, matchesAnother, isClient.trans ?_⟩
              exact same other isOther another (List.mem_cons_of_mem _ isAnother)
                (matchesOther.1.symm.trans matchesAnother.1)
            · refine .inr ⟨inLater, congrArg some ?_⟩
              rw [isClient]
              exact same verifier List.mem_cons_self other isOther (found.1.symm.trans matchesOther.1)
          · exact absurd ⟨verifier, List.mem_cons_self, found⟩ absent
      · rw [if_neg (fun holds => found (isMatch.mp holds))]
        simp only [List.mem_cons, exists_eq_or_imp, found, false_and, false_or]
  unfold verifyToken
  split
  · rename_i refused
    constructor
    · rintro ⟨⟩
    · rintro ⟨given, short, -⟩
      simp only [Bool.or_eq_true, decide_eq_true_eq] at refused
      rcases refused with empty | long
      · exact absurd empty given
      · omega
  · rename_i admitted
    simp only [Bool.or_eq_true, decide_eq_true_eq, not_or, not_lt] at admitted
    refine (general config.staticTokens none unambiguous).trans ?_
    simp [admitted.1, admitted.2]

end Verifier

/-! ## What the store holds -/

section

variable {platform : Platform} {settings : Settings} {hashing : Hashing} {store next : AccessStore}

/-- What every reachable store satisfies. -/
structure Sound (platform : Platform) (settings : Settings) (hashing : Hashing) (store : AccessStore) : Prop where
  uuids : ∀ token ∈ store.tokens, token.id < 2 ^ 128
  digests : ∀ token ∈ store.tokens, ∃ plaintext, token.tokenHash = AccessStore.tokenHash hashing plaintext
  zoned : ∀ token ∈ store.tokens, ∀ expires, token.expiresAt = some expires → expires.offset.isSome = true
  distinct : ∀ token ∈ store.tokens, ∀ other ∈ store.tokens, token.tokenHash = other.tokenHash → token.id = other.id
  checked : ∀ projectId config, store.configs projectId = some config →
    ∃ given, checkedConfiguration platform.unicode settings given = .ok config

def AccessStore.empty : AccessStore := ⟨fun _ => none, fun _ => none, .empty, []⟩

theorem sound_empty : Sound platform settings hashing .empty where
  uuids _ member := absurd member (Table.not_mem_empty _)
  digests _ member := absurd member (Table.not_mem_empty _)
  zoned _ member := absurd member (Table.not_mem_empty _)
  distinct _ member := absurd member (Table.not_mem_empty _)
  checked _ _ found := by cases found

theorem Sound.append (sound : Sound platform settings hashing store) (event : AccessEvent) :
    Sound platform settings hashing (store.append event) :=
  ⟨sound.uuids, sound.digests, sound.zoned, sound.distinct, sound.checked⟩

theorem mem_write {tokenId : Uuid} {values : MCPAccessToken → MCPAccessToken} {keeps} {row : MCPAccessToken} :
    row ∈ (store.write tokenId values keeps).tokens ↔
      ∃ old ∈ store.tokens, row = if decide (old.id = tokenId) && old.revokedAt.isNone then values old else old :=
  @Table.mem_update _ _ _ store.tokens _ values keeps row

/-- A row that is written keeps its identifier and its digest. -/
theorem Sound.write (sound : Sound platform settings hashing store) {tokenId : Uuid}
    {values : MCPAccessToken → MCPAccessToken} {keeps}
    (sameHash : ∀ old, (values old).tokenHash = old.tokenHash)
    (zoned : ∀ old ∈ store.tokens, old.id = tokenId → ∀ expires, (values old).expiresAt = some expires →
      expires.offset.isSome = true) :
    Sound platform settings hashing (store.write tokenId values keeps) := by
  have rewritten : ∀ row ∈ (store.write tokenId values keeps).tokens, ∃ old ∈ store.tokens,
      row.id = old.id ∧ row.tokenHash = old.tokenHash ∧
        ∀ expires, row.expiresAt = some expires → expires.offset.isSome = true := by
    intro row member
    obtain ⟨old, isOld, rfl⟩ := mem_write.mp member
    refine ⟨old, isOld, ?_⟩
    split
    · rename_i selected
      simp only [Bool.and_eq_true, decide_eq_true_eq] at selected
      exact ⟨keeps old, sameHash old, zoned old isOld selected.1⟩
    · exact ⟨rfl, rfl, sound.zoned old isOld⟩
  refine ⟨fun row member => ?_, fun row member => ?_, fun row member => ?_, fun row member other isOther same => ?_,
    sound.checked⟩
  · obtain ⟨old, isOld, sameId, -⟩ := rewritten row member
    exact sameId ▸ sound.uuids old isOld
  · obtain ⟨old, isOld, -, sameDigest, -⟩ := rewritten row member
    exact sameDigest ▸ sound.digests old isOld
  · obtain ⟨old, isOld, -, -, isZoned⟩ := rewritten row member
    exact isZoned
  · obtain ⟨old, isOld, sameId, sameDigest, -⟩ := rewritten row member
    obtain ⟨another, isAnother, otherId, otherDigest, -⟩ := rewritten other isOther
    rw [sameId, otherId]
    exact sound.distinct old isOld another isAnother (sameDigest.symm.trans (same.trans otherDigest))

theorem Sound.issued (sound : Sound platform settings hashing store) {projectId : Uuid} {name : Text}
    {expiresAt : Option DateTime} {draw : TokenDraw} {issued : IssuedMCPAccessToken}
    (zoned : ∀ expires, expiresAt = some expires → expires.offset.isSome = true)
    (isIssued : AccessStore.Issued hashing store projectId name expiresAt draw next issued) :
    Sound platform settings hashing next := by
  refine ⟨fun row member => ?_, fun row member => ?_, fun row member => ?_, fun row member other isOther same => ?_, ?_⟩
  · rcases isIssued.mem.mp member with old | rfl
    · exact sound.uuids row old
    · rw [isIssued.token]
      exact draw.isUuid
  · rcases isIssued.mem.mp member with old | rfl
    · exact sound.digests row old
    · exact ⟨issued.plaintext, by rw [isIssued.token]⟩
  · rcases isIssued.mem.mp member with old | rfl
    · exact sound.zoned row old
    · rw [isIssued.token]
      exact zoned
  · rcases isIssued.mem.mp member with old | rfl <;> rcases isIssued.mem.mp isOther with otherOld | rfl
    · exact sound.distinct row old other otherOld same
    · exact absurd same (isIssued.unused row old)
    · exact absurd same.symm (isIssued.unused other otherOld)
    · rfl
  · obtain ⟨tokens, -, rfl⟩ := isIssued.inserted
    exact sound.checked

theorem rotationExpiry_zoned {now : Instant} {overlapSeconds : Int} {current : Option DateTime}
    (zoned : ∀ expires, current = some expires → expires.offset.isSome = true) :
    (AccessStore.rotationExpiry now overlapSeconds current).offset.isSome = true := by
  cases current with
  | none => rfl
  | some expires =>
    by_cases earlier : expires.instant < (utc (now + overlapSeconds * 1000000)).instant
    · have kept : AccessStore.rotationExpiry now overlapSeconds (some expires) = expires := if_pos earlier
      rw [kept]
      exact zoned expires rfl
    · have shortened : AccessStore.rotationExpiry now overlapSeconds (some expires) =
          utc (now + overlapSeconds * 1000000) := if_neg earlier
      rw [shortened]
      rfl

/-- The step lemma. -/
theorem Sound.changed (sound : Sound platform settings hashing store)
    (change : AccessStore.Change platform settings hashing store next) : Sound platform settings hashing next := by
  cases change with
  | kept same => exact same ▸ sound
  | projectAdded projectId hostname added =>
    cases added
    exact ⟨sound.uuids, sound.digests, sound.zoned, sound.distinct, sound.checked⟩
  | configured projectId given config checked written =>
    cases written
    suffices configured : Sound platform settings hashing (store.upsertConfig projectId config) from configured.append _
    refine ⟨sound.uuids, sound.digests, sound.zoned, sound.distinct, fun id stored found => ?_⟩
    have isStored : (if id = projectId then some config else store.configs id) = some stored := found
    split at isStored
    · cases isStored
      exact ⟨given, checked⟩
    · exact sound.checked id stored isStored
  | created projectId name expiresAt draw added issued zoned isIssued written =>
    cases written
    exact (sound.issued (by simpa only [Option.all_eq_true] using zoned) isIssued).append _
  | rotated now overlapSeconds current draw added issued member unrevoked isIssued written =>
    cases written
    have shortened : Sound platform settings hashing (store.expireForRotation current.id
        (AccessStore.rotationExpiry now overlapSeconds current.expiresAt) (decide (overlapSeconds = 0))) := by
      refine sound.write (fun _ => rfl) fun _ _ _ expires given => ?_
      cases given
      exact rotationExpiry_zoned (sound.zoned current member)
    exact (shortened.issued (sound.zoned current member) isIssued).append _
  | revoked now current member unrevoked written =>
    cases written
    suffices revoked : Sound platform settings hashing (store.revoke current.id (utc now)) from revoked.append _
    refine sound.write (fun _ => rfl) fun _ _ _ expires given => ?_
    cases given
    rfl

theorem sound_run (actions : List AccessStore.AccessAction) :
    Sound platform settings hashing (run (AccessStore.step platform settings hashing) .empty actions) :=
  run_invariant (Sound platform settings hashing)
    (fun _ action sound => sound.changed (AccessStore.change_of_step action)) sound_empty actions

/-! ## Static tokens -/

/-- The stored tokens behind `active_verifiers`. -/
def activeTokens (store : AccessStore) (projectId : Uuid) (clock : Instant) : List MCPAccessToken :=
  store.tokens.rows.filter fun token => decide (token.projectId = projectId) && token.activeAt clock

theorem mem_activeTokens {projectId : Uuid} {clock : Instant} {token : MCPAccessToken} :
    token ∈ activeTokens store projectId clock ↔
      token ∈ store.tokens ∧ token.projectId = projectId ∧ token.activeAt clock = true := by
  simp only [activeTokens, List.mem_filter, Bool.and_eq_true, decide_eq_true_eq, Table.mem_rows]

/-- What the bundle says about a token. -/
def staticDigest (token : MCPAccessToken) : StaticTokenDigest :=
  ⟨Text.ofUuid token.id, token.tokenHash.drop 7, token.expiresAt⟩

theorem tokenHash_drop (plaintext : Text) :
    (AccessStore.tokenHash hashing plaintext).drop 7 = (hashing.ofText plaintext).hexdigest :=
  List.drop_left' (by decide)

theorem verifierDigest_of_sound (sound : Sound platform settings hashing store) {token : MCPAccessToken}
    (member : token ∈ store.tokens) :
    verifierDigest platform ⟨token.id, token.tokenHash, token.expiresAt⟩ = .ok (staticDigest token) := by
  obtain ⟨plaintext, isHash⟩ := sound.digests token member
  have plain : Text.includesAny (Text.ofUuid token.id) lineBreaks = false := by
    have noBreak : ∀ digit < 16, lineBreaks.contains (Nat.digitChar digit) = false := by decide
    refine List.any_eq_false.mpr fun character isCharacter => ?_
    rcases Text.ofUuid_characters isCharacter with rfl | ⟨digit, small, rfl⟩
    · decide
    · rw [noBreak digit small]
      exact Bool.false_ne_true
  simp only [verifierDigest, StaticTokenDigest.make, bind_eq_ok, ensure_eq_ok, exists_const]
  refine ⟨?_, ?_, (hashing.ofText plaintext).hexdigest, ?_, ?_, ?_⟩
  · rw [Text.length_ofUuid]
    rfl
  · rw [plain]
    rfl
  · rw [isHash]
    exact validSha256_append (hashing.ofText plaintext).isHex
  · simpa only [Option.all_eq_true] using sound.zoned token member
  · rw [staticDigest, isHash, tokenHash_drop]
    rfl

theorem mapM_verifierDigest (sound : Sound platform settings hashing store) (projectId : Uuid) (clock : Instant) :
    (store.activeVerifiers projectId clock).mapM (verifierDigest platform) =
      .ok ((activeTokens store projectId clock).map staticDigest) := by
  have each : ∀ tokens : List MCPAccessToken, (∀ token ∈ tokens, token ∈ store.tokens) →
      (tokens.map fun token => (⟨token.id, token.tokenHash, token.expiresAt⟩ : MCPTokenVerifierRecord)).mapM
        (verifierDigest platform) = .ok (tokens.map staticDigest) := by
    intro tokens known
    rw [mapM_eq_ok, List.forall₂_map_left_iff, List.forall₂_map_right_iff, List.forall₂_same]
    exact fun token member => verifierDigest_of_sound sound (known token member)
  exact each _ fun token member => (mem_activeTokens.mp member).1

theorem make_static_eq_ok {tokens : List StaticTokenDigest} {secrets : InboundAuthSecrets} :
    InboundAuthSecrets.make { mode := .staticBearer, staticTokens := tokens } = .ok secrets ↔
      (tokens.map StaticTokenDigest.id).Nodup ∧ tokens ≠ [] ∧
        secrets = { mode := .staticBearer, staticTokens := tokens } := by
  have nothing : normalizeStringSets [] = .ok [] := rfl
  simp only [InboundAuthSecrets.make, nothing, ok_bind, InboundAuthSecrets.modeConfigurationIsComplete, bind_eq_ok,
    ensure_eq_ok, exists_const, decide_eq_true_eq, pure, Except.pure, Except.ok.injEq]
  constructor
  · rintro ⟨⟨distinct, given, -⟩, same⟩
    exact ⟨distinct, by simpa using given, same.symm⟩
  · rintro ⟨distinct, given, rfl⟩
    exact ⟨⟨distinct, by simpa using given, rfl⟩, rfl⟩

theorem nodup_staticDigests (sound : Sound platform settings hashing store) (projectId : Uuid) (clock : Instant) :
    (((activeTokens store projectId clock).map staticDigest).map StaticTokenDigest.id).Nodup := by
  have distinct : (activeTokens store projectId clock).Nodup :=
    (List.Nodup.of_map _ store.tokens.unique).filter _
  rw [List.map_map]
  refine distinct.map_on fun token member other isOther same => ?_
  have known := (mem_activeTokens.mp member).1
  have otherKnown := (mem_activeTokens.mp isOther).1
  exact Table.eq_of_key known otherKnown (Text.ofUuid_inj (sound.uuids token known) (sound.uuids other otherKnown) same)

theorem materialize_static_eq_ok (sound : Sound platform settings hashing store) {projectId : Uuid} {clock : Instant}
    {hostname : Text} {config : MCPAuthConfigRecord} {secrets : InboundAuthSecrets} (static : config.mode = .staticBearer) :
    materializeInboundAuth platform hostname (some config) (store.activeVerifiers projectId clock) settings = .ok secrets ↔
      activeTokens store projectId clock ≠ [] ∧
        secrets = { mode := .staticBearer, staticTokens := (activeTokens store projectId clock).map staticDigest } := by
  have materializes : materializeInboundAuth platform hostname (some config) (store.activeVerifiers projectId clock)
      settings = InboundAuthSecrets.make
        { mode := .staticBearer, staticTokens := (activeTokens store projectId clock).map staticDigest } := by
    obtain ⟨mode, issuerUrl, audiences, requiredScopes, metadata⟩ := config
    obtain rfl : mode = .staticBearer := static
    show ((store.activeVerifiers projectId clock).mapM (verifierDigest platform) >>= fun staticTokens =>
      InboundAuthSecrets.make { mode := .staticBearer, staticTokens }) = _
    rw [mapM_verifierDigest sound, ok_bind]
  rw [materializes, make_static_eq_ok]
  constructor
  · rintro ⟨-, given, same⟩
    exact ⟨fun empty => given (by rw [empty]; rfl), same⟩
  · rintro ⟨given, same⟩
    exact ⟨nodup_staticDigests sound projectId clock, by simpa using given, same⟩

/-- The runtime lets in the bearers of the tokens that were active at both times. -/
theorem verifyToken_iff (sound : Sound platform settings hashing store) {projectId : Uuid} {clock now : Instant}
    {token clientId : Text} :
    verifyToken hashing.ofText
        { mode := .staticBearer, staticTokens := (activeTokens store projectId clock).map staticDigest } token now =
        some clientId ↔
      token ≠ [] ∧ token.length ≤ 4096 ∧ ∃ row ∈ store.tokens, row.projectId = projectId ∧
        clientId = Text.ofUuid row.id ∧ row.tokenHash = AccessStore.tokenHash hashing token ∧
        row.activeAt clock = true ∧ row.activeAt now = true := by
  have sameDigest : ∀ row ∈ store.tokens, ∀ plaintext, (hashing.ofText plaintext).hexdigest = row.tokenHash.drop 7 ↔
      row.tokenHash = AccessStore.tokenHash hashing plaintext := by
    intro row member plaintext
    obtain ⟨original, isHash⟩ := sound.digests row member
    have isDigest := (congrArg (List.drop 7) isHash).trans (tokenHash_drop original)
    constructor
    · intro same
      exact isHash.trans (congrArg (("sha256:" : Text) ++ ·) (isDigest.symm.trans same.symm))
    · intro same
      exact (tokenHash_drop plaintext).symm.trans (congrArg (List.drop 7) same.symm)
  rw [verifyToken_eq_some]
  · refine and_congr_right fun _ => and_congr_right fun _ => ?_
    constructor
    · rintro ⟨verifier, isVerifier, ⟨digestMatches, notExpired⟩, isClient⟩
      obtain ⟨row, isRow, rfl⟩ := List.mem_map.mp isVerifier
      obtain ⟨known, isProject, active⟩ := mem_activeTokens.mp isRow
      exact ⟨row, known, isProject, isClient, (sameDigest row known token).mp digestMatches, active,
        AccessStore.activeAt_iff.mpr ⟨(AccessStore.activeAt_iff.mp active).1, notExpired⟩⟩
    · rintro ⟨row, known, isProject, isClient, isHash, active, stillActive⟩
      exact ⟨staticDigest row, List.mem_map_of_mem (mem_activeTokens.mpr ⟨known, isProject, active⟩),
        ⟨(sameDigest row known token).mpr isHash, (AccessStore.activeAt_iff.mp stillActive).2⟩, isClient⟩
  · intro verifier isVerifier other isOther same
    obtain ⟨row, isRow, rfl⟩ := List.mem_map.mp isVerifier
    obtain ⟨another, isAnother, rfl⟩ := List.mem_map.mp isOther
    have known := (mem_activeTokens.mp isRow).1
    have otherKnown := (mem_activeTokens.mp isAnother).1
    obtain ⟨plaintext, isHash⟩ := sound.digests row known
    have first := (sameDigest row known plaintext).mpr isHash
    have second := (sameDigest another otherKnown plaintext).mp (first.trans same)
    exact congrArg Text.ofUuid (sound.distinct row known another otherKnown (isHash.trans second.symm))

/-! ## Configurations -/

/-- What the service has normalized, the contracts leave as it is. -/
theorem normalizeStringSets_of_normalizeValues {values normalized : List Text} {label : String} {limit : Nat}
    (small : limit ≤ 100) (ran : normalizeValues values label limit = .ok normalized) :
    normalizeStringSets normalized = .ok normalized := by
  simp only [normalizeValues, bind_eq_ok, require_eq_ok, exists_const, decide_eq_true_eq] at ran
  obtain ⟨items, areItems, short, same⟩ := ran
  cases same
  obtain ⟨distinct, fromValue, -⟩ := distinctResults_spec areItems
  have perm := Text.perm_sortedBy id items
  have stays : distinctResults normalizeString (Text.sorted items) = .ok (Text.sorted items) := by
    refine (distinctResults_self_iff (perm.nodup_iff.mpr distinct)).mpr fun item member => ?_
    obtain ⟨value, -, isItem⟩ := fromValue item (perm.mem_iff.mp member)
    simp only [normalizeValue, bind_eq_ok, require_eq_ok, exists_const] at isItem
    obtain ⟨clean, same⟩ := isItem
    cases same
    simp only [normalizeString, Text.strip_strip, bind_eq_ok, ensure_eq_ok, exists_const]
    exact ⟨clean, rfl⟩
  have fits : (Text.sorted items).length ≤ 100 := perm.length_eq ▸ Nat.le_trans short small
  simp only [normalizeStringSets, stays, ok_bind, bind_eq_ok, ensure_eq_ok, exists_const, decide_eq_true_eq]
  exact ⟨fits, rfl⟩

theorem normalizeStringSets_of_permitted {algorithms : List Text} (distinct : algorithms.Nodup)
    (areAllowed : ∀ algorithm ∈ algorithms, algorithm ∈ permitted) :
    normalizeStringSets algorithms = .ok algorithms := by
  have each : ∀ algorithm ∈ permitted, normalizeString algorithm = .ok algorithm := by decide
  have stays : distinctResults normalizeString algorithms = .ok algorithms :=
    (distinctResults_self_iff distinct).mpr fun algorithm member => each algorithm (areAllowed algorithm member)
  have fits : algorithms.length ≤ 100 :=
    Nat.le_trans (distinct.subperm fun algorithm member => areAllowed algorithm member).length_le (by decide)
  simp only [normalizeStringSets, stays, ok_bind, bind_eq_ok, ensure_eq_ok, exists_const, decide_eq_true_eq]
  exact ⟨fits, rfl⟩

/-- A stored configuration of the OIDC mode. -/
structure OidcChecked (config : MCPAuthConfigRecord) : Prop where
  issuer : config.issuerUrl.getD [] ≠ []
  someAudience : config.audiences ≠ []
  audiences : normalizeStringSets config.audiences = .ok config.audiences
  requiredScopes : normalizeStringSets config.requiredScopes = .ok config.requiredScopes
  algorithms : ∃ algorithms, allowedAlgorithms config.metadata = .ok algorithms ∧ algorithms ≠ [] ∧
    algorithms.all permittedAlgorithms.contains = true ∧ normalizeStringSets algorithms = .ok algorithms
  jwks : ∃ url, jwksText config.metadata = .ok url

theorem validAlgorithms_eq_ok {metadata : JsonObject} {algorithms : List Text}
    (ran : validAlgorithms metadata = .ok algorithms) :
    algorithms ≠ [] ∧ ∀ algorithm ∈ algorithms, algorithm ∈ permitted := by
  simp only [validAlgorithms, bind_eq_ok, require_eq_ok, exists_const, Bool.and_eq_true, decide_eq_true_eq,
    List.all_eq_true, List.contains_iff_mem] at ran
  obtain ⟨_, -, ⟨given, allowed⟩, same⟩ := ran
  cases same
  exact ⟨given, allowed⟩

theorem allowedAlgorithms_of_strings {metadata : JsonObject} {algorithms : List Text}
    (stored : Json.get metadata "allowed_algorithms" = some (.array (algorithms.map Json.string))) :
    allowedAlgorithms metadata = .ok algorithms := by
  unfold allowedAlgorithms
  rw [stored]
  refine mapM_eq_ok.mpr ?_
  rw [List.forall₂_map_left_iff, List.forall₂_same]
  exact fun _ _ => rfl

theorem oidcChecked {given config : MCPAuthConfigRecord} (oidc : config.mode = .externalOauthOidc)
    (checked : checkedConfiguration platform.unicode settings given = .ok config) : OidcChecked config := by
  simp only [checkedConfiguration, bind_eq_ok] at checked
  obtain ⟨audiences, areAudiences, scopes, areScopes, metadata, isMetadata, same⟩ := checked
  cases same
  have isOidc : given.mode = .externalOauthOidc := oidc
  simp only [validateAuthConfiguration, isOidc, bind_eq_ok, require_eq_ok, exists_const, Bool.and_eq_true,
    decide_eq_true_eq] at isMetadata
  obtain ⟨-, -, ⟨isIssuer, someAudience⟩, -, -, algorithms, areAlgorithms, _, isJwks, same⟩ := isMetadata
  cases same
  obtain ⟨nonempty, allowed⟩ := validAlgorithms_eq_ok areAlgorithms
  have sortedAllowed : ∀ algorithm ∈ Text.sorted algorithms.dedup, algorithm ∈ permitted := fun algorithm member =>
    allowed algorithm (List.mem_dedup.mp (Text.mem_sorted.mp member))
  refine ⟨isIssuer, someAudience, normalizeStringSets_of_normalizeValues (by decide) areAudiences,
    normalizeStringSets_of_normalizeValues (by decide) areScopes, ⟨Text.sorted algorithms.dedup, ?_, ?_, ?_, ?_⟩, ?_⟩
  · exact allowedAlgorithms_of_strings (Json.get_set_self _ _ _)
  · rw [ne_eq, Text.sorted_eq_nil]
    intro empty
    obtain ⟨first, isFirst⟩ := List.exists_mem_of_ne_nil _ nonempty
    exact List.not_mem_nil (empty ▸ List.mem_dedup.mpr isFirst)
  · exact List.all_eq_true.mpr fun algorithm member => List.contains_iff_mem.mpr (sortedAllowed algorithm member)
  · exact normalizeStringSets_of_permitted ((Text.perm_sortedBy id _).nodup_iff.mpr (List.nodup_dedup _)) sortedAllowed
  · unfold jwksText
    rw [Json.get_set_of_ne _ _ (by decide)]
    unfold validateJwksUrl at isJwks
    split at isJwks
    · exact ⟨none, by simp_all⟩
    · exact ⟨none, by simp_all⟩
    · exact ⟨_, by simp_all; rfl⟩
    · cases isJwks

/-- The address at which the runtime of a host publishes its tools. -/
def resourceUrl (settings : Settings) (hostname : Text) : Text :=
  (if settings.traefikTls then ("https" : Text) else ("http" : Text)) ++ ("://" : Text) ++ hostname ++ ("/mcp" : Text)

/-- What a stored configuration needs for the runtime to be started with it. -/
def Servable (platform : Platform) (settings : Settings) (store : AccessStore) (projectId : Uuid) (clock : Instant)
    (hostname : Text) (config : MCPAuthConfigRecord) : Prop :=
  match config.mode with
  | .staticBearer => ∃ token ∈ store.tokens, token.projectId = projectId ∧ token.activeAt clock = true
  | .disabledDev => True
  | .externalOauthOidc => (platform.urls.parse (config.issuerUrl.getD [])).isSome = true ∧
    (∀ url, Json.get config.metadata "jwks_url" = some (.string url) → (platform.urls.parse url).isSome = true) ∧
    (platform.urls.parse (resourceUrl settings hostname)).isSome = true

theorem isOk_iff_succeeds {ε α : Type} {result : Except ε α} : result.isOk = true ↔ Succeeds result := by
  cases result with
  | error error =>
    refine iff_of_false Bool.false_ne_true ?_
    rintro ⟨value, same⟩
    cases same
  | ok value => exact ⟨fun _ => ⟨value, rfl⟩, fun _ => rfl⟩

theorem succeeds_jwksUrl {metadata : JsonObject} {url : Option Text} (isJwks : jwksText metadata = .ok url) :
    Succeeds (url.mapM (anyHttpUrl platform)) ↔ ∀ text, Json.get metadata "jwks_url" = some (.string text) →
      (platform.urls.parse text).isSome = true := by
  unfold jwksText at isJwks
  split at isJwks
  · rename_i absent
    cases isJwks
    refine iff_of_true ⟨none, rfl⟩ fun text given => ?_
    rw [absent] at given
    cases given
  · rename_i isNull
    cases isJwks
    refine iff_of_true ⟨none, rfl⟩ fun text given => ?_
    rw [isNull] at given
    cases given
  · rename_i text isText
    cases isJwks
    rw [isText]
    have parsed : Succeeds (anyHttpUrl platform text) ↔ (platform.urls.parse text).isSome = true := succeeds_obtain?
    constructor
    · rintro ⟨made, isMade⟩ other given
      cases given
      refine parsed.mp ?_
      cases ran : anyHttpUrl platform text with
      | ok value => exact ⟨value, rfl⟩
      | error error =>
        simp only [Option.mapM_some, ran] at isMade
        cases isMade
    · intro each
      obtain ⟨value, isValue⟩ := parsed.mpr (each text rfl)
      exact ⟨some value, by rw [Option.mapM_some, isValue]; rfl⟩
  · cases isJwks

theorem succeeds_materialize_oidc {hostname : Text} {config : MCPAuthConfigRecord}
    {verifiers : List MCPTokenVerifierRecord} (oidc : config.mode = .externalOauthOidc) (checked : OidcChecked config) :
    Succeeds (materializeInboundAuth platform hostname (some config) verifiers settings) ↔
      (platform.urls.parse (config.issuerUrl.getD [])).isSome = true ∧
        (∀ url, Json.get config.metadata "jwks_url" = some (.string url) → (platform.urls.parse url).isSome = true) ∧
        (platform.urls.parse (resourceUrl settings hostname)).isSome = true := by
  obtain ⟨algorithms, areAlgorithms, someAlgorithm, areAllowed, areNormal⟩ := checked.algorithms
  obtain ⟨jwks, isJwks⟩ := checked.jwks
  have made : ∀ issuer jwks resource, Succeeds (InboundAuthSecrets.make {
      mode := .externalOauthOidc, issuerUrl := some issuer, jwksUrl := jwks, resourceUrl := some resource,
      audiences := config.audiences, requiredScopes := config.requiredScopes, allowedAlgorithms := algorithms }) := by
    intro issuer jwks resource
    simp only [InboundAuthSecrets.make, checked.audiences, checked.requiredScopes, areNormal, ok_bind,
      InboundAuthSecrets.modeConfigurationIsComplete, succeeds_bind, bind_eq_ok, ensure_eq_ok, exists_const]
    refine ⟨⟨rfl, ?_, rfl, ?_⟩, succeeds_pure⟩
    · simpa using checked.someAudience
    · rw [Bool.and_eq_true]
      exact ⟨by simpa using someAlgorithm, areAllowed⟩
  have parsed : ∀ text, Succeeds (anyHttpUrl platform text) ↔ (platform.urls.parse text).isSome = true :=
    fun text => succeeds_obtain?
  unfold materializeInboundAuth
  rw [← parsed, ← succeeds_jwksUrl isJwks, ← parsed]
  obtain ⟨mode, issuerUrl, audiences, requiredScopes, metadata⟩ := config
  obtain rfl : mode = .externalOauthOidc := oidc
  have given : (issuerUrl.getD []) ≠ [] := checked.issuer
  simp only [Option.map_some, Option.getD_some, succeeds_ensure_bind, given, ne_eq, not_false_eq_true, decide_true,
    true_and, isJwks, areAlgorithms, ok_bind]
  constructor
  · intro succeeds
    obtain ⟨issuer, isIssuer, succeeds⟩ := succeeds_bind.mp succeeds
    obtain ⟨jwksUrl, isUrl, succeeds⟩ := succeeds_bind.mp succeeds
    obtain ⟨resource, isResource, -⟩ := succeeds_bind.mp succeeds
    exact ⟨⟨issuer, isIssuer⟩, ⟨jwksUrl, isUrl⟩, resource, isResource⟩
  · rintro ⟨⟨issuer, isIssuer⟩, ⟨jwksUrl, isUrl⟩, resource, isResource⟩
    refine succeeds_bind.mpr ⟨issuer, isIssuer, succeeds_bind.mpr ⟨jwksUrl, isUrl, succeeds_bind.mpr ⟨resource, isResource, ?_⟩⟩⟩
    exact made issuer jwksUrl resource

theorem succeeds_materialize (sound : Sound platform settings hashing store) {projectId : Uuid} {clock : Instant}
    {hostname : Text} {config : MCPAuthConfigRecord} (stored : store.configs projectId = some config) :
    Succeeds (materializeInboundAuth platform hostname (some config) (store.activeVerifiers projectId clock) settings) ↔
      Servable platform settings store projectId clock hostname config := by
  obtain ⟨given, checked⟩ := sound.checked projectId config stored
  unfold Servable
  split
  · rename_i static
    have served := fun secrets => @materialize_static_eq_ok platform settings hashing store sound projectId clock hostname
      config secrets static
    constructor
    · rintro ⟨secrets, made⟩
      obtain ⟨token, member⟩ := List.exists_mem_of_ne_nil _ ((served secrets).mp made).1
      exact ⟨token, mem_activeTokens.mp member⟩
    · rintro ⟨token, member⟩
      exact ⟨_, (served _).mpr ⟨List.ne_nil_of_mem (mem_activeTokens.mpr member), rfl⟩⟩
  · rename_i disabled
    refine iff_of_true ?_ trivial
    have development : settings.isProduction = false := by
      simp only [checkedConfiguration, bind_eq_ok] at checked
      obtain ⟨audiences, -, scopes, -, metadata, isMetadata, same⟩ := checked
      cases same
      have isDisabled : given.mode = .disabledDev := disabled
      simp only [validateAuthConfiguration, bind_eq_ok, require_eq_ok, exists_const] at isMetadata
      simpa [isDisabled] using isMetadata.2.1
    obtain ⟨mode, issuerUrl, audiences, requiredScopes, metadata⟩ := config
    obtain rfl : mode = .disabledDev := disabled
    refine ⟨{ mode := .disabledDev }, ?_⟩
    show (ensure (!settings.isProduction) ("Unauthenticated MCP access is forbidden in production" : Text) >>= fun _ =>
      InboundAuthSecrets.make { mode := .disabledDev }) = _
    rw [development]
    rfl
  · rename_i oidc
    exact succeeds_materialize_oidc oidc (oidcChecked oidc checked)

/-! ## Every reachable state -/

/-- What is stored and what the runtime does with it. -/
structure InboundAgreement (platform : Platform) (settings : Settings) (hashing : Hashing) (store : AccessStore) : Prop where
  servable : ∀ projectId clock, store.safelyServable platform settings projectId clock = true ↔
    ∃ hostname config, store.hostnames projectId = some hostname ∧ store.configs projectId = some config ∧
      Servable platform settings store projectId clock hostname config
  verified : ∀ projectId clock hostname config secrets, store.configs projectId = some config →
    config.mode = .staticBearer →
    materializeInboundAuth platform hostname (some config) (store.activeVerifiers projectId clock) settings = .ok secrets →
    ∀ token now clientId, verifyToken hashing.ofText secrets token now = some clientId ↔
      token ≠ [] ∧ token.length ≤ 4096 ∧ ∃ row ∈ store.tokens, row.projectId = projectId ∧
        clientId = Text.ofUuid row.id ∧ row.tokenHash = AccessStore.tokenHash hashing token ∧
        row.activeAt clock = true ∧ row.activeAt now = true

/-- After every run: the projects that are stopped for their inbound access are those that nobody could use, and the
runtime lets in the bearers of the tokens that are active when it is configured and when it is called. -/
theorem inboundAgreement_run (actions : List AccessStore.AccessAction) :
    InboundAgreement platform settings hashing (run (AccessStore.step platform settings hashing) .empty actions) := by
  have sound := @sound_run platform settings hashing actions
  refine ⟨fun projectId clock => ?_, fun projectId clock hostname config secrets stored static made => ?_⟩
  · unfold AccessStore.safelyServable
    split
    · rename_i hostname config isHostname isConfig
      rw [isOk_iff_succeeds, succeeds_materialize sound isConfig]
      constructor
      · exact fun servable => ⟨hostname, config, isHostname, isConfig, servable⟩
      · rintro ⟨otherHostname, otherConfig, sameHostname, sameConfig, servable⟩
        obtain rfl := Option.some.inj (isHostname.symm.trans sameHostname)
        obtain rfl := Option.some.inj (isConfig.symm.trans sameConfig)
        exact servable
    · rename_i missing
      refine iff_of_false Bool.false_ne_true ?_
      rintro ⟨hostname, config, isHostname, isConfig, -⟩
      exact missing hostname config isHostname isConfig
  · obtain ⟨-, rfl⟩ := (materialize_static_eq_ok sound static).mp made
    exact fun token now clientId => verifyToken_iff sound

end

end Mcplica.Deployments.Access
