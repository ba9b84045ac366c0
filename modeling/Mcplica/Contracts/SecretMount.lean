import Mcplica.Contracts.RuntimeSecrets

/-! # The secret mount

What is written to the secret mount is read back as it was, except for hosts of the network policy whose
normal form is no host any more. -/

namespace Mcplica.Contracts

open Mcplica.Library

variable {platform : Platform} {times : DateTimes}

/-! ## Sorted dictionaries -/

theorem sortedBy_map {α β : Type} {make : α → β} {key : α → Text} {other : β → Text}
    (keeps : ∀ value, other (make value) = key value) (values : List α) :
    Text.sortedBy other (values.map make) = (Text.sortedBy key values).map make := by
  refine (List.map_insertionSort _ _ make values fun left _ right _ => ?_).symm
  simp only [keeps]

theorem nodup_keys_sortedBy {α : Type} {entries : List (Text × α)} (unique : (entries.map Prod.fst).Nodup) :
    ((Text.sortedBy Prod.fst entries).map Prod.fst).Nodup :=
  ((Text.perm_sortedBy Prod.fst entries).map Prod.fst).nodup_iff.mpr unique

/-- A dictionary has the same entries after sorting. -/
theorem lookup_sortedBy {α : Type} {entries : List (Text × α)} (unique : (entries.map Prod.fst).Nodup) (key : Text) :
    (Text.sortedBy Prod.fst entries).lookup key = entries.lookup key := by
  by_cases found : key ∈ entries.map Prod.fst
  · obtain ⟨⟨name, value⟩, member, rfl⟩ := List.mem_map.mp found
    rw [lookup_of_mem unique member]
    exact lookup_of_mem (nodup_keys_sortedBy unique) (Text.mem_sortedBy.mpr member)
  · rw [lookup_eq_none_of_not_mem found]
    refine lookup_eq_none_of_not_mem fun member => found ?_
    exact ((Text.perm_sortedBy Prod.fst entries).map Prod.fst).mem_iff.mp member

section Fields

variable {α : Type} {fields : JsonObject}

theorem readField_sortedBy (unique : (fields.map Prod.fst).Nodup) (name : Text) (default : α)
    (read : Json → Except Text α) :
    readField (Text.sortedBy Prod.fst fields) name default read = readField fields name default read := by
  unfold readField Json.get
  rw [lookup_sortedBy unique]

theorem readRequired_sortedBy (unique : (fields.map Prod.fst).Nodup) (name : Text) (read : Json → Except Text α) :
    readRequired (Text.sortedBy Prod.fst fields) name read = readRequired fields name read := by
  unfold readRequired Json.get
  rw [lookup_sortedBy unique]

theorem forbidExtra_sortedBy {names : List Text} (allowed : ∀ key ∈ fields.map Prod.fst, key ∈ names) :
    forbidExtra (Text.sortedBy Prod.fst fields) names = .ok () := by
  refine ensure_eq_ok.mpr (List.all_eq_true.mpr fun field member => ?_)
  exact List.contains_iff_mem.mpr (allowed _ (List.mem_map_of_mem (Text.mem_sortedBy.mp member)))

end Fields

theorem ok_bind {α β : Type} {value : α} {rest : α → Except Text β} : (Except.ok value >>= rest) = rest value := rfl

theorem readList_map {α : Type} {read : Json → Except Text α} {write : α → Json} {values : List α}
    (rereads : ∀ value ∈ values, read (write value) = .ok value) : readList read (.array (values.map write)) = .ok values := by
  refine mapM_eq_ok.mpr ?_
  rw [List.forall₂_map_left_iff]
  exact List.forall₂_same.mpr rereads

theorem readList_writeTexts (texts : List Text) : readList readText (writeTexts texts) = .ok texts :=
  readList_map fun _ _ => rfl

theorem readNullable_optionalText {α : Type} {read : Json → Except Text α} {write : α → Text} {value : Option α}
    (rereads : ∀ inner, value = some inner → read (.string (write inner)) = .ok inner) :
    readNullable read (optionalText (value.map write)) = .ok value := by
  cases value with
  | none => rfl
  | some inner =>
    show some <$> read (.string (write inner)) = _
    rw [rereads inner rfl]
    rfl

/-- A dictionary is read back in the order of its keys. -/
theorem readEntries_sortedObject {α : Type} {read : Json → Except Text α} {write : α → Json} (change : α → α)
    {entries : List (Text × α)} (rereads : ∀ entry ∈ entries, read (write entry.2) = .ok (change entry.2)) :
    readEntries read (sortedObject (entries.map fun entry => (entry.1, write entry.2))) =
      .ok ((Text.sortedBy Prod.fst entries).map fun entry => (entry.1, change entry.2)) := by
  unfold readEntries sortedObject readObject
  rw [ok_bind, sortedBy_map (fun _ => rfl), mapM_eq_ok, List.forall₂_map_left_iff, List.forall₂_map_right_iff,
    List.forall₂_same]
  intro entry member
  show (read (write entry.2) >>= _) = _
  rw [rereads entry (Text.mem_sortedBy.mp member)]
  rfl

/-! ## Credentials -/

namespace UpstreamCredential

/-- The credential with its headers in the order of their names, which is the same dictionary. -/
def inKeyOrder (credential : UpstreamCredential) : UpstreamCredential :=
  { credential with headers := credential.headers.map (Text.sortedBy Prod.fst) }

theorem validateHeaders_eq_ok {unicode : Unicode} {headers : List (Text × Text)} {lowered : List Text} :
    validateHeaders unicode lowered headers = .ok () ↔
      (∀ header ∈ headers, isHeaderName header.1 = true ∧ header.2 ≠ [] ∧ Text.includesAny header.2 lineBreaks = false) ∧
      (headers.map fun header => header.1.lower unicode).Nodup ∧
      ∀ header ∈ headers, header.1.lower unicode ∉ lowered := by
  induction headers generalizing lowered with
  | nil => simp [validateHeaders]
  | cons header rest ih =>
    obtain ⟨name, value⟩ := header
    simp only [validateHeaders, check_bind_eq_ok, ensure_eq_ok, ih, List.forall_mem_cons, List.map_cons,
      List.nodup_cons, Bool.and_eq_true, Bool.not_eq_true', List.contains_eq_mem, decide_eq_false_iff_not,
      decide_eq_true_eq]
    simp only [List.mem_cons, not_or]
    constructor
    · rintro ⟨⟨isName, fresh⟩, ⟨nonempty, clean⟩, others, distinct, apart⟩
      refine ⟨⟨⟨isName, nonempty, clean⟩, others⟩, ⟨?_, distinct⟩, fresh, fun other member => (apart other member).2⟩
      intro repeated
      obtain ⟨other, member, same⟩ := List.mem_map.mp repeated
      exact (apart other member).1 same
    · rintro ⟨⟨⟨isName, nonempty, clean⟩, others⟩, ⟨notRepeated, distinct⟩, fresh, apart⟩
      refine ⟨⟨isName, fresh⟩, ⟨nonempty, clean⟩, others, distinct, fun other member => ⟨?_, apart other member⟩⟩
      intro same
      exact notRepeated (List.mem_map.mpr ⟨other, member, same⟩)

theorem validateHeaders_sortedBy {unicode : Unicode} {headers : List (Text × Text)}
    (valid : validateHeaders unicode [] headers = .ok ()) :
    validateHeaders unicode [] (Text.sortedBy Prod.fst headers) = .ok () := by
  rw [validateHeaders_eq_ok] at valid ⊢
  refine ⟨fun header member => valid.1 header (Text.mem_sortedBy.mp member), ?_, fun _ _ => List.not_mem_nil⟩
  exact ((Text.perm_sortedBy Prod.fst headers).map _).nodup_iff.mpr valid.2.1

theorem valid_inKeyOrder {unicode : Unicode} {credential : UpstreamCredential}
    (valid : credential.validateExactSecretShape unicode = .ok ()) :
    credential.inKeyOrder.validateExactSecretShape unicode = .ok () := by
  have samePresent : credential.inKeyOrder.present = credential.present := by
    cases credential with
    | mk type token apiKey username password clientId clientSecret headers => cases headers <;> rfl
  simp only [validateExactSecretShape, check_bind_eq_ok] at valid ⊢
  obtain ⟨shape, nonempty, username, headers⟩ := valid
  refine ⟨?_, nonempty, username, ?_⟩
  · rw [samePresent]
    exact shape
  · cases isHeaders : credential.headers with
    | none => simp [inKeyOrder, isHeaders, validateHeaders]
    | some entries =>
      rw [isHeaders] at headers
      simp only [inKeyOrder, isHeaders, Option.map_some, Option.getD_some]
      exact validateHeaders_sortedBy headers

/-- The fields that hold a secret, as they are written. -/
def writtenSecrets (credential : UpstreamCredential) : JsonObject :=
  credential.secrets.filterMap fun field => field.2.map fun secret => (field.1, Json.string secret)

theorem lookup_written {secrets : List (Text × Option Text)} (unique : (secrets.map Prod.fst).Nodup) (key : Text) :
    (secrets.filterMap fun field => field.2.map fun secret => (field.1, Json.string secret)).lookup key =
      (secrets.lookup key).join.map Json.string := by
  induction secrets with
  | nil => rfl
  | cons field rest ih =>
    obtain ⟨name, secret⟩ := field
    rw [List.map_cons, List.nodup_cons] at unique
    cases secret with
    | none =>
      rw [List.filterMap_cons_none rfl, ih unique.2, List.lookup_cons]
      by_cases same : key = name
      · subst same
        rw [lookup_eq_none_of_not_mem unique.1, beq_self_eq_true]
        rfl
      · rw [beq_eq_false_iff_ne.mpr same]
    | some text =>
      show List.lookup key ((name, Json.string text) :: _) = _
      rw [List.lookup_cons, List.lookup_cons]
      by_cases same : key = name
      · rw [beq_iff_eq.mpr same]
        rfl
      · rw [beq_eq_false_iff_ne.mpr same]
        exact ih unique.2

theorem keys_written (secrets : List (Text × Option Text)) :
    List.Sublist ((secrets.filterMap fun field => field.2.map fun secret => (field.1, Json.string secret)).map Prod.fst)
      (secrets.map Prod.fst) := by
  induction secrets with
  | nil => exact .slnil
  | cons field rest ih =>
    obtain ⟨name, secret⟩ := field
    cases secret with
    | none => exact ih.cons _
    | some text => exact ih.cons_cons _

/-- The fields of the written credential. -/
def writtenFields (credential : UpstreamCredential) : JsonObject :=
  Json.entry "type" (.string credential.type.value) :: (credential.writtenSecrets ++
    credential.headers.toList.map fun headers =>
      Json.entry "headers" (sortedObject (headers.map fun header => (header.1, Json.string header.2))))

def fieldNames : List Text :=
  ["type", "token", "api_key", "username", "password", "client_id", "client_secret", "headers"]

theorem keys_writtenFields (credential : UpstreamCredential) :
    List.Sublist (credential.writtenFields.map Prod.fst) fieldNames := by
  unfold writtenFields
  rw [List.map_cons, List.map_append]
  refine List.Sublist.cons_cons _ (List.Sublist.append (keys_written credential.secrets) ?_)
  cases credential.headers with
  | none => exact List.nil_sublist _
  | some headers => exact List.Sublist.refl _

theorem nodup_writtenFields (credential : UpstreamCredential) : (credential.writtenFields.map Prod.fst).Nodup :=
  (keys_writtenFields credential).nodup (by decide)

theorem get_writtenFields (credential : UpstreamCredential) {name : Text} (notType : name ≠ "type") :
    Json.get credential.writtenFields name = ((credential.secrets.lookup name).join.map Json.string).or
      (if name = "headers" then credential.headers.map fun headers =>
        sortedObject (headers.map fun header => (header.1, Json.string header.2)) else none) := by
  have unique : (credential.secrets.map Prod.fst).Nodup := by
    show (["token", "api_key", "username", "password", "client_id", "client_secret"] : List Text).Nodup
    decide
  have headersLookup : (credential.headers.toList.map fun headers => Json.entry "headers" (sortedObject
      (headers.map fun header => (header.1, Json.string header.2)))).lookup name =
      if name = "headers" then credential.headers.map fun headers =>
        sortedObject (headers.map fun header => (header.1, Json.string header.2)) else none := by
    cases credential.headers with
    | none =>
      show none = if _ then none else none
      rw [ite_self]
    | some headers =>
      show List.lookup name [_] = _
      rw [List.lookup_cons]
      by_cases same : name = "headers"
      · rw [if_pos same, show (name == (Json.entry "headers" _).1) = true from beq_iff_eq.mpr same]
        rfl
      · rw [if_neg same, show (name == (Json.entry "headers" _).1) = false from beq_eq_false_iff_ne.mpr same]
        rfl
  unfold Json.get writtenFields
  rw [List.lookup_cons, show (name == (Json.entry "type" (.string credential.type.value)).1) = false from
    beq_eq_false_iff_ne.mpr notType]
  dsimp only
  rw [List.lookup_append, headersLookup]
  unfold writtenSecrets
  rw [lookup_written unique]

theorem readField_secret (credential : UpstreamCredential) {name : Text} {secret : Option Text}
    (isSecret : credential.secrets.lookup name = some secret) (notType : name ≠ "type") (notHeaders : name ≠ "headers") :
    readField credential.writtenFields name none (readNullable readText) = .ok secret := by
  unfold readField
  rw [get_writtenFields credential notType, isSecret, if_neg notHeaders]
  cases secret <;> rfl

theorem readField_headers (credential : UpstreamCredential) :
    readField credential.writtenFields "headers" none (readNullable (readEntries readText)) =
      .ok (credential.headers.map (Text.sortedBy Prod.fst)) := by
  unfold readField
  rw [get_writtenFields credential (by decide), if_pos rfl, show credential.secrets.lookup ("headers" : Text) = none from rfl]
  cases credential.headers with
  | none => rfl
  | some headers =>
    have entries : readEntries readText (sortedObject (headers.map fun header => (header.1, Json.string header.2))) =
        .ok ((Text.sortedBy Prod.fst headers).map id) := readEntries_sortedObject id fun _ _ => rfl
    show some <$> readEntries readText _ = _
    rw [entries, List.map_id]
    rfl

theorem readRequired_type (credential : UpstreamCredential) :
    readRequired credential.writtenFields "type" (readLiteral CredentialType.all CredentialType.value) =
      .ok credential.type := by
  show readLiteral CredentialType.all CredentialType.value (.string credential.type.value) = _
  cases credential.type <;> rfl

theorem read_write {credential : UpstreamCredential}
    (valid : credential.validateExactSecretShape platform.unicode = .ok ()) :
    UpstreamCredential.read platform credential.write = .ok credential.inKeyOrder := by
  have unique := nodup_writtenFields credential
  have allowed := forbidExtra_sortedBy fun key member => (keys_writtenFields credential).subset member
  have written : readObject credential.write = .ok (Text.sortedBy Prod.fst credential.writtenFields) := rfl
  unfold UpstreamCredential.read
  rw [written, ok_bind, show forbidExtra (Text.sortedBy Prod.fst credential.writtenFields) ["type", "token", "api_key", "username",
    "password", "client_id", "client_secret", "headers"] = .ok () from allowed, ok_bind,
    readRequired_sortedBy unique, readRequired_type, ok_bind]
  -- The six secrets are read one after another.
  iterate 6 rw [readField_sortedBy unique, readField_secret credential rfl (by decide) (by decide), ok_bind]
  rw [readField_sortedBy unique, readField_headers, ok_bind]
  show (credential.inKeyOrder.validateExactSecretShape platform.unicode >>= _) = _
  rw [valid_inKeyOrder valid]
  rfl

end UpstreamCredential

/-! ## Inbound authentication -/

theorem hexadecimal_of_isSha256 {digest : Text} (isDigest : isSha256 digest = true) :
    ∀ character ∈ digest, character ∈ ("0123456789abcdef" : Text) := by
  simp only [isSha256, Bool.and_eq_true, List.all_eq_true, List.contains_iff_mem] at isDigest
  exact isDigest.2

theorem removeStart_of_isSha256 {digest : Text} (isDigest : isSha256 digest = true) :
    removeStart "sha256:" digest = digest := by
  refine if_neg fun starts => ?_
  have isStart : ("sha256:" : Text) <+: digest := List.isPrefixOf_iff_prefix.mp starts
  exact absurd (hexadecimal_of_isSha256 isDigest 's' (isStart.subset (by decide))) (by decide)

theorem validSha256_of_isSha256 {unicode : Unicode} {digest : Text} (isDigest : isSha256 digest = true) :
    validSha256 unicode digest = .ok digest := by
  have hexadecimal := hexadecimal_of_isSha256 isDigest
  have ascii : digest.isAscii = true := by
    have each : ∀ character ∈ ("0123456789abcdef" : Text), (character.toNat < 128) = true := Text.forall_of_all (by decide)
    refine List.all_eq_true.mpr fun character member => ?_
    simpa using each character (hexadecimal character member)
  have lowered : digest.lower unicode = digest := by
    have each : ∀ character ∈ ("0123456789abcdef" : Text), character.toLower = character := Text.forall_of_all (by decide)
    rw [Text.lower_of_isAscii ascii]
    rw [List.map_congr_left fun character member => each character (hexadecimal character member), List.map_id']
  simp only [validSha256, removeStart_of_isSha256 isDigest, lowered, check_bind_eq_ok, ensure_eq_ok]
  exact ⟨isDigest, rfl⟩

/-- A digest may be given with its algorithm. -/
theorem validSha256_append {unicode : Unicode} {digest : Text} (isDigest : isSha256 digest = true) :
    validSha256 unicode (("sha256:" : Text) ++ digest) = .ok digest := by
  have removed : removeStart "sha256:" (("sha256:" : Text) ++ digest) = removeStart "sha256:" digest := by
    rw [removeStart_of_isSha256 isDigest]
    refine (if_pos (List.isPrefixOf_iff_prefix.mpr (List.prefix_append _ _))).trans ?_
    exact List.drop_left
  rw [← validSha256_of_isSha256 isDigest, validSha256, removed]
  rfl

namespace StaticTokenDigest

/-- The digest passed its validators. -/
def Valid (unicode : Unicode) (digest : StaticTokenDigest) : Prop :=
  ∃ id sha256 expiresAt, StaticTokenDigest.make unicode id sha256 expiresAt = .ok digest

theorem make_of_valid {unicode : Unicode} {digest : StaticTokenDigest} (valid : digest.Valid unicode) :
    StaticTokenDigest.make unicode digest.id digest.sha256 digest.expiresAt = .ok digest ∧
      ∀ time, digest.expiresAt = some time → time.offset.isSome = true := by
  obtain ⟨id, sha256, expiresAt, made⟩ := valid
  simp only [make, validSha256, bind_eq_ok, ensure_eq_ok] at made
  obtain ⟨_, length, _, clean, normalized, ⟨_, isDigest, isNormalized⟩, _, zoned, same⟩ := made
  cases isNormalized
  cases same
  refine ⟨?_, ?_⟩
  · simp only [make, validSha256_of_isSha256 isDigest, bind_eq_ok, ensure_eq_ok]
    exact ⟨(), length, (), clean, _, rfl, (), zoned, rfl⟩
  · intro time given
    have given' : expiresAt = some time := given
    rw [given'] at zoned
    simpa using zoned

theorem read_write {digest : StaticTokenDigest} (valid : digest.Valid platform.unicode) :
    StaticTokenDigest.read platform times (digest.write times) = .ok digest := by
  obtain ⟨remade, zoned⟩ := make_of_valid valid
  let fields : JsonObject := [Json.entry "id" (.string digest.id), Json.entry "sha256" (.string digest.sha256),
    Json.entry "expires_at" (optionalText (digest.expiresAt.map times.write))]
  have keys : fields.map Prod.fst = (["id", "sha256", "expires_at"] : List Text) := rfl
  have unique : (fields.map Prod.fst).Nodup := by
    rw [keys]
    decide
  have written : readObject (digest.write times) = .ok (Text.sortedBy Prod.fst fields) := rfl
  have allowed : forbidExtra (Text.sortedBy Prod.fst fields) ["id", "sha256", "expires_at"] = .ok () :=
    forbidExtra_sortedBy fun key member => by rwa [keys] at member
  have expires : readField fields "expires_at" none (readNullable (readTime times)) = .ok digest.expiresAt := by
    refine readNullable_optionalText fun time given => ?_
    exact obtain?_eq_ok.mpr (times.rereads (zoned time given))
  unfold StaticTokenDigest.read
  rw [written, ok_bind, allowed, ok_bind, readRequired_sortedBy unique, readRequired_sortedBy unique,
    readField_sortedBy unique, expires]
  exact remade

end StaticTokenDigest

/-- A list that has been normalized. -/
structure StringSet (values : List Text) : Prop where
  distinct : values.Nodup
  normalized : ∀ value ∈ values, normalizeString value = .ok value
  bounded : values.length ≤ 100

theorem normalizeString_self {value item : Text} (made : normalizeString value = .ok item) :
    normalizeString item = .ok item := by
  simp only [normalizeString, check_bind_eq_ok] at made ⊢
  obtain ⟨valid, same⟩ := made
  cases same
  rw [Text.strip_strip]
  exact ⟨valid, rfl⟩

theorem stringSet_of_normalizeStringSets {values normalized : List Text}
    (made : normalizeStringSets values = .ok normalized) : StringSet normalized := by
  simp only [normalizeStringSets, bind_eq_ok, ensure_eq_ok] at made
  obtain ⟨_, isDistinct, _, bounded, same⟩ := made
  cases same
  obtain ⟨distinct, fromValue, -⟩ := distinctResults_spec isDistinct
  refine ⟨distinct, ?_, by simpa using bounded⟩
  intro item member
  obtain ⟨value, -, makes⟩ := fromValue item member
  exact normalizeString_self makes

theorem normalizeStringSets_self {values : List Text} (isSet : StringSet values) :
    normalizeStringSets values = .ok values := by
  have kept := (distinctResults_self_iff isSet.distinct).mpr isSet.normalized
  simp only [normalizeStringSets, bind_eq_ok, ensure_eq_ok]
  exact ⟨values, kept, (), by simpa using isSet.bounded, rfl⟩

namespace InboundAuthSecrets

/-- The secrets passed their validators. -/
structure Valid (platform : Platform) (secrets : InboundAuthSecrets) : Prop where
  tokens : ∀ token ∈ secrets.staticTokens, token.Valid platform.unicode
  urls : ∀ url, secrets.issuerUrl = some url ∨ secrets.jwksUrl = some url ∨ secrets.resourceUrl = some url →
    platform.urls.Parsed url
  made : ∃ given, InboundAuthSecrets.make given = .ok secrets

theorem make_of_made {given secrets : InboundAuthSecrets} (made : InboundAuthSecrets.make given = .ok secrets) :
    InboundAuthSecrets.make secrets = .ok secrets := by
  simp only [make, bind_eq_ok] at made
  obtain ⟨audiences, isAudiences, scopes, isScopes, algorithms, isAlgorithms, _, complete, same⟩ := made
  cases same
  simp only [make, bind_eq_ok]
  exact ⟨_, normalizeStringSets_self (stringSet_of_normalizeStringSets isAudiences), _,
    normalizeStringSets_self (stringSet_of_normalizeStringSets isScopes), _,
    normalizeStringSets_self (stringSet_of_normalizeStringSets isAlgorithms), (), complete, rfl⟩

end InboundAuthSecrets

/-- A normalized URL is normal: parsing its text gives it back. -/
def AnyHttpUrl.Stable (urls : AnyHttpUrl) : Prop :=
  ∀ url, urls.Parsed url → urls.parse url = some url

theorem readNullable_url (stable : platform.urls.Stable) {url : Option Text}
    (parsed : ∀ text, url = some text → platform.urls.Parsed text) :
    readNullable (readUrl platform) (optionalText url) = .ok url := by
  cases url with
  | none => rfl
  | some text =>
    show some <$> obtain? (platform.urls.parse text) _ = _
    rw [stable text (parsed text rfl)]
    rfl

theorem InboundAuthSecrets.read_write (stable : platform.urls.Stable) {secrets : InboundAuthSecrets}
    (valid : secrets.Valid platform) : InboundAuthSecrets.read platform times (secrets.write times) = .ok secrets := by
  let fields : JsonObject := [Json.entry "mode" (.string secrets.mode.value),
    Json.entry "static_tokens" (.array (secrets.staticTokens.map (StaticTokenDigest.write times))),
    Json.entry "issuer_url" (optionalText secrets.issuerUrl), Json.entry "jwks_url" (optionalText secrets.jwksUrl),
    Json.entry "resource_url" (optionalText secrets.resourceUrl), Json.entry "audiences" (writeTexts secrets.audiences),
    Json.entry "required_scopes" (writeTexts secrets.requiredScopes),
    Json.entry "allowed_algorithms" (writeTexts secrets.allowedAlgorithms)]
  let names : List Text := ["mode", "static_tokens", "issuer_url", "jwks_url", "resource_url", "audiences",
    "required_scopes", "allowed_algorithms"]
  have keys : fields.map Prod.fst = names := rfl
  have unique : (fields.map Prod.fst).Nodup := by
    rw [keys]
    decide
  have written : readObject (secrets.write times) = .ok (Text.sortedBy Prod.fst fields) := rfl
  have allowed : forbidExtra (Text.sortedBy Prod.fst fields) names = .ok () :=
    forbidExtra_sortedBy fun key member => by rwa [keys] at member
  have mode : readRequired fields "mode" (readLiteral InboundAuthMode.all InboundAuthMode.value) = .ok secrets.mode := by
    show readLiteral InboundAuthMode.all InboundAuthMode.value (.string secrets.mode.value) = _
    cases secrets.mode <;> rfl
  have tokens : readField fields "static_tokens" [] (readList (StaticTokenDigest.read platform times)) =
      .ok secrets.staticTokens :=
    readList_map fun token member => StaticTokenDigest.read_write (valid.tokens token member)
  have issuer : readField fields "issuer_url" none (readNullable (readUrl platform)) = .ok secrets.issuerUrl :=
    readNullable_url stable fun url given => valid.urls url (.inl given)
  have jwks : readField fields "jwks_url" none (readNullable (readUrl platform)) = .ok secrets.jwksUrl :=
    readNullable_url stable fun url given => valid.urls url (.inr (.inl given))
  have resource : readField fields "resource_url" none (readNullable (readUrl platform)) = .ok secrets.resourceUrl :=
    readNullable_url stable fun url given => valid.urls url (.inr (.inr given))
  have audiences : readField fields "audiences" [] (readList readText) = .ok secrets.audiences :=
    readList_writeTexts secrets.audiences
  have scopes : readField fields "required_scopes" [] (readList readText) = .ok secrets.requiredScopes :=
    readList_writeTexts secrets.requiredScopes
  have algorithms : readField fields "allowed_algorithms" [] (readList readText) = .ok secrets.allowedAlgorithms :=
    readList_writeTexts secrets.allowedAlgorithms
  obtain ⟨given, made⟩ := valid.made
  unfold InboundAuthSecrets.read
  rw [written, ok_bind]
  rw [show forbidExtra (Text.sortedBy Prod.fst fields) ["mode", "static_tokens", "issuer_url", "jwks_url", "resource_url",
    "audiences", "required_scopes", "allowed_algorithms"] = .ok () from allowed, ok_bind]
  rw [readRequired_sortedBy unique, mode, ok_bind, readField_sortedBy unique, tokens, ok_bind,
    readField_sortedBy unique, issuer, ok_bind, readField_sortedBy unique, jwks, ok_bind,
    readField_sortedBy unique, resource, ok_bind, readField_sortedBy unique, audiences, ok_bind,
    readField_sortedBy unique, scopes, ok_bind, readField_sortedBy unique, algorithms, ok_bind]
  exact make_of_made made

/-! ## The network policy -/

/-- The normal form of the host is a host, and its own normal form. -/
def StableHost (platform : Platform) (value : Text) : Prop :=
  ∀ host, normalizeNetworkHost platform value = .ok host → normalizeNetworkHost platform host = .ok host

/-- A normalized allowlist is its own normal form exactly when its hosts are stable. -/
theorem normalizeHostAllowlist_self_iff {values normalized : List Text}
    (made : normalizeHostAllowlist platform values = .ok normalized) :
    normalizeHostAllowlist platform normalized = .ok normalized ↔ ∀ value ∈ values, StableHost platform value := by
  obtain ⟨distinct, fromValue, toHost⟩ := distinctResults_spec made
  refine (distinctResults_self_iff distinct).trans ⟨fun kept value member host isHost => ?_, fun stable host member => ?_⟩
  · obtain ⟨other, isOther, makes⟩ := toHost value member
    rw [isHost, Except.ok.injEq] at makes
    rw [makes]
    exact kept other isOther
  · obtain ⟨value, isValue, makes⟩ := fromValue host member
    exact stable value isValue host makes

namespace NetworkPolicy

def hosts (policy : NetworkPolicy) : List Text :=
  policy.allowedPrivateHosts ++ policy.allowedDevelopmentHosts

theorem read_write {given policy : NetworkPolicy} (made : NetworkPolicy.make platform given = .ok policy) :
    NetworkPolicy.read platform policy.write = .ok policy ↔ ∀ value ∈ given.hosts, StableHost platform value := by
  let fields : JsonObject := [Json.entry "allowed_private_hosts" (writeTexts policy.allowedPrivateHosts),
    Json.entry "allowed_development_hosts" (writeTexts policy.allowedDevelopmentHosts)]
  have keys : fields.map Prod.fst = (["allowed_private_hosts", "allowed_development_hosts"] : List Text) := rfl
  have unique : (fields.map Prod.fst).Nodup := by
    rw [keys]
    decide
  have written : readObject policy.write = .ok (Text.sortedBy Prod.fst fields) := rfl
  have allowed : forbidExtra (Text.sortedBy Prod.fst fields) ["allowed_private_hosts", "allowed_development_hosts"] =
      .ok () := forbidExtra_sortedBy fun key member => by rwa [keys] at member
  have privateHosts : readField fields "allowed_private_hosts" [] (readList readText) = .ok policy.allowedPrivateHosts :=
    readList_writeTexts policy.allowedPrivateHosts
  have developmentHosts : readField fields "allowed_development_hosts" [] (readList readText) =
      .ok policy.allowedDevelopmentHosts := readList_writeTexts policy.allowedDevelopmentHosts
  have isRead : NetworkPolicy.read platform policy.write = NetworkPolicy.make platform policy := by
    unfold NetworkPolicy.read
    rw [written, ok_bind, allowed, ok_bind, readField_sortedBy unique, privateHosts, ok_bind,
      readField_sortedBy unique, developmentHosts, ok_bind]
  simp only [NetworkPolicy.make, bind_eq_ok] at made
  obtain ⟨isPrivate, madePrivate, isDevelopment, madeDevelopment, same⟩ := made
  cases same
  rw [isRead]
  simp only [NetworkPolicy.make, bind_eq_ok, hosts, List.forall_mem_append, pure, Except.pure, Except.ok.injEq,
    NetworkPolicy.mk.injEq]
  rw [← normalizeHostAllowlist_self_iff madePrivate, ← normalizeHostAllowlist_self_iff madeDevelopment]
  constructor
  · rintro ⟨_, first, _, second, rfl, rfl⟩
    exact ⟨first, second⟩
  · rintro ⟨first, second⟩
    exact ⟨_, first, _, second, rfl, rfl⟩

end NetworkPolicy

/-! ## The bundle -/

namespace RuntimeSecretBundle

/-- The bundle with its dictionaries in the order of their keys, which is the same bundle. -/
def inKeyOrder (bundle : RuntimeSecretBundle) : RuntimeSecretBundle :=
  { bundle with upstreamCredentials := (Text.sortedBy Prod.fst bundle.upstreamCredentials).map fun entry =>
      (entry.1, entry.2.inKeyOrder) }

/-- The bundle passed its validators, its network policy from some configured hosts. -/
structure Valid (platform : Platform) (hosts : NetworkPolicy) (bundle : RuntimeSecretBundle) : Prop where
  credentials : ∀ entry ∈ bundle.upstreamCredentials, entry.2.validateExactSecretShape platform.unicode = .ok ()
  references : validateCredentialReferences bundle.upstreamCredentials = .ok ()
  inboundAuth : bundle.inboundAuth.Valid platform
  networkPolicy : NetworkPolicy.make platform hosts = .ok bundle.networkPolicy

theorem references_inKeyOrder {bundle : RuntimeSecretBundle}
    (references : validateCredentialReferences bundle.upstreamCredentials = .ok ()) :
    validateCredentialReferences bundle.inKeyOrder.upstreamCredentials = .ok () := by
  simp only [validateCredentialReferences, ensure_eq_ok, List.all_eq_true] at references ⊢
  intro entry member
  obtain ⟨source, isSource, rfl⟩ := List.mem_map.mp member
  exact references source (Text.mem_sortedBy.mp isSource)

/-- A mounted bundle is read back unchanged exactly when the configured hosts are stable. -/
theorem modelValidate_serialize_iff (stable : platform.urls.Stable) {hosts : NetworkPolicy} {bundle : RuntimeSecretBundle}
    (valid : bundle.Valid platform hosts) :
    modelValidate platform times (bundle.serializeForSecretMount times) = .ok bundle.inKeyOrder ↔
      ∀ value ∈ hosts.hosts, StableHost platform value := by
  let fields : JsonObject := [Json.entry "version" (.string bundleVersion),
    Json.entry "inbound_auth" (bundle.inboundAuth.write times), Json.entry "network_policy" bundle.networkPolicy.write,
    Json.entry "upstream_credentials"
      (sortedObject (bundle.upstreamCredentials.map fun entry => (entry.1, entry.2.write)))]
  have keys : fields.map Prod.fst =
      (["version", "inbound_auth", "network_policy", "upstream_credentials"] : List Text) := rfl
  have unique : (fields.map Prod.fst).Nodup := by
    rw [keys]
    decide
  have written : readObject (bundle.serializeForSecretMount times) = .ok (Text.sortedBy Prod.fst fields) := rfl
  have allowed : forbidExtra (Text.sortedBy Prod.fst fields)
      ["version", "upstream_credentials", "inbound_auth", "network_policy"] = .ok () := by
    refine forbidExtra_sortedBy fun key member => ?_
    rw [keys] at member
    revert member
    exact fun member => (by decide : ∀ key ∈ (["version", "inbound_auth", "network_policy", "upstream_credentials"] :
      List Text), key ∈ (["version", "upstream_credentials", "inbound_auth", "network_policy"] : List Text)) key member
  have version : readField fields "version" bundleVersion (readLiteral [bundleVersion] id) = .ok bundleVersion := rfl
  have credentials : readField fields "upstream_credentials" [] (readEntries (UpstreamCredential.read platform)) =
      .ok bundle.inKeyOrder.upstreamCredentials :=
    readEntries_sortedObject UpstreamCredential.inKeyOrder fun entry member =>
      UpstreamCredential.read_write (valid.credentials entry member)
  have inbound : readRequired fields "inbound_auth" (InboundAuthSecrets.read platform times) = .ok bundle.inboundAuth :=
    InboundAuthSecrets.read_write stable valid.inboundAuth
  have network : readField fields "network_policy" {} (NetworkPolicy.read platform) =
      NetworkPolicy.read platform bundle.networkPolicy.write := rfl
  rw [← NetworkPolicy.read_write valid.networkPolicy]
  unfold modelValidate
  rw [written, ok_bind, allowed, ok_bind, readField_sortedBy unique, version, ok_bind, readField_sortedBy unique,
    credentials, ok_bind, references_inKeyOrder valid.references, ok_bind, readRequired_sortedBy unique, inbound, ok_bind,
    readField_sortedBy unique, network, bind_eq_ok]
  constructor
  · rintro ⟨policy, isRead, same⟩
    rw [isRead]
    exact congrArg (fun made => Except.ok (networkPolicy made)) (Except.ok.inj same)
  · intro isRead
    exact ⟨_, isRead, rfl⟩

end RuntimeSecretBundle

end Mcplica.Contracts
