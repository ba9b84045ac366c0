import Mathlib.Logic.Relation
import Mcplica.Secrets.Rotation

/-! # Re-encryption keeps every secret

A batch replaces the rows it claims by rows under the active key with the same plaintext and touches no other one. The
rows left to do become fewer with every batch, so the loop ends; it ends well only when none is left. -/

namespace Mcplica.Secrets

open Mcplica.Domain Mcplica.Library Mcplica.Deployments

/-! ## One table -/

section

variable {ρ κ : Type} [Row ρ κ] [SecretRow ρ] {gcm : AesGcm} {cipher : AesGcmSecretCipher}

/-- The rewrite keeps what a row is and says. -/
structure Preserves (gcm : AesGcm) (cipher : AesGcmSecretCipher) (row next : ρ) : Prop where
  key : Row.key next = Row.key row
  associatedData : SecretRow.associatedData next = SecretRow.associatedData row
  plaintext : decryptRow gcm cipher next = decryptRow gcm cipher row

theorem Preserves.refl (row : ρ) : Preserves gcm cipher row row :=
  ⟨rfl, rfl, rfl⟩

theorem Preserves.trans {first second third : ρ} (earlier : Preserves gcm cipher first second)
    (later : Preserves gcm cipher second third) : Preserves gcm cipher first third :=
  ⟨later.key.trans earlier.key, later.associatedData.trans earlier.associatedData,
    later.plaintext.trans earlier.plaintext⟩

/-- The table with the rows listed re-encrypted. -/
structure Rewritten (gcm : AesGcm) (cipher : AesGcmSecretCipher) (table : Table ρ) (done : List ρ) (next : Table ρ)
    (rewrite : ρ → ρ) : Prop where
  rows : next.rows = table.rows.map rewrite
  preserves : ∀ row ∈ table, Preserves gcm cipher row (rewrite row)
  current : ∀ row ∈ table, row ∈ done → isOutdated cipher (rewrite row) = false
  decrypted : ∀ row ∈ table, row ∈ done → ∃ plaintext, decryptRow gcm cipher row = .ok plaintext
  kept : ∀ row ∈ table, row ∉ done → rewrite row = row

variable {table next : Table ρ} {done : List ρ} {rewrite : ρ → ρ}

theorem Rewritten.mem (rewritten : Rewritten gcm cipher table done next rewrite) {row : ρ} (member : row ∈ table) :
    rewrite row ∈ next := by
  show rewrite row ∈ next.rows
  rw [rewritten.rows]
  exact List.mem_map_of_mem member

theorem rewritten_nil (gcm : AesGcm) (cipher : AesGcmSecretCipher) (table : Table ρ) :
    Rewritten gcm cipher table [] table id where
  rows := (List.map_id _).symm
  preserves row _ := .refl row
  current _ _ isDone := by cases isDone
  decrypted _ _ isDone := by cases isDone
  kept _ _ _ := rfl

/-- The replacement is under the active key and says what the row said. -/
theorem preserves_replaced {envelope : ρ} {plaintext : Bytes} (nonce : Nonce)
    (decrypted : decryptRow gcm cipher envelope = .ok plaintext) :
    Preserves gcm cipher envelope
      (SecretRow.replaced (cipher.encryptBytes gcm nonce plaintext (SecretRow.associatedData envelope)) envelope) where
  key := SecretRow.key_replaced _ _
  associatedData := SecretRow.associatedData_replaced _ _
  plaintext := by
    rw [decrypted, decryptRow, SecretRow.encryptedPayload_replaced, SecretRow.keyVersion_replaced,
      SecretRow.associatedData_replaced]
    exact cipher.decryptBytes_encryptBytes gcm nonce plaintext _

theorem isOutdated_replaced (nonce : Nonce) (plaintext : Bytes) (associatedData : Text) (row : ρ) :
    isOutdated cipher (SecretRow.replaced (cipher.encryptBytes gcm nonce plaintext associatedData) row) = false := by
  simp [isOutdated, SecretRow.keyVersion_replaced, AesGcmSecretCipher.encryptBytes]

variable [DecidableEq κ]

theorem isEnvelope_self (row : ρ) : isEnvelope row row = true := by
  simp [isEnvelope]

theorem key_of_isEnvelope {envelope row : ρ} (same : isEnvelope envelope row = true) : Row.key row = Row.key envelope := by
  simp only [isEnvelope, Bool.and_eq_true, decide_eq_true_eq] at same
  exact same.1.1

/-- The envelope is found as long as its row is in the table. -/
theorem replace_of_mem {envelope : ρ} (member : envelope ∈ next) (secret : EncryptedSecret) :
    replace next envelope secret =
      some (next.update (isEnvelope envelope) (SecretRow.replaced secret) (SecretRow.key_replaced secret)) := by
  have one : next.count (isEnvelope envelope) = 1 := by
    refine (Table.count_eq_one_iff ?_).mpr ⟨envelope, member, isEnvelope_self envelope⟩
    intro row _ other _ same otherSame
    exact (key_of_isEnvelope same).trans (key_of_isEnvelope otherSame).symm
  rw [replace, if_pos one]

theorem Rewritten.reencryptRow (rewritten : Rewritten gcm cipher table done next rewrite) {envelope : ρ}
    (member : envelope ∈ table) (fresh : envelope ∉ done) {conflict : Text} {nonce : Nonce} {after : Table ρ}
    (ran : reencryptRow gcm cipher conflict next envelope nonce = .ok after) :
    ∃ rewrite, Rewritten gcm cipher table (done ++ [envelope]) after rewrite := by
  have isKept : rewrite envelope = envelope := rewritten.kept envelope member fresh
  have isRow : envelope ∈ next := isKept ▸ rewritten.mem member
  simp only [Secrets.reencryptRow, bind_eq_ok, obtain?_eq_ok, replace_of_mem isRow, Option.some.injEq] at ran
  obtain ⟨plaintext, decrypted, rfl⟩ := ran
  let secret := cipher.encryptBytes gcm nonce plaintext (SecretRow.associatedData envelope)
  -- The row of the envelope is the only one that is found.
  have found : ∀ row ∈ table, isEnvelope envelope (rewrite row) = true ↔ row = envelope := by
    intro row isOld
    constructor
    · intro same
      exact Table.eq_of_key isOld member ((rewritten.preserves row isOld).key.symm.trans (key_of_isEnvelope same))
    · rintro rfl
      rw [isKept]
      exact isEnvelope_self row
  refine ⟨fun row => if isEnvelope envelope (rewrite row) then SecretRow.replaced secret (rewrite row) else rewrite row,
    ?_, ?_, ?_, ?_, ?_⟩
  · show next.rows.map _ = _
    rw [rewritten.rows, List.map_map]
    rfl
  · intro row isOld
    by_cases same : row = envelope
    · rw [if_pos ((found row isOld).mpr same), same, isKept]
      exact preserves_replaced nonce decrypted
    · rw [if_neg (mt (found row isOld).mp same)]
      exact rewritten.preserves row isOld
  · intro row isOld isDone
    by_cases same : row = envelope
    · rw [if_pos ((found row isOld).mpr same)]
      exact isOutdated_replaced nonce plaintext _ _
    · rw [if_neg (mt (found row isOld).mp same)]
      rcases List.mem_append.mp isDone with earlier | isLast
      · exact rewritten.current row isOld earlier
      · exact absurd (List.mem_singleton.mp isLast) same
  · intro row isOld isDone
    rcases List.mem_append.mp isDone with earlier | isLast
    · exact rewritten.decrypted row isOld earlier
    · exact ⟨plaintext, List.mem_singleton.mp isLast ▸ decrypted⟩
  · intro row isOld notDone
    rw [List.mem_append, List.mem_singleton, not_or] at notDone
    rw [if_neg (mt (found row isOld).mp notDone.2)]
    exact rewritten.kept row isOld notDone.1

/-- The fold over the rest of a batch. -/
theorem Rewritten.fold {conflict : Text} {urandom : Nat → Nonce} {pairs : List (ρ × Nat)} {after : Table ρ}
    (rewritten : Rewritten gcm cipher table done next rewrite) (members : ∀ pair ∈ pairs, pair.1 ∈ table)
    (distinct : (done ++ pairs.map Prod.fst).Nodup)
    (ran : pairs.foldlM (fun state pair => Secrets.reencryptRow gcm cipher conflict state pair.1 (urandom pair.2)) next =
      .ok after) : ∃ rewrite, Rewritten gcm cipher table (done ++ pairs.map Prod.fst) after rewrite := by
  induction pairs generalizing done next rewrite with
  | nil =>
    cases ran
    exact ⟨rewrite, by simpa using rewritten⟩
  | cons pair pairs ih =>
    rw [List.foldlM_cons, bind_eq_ok] at ran
    obtain ⟨middle, first, rest⟩ := ran
    rw [List.map_cons, List.append_cons] at distinct
    have fresh : pair.1 ∉ done := by
      rw [List.append_assoc, List.nodup_append] at distinct
      exact fun isDone => distinct.2.2 pair.1 isDone pair.1 List.mem_cons_self rfl
    obtain ⟨between, step⟩ := rewritten.reencryptRow (members pair List.mem_cons_self) fresh first
    obtain ⟨final, ended⟩ :=
      ih step (fun other member => members other (List.mem_cons_of_mem _ member)) distinct rest
    exact ⟨final, by simpa using ended⟩

/-- A fold over rows that are all in the table and decrypt does not fail. -/
theorem Rewritten.fold_succeeds {conflict : Text} {urandom : Nat → Nonce} {pairs : List (ρ × Nat)}
    (rewritten : Rewritten gcm cipher table done next rewrite) (members : ∀ pair ∈ pairs, pair.1 ∈ table)
    (distinct : (done ++ pairs.map Prod.fst).Nodup)
    (decrypts : ∀ pair ∈ pairs, ∃ plaintext, decryptRow gcm cipher pair.1 = .ok plaintext) :
    ∃ after, pairs.foldlM (fun state pair => Secrets.reencryptRow gcm cipher conflict state pair.1 (urandom pair.2)) next =
      .ok after := by
  induction pairs generalizing done next rewrite with
  | nil => exact ⟨next, rfl⟩
  | cons pair pairs ih =>
    rw [List.map_cons, List.append_cons] at distinct
    have fresh : pair.1 ∉ done := by
      rw [List.append_assoc, List.nodup_append] at distinct
      exact fun isDone => distinct.2.2 pair.1 isDone pair.1 List.mem_cons_self rfl
    have isMember := members pair List.mem_cons_self
    have isRow : pair.1 ∈ next := rewritten.kept pair.1 isMember fresh ▸ rewritten.mem isMember
    obtain ⟨plaintext, decrypted⟩ := decrypts pair List.mem_cons_self
    obtain ⟨middle, first⟩ : ∃ middle,
        Secrets.reencryptRow gcm cipher conflict next pair.1 (urandom pair.2) = .ok middle := by
      simp only [Secrets.reencryptRow, bind_eq_ok, obtain?_eq_ok, replace_of_mem isRow, Option.some.injEq]
      exact ⟨_, plaintext, decrypted, rfl⟩
    obtain ⟨between, step⟩ := rewritten.reencryptRow isMember fresh first
    obtain ⟨after, rest⟩ := ih step
      (fun other member => members other (List.mem_cons_of_mem _ member)) distinct
      (fun other member => decrypts other (List.mem_cons_of_mem _ member))
    exact ⟨after, by rw [List.foldlM_cons, first]; exact rest⟩

section Claimed

variable {before : ρ → ρ → Bool} {limit : Nat} {conflict : Text} {urandom : Nat → Nonce}

omit [DecidableEq κ] in
theorem members_claim : ∀ pair ∈ (claim cipher before table limit).zipIdx, pair.1 ∈ table := by
  intro pair member
  have claimed : pair.1 ∈ claim cipher before table limit := List.fst_mem_of_mem_zipIdx member
  exact (Table.mem_of_mem_select claimed).1

omit [DecidableEq κ] in
theorem nodup_claim : ([] ++ (claim cipher before table limit).zipIdx.map Prod.fst).Nodup := by
  rw [List.nil_append, List.zipIdx_map_fst]
  exact List.Nodup.of_map _ (Table.select_keys_nodup table _ before limit)

theorem reencryptRows_claim
    (ran : reencryptRows gcm cipher conflict urandom table (claim cipher before table limit) = .ok next) :
    ∃ rewrite, Rewritten gcm cipher table (claim cipher before table limit) next rewrite := by
  obtain ⟨rewrite, rewritten⟩ := (rewritten_nil gcm cipher table).fold members_claim nodup_claim ran
  rw [List.nil_append, List.zipIdx_map_fst] at rewritten
  exact ⟨rewrite, rewritten⟩

theorem reencryptRows_claim_succeeds
    (decrypts : ∀ row ∈ table, isOutdated cipher row = true → ∃ plaintext, decryptRow gcm cipher row = .ok plaintext) :
    ∃ next, reencryptRows gcm cipher conflict urandom table (claim cipher before table limit) = .ok next := by
  refine (rewritten_nil gcm cipher table).fold_succeeds members_claim nodup_claim ?_
  intro pair member
  have claimed := Table.mem_of_mem_select (List.fst_mem_of_mem_zipIdx member)
  exact decrypts pair.1 claimed.1 claimed.2

omit [DecidableEq κ] in
/-- Every row that was claimed is one less to do. -/
theorem count_outdated (rewritten : Rewritten gcm cipher table (claim cipher before table limit) next rewrite) :
    next.count (isOutdated cipher) + (claim cipher before table limit).length = table.count (isOutdated cipher) := by
  let ordered := table.ordered (isOutdated cipher) before
  have split : (claim cipher before table limit) ++ ordered.drop limit = ordered := List.take_append_drop limit ordered
  have distinct : (claim cipher before table limit ++ ordered.drop limit).Nodup := by
    rw [split]
    exact Table.nodup_ordered table _ before
  have left : ∀ row ∈ table, isOutdated cipher (rewrite row) = true → isOutdated cipher row = true := by
    intro row member outdated
    by_contra current
    have unclaimed : row ∉ claim cipher before table limit := fun claimed => current (Table.mem_of_mem_select claimed).2
    exact current (rewritten.kept row member unclaimed ▸ outdated)
  have claimedDone : (claim cipher before table limit).countP (fun row => isOutdated cipher (rewrite row)) = 0 := by
    rw [List.countP_eq_zero]
    intro row claimed
    rw [rewritten.current row (Table.mem_of_mem_select claimed).1 claimed]
    exact Bool.false_ne_true
  have restLeft : (ordered.drop limit).countP (fun row => isOutdated cipher (rewrite row)) = (ordered.drop limit).length := by
    rw [List.countP_eq_length]
    intro row later
    obtain ⟨member, outdated⟩ := Table.mem_ordered.mp (List.mem_of_mem_drop later)
    have unclaimed : row ∉ claim cipher before table limit :=
      fun claimed => (List.nodup_append.mp distinct).2.2 row claimed row later rfl
    rw [rewritten.kept row member unclaimed]
    exact outdated
  have sorted : ordered.Perm (table.rows.filter (isOutdated cipher)) := List.perm_insertionSort _ _
  calc next.count (isOutdated cipher) + (claim cipher before table limit).length
      = table.rows.countP (fun row => isOutdated cipher (rewrite row)) + (claim cipher before table limit).length := by
        rw [Table.count, rewritten.rows, List.countP_map]
        rfl
    _ = (table.rows.filter (isOutdated cipher)).countP (fun row => isOutdated cipher (rewrite row)) +
          (claim cipher before table limit).length := by
        rw [List.countP_filter]
        congr 1
        refine List.countP_congr fun row member => ?_
        simp only [Bool.and_eq_true, iff_self_and]
        exact left row member
    _ = (claim cipher before table limit ++ ordered.drop limit).countP (fun row => isOutdated cipher (rewrite row)) +
          (claim cipher before table limit).length := by
        rw [← sorted.countP_eq, split]
    _ = (claim cipher before table limit).length + (ordered.drop limit).length := by
        rw [List.countP_append, claimedDone, restLeft]
        omega
    _ = table.count (isOutdated cipher) := by
        rw [← List.length_append, split, Table.length_ordered]

end Claimed

end

/-! ## The store -/

section

variable {ρ κ : Type} [Row ρ κ] [SecretRow ρ] {gcm : AesGcm} {cipher : AesGcmSecretCipher}

/-- The row was outdated and could be read, and no longer is outdated. -/
structure Renewed (gcm : AesGcm) (cipher : AesGcmSecretCipher) (row next : ρ) : Prop where
  outdated : isOutdated cipher row = true
  current : isOutdated cipher next = false
  decrypted : ∃ plaintext, decryptRow gcm cipher row = .ok plaintext

/-- Every row is there with what it said, and either the same or renewed. -/
def Reencrypted (gcm : AesGcm) (cipher : AesGcmSecretCipher) (table next : Table ρ) : Prop :=
  ∃ rewrite : ρ → ρ, next.rows = table.rows.map rewrite ∧ ∀ row ∈ table, Preserves gcm cipher row (rewrite row) ∧
    (rewrite row = row ∨ Renewed gcm cipher row (rewrite row))

variable {table middle next : Table ρ}

theorem reencrypted_self (table : Table ρ) : Reencrypted gcm cipher table table :=
  ⟨id, (List.map_id _).symm, fun row _ => ⟨.refl row, .inl rfl⟩⟩

theorem Reencrypted.trans (first : Reencrypted gcm cipher table middle) (second : Reencrypted gcm cipher middle next) :
    Reencrypted gcm cipher table next := by
  obtain ⟨earlier, middleRows, kept⟩ := first
  obtain ⟨later, nextRows, keptLater⟩ := second
  refine ⟨later ∘ earlier, by rw [nextRows, middleRows, List.map_map], fun row member => ?_⟩
  have isRow : earlier row ∈ middle := by
    show earlier row ∈ middle.rows
    rw [middleRows]
    exact List.mem_map_of_mem member
  obtain ⟨preserves, changes⟩ := kept row member
  obtain ⟨preservesLater, changesLater⟩ := keptLater (earlier row) isRow
  refine ⟨preserves.trans preservesLater, ?_⟩
  rw [Function.comp_apply]
  rcases changes with same | renewed
  · rw [same] at changesLater ⊢
    exact changesLater
  · rcases changesLater with same | renewedAgain
    · rw [same]
      exact .inr renewed
    · exact absurd (renewed.current.symm.trans renewedAgain.outdated) Bool.false_ne_true

theorem Rewritten.reencrypted {before : ρ → ρ → Bool} {limit : Nat} {rewrite : ρ → ρ}
    (rewritten : Rewritten gcm cipher table (claim cipher before table limit) next rewrite) :
    Reencrypted gcm cipher table next := by
  refine ⟨rewrite, rewritten.rows, fun row member => ⟨rewritten.preserves row member, ?_⟩⟩
  by_cases claimed : row ∈ claim cipher before table limit
  · exact .inr ⟨(Table.mem_of_mem_select claimed).2, rewritten.current row member claimed,
      rewritten.decrypted row member claimed⟩
  · exact .inl (rewritten.kept row member claimed)

open Classical in
/-- How many rows are no longer what they were. -/
noncomputable def changedRows [DecidableEq κ] (table next : Table ρ) : Nat :=
  table.count fun row => decide (next.get? (Row.key row) ≠ some row)

theorem Reencrypted.mem (reencrypted : Reencrypted gcm cipher table next) {row : ρ} (member : row ∈ table) :
    ∃ kept ∈ next, Preserves gcm cipher row kept ∧ (kept = row ∨ Renewed gcm cipher row kept) := by
  obtain ⟨rewrite, rows, kept⟩ := reencrypted
  refine ⟨rewrite row, ?_, kept row member⟩
  show rewrite row ∈ next.rows
  rw [rows]
  exact List.mem_map_of_mem member

/-- Where nothing is outdated any more, the rows that changed are those that were. -/
theorem changedRows_of_current [DecidableEq κ] (reencrypted : Reencrypted gcm cipher table next)
    (current : next.count (isOutdated cipher) = 0) : changedRows table next = table.count (isOutdated cipher) := by
  refine List.countP_congr fun row member => ?_
  obtain ⟨kept, isKept, preserves, changes⟩ := reencrypted.mem member
  have notOutdated : isOutdated cipher kept = false := by
    rw [Table.count, List.countP_eq_zero] at current
    exact Bool.eq_false_of_not_eq_true (current kept isKept)
  have found : next.get? (Row.key row) = some kept := Table.get?_eq_some.mpr ⟨isKept, preserves.key⟩
  simp only [decide_eq_true_eq, found, ne_eq, Option.some.injEq]
  rcases changes with same | renewed
  · rw [← same, notOutdated]
    simp
  · simp only [renewed.outdated, iff_true]
    rintro rfl
    exact absurd (notOutdated.symm.trans renewed.outdated) Bool.false_ne_true

/-- A key ring with the same active key and at least the keys of the other one. -/
structure AesGcmSecretCipher.Extends (cipher later : AesGcmSecretCipher) : Prop where
  active : later.activeKeyVersion = cipher.activeKeyVersion
  keys : ∀ version key, cipher.keys.lookup version = some key → later.keys.lookup version = some key

variable {later : AesGcmSecretCipher}

theorem decryptRow_extends (extends_ : cipher.Extends later) {row : ρ} {plaintext : Bytes}
    (decrypted : decryptRow gcm cipher row = .ok plaintext) : decryptRow gcm later row = .ok plaintext := by
  simp only [decryptRow, AesGcmSecretCipher.decryptBytes, bind_eq_ok, obtain?_eq_ok] at decrypted ⊢
  obtain ⟨key, found, checks⟩ := decrypted
  exact ⟨key, extends_.keys _ key found, checks⟩

theorem isOutdated_extends (extends_ : cipher.Extends later) (row : ρ) : isOutdated later row = isOutdated cipher row := by
  rw [isOutdated, isOutdated, extends_.active]

/-- What was re-encrypted with a key ring reads the same with a larger one. -/
theorem Reencrypted.extends (reencrypted : Reencrypted gcm cipher table next) (extends_ : cipher.Extends later) :
    Reencrypted gcm later table next := by
  obtain ⟨rewrite, rows, kept⟩ := reencrypted
  refine ⟨rewrite, rows, fun row member => ?_⟩
  obtain ⟨preserves, changes⟩ := kept row member
  rcases changes with same | renewed
  · rw [same]
    exact ⟨.refl row, .inl rfl⟩
  · obtain ⟨plaintext, decrypted⟩ := renewed.decrypted
    have before := decryptRow_extends extends_ decrypted
    have after := decryptRow_extends extends_ (preserves.plaintext.trans decrypted)
    refine ⟨⟨preserves.key, preserves.associatedData, after.trans before.symm⟩, .inr ⟨?_, ?_, plaintext, before⟩⟩
    · rw [isOutdated_extends extends_]
      exact renewed.outdated
    · rw [isOutdated_extends extends_]
      exact renewed.current

end

/-! ## The loop -/

namespace SecretStore

variable {gcm : AesGcm} {cipher : AesGcmSecretCipher} {batchSize : Nat} {environment : Environment}
  {store middle next : SecretStore}

/-- The rows that are not under the active key. -/
def outdated (cipher : AesGcmSecretCipher) (store : SecretStore) : Nat :=
  store.credentials.count (isOutdated cipher) + store.systemSecrets.count (isOutdated cipher)

/-- Every secret of the store is in the other one, with what it said. -/
structure ReencryptedAs (gcm : AesGcm) (cipher : AesGcmSecretCipher) (store next : SecretStore) : Prop where
  credentials : Reencrypted gcm cipher store.credentials next.credentials
  systemSecrets : Reencrypted gcm cipher store.systemSecrets next.systemSecrets

theorem reencryptedAs_self (store : SecretStore) : store.ReencryptedAs gcm cipher store :=
  ⟨reencrypted_self _, reencrypted_self _⟩

theorem ReencryptedAs.trans (first : store.ReencryptedAs gcm cipher middle) (second : middle.ReencryptedAs gcm cipher next) :
    store.ReencryptedAs gcm cipher next :=
  ⟨first.credentials.trans second.credentials, first.systemSecrets.trans second.systemSecrets⟩

/-- Every row that is not under the active key can be read. -/
def Readable (gcm : AesGcm) (cipher : AesGcmSecretCipher) (store : SecretStore) : Prop :=
  (∀ row ∈ store.credentials, isOutdated cipher row = true → ∃ plaintext, decryptRow gcm cipher row = .ok plaintext) ∧
    ∀ row ∈ store.systemSecrets, isOutdated cipher row = true → ∃ plaintext, decryptRow gcm cipher row = .ok plaintext

/-- A turn of the loop that committed. -/
def Turn (gcm : AesGcm) (cipher : AesGcmSecretCipher) (batchSize : Nat) (environment : Environment)
    (store next : SecretStore) : Prop :=
  ∃ batch counts, store.runBatch gcm cipher batchSize environment batch = .ok (next, counts)

structure BatchSpec (gcm : AesGcm) (cipher : AesGcmSecretCipher) (batchSize : Nat) (store next : SecretStore)
    (credentials systemSecrets : Nat) : Prop where
  reencrypted : store.ReencryptedAs gcm cipher next
  credentialsLeft : next.credentials.count (isOutdated cipher) + credentials = store.credentials.count (isOutdated cipher)
  systemSecretsLeft : next.systemSecrets.count (isOutdated cipher) + systemSecrets =
    store.systemSecrets.count (isOutdated cipher)
  /-- An empty batch had nothing to claim. -/
  last : 1 ≤ batchSize → credentials = 0 → systemSecrets = 0 → store.outdated cipher = 0

theorem runBatch_eq_ok {batch credentials systemSecrets : Nat}
    (ran : store.runBatch gcm cipher batchSize environment batch = .ok (next, credentials, systemSecrets)) :
    BatchSpec gcm cipher batchSize store next credentials systemSecrets := by
  unfold runBatch at ran
  split at ran
  · cases ran
  · simp only [reencryptBatch, bind_eq_ok, pure, Except.pure, Except.ok.injEq, Prod.mk.injEq] at ran
    obtain ⟨credentialRows, credentialsRan, secretRows, secretsRan, rfl, rfl, rfl⟩ := ran
    obtain ⟨rewriteCredential, credentialsDone⟩ := reencryptRows_claim credentialsRan
    obtain ⟨rewriteSecret, secretsDone⟩ := reencryptRows_claim secretsRan
    refine ⟨⟨credentialsDone.reencrypted, secretsDone.reencrypted⟩, count_outdated credentialsDone,
      count_outdated secretsDone, fun positive noCredentials noSecrets => ?_⟩
    rw [noCredentials, Nat.sub_zero] at noSecrets
    simp only [claimCredentials, claimSystemSecrets, claim, Table.length_select] at noCredentials noSecrets
    unfold outdated
    omega

theorem runBatch_succeeds (readable : store.Readable gcm cipher) {batch : Nat} (works : environment.fails batch = false) :
    ∃ result, store.runBatch gcm cipher batchSize environment batch = .ok result := by
  simp only [runBatch, works, Bool.false_eq_true, if_false, reencryptBatch, bind_eq_ok, pure, Except.pure, Except.ok.injEq]
  have credentials : ∃ rows, reencryptRows gcm cipher "Credential changed during secret re-encryption"
      (environment.urandom batch) store.credentials (store.claimCredentials cipher batchSize) = .ok rows :=
    reencryptRows_claim_succeeds readable.1
  have systemSecrets : ∃ rows, reencryptRows gcm cipher "System secret changed during secret re-encryption"
      (fun index => environment.urandom batch ((store.claimCredentials cipher batchSize).length + index))
      store.systemSecrets (store.claimSystemSecrets cipher (batchSize - (store.claimCredentials cipher batchSize).length)) =
      .ok rows := reencryptRows_claim_succeeds readable.2
  obtain ⟨credentialRows, credentialsRan⟩ := credentials
  obtain ⟨secretRows, secretsRan⟩ := systemSecrets
  exact ⟨_, credentialRows, credentialsRan, secretRows, secretsRan, rfl⟩

theorem outdated_eq_zero : store.outdated cipher = 0 ↔
    store.credentials.count (isOutdated cipher) = 0 ∧ store.systemSecrets.count (isOutdated cipher) = 0 :=
  Nat.add_eq_zero_iff

/-- What the loop does from a turn on, with fuel for more turns than there are rows to do. -/
structure LoopSpec (gcm : AesGcm) (cipher : AesGcmSecretCipher) (batchSize : Nat) (environment : Environment)
    (store final : SecretStore) (credentials systemSecrets : Nat) (result : Except RotationError SecretRotationResult) :
    Prop where
  turns : Relation.ReflTransGen (Turn gcm cipher batchSize environment) store final
  reencrypted : store.ReencryptedAs gcm cipher final
  returned : ∀ report, result = .ok report → final.outdated cipher = 0 ∧
    report.credentialsReencrypted = credentials + store.credentials.count (isOutdated cipher) ∧
    report.systemSecretsReencrypted = systemSecrets + store.systemSecrets.count (isOutdated cipher)

theorem reencryptLoop_spec (positive : 1 ≤ batchSize) {fuel batch credentials systemSecrets : Nat}
    (enough : store.outdated cipher < fuel) :
    ∃ final result, store.reencryptLoop gcm cipher batchSize environment fuel batch credentials systemSecrets =
      some (final, result) ∧
        LoopSpec gcm cipher batchSize environment store final credentials systemSecrets result := by
  induction fuel generalizing store batch credentials systemSecrets with
  | zero => exact absurd enough (Nat.not_lt_zero _)
  | succ fuel ih =>
    unfold reencryptLoop
    cases ran : store.runBatch gcm cipher batchSize environment batch with
    | error error => exact ⟨store, .error error, rfl, .refl, reencryptedAs_self store, nofun⟩
    | ok claimed =>
      obtain ⟨next, claimedCredentials, claimedSecrets⟩ := claimed
      have spec := runBatch_eq_ok ran
      have turn : Turn gcm cipher batchSize environment store next := ⟨batch, _, ran⟩
      dsimp only
      split
      · rename_i isEmpty
        have done := spec.last positive isEmpty.1 isEmpty.2
        have nextDone : next.outdated cipher = 0 := by
          have credentialsLeft := spec.credentialsLeft
          have systemSecretsLeft := spec.systemSecretsLeft
          unfold outdated at done ⊢
          omega
        refine ⟨next, _, rfl, .single turn, spec.reencrypted, fun report isReport => ?_⟩
        unfold SecretStore.report at isReport
        split at isReport
        · cases isReport
        · cases isReport
          rw [outdated_eq_zero] at done
          rw [done.1, done.2]
          exact ⟨nextDone, rfl, rfl⟩
      · rename_i notEmpty
        have credentialsLeft := spec.credentialsLeft
        have systemSecretsLeft := spec.systemSecretsLeft
        have fewer : next.outdated cipher < fuel := by
          unfold outdated at enough ⊢
          omega
        obtain ⟨final, result, ended, later⟩ := @ih next (batch + 1)
          (credentials + claimedCredentials) (systemSecrets + claimedSecrets) fewer
        refine ⟨final, result, ended, .head turn later.turns, spec.reencrypted.trans later.reencrypted, ?_⟩
        intro report isReport
        obtain ⟨finished, credentialsCounted, secretsCounted⟩ := later.returned report isReport
        exact ⟨finished, by omega, by omega⟩

end SecretStore

/-- A row that is still outdated is an old one. -/
theorem Reencrypted.readable {ρ κ : Type} [Row ρ κ] [SecretRow ρ] {gcm : AesGcm} {cipher : AesGcmSecretCipher}
    {table next : Table ρ} (reencrypted : Reencrypted gcm cipher table next)
    (readable : ∀ row ∈ table, isOutdated cipher row = true → ∃ plaintext, decryptRow gcm cipher row = .ok plaintext) :
    ∀ row ∈ next, isOutdated cipher row = true → ∃ plaintext, decryptRow gcm cipher row = .ok plaintext := by
  obtain ⟨rewrite, rows, kept⟩ := reencrypted
  intro row member isLeft
  have isRow : row ∈ table.rows.map rewrite := rows ▸ member
  obtain ⟨old, isOld, rfl⟩ := List.mem_map.mp isRow
  rcases (kept old isOld).2 with same | renewed
  · rw [same] at isLeft ⊢
    exact readable old isOld isLeft
  · exact absurd (renewed.current.symm.trans isLeft) Bool.false_ne_true

namespace SecretStore

variable {gcm : AesGcm} {cipher : AesGcmSecretCipher} {batchSize : Nat} {environment : Environment}
  {store middle next : SecretStore}

theorem ReencryptedAs.readable (reencrypted : store.ReencryptedAs gcm cipher next) (readable : store.Readable gcm cipher) :
    next.Readable gcm cipher :=
  ⟨reencrypted.credentials.readable readable.1, reencrypted.systemSecrets.readable readable.2⟩

/-- A loop that can read every row and that the database does not fail returns. -/
theorem reencryptLoop_returns (works : ∀ batch, environment.fails batch = false) (readable : store.Readable gcm cipher)
    {fuel batch credentials systemSecrets : Nat} {final : SecretStore} {result : Except RotationError SecretRotationResult}
    (ended : store.reencryptLoop gcm cipher batchSize environment fuel batch credentials systemSecrets =
      some (final, result)) : ∃ report, result = .ok report := by
  induction fuel generalizing store batch credentials systemSecrets with
  | zero => cases ended
  | succ fuel ih =>
    unfold reencryptLoop at ended
    obtain ⟨⟨next, claimedCredentials, claimedSecrets⟩, ran⟩ :=
      @runBatch_succeeds gcm cipher batchSize environment store readable batch (works batch)
    rw [ran] at ended
    dsimp only at ended
    split at ended
    · cases ended
      exact ⟨_, by rw [SecretStore.report, works, if_neg Bool.false_ne_true]⟩
    · exact ih ((runBatch_eq_ok ran).reencrypted.readable readable) ended

/-- The run ends with every secret readable as before, the rows of whole batches renewed. A report comes with no row left
to do and counts the rows that changed. -/
structure RotationSpec (gcm : AesGcm) (cipher : AesGcmSecretCipher) (batchSize : Nat) (environment : Environment)
    (store final : SecretStore) (result : Except RotationError SecretRotationResult) : Prop where
  turns : Relation.ReflTransGen (Turn gcm cipher batchSize environment) store final
  reencrypted : store.ReencryptedAs gcm cipher final
  returned : ∀ report, result = .ok report → final.outdated cipher = 0 ∧
    report.credentialsReencrypted = changedRows store.credentials final.credentials ∧
    report.systemSecretsReencrypted = changedRows store.systemSecrets final.systemSecrets

theorem reencryptAll_spec (gcm : AesGcm) (cipher : AesGcmSecretCipher) (batchSize : Nat) (environment : Environment)
    (store : SecretStore) {fuel : Nat} (enough : store.outdated cipher < fuel) :
    ∃ final result, store.reencryptAll gcm cipher batchSize environment fuel = some (final, result) ∧
      RotationSpec gcm cipher batchSize environment store final result := by
  unfold reencryptAll
  split
  · exact ⟨store, _, rfl, .refl, reencryptedAs_self store, nofun⟩
  · rename_i inRange
    have positive : 1 ≤ batchSize := by omega
    obtain ⟨final, result, ended, spec⟩ := @reencryptLoop_spec gcm cipher batchSize environment store positive fuel 0 0 0 enough
    refine ⟨final, result, ended, spec.turns, spec.reencrypted, fun report isReport => ?_⟩
    obtain ⟨finished, credentialsCounted, secretsCounted⟩ := spec.returned report isReport
    obtain ⟨credentialsDone, secretsDone⟩ := outdated_eq_zero.mp finished
    refine ⟨finished, ?_, ?_⟩
    · rw [credentialsCounted, Nat.zero_add, changedRows_of_current spec.reencrypted.credentials credentialsDone]
    · rw [secretsCounted, Nat.zero_add, changedRows_of_current spec.reencrypted.systemSecrets secretsDone]

/-- For every store, batch size and course of failures, re-encryption ends as specified; and a later run that fails no
more, with a key ring that reads every row, completes what an earlier one has left. -/
theorem reencryption_of_every_run (gcm : AesGcm) (cipher : AesGcmSecretCipher) (batchSize : Nat) (environment : Environment)
    (store : SecretStore) :
    ∃ fuel final result, store.reencryptAll gcm cipher batchSize environment fuel = some (final, result) ∧
      RotationSpec gcm cipher batchSize environment store final result ∧
      ∀ later laterSize laterEnvironment, cipher.Extends later → (1 ≤ laterSize ∧ laterSize ≤ 10000) →
        (∀ batch, laterEnvironment.fails batch = false) → store.Readable gcm later →
        ∃ fuel completed report, final.reencryptAll gcm later laterSize laterEnvironment fuel =
          some (completed, .ok report) ∧ completed.outdated later = 0 ∧ store.ReencryptedAs gcm later completed := by
  obtain ⟨final, result, ended, spec⟩ :=
    reencryptAll_spec gcm cipher batchSize environment store (Nat.lt_succ_self (store.outdated cipher))
  refine ⟨_, final, result, ended, spec, fun later laterSize laterEnvironment extends_ inRange works readable => ?_⟩
  have first : store.ReencryptedAs gcm later final :=
    ⟨spec.reencrypted.credentials.extends extends_, spec.reencrypted.systemSecrets.extends extends_⟩
  obtain ⟨completed, laterResult, laterEnded, laterSpec⟩ :=
    reencryptAll_spec gcm later laterSize laterEnvironment final (Nat.lt_succ_self (final.outdated later))
  obtain ⟨report, isReport⟩ : ∃ report, laterResult = .ok report := by
    have loops := laterEnded
    rw [reencryptAll, if_neg (by omega)] at loops
    exact reencryptLoop_returns works (first.readable readable) loops
  subst isReport
  exact ⟨_, completed, report, laterEnded, (laterSpec.returned report rfl).1, first.trans laterSpec.reencrypted⟩

/-- More fuel does not change how the loop ends. -/
theorem reencryptLoop_mono {fuel more batch credentials systemSecrets : Nat} (enough : fuel ≤ more)
    {outcome : SecretStore × Except RotationError SecretRotationResult}
    (ended : store.reencryptLoop gcm cipher batchSize environment fuel batch credentials systemSecrets = some outcome) :
    store.reencryptLoop gcm cipher batchSize environment more batch credentials systemSecrets = some outcome := by
  induction fuel generalizing more batch store credentials systemSecrets with
  | zero => cases ended
  | succ fuel ih =>
    obtain ⟨others, rfl⟩ := Nat.exists_eq_add_of_le' (Nat.one_le_iff_ne_zero.mpr (show more ≠ 0 by omega))
    unfold reencryptLoop at ended ⊢
    split at ended
    · exact ended
    · split at ended
      · rename_i none
        rw [if_pos none]
        exact ended
      · rename_i claimed
        rw [if_neg claimed]
        exact ih (by omega) ended

theorem reencryptAll_unique {fuel other : Nat} {first second : SecretStore × Except RotationError SecretRotationResult}
    (ended : store.reencryptAll gcm cipher batchSize environment fuel = some first)
    (otherEnded : store.reencryptAll gcm cipher batchSize environment other = some second) : first = second := by
  unfold reencryptAll at ended otherEnded
  split at ended
  · rename_i refused
    rw [if_pos refused] at otherEnded
    exact Option.some.inj (ended.symm.trans otherEnded)
  · rename_i inRange
    rw [if_neg inRange] at otherEnded
    exact Option.some.inj ((reencryptLoop_mono (le_max_left fuel other) ended).symm.trans
      (reencryptLoop_mono (le_max_right fuel other) otherEnded))

/-! ## A run that fails -/

/-- What stands behind the plaintext: the key, the nonce and the associated data. -/
def sealTag (key nonce : Bytes) (associatedData : Text) : Bytes :=
  0 :: (key ++ nonce ++ associatedData.map Char.toNat)

/-- A cipher that hides nothing but opens only under the same key, nonce and associated data. -/
def sealingGcm : AesGcm where
  encrypt key nonce plaintext associatedData := plaintext ++ sealTag key nonce associatedData
  decrypt key nonce ciphertext associatedData :=
    if (sealTag key nonce associatedData).isSuffixOf ciphertext then
      some (ciphertext.take (ciphertext.length - (sealTag key nonce associatedData).length))
    else none
  decrypt_encrypt key nonce plaintext associatedData := by
    rw [if_pos (List.isSuffixOf_iff_suffix.mpr (List.suffix_append _ _)), List.length_append, Nat.add_sub_cancel,
      List.take_left]
  encrypt_ne_nil key nonce plaintext associatedData := by simp [sealTag]

def keyRing (activeKeyVersion : Text) (known : activeKeyVersion = "v1" ∨ activeKeyVersion = "v2") :
    AesGcmSecretCipher where
  keys := [("v1", List.replicate 32 1), ("v2", List.replicate 32 2)]
  activeKeyVersion
  versions := by decide
  active := by rcases known with rfl | rfl <;> decide

def oldRing : AesGcmSecretCipher := keyRing "v1" (.inl rfl)

def newRing : AesGcmSecretCipher := keyRing "v2" (.inr rfl)

def sampleNonce : Nonce := ⟨List.replicate 12 7, rfl⟩

def sealedPayload (ring : AesGcmSecretCipher) (plaintext : Bytes) (associatedData : Text) : Bytes :=
  (ring.encryptBytes sealingGcm sampleNonce plaintext associatedData).payload

/-- A credential and a system secret are under the old key, another system secret is under the new one. -/
def rotatingStore : SecretStore where
  credentials := ⟨[⟨1, 2, .bearer, "v1", [], none,
    sealedPayload oldRing [10, 11] (credentialSecretAad 2 1 .bearer)⟩], by decide⟩
  systemSecrets := ⟨[⟨"openai", sealedPayload oldRing [20] (systemSecretAad "openai"), "v1"⟩,
    ⟨"smtp", sealedPayload newRing [30] (systemSecretAad "smtp"), "v2"⟩], by decide⟩

def failingIn (batch : Nat → Bool) : Environment := ⟨batch, fun _ _ => sampleNonce⟩

theorem readable_rotatingStore : rotatingStore.Readable sealingGcm newRing := by
  have credentials : ∀ row ∈ rotatingStore.credentials.rows, (decryptRow sealingGcm newRing row).isOk = true := by
    decide +kernel
  have systemSecrets : ∀ row ∈ rotatingStore.systemSecrets.rows, (decryptRow sealingGcm newRing row).isOk = true := by
    decide +kernel
  exact ⟨fun row member _ => exists_ok_of_isOk (credentials row member),
    fun row member _ => exists_ok_of_isOk (systemSecrets row member)⟩

/-- The second batch fails and leaves one secret under the old key; a later run completes it. -/
theorem reencryption_of_failing_run :
    ∃ fuel final laterFuel completed report,
      rotatingStore.reencryptAll sealingGcm newRing 1 (failingIn (· == 1)) fuel = some (final, .error .database) ∧
      final.outdated newRing = 1 ∧ rotatingStore.ReencryptedAs sealingGcm newRing final ∧
      final.reencryptAll sealingGcm newRing 1 (failingIn fun _ => false) laterFuel = some (completed, .ok report) ∧
      completed.outdated newRing = 0 ∧ rotatingStore.ReencryptedAs sealingGcm newRing completed := by
  obtain ⟨fuel, final, result, ended, spec, completes⟩ :=
    reencryption_of_every_run sealingGcm newRing 1 (failingIn (· == 1)) rotatingStore
  have stops : (rotatingStore.reencryptAll sealingGcm newRing 1 (failingIn (· == 1)) 4).map
      (fun ended => (ended.2, ended.1.outdated newRing)) = some (.error .database, 1) := by decide +kernel
  obtain ⟨stopped, isStopped, fields⟩ := Option.map_eq_some_iff.mp stops
  have same := reencryptAll_unique isStopped ended
  rw [same, Prod.mk.injEq] at fields
  obtain ⟨laterFuel, completed, report, laterEnded, current, kept⟩ :=
    completes newRing 1 (failingIn fun _ => false) ⟨rfl, fun _ _ isKey => isKey⟩ (by decide) (fun _ => rfl)
      readable_rotatingStore
  have isError : result = .error .database := fields.1
  refine ⟨fuel, final, laterFuel, completed, report, ?_, fields.2, spec.reencrypted, laterEnded, current, kept⟩
  rw [ended, isError]

end SecretStore

end Mcplica.Secrets
