import Mcplica.Deployments.Credentials
import Mcplica.Library.Uuid
import Mcplica.Library.Run

/-! # Re-encryption of secrets

`SecretRotationService.reencrypt_all` over the credentials and the system secrets. Every batch is a transaction of its
own; the database may fail in any of them, which rolls the batch back. Nobody else writes meanwhile. -/

namespace Mcplica.Secrets

open Mcplica.Domain Mcplica.Library Mcplica.Deployments

abbrev Bytes := List Nat

/-! ## The cipher -/

/-- AES-GCM: decryption with the same key, nonce and associated data inverts encryption. -/
structure AesGcm where
  encrypt (key nonce plaintext : Bytes) (associatedData : Text) : Bytes
  decrypt (key nonce ciphertext : Bytes) (associatedData : Text) : Option Bytes
  decrypt_encrypt : ∀ key nonce plaintext associatedData,
    decrypt key nonce (encrypt key nonce plaintext associatedData) associatedData = some plaintext
  /-- The ciphertext ends with the authentication tag. -/
  encrypt_ne_nil : ∀ key nonce plaintext associatedData, encrypt key nonce plaintext associatedData ≠ []

/-- `NONCE_BYTES` -/
def nonceBytes : Nat := 12

/-- What `os.urandom(NONCE_BYTES)` returns. -/
abbrev Nonce := { bytes : Bytes // bytes.length = nonceBytes }

structure EncryptedSecret where
  keyVersion : Text
  payload : Bytes
  deriving Repr, DecidableEq

inductive RotationError where
  | value (message : Text)
  | validation (message : Text)
  | conflict (message : Text)
  | database
  deriving Repr, DecidableEq

/-- A key ring that the constructor accepts. -/
structure AesGcmSecretCipher where
  keys : List (Text × Bytes)
  activeKeyVersion : Text
  versions : ∀ pair ∈ keys, pair.1 ≠ [] ∧ pair.2.length = 32
  active : (keys.lookup activeKeyVersion).isSome = true

namespace AesGcmSecretCipher

variable (gcm : AesGcm) (cipher : AesGcmSecretCipher)

def activeKey : Bytes :=
  (cipher.keys.lookup cipher.activeKeyVersion).get cipher.active

/-- `encrypt_bytes` -/
def encryptBytes (nonce : Nonce) (plaintext : Bytes) (associatedData : Text) : EncryptedSecret :=
  ⟨cipher.activeKeyVersion, nonce.1 ++ gcm.encrypt cipher.activeKey nonce.1 plaintext associatedData⟩

/-- `decrypt_bytes` -/
def decryptBytes (encrypted : Bytes) (keyVersion associatedData : Text) : Except RotationError Bytes := do
  let key ← obtain? (cipher.keys.lookup keyVersion)
    (.validation (("Unknown secret encryption key version: " : Text) ++ keyVersion))
  ensure (nonceBytes < encrypted.length) (.validation "Encrypted secret payload is malformed")
  obtain? (gcm.decrypt key (encrypted.take nonceBytes) (encrypted.drop nonceBytes) associatedData)
    (.validation "Encrypted secret authentication failed")

theorem decryptBytes_encryptBytes (nonce : Nonce) (plaintext : Bytes) (associatedData : Text) :
    cipher.decryptBytes gcm (cipher.encryptBytes gcm nonce plaintext associatedData).payload cipher.activeKeyVersion
      associatedData = .ok plaintext := by
  have isKey : cipher.keys.lookup cipher.activeKeyVersion = some cipher.activeKey := (Option.some_get cipher.active).symm
  have longer : 0 < (gcm.encrypt cipher.activeKey nonce.1 plaintext associatedData).length :=
    List.length_pos_iff.mpr (gcm.encrypt_ne_nil _ _ _ _)
  unfold decryptBytes encryptBytes
  simp only [isKey, bind_eq_ok, obtain?_eq_ok, ensure_eq_ok, exists_const_unit, Option.some.injEq, exists_eq_left',
    decide_eq_true_eq, List.length_append, nonce.2]
  refine ⟨by omega, ?_⟩
  rw [List.take_left' nonce.2, List.drop_left' nonce.2]
  exact gcm.decrypt_encrypt _ _ _ _

end AesGcmSecretCipher

/-! ## Rows with a secret -/

/-- The columns of a secret. The associated data is made from columns that a replacement leaves alone. -/
class SecretRow (ρ : Type) {κ : outParam Type} [Row ρ κ] where
  encryptedPayload : ρ → Bytes
  keyVersion : ρ → Text
  associatedData : ρ → Text
  replaced : EncryptedSecret → ρ → ρ
  key_replaced : ∀ secret row, Row.key (replaced secret row) = Row.key row
  associatedData_replaced : ∀ secret row, associatedData (replaced secret row) = associatedData row
  encryptedPayload_replaced : ∀ secret row, encryptedPayload (replaced secret row) = secret.payload
  keyVersion_replaced : ∀ secret row, keyVersion (replaced secret row) = secret.keyVersion

section

variable {ρ κ : Type} [Row ρ κ] [SecretRow ρ] [DecidableEq κ] (gcm : AesGcm) (cipher : AesGcmSecretCipher)

def isOutdated (row : ρ) : Bool :=
  SecretRow.keyVersion row ≠ cipher.activeKeyVersion

def claim (before : ρ → ρ → Bool) (table : Table ρ) (limit : Nat) : List ρ :=
  table.select (isOutdated cipher) before limit

/-- The row is still the one of the envelope. -/
def isEnvelope (envelope row : ρ) : Bool :=
  Row.key row = Row.key envelope && SecretRow.keyVersion row = SecretRow.keyVersion envelope &&
    SecretRow.encryptedPayload row = SecretRow.encryptedPayload envelope

/-- Exactly one row has to be updated. -/
def replace (table : Table ρ) (envelope : ρ) (secret : EncryptedSecret) : Option (Table ρ) :=
  if table.count (isEnvelope envelope) = 1 then
    some (table.update (isEnvelope envelope) (SecretRow.replaced secret) (SecretRow.key_replaced secret))
  else
    none

def decryptRow (row : ρ) : Except RotationError Bytes :=
  cipher.decryptBytes gcm (SecretRow.encryptedPayload row) (SecretRow.keyVersion row) (SecretRow.associatedData row)

def reencryptRow (conflict : Text) (table : Table ρ) (envelope : ρ) (nonce : Nonce) : Except RotationError (Table ρ) := do
  let plaintext ← decryptRow gcm cipher envelope
  let replacement := cipher.encryptBytes gcm nonce plaintext (SecretRow.associatedData envelope)
  obtain? (replace table envelope replacement) (.conflict conflict)

/-- The rows of a batch one after another, with a new nonce each. -/
def reencryptRows (conflict : Text) (urandom : Nat → Nonce) (table : Table ρ) (envelopes : List ρ) :
    Except RotationError (Table ρ) :=
  envelopes.zipIdx.foldlM (fun table pair => reencryptRow gcm cipher conflict table pair.1 (urandom pair.2)) table

end

/-! ## The two tables -/

structure SystemSecret where
  key : Text
  encryptedPayload : Bytes
  keyVersion : Text
  deriving Repr, DecidableEq

instance : Row SystemSecret Text := ⟨SystemSecret.key⟩

/-- `system_secret_aad` -/
def systemSecretAad (key : Text) : Text :=
  ("system-secret:" : Text) ++ key

/-- `credential_secret_aad` -/
def credentialSecretAad (projectId credentialId : Uuid) (scheme : CredentialScheme) : Text :=
  ("project:" : Text) ++ Text.ofUuid projectId ++ (":credential:" : Text) ++ Text.ofUuid credentialId ++
    (":scheme:" : Text) ++ scheme.value

instance : SecretRow EncryptedCredential where
  encryptedPayload := EncryptedCredential.encryptedPayload
  keyVersion := EncryptedCredential.keyVersion
  associatedData row := credentialSecretAad row.projectId row.id row.schemeType
  replaced secret row := { row with encryptedPayload := secret.payload, keyVersion := secret.keyVersion }
  key_replaced _ _ := rfl
  associatedData_replaced _ _ := rfl
  encryptedPayload_replaced _ _ := rfl
  keyVersion_replaced _ _ := rfl

instance : SecretRow SystemSecret where
  encryptedPayload := SystemSecret.encryptedPayload
  keyVersion := SystemSecret.keyVersion
  associatedData row := systemSecretAad row.key
  replaced secret row := { row with encryptedPayload := secret.payload, keyVersion := secret.keyVersion }
  key_replaced _ _ := rfl
  associatedData_replaced _ _ := rfl
  encryptedPayload_replaced _ _ := rfl
  keyVersion_replaced _ _ := rfl

structure SecretStore where
  credentials : Table EncryptedCredential
  systemSecrets : Table SystemSecret

namespace SecretStore

variable (gcm : AesGcm) (cipher : AesGcmSecretCipher)

/-- `claim_credentials` -/
def claimCredentials (store : SecretStore) (limit : Nat) : List EncryptedCredential :=
  claim cipher (fun left right => left.id ≤ right.id) store.credentials limit

/-- `claim_system_secrets` -/
def claimSystemSecrets (store : SecretStore) (limit : Nat) : List SystemSecret :=
  claim cipher (fun left right => Text.le left.key right.key) store.systemSecrets limit

/-- One turn of the loop, with the numbers of rows it claimed. -/
def reencryptBatch (batchSize : Nat) (urandom : Nat → Nonce) (store : SecretStore) :
    Except RotationError (SecretStore × Nat × Nat) := do
  let credentials := store.claimCredentials cipher batchSize
  let systemSecrets := store.claimSystemSecrets cipher (batchSize - credentials.length)
  let credentialRows ← reencryptRows gcm cipher "Credential changed during secret re-encryption" urandom
    store.credentials credentials
  let secretRows ← reencryptRows gcm cipher "System secret changed during secret re-encryption"
    (fun index => urandom (credentials.length + index)) store.systemSecrets systemSecrets
  return (⟨credentialRows, secretRows⟩, credentials.length, systemSecrets.length)

/-- `counts_by_key_version` -/
def countsByKeyVersion (store : SecretStore) : List (Text × Nat) :=
  let versions := store.credentials.rows.map (·.keyVersion) ++ store.systemSecrets.rows.map (·.keyVersion)
  versions.eraseDups.map fun version => (version, versions.count version)

end SecretStore

structure SecretRotationResult where
  credentialsReencrypted : Nat
  systemSecretsReencrypted : Nat
  countsByKeyVersion : List (Text × Nat)
  deriving Repr, DecidableEq

/-- Which transactions of a run fail, and what `os.urandom` draws in them. -/
structure Environment where
  fails : Nat → Bool
  urandom : Nat → Nat → Nonce

namespace SecretStore

section

variable (gcm : AesGcm) (cipher : AesGcmSecretCipher) (batchSize : Nat) (environment : Environment)

/-- The transaction of a turn of the loop. -/
def runBatch (batch : Nat) (store : SecretStore) : Except RotationError (SecretStore × Nat × Nat) :=
  if environment.fails batch then .error .database
  else store.reencryptBatch gcm cipher batchSize (environment.urandom batch)

/-- The report that is made in a transaction after the loop. -/
def report (batch : Nat) (store : SecretStore) (credentialsReencrypted systemSecretsReencrypted : Nat) :
    Except RotationError SecretRotationResult :=
  if environment.fails batch then .error .database
  else .ok ⟨credentialsReencrypted, systemSecretsReencrypted, store.countsByKeyVersion⟩

/-- The loop from a given turn on, as far as the fuel lasts; with it the rows that are committed when it ends. -/
def reencryptLoop : Nat → Nat → SecretStore → Nat → Nat → Option (SecretStore × Except RotationError SecretRotationResult)
  | 0, _, _, _, _ => none
  | fuel + 1, batch, store, credentialsReencrypted, systemSecretsReencrypted =>
    match store.runBatch gcm cipher batchSize environment batch with
    | .error error => some (store, .error error)
    | .ok (next, credentials, systemSecrets) =>
      if credentials = 0 ∧ systemSecrets = 0 then
        some (next, next.report environment (batch + 1) credentialsReencrypted systemSecretsReencrypted)
      else
        reencryptLoop fuel (batch + 1) next (credentialsReencrypted + credentials)
          (systemSecretsReencrypted + systemSecrets)

/-- `reencrypt_all` -/
def reencryptAll (fuel : Nat) (store : SecretStore) : Option (SecretStore × Except RotationError SecretRotationResult) :=
  if batchSize < 1 ∨ 10000 < batchSize then
    some (store, .error (.value "secret rotation batch size must be between 1 and 10000"))
  else
    store.reencryptLoop gcm cipher batchSize environment fuel 0 0 0

end

end SecretStore

end Mcplica.Secrets
