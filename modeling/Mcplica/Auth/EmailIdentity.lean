import Mcplica.Auth.PasswordChange

/-! # E-mail identity of accounts

`create` stores the case fold of the validated e-mail, trimmed and lowered; `login` looks for what was typed, trimmed and
lowered only. A text whose validated case fold is lowered to something else is stored under a name that a login with it
does not look for. -/

namespace Mcplica.Auth

open Mcplica.Domain Mcplica.Library

namespace Accounts

variable (libraries : AccountLibraries) (accounts : Accounts)

/-! ## Undisturbed requests -/

/-- `create`, with no other transaction in between. -/
def register (request : CreateRequest) : Option Accounts := do
  let user ← request.user libraries request.role
  if (accounts.getByEmail libraries user.email).isSome then none else accounts.insertUser libraries user

/-- The user that `login` has verified when it starts to write. -/
def signIn (request : LoginRequest) : Option User := do
  let user ← accounts.getByEmail libraries request.email
  if (libraries.passwords.verifyAndUpdate request.salt request.password user.passwordHash).1 && user.isActive then
    some user
  else
    none

variable {libraries : AccountLibraries} {accounts next : Accounts}

end Accounts

/-! ## The name of an account -/

section

variable (libraries : AccountLibraries)

/-- What two e-mails that name one account have in common: the repository trims and lowers, and the column compares
lowered texts. -/
def accountKey (email : Text) : Text :=
  (email.strip.lower libraries.unicode).lower libraries.unicode

/-- What the account that `create` makes of the e-mail is stored under, where the e-mail is valid. -/
def createKey (email : Text) : Option Text :=
  (libraries.validateEmail email).map fun validated => accountKey libraries (validated.casefold libraries.unicode)

/-- The validated case fold is lowered to what the trimmed text is lowered to. -/
def KeepsKey (email : Text) : Prop :=
  createKey libraries email = some (accountKey libraries email)

end

namespace Accounts

variable {libraries : AccountLibraries} {accounts next : Accounts}

theorem sameEmail_key {email : Text} {user : User} :
    sameEmail libraries (email.strip.lower libraries.unicode) user = true ↔
      user.email.lower libraries.unicode = accountKey libraries email := by
  unfold sameEmail accountKey
  exact decide_eq_true_iff

theorem getByEmail_congr {email other : Text} (same : accountKey libraries email = accountKey libraries other)
    (accounts : Accounts) : accounts.getByEmail libraries email = accounts.getByEmail libraries other := by
  have agree : sameEmail libraries (email.strip.lower libraries.unicode) =
      sameEmail libraries (other.strip.lower libraries.unicode) := by
    funext user
    rw [Bool.eq_iff_iff, sameEmail_key, sameEmail_key, same]
  unfold getByEmail
  rw [agree]

/-! ## The created row -/

/-- The row that `create` inserts for a user. -/
def row (libraries : AccountLibraries) (user : User) : User :=
  { user with email := user.email.strip.lower libraries.unicode, displayName := user.displayName.strip }

theorem users_of_insertUser {user : User} (written : accounts.insertUser libraries user = some next) :
    next.users.rows = accounts.users.rows ++ [row libraries user] ∧
      ∀ other ∈ accounts.users, other.email.lower libraries.unicode ≠ accountKey libraries user.email := by
  unfold insertUser at written
  dsimp only at written
  split at written
  · cases written
  · rename_i free
    obtain ⟨users, inserted, rfl⟩ := Option.map_eq_some_iff.mp written
    refine ⟨Table.rows_insert inserted, ?_⟩
    intro other member same
    exact free (Table.exists_iff.mpr ⟨other, member, sameEmail_key.mpr same⟩)

/-- After an insertion the new row is found under its own key, and every other key finds what it found before. -/
theorem getByEmail_of_insertUser {user : User} (written : accounts.insertUser libraries user = some next) (email : Text) :
    next.getByEmail libraries email =
      if accountKey libraries user.email = accountKey libraries email then some (row libraries user)
      else accounts.getByEmail libraries email := by
  obtain ⟨rows, free⟩ := users_of_insertUser written
  have isRow : (row libraries user).email.lower libraries.unicode = accountKey libraries user.email := rfl
  unfold getByEmail
  rw [rows, List.find?_append]
  split
  · rename_i same
    have absent : accounts.users.rows.find? (sameEmail libraries (email.strip.lower libraries.unicode)) = none := by
      rw [List.find?_eq_none]
      intro other member found
      exact free other member ((sameEmail_key.mp found).trans same.symm)
    have found : sameEmail libraries (email.strip.lower libraries.unicode) (row libraries user) = true :=
      sameEmail_key.mpr (isRow.trans same)
    rw [absent, Option.none_or, List.find?_cons_of_pos found]
  · rename_i different
    have missed : ¬ sameEmail libraries (email.strip.lower libraries.unicode) (row libraries user) = true :=
      fun found => different (isRow.symm.trans (sameEmail_key.mp found))
    rw [List.find?_cons_of_neg missed, List.find?_nil, Option.or_none]

/-- Only a taken e-mail or a taken id keeps a row from being inserted. -/
theorem insertUser_isSome {user : User} (free : accounts.getByEmail libraries user.email = none)
    (fresh : accounts.users.get? user.id = none) : (accounts.insertUser libraries user).isSome = true := by
  have noMatch : ¬ accounts.users.exists_ (sameEmail libraries (user.email.strip.lower libraries.unicode)) = true := by
    intro taken
    obtain ⟨other, member, same⟩ := Table.exists_iff.mp taken
    exact List.find?_eq_none.mp free other member same
  have newKey : Row.key (row libraries user) ∉ accounts.users.rows.map Row.key := by
    intro taken
    obtain ⟨other, member, same⟩ := List.mem_map.mp taken
    exact Table.get?_eq_none.mp fresh other member same
  have inserts : (accounts.users.insert (row libraries user)).isSome = true := by
    rw [Table.insert, dif_neg newKey]
    rfl
  unfold insertUser
  dsimp only
  rw [if_neg noMatch, Option.isSome_map]
  exact inserts

end Accounts

/-! ## One identity -/

section

variable (libraries : AccountLibraries)

/-- Logging in with the text an account was created with, and its password, finds that account. -/
def FindsItself (email : Text) : Prop :=
  ∀ (accounts next : Accounts) (request : CreateRequest) (login : LoginRequest), request.email = email →
    login.email = email → login.password = request.password → accounts.register libraries request = some next →
    ∃ user, next.signIn libraries login = some user ∧ user.id = request.userId

/-- After an account is created, a second one is refused. -/
def SameByCreate (email other : Text) : Prop :=
  ∀ (accounts next : Accounts) (request again : CreateRequest), request.email = email → again.email = other →
    accounts.register libraries request = some next → next.register libraries again = none

/-- Both find the same account, if any. -/
def SameByLogin (email other : Text) : Prop :=
  ∀ accounts : Accounts, accounts.getByEmail libraries email = accounts.getByEmail libraries other

/-- What the services promise of two e-mails that are accepted. -/
structure OneIdentity (email other : Text) : Prop where
  finds : FindsItself libraries email
  findsOther : FindsItself libraries other
  refuses : SameByCreate libraries email email
  refusesOther : SameByCreate libraries other other
  same_iff : SameByCreate libraries email other ↔ SameByLogin libraries email other

end

variable {libraries : AccountLibraries} {email other key otherKey : Text}

/-- The user of a request, with the key of its e-mail. -/
theorem user_of_createKey {request : CreateRequest} {role : UserRole} {user : User}
    (isUser : request.user libraries role = some user) :
    createKey libraries request.email = some (accountKey libraries user.email) ∧ user.id = request.userId ∧
      user.isActive = true ∧ user.passwordHash = libraries.passwords.hash request.salt request.password := by
  unfold CreateRequest.user at isUser
  split at isUser
  · cases isUser
  · obtain ⟨validated, isValidated, made⟩ := Option.bind_eq_some_iff.mp isUser
    cases made
    refine ⟨?_, rfl, rfl, rfl⟩
    rw [createKey, isValidated, Option.map_some]

/-- A request for an account with the e-mail, and nothing else in it that could be refused. -/
def sampleRequest (email : Text) (userId : Uuid) : CreateRequest where
  email := email
  displayName := "a"
  password := List.replicate 12 'p'
  role := .builder
  userId := userId
  salt := []

theorem user_sampleRequest (accepted : createKey libraries email = some key) (userId : Uuid) :
    ∃ user, (sampleRequest email userId).user libraries .builder = some user ∧ accountKey libraries user.email = key ∧
      user.id = userId := by
  obtain ⟨validated, isValidated, -⟩ := Option.map_eq_some_iff.mp accepted
  have valid : ¬ ((sampleRequest email userId).displayName.strip = [] ||
      !isPasswordLength (sampleRequest email userId).password) = true := by
    show ¬ (decide (Text.strip ("a" : Text) = []) || !isPasswordLength (List.replicate 12 'p')) = true
    decide
  have made : ((sampleRequest email userId).user libraries .builder).isSome = true := by
    unfold CreateRequest.user
    rw [if_neg valid, show (sampleRequest email userId).email = email from rfl, isValidated]
    rfl
  obtain ⟨user, isUser⟩ := Option.isSome_iff_exists.mp made
  obtain ⟨isKey, sameId, -⟩ := user_of_createKey isUser
  rw [show (sampleRequest email userId).email = email from rfl, accepted] at isKey
  exact ⟨user, isUser, (Option.some.inj isKey).symm, sameId⟩

/-- The first account of a fresh installation is not refused. -/
theorem register_sampleRequest (accepted : createKey libraries email = some key) (userId : Uuid) :
    ∃ next, (Accounts.register libraries ⟨Table.empty, Table.empty, {}⟩ (sampleRequest email userId)) = some next ∧
      (∀ wanted, (next.getByEmail libraries wanted).isSome = true ↔ key = accountKey libraries wanted) ∧
      ∀ user ∈ next.users, user.id = userId := by
  obtain ⟨user, isUser, isKey, sameId⟩ := user_sampleRequest accepted userId
  have inserts : ∃ next, Accounts.insertUser libraries ⟨Table.empty, Table.empty, {}⟩ user = some next := ⟨_, rfl⟩
  obtain ⟨next, written⟩ := inserts
  refine ⟨next, ?_, ?_, ?_⟩
  · unfold Accounts.register
    rw [show (sampleRequest email userId).role = .builder from rfl, isUser]
    exact written
  · intro wanted
    rw [Accounts.getByEmail_of_insertUser written wanted, isKey]
    split
    · rename_i same
      exact iff_of_true rfl same
    · rename_i different
      exact iff_of_false Bool.false_ne_true different
  · intro other member
    rw [← Table.mem_rows, (Accounts.users_of_insertUser written).1, Table.empty, List.nil_append, List.mem_singleton]
      at member
    rw [member]
    exact sameId

/-! ### What creation and login tell apart -/

theorem register_of_createKey {accounts next : Accounts} {request : CreateRequest}
    (registers : accounts.register libraries request = some next) :
    ∃ user, createKey libraries request.email = some (accountKey libraries user.email) ∧ user.id = request.userId ∧
      user.isActive = true ∧ user.passwordHash = libraries.passwords.hash request.salt request.password ∧
      accounts.insertUser libraries user = some next := by
  obtain ⟨user, isUser, inserts⟩ := Option.bind_eq_some_iff.mp registers
  obtain ⟨isKey, sameId, active, hashed⟩ := user_of_createKey isUser
  split at inserts
  · cases inserts
  · exact ⟨user, isKey, sameId, active, hashed, inserts⟩

theorem findsItself_iff (accepted : createKey libraries email = some key) :
    FindsItself libraries email ↔ KeepsKey libraries email := by
  unfold KeepsKey
  rw [accepted, Option.some.injEq]
  constructor
  · intro finds
    obtain ⟨next, registers, found_iff, -⟩ := register_sampleRequest accepted 0
    obtain ⟨user, signsIn, -⟩ := finds _ next (sampleRequest email 0)
      ⟨email, (sampleRequest email 0).password, 0, 0, 0, [], []⟩ rfl rfl rfl registers
    obtain ⟨found, isFound, -⟩ := Option.bind_eq_some_iff.mp signsIn
    exact (found_iff email).mp (Option.isSome_iff_exists.mpr ⟨found, isFound⟩)
  · rintro keeps accounts next request login rfl sameEmail samePassword registers
    obtain ⟨user, isKey, sameId, active, hashed, written⟩ := register_of_createKey registers
    have found := Accounts.getByEmail_of_insertUser written login.email
    rw [accepted] at isKey
    rw [sameEmail, ← Option.some.inj isKey, if_pos keeps] at found
    refine ⟨Accounts.row libraries user, ?_, sameId⟩
    unfold Accounts.signIn
    have verifies : libraries.passwords.verify login.password (Accounts.row libraries user).passwordHash = true := by
      rw [show (Accounts.row libraries user).passwordHash = user.passwordHash from rfl, hashed, samePassword]
      exact libraries.passwords.verify_hash _ _
    rw [sameEmail, found, Option.bind_eq_bind, Option.bind_some, PasswordManager.verifyAndUpdate, if_pos verifies,
      show (Accounts.row libraries user).isActive = user.isActive from rfl, active]
    rfl

theorem sameByCreate_iff (accepted : createKey libraries email = some key)
    (acceptedOther : createKey libraries other = some otherKey) :
    SameByCreate libraries email other ↔ key = otherKey := by
  constructor
  · intro same
    obtain ⟨next, registers, found_iff, onlyId⟩ := register_sampleRequest accepted 0
    obtain ⟨user, isUser, isKey, sameId⟩ := user_sampleRequest acceptedOther 1
    by_contra different
    have free : next.getByEmail libraries user.email = none := by
      rw [← Option.not_isSome_iff_eq_none, found_iff, isKey]
      exact different
    have fresh : next.users.get? user.id = none := by
      rw [Table.get?_eq_none, sameId]
      intro stored member isStored
      exact absurd ((onlyId stored member).symm.trans isStored) (by decide)
    obtain ⟨after, isAfter⟩ := Option.isSome_iff_exists.mp (Accounts.insertUser_isSome free fresh)
    have refused := same _ next (sampleRequest email 0) (sampleRequest other 1) rfl rfl registers
    unfold Accounts.register at refused
    rw [show (sampleRequest other 1).role = .builder from rfl, isUser, Option.bind_eq_bind, Option.bind_some, free] at refused
    exact Option.some_ne_none after (isAfter.symm.trans refused)
  · rintro rfl accounts next request again rfl rfl registers
    obtain ⟨user, isKey, -, -, -, written⟩ := register_of_createKey registers
    cases isOther : again.user libraries again.role with
    | none =>
      unfold Accounts.register
      rw [isOther]
      rfl
    | some second =>
      have found := Accounts.getByEmail_of_insertUser written second.email
      have isSecond := (user_of_createKey isOther).1
      rw [accepted] at isKey
      rw [acceptedOther] at isSecond
      rw [if_pos ((Option.some.inj isKey).symm.trans (Option.some.inj isSecond))] at found
      unfold Accounts.register
      rw [isOther, Option.bind_eq_bind, Option.bind_some, found]
      rfl

theorem sameByLogin_iff :
    SameByLogin libraries email other ↔ accountKey libraries email = accountKey libraries other := by
  constructor
  · intro same
    -- the only account is stored under the first e-mail
    let only : User := ⟨0, email.strip.lower libraries.unicode, [], [], .builder, true, none⟩
    have found : Accounts.sameEmail libraries (email.strip.lower libraries.unicode) only = true :=
      Accounts.sameEmail_key.mpr rfl
    have agree := same ⟨⟨[only], List.nodup_singleton _⟩, Table.empty, {}⟩
    unfold Accounts.getByEmail at agree
    dsimp only at agree
    rw [List.find?_cons_of_pos found] at agree
    exact Accounts.sameEmail_key.mp (List.find?_some agree.symm)
  · exact fun same accounts => Accounts.getByEmail_congr same accounts

/-! ### When creation and login agree -/

/-- Both e-mails are one identity to `create` and `login` exactly when validation and case folding leave the names they
are looked up by alone. -/
theorem one_identity_iff (accepted : (libraries.validateEmail email).isSome = true)
    (acceptedOther : (libraries.validateEmail other).isSome = true) :
    OneIdentity libraries email other ↔ KeepsKey libraries email ∧ KeepsKey libraries other := by
  obtain ⟨validated, isValidated⟩ := Option.isSome_iff_exists.mp accepted
  obtain ⟨validatedOther, isValidatedOther⟩ := Option.isSome_iff_exists.mp acceptedOther
  have isKey : createKey libraries email = some (accountKey libraries (validated.casefold libraries.unicode)) := by
    rw [createKey, isValidated, Option.map_some]
  have isOtherKey : createKey libraries other =
      some (accountKey libraries (validatedOther.casefold libraries.unicode)) := by
    rw [createKey, isValidatedOther, Option.map_some]
  constructor
  · intro identity
    exact ⟨(findsItself_iff isKey).mp identity.finds, (findsItself_iff isOtherKey).mp identity.findsOther⟩
  · rintro ⟨keeps, keepsOther⟩
    have sameKey := Option.some.inj (isKey.symm.trans keeps)
    have sameOtherKey := Option.some.inj (isOtherKey.symm.trans keepsOther)
    refine ⟨(findsItself_iff isKey).mpr keeps, (findsItself_iff isOtherKey).mpr keepsOther,
      (sameByCreate_iff isKey isKey).mpr rfl, (sameByCreate_iff isOtherKey isOtherKey).mpr rfl, ?_⟩
    rw [sameByCreate_iff isKey isOtherKey, sameByLogin_iff, sameKey, sameOtherKey]

/-! ### ASCII -/

theorem isSpace_toLower (character : Char) : Text.isSpace character.toLower = Text.isSpace character := by
  have value := Text.toNat_toLower character
  unfold Text.isSpace
  split at value
  · rename_i isUpper
    have noSpace : ∀ code, (65 ≤ code ∧ code ≤ 122) → ¬ (((9 ≤ code && code ≤ 13) || (28 ≤ code && code ≤ 32) ||
        code = 0x85 || code = 0xa0 || code = 0x1680 || (0x2000 ≤ code && code ≤ 0x200a) || code = 0x2028 ||
        code = 0x2029 || code = 0x202f || code = 0x205f || code = 0x3000) = true) := by
      intro code bounds
      simp only [Bool.or_eq_true, Bool.and_eq_true, decide_eq_true_eq]
      omega
    have lowered := noSpace character.toLower.toNat (by omega)
    have upper := noSpace character.toNat (by omega)
    rw [Bool.not_eq_true] at lowered upper
    exact lowered.trans upper.symm
  · rw [value]

theorem strip_map_toLower (text : Text) : Text.strip (text.map Char.toLower) = text.strip.map Char.toLower := by
  have same : Text.isSpace ∘ Char.toLower = Text.isSpace := funext isSpace_toLower
  unfold Text.strip List.rdropWhile
  rw [List.dropWhile_map, same, ← List.map_reverse, List.dropWhile_map, same, ← List.map_reverse]

theorem isAscii_strip {text : Text} (ascii : text.isAscii = true) : text.strip.isAscii = true := by
  unfold Text.isAscii at ascii ⊢
  rw [List.all_eq_true] at ascii ⊢
  intro character member
  exact ascii character ((List.dropWhile_suffix _).subset ((List.rdropWhile_prefix _ _).subset member))

theorem accountKey_of_isAscii (ascii : email.isAscii = true) :
    accountKey libraries email = email.strip.map Char.toLower := by
  have stripped := isAscii_strip ascii
  unfold accountKey
  rw [Text.lower_of_isAscii stripped,
    Text.lower_of_isAscii (Text.isAscii_map_toLower stripped), List.map_map]
  exact List.map_congr_left fun character _ => Text.toLower_toLower character

/-- An ASCII text is found as it was created where the validator trims it and changes the case of its letters at most. -/
theorem keepsKey_of_isAscii {validated : Text} (isValidated : libraries.validateEmail email = some validated)
    (ascii : email.isAscii = true) (asciiValidated : validated.isAscii = true)
    (lowered : validated.map Char.toLower = email.strip.map Char.toLower) : KeepsKey libraries email := by
  have folded : validated.casefold libraries.unicode = email.strip.map Char.toLower := by
    rw [Text.casefold_of_isAscii asciiValidated, lowered]
  unfold KeepsKey createKey
  rw [isValidated, Option.map_some, folded, accountKey_of_isAscii ascii,
    accountKey_of_isAscii (Text.isAscii_map_toLower (isAscii_strip ascii)), strip_map_toLower, Text.strip_strip,
    List.map_map]
  exact congrArg some (List.map_congr_left fun character _ => Text.toLower_toLower character)

/-! ### The sharp s -/

/-- A validator that leaves an e-mail as it is, over tables that fold the sharp s. -/
def sharpLibraries : AccountLibraries :=
  { AccountSystem.plainLibraries with
    unicode := { asciiUnicode with casefold := fun text => text.flatMap fun character =>
      if character = 'ß' then ['s', 's'] else [character] } }

theorem one_identity_upper_case : OneIdentity sharpLibraries "Ann@Example.com" "bob@example.com" := by
  have accepted : (sharpLibraries.validateEmail "Ann@Example.com").isSome = true := rfl
  have acceptedOther : (sharpLibraries.validateEmail "bob@example.com").isSome = true := rfl
  rw [one_identity_iff accepted acceptedOther]
  exact ⟨keepsKey_of_isAscii rfl (by decide) (by decide) (by decide),
    keepsKey_of_isAscii rfl (by decide) (by decide) (by decide)⟩

/-- The account is stored as `strasse@example.com`, and a login with `straße@example.com` finds none. -/
theorem not_one_identity : ¬ ∀ email other, (sharpLibraries.validateEmail email).isSome = true →
    (sharpLibraries.validateEmail other).isSome = true → OneIdentity sharpLibraries email other := by
  intro identity
  have finds := (identity "straße@example.com" "straße@example.com" rfl rfl).finds
  have isKey : createKey sharpLibraries "straße@example.com" = some ("strasse@example.com" : Text) := by decide +kernel
  have keeps := (findsItself_iff isKey).mp finds
  have differs : ¬ KeepsKey sharpLibraries "straße@example.com" := by
    unfold KeepsKey
    decide +kernel
  exact differs keeps

end Mcplica.Auth
