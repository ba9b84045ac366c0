import Mcplica.Domain.Shared
import Mcplica.Library.Interleaving
import Mcplica.Library.Text

/-! # Accounts and sessions

`AuthService` and `UserService` over the rows of `users` and `auth_sessions`, one statement at a time. Hashing and
verification of passwords take their time between two statements. The audit events and the rate limit of `login` are left
out: neither is read by these services. -/

namespace Mcplica.Auth

open Mcplica.Domain Mcplica.Library

inductive UserRole where
  | admin
  | builder
  deriving Repr, DecidableEq

structure User where
  id : Uuid
  email : Text
  displayName : Text
  passwordHash : Text
  role : UserRole
  isActive : Bool := true
  lastLoginAt : Option Instant := none
  deriving Repr, DecidableEq

structure AuthSession where
  id : Uuid
  userId : Uuid
  refreshTokenHash : Text
  expiresAt : Instant
  revokedAt : Option Instant := none
  lastUsedAt : Instant
  deriving Repr, DecidableEq

instance : Row User Uuid := ⟨User.id⟩

instance : Row AuthSession Uuid := ⟨AuthSession.id⟩

/-- What was committed so far; no statement reads it. -/
structure History where
  /-- how many updates of the user have set a password or deactivated it -/
  revision : Uuid → Nat := fun _ => 0
  /-- the password that the last update of the user with one has set -/
  password : Uuid → Option Text := fun _ => none
  /-- for a session, the revision of its user when the login read the row it verified -/
  verifiedAt : Uuid → Option Nat := fun _ => none

structure Accounts where
  users : Table User
  sessions : Table AuthSession
  history : History

inductive AccountLock where
  /-- `_ADMIN_MUTATION_LOCK_KEY` -/
  | adminMutations
  | email (email : Text)
  | user (userId : Uuid)
  | session (sessionId : Uuid)
  deriving Repr, DecidableEq

/-! ## Passwords -/

/-- The password hashing library: a hash verifies the password it was made from, and no other one. -/
structure PasswordManager where
  hash (salt password : Text) : Text
  verify (password passwordHash : Text) : Bool
  /-- The hash was made by an older hasher or with other parameters. -/
  needsRehash (passwordHash : Text) : Bool
  verify_hash : ∀ salt password, verify password (hash salt password) = true
  verify_unique : ∀ {first second passwordHash}, verify first passwordHash = true →
    verify second passwordHash = true → first = second

/-- `verify_and_update` -/
def PasswordManager.verifyAndUpdate (passwords : PasswordManager) (salt password passwordHash : Text) :
    Bool × Option Text :=
  if passwords.verify password passwordHash then
    (true, if passwords.needsRehash passwordHash then some (passwords.hash salt password) else none)
  else
    (false, none)

/-- What the services are given: the password hashing, `EmailStr`, and the secret of the first administrator. -/
structure AccountLibraries where
  unicode : Unicode
  passwords : PasswordManager
  validateEmail : Text → Option Text
  bootstrapSecret : Text

/-! ## Requests -/

structure LoginRequest where
  email : Text
  password : Text
  now : Instant
  refreshTtl : Duration
  /-- What is drawn for the call: the id of the session, the hash of its refresh token and a salt. -/
  sessionId : Uuid
  refreshTokenHash : Text
  salt : Text
  deriving Repr, DecidableEq

/-- The claims of an access token that was decoded. -/
structure AccessTokenClaims where
  userId : Uuid
  sessionId : Uuid
  now : Instant
  deriving Repr, DecidableEq

structure RefreshRequest where
  refreshTokenHash : Text
  newHash : Text
  now : Instant
  deriving Repr, DecidableEq

structure LogoutRequest where
  principalSessionId : Option Uuid
  refreshTokenHash : Option Text
  now : Instant
  deriving Repr, DecidableEq

structure CreateRequest where
  email : Text
  displayName : Text
  password : Text
  role : UserRole
  userId : Uuid
  salt : Text
  deriving Repr, DecidableEq

structure UpdateRequest where
  userId : Uuid
  displayName : Option Text := none
  password : Option Text := none
  role : Option UserRole := none
  isActive : Option Bool := none
  salt : Text
  now : Instant
  deriving Repr, DecidableEq

inductive AccountRequest where
  | login (request : LoginRequest)
  | authenticate (claims : AccessTokenClaims)
  | refresh (request : RefreshRequest)
  | logout (request : LogoutRequest)
  /-- The API calls `create` and `update` for a principal only. -/
  | create (actorUserId : Uuid) (request : CreateRequest)
  | update (actorUserId : Uuid) (request : UpdateRequest)
  | bootstrapFirstAdmin (suppliedBootstrapSecret : Text) (request : CreateRequest)
  deriving Repr, DecidableEq

/-! ## Stages -/

/-- What `login` knows once the password is verified; `revision` is recorded for the history. -/
structure VerifiedLogin where
  user : User
  revision : Nat
  updatedPasswordHash : Option Text
  deriving Repr, DecidableEq

inductive LoginStage where
  | started
  | read (user : User) (revision : Nat)
  | verified (login : VerifiedLogin)
  | upgraded (login : VerifiedLogin)
  | inserted (login : VerifiedLogin)
  | recorded (login : VerifiedLogin)
  deriving Repr, DecidableEq

inductive AuthenticateStage where
  | started
  | sessionRead (session : Option AuthSession)
  deriving Repr, DecidableEq

inductive RefreshStage where
  | started
  | sessionRead (session : AuthSession)
  | userRead (session : AuthSession)
  | rotated (session : AuthSession)
  deriving Repr, DecidableEq

inductive LogoutStage where
  | started
  | found (sessionId : Uuid)
  | revoked (sessionId : Uuid)
  deriving Repr, DecidableEq

inductive CreateStage where
  | started
  | emailLocked
  | locked
  | checked
  | inserted
  deriving Repr, DecidableEq

inductive UpdateStage where
  | started
  | locked
  | read (current : User)
  | allowed (current : User)
  | written (current : User)
  | revoked (current : User) (sessionIds : List Uuid)
  deriving Repr, DecidableEq

inductive BootstrapStage where
  | started
  | adminLocked
  | locked
  | checked
  | inserted
  deriving Repr, DecidableEq

/-- An open transaction with the request it serves; passwords of new users are hashed and names stripped by now. -/
inductive AccountStage where
  | login (request : LoginRequest) (stage : LoginStage)
  | authenticate (claims : AccessTokenClaims) (stage : AuthenticateStage)
  | refresh (request : RefreshRequest) (stage : RefreshStage)
  | logout (request : LogoutRequest) (stage : LogoutStage)
  | create (user : User) (stage : CreateStage)
  | update (request : UpdateRequest) (stage : UpdateStage)
  | bootstrap (user : User) (stage : BootstrapStage)
  deriving Repr, DecidableEq

/-! ## Statements -/

namespace Accounts

variable (libraries : AccountLibraries) (accounts : Accounts)

/-- The column is of type `CITEXT`; its comparison, by the lower case of the database, is taken to be that of Python's
`lower`. -/
def sameEmail (email : Text) (user : User) : Bool :=
  user.email.lower libraries.unicode = email.lower libraries.unicode

/-- `get_by_email` -/
def getByEmail (email : Text) : Option User :=
  accounts.users.rows.find? (sameEmail libraries (email.strip.lower libraries.unicode))

/-- `count_active_admins` -/
def countActiveAdmins : Nat :=
  accounts.users.count fun user => user.role = .admin && user.isActive

/-- `create` of the repository; the email is unique. -/
def insertUser (user : User) : Option Accounts :=
  let row := { user with email := user.email.strip.lower libraries.unicode, displayName := user.displayName.strip }
  if accounts.users.exists_ (sameEmail libraries row.email) then none
  else (accounts.users.insert row).map fun users => { accounts with users }

def isLive (session : AuthSession) (now : Instant) : Bool :=
  session.revokedAt.isNone && now < session.expiresAt

/-! ### login -/

/-- The rows that a login leaves behind. -/
def commitLogin (request : LoginRequest) (login : VerifiedLogin) : Option Accounts :=
  let session : AuthSession := {
    id := request.sessionId, userId := login.user.id, refreshTokenHash := request.refreshTokenHash,
    expiresAt := request.now + request.refreshTtl, lastUsedAt := request.now }
  let record (user : User) : User := { user with
    passwordHash := login.updatedPasswordHash.getD user.passwordHash
    lastLoginAt := some request.now }
  let verifiedAt (sessionId : Uuid) : Option Nat :=
    if sessionId = request.sessionId then some login.revision else accounts.history.verifiedAt sessionId
  if accounts.sessions.exists_ (·.refreshTokenHash = request.refreshTokenHash) then none
  else (accounts.sessions.insert session).map fun sessions => {
    users := accounts.users.update (·.id = login.user.id) record
    sessions
    history := { accounts.history with verifiedAt } }

/-- `login`. A denied login only writes an audit event. -/
def runLogin (request : LoginRequest) : LoginStage → Outcome Accounts LoginStage AccountLock
  | .started =>
    match accounts.getByEmail libraries request.email with
    | none => .rollback
    | some user => .proceed [] (.read user (accounts.history.revision user.id))
  | .read user revision =>
    let (verified, updatedPasswordHash) :=
      libraries.passwords.verifyAndUpdate request.salt request.password user.passwordHash
    if verified && user.isActive then .proceed [] (.verified ⟨user, revision, updatedPasswordHash⟩) else .rollback
  | .verified login =>
    .proceed (if login.updatedPasswordHash.isSome then [.user login.user.id] else []) (.upgraded login)
  | .upgraded login => .proceed [] (.inserted login)
  -- `set_last_login`
  | .inserted login => .proceed [.user login.user.id] (.recorded login)
  | .recorded login => (accounts.commitLogin request login).elim .rollback .commit

/-! ### authenticate, refresh and logout -/

/-- `authenticate` -/
def runAuthenticate (claims : AccessTokenClaims) :
    AuthenticateStage → Outcome Accounts AuthenticateStage AccountLock
  | .started => .proceed [] (.sessionRead (accounts.sessions.get? claims.sessionId))
  | .sessionRead session =>
    let valid := session.any fun session => session.userId = claims.userId && isLive session claims.now
    if valid && (accounts.users.get? claims.userId).any (·.isActive) then .commit accounts else .rollback

/-- The row that `rotate_refresh_token` finds. -/
def isRotatable (request : RefreshRequest) (sessionId : Uuid) : Bool :=
  (accounts.sessions.get? sessionId).any fun row =>
    row.refreshTokenHash = request.refreshTokenHash && isLive row request.now

def commitRefresh (request : RefreshRequest) (session : AuthSession) : Option Accounts :=
  let rotate (row : AuthSession) : AuthSession :=
    { row with refreshTokenHash := request.newHash, lastUsedAt := request.now }
  if accounts.sessions.exists_ (·.refreshTokenHash = request.newHash) then none
  else some { accounts with sessions := accounts.sessions.update (·.id = session.id) rotate }

/-- `refresh` -/
def runRefresh (request : RefreshRequest) : RefreshStage → Outcome Accounts RefreshStage AccountLock
  | .started =>
    match accounts.sessions.rows.find? (·.refreshTokenHash = request.refreshTokenHash) with
    | none => .rollback
    | some session => if isLive session request.now then .proceed [] (.sessionRead session) else .rollback
  | .sessionRead session =>
    if (accounts.users.get? session.userId).any (·.isActive) then .proceed [] (.userRead session) else .rollback
  | .userRead session =>
    if accounts.isRotatable request session.id then .proceed [.session session.id] (.rotated session) else .rollback
  | .rotated session => (accounts.commitRefresh request session).elim .rollback .commit

/-- `revoked_at` of the sessions among these that have none. -/
def revoke (sessionIds : List Uuid) (now : Instant) : Table AuthSession :=
  accounts.sessions.update (fun session => sessionIds.contains session.id && session.revokedAt.isNone)
    fun session => { session with revokedAt := some now }

/-- `logout` -/
def runLogout (request : LogoutRequest) : LogoutStage → Outcome Accounts LogoutStage AccountLock
  | .started =>
    let byToken := request.refreshTokenHash.bind fun refreshTokenHash =>
      (accounts.sessions.rows.find? (·.refreshTokenHash = refreshTokenHash)).map (·.id)
    match request.principalSessionId.or byToken with
    | none => .rollback
    | some sessionId => .proceed [] (.found sessionId)
  | .found sessionId =>
    if (accounts.sessions.get? sessionId).any (·.revokedAt.isNone) then .proceed [.session sessionId] (.revoked sessionId)
    else .rollback
  | .revoked sessionId => .commit { accounts with sessions := accounts.revoke [sessionId] request.now }

/-! ### create, update and bootstrap_first_admin -/

def emailLock (user : User) : AccountLock :=
  .email (user.email.casefold libraries.unicode)

/-- `create` -/
def runCreate (user : User) : CreateStage → Outcome Accounts CreateStage AccountLock
  | .started => .proceed [emailLock libraries user] .emailLocked
  | .emailLocked => .proceed (if user.role = .admin then [.adminMutations] else []) .locked
  | .locked => if (accounts.getByEmail libraries user.email).isSome then .rollback else .proceed [] .checked
  | .checked => .proceed [] .inserted
  | .inserted => (accounts.insertUser libraries user).elim .rollback .commit

end Accounts

namespace UpdateRequest

variable (request : UpdateRequest)

def locksAdmins : Bool :=
  request.role.isSome || request.isActive.isSome

/-- The update takes an active administrator away. -/
def removesAdmin (current : User) : Bool :=
  current.role = .admin && current.isActive &&
    (request.role.getD current.role ≠ .admin || !request.isActive.getD current.isActive)

/-- There is a column to write. -/
def writes : Bool :=
  request.displayName.isSome || request.password.isSome || request.role.isSome || request.isActive.isSome

def revokes : Bool :=
  request.password.isSome || request.isActive = some false || request.role.isSome

/-- The update sets a password or deactivates the user. -/
def isFinal : Bool :=
  request.password.isSome || request.isActive = some false

def values (passwords : PasswordManager) (user : User) : User :=
  { user with
    displayName := (request.displayName.map (·.strip)).getD user.displayName
    passwordHash := (request.password.map (passwords.hash request.salt)).getD user.passwordHash
    role := request.role.getD user.role
    isActive := request.isActive.getD user.isActive }

def record (history : History) : History :=
  let revision (userId : Uuid) : Nat :=
    if userId = request.userId && request.isFinal then history.revision userId + 1 else history.revision userId
  let password (userId : Uuid) : Option Text :=
    if userId = request.userId then request.password.or (history.password userId) else history.password userId
  { history with revision, password }

end UpdateRequest

namespace Accounts

variable (libraries : AccountLibraries) (accounts : Accounts)

/-- The sessions that `revoke_for_user` finds. -/
def openSessions (userId : Uuid) : List Uuid :=
  (accounts.sessions.rows.filter fun session => session.userId = userId && session.revokedAt.isNone).map (·.id)

def commitUpdate (request : UpdateRequest) (sessionIds : List Uuid) : Accounts where
  users := accounts.users.update (·.id = request.userId) (request.values libraries.passwords)
  sessions := accounts.revoke sessionIds request.now
  history := request.record accounts.history

/-- `update` -/
def runUpdate (request : UpdateRequest) : UpdateStage → Outcome Accounts UpdateStage AccountLock
  | .started => .proceed (if request.locksAdmins then [.adminMutations] else []) .locked
  | .locked =>
    match accounts.users.get? request.userId with
    | none => .rollback
    | some current => .proceed [] (.read current)
  | .read current =>
    if request.removesAdmin current && accounts.countActiveAdmins ≤ 1 then .rollback else .proceed [] (.allowed current)
  | .allowed current => .proceed (if request.writes then [.user request.userId] else []) (.written current)
  | .written current =>
    let sessionIds := if request.revokes then accounts.openSessions request.userId else []
    .proceed (sessionIds.map .session) (.revoked current sessionIds)
  | .revoked _ sessionIds => .commit (accounts.commitUpdate libraries request sessionIds)

/-- `bootstrap_first_admin` -/
def runBootstrap (user : User) : BootstrapStage → Outcome Accounts BootstrapStage AccountLock
  | .started => .proceed [.adminMutations] .adminLocked
  | .adminLocked => .proceed [emailLock libraries user] .locked
  | .locked => if accounts.users.rows.length ≠ 0 then .rollback else .proceed [] .checked
  | .checked => .proceed [] .inserted
  | .inserted => (accounts.insertUser libraries user).elim .rollback .commit

end Accounts

/-! ## The system -/

/-- The outcome with the stage put in its place. -/
def Outcome.inStage {σ π π' κ : Type} (wrap : π → π') : Outcome σ π κ → Outcome σ π' κ
  | .proceed locks stage => .proceed locks (wrap stage)
  | .commit next => .commit next
  | .rollback => .rollback

def AccountStage.run (libraries : AccountLibraries) (accounts : Accounts) :
    AccountStage → Outcome Accounts AccountStage AccountLock
  | .login request stage => Outcome.inStage (.login request) (accounts.runLogin libraries request stage)
  | .authenticate claims stage => Outcome.inStage (.authenticate claims) (accounts.runAuthenticate claims stage)
  | .refresh request stage => Outcome.inStage (.refresh request) (accounts.runRefresh request stage)
  | .logout request stage => Outcome.inStage (.logout request) (accounts.runLogout request stage)
  | .create user stage => Outcome.inStage (.create user) (accounts.runCreate libraries user stage)
  | .update request stage => Outcome.inStage (.update request) (accounts.runUpdate libraries request stage)
  | .bootstrap user stage => Outcome.inStage (.bootstrap user) (accounts.runBootstrap libraries user stage)

/-- Between 12 and 1024 characters. -/
def isPasswordLength (password : Text) : Bool :=
  12 ≤ password.length && password.length ≤ 1024

/-- The user that `create` and `bootstrap_first_admin` insert. -/
def CreateRequest.user (libraries : AccountLibraries) (request : CreateRequest) (role : UserRole) : Option User := do
  if request.displayName.strip = [] || !isPasswordLength request.password then
    none
  else
    let email ← libraries.validateEmail request.email
    return { id := request.userId, email := email.casefold libraries.unicode, displayName := request.displayName.strip,
             passwordHash := libraries.passwords.hash request.salt request.password, role }

def UpdateRequest.isValid (request : UpdateRequest) : Bool :=
  request.displayName.all (·.strip ≠ []) && request.password.all isPasswordLength

def Accounts.hasUser (accounts : Accounts) (userId : Uuid) : Bool :=
  (accounts.users.get? userId).isSome

/-- A request is checked and its password hashed before its transaction begins. -/
def AccountRequest.enter (libraries : AccountLibraries) (accounts : Accounts) : AccountRequest → Option AccountStage
  | .login request => some (.login request .started)
  | .authenticate claims => some (.authenticate claims .started)
  | .refresh request => some (.refresh request .started)
  | .logout request => some (.logout request .started)
  | .create actorUserId request =>
    if accounts.hasUser actorUserId then (request.user libraries request.role).map (.create · .started) else none
  | .update actorUserId request =>
    if accounts.hasUser actorUserId && request.isValid then some (.update request .started) else none
  | .bootstrapFirstAdmin suppliedBootstrapSecret request =>
    if suppliedBootstrapSecret = libraries.bootstrapSecret then
      (request.user libraries .admin).map (.bootstrap · .started)
    else
      none

abbrev AccountSystem := Interleaving Accounts AccountStage AccountLock

namespace AccountSystem

def initial : AccountSystem :=
  ⟨⟨Table.empty, Table.empty, {}⟩, Table.empty⟩

/-- The next step of a request's transaction, or of the scheduler. -/
def step (libraries : AccountLibraries) : AccountSystem → Scheduled AccountRequest → AccountSystem :=
  Interleaving.step (AccountRequest.enter libraries) (AccountStage.run libraries)

/-- What the next statement of a transaction commits. -/
def committing (libraries : AccountLibraries) (system : AccountSystem) : Scheduled AccountRequest → Option AccountStage
  | .advance id => (system.transactions.get? id).bind fun transaction =>
    match transaction.stage.run libraries system.committed with
    | .commit _ => some transaction.stage
    | _ => none
  | _ => none

theorem committing_eq_some {libraries : AccountLibraries} {system : AccountSystem} {action : Scheduled AccountRequest}
    {stage : AccountStage} : committing libraries system action = some stage ↔ ∃ id transaction next, action = .advance id ∧
      system.transactions.get? id = some transaction ∧ transaction.stage = stage ∧
      stage.run libraries system.committed = .commit next := by
  constructor
  · intro commits
    cases action with
    | begin | abort => cases commits
    | advance id =>
      obtain ⟨transaction, found, commits⟩ := Option.bind_eq_some_iff.mp commits
      cases runs : transaction.stage.run libraries system.committed with
      | commit next =>
        rw [runs] at commits
        cases commits
        exact ⟨id, transaction, next, rfl, found, rfl, runs⟩
      | proceed | rollback =>
        rw [runs] at commits
        cases commits
  · rintro ⟨id, transaction, next, rfl, found, rfl, runs⟩
    simp [committing, found, runs]

end AccountSystem

/-! ## Commits -/

namespace Accounts

/-- The stages that commit, with what they leave behind. -/
inductive Commits (libraries : AccountLibraries) (accounts : Accounts) : AccountStage → Accounts → Prop where
  | login {request login next} (written : accounts.commitLogin request login = some next) :
    Commits libraries accounts (.login request (.recorded login)) next
  | authenticate {claims session} (owner : session.userId = claims.userId) (live : isLive session claims.now = true)
    (active : (accounts.users.get? claims.userId).any (·.isActive) = true) :
    Commits libraries accounts (.authenticate claims (.sessionRead (some session))) accounts
  | refresh {request session next} (written : accounts.commitRefresh request session = some next) :
    Commits libraries accounts (.refresh request (.rotated session)) next
  | logout {request sessionId} : Commits libraries accounts (.logout request (.revoked sessionId))
      { accounts with sessions := accounts.revoke [sessionId] request.now }
  | create {user next} (written : accounts.insertUser libraries user = some next) :
    Commits libraries accounts (.create user .inserted) next
  | update {request current sessionIds} : Commits libraries accounts (.update request (.revoked current sessionIds))
      (accounts.commitUpdate libraries request sessionIds)
  | bootstrap {user next} (written : accounts.insertUser libraries user = some next) :
    Commits libraries accounts (.bootstrap user .inserted) next

theorem elim_eq_commit {π : Type} {result : Option Accounts} {next : Accounts}
    (commits : result.elim (Outcome.rollback : Outcome Accounts π AccountLock) .commit = .commit next) :
    result = some next := by
  cases result with
  | none => cases commits
  | some written =>
    cases commits
    rfl

theorem inStage_eq_commit {π : Type} {wrap : π → AccountStage} {outcome : Outcome Accounts π AccountLock} {next : Accounts}
    (commits : Outcome.inStage wrap outcome = .commit next) : outcome = .commit next := by
  cases outcome with
  | commit written => cases commits; rfl
  | proceed locks stage => cases commits
  | rollback => cases commits

theorem inStage_eq_proceed {π : Type} {wrap : π → AccountStage} {outcome : Outcome Accounts π AccountLock}
    {locks : List AccountLock} {stage : AccountStage} (proceeds : Outcome.inStage wrap outcome = .proceed locks stage) :
    ∃ inner, outcome = .proceed locks inner ∧ stage = wrap inner := by
  cases outcome with
  | commit written => cases proceeds
  | proceed locks inner => cases proceeds; exact ⟨inner, rfl, rfl⟩
  | rollback => cases proceeds

variable {libraries : AccountLibraries} {accounts next : Accounts}

theorem commits_of_run {stage : AccountStage} (runs : stage.run libraries accounts = .commit next) :
    Commits libraries accounts stage next := by
  cases stage with
  | login request stage =>
    have runs := inStage_eq_commit runs
    cases stage with
    | started => simp only [runLogin] at runs; split at runs <;> cases runs
    | read user revision => simp only [runLogin] at runs; split at runs <;> cases runs
    | verified login => cases runs
    | upgraded login => cases runs
    | inserted login => cases runs
    | recorded login => exact .login (elim_eq_commit runs)
  | authenticate claims stage =>
    have runs := inStage_eq_commit runs
    cases stage with
    | started => cases runs
    | sessionRead session =>
      simp only [runAuthenticate] at runs
      split at runs
      · rename_i accepted
        cases runs
        cases session with
        | none => simp at accepted
        | some session =>
          simp only [Option.any_some, Bool.and_eq_true, decide_eq_true_eq] at accepted
          exact .authenticate accepted.1.1 accepted.1.2 accepted.2
      · cases runs
  | refresh request stage =>
    have runs := inStage_eq_commit runs
    cases stage with
    | started =>
      simp only [runRefresh] at runs
      split at runs
      · cases runs
      · split at runs <;> cases runs
    | sessionRead session => simp only [runRefresh] at runs; split at runs <;> cases runs
    | userRead session => simp only [runRefresh] at runs; split at runs <;> cases runs
    | rotated session => exact .refresh (elim_eq_commit runs)
  | logout request stage =>
    have runs := inStage_eq_commit runs
    cases stage with
    | started => simp only [runLogout] at runs; split at runs <;> cases runs
    | found sessionId => simp only [runLogout] at runs; split at runs <;> cases runs
    | revoked sessionId => cases runs; exact .logout
  | create user stage =>
    have runs := inStage_eq_commit runs
    cases stage with
    | started => cases runs
    | emailLocked => cases runs
    | locked => simp only [runCreate] at runs; split at runs <;> cases runs
    | checked => cases runs
    | inserted => exact .create (elim_eq_commit runs)
  | update request stage =>
    have runs := inStage_eq_commit runs
    cases stage with
    | started => cases runs
    | locked => simp only [runUpdate] at runs; split at runs <;> cases runs
    | read current => simp only [runUpdate] at runs; split at runs <;> cases runs
    | allowed current => cases runs
    | written current => cases runs
    | revoked current sessionIds => cases runs; exact .update
  | bootstrap user stage =>
    have runs := inStage_eq_commit runs
    cases stage with
    | started => cases runs
    | adminLocked => cases runs
    | locked => simp only [runBootstrap] at runs; split at runs <;> cases runs
    | checked => cases runs
    | inserted => exact .bootstrap (elim_eq_commit runs)

/-! ### Rows after a commit -/

theorem insertUser_eq_some {user : User} (written : accounts.insertUser libraries user = some next) :
    ∃ row, row.role = user.role ∧ row.id = user.id ∧ next.users.rows = accounts.users.rows ++ [row] ∧
      next.sessions = accounts.sessions ∧ next.history = accounts.history := by
  unfold insertUser at written
  dsimp only at written
  split at written
  · cases written
  · obtain ⟨users, inserted, rfl⟩ := Option.map_eq_some_iff.mp written
    refine ⟨_, ?_, ?_, Table.rows_insert inserted, rfl, rfl⟩ <;> rfl

end Accounts

end Mcplica.Auth
