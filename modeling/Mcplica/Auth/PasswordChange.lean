import Mcplica.Auth.Accounts

/-! # A password change is final

An update that sets a password or deactivates a user revokes the sessions that are committed by then. A `login` takes no
lock before it has read and verified the row, so one that is under way then may still leave a session, or a hash of the
password it verified, behind. Where no such call is under way, the change is final. -/

namespace Mcplica.Auth

open Mcplica.Domain Mcplica.Library

/-- The call has read what an update of the user may invalidate: a login the row that its password verifies, an
authentication a live session. -/
def AccountStage.isUnderWay (libraries : AccountLibraries) (userId : Uuid) : AccountStage → Bool
  | .login request (.read user _) =>
    user.id = userId && user.isActive && libraries.passwords.verify request.password user.passwordHash
  | .login _ (.verified entry) | .login _ (.upgraded entry) | .login _ (.inserted entry) | .login _ (.recorded entry) =>
    entry.user.id = userId
  | .authenticate claims (.sessionRead (some session)) =>
    session.userId = userId && claims.userId = userId && Accounts.isLive session claims.now
  | _ => false

/-- The user of whom an update sets the password or ends the activity. -/
def AccountStage.finalUser : AccountStage → Option Uuid
  | .update request _ => if request.isFinal then some request.userId else none
  | _ => none

/-- The session that the stage accepts, with its user. -/
def AccountStage.accepted : AccountStage → Option (Uuid × Uuid)
  | .authenticate _ (.sessionRead (some session)) => some (session.id, session.userId)
  | .refresh _ (.rotated session) => some (session.id, session.userId)
  | _ => none

namespace AccountSystem

/-- The action commits an update that sets a password or deactivates a user while a call of this user is under way. -/
def overtakes (libraries : AccountLibraries) (system : AccountSystem) (action : Scheduled AccountRequest) : Bool :=
  ((committing libraries system action).bind AccountStage.finalUser).any fun userId =>
    system.transactions.rows.any fun other => other.stage.isUnderWay libraries userId

/-- The session of an access or refresh token that the action accepts. -/
def accepts (libraries : AccountLibraries) (system : AccountSystem) (action : Scheduled AccountRequest) :
    Option (Uuid × Uuid) :=
  (committing libraries system action).bind AccountStage.accepted

end AccountSystem

namespace Accounts

/-- The stored hash is one of the password that the last update has set. -/
def KeepsPassword (libraries : AccountLibraries) (accounts : Accounts) : Prop :=
  ∀ userId password, accounts.history.password userId = some password →
    ∃ user ∈ accounts.users, user.id = userId ∧ libraries.passwords.verify password user.passwordHash = true

def IsActiveUser (accounts : Accounts) (userId : Uuid) : Prop :=
  ∃ user ∈ accounts.users, user.id = userId ∧ user.isActive = true

/-- The login of the session has read the row of its user after the last update that set a password or deactivated it. -/
def IsCurrent (accounts : Accounts) (sessionId userId : Uuid) : Prop :=
  accounts.history.verifiedAt sessionId = some (accounts.history.revision userId)

/-! ## Assertions -/

structure SessionFacts (libraries : AccountLibraries) (accounts : Accounts) : Prop where
  password : accounts.KeepsPassword libraries
  sessions : ∀ session ∈ accounts.sessions, session.revokedAt = none → accounts.IsCurrent session.id session.userId

/-- What a login that verified its password still relies on. -/
def Verifies (libraries : AccountLibraries) (accounts : Accounts) (password : Text) (userId : Uuid) (revision : Nat) :
    Prop :=
  accounts.history.revision userId = revision ∧
    ∃ user ∈ accounts.users, user.id = userId ∧ libraries.passwords.verify password user.passwordHash = true

structure LoginFacts (libraries : AccountLibraries) (accounts : Accounts) (request : LoginRequest)
    (login : VerifiedLogin) : Prop where
  verifies : accounts.Verifies libraries request.password login.user.id login.revision
  updated : ∀ passwordHash, login.updatedPasswordHash = some passwordHash →
    libraries.passwords.verify request.password passwordHash = true

def HasSession (accounts : Accounts) (session : AuthSession) : Prop :=
  ∃ row ∈ accounts.sessions, row.id = session.id ∧ row.userId = session.userId

structure AuthenticateFacts (accounts : Accounts) (claims : AccessTokenClaims) (session : AuthSession) : Prop where
  known : accounts.HasSession session
  current : session.userId = claims.userId → isLive session claims.now = true → accounts.IsCurrent session.id session.userId

/-- While the session is not revoked, its user is active. -/
structure RefreshFacts (accounts : Accounts) (session : AuthSession) : Prop where
  known : accounts.HasSession session
  active : ∀ row ∈ accounts.sessions, row.id = session.id → row.revokedAt = none → accounts.IsActiveUser session.userId

def IsOpen (accounts : Accounts) (session : AuthSession) : Prop :=
  ∃ row ∈ accounts.sessions, row.id = session.id ∧ row.revokedAt = none

/-- The sessions that `revoke_for_user` has locked are all the open ones of the user. -/
structure RevokeFacts (accounts : Accounts) (request : UpdateRequest) (sessionIds : List Uuid) (locks : List AccountLock) :
    Prop where
  locked : ∀ sessionId ∈ sessionIds, .session sessionId ∈ locks
  complete : request.revokes = true → ∀ row ∈ accounts.sessions, row.userId = request.userId → row.revokedAt = none →
    row.id ∈ sessionIds

def HasUser (accounts : Accounts) (userId : Uuid) : Prop :=
  ∃ user ∈ accounts.users, user.id = userId

def SessionAssertion (libraries : AccountLibraries) (accounts : Accounts) (transaction : Transaction AccountStage AccountLock) :
    Prop :=
  match transaction.stage with
  | .login request (.read user revision) => user.isActive = true →
      libraries.passwords.verify request.password user.passwordHash = true →
      accounts.Verifies libraries request.password user.id revision
  | .login request (.verified login) | .login request (.upgraded login) | .login request (.inserted login) =>
      accounts.LoginFacts libraries request login
  | .login request (.recorded login) => accounts.LoginFacts libraries request login ∧ .user login.user.id ∈ transaction.locks
  | .authenticate claims (.sessionRead (some session)) => accounts.AuthenticateFacts claims session
  | .refresh _ (.sessionRead session) => accounts.HasSession session
  | .refresh _ (.userRead session) => accounts.RefreshFacts session
  | .refresh _ (.rotated session) => accounts.RefreshFacts session ∧ accounts.IsOpen session ∧
      .session session.id ∈ transaction.locks
  | .logout _ (.revoked sessionId) => .session sessionId ∈ transaction.locks
  | .update request (.read _) | .update request (.allowed _) => accounts.HasUser request.userId
  | .update request (.written _) => accounts.HasUser request.userId ∧
      (request.writes = true → .user request.userId ∈ transaction.locks)
  | .update request (.revoked _ sessionIds) => accounts.HasUser request.userId ∧
      (request.writes = true → .user request.userId ∈ transaction.locks) ∧
      accounts.RevokeFacts request sessionIds transaction.locks
  | _ => True

/-! ## What a commit leaves alone -/

/-- The effect of a commit on the others; `final` is the user of whom it sets the password or ends the activity. -/
structure Effect (libraries : AccountLibraries) (accounts next : Accounts) (locks : List AccountLock)
    (final : Option Uuid) : Prop where
  users : ∀ user ∈ accounts.users, ∃ kept ∈ next.users, kept.id = user.id ∧ (final ≠ some user.id →
    (∀ password, libraries.passwords.verify password user.passwordHash = true →
      libraries.passwords.verify password kept.passwordHash = true) ∧ (user.isActive = true → kept.isActive = true))
  revision : ∀ userId, final ≠ some userId → next.history.revision userId = accounts.history.revision userId
  sessions : ∀ row ∈ accounts.sessions, ∃ kept ∈ next.sessions, kept.id = row.id ∧ kept.userId = row.userId ∧
    (.session row.id ∉ locks → row.revokedAt = none → kept.revokedAt = none)
  verifiedAt : ∀ row ∈ accounts.sessions, next.history.verifiedAt row.id = accounts.history.verifiedAt row.id
  /-- A session that is open is an old one, or one of a login that holds the row of its user. -/
  opened : ∀ row ∈ next.sessions, row.revokedAt = none →
    (∃ old ∈ accounts.sessions, old.id = row.id ∧ old.userId = row.userId ∧ old.revokedAt = none) ∨
      (.user row.userId ∈ locks ∧ (∀ old ∈ accounts.sessions, old.id ≠ row.id) ∧ next.IsCurrent row.id row.userId)
  ended : ∀ row ∈ next.sessions, row.revokedAt = none → final ≠ some row.userId

variable {libraries : AccountLibraries} {accounts next : Accounts} {locks : List AccountLock} {final : Option Uuid}

namespace Effect

theorem hasUser (effect : Effect libraries accounts next locks final) {userId : Uuid} (known : accounts.HasUser userId) :
    next.HasUser userId := by
  obtain ⟨user, member, sameId⟩ := known
  obtain ⟨kept, isKept, keptId, -⟩ := effect.users user member
  exact ⟨kept, isKept, keptId.trans sameId⟩

theorem verifies (effect : Effect libraries accounts next locks final) {password : Text} {userId : Uuid} {revision : Nat}
    (spared : final ≠ some userId) (verifies : accounts.Verifies libraries password userId revision) :
    next.Verifies libraries password userId revision := by
  obtain ⟨sameRevision, user, member, rfl, verified⟩ := verifies
  obtain ⟨kept, isKept, keptId, keeps⟩ := effect.users user member
  exact ⟨(effect.revision user.id spared).trans sameRevision, kept, isKept, keptId, (keeps spared).1 password verified⟩

theorem loginFacts (effect : Effect libraries accounts next locks final) {request : LoginRequest} {login : VerifiedLogin}
    (spared : final ≠ some login.user.id) (facts : accounts.LoginFacts libraries request login) :
    next.LoginFacts libraries request login :=
  ⟨effect.verifies spared facts.verifies, facts.updated⟩

theorem hasSession (effect : Effect libraries accounts next locks final) {session : AuthSession}
    (known : accounts.HasSession session) : next.HasSession session := by
  obtain ⟨row, member, sameId, sameUser⟩ := known
  obtain ⟨kept, isKept, keptId, keptUser, -⟩ := effect.sessions row member
  exact ⟨kept, isKept, keptId.trans sameId, keptUser.trans sameUser⟩

theorem isCurrent (effect : Effect libraries accounts next locks final) {row : AuthSession} (member : row ∈ accounts.sessions)
    (spared : final ≠ some row.userId) (current : accounts.IsCurrent row.id row.userId) :
    next.IsCurrent row.id row.userId := by
  rw [IsCurrent, effect.verifiedAt row member, effect.revision row.userId spared]
  exact current

theorem isActiveUser (effect : Effect libraries accounts next locks final) {userId : Uuid} (spared : final ≠ some userId)
    (active : accounts.IsActiveUser userId) : next.IsActiveUser userId := by
  obtain ⟨user, member, rfl, isActive⟩ := active
  obtain ⟨kept, isKept, keptId, keeps⟩ := effect.users user member
  exact ⟨kept, isKept, keptId, (keeps spared).2 isActive⟩

theorem authenticateFacts (effect : Effect libraries accounts next locks final) {claims : AccessTokenClaims}
    {session : AuthSession} (facts : accounts.AuthenticateFacts claims session)
    (spared : session.userId = claims.userId → isLive session claims.now = true → final ≠ some session.userId) :
    next.AuthenticateFacts claims session := by
  refine ⟨effect.hasSession facts.known, fun owner live => ?_⟩
  obtain ⟨row, member, sameId, sameUser⟩ := facts.known
  rw [← sameId, ← sameUser]
  refine effect.isCurrent member (sameUser ▸ spared owner live) ?_
  rw [sameId, sameUser]
  exact facts.current owner live

theorem refreshFacts (effect : Effect libraries accounts next locks final) {session : AuthSession}
    (facts : accounts.RefreshFacts session) : next.RefreshFacts session := by
  refine ⟨effect.hasSession facts.known, fun row member sameId isOpen => ?_⟩
  obtain ⟨known, isKnown, knownId, knownUser⟩ := facts.known
  rcases effect.opened row member isOpen with ⟨old, isOld, oldId, oldUser, oldOpen⟩ | ⟨-, isNew, -⟩
  · have same : old = known := Table.eq_of_key isOld isKnown (oldId.trans (sameId.trans knownId.symm))
    have spared := effect.ended row member isOpen
    rw [← oldUser, same, knownUser] at spared
    exact effect.isActiveUser spared (facts.active old isOld (oldId.trans sameId) oldOpen)
  · exact absurd (knownId.trans sameId.symm) (isNew known isKnown)

theorem isOpen (effect : Effect libraries accounts next locks final) {session : AuthSession}
    (untouched : .session session.id ∉ locks) (isOpen : accounts.IsOpen session) : next.IsOpen session := by
  obtain ⟨row, member, sameId, unrevoked⟩ := isOpen
  obtain ⟨kept, isKept, keptId, -, keeps⟩ := effect.sessions row member
  exact ⟨kept, isKept, keptId.trans sameId, keeps (sameId ▸ untouched) unrevoked⟩

theorem revokeFacts (effect : Effect libraries accounts next locks final) {request : UpdateRequest}
    {sessionIds : List Uuid} {held : List AccountLock} (facts : accounts.RevokeFacts request sessionIds held)
    (untouched : request.writes = true → .user request.userId ∉ locks) : next.RevokeFacts request sessionIds held := by
  refine ⟨facts.locked, fun revokes row member sameUser isOpen => ?_⟩
  have writes : request.writes = true := by
    simp only [UpdateRequest.revokes, UpdateRequest.writes, Bool.or_eq_true, decide_eq_true_eq] at revokes ⊢
    rcases revokes with (password | inactive) | role
    · exact .inl (.inl (.inr password))
    · exact .inr (by rw [inactive]; rfl)
    · exact .inl (.inr role)
  rcases effect.opened row member isOpen with ⟨old, isOld, oldId, oldUser, oldOpen⟩ | ⟨isLocked, -, -⟩
  · rw [← oldId]
    exact facts.complete revokes old isOld (oldUser.trans sameUser) oldOpen
  · exact absurd (sameUser ▸ isLocked) (untouched writes)

theorem sessionFacts (effect : Effect libraries accounts next locks final) (facts : accounts.SessionFacts libraries)
    (password : next.KeepsPassword libraries) : next.SessionFacts libraries := by
  refine ⟨password, fun row member isOpen => ?_⟩
  rcases effect.opened row member isOpen with ⟨old, isOld, oldId, oldUser, oldOpen⟩ | ⟨-, -, current⟩
  · have spared := effect.ended row member isOpen
    rw [← oldId, ← oldUser]
    exact effect.isCurrent isOld (oldUser ▸ spared) (facts.sessions old isOld oldOpen)
  · exact current

end Effect

/-- The assertion of a transaction survives a commit with disjoint locks, unless it is a call that is overtaken. -/
theorem sessionAssertion_undisturbed (effect : Effect libraries accounts next locks final)
    {other : Transaction AccountStage AccountLock} (kept : accounts.SessionAssertion libraries other)
    (apart : ∀ lock ∈ locks, lock ∉ other.locks)
    (spared : ∀ userId, final = some userId → other.stage.isUnderWay libraries userId = false) :
    next.SessionAssertion libraries other := by
  obtain ⟨number, stage, held⟩ := other
  have notHeld : ∀ {lock}, lock ∈ held → lock ∉ locks := fun holds alsoHolds => apart _ alsoHolds holds
  cases stage with
  | create | bootstrap => trivial
  | logout request stage => cases stage <;> trivial
  | login request stage =>
    cases stage with
    | started => trivial
    | read user revision =>
      intro isActive verified
      refine effect.verifies ?_ (kept isActive verified)
      intro isFinal
      have notUnderWay := spared user.id isFinal
      simp [AccountStage.isUnderWay, isActive, verified] at notUnderWay
    | verified login =>
      refine effect.loginFacts ?_ kept
      intro isFinal
      simpa [AccountStage.isUnderWay] using spared login.user.id isFinal
    | upgraded login =>
      refine effect.loginFacts ?_ kept
      intro isFinal
      simpa [AccountStage.isUnderWay] using spared login.user.id isFinal
    | inserted login =>
      refine effect.loginFacts ?_ kept
      intro isFinal
      simpa [AccountStage.isUnderWay] using spared login.user.id isFinal
    | recorded login =>
      refine ⟨effect.loginFacts ?_ kept.1, kept.2⟩
      intro isFinal
      simpa [AccountStage.isUnderWay] using spared login.user.id isFinal
  | authenticate claims stage =>
    cases stage with
    | started => trivial
    | sessionRead session =>
      cases session with
      | none => trivial
      | some session =>
        refine effect.authenticateFacts kept fun owner live isFinal => ?_
        have notUnderWay := spared session.userId isFinal
        simp [AccountStage.isUnderWay, owner, live] at notUnderWay
  | refresh request stage =>
    cases stage with
    | started => trivial
    | sessionRead session => exact effect.hasSession kept
    | userRead session => exact effect.refreshFacts kept
    | rotated session =>
      exact ⟨effect.refreshFacts kept.1, effect.isOpen (notHeld kept.2.2) kept.2.1, kept.2.2⟩
  | update request stage =>
    cases stage with
    | started | locked => trivial
    | read current => exact effect.hasUser kept
    | allowed current => exact effect.hasUser kept
    | written current => exact ⟨effect.hasUser kept.1, kept.2⟩
    | revoked current sessionIds =>
      exact ⟨effect.hasUser kept.1, kept.2.1, effect.revokeFacts kept.2.2 fun writes => notHeld (kept.2.1 writes)⟩

/-! ## The commits -/

/-- The sessions after a commit that opens none. -/
structure SessionsKept (accounts : Accounts) (sessions : Table AuthSession) (locks : List AccountLock) : Prop where
  forward : ∀ row ∈ accounts.sessions, ∃ kept ∈ sessions, kept.id = row.id ∧ kept.userId = row.userId ∧
    (.session row.id ∉ locks → row.revokedAt = none → kept.revokedAt = none)
  backward : ∀ row ∈ sessions, row.revokedAt = none →
    ∃ old ∈ accounts.sessions, old.id = row.id ∧ old.userId = row.userId ∧ old.revokedAt = none

theorem sessionsKept_self (accounts : Accounts) (locks : List AccountLock) : SessionsKept accounts accounts.sessions locks where
  forward row member := ⟨row, member, rfl, rfl, fun _ isOpen => isOpen⟩
  backward row member isOpen := ⟨row, member, rfl, rfl, isOpen⟩

theorem mem_revoke {sessionIds : List Uuid} {now : Instant} {row : AuthSession} : row ∈ accounts.revoke sessionIds now ↔
    ∃ old ∈ accounts.sessions, row = if sessionIds.contains old.id && old.revokedAt.isNone then
      { old with revokedAt := some now } else old :=
  Table.mem_update

theorem sessionsKept_revoke {sessionIds : List Uuid} {now : Instant}
    (locked : ∀ sessionId ∈ sessionIds, .session sessionId ∈ locks) :
    SessionsKept accounts (accounts.revoke sessionIds now) locks where
  forward row member := by
    refine ⟨_, Table.mem_update_of_mem member, ?_⟩
    split
    · rename_i isRevoked
      simp only [Bool.and_eq_true, List.contains_iff_mem] at isRevoked
      exact ⟨rfl, rfl, fun untouched => absurd (locked row.id isRevoked.1) untouched⟩
    · exact ⟨rfl, rfl, fun _ isOpen => isOpen⟩
  backward row member isOpen := by
    obtain ⟨old, isOld, rfl⟩ := mem_revoke.mp member
    split at isOpen
    · cases isOpen
    · rename_i kept
      rw [if_neg kept]
      exact ⟨old, isOld, rfl, rfl, isOpen⟩

/-- A commit that sets no password of an old user and deactivates none. -/
theorem effect_of_sessionsKept (users : ∀ user ∈ accounts.users, user ∈ next.users)
    (history : next.history = accounts.history) (sessions : SessionsKept accounts next.sessions locks) :
    Effect libraries accounts next locks none where
  users user member := ⟨user, users user member, rfl, fun _ => ⟨fun _ => id, id⟩⟩
  revision userId _ := by rw [history]
  sessions := sessions.forward
  verifiedAt row _ := by rw [history]
  opened row member isOpen := .inl (sessions.backward row member isOpen)
  ended _ _ _ := nofun

theorem keepsPassword_of_effect (effect : Effect libraries accounts next locks none)
    (password : next.history.password = accounts.history.password) (facts : accounts.KeepsPassword libraries) :
    next.KeepsPassword libraries := by
  intro userId word isSet
  obtain ⟨user, member, rfl, verified⟩ := facts userId word (password ▸ isSet)
  obtain ⟨kept, isKept, keptId, keeps⟩ := effect.users user member
  exact ⟨kept, isKept, keptId, (keeps nofun).1 word verified⟩

theorem effect_commitRefresh {request : RefreshRequest} {session : AuthSession}
    (written : accounts.commitRefresh request session = some next) :
    Effect libraries accounts next locks none ∧ next.history = accounts.history := by
  unfold commitRefresh at written
  dsimp only at written
  split at written
  · cases written
  · cases written
    refine ⟨effect_of_sessionsKept (fun _ => id) rfl ⟨?_, ?_⟩, rfl⟩
    · intro row member
      refine ⟨_, Table.mem_update_of_mem member, ?_⟩
      split
      · exact ⟨rfl, rfl, fun _ isOpen => isOpen⟩
      · exact ⟨rfl, rfl, fun _ isOpen => isOpen⟩
    · intro row member isOpen
      obtain ⟨old, isOld, rfl⟩ := List.mem_map.mp member
      refine ⟨old, isOld, ?_⟩
      split at isOpen
      · rename_i rotated
        rw [if_pos rotated]
        exact ⟨rfl, rfl, isOpen⟩
      · rename_i kept
        rw [if_neg kept]
        exact ⟨rfl, rfl, isOpen⟩

theorem effect_insertUser {user : User} (written : accounts.insertUser libraries user = some next) :
    Effect libraries accounts next locks none ∧ next.history = accounts.history := by
  obtain ⟨row, -, -, rows, sessions, history⟩ := insertUser_eq_some written
  refine ⟨effect_of_sessionsKept ?_ history (sessions ▸ sessionsKept_self accounts locks), history⟩
  intro other member
  show other ∈ next.users.rows
  rw [rows]
  exact List.mem_append_left _ member

/-- The row that a login verified still matches its password, so the hash it may write matches what the old one did. -/
theorem effect_commitLogin {request : LoginRequest} {login : VerifiedLogin} (facts : accounts.LoginFacts libraries request login)
    (isLocked : .user login.user.id ∈ locks) (written : accounts.commitLogin request login = some next) :
    Effect libraries accounts next locks none ∧ next.history.password = accounts.history.password := by
  unfold commitLogin at written
  dsimp only at written
  split at written
  · cases written
  obtain ⟨sessions, inserted, rfl⟩ := Option.map_eq_some_iff.mp written
  have fresh : ∀ row ∈ accounts.sessions, row.id ≠ request.sessionId := by
    intro row member
    exact Table.get?_eq_none.mp (Table.key_of_insert inserted) row member
  refine ⟨⟨?_, fun _ _ => rfl, ?_, ?_, ?_, by simp⟩, rfl⟩
  · intro user member
    refine ⟨_, Table.mem_update_of_mem member, ?_⟩
    split
    · rename_i isLogin
      refine ⟨rfl, fun _ => ⟨fun password verified => ?_, id⟩⟩
      show libraries.passwords.verify password (login.updatedPasswordHash.getD user.passwordHash) = true
      cases updated : login.updatedPasswordHash with
      | none => exact verified
      | some passwordHash =>
        obtain ⟨-, row, isRow, sameId, matches_⟩ := facts.verifies
        have same : row = user := Table.eq_of_key isRow member (sameId.trans (of_decide_eq_true isLogin).symm)
        rw [libraries.passwords.verify_unique verified (same ▸ matches_)]
        exact facts.updated passwordHash updated
    · exact ⟨rfl, fun _ => ⟨fun _ => id, id⟩⟩
  · intro row member
    exact ⟨row, (Table.mem_insert inserted).mpr (.inl member), rfl, rfl, fun _ isOpen => isOpen⟩
  · intro row member
    exact if_neg (fresh row member)
  · intro row member isOpen
    rcases (Table.mem_insert inserted).mp member with isOld | rfl
    · exact .inl ⟨row, isOld, rfl, rfl, isOpen⟩
    · refine .inr ⟨isLocked, fresh, ?_⟩
      rw [IsCurrent, facts.verifies.1]
      exact if_pos rfl

theorem values_of_not_final {request : UpdateRequest} (notFinal : request.isFinal = false) (user : User) :
    (request.values libraries.passwords user).passwordHash = user.passwordHash ∧
      (user.isActive = true → (request.values libraries.passwords user).isActive = true) := by
  simp only [UpdateRequest.isFinal, Bool.or_eq_false_iff, Option.isSome_eq_false_iff, Option.isNone_iff_eq_none,
    decide_eq_false_iff_not] at notFinal
  refine ⟨by simp [UpdateRequest.values, notFinal.1], fun isActive => ?_⟩
  cases setting : request.isActive with
  | none => simpa [UpdateRequest.values, setting] using isActive
  | some value =>
    cases value with
    | false => exact absurd setting notFinal.2
    | true => simp [UpdateRequest.values, setting]

theorem revokes_of_isFinal {request : UpdateRequest} (isFinal : request.isFinal = true) : request.revokes = true := by
  simp only [UpdateRequest.isFinal, UpdateRequest.revokes, Bool.or_eq_true, decide_eq_true_eq] at isFinal ⊢
  exact .inl isFinal

theorem effect_commitUpdate {request : UpdateRequest} {sessionIds : List Uuid}
    (facts : accounts.RevokeFacts request sessionIds locks) :
    Effect libraries accounts (accounts.commitUpdate libraries request sessionIds) locks
      (if request.isFinal then some request.userId else none) := by
  have kept := @sessionsKept_revoke accounts locks sessionIds request.now facts.locked
  refine ⟨?_, ?_, kept.forward, fun _ _ => rfl, fun row member isOpen => .inl (kept.backward row member isOpen), ?_⟩
  · intro user member
    refine ⟨_, Table.mem_update_of_mem member, ?_⟩
    split
    · rename_i isUpdated
      refine ⟨rfl, fun spared => ?_⟩
      have notFinal : request.isFinal = false := by
        by_contra isFinal
        rw [Bool.not_eq_false] at isFinal
        rw [if_pos isFinal, of_decide_eq_true isUpdated] at spared
        exact spared rfl
      obtain ⟨sameHash, active⟩ := @values_of_not_final libraries request notFinal user
      exact ⟨fun password verified => sameHash ▸ verified, active⟩
    · exact ⟨rfl, fun _ => ⟨fun _ => id, id⟩⟩
  · intro userId spared
    refine if_neg fun both => ?_
    simp only [Bool.and_eq_true, decide_eq_true_eq] at both
    rw [if_pos both.2, both.1] at spared
    exact spared rfl
  · -- Every open session of the user is among those that are revoked.
    intro row member isOpen ended
    split at ended
    · rename_i isFinal
      have ofUser : request.userId = row.userId := Option.some.inj ended
      obtain ⟨old, isOld, rfl⟩ := mem_revoke.mp member
      split at isOpen
      · cases isOpen
      · rename_i unrevoked
        rw [if_neg unrevoked] at ofUser
        have isListed := facts.complete (revokes_of_isFinal isFinal) old isOld ofUser.symm isOpen
        exact unrevoked (by simp [isListed, isOpen])
    · cases ended

theorem keepsPassword_commitUpdate {request : UpdateRequest} {sessionIds : List Uuid} (known : accounts.HasUser request.userId)
    (facts : accounts.KeepsPassword libraries) : (accounts.commitUpdate libraries request sessionIds).KeepsPassword libraries := by
  have rewritten : ∀ user ∈ accounts.users, (if user.id = request.userId then request.values libraries.passwords user else
      user) ∈ (accounts.commitUpdate libraries request sessionIds).users := by
    intro user member
    have isRow : (if decide (user.id = request.userId) = true then request.values libraries.passwords user else user) ∈
        (accounts.commitUpdate libraries request sessionIds).users := Table.mem_update_of_mem member
    simpa only [decide_eq_true_eq] using isRow
  intro userId password isSet
  by_cases isUpdated : userId = request.userId
  · subst isUpdated
    have isSet : request.password.or (accounts.history.password request.userId) = some password := by
      simpa [commitUpdate, UpdateRequest.record] using isSet
    cases new : request.password with
    | some word =>
      rw [new] at isSet
      cases isSet
      obtain ⟨user, member, sameId⟩ := known
      have isRow := rewritten user member
      rw [if_pos sameId] at isRow
      refine ⟨_, isRow, sameId, ?_⟩
      simp only [UpdateRequest.values, new, Option.map_some, Option.getD_some]
      exact libraries.passwords.verify_hash request.salt password
    | none =>
      rw [new] at isSet
      obtain ⟨user, member, sameId, verified⟩ := facts request.userId password isSet
      have isRow := rewritten user member
      rw [if_pos sameId] at isRow
      exact ⟨_, isRow, sameId, by simpa [UpdateRequest.values, new] using verified⟩
  · have isSet : accounts.history.password userId = some password := by
      simpa [commitUpdate, UpdateRequest.record, isUpdated] using isSet
    obtain ⟨user, member, sameId, verified⟩ := facts userId password isSet
    have isRow := rewritten user member
    rw [if_neg (sameId ▸ isUpdated)] at isRow
    exact ⟨user, isRow, sameId, verified⟩

/-- Every commit has an effect that spares all users but the one it is final for, and keeps the facts. -/
theorem effect_of_commits {transaction : Transaction AccountStage AccountLock} (facts : accounts.SessionFacts libraries)
    (asserts : accounts.SessionAssertion libraries transaction)
    (commits : Commits libraries accounts transaction.stage next) :
    Effect libraries accounts next transaction.locks transaction.stage.finalUser ∧ next.KeepsPassword libraries := by
  obtain ⟨number, stage, locks⟩ := transaction
  cases commits with
  | login written =>
    obtain ⟨effect, password⟩ := effect_commitLogin asserts.1 asserts.2 written
    exact ⟨effect, keepsPassword_of_effect effect password facts.password⟩
  | authenticate =>
    have effect : Effect libraries accounts accounts locks none :=
      effect_of_sessionsKept (fun _ => id) rfl (sessionsKept_self accounts locks)
    exact ⟨effect, facts.password⟩
  | refresh written =>
    obtain ⟨effect, history⟩ := @effect_commitRefresh libraries accounts next locks _ _ written
    exact ⟨effect, keepsPassword_of_effect effect (by rw [history]) facts.password⟩
  | @logout request sessionId =>
    have locked : ∀ other ∈ [sessionId], AccountLock.session other ∈ locks := by
      intro other member
      rw [List.mem_singleton.mp member]
      exact asserts
    exact ⟨effect_of_sessionsKept (fun _ => id) rfl (sessionsKept_revoke locked), facts.password⟩
  | create written =>
    obtain ⟨effect, history⟩ := @effect_insertUser libraries accounts next locks _ written
    exact ⟨effect, keepsPassword_of_effect effect (by rw [history]) facts.password⟩
  | update =>
    obtain ⟨known, -, revoked⟩ := asserts
    exact ⟨effect_commitUpdate revoked, keepsPassword_commitUpdate known facts.password⟩
  | bootstrap written =>
    obtain ⟨effect, history⟩ := @effect_insertUser libraries accounts next locks _ written
    exact ⟨effect, keepsPassword_of_effect effect (by rw [history]) facts.password⟩

/-! ## The statements -/

theorem sessionAssertion_login {request : LoginRequest} {before after : LoginStage} {number : Nat}
    {held locks : List AccountLock}
    (asserts : accounts.SessionAssertion libraries ⟨number, .login request before, held⟩)
    (moves : accounts.runLogin libraries request before = .proceed locks after) :
    accounts.SessionAssertion libraries ⟨number, .login request after, held ++ locks⟩ := by
  cases before with
  | started =>
    simp only [runLogin] at moves
    split at moves
    · cases moves
    · rename_i user found
      cases moves
      exact fun _ verified => ⟨rfl, user, List.mem_of_find?_eq_some found, rfl, verified⟩
  | read user revision =>
    by_cases verified : libraries.passwords.verify request.password user.passwordHash = true
    · simp only [runLogin, PasswordManager.verifyAndUpdate, verified, if_true, Bool.true_and] at moves
      split at moves
      · rename_i isActive
        cases moves
        refine ⟨asserts isActive verified, fun passwordHash updated => ?_⟩
        split at updated
        · cases updated
          exact libraries.passwords.verify_hash request.salt request.password
        · cases updated
      · cases moves
    · simp only [runLogin, PasswordManager.verifyAndUpdate, verified] at moves
      cases moves
  | verified login => cases moves; exact asserts
  | upgraded login => cases moves; exact asserts
  | inserted login => cases moves; exact ⟨asserts, List.mem_append_right _ (List.mem_singleton_self _)⟩
  | recorded login =>
    simp only [runLogin] at moves
    cases written : accounts.commitLogin request login with
    | none => rw [written] at moves; cases moves
    | some next => rw [written] at moves; cases moves

theorem sessionAssertion_authenticate {claims : AccessTokenClaims} {before after : AuthenticateStage} {number : Nat}
    {held locks : List AccountLock} (facts : accounts.SessionFacts libraries)
    (moves : accounts.runAuthenticate claims before = .proceed locks after) :
    accounts.SessionAssertion libraries ⟨number, .authenticate claims after, held ++ locks⟩ := by
  cases before with
  | started =>
    cases moves
    cases found : accounts.sessions.get? claims.sessionId with
    | none => trivial
    | some session =>
      have member := Table.mem_of_get? found
      refine ⟨⟨session, member, rfl, rfl⟩, fun _ live => facts.sessions session member ?_⟩
      rw [isLive, Bool.and_eq_true, Option.isNone_iff_eq_none] at live
      exact live.1
  | sessionRead session =>
    simp only [runAuthenticate] at moves
    split at moves <;> cases moves

theorem isActiveUser_of_get {userId : Uuid} (active : (accounts.users.get? userId).any (·.isActive) = true) :
    accounts.IsActiveUser userId := by
  obtain ⟨user, found, isActive⟩ := Option.any_eq_true _ _ |>.mp active
  obtain ⟨member, sameId⟩ := Table.get?_eq_some.mp found
  exact ⟨user, member, sameId, isActive⟩

theorem sessionAssertion_refresh {request : RefreshRequest} {before after : RefreshStage} {number : Nat}
    {held locks : List AccountLock}
    (asserts : accounts.SessionAssertion libraries ⟨number, .refresh request before, held⟩)
    (moves : accounts.runRefresh request before = .proceed locks after) :
    accounts.SessionAssertion libraries ⟨number, .refresh request after, held ++ locks⟩ := by
  cases before with
  | started =>
    simp only [runRefresh] at moves
    split at moves
    · cases moves
    · rename_i session found
      split at moves
      · cases moves
        exact ⟨session, List.mem_of_find?_eq_some found, rfl, rfl⟩
      · cases moves
  | sessionRead session =>
    simp only [runRefresh] at moves
    split at moves
    · rename_i active
      cases moves
      exact ⟨asserts, fun _ _ _ _ => isActiveUser_of_get active⟩
    · cases moves
  | userRead session =>
    simp only [runRefresh] at moves
    split at moves
    · rename_i rotatable
      cases moves
      refine ⟨asserts, ?_, List.mem_append_right _ (List.mem_singleton_self _)⟩
      obtain ⟨row, found, matching⟩ := Option.any_eq_true _ _ |>.mp rotatable
      obtain ⟨member, sameId⟩ := Table.get?_eq_some.mp found
      simp only [isLive, Bool.and_eq_true, Option.isNone_iff_eq_none] at matching
      exact ⟨row, member, sameId, matching.2.1⟩
    · cases moves
  | rotated session =>
    simp only [runRefresh] at moves
    cases written : accounts.commitRefresh request session with
    | none => rw [written] at moves; cases moves
    | some next => rw [written] at moves; cases moves

theorem sessionAssertion_update {request : UpdateRequest} {before after : UpdateStage} {number : Nat}
    {held locks : List AccountLock}
    (asserts : accounts.SessionAssertion libraries ⟨number, .update request before, held⟩)
    (moves : accounts.runUpdate libraries request before = .proceed locks after) :
    accounts.SessionAssertion libraries ⟨number, .update request after, held ++ locks⟩ := by
  cases before with
  | started => cases moves; trivial
  | locked =>
    simp only [runUpdate] at moves
    split at moves
    · cases moves
    · rename_i current found
      cases moves
      obtain ⟨member, sameId⟩ := Table.get?_eq_some.mp found
      exact ⟨current, member, sameId⟩
  | read current =>
    simp only [runUpdate] at moves
    split at moves
    · cases moves
    · cases moves
      exact asserts
  | allowed current =>
    cases moves
    exact ⟨asserts, fun writes => by simp [writes]⟩
  | written current =>
    cases moves
    refine ⟨asserts.1, fun writes => List.mem_append_left _ (asserts.2 writes), ?_, ?_⟩
    · intro sessionId member
      exact List.mem_append_right _ (List.mem_map_of_mem member)
    · intro revokes row member sameUser isOpen
      rw [if_pos revokes]
      refine List.mem_map_of_mem (List.mem_filter.mpr ⟨member, ?_⟩)
      simp [sameUser, isOpen]
  | revoked current sessionIds => cases moves

theorem sessionAssertion_proceeds {transaction : Transaction AccountStage AccountLock} {locks : List AccountLock}
    {stage : AccountStage} (facts : accounts.SessionFacts libraries) (asserts : accounts.SessionAssertion libraries transaction)
    (runs : transaction.stage.run libraries accounts = .proceed locks stage) :
    accounts.SessionAssertion libraries ⟨transaction.id, stage, transaction.locks ++ locks⟩ := by
  obtain ⟨number, before, held⟩ := transaction
  cases before with
  | login request before =>
    obtain ⟨after, moves, rfl⟩ := inStage_eq_proceed runs
    exact sessionAssertion_login asserts moves
  | authenticate claims before =>
    obtain ⟨after, moves, rfl⟩ := inStage_eq_proceed runs
    exact sessionAssertion_authenticate facts moves
  | refresh request before =>
    obtain ⟨after, moves, rfl⟩ := inStage_eq_proceed runs
    exact sessionAssertion_refresh asserts moves
  | logout request before =>
    obtain ⟨after, moves, rfl⟩ := inStage_eq_proceed runs
    cases before with
    | started =>
      simp only [runLogout] at moves
      split at moves <;> cases moves
      trivial
    | found sessionId =>
      simp only [runLogout] at moves
      split at moves <;> cases moves
      exact List.mem_append_right _ (List.mem_singleton_self _)
    | revoked sessionId => cases moves
  | update request before =>
    obtain ⟨after, moves, rfl⟩ := inStage_eq_proceed runs
    exact sessionAssertion_update asserts moves
  | create | bootstrap =>
    obtain ⟨after, -, rfl⟩ := inStage_eq_proceed runs
    trivial

theorem sessionAssertion_enters {request : AccountRequest} {stage : AccountStage}
    (entered : request.enter libraries accounts = some stage) (id : Nat) :
    accounts.SessionAssertion libraries ⟨id, stage, []⟩ := by
  cases request with
  | login | authenticate | refresh | logout => cases entered; trivial
  | create actorUserId request =>
    simp only [AccountRequest.enter] at entered
    split at entered
    · obtain ⟨user, -, rfl⟩ := Option.map_eq_some_iff.mp entered
      trivial
    · cases entered
  | update actorUserId request =>
    simp only [AccountRequest.enter] at entered
    split at entered
    · cases entered
      trivial
    · cases entered
  | bootstrapFirstAdmin suppliedBootstrapSecret request =>
    simp only [AccountRequest.enter] at entered
    split at entered
    · obtain ⟨user, -, rfl⟩ := Option.map_eq_some_iff.mp entered
      trivial
    · cases entered

/-- A commit that is final for a user finds no call of the user under way. -/
def Spares (libraries : AccountLibraries) (_ : Accounts) (stage other : AccountStage) : Prop :=
  ∀ userId, stage.finalUser = some userId → other.isUnderWay libraries userId = false

theorem session_annotated (libraries : AccountLibraries) :
    Interleaving.Annotated (AccountRequest.enter libraries) (AccountStage.run libraries) (SessionFacts libraries)
      (SessionAssertion libraries) (Spares libraries) where
  enters _ entered id := sessionAssertion_enters entered id
  proceeds facts asserts runs := sessionAssertion_proceeds facts asserts runs
  commits facts asserts runs := by
    obtain ⟨effect, password⟩ := effect_of_commits facts asserts (commits_of_run runs)
    exact effect.sessionFacts facts password
  undisturbed facts asserts kept apart spares runs :=
    sessionAssertion_undisturbed (effect_of_commits facts asserts (commits_of_run runs)).1 kept apart spares

end Accounts

/-! ## Runs -/

namespace AccountSystem

variable {libraries : AccountLibraries}

abbrev SessionSafe (libraries : AccountLibraries) : AccountSystem → Prop :=
  Interleaving.Asserts (Accounts.SessionFacts libraries) (Accounts.SessionAssertion libraries)

theorem sessionSafe_initial : SessionSafe libraries initial where
  global := ⟨fun _ _ isSet => (by cases isSet), fun session member => absurd member (Table.not_mem_empty session)⟩
  local_ transaction isOpen := absurd isOpen (Table.not_mem_empty transaction)
  exclusive transaction isOpen := absurd isOpen (Table.not_mem_empty transaction)

theorem sessionSafe_step (system : AccountSystem) (action : Scheduled AccountRequest)
    (spares : overtakes libraries system action = false) (safe : SessionSafe libraries system) :
    SessionSafe libraries (step libraries system action) := by
  refine safe.step (Accounts.session_annotated libraries) action ?_
  cases action with
  | begin | abort => trivial
  | advance id =>
    intro transaction found next runs other isOther _ userId isFinal
    have commits : committing libraries system (.advance id) = some transaction.stage :=
      committing_eq_some.mpr ⟨id, transaction, next, rfl, found, rfl, runs⟩
    simp only [overtakes, commits, Option.bind_some, isFinal, Option.any_some, List.any_eq_false, Bool.not_eq_true]
      at spares
    exact spares other isOther

/-- A token is accepted for an active user, whose last change the login of the session has seen. -/
def AcceptsCurrent (libraries : AccountLibraries) (system : AccountSystem) (action : Scheduled AccountRequest) : Prop :=
  ∀ sessionId userId, accepts libraries system action = some (sessionId, userId) →
    system.committed.IsActiveUser userId ∧ system.committed.IsCurrent sessionId userId

theorem acceptsCurrent_of_sessionSafe (system : AccountSystem) (action : Scheduled AccountRequest)
    (safe : SessionSafe libraries system) : AcceptsCurrent libraries system action := by
  intro sessionId userId accepted
  obtain ⟨stage, commits, accepted⟩ := Option.bind_eq_some_iff.mp accepted
  obtain ⟨id, transaction, next, -, found, rfl, runs⟩ := committing_eq_some.mp commits
  have asserts := safe.local_ transaction (Table.mem_of_get? found)
  have commits := Accounts.commits_of_run runs
  obtain ⟨number, stage, locks⟩ := transaction
  cases commits with
  | authenticate owner live active =>
    cases accepted
    exact ⟨owner ▸ Accounts.isActiveUser_of_get active, asserts.current owner live⟩
  | refresh written =>
    cases accepted
    obtain ⟨facts, ⟨row, member, sameId, isOpen⟩, -⟩ := asserts
    obtain ⟨known, isKnown, knownId, knownUser⟩ := facts.known
    have same : row = known := Table.eq_of_key member isKnown (sameId.trans knownId.symm)
    refine ⟨facts.active row member sameId isOpen, ?_⟩
    rw [← knownId, ← knownUser, ← same]
    exact safe.global.sessions row member isOpen
  | login | logout | create | update | bootstrap => cases accepted

/-- In a run where no update that sets a password or deactivates a user overtakes a call of this user, the hash stored is
always one of the password set last, and only sessions that know of the last change are accepted. -/
theorem password_change_final_of_every_run (libraries : AccountLibraries) (actions : List (Scheduled AccountRequest))
    (spares : Along (step libraries) (fun system action => overtakes libraries system action = false) initial actions) :
    (run (step libraries) initial actions).committed.KeepsPassword libraries ∧
      Along (step libraries) (AcceptsCurrent libraries) initial actions := by
  have safe : SessionSafe libraries (run (step libraries) initial actions) :=
    run_invariant_along sessionSafe_step sessionSafe_initial spares
  refine ⟨safe.global.password, ?_⟩
  exact along_of_invariant sessionSafe_step (fun system action _ => acceptsCurrent_of_sessionSafe system action)
    sessionSafe_initial spares

/-! ## An overtaken login -/

/-- Hashes that show the password behind a mark of the hasher; a hash made without a salt is an old one. -/
def plainPasswords : PasswordManager where
  hash salt password := (if salt = [] then 'o' else 'n') :: password
  verify password passwordHash := passwordHash = 'o' :: password || passwordHash = 'n' :: password
  needsRehash passwordHash := passwordHash.head? = some 'o'
  verify_hash salt password := by split <;> simp
  verify_unique first second := by
    simp only [Bool.or_eq_true, decide_eq_true_eq] at first second
    rcases first with rfl | rfl <;> rcases second with same | same <;> simp_all

def plainLibraries : AccountLibraries where
  unicode := asciiUnicode
  passwords := plainPasswords
  validateEmail := some
  bootstrapSecret := "secret"

/-- The first administrator, with an old hash of its password. -/
def bootstrapped : List (Scheduled AccountRequest) :=
  .begin 1 (.bootstrapFirstAdmin "secret" ⟨"root@example.com", "Root", "first password", .admin, 5, []⟩) ::
    List.replicate 5 (.advance 1)

def changePassword : List (Scheduled AccountRequest) :=
  .begin 3 (.update 5 { userId := 5, password := some "second password", salt := "s", now := 2 }) ::
    List.replicate 6 (.advance 3)

def loginRoot (password : Text) : Scheduled AccountRequest :=
  .begin 2 (.login ⟨"root@example.com", password, 1, 100, 9, "token", "s"⟩)

/-- A session from before the change. -/
def earlierLogin : List (Scheduled AccountRequest) :=
  .begin 6 (.login ⟨"root@example.com", "first password", 1, 100, 8, "earlier", "s"⟩) :: List.replicate 6 (.advance 6)

/-- While the password is changed the earlier session is accepted, and a login with the new password waits for its turn;
after the change the steps of this login alternate with those of the earlier session, which is refused. -/
def orderlyChange : List (Scheduled AccountRequest) :=
  bootstrapped ++ earlierLogin ++
    [.begin 3 (.update 5 { userId := 5, password := some "second password", salt := "s", now := 2 }), .advance 3,
      loginRoot "second password", .advance 3, .begin 7 (.authenticate ⟨5, 8, 2⟩), .advance 7, .advance 3, .advance 7] ++
    List.replicate 3 (.advance 3) ++
    [.begin 7 (.authenticate ⟨5, 8, 3⟩), .advance 2, .advance 7, .advance 2, .advance 7] ++ List.replicate 4 (.advance 2) ++
    [.begin 4 (.authenticate ⟨5, 9, 3⟩), .advance 4, .advance 4]

theorem password_change_final_orderly :
    Along (step plainLibraries) (fun system action => overtakes plainLibraries system action = false) initial
        orderlyChange ∧
      (trace (step plainLibraries) initial orderlyChange).filterMap (fun taken =>
        accepts plainLibraries taken.1 taken.2) = [(8, 5), (9, 5)] ∧
      (run (step plainLibraries) initial orderlyChange).committed.KeepsPassword plainLibraries ∧
      Along (step plainLibraries) (AcceptsCurrent plainLibraries) initial orderlyChange := by
  have spares : Along (step plainLibraries) (fun system action => overtakes plainLibraries system action = false)
      initial orderlyChange := by
    unfold Along
    decide +kernel
  exact ⟨spares, by decide +kernel, password_change_final_of_every_run plainLibraries orderlyChange spares⟩

/-- The login has read the row before the password is changed, and writes an upgraded hash of the old password after. -/
def overtakenLogin : List (Scheduled AccountRequest) :=
  bootstrapped ++ loginRoot "first password" :: .advance 2 :: changePassword ++ List.replicate 5 (.advance 2)

theorem not_password_change_final :
    ¬ ∀ actions, (run (step plainLibraries) initial actions).committed.KeepsPassword plainLibraries ∧
      Along (step plainLibraries) (AcceptsCurrent plainLibraries) initial actions := by
  intro final
  have isSet : (run (step plainLibraries) initial overtakenLogin).committed.history.password 5 =
      some "second password" := by decide +kernel
  have reverted : (run (step plainLibraries) initial overtakenLogin).committed.users.rows.all (fun user =>
      !plainPasswords.verify "second password" user.passwordHash) = true := by decide +kernel
  obtain ⟨user, member, -, verified⟩ := (final overtakenLogin).1 5 "second password" isSet
  have refused := List.all_eq_true.mp reverted user member
  rw [Bool.not_eq_true'] at refused
  exact Bool.false_ne_true (refused.symm.trans verified)

end AccountSystem

end Mcplica.Auth
