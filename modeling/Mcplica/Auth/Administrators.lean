import Mathlib.Data.Fintype.Card
import Mcplica.Auth.Accounts

/-! # The last administrator

Roles and activity are written under the lock of administrator mutations only, so what `update` has counted under the
lock still holds when it commits. `create` without the lock adds users that are no administrators, and only after the
first user is committed; hence `bootstrap_first_admin` finds no users exactly once. -/

namespace Mcplica.Auth

open Mcplica.Domain Mcplica.Library

def User.isActiveAdmin (user : User) : Bool :=
  user.role = .admin && user.isActive

namespace Accounts

/-- Some user is an active administrator. -/
def HasActiveAdmin (accounts : Accounts) : Prop :=
  ∃ user ∈ accounts.users, user.isActiveAdmin = true

/-! ## Rows -/

/-- The users of before in their places, perhaps rewritten, with the new ones behind them. -/
structure Carries (accounts next : Accounts) (rewrite : User → User) (added : List User) : Prop where
  rows : next.users.rows = accounts.users.rows.map rewrite ++ added
  sameId : ∀ user, (rewrite user).id = user.id

/-- The commit of a transaction that need not hold the lock: nobody's role or activity changes, and a new user is no
administrator. -/
structure KeepsStanding (accounts next : Accounts) (rewrite : User → User) (added : List User) : Prop
    extends Carries accounts next rewrite added where
  role : ∀ user, (rewrite user).role = user.role
  isActive : ∀ user, (rewrite user).isActive = user.isActive
  builders : ∀ user ∈ added, user.role ≠ .admin
  /-- A user is created on behalf of another one. -/
  created : added ≠ [] → accounts.users.rows ≠ []

variable {libraries : AccountLibraries} {accounts next : Accounts} {rewrite : User → User} {added : List User}

theorem Carries.mem (carries : Carries accounts next rewrite added) {user : User} (member : user ∈ accounts.users) :
    rewrite user ∈ next.users := by
  show rewrite user ∈ next.users.rows
  rw [carries.rows]
  exact List.mem_append_left _ (List.mem_map_of_mem member)

theorem Carries.nonempty (carries : Carries accounts next rewrite added) (some_ : accounts.users.rows ≠ []) :
    next.users.rows ≠ [] := by
  rw [carries.rows]
  simp [some_]

theorem Carries.hasActiveAdmin_of_keeps (carries : Carries accounts next rewrite added)
    (keeps : ∀ user ∈ accounts.users, user.isActiveAdmin = true → (rewrite user).isActiveAdmin = true)
    (admin : accounts.HasActiveAdmin) : next.HasActiveAdmin := by
  obtain ⟨user, member, isAdmin⟩ := admin
  exact ⟨rewrite user, carries.mem member, keeps user member isAdmin⟩

theorem KeepsStanding.isActiveAdmin (keeps : KeepsStanding accounts next rewrite added) (user : User) :
    (rewrite user).isActiveAdmin = user.isActiveAdmin := by
  simp only [User.isActiveAdmin, keeps.role, keeps.isActive]

theorem KeepsStanding.countActiveAdmins (keeps : KeepsStanding accounts next rewrite added) :
    accounts.countActiveAdmins ≤ next.countActiveAdmins := by
  show accounts.users.rows.countP User.isActiveAdmin ≤ next.users.rows.countP User.isActiveAdmin
  rw [keeps.rows, List.countP_append, List.countP_map]
  refine Nat.le_add_right_of_le (List.countP_mono_left fun user _ isAdmin => ?_)
  rw [Function.comp_apply, keeps.isActiveAdmin]
  exact isAdmin

theorem KeepsStanding.empty (keeps : KeepsStanding accounts next rewrite added) (none_ : accounts.users.rows = []) :
    next.users.rows = [] := by
  by_cases isAdded : added = []
  · rw [keeps.rows, none_, isAdded]
    rfl
  · exact absurd none_ (keeps.created isAdded)

theorem KeepsStanding.standing (keeps : KeepsStanding accounts next rewrite added) {userId : Uuid} {role : UserRole}
    {isActive : Bool} (known : ∃ row ∈ accounts.users, row.id = userId ∧ row.role = role ∧ row.isActive = isActive) :
    ∃ row ∈ next.users, row.id = userId ∧ row.role = role ∧ row.isActive = isActive := by
  obtain ⟨row, member, sameId, sameRole, sameActivity⟩ := known
  exact ⟨rewrite row, keeps.mem member, (keeps.sameId row).trans sameId, (keeps.role row).trans sameRole,
    (keeps.isActive row).trans sameActivity⟩

/-! ## Assertions -/

/-- What a transaction relies on until it ends. -/
def AdminAssertion (accounts : Accounts) (transaction : Transaction AccountStage AccountLock) : Prop :=
  match transaction.stage with
  | .create user stage => accounts.users.rows ≠ [] ∧
      (stage = .locked ∨ stage = .checked ∨ stage = .inserted → user.role = .admin → .adminMutations ∈ transaction.locks)
  | .update request stage => accounts.users.rows ≠ [] ∧
      (stage ≠ .started → request.locksAdmins = true → .adminMutations ∈ transaction.locks) ∧
      (request.locksAdmins = true → Reads request stage)
  | .bootstrap _ stage => (stage ≠ .started → .adminMutations ∈ transaction.locks) ∧
      (stage = .checked ∨ stage = .inserted → accounts.users.rows = [])
  | _ => True
where
  /-- The standing of the user is still the one that was read, and the count still allows the update. -/
  Reads (request : UpdateRequest) : UpdateStage → Prop
  | .started | .locked => True
  | .read current => Standing request current
  | .allowed current | .written current | .revoked current _ => Standing request current ∧
      (request.removesAdmin current = true → 2 ≤ accounts.countActiveAdmins)
  Standing (request : UpdateRequest) (current : User) : Prop :=
    ∃ row ∈ accounts.users, row.id = request.userId ∧ row.role = current.role ∧ row.isActive = current.isActive

theorem keepsStanding_of_users_eq (same : next.users = accounts.users) : KeepsStanding accounts next id [] where
  rows := by rw [same, List.map_id, List.append_nil]
  sameId _ := rfl
  role _ := rfl
  isActive _ := rfl
  builders _ member := by cases member
  created isAdded := absurd rfl isAdded

theorem carries_of_insertUser {user : User} (written : accounts.insertUser libraries user = some next) :
    ∃ row, row.role = user.role ∧ Carries accounts next id [row] := by
  obtain ⟨row, sameRole, -, rows, -, -⟩ := insertUser_eq_some written
  exact ⟨row, sameRole, ⟨by rw [rows, List.map_id], fun _ => rfl⟩⟩

theorem carries_commitUpdate {request : UpdateRequest} {sessionIds : List Uuid} :
    Carries accounts (accounts.commitUpdate libraries request sessionIds)
      (fun user => if user.id = request.userId then request.values libraries.passwords user else user) [] := by
  refine ⟨?_, fun user => ?_⟩
  · simp [commitUpdate, Table.update]
  · split <;> rfl

/-- A user other than the only one that is updated is an administrator. -/
theorem exists_other_admin {userId : Uuid} (counted : 2 ≤ accounts.countActiveAdmins) :
    ∃ user ∈ accounts.users, user.isActiveAdmin = true ∧ user.id ≠ userId := by
  by_contra none_
  have single : accounts.countActiveAdmins ≤ accounts.users.count fun user => [userId].contains (Row.key user) := by
    refine Table.count_mono fun user member isAdmin => ?_
    have same : user.id = userId := by
      by_contra different
      exact none_ ⟨user, member, isAdmin, different⟩
    simp [← same]
    rfl
  have bounded := single.trans (Table.count_keys_le accounts.users [userId])
  rw [List.length_singleton] at bounded
  omega

/-- The update leaves an administrator: another one where it takes one away, else the one there was. -/
theorem hasActiveAdmin_commitUpdate {request : UpdateRequest} {current : User} {sessionIds : List Uuid}
    (reads : AdminAssertion.Reads accounts request (.revoked current sessionIds)) (admin : accounts.HasActiveAdmin) :
    (accounts.commitUpdate libraries request sessionIds).HasActiveAdmin := by
  have carries := @carries_commitUpdate libraries accounts request sessionIds
  obtain ⟨⟨row, isRow, sameId, sameRole, sameActivity⟩, counted⟩ := reads
  by_cases removes : request.removesAdmin current = true
  · obtain ⟨user, member, isAdmin, different⟩ := exists_other_admin (counted removes)
    have kept := carries.mem member
    rw [if_neg different] at kept
    exact ⟨user, kept, isAdmin⟩
  · refine carries.hasActiveAdmin_of_keeps (fun user member isAdmin => ?_) admin
    by_cases isUpdated : user.id = request.userId
    · have same : row = user := Table.eq_of_key isRow member (sameId.trans isUpdated.symm)
      rw [if_pos isUpdated]
      simp only [UpdateRequest.removesAdmin, ← sameRole, ← sameActivity, same, User.isActiveAdmin, Bool.and_eq_true,
        Bool.or_eq_true, decide_eq_true_eq, Bool.not_eq_true', not_and, not_or, not_not, Bool.not_eq_false]
        at removes isAdmin ⊢
      exact removes isAdmin
    · rw [if_neg isUpdated]
      exact isAdmin

/-- Every commit carries the users on. It keeps their standing, or else it holds the lock and leaves an administrator. -/
theorem carries_of_commits {transaction : Transaction AccountStage AccountLock}
    (asserts : accounts.AdminAssertion transaction) (commits : Commits libraries accounts transaction.stage next) :
    (∃ rewrite added, KeepsStanding accounts next rewrite added) ∨
      (.adminMutations ∈ transaction.locks ∧ (accounts.HasActiveAdmin → next.HasActiveAdmin) ∧
        ∃ rewrite added, Carries accounts next rewrite added) := by
  obtain ⟨number, stage, locks⟩ := transaction
  cases commits with
  | @login request login next written =>
    unfold commitLogin at written
    dsimp only at written
    split at written
    · cases written
    · obtain ⟨sessions, -, rfl⟩ := Option.map_eq_some_iff.mp written
      refine .inl ⟨_, [], ⟨⟨(List.append_nil _).symm, ?_⟩, ?_, ?_, by simp, fun isAdded => absurd rfl isAdded⟩⟩ <;>
      · intro user
        split <;> rfl
  | authenticate => exact .inl ⟨_, [], keepsStanding_of_users_eq rfl⟩
  | @refresh request session next written =>
    unfold commitRefresh at written
    dsimp only at written
    split at written
    · cases written
    · cases written
      exact .inl ⟨_, [], keepsStanding_of_users_eq rfl⟩
  | logout => exact .inl ⟨_, [], keepsStanding_of_users_eq rfl⟩
  | @create user next written =>
    obtain ⟨row, sameRole, carries⟩ := carries_of_insertUser written
    obtain ⟨some_, locked⟩ := asserts
    by_cases isAdmin : user.role = .admin
    · exact .inr ⟨locked (.inr (.inr rfl)) isAdmin, carries.hasActiveAdmin_of_keeps (fun _ _ => id), _, _, carries⟩
    · refine .inl ⟨_, [row], ⟨carries, fun _ => rfl, fun _ => rfl, ?_, fun _ => some_⟩⟩
      intro user member
      rw [List.mem_singleton.mp member, sameRole]
      exact isAdmin
  | @update request current sessionIds =>
    obtain ⟨some_, locked, reads⟩ := asserts
    have carries := @carries_commitUpdate libraries accounts request sessionIds
    by_cases locks : request.locksAdmins = true
    · exact .inr ⟨locked (by rintro ⟨⟩) locks, hasActiveAdmin_commitUpdate (reads locks), _, _, carries⟩
    · simp only [UpdateRequest.locksAdmins, Bool.or_eq_true, not_or, Bool.not_eq_true, Option.isSome_eq_false_iff,
        Option.isNone_iff_eq_none] at locks
      refine .inl ⟨_, [], ⟨carries, ?_, ?_, by simp, fun isAdded => absurd rfl isAdded⟩⟩ <;>
      · intro user
        split <;> simp [UpdateRequest.values, locks]
  | @bootstrap user next written =>
    obtain ⟨row, -, carries⟩ := carries_of_insertUser written
    exact .inr ⟨asserts.1 (by rintro ⟨⟩), carries.hasActiveAdmin_of_keeps (fun _ _ => id), _, _, carries⟩

theorem adminAssertion_undisturbed {transaction other : Transaction AccountStage AccountLock}
    (asserts : accounts.AdminAssertion transaction) (kept : accounts.AdminAssertion other)
    (apart : ∀ lock ∈ transaction.locks, lock ∉ other.locks)
    (commits : Commits libraries accounts transaction.stage next) : next.AdminAssertion other := by
  obtain ⟨number, stage, locks⟩ := other
  rcases carries_of_commits asserts commits with ⟨rewrite, added, keeps⟩ | ⟨isLocked, -, rewrite, added, carries⟩
  · cases stage with
    | create user stage => exact ⟨keeps.nonempty kept.1, kept.2⟩
    | update request stage =>
      refine ⟨keeps.nonempty kept.1, kept.2.1, fun locksAdmins => ?_⟩
      have reads := kept.2.2 locksAdmins
      have counted := keeps.countActiveAdmins
      cases stage with
      | started => trivial
      | locked => trivial
      | read current => exact keeps.standing reads
      | allowed current => exact ⟨keeps.standing reads.1, fun removes => (reads.2 removes).trans counted⟩
      | written current => exact ⟨keeps.standing reads.1, fun removes => (reads.2 removes).trans counted⟩
      | revoked current sessionIds => exact ⟨keeps.standing reads.1, fun removes => (reads.2 removes).trans counted⟩
    | bootstrap user stage => exact ⟨kept.1, fun found => keeps.empty (kept.2 found)⟩
    | login | authenticate | refresh | logout => trivial
  · -- The other transaction cannot be past its own lock.
    have unlocked : .adminMutations ∉ locks := apart _ isLocked
    cases stage with
    | create user stage => exact ⟨carries.nonempty kept.1, kept.2⟩
    | update request stage =>
      refine ⟨carries.nonempty kept.1, kept.2.1, fun locksAdmins => ?_⟩
      have isStarted : stage = .started := by
        by_contra later
        exact unlocked (kept.2.1 later locksAdmins)
      rw [isStarted]
      trivial
    | bootstrap user stage =>
      refine ⟨kept.1, fun found => absurd (kept.1 ?_) unlocked⟩
      rintro rfl
      rcases found with isChecked | isInserted
      · cases isChecked
      · cases isInserted
    | login | authenticate | refresh | logout => trivial

theorem adminAssertion_proceeds {transaction : Transaction AccountStage AccountLock} {locks : List AccountLock}
    {stage : AccountStage} (asserts : accounts.AdminAssertion transaction)
    (runs : transaction.stage.run libraries accounts = .proceed locks stage) :
    accounts.AdminAssertion ⟨transaction.id, stage, transaction.locks ++ locks⟩ := by
  obtain ⟨number, before, held⟩ := transaction
  cases before with
  | login | authenticate | refresh | logout =>
    obtain ⟨inner, -, rfl⟩ := inStage_eq_proceed runs
    trivial
  | create user before =>
    obtain ⟨inner, moves, rfl⟩ := inStage_eq_proceed runs
    obtain ⟨some_, locked⟩ := asserts
    refine ⟨some_, fun past isAdmin => ?_⟩
    cases before with
    | started => cases moves; simp at past
    | emailLocked => cases moves; simp [isAdmin]
    | locked =>
      simp only [runCreate] at moves
      split at moves
      · cases moves
      · exact List.mem_append_left _ (locked (.inl rfl) isAdmin)
    | checked => exact List.mem_append_left _ (locked (.inr (.inl rfl)) isAdmin)
    | inserted => exact List.mem_append_left _ (locked (.inr (.inr rfl)) isAdmin)
  | update request before =>
    obtain ⟨inner, moves, rfl⟩ := inStage_eq_proceed runs
    obtain ⟨some_, locked, reads⟩ := asserts
    cases before with
    | started =>
      cases moves
      exact ⟨some_, fun _ locksAdmins => by simp [locksAdmins], fun _ => trivial⟩
    | locked =>
      simp only [runUpdate] at moves
      split at moves
      · cases moves
      · rename_i current found
        cases moves
        obtain ⟨member, sameId⟩ := Table.get?_eq_some.mp found
        exact ⟨some_, fun _ locksAdmins => List.mem_append_left _ (locked (by rintro ⟨⟩) locksAdmins),
          fun _ => ⟨current, member, sameId, rfl, rfl⟩⟩
    | read current =>
      simp only [runUpdate] at moves
      split at moves
      · cases moves
      · rename_i allowed
        cases moves
        refine ⟨some_, fun _ locksAdmins => List.mem_append_left _ (locked (by rintro ⟨⟩) locksAdmins),
          fun locksAdmins => ⟨reads locksAdmins, fun removes => ?_⟩⟩
        simp only [removes, Bool.true_and, decide_eq_true_eq, not_le] at allowed
        exact allowed
    | allowed current =>
      cases moves
      exact ⟨some_, fun _ locksAdmins => List.mem_append_left _ (locked (by rintro ⟨⟩) locksAdmins), reads⟩
    | written current =>
      cases moves
      exact ⟨some_, fun _ locksAdmins => List.mem_append_left _ (locked (by rintro ⟨⟩) locksAdmins), reads⟩
    | revoked current sessionIds => cases moves
  | bootstrap user before =>
    obtain ⟨inner, moves, rfl⟩ := inStage_eq_proceed runs
    obtain ⟨locked, found⟩ := asserts
    cases before with
    | started => cases moves; exact ⟨fun _ => List.mem_append_right _ (List.mem_singleton_self _), by simp⟩
    | adminLocked => cases moves; exact ⟨fun _ => List.mem_append_left _ (locked (by rintro ⟨⟩)), by simp⟩
    | locked =>
      simp only [runBootstrap] at moves
      split at moves
      · cases moves
      · rename_i counted
        cases moves
        refine ⟨fun _ => List.mem_append_left _ (locked (by rintro ⟨⟩)), fun _ => ?_⟩
        rw [not_not] at counted
        exact List.length_eq_zero_iff.mp counted
    | checked => cases moves; exact ⟨fun _ => List.mem_append_left _ (locked (by rintro ⟨⟩)), fun _ => found (.inl rfl)⟩
    | inserted =>
      exact ⟨fun _ => List.mem_append_left _ (locked (by rintro ⟨⟩)), fun _ => found (.inr rfl)⟩

theorem adminAssertion_enters {request : AccountRequest} {stage : AccountStage}
    (entered : request.enter libraries accounts = some stage) (id : Nat) : accounts.AdminAssertion ⟨id, stage, []⟩ := by
  have nonempty : ∀ {userId}, accounts.hasUser userId = true → accounts.users.rows ≠ [] := by
    intro userId known none_
    simp [hasUser, Table.get?, none_] at known
  cases request with
  | login | authenticate | refresh | logout => cases entered; trivial
  | create actorUserId request =>
    simp only [AccountRequest.enter] at entered
    split at entered
    · obtain ⟨user, -, rfl⟩ := Option.map_eq_some_iff.mp entered
      exact ⟨nonempty ‹_›, by simp⟩
    · cases entered
  | update actorUserId request =>
    simp only [AccountRequest.enter] at entered
    split at entered
    · rename_i allowed
      cases entered
      rw [Bool.and_eq_true] at allowed
      exact ⟨nonempty allowed.1, by simp, fun _ => trivial⟩
    · cases entered
  | bootstrapFirstAdmin suppliedBootstrapSecret request =>
    simp only [AccountRequest.enter] at entered
    split at entered
    · obtain ⟨user, -, rfl⟩ := Option.map_eq_some_iff.mp entered
      exact ⟨by simp, by simp⟩
    · cases entered

theorem admin_annotated (libraries : AccountLibraries) :
    Interleaving.Annotated (AccountRequest.enter libraries) (AccountStage.run libraries)
      (fun _ => True) AdminAssertion (fun _ _ _ => True) where
  enters _ entered id := adminAssertion_enters entered id
  proceeds _ asserts runs := adminAssertion_proceeds asserts runs
  commits _ _ _ := trivial
  undisturbed _ asserts kept apart _ runs := adminAssertion_undisturbed asserts kept apart (commits_of_run runs)

/-! ## Commits -/

theorem hasActiveAdmin_of_commits {transaction : Transaction AccountStage AccountLock}
    (asserts : accounts.AdminAssertion transaction) (commits : Commits libraries accounts transaction.stage next)
    (admin : accounts.HasActiveAdmin) : next.HasActiveAdmin := by
  rcases carries_of_commits asserts commits with ⟨rewrite, added, keeps⟩ | ⟨-, leaves, -⟩
  · exact keeps.hasActiveAdmin_of_keeps (fun user _ isAdmin => (keeps.isActiveAdmin user).trans isAdmin) admin
  · exact leaves admin

theorem users_nonempty_of_commits {transaction : Transaction AccountStage AccountLock}
    (asserts : accounts.AdminAssertion transaction) (commits : Commits libraries accounts transaction.stage next)
    (some_ : accounts.users.rows ≠ []) : next.users.rows ≠ [] := by
  rcases carries_of_commits asserts commits with ⟨rewrite, added, keeps⟩ | ⟨-, -, rewrite, added, carries⟩
  · exact keeps.nonempty some_
  · exact carries.nonempty some_

end Accounts

/-! ## Runs -/

namespace AccountSystem

variable {libraries : AccountLibraries}

abbrev AdminSafe : AccountSystem → Prop :=
  Interleaving.Asserts (fun _ => True) Accounts.AdminAssertion

theorem adminSafe_initial : AdminSafe initial where
  global := trivial
  local_ transaction isOpen := absurd isOpen (Table.not_mem_empty transaction)
  exclusive transaction isOpen := absurd isOpen (Table.not_mem_empty transaction)

theorem adminSafe_step (system : AccountSystem) (action : Scheduled AccountRequest) (safe : AdminSafe system) :
    AdminSafe (step libraries system action) := by
  refine safe.step (Accounts.admin_annotated libraries) action ?_
  cases action with
  | advance id => exact fun _ _ _ _ _ _ _ => trivial
  | begin | abort => trivial

/-- A fact about what is committed that every commit keeps. -/
theorem committed_step_induction {P : Accounts → Prop} {system : AccountSystem} (safe : AdminSafe system)
    (kept : ∀ {transaction next}, system.committed.AdminAssertion transaction →
      Accounts.Commits libraries system.committed transaction.stage next → P next)
    (holds : P system.committed) (action : Scheduled AccountRequest) : P (step libraries system action).committed := by
  rcases Interleaving.committed_step (AccountRequest.enter libraries) (AccountStage.run libraries) system action with
    same | ⟨id, transaction, -, found, runs⟩
  · exact same ▸ holds
  · exact kept (safe.local_ transaction (Table.mem_of_get? found)) (Accounts.commits_of_run runs)

theorem hasActiveAdmin_step (system : AccountSystem) (action : Scheduled AccountRequest)
    (invariant : AdminSafe system ∧ system.committed.HasActiveAdmin) :
    AdminSafe (step libraries system action) ∧ (step libraries system action).committed.HasActiveAdmin := by
  refine ⟨adminSafe_step system action invariant.1, committed_step_induction invariant.1 ?_ invariant.2 action⟩
  exact fun asserts commits => Accounts.hasActiveAdmin_of_commits asserts commits invariant.2

/-- A commit of `bootstrap_first_admin`. -/
def bootstraps (libraries : AccountLibraries) (system : AccountSystem) (action : Scheduled AccountRequest) : List Unit :=
  match committing libraries system action with
  | some (.bootstrap _ _) => [()]
  | _ => []

/-- The commit finds no user and leaves one. -/
theorem bootstraps_spec {system : AccountSystem} {action : Scheduled AccountRequest} (safe : AdminSafe system)
    (isCommit : bootstraps libraries system action ≠ []) :
    system.committed.users.rows = [] ∧ (step libraries system action).committed.users.rows ≠ [] := by
  unfold bootstraps at isCommit
  split at isCommit
  · rename_i user stage commits
    obtain ⟨id, transaction, next, rfl, found, isStage, runs⟩ := committing_eq_some.mp commits
    have asserts := safe.local_ transaction (Table.mem_of_get? found)
    have written := Accounts.commits_of_run runs
    have stepped : (step libraries system (.advance id)).committed = next := by
      rw [← isStage] at runs
      show ((system.transactions.get? id).elim system (system.advance (AccountStage.run libraries))).committed = next
      rw [found, Option.elim_some, Interleaving.advance, runs]
    rw [stepped]
    cases written with
    | bootstrap written =>
      obtain ⟨number, before, locks⟩ := transaction
      cases isStage
      obtain ⟨row, -, -, rows, -, -⟩ := Accounts.insertUser_eq_some written
      exact ⟨asserts.2 (.inr rfl), by rw [rows]; simp⟩
  · exact absurd rfl isCommit

/-- An administrator is there for good once there is one, and the first user is bootstrapped once. -/
theorem administrators_of_every_run (libraries : AccountLibraries) (actions : List (Scheduled AccountRequest)) :
    (∀ before after, actions = before ++ after → (run (step libraries) initial before).committed.HasActiveAdmin →
      (run (step libraries) initial actions).committed.HasActiveAdmin) ∧
    Along (step libraries) (fun system action => bootstraps libraries system action ≠ [] →
      system.committed.users.rows = []) initial actions ∧
    (events (step libraries) (bootstraps libraries) initial actions).length ≤ 1 := by
  refine ⟨?_, ?_, ?_⟩
  · rintro before after rfl admin
    rw [run_append]
    have safe : AdminSafe (run (step libraries) initial before) :=
      run_invariant AdminSafe adminSafe_step adminSafe_initial before
    exact (run_invariant (fun system => AdminSafe system ∧ system.committed.HasActiveAdmin) hasActiveAdmin_step
      ⟨safe, admin⟩ after).2
  · refine along_of_preserved AdminSafe adminSafe_step ?_ adminSafe_initial actions
    exact fun system action safe isCommit => (bootstraps_spec safe isCommit).1
  · have once : (events (step libraries) (bootstraps libraries) initial actions).Nodup := by
      refine events_nodup AdminSafe (fun system _ => system.committed.users.rows ≠ []) adminSafe_step ?_ ?_ ?_ ?_
        adminSafe_initial actions
      · intro system action _
        unfold bootstraps
        split <;> simp
      · intro system action event safe observed some_
        exact some_ (bootstraps_spec safe (List.ne_nil_of_mem observed)).1
      · intro system action event safe observed
        exact (bootstraps_spec safe (List.ne_nil_of_mem observed)).2
      · intro system action event safe some_
        refine @committed_step_induction libraries (fun accounts => accounts.users.rows ≠ []) system safe ?_ some_ action
        exact fun asserts commits => Accounts.users_nonempty_of_commits asserts commits some_
    exact once.length_le_card

end AccountSystem

end Mcplica.Auth
