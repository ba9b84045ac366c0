import Mcplica.Deployments.RuntimeCommands

/-! # The runtime command protocol

The dispatcher, the queue and the workers seen from the command table. The queue may deliver a message
twice, late, out of order or after its lease has run out, and any number of workers may act, so the
calls reach the table in any order with any command id, token and clock reading; a run is any list of
calls. Leases expire because a later call carries a later reading.

`step_rows` says once what a call does to the table; everything below it is derived from that. -/

namespace Mcplica.Deployments.CommandProtocol

open Mcplica.Domain Mcplica.Library
open Mcplica.Deployments.CommandStore

inductive Call where
  | create (new : NewCommand) (sequence : Nat) (now : Instant)
  | claimDueForDispatch (limit : Nat) (lease : Duration) (locked : Uuid → Bool) (now : Instant)
  | claimForExecution (commandId token : Uuid) (lease : Duration) (now : Instant)
  | renewExecution (commandId token : Uuid) (lease : Duration) (now : Instant)
  | markEffective (commandId token : Uuid) (now : Instant)
  | markFailed (commandId token : Uuid) (failure : Failure) (now : Instant)
  | markDispatchFailed (commandId token : Uuid) (errorCode errorSummary : String) (retryDelay : Duration)
      (now : Instant)

/-- The command, the token and the clock reading a fenced call is made with. -/
def Call.presents : Call → Option (Uuid × Uuid × Instant)
  | create .. | claimDueForDispatch .. => none
  | claimForExecution commandId token _ now => some (commandId, token, now)
  | renewExecution commandId token _ now => some (commandId, token, now)
  | markEffective commandId token now => some (commandId, token, now)
  | markFailed commandId token _ now => some (commandId, token, now)
  | markDispatchFailed commandId token _ _ _ now => some (commandId, token, now)

def step (store : CommandStore) : Call → CommandStore
  | .create new sequence now => commit store ((store.create new sequence now).map Prod.fst)
  | .claimDueForDispatch limit lease locked now => store.claimDueForDispatch limit lease locked now
  | .claimForExecution commandId token lease now => (store.claimForExecution commandId token lease now).1
  | .renewExecution commandId token lease now => (store.renewExecution commandId token lease now).1
  | .markEffective commandId token now => commit store (store.markEffective commandId token now)
  | .markFailed commandId token failure now => commit store (store.markFailed commandId token failure now)
  | .markDispatchFailed commandId token errorCode errorSummary retryDelay now =>
    (store.markDispatchFailed commandId token errorCode errorSummary retryDelay now).1

/-! ## What one call does -/

/-- The ways a call changes one row; `bound` counts the tokens drawn once the call is over. -/
inductive Move (store : CommandStore) (bound : Nat) (call : Call) : RuntimeCommand → RuntimeCommand → Prop
  | kept {command} : Move store bound call command command
  | dispatched {command token now expires} (due : command.status ≠ .effective)
      (retryable : command.retryable = true) (free : store.hasPredecessor command = false) (fresh : store.tokensDrawn ≤ token)
      (drawn : token < bound) : Move store bound call command (dispatch token now expires command)
  | started {command token lease now} (presented : call.presents = some (command.id, token, now))
      (status : command.status = .dispatched) (holds : holdsToken command token now = true)
      (free : store.hasPredecessor command = false) :
      Move store bound call command (startExecution now lease command)
  | renewed {command token expires now} (presented : call.presents = some (command.id, token, now))
      (status : command.status = .running) (holds : holdsToken command token now = true) :
      Move store bound call command (renewLease expires command)
  | effective {command token now} (presented : call.presents = some (command.id, token, now))
      (status : command.status = .running) (holds : holdsToken command token now = true)
      (free : store.hasPredecessor command = false) (marked : call = .markEffective command.id token now) :
      Move store bound call command (becomeEffective now command)
  | failed {command token failure now} (presented : call.presents = some (command.id, token, now))
      (status : command.status = .dispatched ∨ command.status = .running)
      (holds : holdsToken command token now = true) :
      Move store bound call command (applyFailure failure now command)

/-- A call rewrites each row by a `Move` and appends at most one new row. -/
structure Effect (store next : CommandStore) (call : Call) (rewrite : RuntimeCommand → RuntimeCommand)
    (added : List RuntimeCommand) : Prop where
  rows : next.commands.rows = store.commands.rows.map rewrite ++ added
  moves : ∀ command ∈ store.commands, Move store next.tokensDrawn call command (rewrite command)
  drawn : store.tokensDrawn ≤ next.tokensDrawn
  /-- Two rows that receive a token in the same call receive different ones. -/
  distinct : ∀ command ∈ store.commands, ∀ other ∈ store.commands, ∀ token,
    (rewrite command).executionToken = some token → (rewrite other).executionToken = some token →
    command.executionToken ≠ some token → other.executionToken ≠ some token → command = other
  fresh : ∀ command ∈ added, command.status = .pending ∧ command.executionToken = none ∧
    added = [command] ∧ store.identityAllows command.transitionId command.sequence = true
  created : added = [] ∨ ∃ new sequence now, call = .create new sequence now

theorem effect_refl (store : CommandStore) (call : Call) : Effect store store call id [] where
  rows := by simp
  moves _ _ := .kept
  drawn := le_refl _
  distinct _ _ _ _ _ held _ notHeld := absurd held notHeld
  fresh _ member := by cases member
  created := .inl rfl

/-- A fenced call writes one row and gives it no new token. -/
theorem effect_write {store : CommandStore} {call : Call} {commandId : Uuid} {command : RuntimeCommand}
    {assign : RuntimeCommand → RuntimeCommand} {keeps} (found : store.commands.get? commandId = some command)
    (move : Move store store.tokensDrawn call command (assign command))
    (token : ∀ command, (assign command).executionToken = none ∨
      (assign command).executionToken = command.executionToken) :
    Effect store (store.write commandId assign keeps) call
      (fun row => if row.id = commandId then assign row else row) [] where
  rows := by simp [CommandStore.write, Table.update]
  moves row member := by
    split
    · rename_i same
      have : row = command :=
        Table.eq_of_key member (Table.mem_of_get? found) (same.trans (Table.key_of_get? found).symm)
      rw [this]
      exact move
    · exact .kept
  drawn := le_refl _
  distinct row _ _ _ value held _ notHeld _ := by
    exfalso
    split at held
    · rcases token row with cleared | unchanged
      · rw [cleared] at held
        cases held
      · exact notHeld (unchanged ▸ held)
    · exact notHeld held
  fresh _ member := by cases member
  created := .inl rfl

theorem effect_create (store : CommandStore) (new : NewCommand) (sequence : Nat) (now : Instant) :
    ∃ rewrite added, Effect store (step store (.create new sequence now))
      (.create new sequence now) rewrite added := by
  simp only [step, CommandStore.create]
  split
  · exact ⟨_, _, effect_refl _ _⟩
  · split
    · rename_i allowed
      split
      · rename_i commands inserted
        refine ⟨id, [new.row sequence now], ?_⟩
        exact {
          rows := by simp [Table.rows_insert inserted, Except.map]
          moves := fun _ _ => .kept
          drawn := le_refl _
          distinct := fun _ _ _ _ _ held _ notHeld => absurd held notHeld
          fresh := by
            intro command member
            rw [List.mem_singleton] at member
            subst member
            exact ⟨rfl, rfl, rfl, allowed⟩
          created := .inr ⟨new, sequence, now, rfl⟩ }
      · exact ⟨_, _, effect_refl _ _⟩
    · exact ⟨_, _, effect_refl _ _⟩

theorem effect_claimDueForDispatch (store : CommandStore) (limit : Nat) (lease : Duration)
    (locked : Uuid → Bool) (now : Instant) :
    ∃ rewrite added, Effect store (store.claimDueForDispatch limit lease locked now)
      (.claimDueForDispatch limit lease locked now) rewrite added := by
  refine ⟨fun command => if ((store.selectDue limit locked now).map RuntimeCommand.id).contains command.id then
      dispatch (store.tokensDrawn + ((store.selectDue limit locked now).map RuntimeCommand.id).idxOf command.id)
        now (now + lease) command
    else command, [], ⟨(List.append_nil _).symm, ?_, Nat.le_add_right _ _, ?_, by simp, .inl rfl⟩⟩
  · intro command member
    split
    · rename_i claimed
      simp only [List.contains_eq_mem, List.mem_map, decide_eq_true_eq] at claimed
      obtain ⟨due, selected, same⟩ := claimed
      obtain ⟨dueMember, dueTest⟩ := Table.mem_of_mem_select selected
      have : due = command := Table.eq_of_key dueMember member same
      subst this
      simp only [dueForDispatch, Bool.and_eq_true, Bool.not_eq_true'] at dueTest
      obtain ⟨⟨⟨⟨⟨status, retryable⟩, -⟩, -⟩, free⟩, -⟩ := dueTest
      refine .dispatched ?_ retryable free (Nat.le_add_right _ _) ?_
      · rintro effective
        simp [effective] at status
      · apply Nat.add_lt_add_left
        exact List.idxOf_lt_length_of_mem (List.mem_map_of_mem selected)
    · exact .kept
  · intro command member other otherMember token held otherHeld notHeld otherNotHeld
    split at held
    · rename_i claimed
      split at otherHeld
      · simp only [dispatch, Option.some.injEq] at held otherHeld
        have sameIndex := Nat.add_left_cancel (held.trans otherHeld.symm)
        simp only [List.contains_eq_mem, decide_eq_true_eq] at claimed
        exact Table.eq_of_key member otherMember ((List.idxOf_inj claimed).mp sameIndex)
      · exact absurd otherHeld otherNotHeld
    · exact absurd held notHeld

theorem requireExecutionOwner_eq_ok {store : CommandStore} {commandId token : Uuid} {now : Instant}
    {command : RuntimeCommand} :
    store.requireExecutionOwner commandId token now = .ok command ↔
      store.commands.get? commandId = some command ∧ command.status = .running ∧
        holdsToken command token now = true ∧ store.hasPredecessor command = false := by
  unfold CommandStore.requireExecutionOwner
  cases store.commands.get? commandId with
  | none => simp
  | some row =>
    simp only [Bool.and_eq_true, decide_eq_true_eq]
    split
    · rename_i owner
      split
      · rename_i blocked
        simp only [raise_ne_ok, Option.some.injEq, false_iff]
        rintro ⟨rfl, -, -, free⟩
        rw [free] at blocked
        cases blocked
      · rename_i free
        simp only [Except.ok.injEq, Option.some.injEq]
        constructor
        · rintro rfl
          exact ⟨rfl, owner.1, owner.2, by simpa using free⟩
        · exact fun same => same.1
    · rename_i stale
      simp only [raise_ne_ok, Option.some.injEq, false_iff]
      rintro ⟨rfl, status, holds, -⟩
      exact stale ⟨status, holds⟩

theorem step_effect (store : CommandStore) (call : Call) :
    ∃ rewrite added, Effect store (step store call) call rewrite added := by
  cases call with
  | create new sequence now => exact effect_create store new sequence now
  | claimDueForDispatch limit lease locked now => exact effect_claimDueForDispatch store limit lease locked now
  | claimForExecution commandId token lease now =>
    simp only [step, CommandStore.claimForExecution]
    split
    · exact ⟨_, _, effect_refl _ _⟩
    · rename_i command found
      have same : command.id = commandId := Table.key_of_get? found
      split
      · rename_i owner
        simp only [Bool.and_eq_true, decide_eq_true_eq] at owner
        split
        · exact ⟨_, _, effect_refl _ _⟩
        · rename_i free
          refine ⟨_, _, effect_write found ?_ fun _ => .inr rfl⟩
          exact .started (by rw [same]; rfl) owner.1 owner.2 (by simpa using free)
      · exact ⟨_, _, effect_refl _ _⟩
  | renewExecution commandId token lease now =>
    simp only [step, CommandStore.renewExecution]
    split
    · exact ⟨_, _, effect_refl _ _⟩
    · rename_i owned
      obtain ⟨found, status, holds, -⟩ := requireExecutionOwner_eq_ok.mp owned
      refine ⟨_, _, effect_write found ?_ fun _ => .inr rfl⟩
      exact .renewed (by rw [← Table.key_of_get? found]; rfl) status holds
  | markEffective commandId token now =>
    simp only [step, CommandStore.markEffective]
    cases owned : store.requireExecutionOwner commandId token now with
    | error _ => exact ⟨_, _, effect_refl _ _⟩
    | ok command =>
      obtain ⟨found, status, holds, free⟩ := requireExecutionOwner_eq_ok.mp owned
      refine ⟨_, _, effect_write found ?_ fun _ => .inl rfl⟩
      have same : command.id = commandId := Table.key_of_get? found
      exact .effective (by rw [same]; rfl) status holds free (by rw [same])
  | markFailed commandId token failure now =>
    simp only [step, CommandStore.markFailed]
    cases owned : store.requireExecutionOwner commandId token now with
    | error _ => exact ⟨_, _, effect_refl _ _⟩
    | ok command =>
      obtain ⟨found, status, holds, -⟩ := requireExecutionOwner_eq_ok.mp owned
      refine ⟨_, _, effect_write found ?_ fun _ => .inl rfl⟩
      exact .failed (by rw [← Table.key_of_get? found]; rfl) (.inr status) holds
  | markDispatchFailed commandId token errorCode errorSummary retryDelay now =>
    simp only [step, CommandStore.markDispatchFailed]
    split
    · exact ⟨_, _, effect_refl _ _⟩
    · rename_i command found
      split
      · rename_i owner
        simp only [Bool.and_eq_true, decide_eq_true_eq] at owner
        refine ⟨_, _, effect_write found ?_ fun _ => .inl rfl⟩
        exact .failed (by rw [← Table.key_of_get? found]; rfl) (.inl owner.1) owner.2
      · exact ⟨_, _, effect_refl _ _⟩

/-! ## Consequences of a move -/

section Moves

variable {store : CommandStore} {bound : Nat} {call : Call} {command moved : RuntimeCommand}

theorem Move.identity (move : Move store bound call command moved) :
    moved.id = command.id ∧ moved.transitionId = command.transitionId ∧ moved.sequence = command.sequence := by
  cases move <;> exact ⟨rfl, rfl, rfl⟩

/-- Only `markEffective` makes a command effective. -/
theorem Move.marked {store : CommandStore} {bound : Nat} {call : Call} {command moved : RuntimeCommand}
    (move : Move store bound call command moved) (effective : moved.status = .effective)
    (before : command.status ≠ .effective) : ∃ token now, call = .markEffective command.id token now := by
  cases move with
  | kept => exact absurd effective before
  | renewed => exact absurd effective before
  | effective _ _ _ _ marked => exact ⟨_, _, marked⟩
  | dispatched | started | failed => cases effective

/-- What a command asks for never changes. -/
theorem Move.subject (move : Move store bound call command moved) :
    moved.action = command.action ∧ moved.deploymentId = command.deploymentId ∧
      moved.idempotencyKey = command.idempotencyKey := by
  cases move <;> exact ⟨rfl, rfl, rfl⟩

/-- Nothing happens to an effective command. -/
theorem Move.eq_of_effective (move : Move store bound call command moved)
    (effective : command.status = .effective) : moved = command := by
  cases move with
  | kept => rfl
  | dispatched due => exact absurd effective due
  | started _ status | renewed _ status | effective _ status =>
    rw [effective] at status
    cases status
  | failed _ status =>
    rw [effective] at status
    rcases status with status | status <;> cases status

theorem Move.token (move : Move store bound call command moved) {token : Uuid}
    (held : moved.executionToken = some token) :
    command.executionToken = some token ∨ store.tokensDrawn ≤ token ∧ token < bound := by
  cases move with
  | kept | started | renewed => exact .inl held
  | dispatched _ _ _ fresh drawn =>
    cases held
    exact .inr ⟨fresh, drawn⟩
  | effective | failed => cases held

/-- A dispatched row was dispatched before with the same token, or its token is new. -/
theorem Move.dispatched_before (move : Move store bound call command moved) {token : Uuid}
    (held : moved.executionToken = some token) (status : moved.status = .dispatched) :
    command.executionToken = some token ∧ command.status = .dispatched ∨ store.tokensDrawn ≤ token := by
  cases move with
  | kept => exact .inl ⟨held, status⟩
  | dispatched _ _ _ fresh =>
    cases held
    exact .inr fresh
  | renewed => exact .inl ⟨held, status⟩
  | started | effective | failed => cases status

/-- Dispatched, running and effective commands are past the ordering check. -/
def Engaged (command : RuntimeCommand) : Prop :=
  command.status = .dispatched ∨ command.status = .running ∨ command.status = .effective

theorem Move.free (move : Move store bound call command moved) (engaged : Engaged moved)
    (already : Engaged command → store.hasPredecessor command = false) :
    store.hasPredecessor command = false := by
  cases move with
  | kept => exact already engaged
  | dispatched _ _ free | started _ _ _ free | effective _ _ _ free => exact free
  | renewed _ status => exact already (.inr (.inl status))
  | failed => rcases engaged with status | status | status <;> cases status

theorem Move.started_of_status (move : Move store bound call command moved)
    (before : command.status = .dispatched) (after : moved.status = .running) :
    ∃ token now, command.executionToken = some token ∧ call.presents = some (command.id, token, now) ∧
      moved.executionToken = some token := by
  cases move with
  | kept =>
    rw [before] at after
    cases after
  | started presented _ holds =>
    simp only [holdsToken, Bool.and_eq_true, decide_eq_true_eq] at holds
    exact ⟨_, _, holds.1, presented, holds.1⟩
  | renewed _ status =>
    rw [before] at status
    cases status
  | dispatched | effective | failed => cases after

end Moves

section Effects

variable {store next : CommandStore} {call : Call} {rewrite : RuntimeCommand → RuntimeCommand}
  {added : List RuntimeCommand}

theorem Effect.mem_iff (effect : Effect store next call rewrite added) {row : RuntimeCommand} :
    row ∈ next.commands ↔ (∃ command ∈ store.commands, row = rewrite command) ∨ row ∈ added := by
  rw [← Table.mem_rows, effect.rows, List.mem_append, List.mem_map]
  simp only [Table.mem_rows, eq_comm]

theorem Effect.get? (effect : Effect store next call rewrite added) {command : RuntimeCommand}
    (member : command ∈ store.commands) : next.commands.get? command.id = some (rewrite command) := by
  rw [Table.get?_eq_some]
  exact ⟨effect.mem_iff.mpr (.inl ⟨command, member, rfl⟩), (effect.moves command member).identity.1⟩

theorem Effect.added_above (effect : Effect store next call rewrite added) {command new : RuntimeCommand}
    (member : command ∈ store.commands) (newMember : new ∈ added)
    (same : command.transitionId = new.transitionId) : command.sequence < new.sequence := by
  have allowed := (effect.fresh new newMember).2.2.2
  simp only [identityAllows, Bool.not_eq_true', Table.exists_eq_false] at allowed
  have below := allowed command member
  simp only [same, Bool.or_eq_false_iff, decide_true, Bool.true_and, decide_eq_false_iff_not] at below
  omega

end Effects

/-! ## The invariant -/

/-- Commands of one transition are numbered in creation order, an engaged command has only effective
predecessors, and no two rows hold the same token. -/
structure Ordered (store : CommandStore) : Prop where
  creation : store.commands.rows.Pairwise fun earlier later =>
    earlier.transitionId = later.transitionId → earlier.sequence < later.sequence
  predecessors : ∀ command ∈ store.commands, Engaged command → store.hasPredecessor command = false
  tokensBelow : ∀ command ∈ store.commands, ∀ token, command.executionToken = some token →
    token < store.tokensDrawn
  tokensApart : ∀ command ∈ store.commands, ∀ other ∈ store.commands, ∀ token,
    command.executionToken = some token → other.executionToken = some token → command = other

theorem ordered_empty : Ordered CommandStore.empty where
  creation := List.Pairwise.nil
  predecessors _ member := by cases member
  tokensBelow _ member := by cases member
  tokensApart _ member := by cases member

section Preservation

variable {store next : CommandStore} {call : Call} {rewrite : RuntimeCommand → RuntimeCommand}
  {added : List RuntimeCommand}

theorem Effect.creation (effect : Effect store next call rewrite added) (ordered : Ordered store) :
    next.commands.rows.Pairwise fun earlier later =>
      earlier.transitionId = later.transitionId → earlier.sequence < later.sequence := by
  rw [effect.rows, List.pairwise_append]
  refine ⟨?_, ?_, ?_⟩
  · rw [List.pairwise_map]
    refine ordered.creation.imp_of_mem ?_
    intro earlier later earlierMember laterMember below
    obtain ⟨-, transition, sequence⟩ := (effect.moves earlier earlierMember).identity
    obtain ⟨-, laterTransition, laterSequence⟩ := (effect.moves later laterMember).identity
    rw [transition, sequence, laterTransition, laterSequence]
    exact below
  · cases shape : added with
    | nil => exact List.Pairwise.nil
    | cons new rest =>
      have single := (effect.fresh new (by simp [shape])).2.2.1
      rw [shape] at single
      rw [single]
      exact List.pairwise_singleton _ _
  · intro moved movedMember new newMember same
    obtain ⟨command, member, rfl⟩ := List.mem_map.mp movedMember
    obtain ⟨-, transition, sequence⟩ := (effect.moves command member).identity
    rw [sequence]
    exact effect.added_above member newMember (transition.symm.trans same)

theorem Effect.predecessors (effect : Effect store next call rewrite added) (ordered : Ordered store) :
    ∀ command ∈ next.commands, Engaged command → next.hasPredecessor command = false := by
  intro row member engaged
  rcases effect.mem_iff.mp member with ⟨command, commandMember, rfl⟩ | new
  · have move := effect.moves command commandMember
    have free := move.free engaged (ordered.predecessors command commandMember)
    rw [hasPredecessor_eq_false] at free ⊢
    obtain ⟨-, transition, sequence⟩ := move.identity
    rw [transition, sequence]
    intro predecessor predecessorMember same lower
    rcases effect.mem_iff.mp predecessorMember with ⟨old, oldMember, rfl⟩ | new
    · have oldMove := effect.moves old oldMember
      obtain ⟨-, oldTransition, oldSequence⟩ := oldMove.identity
      have effective := free old oldMember (oldTransition.symm.trans same) (oldSequence ▸ lower)
      rw [oldMove.eq_of_effective effective]
      exact effective
    · have above := effect.added_above commandMember new same.symm
      omega
  · have pending := (effect.fresh row new).1
    rcases engaged with status | status | status <;> rw [pending] at status <;> cases status

theorem Effect.tokensBelow (effect : Effect store next call rewrite added) (ordered : Ordered store) :
    ∀ command ∈ next.commands, ∀ token, command.executionToken = some token → token < next.tokensDrawn := by
  intro row member token held
  rcases effect.mem_iff.mp member with ⟨command, commandMember, rfl⟩ | new
  · rcases (effect.moves command commandMember).token held with old | ⟨-, drawn⟩
    · exact lt_of_lt_of_le (ordered.tokensBelow command commandMember token old) effect.drawn
    · exact drawn
  · rw [(effect.fresh row new).2.1] at held
    cases held

theorem Effect.tokensApart (effect : Effect store next call rewrite added) (ordered : Ordered store) :
    ∀ command ∈ next.commands, ∀ other ∈ next.commands, ∀ token,
      command.executionToken = some token → other.executionToken = some token → command = other := by
  intro row member otherRow otherMember token held otherHeld
  rcases effect.mem_iff.mp member with ⟨command, commandMember, rfl⟩ | new
  · rcases effect.mem_iff.mp otherMember with ⟨other, otherOld, rfl⟩ | new
    · -- A token that a row kept was drawn earlier, one that a row received is new.
      have kept := (effect.moves command commandMember).token held
      have otherKept := (effect.moves other otherOld).token otherHeld
      have below := ordered.tokensBelow command commandMember token
      have otherBelow := ordered.tokensBelow other otherOld token
      congr 1
      by_cases old : command.executionToken = some token
      · rcases otherKept with otherOldToken | ⟨fresh, -⟩
        · exact ordered.tokensApart command commandMember other otherOld token old otherOldToken
        · exact absurd (below old) (not_lt.mpr fresh)
      · by_cases otherOldToken : other.executionToken = some token
        · rcases kept with kept | ⟨fresh, -⟩
          · exact absurd kept old
          · exact absurd (otherBelow otherOldToken) (not_lt.mpr fresh)
        · exact effect.distinct command commandMember other otherOld token held otherHeld old otherOldToken
    · rw [(effect.fresh otherRow new).2.1] at otherHeld
      cases otherHeld
  · rw [(effect.fresh row new).2.1] at held
    cases held

end Preservation

theorem ordered_step (store : CommandStore) (call : Call) (ordered : Ordered store) :
    Ordered (step store call) := by
  obtain ⟨rewrite, added, effect⟩ := step_effect store call
  exact ⟨effect.creation ordered, effect.predecessors ordered, effect.tokensBelow ordered,
    effect.tokensApart ordered⟩

theorem ordered_run (calls : List Call) : Ordered (run step CommandStore.empty calls) :=
  run_invariant Ordered ordered_step ordered_empty calls

/-! ## Calls with a stale token -/

theorem requireExecutionOwner_stale {store : CommandStore} {commandId token : Uuid} {now : Instant}
    (stale : ∀ command, store.commands.get? commandId = some command → holdsToken command token now = false) :
    ∃ error, store.requireExecutionOwner commandId token now = .error error := by
  cases owned : store.requireExecutionOwner commandId token now with
  | error error => exact ⟨error, rfl⟩
  | ok command =>
    obtain ⟨found, -, holds, -⟩ := requireExecutionOwner_eq_ok.mp owned
    rw [stale command found] at holds
    cases holds

/-- A call made with anything but the row's current unexpired token leaves the table as it is. -/
theorem step_stale {store : CommandStore} {call : Call} {commandId token : Uuid} {now : Instant}
    (presented : call.presents = some (commandId, token, now))
    (stale : ∀ command, store.commands.get? commandId = some command → holdsToken command token now = false) :
    step store call = store := by
  cases call with
  | create | claimDueForDispatch => cases presented
  | claimForExecution _ _ lease _ =>
    cases presented
    simp only [step, CommandStore.claimForExecution]
    split
    · rfl
    · rename_i command found
      simp [stale command found]
  | renewExecution _ _ lease _ =>
    cases presented
    obtain ⟨error, refused⟩ := requireExecutionOwner_stale stale
    simp [step, CommandStore.renewExecution, refused]
  | markEffective =>
    cases presented
    obtain ⟨error, refused⟩ := requireExecutionOwner_stale stale
    simp [step, CommandStore.markEffective, refused, bind, Except.bind]
  | markFailed =>
    cases presented
    obtain ⟨error, refused⟩ := requireExecutionOwner_stale stale
    simp [step, CommandStore.markFailed, refused, bind, Except.bind]
  | markDispatchFailed _ _ errorCode errorSummary retryDelay _ =>
    cases presented
    simp only [step, CommandStore.markDispatchFailed]
    split
    · rfl
    · rename_i command found
      simp [stale command found]

/-! ## Effective commands stay -/

theorem effective_step {store : CommandStore} {command : RuntimeCommand} (member : command ∈ store.commands)
    (effective : command.status = .effective) (call : Call) : command ∈ (step store call).commands := by
  obtain ⟨rewrite, added, effect⟩ := step_effect store call
  have unchanged := (effect.moves command member).eq_of_effective effective
  exact effect.mem_iff.mpr (.inl ⟨command, member, unchanged.symm⟩)

theorem effective_run {store : CommandStore} {command : RuntimeCommand} (member : command ∈ store.commands)
    (effective : command.status = .effective) (calls : List Call) :
    command ∈ (run step store calls).commands :=
  run_invariant (fun store : CommandStore => command ∈ store.commands)
    (fun _ call member => effective_step member effective call) member calls

/-! ## Events -/

/-- The rows that a call takes from one status to another. -/
def moved (before after : RuntimeCommandStatus → Bool) (store : CommandStore) (call : Call) :
    List RuntimeCommand :=
  store.commands.rows.filter fun command =>
    before command.status && ((step store call).commands.get? command.id).any fun row => after row.status

theorem mem_moved {before after : RuntimeCommandStatus → Bool} {store : CommandStore} {call : Call}
    {rewrite : RuntimeCommand → RuntimeCommand} {added : List RuntimeCommand}
    (effect : Effect store (step store call) call rewrite added) {command : RuntimeCommand} :
    command ∈ moved before after store call ↔ command ∈ store.commands ∧ before command.status = true ∧
      after (rewrite command).status = true := by
  simp only [moved, List.mem_filter, Table.mem_rows, Bool.and_eq_true]
  constructor
  · rintro ⟨member, status, next⟩
    rw [effect.get? member] at next
    exact ⟨member, status, by simpa using next⟩
  · rintro ⟨member, status, next⟩
    rw [effect.get? member]
    exact ⟨member, status, by simpa using next⟩

theorem moved_nodup (before after : RuntimeCommandStatus → Bool) (store : CommandStore) (call : Call) :
    (moved before after store call).Nodup :=
  (List.Nodup.of_map _ store.commands.unique).filter _

/-- The tokens of the commands that a call takes from `DISPATCHED` to `RUNNING`. -/
def starts (store : CommandStore) (call : Call) : List (Option Uuid) :=
  (moved (· = .dispatched) (· = .running) store call).map RuntimeCommand.executionToken

/-- The commands that a call makes effective. -/
def takesEffect (store : CommandStore) (call : Call) : List Uuid :=
  (moved (· ≠ .effective) (· = .effective) store call).map RuntimeCommand.id

theorem mem_starts {store : CommandStore} {call : Call} {rewrite : RuntimeCommand → RuntimeCommand}
    {added : List RuntimeCommand} (effect : Effect store (step store call) call rewrite added)
    {event : Option Uuid} (member : event ∈ starts store call) :
    ∃ command ∈ store.commands, ∃ token, event = some token ∧ command.status = .dispatched ∧
      (rewrite command).status = .running ∧ command.executionToken = some token ∧
      (rewrite command).executionToken = some token := by
  obtain ⟨command, started, rfl⟩ := List.mem_map.mp member
  obtain ⟨commandMember, before, after⟩ := (mem_moved effect).mp started
  simp only [decide_eq_true_eq] at before after
  obtain ⟨token, now, held, -, kept⟩ := (effect.moves command commandMember).started_of_status before after
  exact ⟨command, commandMember, token, held, before, after, held, kept⟩

/-- A token is spent once it was drawn and no dispatched row holds it. -/
def TokenSpent (store : CommandStore) (event : Option Uuid) : Prop :=
  ∃ token, event = some token ∧ token < store.tokensDrawn ∧
    ∀ command ∈ store.commands, command.executionToken = some token → command.status ≠ .dispatched

theorem tokenSpent_stable (store : CommandStore) (call : Call) (event : Option Uuid)
    (spent : TokenSpent store event) : TokenSpent (step store call) event := by
  obtain ⟨token, rfl, drawn, notDispatched⟩ := spent
  obtain ⟨rewrite, added, effect⟩ := step_effect store call
  refine ⟨token, rfl, lt_of_lt_of_le drawn effect.drawn, ?_⟩
  intro row member held status
  rcases effect.mem_iff.mp member with ⟨command, commandMember, rfl⟩ | new
  · rcases (effect.moves command commandMember).dispatched_before held status with ⟨old, before⟩ | fresh
    · exact notDispatched command commandMember old before
    · exact absurd drawn (not_lt.mpr fresh)
  · rw [(effect.fresh row new).2.1] at held
    cases held

theorem tokenSpent_of_starts (store : CommandStore) (call : Call) (event : Option Uuid)
    (ordered : Ordered store) (observed : event ∈ starts store call) : TokenSpent (step store call) event := by
  obtain ⟨rewrite, added, effect⟩ := step_effect store call
  obtain ⟨command, member, token, rfl, -, running, held, kept⟩ := mem_starts effect observed
  refine ⟨token, rfl, lt_of_lt_of_le (ordered.tokensBelow command member token held) effect.drawn, ?_⟩
  intro row rowMember rowHeld status
  have same : row = rewrite command :=
    effect.tokensApart ordered row rowMember _ (effect.mem_iff.mpr (.inl ⟨command, member, rfl⟩)) token
      rowHeld kept
  rw [same, running] at status
  cases status

/-- No token takes a command from `DISPATCHED` to `RUNNING` twice. -/
theorem starts_nodup (calls : List Call) : (events step starts CommandStore.empty calls).Nodup := by
  refine events_nodup Ordered TokenSpent ordered_step ?_ ?_ tokenSpent_of_starts
    (fun store call event _ => tokenSpent_stable store call event) ordered_empty calls
  · intro store call ordered
    obtain ⟨rewrite, added, effect⟩ := step_effect store call
    refine (moved_nodup _ _ store call).map_on ?_
    intro command commandMoved other otherMoved same
    obtain ⟨member, before, after⟩ := (mem_moved effect).mp commandMoved
    obtain ⟨otherMember, -, -⟩ := (mem_moved effect).mp otherMoved
    simp only [decide_eq_true_eq] at before after
    obtain ⟨token, -, held, -, -⟩ := (effect.moves command member).started_of_status before after
    exact ordered.tokensApart command member other otherMember token held (same ▸ held)
  · rintro store call event ordered observed ⟨token, rfl, -, notDispatched⟩
    obtain ⟨rewrite, added, effect⟩ := step_effect store call
    obtain ⟨command, member, _, same, dispatched, -, held, -⟩ := mem_starts effect observed
    cases same
    exact notDispatched command member held dispatched

def TookEffect (store : CommandStore) (commandId : Uuid) : Prop :=
  ∃ command ∈ store.commands, command.id = commandId ∧ command.status = .effective

theorem mem_takesEffect {store : CommandStore} {call : Call} {commandId : Uuid}
    (observed : commandId ∈ takesEffect store call) :
    ¬ TookEffect store commandId ∧ TookEffect (step store call) commandId := by
  obtain ⟨rewrite, added, effect⟩ := step_effect store call
  obtain ⟨command, effective, rfl⟩ := List.mem_map.mp observed
  obtain ⟨member, before, after⟩ := (mem_moved effect).mp effective
  simp only [decide_eq_true_eq] at before after
  refine ⟨?_, rewrite command, effect.mem_iff.mpr (.inl ⟨command, member, rfl⟩),
    (effect.moves command member).identity.1, after⟩
  rintro ⟨row, rowMember, same, effective⟩
  exact before (Table.eq_of_key rowMember member same ▸ effective)

/-- No command takes effect twice. -/
theorem takesEffect_nodup (calls : List Call) :
    (events step takesEffect CommandStore.empty calls).Nodup := by
  refine events_nodup Ordered TookEffect ordered_step ?_ (fun _ _ _ _ observed => (mem_takesEffect observed).1)
    (fun _ _ _ _ observed => (mem_takesEffect observed).2) ?_ ordered_empty calls
  · intro store call _
    refine (moved_nodup _ _ store call).map_on ?_
    intro command commandMoved other otherMoved same
    exact Table.eq_of_key (List.mem_filter.mp commandMoved).1 (List.mem_filter.mp otherMoved).1 same
  · rintro store call commandId _ ⟨command, member, same, effective⟩
    exact ⟨command, effective_step member effective call, same, effective⟩

/-! ## The protocol -/

/-- In every run: engaged commands have only effective predecessors; a token starts at most one
execution and a stale token does nothing; effective commands never change again, so each takes effect
at most once; commands of one transition are numbered in creation order. -/
theorem runtime_command_protocol (calls : List Call) :
    (∀ command ∈ (run step CommandStore.empty calls).commands,
      command.status = .dispatched ∨ command.status = .running ∨ command.status = .effective →
      ∀ predecessor ∈ (run step CommandStore.empty calls).commands,
        predecessor.transitionId = command.transitionId → predecessor.sequence < command.sequence →
        predecessor.status = .effective) ∧
    (events step starts CommandStore.empty calls).Nodup ∧
    (∀ call commandId token now, call.presents = some (commandId, token, now) →
      (∀ command, (run step CommandStore.empty calls).commands.get? commandId = some command →
        holdsToken command token now = false) →
      step (run step CommandStore.empty calls) call = run step CommandStore.empty calls) ∧
    (∀ command ∈ (run step CommandStore.empty calls).commands, command.status = .effective →
      ∀ later, command ∈ (run step CommandStore.empty (calls ++ later)).commands) ∧
    (events step takesEffect CommandStore.empty calls).Nodup ∧
    (run step CommandStore.empty calls).commands.rows.Pairwise fun earlier later =>
      earlier.transitionId = later.transitionId → earlier.sequence < later.sequence := by
  have ordered := ordered_run calls
  refine ⟨?_, starts_nodup calls, ?_, ?_, takesEffect_nodup calls, ordered.creation⟩
  · intro command member engaged
    exact hasPredecessor_eq_false.mp (ordered.predecessors command member engaged)
  · intro call commandId token now presented stale
    exact step_stale presented stale
  · intro command member effective later
    rw [run_append]
    exact effective_run member effective later

end Mcplica.Deployments.CommandProtocol
