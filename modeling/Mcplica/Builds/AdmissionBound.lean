import Mcplica.Builds.Lifecycle

/-! # The admission bound

No more builds hold an admission token than the configured concurrency, if the renewals of one token
follow each other. Renewals do not take the dispatch lock, so the argument has to survive them: a renewal
then never shortens a lease, and so a row that was not expired when the claiming transaction looked is
still counted by it. Where two renewals of one token overlap, the later one to commit may shorten it. -/

namespace Mcplica.Builds

open Mcplica.Domain Mcplica.Library AdmissionSystem

/-! ## The invariant -/

/-- The build holds a token and is not finished. -/
def occupies (build : Build) : Bool :=
  build.admissionToken.isSome && !build.status.terminal

def occupiedOutside (builds : BuildTable) (cleared : List Uuid) : Nat :=
  builds.count fun build => occupies build && !cleared.contains build.id

/-- What the claiming transaction may rely on in each phase. -/
def PhaseSound (concurrency : Nat) (builds : BuildTable) (clock : Instant) : ClaimPhase → Prop
  | .begun now => now ≤ clock
  | .expired now cleared => now ≤ clock ∧ ∀ build ∈ builds, occupies build = true → build.id ∉ cleared →
      ∀ expires, build.admissionLeaseExpiresAt = some expires → now < expires
  | .counted now cleared available => now ≤ clock ∧ occupiedOutside builds cleared + available ≤ concurrency
  | .selected now cleared candidates =>
    now ≤ clock ∧ occupiedOutside builds cleared + candidates.length ≤ concurrency

structure Admitted (concurrency : Nat) (lease : Duration) (system : AdmissionSystem) : Prop where
  bound : system.builds.count occupies ≤ concurrency
  paired : ∀ build ∈ system.builds, build.admissionToken.isSome = build.admissionLeaseExpiresAt.isSome
  drawn : ∀ build ∈ system.builds, ∀ token, build.admissionToken = some token → token < system.tokensDrawn
  /-- Two builds never hold the same token. -/
  apart : ∀ build ∈ system.builds, ∀ other ∈ system.builds, ∀ token, build.admissionToken = some token →
    other.admissionToken = some token → build = other
  leases : ∀ build ∈ system.builds, ∀ expires, build.admissionLeaseExpiresAt = some expires →
    expires ≤ system.clock + lease
  readings : ∀ renewal ∈ system.renewals, renewal.now ≤ system.clock ∧ renewal.token < system.tokensDrawn
  sequential : (system.renewals.map Renewal.token).Nodup
  /-- A renewal in flight has read the clock after the lease it renews was given out. -/
  renewing : ∀ renewal ∈ system.renewals, ∀ build ∈ system.builds, build.admissionToken = some renewal.token →
    ∀ expires, build.admissionLeaseExpiresAt = some expires → expires ≤ renewal.now + lease
  phase : ∀ phase, system.claim = some phase → PhaseSound concurrency system.builds system.clock phase

theorem admitted_empty (concurrency : Nat) (lease : Duration) : Admitted concurrency lease AdmissionSystem.empty where
  bound := Nat.zero_le _
  paired _ member := by cases member
  drawn _ member := by cases member
  apart _ member := by cases member
  leases _ member := by cases member
  readings _ member := by cases member
  sequential := List.nodup_nil
  renewing _ member := by cases member
  phase _ running := by cases running

variable {concurrency : Nat} {lease : Duration} {system : AdmissionSystem}

/-! ## Steps that give out no token -/

/-- A row that gains no token, whose lease is not shortened, and whose lease the renewals in flight may
still renew. -/
structure Steady (lease : Duration) (clock : Instant) (renewals : List Renewal) (old new : Build) : Prop where
  sameId : new.id = old.id
  token : ∀ token, new.admissionToken = some token → old.admissionToken = some token
  paired : new.admissionToken.isSome = new.admissionLeaseExpiresAt.isSome
  occupies : occupies new = true → occupies old = true
  extended : ∀ expires, new.admissionLeaseExpiresAt = some expires →
    ∃ earlier, old.admissionLeaseExpiresAt = some earlier ∧ earlier ≤ expires
  capped : ∀ expires, new.admissionLeaseExpiresAt = some expires → expires ≤ clock + lease
  renewing : ∀ renewal ∈ renewals, new.admissionToken = some renewal.token →
    ∀ expires, new.admissionLeaseExpiresAt = some expires → expires ≤ renewal.now + lease

/-- What keeps the token and the lease of a row, or drops both, is steady. -/
theorem Admitted.steady (admitted : Admitted concurrency lease system) {old new : Build}
    (member : old ∈ system.builds) (sameId : new.id = old.id) (status : old.status.terminal = true →
      new.status.terminal = true)
    (held : new.admissionToken = old.admissionToken ∧ new.admissionLeaseExpiresAt = old.admissionLeaseExpiresAt ∨
      new.admissionToken = none ∧ new.admissionLeaseExpiresAt = none) :
    Steady lease system.clock system.renewals old new := by
  rcases held with ⟨token, expires⟩ | ⟨token, expires⟩
  · refine ⟨sameId, ?_, ?_, ?_, ?_, ?_, ?_⟩
    · exact fun _ holds => token ▸ holds
    · rw [token, expires]
      exact admitted.paired old member
    · intro occupied
      unfold Builds.occupies at occupied ⊢
      rw [token] at occupied
      cases terminal : old.status.terminal with
      | true => simp [status terminal] at occupied
      | false => simpa using (Bool.and_eq_true _ _ ▸ occupied).1
    · exact fun instant holds => ⟨instant, expires ▸ holds, le_refl _⟩
    · exact fun instant holds => admitted.leases old member instant (expires ▸ holds)
    · exact fun renewal renewalMember holds instant leased =>
        admitted.renewing renewal renewalMember old member (token ▸ holds) instant (expires ▸ leased)
  · refine ⟨sameId, ?_, ?_, ?_, ?_, ?_, ?_⟩
    · intro _ holds
      rw [token] at holds
      cases holds
    · rw [token, expires]
      rfl
    · intro occupied
      simp [Builds.occupies, token] at occupied
    · intro _ holds
      rw [expires] at holds
      cases holds
    · intro _ holds
      rw [expires] at holds
      cases holds
    · intro _ _ holds
      rw [token] at holds
      cases holds

theorem phaseSound_rewrite {builds next : BuildTable} {clock : Instant} {renewals : List Renewal}
    {rewrite : Build → Build} {added : List Build} (rows : next.rows = builds.rows.map rewrite ++ added)
    (steady : ∀ build ∈ builds, Steady lease clock renewals build (rewrite build))
    (fresh : ∀ build ∈ added, build.admissionToken = none) {phase : ClaimPhase}
    (sound : PhaseSound concurrency builds clock phase) : PhaseSound concurrency next clock phase := by
  have outside : ∀ cleared, occupiedOutside next cleared ≤ occupiedOutside builds cleared := by
    intro cleared
    refine Table.count_le_of_rewrite rows ?_ ?_
    · intro build member
      simp only [Bool.and_eq_true, (steady build member).sameId]
      exact fun ⟨occupied, free⟩ => ⟨(steady build member).occupies occupied, free⟩
    · intro build member
      simp [occupies, fresh build member]
  cases phase with
  | begun now => exact sound
  | expired now cleared =>
    refine ⟨sound.1, ?_⟩
    intro build member occupied outsideCleared expires leased
    rw [← Table.mem_rows, rows] at member
    rcases List.mem_append.mp member with moved | new
    · obtain ⟨old, oldMember, rfl⟩ := List.mem_map.mp moved
      have kept := steady old oldMember
      obtain ⟨earlier, wasLeased, le⟩ := kept.extended expires leased
      exact lt_of_lt_of_le (sound.2 old oldMember (kept.occupies occupied) (kept.sameId ▸ outsideCleared) earlier
        wasLeased) le
    · simp [occupies, fresh build new] at occupied
  | counted now cleared available =>
    exact ⟨sound.1, le_trans (Nat.add_le_add_right (outside cleared) _) sound.2⟩
  | selected now cleared candidates =>
    exact ⟨sound.1, le_trans (Nat.add_le_add_right (outside cleared) _) sound.2⟩

theorem Admitted.rewrite (admitted : Admitted concurrency lease system) {next : BuildTable}
    {renewals : List Renewal} (rewrite : Build → Build) (added : List Build)
    (rows : next.rows = system.builds.rows.map rewrite ++ added)
    (steady : ∀ build ∈ system.builds, Steady lease system.clock renewals build (rewrite build))
    (fresh : ∀ build ∈ added, build.admissionToken = none ∧ build.admissionLeaseExpiresAt = none)
    (fewer : renewals.Sublist system.renewals) :
    Admitted concurrency lease { system with builds := next, renewals } := by
  have cases : ∀ build ∈ next, (∃ old ∈ system.builds, build = rewrite old ∧
      Steady lease system.clock renewals old build) ∨
      build.admissionToken = none ∧ build.admissionLeaseExpiresAt = none := by
    intro build member
    rw [← Table.mem_rows, rows] at member
    rcases List.mem_append.mp member with moved | new
    · obtain ⟨old, oldMember, rfl⟩ := List.mem_map.mp moved
      exact .inl ⟨old, oldMember, rfl, steady old oldMember⟩
    · exact .inr (fresh build new)
  refine ⟨?_, ?_, ?_, ?_, ?_, ?_, ?_, ?_, ?_⟩
  · refine le_trans (Table.count_le_of_rewrite rows (fun build member => (steady build member).occupies) ?_)
      admitted.bound
    intro build member
    simp [occupies, (fresh build member).1]
  · intro build member
    rcases cases build member with ⟨old, -, -, kept⟩ | ⟨token, expires⟩
    · exact kept.paired
    · rw [token, expires]
      rfl
  · intro build member token holds
    rcases cases build member with ⟨old, oldMember, -, kept⟩ | ⟨none, -⟩
    · exact admitted.drawn old oldMember token (kept.token token holds)
    · rw [none] at holds
      cases holds
  · intro build member other otherMember token holds otherHolds
    rcases cases build member with ⟨old, oldMember, same, kept⟩ | ⟨none, -⟩
    · rcases cases other otherMember with ⟨oldOther, oldOtherMember, otherSame, otherKept⟩ | ⟨none, -⟩
      · have equal := admitted.apart old oldMember oldOther oldOtherMember token (kept.token token holds)
          (otherKept.token token otherHolds)
        rw [same, otherSame, equal]
      · rw [none] at otherHolds
        cases otherHolds
    · rw [none] at holds
      cases holds
  · intro build member expires leased
    rcases cases build member with ⟨old, -, -, kept⟩ | ⟨-, none⟩
    · exact kept.capped expires leased
    · rw [none] at leased
      cases leased
  · exact fun renewal member => admitted.readings renewal (fewer.subset member)
  · exact admitted.sequential.sublist (fewer.map _)
  · intro renewal renewalMember build member holds expires leased
    rcases cases build member with ⟨old, -, -, kept⟩ | ⟨none, -⟩
    · exact kept.renewing renewal renewalMember holds expires leased
    · rw [none] at holds
      cases holds
  · exact fun phase running =>
      phaseSound_rewrite rows steady (fun build member => (fresh build member).1) (admitted.phase phase running)

theorem transitionValues_held (expected target : BuildStatus) (now : Instant) (build : Build) :
    ((transitionValues expected target now build).admissionToken = build.admissionToken ∧
      (transitionValues expected target now build).admissionLeaseExpiresAt = build.admissionLeaseExpiresAt ∨
    (transitionValues expected target now build).admissionToken = none ∧
      (transitionValues expected target now build).admissionLeaseExpiresAt = none) := by
  simp only [transitionValues]
  by_cases terminal : target.terminal = true
  · rw [if_pos terminal]
    exact .inr ⟨rfl, rfl⟩
  · rw [if_neg terminal]
    split <;> exact .inl ⟨rfl, rfl⟩

/-- Only a committed claim and a finished renewal give out a lease. -/
theorem BuildMove.held {action : Action} {old new : Build} (move : BuildMove action old new)
    (notClaim : action ≠ .claimCommit) (notRenewal : ∀ renewal, action ≠ .renewFinish renewal) :
    (new.admissionToken = old.admissionToken ∧ new.admissionLeaseExpiresAt = old.admissionLeaseExpiresAt ∨
      new.admissionToken = none ∧ new.admissionLeaseExpiresAt = none) := by
  cases move with
  | claimed _ commits => exact absurd commits notClaim
  | renewed renews => exact absurd renews (notRenewal _)
  | released | failed | cancelled => exact .inr ⟨rfl, rfl⟩
  | @advanced expected target now => exact transitionValues_held expected target now old
  | kept | enqueued | parsed | indexed | analyzed | compiled | packaged | cancelling => exact .inl ⟨rfl, rfl⟩

theorem StatusLaw.terminal {old new : Build} (law : StatusLaw old new) (terminal : old.status.terminal = true) :
    new.status.terminal = true := by
  rw [law.absorbing terminal]
  exact terminal

/-- The actions that write builds, other than the two that give out leases. -/
theorem Admitted.unadmitting (admitted : Admitted concurrency lease system) {action : Action} {next : BuildTable}
    {rewrite : Build → Build} {added : List Build} (effect : BuildsEffect system.builds next action rewrite added)
    (notClaim : action ≠ .claimCommit) (notRenewal : ∀ renewal, action ≠ .renewFinish renewal) :
    Admitted concurrency lease (system.withBuilds next) := by
  refine admitted.rewrite rewrite added effect.rows ?_ ?_ (List.Sublist.refl _)
  · intro build member
    have move := effect.moves build member
    exact admitted.steady member move.sameId move.statusLaw.terminal (move.held notClaim notRenewal)
  · intro build member
    obtain ⟨new, sequence, rfl⟩ := effect.fresh build member
    exact ⟨rfl, rfl⟩

/-! ## Renewals -/

theorem holdsLease_spec {build : Build} {token : Uuid} {now : Instant} (holds : holdsLease build token now = true) :
    build.admissionToken = some token ∧
      ∃ expires, build.admissionLeaseExpiresAt = some expires ∧ now < expires := by
  unfold holdsLease at holds
  simp only [Bool.and_eq_true, decide_eq_true_eq] at holds
  refine ⟨holds.1, ?_⟩
  cases expires : build.admissionLeaseExpiresAt with
  | none => simp [expires] at holds
  | some instant => exact ⟨instant, rfl, by simpa [expires] using holds.2⟩

/-- No other renewal in flight is for the token of this one. -/
theorem Admitted.token_ne_of_mem_erase (admitted : Admitted concurrency lease system) {renewal other : Renewal}
    (member : renewal ∈ system.renewals) (otherMember : other ∈ system.renewals.erase renewal) :
    other.token ≠ renewal.token := by
  obtain ⟨different, isOther⟩ := (admitted.sequential.of_map _).mem_erase_iff.mp otherMember
  exact fun sameToken => different (List.inj_on_of_nodup_map admitted.sequential isOther member sameToken)

/-- A renewal that is accepted renews the row of its token, and no other renewal is for that token. -/
theorem Admitted.finishRenewal (admitted : Admitted concurrency lease system) {renewal : Renewal}
    (member : renewal ∈ system.renewals) : Admitted concurrency lease (finishRenewal lease system renewal) := by
  have fewer : (system.renewals.erase renewal).Sublist system.renewals := List.erase_sublist
  have unchanged : Admitted concurrency lease
      { system with builds := system.builds, renewals := system.renewals.erase renewal } := by
    refine admitted.rewrite id [] (by simp) ?_ (fun _ none => by cases none) fewer
    intro build buildMember
    have steady := admitted.steady buildMember rfl id (.inl ⟨rfl, rfl⟩)
    exact { steady with renewing := fun other otherMember => steady.renewing other (fewer.subset otherMember) }
  unfold AdmissionSystem.finishRenewal beginOrRenew
  split
  · exact unchanged
  · rename_i build found
    split
    · rename_i owned
      split
      · exact unchanged
      · simp only [Bool.and_eq_true] at owned
        obtain ⟨holds, earlier, leased, -⟩ := holdsLease_spec owned.1
        refine admitted.rewrite _ [] (List.append_nil _).symm ?_ (fun _ none => by cases none) fewer
        intro row rowMember
        split
        · rename_i same
          have rowIs : row = build := by
            apply Table.eq_of_key rowMember (Table.mem_of_get? found)
            exact (of_decide_eq_true same).trans (Table.key_of_get? found).symm
          subst rowIs
          refine ⟨rfl, fun _ => id, ?_, id, ?_, ?_, ?_⟩
          · change row.admissionToken.isSome = true
            rw [holds]
            rfl
          · intro expires renewed
            cases renewed
            exact ⟨earlier, leased, admitted.renewing renewal member row rowMember holds earlier leased⟩
          · intro expires renewed
            cases renewed
            exact Int.add_le_add_right (admitted.readings renewal member).1 lease
          · intro other otherMember otherHolds
            have sameToken : row.admissionToken = some other.token := otherHolds
            rw [holds, Option.some.injEq] at sameToken
            exact absurd sameToken.symm (admitted.token_ne_of_mem_erase member otherMember)
        · have steady := admitted.steady rowMember rfl id (.inl ⟨rfl, rfl⟩)
          exact { steady with renewing := fun other otherMember => steady.renewing other (fewer.subset otherMember) }
    · exact unchanged

theorem Admitted.renewAbort (admitted : Admitted concurrency lease system) (renewal : Renewal) :
    Admitted concurrency lease { system with renewals := system.renewals.erase renewal } := by
  have fewer : (system.renewals.erase renewal).Sublist system.renewals := List.erase_sublist
  exact { admitted with
    readings := fun renewal member => admitted.readings renewal (fewer.subset member)
    sequential := admitted.sequential.sublist (fewer.map _)
    renewing := fun renewal member => admitted.renewing renewal (fewer.subset member) }

theorem Admitted.renewBegin (admitted : Admitted concurrency lease system) {buildId token : Uuid}
    (serialize : Bool) (drawn : token < system.tokensDrawn)
    (sequential : ∀ renewal ∈ system.renewals, renewal.token ≠ token) :
    Admitted concurrency lease
      { system with renewals := ⟨buildId, token, system.clock, serialize⟩ :: system.renewals } where
  bound := admitted.bound
  paired := admitted.paired
  drawn := admitted.drawn
  apart := admitted.apart
  leases := admitted.leases
  readings renewal member := by
    rcases List.mem_cons.mp member with rfl | older
    · exact ⟨le_refl _, drawn⟩
    · exact admitted.readings renewal older
  sequential := by
    rw [List.map_cons, List.nodup_cons]
    refine ⟨fun taken => ?_, admitted.sequential⟩
    obtain ⟨renewal, member, same⟩ := List.mem_map.mp taken
    exact sequential renewal member same
  renewing renewal member := by
    rcases List.mem_cons.mp member with rfl | older
    · exact fun build buildMember _ expires leased => admitted.leases build buildMember expires leased
    · exact admitted.renewing renewal older
  phase := admitted.phase

/-! ## The claiming transaction -/

theorem Admitted.withPhase (admitted : Admitted concurrency lease system) {phase : Option ClaimPhase}
    (sound : ∀ running, phase = some running → PhaseSound concurrency system.builds system.clock running) :
    Admitted concurrency lease { system with claim := phase } :=
  { admitted with phase := sound }

theorem phaseSound_expired (now : Instant) (current : now ≤ system.clock) :
    PhaseSound concurrency system.builds system.clock
      (.expired now ((system.builds.rows.filter (expirable now)).map Build.id)) := by
  refine ⟨current, ?_⟩
  intro build member occupied outside expires leased
  by_contra expired
  apply outside
  refine List.mem_map_of_mem (List.mem_filter.mpr ⟨member, ?_⟩)
  unfold occupies at occupied
  simp only [Bool.and_eq_true] at occupied
  simp [expirable, occupied.1, leased, not_lt.mp expired]

/-- Every occupied row that was not cleared is counted, since its lease is still longer than `now`. -/
theorem Admitted.phaseSound_counted (admitted : Admitted concurrency lease system) {now : Instant}
    {cleared : List Uuid} (sound : PhaseSound concurrency system.builds system.clock (.expired now cleared)) :
    PhaseSound concurrency system.builds system.clock
      (.counted now cleared (concurrency - countActive (system.view now cleared) now)) := by
  have counted : occupiedOutside system.builds cleared ≤ countActive (system.view now cleared) now := by
    refine Table.count_le_rewrite rfl ?_
    intro build member occupied
    simp only [Bool.and_eq_true, Bool.not_eq_true'] at occupied
    obtain ⟨isOccupied, outside⟩ := occupied
    simp only [outside, Bool.false_eq_true, if_false]
    have held := isOccupied
    unfold occupies at held
    simp only [Bool.and_eq_true] at held
    have paired := admitted.paired build member
    rw [held.1] at paired
    obtain ⟨expires, leased⟩ := Option.isSome_iff_exists.mp paired.symm
    have later := sound.2 build member isOccupied (by simpa using outside) expires leased
    simp [activeAt, held.1, held.2, leased, later]
  have bounded : occupiedOutside system.builds cleared ≤ concurrency := by
    refine le_trans (Table.count_mono ?_) admitted.bound
    intro build _ occupied
    rw [Bool.and_eq_true] at occupied
    exact occupied.1
  exact ⟨sound.1, by omega⟩

theorem phaseSound_selected {now : Instant} {cleared : List Uuid} {available : Nat} (locked : Uuid → Bool)
    (sound : PhaseSound concurrency system.builds system.clock (.counted now cleared available)) :
    PhaseSound concurrency system.builds system.clock
      (.selected now cleared (selectCandidates (system.view now cleared) available locked)) := by
  refine ⟨sound.1, le_trans (Nat.add_le_add_left ?_ _) sound.2⟩
  unfold selectCandidates
  rw [List.length_map]
  exact Table.length_select_le _ _ _ _

/-- The token and the lease of a row after the claim has committed. -/
theorem claimedRow_cases (system : AdmissionSystem) (lease : Duration) (now : Instant)
    (cleared candidates : List Uuid) (build : Build) :
    build.id ∈ candidates ∧
      (claimedRow system lease now cleared candidates build).admissionToken =
        some (system.tokensDrawn + candidates.idxOf build.id) ∧
      (claimedRow system lease now cleared candidates build).admissionLeaseExpiresAt = some (now + lease) ∨
    build.id ∉ candidates ∧ build.id ∈ cleared ∧
      (claimedRow system lease now cleared candidates build).admissionToken = none ∧
      (claimedRow system lease now cleared candidates build).admissionLeaseExpiresAt = none ∨
    build.id ∉ candidates ∧ build.id ∉ cleared ∧
      claimedRow system lease now cleared candidates build = build := by
  unfold claimedRow
  by_cases candidate : build.id ∈ candidates
  · left
    simp [candidate, claimValues]
  · by_cases isCleared : build.id ∈ cleared
    · right
      left
      simp [candidate, isCleared, releaseAdmission]
    · right
      right
      simp [candidate, isCleared]

theorem claimedRow_status (system : AdmissionSystem) (lease : Duration) (now : Instant)
    (cleared candidates : List Uuid) (build : Build) :
    (claimedRow system lease now cleared candidates build).status = build.status := by
  simp only [claimedRow]
  split <;> split <;> rfl

theorem Admitted.commitClaim (admitted : Admitted concurrency lease system) {now : Instant}
    {cleared candidates : List Uuid} (current : now ≤ system.clock)
    (fits : occupiedOutside system.builds cleared + candidates.length ≤ concurrency) :
    Admitted concurrency lease (commitClaim lease system now cleared candidates) := by
  have rows := commitClaim_rows system lease now cleared candidates
  have members : ∀ build ∈ (AdmissionSystem.commitClaim lease system now cleared candidates).builds,
      ∃ old ∈ system.builds, build = claimedRow system lease now cleared candidates old := by
    intro build member
    rw [← Table.mem_rows, rows] at member
    obtain ⟨old, oldMember, same⟩ := List.mem_map.mp member
    exact ⟨old, oldMember, same.symm⟩
  refine ⟨?_, ?_, ?_, ?_, ?_, ?_, admitted.sequential, ?_, fun _ running => by cases running⟩
  · -- An occupied row is a candidate or was occupied and not cleared.
    calc (AdmissionSystem.commitClaim lease system now cleared candidates).builds.count occupies
        ≤ system.builds.count (fun build => candidates.contains build.id ||
            (occupies build && !cleared.contains build.id)) := by
          refine Table.count_le_of_rewrite (by rw [rows, List.append_nil]) ?_ (fun _ member => by cases member)
          intro build _ occupied
          unfold occupies at occupied ⊢
          rw [claimedRow_status] at occupied
          rcases claimedRow_cases system lease now cleared candidates build with
            ⟨candidate, -⟩ | ⟨-, -, token, -⟩ | ⟨-, outside, same⟩
          · simp [candidate]
          · simp [token] at occupied
          · rw [same] at occupied
            simp [occupied, outside]
      _ ≤ system.builds.count (fun build => candidates.contains build.id) + occupiedOutside system.builds cleared :=
          Table.count_or_le _ _ _
      _ ≤ candidates.length + occupiedOutside system.builds cleared :=
          Nat.add_le_add_right (Table.count_keys_le system.builds candidates) _
      _ ≤ concurrency := by omega
  · intro build member
    obtain ⟨old, oldMember, rfl⟩ := members build member
    rcases claimedRow_cases system lease now cleared candidates old with
      ⟨-, token, leased⟩ | ⟨-, -, token, leased⟩ | ⟨-, -, same⟩
    · rw [token, leased]
      rfl
    · rw [token, leased]
      rfl
    · rw [same]
      exact admitted.paired old oldMember
  · intro build member token holds
    obtain ⟨old, oldMember, rfl⟩ := members build member
    rcases claimedRow_cases system lease now cleared candidates old with
      ⟨candidate, drawn, -⟩ | ⟨-, -, none, -⟩ | ⟨-, -, same⟩
    · rw [drawn, Option.some.injEq] at holds
      rw [← holds]
      exact Nat.add_lt_add_left (List.idxOf_lt_length_of_mem candidate) _
    · rw [none] at holds
      cases holds
    · rw [same] at holds
      exact lt_of_lt_of_le (admitted.drawn old oldMember token holds) (Nat.le_add_right _ _)
  · intro build member other otherMember token holds otherHolds
    obtain ⟨old, oldMember, rfl⟩ := members build member
    obtain ⟨oldOther, oldOtherMember, rfl⟩ := members other otherMember
    rcases claimedRow_cases system lease now cleared candidates old with
      ⟨candidate, drawn, -⟩ | ⟨-, -, none, -⟩ | ⟨-, -, same⟩
    · rcases claimedRow_cases system lease now cleared candidates oldOther with
        ⟨-, otherDrawn, -⟩ | ⟨-, -, none, -⟩ | ⟨-, -, otherSame⟩
      · rw [drawn] at holds
        rw [otherDrawn, ← holds, Option.some.injEq] at otherHolds
        have sameId := (List.idxOf_inj candidate).mp (Nat.add_left_cancel otherHolds).symm
        rw [Table.eq_of_key oldMember oldOtherMember sameId]
      · rw [none] at otherHolds
        cases otherHolds
      · rw [otherSame] at otherHolds
        have known := admitted.drawn oldOther oldOtherMember token otherHolds
        rw [drawn, Option.some.injEq] at holds
        exact absurd known (by rw [← holds]; exact not_lt.mpr (Nat.le_add_right _ _))
    · rw [none] at holds
      cases holds
    · rw [same] at holds
      have known := admitted.drawn old oldMember token holds
      rcases claimedRow_cases system lease now cleared candidates oldOther with
        ⟨-, otherDrawn, -⟩ | ⟨-, -, none, -⟩ | ⟨-, -, otherSame⟩
      · rw [otherDrawn, Option.some.injEq] at otherHolds
        exact absurd known (by rw [← otherHolds]; exact not_lt.mpr (Nat.le_add_right _ _))
      · rw [none] at otherHolds
        cases otherHolds
      · rw [otherSame] at otherHolds
        rw [admitted.apart old oldMember oldOther oldOtherMember token holds otherHolds]
  · intro build member expires leased
    obtain ⟨old, oldMember, rfl⟩ := members build member
    rcases claimedRow_cases system lease now cleared candidates old with
      ⟨-, -, claimed⟩ | ⟨-, -, -, none⟩ | ⟨-, -, same⟩
    · rw [claimed, Option.some.injEq] at leased
      rw [← leased]
      exact Int.add_le_add_right current lease
    · rw [none] at leased
      cases leased
    · rw [same] at leased
      exact admitted.leases old oldMember expires leased
  · exact fun renewal member => ⟨(admitted.readings renewal member).1,
      lt_of_lt_of_le (admitted.readings renewal member).2 (Nat.le_add_right _ _)⟩
  · intro renewal renewalMember build member holds expires leased
    obtain ⟨old, oldMember, rfl⟩ := members build member
    rcases claimedRow_cases system lease now cleared candidates old with
      ⟨-, drawn, -⟩ | ⟨-, -, none, -⟩ | ⟨-, -, same⟩
    · -- The token of a renewal in flight was drawn before.
      have known := (admitted.readings renewal renewalMember).2
      rw [drawn, Option.some.injEq] at holds
      exact absurd known (by rw [← holds]; exact not_lt.mpr (Nat.le_add_right _ _))
    · rw [none] at holds
      cases holds
    · rw [same] at holds leased
      exact admitted.renewing renewal renewalMember old oldMember holds expires leased

/-! ## Every step -/

theorem Admitted.tick (admitted : Admitted concurrency lease system) (elapsed : Nat) :
    Admitted concurrency lease { system with clock := system.clock + elapsed } := by
  have later : system.clock ≤ system.clock + elapsed := Int.le_add_of_nonneg_right (Int.natCast_nonneg elapsed)
  refine { admitted with leases := ?_, readings := ?_, phase := ?_ }
  · intro build member expires leased
    exact le_trans (admitted.leases build member expires leased) (Int.add_le_add_right later lease)
  · intro renewal member
    exact ⟨le_trans (admitted.readings renewal member).1 later, (admitted.readings renewal member).2⟩
  · intro phase running
    have sound := admitted.phase phase running
    cases phase with
    | begun now => exact le_trans sound later
    | expired now cleared => exact ⟨le_trans sound.1 later, sound.2⟩
    | counted now cleared available => exact ⟨le_trans sound.1 later, sound.2⟩
    | selected now cleared candidates => exact ⟨le_trans sound.1 later, sound.2⟩

/-- A step that only writes builds and gives out no lease. -/
theorem Admitted.written (admitted : Admitted concurrency lease system) {action : Action}
    (same : step concurrency lease system action = system.withBuilds (step concurrency lease system action).builds)
    (notClaim : action ≠ .claimCommit) (notRenewal : ∀ renewal, action ≠ .renewFinish renewal) :
    Admitted concurrency lease (step concurrency lease system action) := by
  obtain ⟨rewrite, added, effect⟩ := step_effect concurrency lease system action
  rw [same]
  exact admitted.unadmitting effect notClaim notRenewal

/-- A renewal starts when no other one of its token is in flight. -/
def SeparateRenewals (system : AdmissionSystem) : Action → Prop
  | .renewBegin _ token _ => ∀ renewal ∈ system.renewals, renewal.token ≠ token
  | _ => True

instance (system : AdmissionSystem) (action : Action) : Decidable (SeparateRenewals system action) := by
  cases action <;> unfold SeparateRenewals <;> infer_instance

theorem admitted_step (system : AdmissionSystem) (action : Action) (separate : SeparateRenewals system action)
    (admitted : Admitted concurrency lease system) : Admitted concurrency lease (step concurrency lease system action) := by
  cases action with
  | tick elapsed => exact admitted.tick elapsed
  | create new => exact admitted.written rfl (by simp) (by simp)
  | worker | requestCancellation | markEnqueued | release =>
    refine admitted.written ?_ (by simp) (by simp)
    simp only [step]
    split <;> rfl
  | renewBegin buildId token serialize =>
    simp only [step]
    split
    · exact admitted
    · rename_i allowed
      simp only [Bool.or_eq_true, decide_eq_true_eq, not_or] at allowed
      exact admitted.renewBegin serialize (not_le.mp allowed.1) separate
  | renewFinish renewal =>
    simp only [step]
    split
    · exact admitted
    · rename_i inFlight
      simp only [Bool.or_eq_true, decide_eq_true_eq, not_or, not_not] at inFlight
      exact admitted.finishRenewal inFlight.1
  | renewAbort renewal => exact admitted.renewAbort renewal
  | claimBegin =>
    simp only [step]
    split
    · exact admitted
    · refine admitted.withPhase fun running started => ?_
      cases started
      exact le_refl _
  | claimExpire =>
    simp only [step]
    split
    · rename_i now begun
      refine admitted.withPhase fun running expired => ?_
      cases expired
      exact phaseSound_expired now (admitted.phase _ begun)
    · exact admitted
  | claimCount =>
    simp only [step]
    split
    · rename_i now cleared expired
      refine admitted.withPhase fun running counted => ?_
      cases counted
      exact admitted.phaseSound_counted (admitted.phase _ expired)
    · exact admitted
  | claimSelect locked =>
    simp only [step]
    split
    · rename_i now cleared available counted
      split
      · exact admitted
      · refine admitted.withPhase fun running selected => ?_
        cases selected
        exact phaseSound_selected locked (admitted.phase _ counted)
    · exact admitted
  | claimCommit =>
    simp only [step]
    split
    · rename_i now cleared counted
      have sound := admitted.phase _ counted
      exact admitted.commitClaim sound.1 sound.2
    · rename_i now cleared candidates selected
      have sound := admitted.phase _ selected
      exact admitted.commitClaim sound.1 sound.2
    · exact admitted
  | claimAbort => exact admitted.withPhase fun running none => by cases none

/-! ## Lost tokens -/

/-- A token that was drawn before the step and is on a row after it was on that row before. -/
def TokensKept (system next : AdmissionSystem) : Prop :=
  system.tokensDrawn ≤ next.tokensDrawn ∧ ∀ build ∈ next.builds, ∀ token < system.tokensDrawn,
    build.admissionToken = some token → ∃ old ∈ system.builds, old.id = build.id ∧ old.admissionToken = some token

theorem BuildMove.token {action : Action} {old new : Build} (move : BuildMove action old new)
    (notClaim : action ≠ .claimCommit) {token : Uuid} (holds : new.admissionToken = some token) :
    old.admissionToken = some token := by
  cases move with
  | claimed _ commits => exact absurd commits notClaim
  | released | failed | cancelled => cases holds
  | @advanced expected target now =>
    rcases transitionValues_held expected target now old with ⟨kept, -⟩ | ⟨dropped, -⟩
    · rw [← kept]
      exact holds
    · rw [dropped] at holds
      cases holds
  | renewed | kept | enqueued | parsed | indexed | analyzed | compiled | packaged | cancelling => exact holds

theorem tokensKept_commitClaim (system : AdmissionSystem) (lease : Duration) (now : Instant)
    (cleared candidates : List Uuid) : TokensKept system (commitClaim lease system now cleared candidates) := by
  refine ⟨Nat.le_add_right _ _, ?_⟩
  intro build member token drawn holds
  rw [← Table.mem_rows, commitClaim_rows] at member
  obtain ⟨old, oldMember, rfl⟩ := List.mem_map.mp member
  rcases claimedRow_cases system lease now cleared candidates old with
    ⟨-, given, -⟩ | ⟨-, -, none, -⟩ | ⟨-, -, same⟩
  · rw [given, Option.some.injEq] at holds
    exact absurd drawn (by rw [← holds]; exact not_lt.mpr (Nat.le_add_right _ _))
  · rw [none] at holds
    cases holds
  · rw [same] at holds ⊢
    exact ⟨old, oldMember, rfl, holds⟩

theorem tokensKept_step (concurrency : Nat) (lease : Duration) (system : AdmissionSystem) (action : Action) :
    TokensKept system (step concurrency lease system action) := by
  by_cases commits : action = .claimCommit
  · subst commits
    simp only [step]
    split
    · exact tokensKept_commitClaim system lease _ _ _
    · exact tokensKept_commitClaim system lease _ _ _
    · exact ⟨le_refl _, fun build member _ _ holds => ⟨build, member, rfl, holds⟩⟩
  · have drawn : (step concurrency lease system action).tokensDrawn = system.tokensDrawn := by
      cases action with
      | claimCommit => exact absurd rfl commits
      | tick | create | renewAbort | claimAbort => rfl
      | worker | requestCancellation | markEnqueued | release | renewBegin | renewFinish | claimBegin | claimExpire
      | claimCount =>
        simp only [step]
        split <;> rfl
      | claimSelect =>
        simp only [step]
        split
        all_goals try split
        all_goals rfl
    refine ⟨drawn.ge, ?_⟩
    intro build member token known holds
    obtain ⟨rewrite, added, effect⟩ := step_effect concurrency lease system action
    rw [← Table.mem_rows, effect.rows] at member
    rcases List.mem_append.mp member with moved | new
    · obtain ⟨old, oldMember, rfl⟩ := List.mem_map.mp moved
      have move := effect.moves old oldMember
      exact ⟨old, oldMember, move.sameId.symm, move.token commits holds⟩
    · obtain ⟨created, sequence, rfl⟩ := effect.fresh build new
      cases holds

theorem tokensKept_run (system : AdmissionSystem) (actions : List Action) :
    TokensKept system (run (step concurrency lease) system actions) := by
  induction actions generalizing system with
  | nil => exact ⟨le_refl _, fun build member _ _ holds => ⟨build, member, rfl, holds⟩⟩
  | cons action actions ih =>
    obtain ⟨grows, kept⟩ := tokensKept_step concurrency lease system action
    obtain ⟨laterGrows, laterKept⟩ := ih (step concurrency lease system action)
    refine ⟨le_trans grows laterGrows, ?_⟩
    intro build member token drawn holds
    obtain ⟨middle, middleMember, sameId, middleHolds⟩ :=
      laterKept build member token (lt_of_lt_of_le drawn grows) holds
    obtain ⟨old, oldMember, oldSame, oldHolds⟩ := kept middle middleMember token drawn middleHolds
    exact ⟨old, oldMember, oldSame.trans sameId, oldHolds⟩

/-! ## Foreign tokens -/

/-- The row of the build holds another token, or there is no such row. -/
def Foreign (builds : BuildTable) (buildId token : Uuid) : Prop :=
  ∀ build ∈ builds, build.id = buildId → build.admissionToken ≠ some token

theorem updateOwned_foreign {builds : BuildTable} {buildId token : Uuid} (foreign : Foreign builds buildId token)
    {where_ : Build → Bool} {values : Build → Build} {keeps} :
    updateOwned builds buildId token where_ values keeps = none := by
  cases written : updateOwned builds buildId token where_ values keeps with
  | none => rfl
  | some next =>
    obtain ⟨build, found, holds, -⟩ := updateOwned_spec written
    exact absurd holds (foreign build (Table.mem_of_get? found) (Table.key_of_get? found))

theorem beginOrRenew_foreign {builds : BuildTable} {buildId token : Uuid} (foreign : Foreign builds buildId token)
    (lease : Duration) (now : Instant) : beginOrRenew builds buildId token lease now = (builds, .lost) := by
  unfold beginOrRenew
  split
  · rfl
  · rename_i build found
    rw [if_neg]
    intro owned
    rw [Bool.and_eq_true] at owned
    exact foreign build (Table.mem_of_get? found) (Table.key_of_get? found) (holdsLease_spec owned.1).1

/-- What the repository leaves as it is when a token is presented that is not the row's. -/
structure ForeignRefused (builds : BuildTable) : Prop where
  renewal : ∀ buildId token lease now, Foreign builds buildId token →
    beginOrRenew builds buildId token lease now = (builds, .lost)
  release : ∀ buildId token now, Foreign builds buildId token → Builds.release builds buildId token now = builds
  enqueued : ∀ buildId token now, Foreign builds buildId token → markEnqueued builds buildId token now = builds

theorem foreignRefused (builds : BuildTable) : ForeignRefused builds where
  renewal _ _ lease now foreign := beginOrRenew_foreign foreign lease now
  release _ _ _ foreign := congrArg (Option.getD · builds) (updateOwned_foreign foreign)
  enqueued _ _ _ foreign := congrArg (Option.getD · builds) (updateOwned_foreign foreign)

/-! ## Every run -/

theorem occupies_of_activeAt {now : Instant} {build : Build} (active : activeAt now build = true) :
    occupies build = true := by
  unfold activeAt at active
  unfold occupies
  simp only [Bool.and_eq_true] at active ⊢
  exact ⟨active.1.1, active.2⟩

/-- In every state of a run in which the renewals of one token do not overlap, at most `concurrency`
unfinished builds hold an unexpired token, whatever the clock says; a token that is live on a build is its
only one, is on no other build, and does not come back once the build has lost it; and a heartbeat, a
release or a delivery mark that presents another token than the row's changes nothing. -/
theorem admission_bound (concurrency : Nat) (lease : Duration) (before after : List Action)
    (separate : Along (step concurrency lease) SeparateRenewals AdmissionSystem.empty (before ++ after)) :
    let earlier := run (step concurrency lease) AdmissionSystem.empty before
    let system := run (step concurrency lease) AdmissionSystem.empty (before ++ after)
    (∀ now, countActive system.builds now ≤ concurrency) ∧
    (∀ build ∈ system.builds, ∀ other ∈ system.builds, ∀ token otherToken now otherNow,
      holdsLease build token now = true → holdsLease other otherToken otherNow = true →
      (build = other ↔ token = otherToken)) ∧
    (∀ buildId, ∀ token < earlier.tokensDrawn, Foreign earlier.builds buildId token →
      Foreign system.builds buildId token) ∧
    ForeignRefused system.builds := by
  intro earlier system
  have admitted : Admitted concurrency lease system :=
    run_invariant_along admitted_step (admitted_empty concurrency lease) separate
  refine ⟨?_, ?_, ?_, foreignRefused system.builds⟩
  · intro now
    exact le_trans (Table.count_mono fun build _ active => occupies_of_activeAt active) admitted.bound
  · intro build member other otherMember token otherToken now otherNow holds otherHolds
    have held := (holdsLease_spec holds).1
    have otherHeld := (holdsLease_spec otherHolds).1
    constructor
    · intro same
      rw [same, otherHeld, Option.some.injEq] at held
      exact held.symm
    · intro same
      rw [← same] at otherHeld
      exact admitted.apart build member other otherMember token held otherHeld
  · intro buildId token drawn foreign build member sameId holds
    have kept : TokensKept earlier system := by
      show TokensKept earlier (run (step concurrency lease) AdmissionSystem.empty (before ++ after))
      rw [run_append]
      exact tokensKept_run earlier after
    obtain ⟨old, oldMember, oldSame, oldHolds⟩ := kept.2 build member token drawn holds
    exact foreign old oldMember (oldSame.trans sameId) oldHolds

/-- Two builds wait, and the first is admitted with token 0. -/
def firstAdmitted : List Action :=
  [.create ⟨1, 1, none, 7, 0⟩, .create ⟨2, 2, none, 7, 0⟩, .claimBegin, .claimExpire, .claimCount,
    .claimSelect fun _ => false, .claimCommit]

/-- A heartbeat commits while the next claim looks on, the next one comes too late, and build 2 is admitted. -/
def separateHeartbeats : List Action :=
  firstAdmitted ++ [.tick 5, .renewBegin 1 0 false, .tick 4, .claimBegin, .claimExpire,
    .renewFinish ⟨1, 0, 5, false⟩, .claimCount, .claimCommit, .requestCancellation 2 7 10, .tick 7,
    .renewBegin 1 0 false, .claimBegin, .claimExpire, .claimCount, .claimSelect fun _ => false, .claimCommit,
    .renewFinish ⟨1, 0, 16, false⟩]

theorem admission_bound_separate_heartbeats :
    let system := run (step 1 10) AdmissionSystem.empty separateHeartbeats
    countActive system.builds 16 ≤ 1 ∧ (system.builds.get? 1).any (holdsLease · 0 14) = false ∧
      (system.builds.get? 2).any (holdsLease · 1 16) = true := by
  have separate : ∀ taken ∈ trace (step 1 10) AdmissionSystem.empty separateHeartbeats,
      SeparateRenewals taken.1 taken.2 := by decide +kernel
  have bound := admission_bound 1 10 separateHeartbeats [] separate
  exact ⟨bound.1 16, by decide +kernel, by decide +kernel⟩

/-- Two workers renew under the token of build 1, and the first to read the clock commits late. -/
def overlappingHeartbeats : List Action :=
  firstAdmitted ++ [.tick 1, .renewBegin 1 0 false, .tick 4, .renewBegin 1 0 false, .renewFinish ⟨1, 0, 5, false⟩,
    .tick 3, .renewBegin 1 0 false, .tick 4, .claimBegin, .claimExpire, .renewFinish ⟨1, 0, 1, false⟩, .claimCount,
    .renewFinish ⟨1, 0, 8, false⟩, .claimSelect fun _ => false, .claimCommit]

/-- The late commit hides build 1 from the count of the claim, and the next heartbeat brings it back. -/
theorem overlapping_heartbeats_exceed_bound :
    ¬ ∀ concurrency lease actions now,
      countActive (run (step concurrency lease) AdmissionSystem.empty actions).builds now ≤ concurrency := by
  intro bound
  have two : countActive (run (step 1 10) AdmissionSystem.empty overlappingHeartbeats).builds 12 = 2 := by
    decide +kernel
  have atMostOne := bound 1 10 overlappingHeartbeats 12
  omega

end Mcplica.Builds
