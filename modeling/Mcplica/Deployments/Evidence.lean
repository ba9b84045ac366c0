import Mcplica.Deployments.Resurrection

/-! # Activation evidence

What the proof columns of a deployment say about its activation, from the writes that fill them to the rows
that rollback and restart rely on. A row is activated by `complete_activation` only, in the transaction that
has just matched a proof with the row; afterwards no transaction touches what the proof is about. -/

namespace Mcplica.Deployments

open Mcplica.Domain Mcplica.Library

/-- The digest of the proof is that of its content, as its validator demands. -/
def DeploymentActivationProof.Bound (digest : RuntimeIdentity → Instant → String) (proof : DeploymentActivationProof) :
    Prop :=
  proof.proofSha256 = digest proof.runtime proof.verifiedAt

/-- The row carries a proof that matches it. -/
def Deployment.Proven (digest : RuntimeIdentity → Instant → String) (row : Deployment) : Prop :=
  ∃ proof : DeploymentActivationProof, proof.Bound digest ∧ row.runtime? = some proof.runtime ∧
    row.activationVerifiedAt = some proof.verifiedAt ∧ row.activationProofSha256 = some proof.proofSha256

/-- What holds of every row: one that was activated has left the in-progress statuses and is proven. -/
structure Evidenced (digest : RuntimeIdentity → Instant → String) (row : Deployment) : Prop where
  modern : row.activationPhase ≠ some .legacyRunning
  started : row.startedAt.isSome = row.activatedAt.isSome
  settled : row.status.inProgress = true → row.activatedAt = none
  running : row.status = .running → row.activatedAt.isSome = true
  proven : row.activatedAt.isSome = true → row.Proven digest

/-- The evidence of an activated row is that of another one. -/
structure SameEvidence (old new : Deployment) : Prop where
  id : new.id = old.id
  activatedAt : new.activatedAt = old.activatedAt
  runtime : new.runtime? = old.runtime?
  verifiedAt : new.activationVerifiedAt = old.activationVerifiedAt
  proofSha256 : new.activationProofSha256 = old.activationProofSha256

theorem SameEvidence.trans {first second third : Deployment} (left : SameEvidence first second)
    (right : SameEvidence second third) : SameEvidence first third :=
  ⟨right.id.trans left.id, right.activatedAt.trans left.activatedAt, right.runtime.trans left.runtime,
    right.verifiedAt.trans left.verifiedAt, right.proofSha256.trans left.proofSha256⟩

section Rows

variable {digest : RuntimeIdentity → Instant → String} {old new : Deployment}

/-- A write that neither activates a row nor touches the evidence of one that is activated. -/
structure KeepsEvidence (digest : RuntimeIdentity → Instant → String) (old new : Deployment) : Prop where
  evidenced : Evidenced digest new
  kept : old.activatedAt.isSome = true → SameEvidence old new
  origin : new.activatedAt.isSome = true → old.activatedAt.isSome = true

/-- A write to a row that is in progress and stays inactive. -/
theorem KeepsEvidence.of_inProgress (evidenced : Evidenced digest old) (inProgress : old.status.inProgress = true)
    (modern : new.activationPhase ≠ some .legacyRunning) (started : new.startedAt = none)
    (activated : new.activatedAt = none) (notRunning : new.status ≠ .running) : KeepsEvidence digest old new := by
  have inactive : old.activatedAt = none := evidenced.settled inProgress
  constructor
  · constructor
    · exact modern
    · rw [started, activated]
    · exact fun _ => activated
    · exact fun running => absurd running notRunning
    · intro isActivated
      rw [activated] at isActivated
      cases isActivated
  · intro isActivated
    rw [inactive] at isActivated
    cases isActivated
  · intro isActivated
    rw [activated] at isActivated
    cases isActivated

/-- A write to the other columns. -/
theorem KeepsEvidence.of_same (evidenced : Evidenced digest old) (same : SameEvidence old new)
    (startedAt : new.startedAt = old.startedAt) (modern : new.activationPhase ≠ some .legacyRunning)
    (progress : new.status.inProgress = true → old.status.inProgress = true)
    (running : new.status = .running → old.status = .running ∨ old.startedAt.isSome = true) :
    KeepsEvidence digest old new := by
  constructor
  · constructor
    · exact modern
    · rw [startedAt, same.activatedAt, evidenced.started]
    · intro inProgress
      rw [same.activatedAt]
      exact evidenced.settled (progress inProgress)
    · intro isRunning
      rw [same.activatedAt]
      rcases running isRunning with wasRunning | wasStarted
      · exact evidenced.running wasRunning
      · rw [← evidenced.started]
        exact wasStarted
    · intro activated
      rw [same.activatedAt] at activated
      obtain ⟨proof, bound, runtime, verifiedAt, proofSha256⟩ := evidenced.proven activated
      exact ⟨proof, bound, same.runtime.trans runtime, same.verifiedAt.trans verifiedAt,
        same.proofSha256.trans proofSha256⟩
  · exact fun _ => same
  · intro activated
    rwa [same.activatedAt] at activated

theorem KeepsEvidence.refl (evidenced : Evidenced digest old) : KeepsEvidence digest old old :=
  .of_same evidenced ⟨rfl, rfl, rfl, rfl, rfl⟩ rfl evidenced.modern id .inl

theorem KeepsEvidence.trans {last : Deployment} (first : KeepsEvidence digest old new)
    (second : KeepsEvidence digest new last) : KeepsEvidence digest old last := by
  refine ⟨second.evidenced, fun activated => ?_, fun activated => first.origin (second.origin activated)⟩
  have same := first.kept activated
  refine same.trans (second.kept ?_)
  rw [same.activatedAt]
  exact activated

/-- The eligibility predicate finds the evidence. -/
theorem hasSuccessfulActivation_of_activated (evidenced : Evidenced digest old) (activated : old.activatedAt.isSome = true) :
    hasSuccessfulActivation digest old = true := by
  obtain ⟨proof, bound, runtime, verifiedAt, proofSha256⟩ := evidenced.proven activated
  have started : old.startedAt.isSome = true := evidenced.started.trans activated
  unfold hasSuccessfulActivation
  rw [runtime, verifiedAt, proofSha256, bound]
  simp [activated, started]

theorem activated_of_hasSuccessfulActivation (successful : hasSuccessfulActivation digest old = true) :
    old.activatedAt.isSome = true := by
  unfold hasSuccessfulActivation at successful
  split at successful
  · cases successful
  · simp only [Bool.and_eq_true] at successful
    exact successful.1.1

end Rows

/-! ## Stores -/

/-- Every row is a new inactive one or keeps the evidence of an old one, and no row is lost. The listed
deployments may have been activated. -/
structure StoreKeeps (digest : RuntimeIdentity → Instant → String) (store next : DeploymentStore)
    (completed : List Uuid) : Prop where
  evidenced : ∀ row ∈ next.deployments, Evidenced digest row
  kept : ∀ old ∈ store.deployments, old.activatedAt.isSome = true → ∃ new ∈ next.deployments, SameEvidence old new
  origin : ∀ new ∈ next.deployments, new.activatedAt.isSome = true →
    (∃ old ∈ store.deployments, old.id = new.id ∧ old.activatedAt.isSome = true) ∨ new.id ∈ completed

section Stores

variable {digest : RuntimeIdentity → Instant → String} {store middle next : DeploymentStore} {deploymentId : Uuid}

/-- All rows of the store are evidenced. -/
def AllEvidenced (digest : RuntimeIdentity → Instant → String) (store : DeploymentStore) : Prop :=
  ∀ row ∈ store.deployments, Evidenced digest row

theorem StoreKeeps.refl (all : AllEvidenced digest store) : StoreKeeps digest store store [] where
  evidenced := all
  kept old member _ := ⟨old, member, ⟨rfl, rfl, rfl, rfl, rfl⟩⟩
  origin new member activated := .inl ⟨new, member, rfl, activated⟩

theorem StoreKeeps.trans {completed : List Uuid} (first : StoreKeeps digest store middle [])
    (second : StoreKeeps digest middle next completed) : StoreKeeps digest store next completed where
  evidenced := second.evidenced
  kept := by
    intro old member activated
    obtain ⟨between, betweenMember, same⟩ := first.kept old member activated
    obtain ⟨new, newMember, sameAgain⟩ := second.kept between betweenMember (by rw [same.activatedAt]; exact activated)
    exact ⟨new, newMember, same.trans sameAgain⟩
  origin := by
    intro new member activated
    rcases second.origin new member activated with ⟨between, betweenMember, sameId, wasActivated⟩ | listed
    · rcases first.origin between betweenMember wasActivated with ⟨old, oldMember, oldId, oldActivated⟩ | listed
      · exact .inl ⟨old, oldMember, oldId.trans sameId, oldActivated⟩
      · cases listed
    · exact .inr listed

theorem storeKeeps_of_rewrite {row : Deployment → Deployment} {pointer : Project → Project}
    (rewrite : Rewrite store next row pointer) (keeps : ∀ old ∈ store.deployments, KeepsEvidence digest old (row old)) :
    StoreKeeps digest store next [] where
  evidenced := by
    intro new member
    obtain ⟨old, oldMember, rfl⟩ := rewrite.mem_deployments.mp member
    exact (keeps old oldMember).evidenced
  kept old member activated :=
    ⟨row old, rewrite.mem_deployments.mpr ⟨old, member, rfl⟩, (keeps old member).kept activated⟩
  origin := by
    intro new member activated
    obtain ⟨old, oldMember, rfl⟩ := rewrite.mem_deployments.mp member
    exact .inl ⟨old, oldMember, ((rewrite.identity old).id).symm, (keeps old oldMember).origin activated⟩

/-- A guarded write to one row. -/
theorem storeKeeps_of_row (all : AllEvidenced digest store) {deployment : Deployment} {where_ : Deployment → Bool}
    {values : Deployment → Deployment} {pointer : Project → Project}
    (found : store.deployments.get? deploymentId = some deployment)
    (rewrite : Rewrite store next (onRow deploymentId where_ values) pointer)
    (keeps : where_ deployment = true → KeepsEvidence digest deployment (values deployment)) :
    StoreKeeps digest store next [] := by
  refine storeKeeps_of_rewrite rewrite fun old member => ?_
  rcases onRow_cases found member where_ values with ⟨rfl, holds, written⟩ | ⟨-, written⟩
  · rw [written]
    exact keeps holds
  · rw [written]
    exact .refl (all old member)

/-! ### The operations of the repository -/

theorem keeps_onRow {old : Deployment} (evidenced : Evidenced digest old) {where_ : Deployment → Bool}
    {values : Deployment → Deployment}
    (keeps : old.id = deploymentId → where_ old = true → KeepsEvidence digest old (values old)) :
    KeepsEvidence digest old (onRow deploymentId where_ values old) := by
  unfold onRow
  split
  · rename_i chosen
    simp only [Bool.and_eq_true, decide_eq_true_eq] at chosen
    exact keeps chosen.1 chosen.2
  · exact .refl evidenced

/-- A status outside the in-progress ones and `RUNNING`. -/
theorem keeps_status {old : Deployment} (evidenced : Evidenced digest old) {status : DeploymentStatus}
    (notRunning : status ≠ .running) (notInProgress : status.inProgress = false) :
    KeepsEvidence digest old { old with status } := by
  refine .of_same evidenced ⟨rfl, rfl, rfl, rfl, rfl⟩ rfl evidenced.modern ?_ ?_
  · intro inProgress
    rw [notInProgress] at inProgress
    cases inProgress
  · exact fun running => absurd running notRunning

theorem keeps_stoppedValues {old : Deployment} (evidenced : Evidenced digest old) (now : Instant) :
    KeepsEvidence digest old (DeploymentStore.stoppedValues now old) :=
  .of_same evidenced ⟨rfl, rfl, rfl, rfl, rfl⟩ rfl evidenced.modern nofun nofun

theorem transition_keeps (all : AllEvidenced digest store) {expected : List DeploymentStatus} {status : DeploymentStatus}
    {values : DeploymentStore.TransitionValues}
    (written : store.transition deploymentId expected status values = some next)
    (starting : ∀ old, expected.contains old = true → old.inProgress = true) (started : status.inProgress = true) :
    StoreKeeps digest store next [] := by
  obtain ⟨deployment, found, isExpected, rewrite⟩ := DeploymentStore.transition_spec written
  have inProgress := starting deployment.status isExpected
  have evidenced := all deployment (Table.mem_of_get? found)
  have inactive := evidenced.settled inProgress
  have unstarted : deployment.startedAt = none := by
    rw [← Option.not_isSome_iff_eq_none, evidenced.started, inactive]
    simp
  refine storeKeeps_of_row all found rewrite fun _ => ?_
  refine .of_inProgress evidenced inProgress ?_ ?_ ?_ ?_
  · cases values <;> exact evidenced.modern
  · cases values <;> exact unstarted
  · cases values <;> exact inactive
  · rintro rfl
    cases started

theorem scheduleStop_keeps (all : AllEvidenced digest store) {deployment : Deployment}
    (written : store.scheduleStop deployment = .ok next) : StoreKeeps digest store next [] := by
  unfold DeploymentStore.scheduleStop at written
  split at written
  · cases written
    exact .refl all
  · split at written
    · rename_i stopped transitioned
      cases written
      obtain ⟨row, found, -, rewrite⟩ := DeploymentStore.transition_spec transitioned
      exact storeKeeps_of_row all found rewrite fun _ =>
        keeps_status (all row (Table.mem_of_get? found)) (by simp) rfl
    · split at written
      · cases written
        exact .refl all
      · cases written

theorem beginActivation_keeps (all : AllEvidenced digest store) {proof : DeploymentActivationProof}
    (written : store.beginActivation deploymentId proof = some next) : StoreKeeps digest store next [] := by
  obtain ⟨deployment, project, -, -, -, -, -, rewrite⟩ := DeploymentStore.beginActivation_spec written
  refine storeKeeps_of_rewrite rewrite fun old member => ?_
  have retired : KeepsEvidence digest old
      (DeploymentStore.retiredRow project deployment.previousActiveDeploymentId old) := by
    unfold DeploymentStore.retiredRow
    split
    · exact keeps_status (all old member) (by simp) rfl
    · exact .refl (all old member)
  refine retired.trans (keeps_onRow retired.evidenced fun _ isStarting => ?_)
  have inProgress : (DeploymentStore.retiredRow project deployment.previousActiveDeploymentId old).status.inProgress =
      true := by
    unfold DeploymentStore.startingUp at isStarting
    cases status : (DeploymentStore.retiredRow project deployment.previousActiveDeploymentId old).status <;>
      simp_all [DeploymentStatus.inProgress]
  have inactive := retired.evidenced.settled inProgress
  refine .of_inProgress retired.evidenced inProgress (by simp [DeploymentStore.activatingValues]) ?_ inactive
    (by simp [DeploymentStore.activatingValues])
  show (DeploymentStore.retiredRow project deployment.previousActiveDeploymentId old).startedAt = none
  rw [← Option.not_isSome_iff_eq_none, retired.evidenced.started, inactive]
  simp

/-- A refresh leaves the proof of a running deployment alone and gives one that is activating a proof that
matches its row. -/
theorem refreshActivationProof_keeps (all : AllEvidenced digest store) {proof : DeploymentActivationProof}
    (bound : proof.Bound digest) (written : store.refreshActivationProof deploymentId proof = some next) :
    StoreKeeps digest store next [] ∧ ∀ row ∈ next.deployments, row.id = deploymentId → row.Proven digest := by
  simp only [DeploymentStore.refreshActivationProof, Option.bind_eq_bind, Option.bind_eq_some_iff,
    Option.guard_eq_some', exists_const] at written
  obtain ⟨deployment, found, live, matching, written⟩ := written
  have evidenced := all deployment (Table.mem_of_get? found)
  have runtime : deployment.runtime? = some proof.runtime := by simpa [proofMatches] using matching
  split at written
  · rename_i isRunning
    cases written
    have rewrite := @DeploymentStore.assignIf_rewrite store deploymentId (fun row => row.status = .running)
      ({ · with healthStatus := some "healthy" }) (fun _ => rfl) (fun _ => ⟨rfl, rfl, rfl, rfl⟩)
    refine ⟨storeKeeps_of_row all found rewrite fun _ =>
      .of_same evidenced ⟨rfl, rfl, rfl, rfl, rfl⟩ rfl evidenced.modern id .inl, ?_⟩
    intro row member same
    obtain ⟨old, oldMember, rfl⟩ := rewrite.mem_deployments.mp member
    rw [(rewrite.identity old).id] at same
    rw [Table.eq_of_key oldMember (Table.mem_of_get? found) (same.trans (Table.key_of_get? found).symm)]
    obtain ⟨recorded, isBound, sameRuntime, verifiedAt, proofSha256⟩ := evidenced.proven (evidenced.running isRunning)
    unfold onRow
    split <;> exact ⟨recorded, isBound, sameRuntime, verifiedAt, proofSha256⟩
  · rename_i notRunning
    cases written
    have inProgress : deployment.status.inProgress = true := by
      cases status : deployment.status <;> simp_all [DeploymentStatus.inProgress]
    have rewrite := @DeploymentStore.assign_rewrite store deploymentId
      (fun row => { row with
        activationPhase := some (DeploymentStore.refreshedPhase deployment.activationPhase)
        activationVerifiedAt := some proof.verifiedAt
        activationProofSha256 := some proof.proofSha256
        healthStatus := some "activating" }) (fun _ => rfl) (fun _ => ⟨rfl, rfl, rfl, rfl⟩)
    have inactive := evidenced.settled inProgress
    refine ⟨storeKeeps_of_row all found rewrite fun _ => .of_inProgress evidenced inProgress ?_ ?_ inactive ?_, ?_⟩
    · cases deployment.activationPhase with
      | none => simp [DeploymentStore.refreshedPhase]
      | some phase => cases phase <;> simp [DeploymentStore.refreshedPhase]
    · show deployment.startedAt = none
      rw [← Option.not_isSome_iff_eq_none, evidenced.started, inactive]
      simp
    · exact notRunning
    · intro row member same
      obtain ⟨old, oldMember, rfl⟩ := rewrite.mem_deployments.mp member
      rw [(rewrite.identity old).id] at same
      rw [Table.eq_of_key oldMember (Table.mem_of_get? found) (same.trans (Table.key_of_get? found).symm)]
      have sameId : deployment.id = deploymentId := Table.key_of_get? found
      unfold onRow
      rw [if_pos (by simp [sameId])]
      exact ⟨proof, bound, runtime, rfl, rfl⟩

theorem markRetiringPrevious_keeps (all : AllEvidenced digest store)
    (written : store.markRetiringPrevious deploymentId = some next) : StoreKeeps digest store next [] := by
  obtain ⟨deployment, found, status, rewrite⟩ := DeploymentStore.markRetiringPrevious_spec written
  have evidenced := all deployment (Table.mem_of_get? found)
  exact storeKeeps_of_row all found rewrite fun _ =>
    .of_same evidenced ⟨rfl, rfl, rfl, rfl, rfl⟩ rfl (by simp) id .inl

/-- A predecessor that is put back to `RUNNING` was started, so it was activated. -/
theorem failActivation_keeps (all : AllEvidenced digest store) {ready : Bool} {errorCode errorSummary : String}
    {now : Instant} : StoreKeeps digest store (store.failActivation deploymentId ready errorCode errorSummary now) [] := by
  unfold DeploymentStore.failActivation
  cases written : store.restorePreviousAfterFailedActivation deploymentId ready errorCode errorSummary now with
  | none => exact .refl all
  | some next =>
    have failed {old : Deployment} (member : old ∈ store.deployments) : KeepsEvidence digest old
        (onRow deploymentId DeploymentStore.failing
          (DeploymentStore.failedActivationValues errorCode errorSummary now) old) :=
      keeps_onRow (all old member) fun _ _ =>
        .of_same (all old member) ⟨rfl, rfl, rfl, rfl, rfl⟩ rfl (by simp [DeploymentStore.failedActivationValues])
          (by rintro ⟨⟩) (by rintro ⟨⟩)
    rcases DeploymentStore.restorePreviousAfterFailedActivation_spec written with
      rfl | ⟨deployment, project, found, -, -, ⟨previous, -, previousFound, -, restorable, rewrite⟩ | rewrite⟩
    · exact .refl all
    · refine storeKeeps_of_rewrite rewrite fun old member => (failed member).trans ?_
      have evidenced := (failed member).evidenced
      refine keeps_onRow evidenced fun chosen _ => ?_
      have isPrevious : old = previous := by
        have sameId : (onRow deploymentId DeploymentStore.failing
            (DeploymentStore.failedActivationValues errorCode errorSummary now) old).id = old.id := by
          unfold onRow
          split <;> rfl
        exact Table.eq_of_key member (Table.mem_of_get? previousFound) (sameId.symm.trans chosen)
      simp only [DeploymentStore.restorable, Bool.and_eq_true] at restorable
      refine .of_same evidenced ⟨rfl, rfl, rfl, rfl, rfl⟩ rfl evidenced.modern (by rintro ⟨⟩) fun _ => .inr ?_
      rw [isPrevious]
      unfold onRow
      split <;> exact restorable.2
    · exact storeKeeps_of_rewrite rewrite fun old member => failed member

/-- The activation of a row that carries a matching proof. -/
theorem completeActivation_keeps (all : AllEvidenced digest store) {now : Instant}
    (proven : ∀ row ∈ store.deployments, row.id = deploymentId → row.Proven digest)
    (written : store.completeActivation deploymentId now = some next) :
    StoreKeeps digest store next [deploymentId] := by
  obtain ⟨deployment, project, found, ready, -, -, -, -, -, rewrite⟩ := DeploymentStore.completeActivation_spec written
  simp only [DeploymentStore.readyToComplete, Bool.and_eq_true, decide_eq_true_eq] at ready
  have stopped {old : Deployment} (member : old ∈ store.deployments) :
      KeepsEvidence digest old (DeploymentStore.stoppedRow deployment.previousActiveDeploymentId now old) := by
    unfold DeploymentStore.stoppedRow
    split
    · exact keeps_stoppedValues (all old member) now
    · exact .refl (all old member)
  have sameId {old : Deployment} : (DeploymentStore.stoppedRow deployment.previousActiveDeploymentId now old).id = old.id := by
    unfold DeploymentStore.stoppedRow
    split <;> rfl
  have deploymentId_eq : deployment.id = deploymentId := Table.key_of_get? found
  have activated : Evidenced digest (DeploymentStore.runningValues now deployment) := by
    have isProven := proven deployment (Table.mem_of_get? found) deploymentId_eq
    exact ⟨by simp [DeploymentStore.runningValues], rfl, (by rintro ⟨⟩), (fun _ => rfl), (fun _ => isProven)⟩
  have inactive : deployment.activatedAt = none :=
    (all deployment (Table.mem_of_get? found)).settled (by rw [ready.1.1.1]; rfl)
  -- The candidate is not its own predecessor's row: it is not `STOPPING`.
  have candidate {old : Deployment} (member : old ∈ store.deployments) (chosen : old.id = deploymentId) :
      onRow deploymentId (fun _ => true) (DeploymentStore.runningValues now)
        (DeploymentStore.stoppedRow deployment.previousActiveDeploymentId now old) =
        DeploymentStore.runningValues now deployment := by
    have unstopped : DeploymentStore.stoppedRow deployment.previousActiveDeploymentId now deployment = deployment := by
      unfold DeploymentStore.stoppedRow
      rw [if_neg]
      rw [ready.1.1.1]
      simp
    rw [Table.eq_of_key member (Table.mem_of_get? found) (chosen.trans deploymentId_eq.symm), unstopped]
    unfold onRow
    rw [if_pos (by simp [deploymentId_eq])]
  have others {old : Deployment} (other : old.id ≠ deploymentId) :
      onRow deploymentId (fun _ => true) (DeploymentStore.runningValues now)
        (DeploymentStore.stoppedRow deployment.previousActiveDeploymentId now old) =
        DeploymentStore.stoppedRow deployment.previousActiveDeploymentId now old := by
    unfold onRow
    rw [if_neg (by simp [sameId, other])]
  constructor
  · intro new member
    obtain ⟨old, oldMember, rfl⟩ := rewrite.mem_deployments.mp member
    rw [Function.comp_apply]
    by_cases chosen : old.id = deploymentId
    · rw [candidate oldMember chosen]
      exact activated
    · rw [others chosen]
      exact (stopped oldMember).evidenced
  · intro old member isActivated
    have other : old.id ≠ deploymentId := by
      intro same
      rw [Table.eq_of_key member (Table.mem_of_get? found) (same.trans deploymentId_eq.symm), inactive] at isActivated
      cases isActivated
    refine ⟨_, rewrite.mem_deployments.mpr ⟨old, member, rfl⟩, ?_⟩
    rw [Function.comp_apply, others other]
    exact (stopped member).kept isActivated
  · intro new member isActivated
    obtain ⟨old, oldMember, rfl⟩ := rewrite.mem_deployments.mp member
    rw [(rewrite.identity old).id]
    by_cases chosen : old.id = deploymentId
    · exact .inr (List.mem_singleton.mpr chosen)
    · rw [Function.comp_apply, others chosen] at isActivated
      exact .inl ⟨old, oldMember, rfl, (stopped oldMember).origin isActivated⟩

theorem recordStopped_keeps (all : AllEvidenced digest store) (deployment : Deployment) (now : Instant) :
    StoreKeeps digest store (store.recordStopped deployment now) [] :=
  storeKeeps_of_rewrite (DeploymentStore.recordStopped_rewrite store deployment now) fun old member =>
    keeps_onRow (all old member) fun _ _ => keeps_stoppedValues (all old member) now

theorem markFailed_keeps (all : AllEvidenced digest store) {errorCode errorSummary : String} {unhealthy : Bool}
    {now : Instant} (written : store.markFailed deploymentId errorCode errorSummary unhealthy now = some next) :
    StoreKeeps digest store next [] := by
  obtain ⟨deployment, found, -, rewrite⟩ := DeploymentStore.assignWhere_spec written fun _ => ⟨rfl, rfl, rfl, rfl⟩
  have evidenced := all deployment (Table.mem_of_get? found)
  refine storeKeeps_of_row all found rewrite fun _ =>
    .of_same evidenced ⟨rfl, rfl, rfl, rfl, rfl⟩ rfl (by simp) ?_ ?_
  · cases unhealthy <;> exact nofun
  · cases unhealthy <;> exact nofun

theorem resetForRetry_keeps (all : AllEvidenced digest store) (written : store.resetForRetry deploymentId = some next) :
    StoreKeeps digest store next [] := by
  obtain ⟨deployment, found, holds, rewrite⟩ := DeploymentStore.assignWhere_spec written fun _ => ⟨rfl, rfl, rfl, rfl⟩
  have inProgress : deployment.status.inProgress = true := by
    cases status : deployment.status <;> simp_all [DeploymentStatus.inProgress]
  exact storeKeeps_of_row all found rewrite fun _ =>
    .of_inProgress (all deployment (Table.mem_of_get? found)) inProgress (by simp) rfl rfl (by simp)

/-- A store whose rows are old ones or new inactive ones. -/
theorem storeKeeps_of_insert (all : AllEvidenced digest store) {row : Deployment} (pending : row.status = .pending)
    (modern : row.activationPhase ≠ some .legacyRunning) (unstarted : row.startedAt = none)
    (inactive : row.activatedAt = none) (inserted : store.deployments.insert row = some next.deployments) :
    StoreKeeps digest store next [] where
  evidenced := by
    intro new member
    rcases (Table.mem_insert inserted).mp member with old | rfl
    · exact all new old
    · refine ⟨modern, by rw [unstarted, inactive], fun _ => inactive, ?_, ?_⟩
      · intro running
        rw [pending] at running
        cases running
      · intro activated
        rw [inactive] at activated
        cases activated
  kept old member _ := ⟨old, (Table.mem_insert inserted).mpr (.inl member), ⟨rfl, rfl, rfl, rfl, rfl⟩⟩
  origin := by
    intro new member activated
    rcases (Table.mem_insert inserted).mp member with old | rfl
    · exact .inl ⟨new, old, rfl, activated⟩
    · rw [inactive] at activated
      cases activated

theorem requestDeployment_keeps (all : AllEvidenced digest store) {project : Project} {request : DeploymentRequest}
    {stopping : List Uuid} {row : Deployment} (written : store.requestDeployment project request stopping = .ok (next, row)) :
    StoreKeeps digest store next [] := by
  simp only [DeploymentStore.requestDeployment, bind_eq_ok, require_eq_ok, orRaise_eq_ok] at written
  obtain ⟨-, -, -, -, -, -, -, -, -, -, manifest, -, -, -, -, -, -, -, deployments, inserted, written⟩ := written
  cases written
  exact storeKeeps_of_insert all rfl (by simp [requestedRow]) rfl rfl inserted

end Stores

/-! ## The control plane -/

namespace ControlPlane

/-- The proofs that a transaction receives have passed their validator. -/
def Action.ProofsBound (digest : RuntimeIdentity → Instant → String) : Action → Prop
  | .deploy _ _ _ (.activate provisioned) => provisioned.activationProof.Bound digest
  | .deploy _ _ _ (.confirm _ proof) => proof.Bound digest
  | .deploy _ _ _ (.finishActivation proof) => proof.Bound digest
  | _ => True

/-- The step passes the deployment through `complete_activation`. -/
def CompletesActivation (digest : RuntimeIdentity → Instant → String) (plane : ControlPlane) (action : Action)
    (deploymentId : Uuid) : Prop :=
  ∃ commandId token now proof refreshed, action = .deploy commandId token now (.finishActivation proof) ∧
    plane.store.refreshActivationProof deploymentId proof = some refreshed ∧
    refreshed.completeActivation deploymentId now = some (step digest plane action).store

section

variable {digest : RuntimeIdentity → Instant → String} {plane next : ControlPlane} {origin : Origin} {projectId : Uuid}
  {request : DeploymentRequest}

theorem createCommand_store {action : RuntimeCommandAction} {deployment : Deployment}
    (created : plane.createCommand origin action deployment = .ok next) : next.store = plane.store := by
  simp only [createCommand, bind_eq_ok] at created
  obtain ⟨result, -, same⟩ := created
  cases same
  rfl

theorem scheduleStops_keeps (all : AllEvidenced digest plane.store) {deployments : List Deployment}
    (scheduled : plane.scheduleStops origin deployments = .ok next) : StoreKeeps digest plane.store next.store [] := by
  induction deployments generalizing plane with
  | nil =>
    cases scheduled
    exact .refl all
  | cons deployment rest ih =>
    simp only [scheduleStops, scheduleStopInSession, bind_eq_ok] at scheduled
    obtain ⟨middle, ⟨store, stopped, created⟩, scheduled⟩ := scheduled
    have first : StoreKeeps digest plane.store middle.store [] := by
      rw [createCommand_store created]
      exact scheduleStop_keeps all stopped
    exact first.trans (ih first.evidenced scheduled)

theorem scheduleStopProject_keeps (all : AllEvidenced digest plane.store)
    (scheduled : plane.scheduleStopProject origin projectId = .ok next) : StoreKeeps digest plane.store next.store [] := by
  simp only [scheduleStopProject, bind_eq_ok] at scheduled
  obtain ⟨-, -, scheduled⟩ := scheduled
  exact scheduleStops_keeps all scheduled

theorem requestInSession_keeps (all : AllEvidenced digest plane.store) {project : Project} {stopping : List Uuid}
    (requested : plane.requestInSession origin project request stopping = .ok next) :
    StoreKeeps digest plane.store next.store [] := by
  simp only [requestInSession, bind_eq_ok] at requested
  obtain ⟨⟨store, row⟩, written, created⟩ := requested
  rw [createCommand_store created]
  exact requestDeployment_keeps all written

theorem scheduleRedeployActive_keeps (all : AllEvidenced digest plane.store) {options : RedeployOptions}
    (scheduled : plane.scheduleRedeployActive origin projectId request options = .ok next) :
    StoreKeeps digest plane.store next.store [] := by
  simp only [scheduleRedeployActive, bind_eq_ok] at scheduled
  obtain ⟨project, -, stopped, stops, scheduled⟩ := scheduled
  have first := scheduleStops_keeps all stops
  have fallback (isScheduled : stopped.scheduleStopProject origin projectId = .ok next) :
      StoreKeeps digest plane.store next.store [] :=
    first.trans (scheduleStopProject_keeps first.evidenced isScheduled)
  have idle (isScheduled : (if options.fallbackToStop = true then stopped.scheduleStopProject origin projectId
      else pure stopped) = .ok next) : StoreKeeps digest plane.store next.store [] := by
    split at isScheduled
    · exact fallback isScheduled
    · cases isScheduled
      exact first
  split at scheduled
  · exact idle scheduled
  · split at scheduled
    · exact idle scheduled
    · split at scheduled
      · rename_i requested isRequested
        cases scheduled
        exact first.trans (requestInSession_keeps first.evidenced isRequested)
      · split at scheduled
        · exact fallback scheduled
        · cases scheduled

theorem scheduleSecurityEffect_keeps {written : ControlPlane} (sameStore : written.store = plane.store)
    (all : AllEvidenced digest plane.store) {servable : Bool}
    (scheduled : written.scheduleSecurityEffect origin projectId servable request = .ok next) :
    StoreKeeps digest plane.store next.store [] := by
  rw [← sameStore] at all ⊢
  unfold scheduleSecurityEffect at scheduled
  split at scheduled
  · exact scheduleRedeployActive_keeps all scheduled
  · exact scheduleStopProject_keeps all scheduled

theorem issueToken_store {token : AccessToken} (issued : plane.issueToken token = .ok next) : next.store = plane.store := by
  simp only [issueToken, bind_eq_ok] at issued
  obtain ⟨_, -, same⟩ := issued
  cases same
  rfl

/-- The transactions of the services. -/
theorem service_keeps (all : AllEvidenced digest plane.store) {action : Action}
    (service : action.origin?.isSome = true) (written : plane.transact digest action = .ok next) :
    StoreKeeps digest plane.store next.store [] := by
  cases action with
  | updateEnabled origin projectId isEnabled =>
    simp only [transact, updateEnabled, bind_eq_ok] at written
    obtain ⟨store, enabled, written⟩ := written
    have first : StoreKeeps digest plane.store store [] :=
      storeKeeps_of_rewrite (DeploymentStore.setEnabled_spec enabled) fun old member => .refl (all old member)
    split at written
    · cases written
      exact first
    · have second := @scheduleStopProject_keeps digest (plane.withStore store) next
      exact first.trans (second first.evidenced written)
  | request origin projectId request =>
    simp only [transact, requestDeployment, bind_eq_ok] at written
    obtain ⟨project, -, written⟩ := written
    exact requestInSession_keeps all written
  | restart origin deploymentId request =>
    simp only [transact, restart, bind_eq_ok] at written
    obtain ⟨_, -, _, -, _, -, _, -, _, -, written⟩ := written
    exact requestInSession_keeps all written
  | rollback origin projectId targetId request =>
    simp only [transact, rollback, bind_eq_ok] at written
    obtain ⟨_, -, _, -, _, -, _, -, written⟩ := written
    exact requestInSession_keeps all written
  | redeployActive origin projectId request options => exact scheduleRedeployActive_keeps all written
  | stop origin deploymentId =>
    simp only [transact, stop, bind_eq_ok] at written
    obtain ⟨current, -, written⟩ := written
    split at written
    · cases written
      exact .refl all
    · simp only [scheduleStopInSession, bind_eq_ok] at written
      obtain ⟨store, stopped, created⟩ := written
      rw [createCommand_store created]
      exact scheduleStop_keeps all stopped
  | stopProject origin projectId => exact scheduleStopProject_keeps all written
  | createToken origin token staticMode servable request =>
    simp only [transact, createToken, bind_eq_ok] at written
    obtain ⟨_, -, _, -, _, -, issued, isIssued, written⟩ := written
    exact scheduleSecurityEffect_keeps (issueToken_store isIssued) all written
  | rotateToken origin projectId tokenId replacementId overlapSeconds staticMode servable request =>
    simp only [transact, rotateToken, bind_eq_ok] at written
    obtain ⟨_, -, _, -, _, -, _, -, _, -, _, -, issued, isIssued, written⟩ := written
    have sameStore := issueToken_store isIssued
    exact scheduleSecurityEffect_keeps sameStore all written
  | revokeToken origin projectId tokenId servable request =>
    simp only [transact, revokeToken, bind_eq_ok] at written
    obtain ⟨_, -, current, -, written⟩ := written
    split at written
    · cases written
      exact .refl all
    · refine scheduleSecurityEffect_keeps ?_ all written
      rfl
  | _ => cases service

/-- The transactions of the runner: only the last one of an activation activates a deployment. -/
theorem deployStep_keeps (all : AllEvidenced digest plane.store) {command : RuntimeCommand} {now : Instant}
    {step : DeployStep} {commandId token : Uuid} (bound : (Action.deploy commandId token now step).ProofsBound digest)
    (written : plane.deployStep digest command now step = .ok next) :
    StoreKeeps digest plane.store next.store [] ∨
    StoreKeeps digest plane.store next.store [command.deploymentId] ∧
      ∃ proof refreshed, step = .finishActivation proof ∧
        plane.store.refreshActivationProof command.deploymentId proof = some refreshed ∧
        refreshed.completeActivation command.deploymentId now = some next.store := by
  cases step with
  | beginRun builds preflight =>
    simp only [deployStep, bind_eq_ok] at written
    obtain ⟨begun, isBegun, same⟩ := written
    cases same
    rcases DeploymentStore.beginRun_spec isBegun with same | transitioned
    · rw [withStore_store, same]
      exact .inl (.refl all)
    · exact .inl (transition_keeps all transitioned (by simp [DeploymentStatus.inProgress]) rfl)
  | materialize =>
    cases written
    exact .inl (.refl all)
  | beginStartup authOverlaySha256 =>
    simp only [deployStep, bind_eq_ok, DeploymentStore.beginStartup, orRaise_eq_ok] at written
    obtain ⟨store, transitioned, same⟩ := written
    cases same
    exact .inl (transition_keeps all transitioned (by simp [DeploymentStatus.inProgress]) rfl)
  | activate provisioned =>
    simp only [deployStep, bind_eq_ok, DeploymentStore.activate, orRaise_eq_ok] at written
    obtain ⟨store, ⟨recorded, transitioned, begun⟩, same⟩ := written
    cases same
    have first := transition_keeps all transitioned (by simp [DeploymentStatus.inProgress]) rfl
    exact .inl (first.trans (beginActivation_keeps first.evidenced begun))
  | confirm terminalRunning proof =>
    simp only [deployStep, bind_eq_ok, DeploymentStore.confirm, orRaise_eq_ok] at written
    obtain ⟨store, refreshed, same⟩ := written
    cases same
    exact .inl (refreshActivationProof_keeps all bound refreshed).1
  | beginRetirement =>
    simp only [deployStep, bind_eq_ok, DeploymentStore.beginRetirement, orRaise_eq_ok] at written
    obtain ⟨store, ⟨retiring, marked, candidate, -, ended⟩, same⟩ := written
    cases same
    have isRetiring : store = retiring := by
      split at ended
      · cases ended
        rfl
      · simp only [bind_eq_ok] at ended
        obtain ⟨_, -, _, -, same⟩ := ended
        cases same
        rfl
    rw [withStore_store, isRetiring]
    exact .inl (markRetiringPrevious_keeps all marked)
  | finishActivation proof =>
    simp only [deployStep, bind_eq_ok, DeploymentStore.finishActivation, orRaise_eq_ok] at written
    obtain ⟨store, ⟨refreshed, isRefreshed, completed⟩, same⟩ := written
    cases same
    obtain ⟨first, proven⟩ := refreshActivationProof_keeps all bound isRefreshed
    exact .inr ⟨first.trans (completeActivation_keeps first.evidenced proven completed), proof, refreshed, rfl,
      isRefreshed, completed⟩
  | failActivation probed errorCode errorSummary =>
    cases written
    exact .inl (failActivation_keeps all)
  | resetForRetry =>
    cases written
    cases reset : plane.store.resetForRetry command.deploymentId with
    | none => exact .inl (by simpa [reset] using StoreKeeps.refl all)
    | some store => exact .inl (by simpa [reset] using resetForRetry_keeps all reset)
  | markFailed errorCode errorSummary unhealthy =>
    cases written
    cases failed : plane.store.markFailed command.deploymentId errorCode errorSummary unhealthy now with
    | none => exact .inl (by simpa [failed] using StoreKeeps.refl all)
    | some store => exact .inl (by simpa [failed] using markFailed_keeps all failed)

/-- What a committed transaction does to the evidence. -/
theorem transact_keeps (all : AllEvidenced digest plane.store) {action : Action} (bound : action.ProofsBound digest)
    (written : plane.transact digest action = .ok next) :
    StoreKeeps digest plane.store next.store [] ∨ ∃ deploymentId,
      StoreKeeps digest plane.store next.store [deploymentId] ∧
      ∃ commandId token now proof refreshed, action = .deploy commandId token now (.finishActivation proof) ∧
        plane.store.refreshActivationProof deploymentId proof = some refreshed ∧
        refreshed.completeActivation deploymentId now = some next.store := by
  by_cases service : action.origin?.isSome = true
  · exact .inl (service_keeps all service written)
  cases action with
  | createProject projectId hostname =>
    simp only [transact, bind_eq_ok, DeploymentStore.createProject] at written
    obtain ⟨store, ⟨projects, -, made⟩, same⟩ := written
    cases made
    cases same
    exact .inl ⟨all, (fun old member _ => ⟨old, member, ⟨rfl, rfl, rfl, rfl, rfl⟩⟩),
      fun new member activated => .inl ⟨new, member, rfl, activated⟩⟩
  | markCommandFailed commandId token failure now =>
    simp only [transact, bind_eq_ok] at written
    obtain ⟨commands, -, same⟩ := written
    cases same
    exact .inl (.refl all)
  | markEffective commandId token now =>
    simp only [transact, verifyAndMarkEffective, bind_eq_ok] at written
    obtain ⟨_, -, _, -, _, -, commands, -, same⟩ := written
    cases same
    exact .inl (.refl all)
  | deploy commandId token now step =>
    simp only [transact, bind_eq_ok] at written
    obtain ⟨command, -, written⟩ := written
    rcases deployStep_keeps all bound written with kept | ⟨kept, proof, refreshed, rfl, isRefreshed, completed⟩
    · exact .inl kept
    · exact .inr ⟨command.deploymentId, kept, commandId, token, now, proof, refreshed, rfl, isRefreshed, completed⟩
  | recordStopped commandId token now targetId =>
    simp only [transact, recordStopped, bind_eq_ok] at written
    obtain ⟨_, -, target, -, _, -, _, -, same⟩ := written
    cases same
    exact .inl (recordStopped_keeps all target now)
  | claimDueForDispatch | claimForExecution | renewExecution | markDispatchFailed | removeContainer =>
    cases written
    exact .inl (.refl all)
  | _ => exact absurd rfl service

/-- The evidence of a step: every row is evidenced, activated rows keep theirs, and a row that becomes activated
passes `complete_activation` in this step. -/
theorem step_keeps (all : AllEvidenced digest plane.store) {action : Action} (bound : action.ProofsBound digest) :
    AllEvidenced digest (step digest plane action).store ∧
    (∀ old ∈ plane.store.deployments, old.activatedAt.isSome = true →
      ∃ new ∈ (step digest plane action).store.deployments, SameEvidence old new) ∧
    ∀ new ∈ (step digest plane action).store.deployments, new.activatedAt.isSome = true →
      (∃ old ∈ plane.store.deployments, old.id = new.id ∧ old.activatedAt.isSome = true) ∨
      CompletesActivation digest plane action new.id := by
  have quiet {store : DeploymentStore} (kept : StoreKeeps digest plane.store store []) :
      AllEvidenced digest store ∧
      (∀ old ∈ plane.store.deployments, old.activatedAt.isSome = true → ∃ new ∈ store.deployments, SameEvidence old new) ∧
      ∀ new ∈ store.deployments, new.activatedAt.isSome = true →
        (∃ old ∈ plane.store.deployments, old.id = new.id ∧ old.activatedAt.isSome = true) ∨
        CompletesActivation digest plane action new.id := by
    refine ⟨kept.evidenced, kept.kept, fun new member activated => ?_⟩
    rcases kept.origin new member activated with older | listed
    · exact .inl older
    · cases listed
  by_cases fresh : action.origin?.all plane.freshTransition = true
  · cases written : plane.transact digest action with
    | error error =>
      have refused : step digest plane action = plane := by
        unfold step
        rw [if_pos fresh, written, commit_error]
      rw [refused]
      exact quiet (.refl all)
    | ok next =>
      have committed : step digest plane action = next := by
        unfold step
        rw [if_pos fresh, written, commit_ok]
      rcases transact_keeps all bound written with kept | ⟨deploymentId, kept, completes⟩
      · rw [committed]
        exact quiet kept
      · refine ⟨by rw [committed]; exact kept.evidenced, by rw [committed]; exact kept.kept, ?_⟩
        intro new member activated
        rw [committed] at member
        rcases kept.origin new member activated with older | listed
        · exact .inl older
        · obtain ⟨commandId, token, now, proof, refreshed, isFinish, isRefreshed, completed⟩ := completes
          rw [List.mem_singleton.mp listed]
          exact .inr ⟨commandId, token, now, proof, refreshed, isFinish, isRefreshed, by rw [committed]; exact completed⟩
  · have refused : step digest plane action = plane := by
      unfold step
      rw [if_neg fresh]
    rw [refused]
    exact quiet (.refl all)

/-! ## Runs -/

variable {actions : List Action}

theorem run_evidenced (all : AllEvidenced digest plane.store) (bound : ∀ action ∈ actions, action.ProofsBound digest) :
    AllEvidenced digest (run (step digest) plane actions).store := by
  induction actions generalizing plane with
  | nil => exact all
  | cons action rest ih =>
    rw [run_cons]
    exact ih (step_keeps all (bound action List.mem_cons_self)).1
      fun other later => bound other (List.mem_cons_of_mem _ later)

/-- Evidence is kept to the end of a run. -/
theorem run_kept (all : AllEvidenced digest plane.store) (bound : ∀ action ∈ actions, action.ProofsBound digest)
    {old : Deployment} (member : old ∈ plane.store.deployments) (activated : old.activatedAt.isSome = true) :
    ∃ new ∈ (run (step digest) plane actions).store.deployments, SameEvidence old new := by
  induction actions generalizing plane old with
  | nil => exact ⟨old, member, ⟨rfl, rfl, rfl, rfl, rfl⟩⟩
  | cons action rest ih =>
    obtain ⟨evidenced, kept, -⟩ := step_keeps all (bound action List.mem_cons_self)
    obtain ⟨between, betweenMember, same⟩ := kept old member activated
    obtain ⟨new, newMember, sameAgain⟩ := ih evidenced
      (fun other later => bound other (List.mem_cons_of_mem _ later)) betweenMember
      (by rw [same.activatedAt]; exact activated)
    exact ⟨new, newMember, same.trans sameAgain⟩

/-- A row that is activated at the end of a run was activated before it or passed `complete_activation` in it. -/
theorem run_origin (all : AllEvidenced digest plane.store) (bound : ∀ action ∈ actions, action.ProofsBound digest)
    {new : Deployment} (member : new ∈ (run (step digest) plane actions).store.deployments)
    (activated : new.activatedAt.isSome = true) :
    (∃ old ∈ plane.store.deployments, old.id = new.id ∧ old.activatedAt.isSome = true) ∨
    ∃ before action after, actions = before ++ action :: after ∧
      CompletesActivation digest (run (step digest) plane before) action new.id := by
  induction actions generalizing plane with
  | nil => exact .inl ⟨new, member, rfl, activated⟩
  | cons action rest ih =>
    obtain ⟨evidenced, -, origin⟩ := step_keeps all (bound action List.mem_cons_self)
    rcases ih evidenced (fun other later => bound other (List.mem_cons_of_mem _ later)) member with
      ⟨between, betweenMember, sameId, wasActivated⟩ | ⟨before, later, after, rfl, completes⟩
    · rcases origin between betweenMember wasActivated with ⟨old, oldMember, oldId, oldActivated⟩ | completes
      · exact .inl ⟨old, oldMember, oldId.trans sameId, oldActivated⟩
      · exact .inr ⟨[], action, rest, rfl, sameId ▸ completes⟩
    · exact .inr ⟨action :: before, later, after, rfl, completes⟩

/-- Activation evidence is sound in every state of every run. Runs start from empty tables: the rows that migration 0009
left as `LEGACY_RUNNING`, which no code writes, are not among them. -/
theorem activation_evidence_sound (bound : ∀ action ∈ actions, action.ProofsBound digest) :
    (∀ deployment ∈ (run (step digest) empty actions).store.deployments, hasSuccessfulActivation digest deployment = true →
      (∃ before action after, actions = before ++ action :: after ∧
        CompletesActivation digest (run (step digest) empty before) action deployment.id) ∧
      deployment.Proven digest) ∧
    (∀ deployment ∈ (run (step digest) empty actions).store.deployments, deployment.status = .running →
      ∀ more : List Action, (∀ action ∈ more, action.ProofsBound digest) →
        ∃ later ∈ (run (step digest) empty (actions ++ more)).store.deployments, SameEvidence deployment later) ∧
    ∀ deploymentId ready errorCode errorSummary now next,
      (run (step digest) empty actions).store.restorePreviousAfterFailedActivation deploymentId ready errorCode
        errorSummary now = some next →
      ∀ row ∈ next.deployments, row.status = .running → hasSuccessfulActivation digest row = true := by
  have initial : AllEvidenced digest empty.store := fun _ member => by cases member
  have all := run_evidenced initial bound
  refine ⟨fun deployment member successful => ?_, fun deployment member running more moreBound => ?_, ?_⟩
  · have activated := activated_of_hasSuccessfulActivation successful
    refine ⟨?_, (all deployment member).proven activated⟩
    rcases run_origin initial bound member activated with ⟨old, oldMember, -⟩ | completes
    · cases oldMember
    · exact completes
  · rw [run_append]
    exact run_kept all moreBound member ((all deployment member).running running)
  · intro deploymentId ready errorCode errorSummary now next restored row member running
    have kept := @failActivation_keeps digest _ deploymentId all ready errorCode errorSummary now
    rw [DeploymentStore.failActivation, restored, Option.getD_some] at kept
    have evidenced := kept.evidenced row member
    exact hasSuccessfulActivation_of_activated evidenced (evidenced.running running)

end

/-- The first deployment of a project is activated. -/
theorem first_deployment_evidence : ∃ deployment ∈ (run (step sampleDigest) empty
      ([.createProject 1 "demo.example"] ++ firstDeployment)).store.deployments,
    deployment.status = .running ∧ deployment.Proven sampleDigest := by
  have bound : ∀ action ∈ [Action.createProject 1 "demo.example"] ++ firstDeployment,
      action.ProofsBound sampleDigest := by
    intro action member
    simp only [firstDeployment, activationRun, completionRun, List.map_cons, List.map_nil, List.cons_append,
      List.nil_append, List.mem_cons, List.not_mem_nil, or_false] at member
    rcases member with rfl | rfl | rfl | rfl | rfl | rfl | rfl | rfl | rfl | rfl | rfl <;> trivial
  have evaluated : ((run (step sampleDigest) empty ([.createProject 1 "demo.example"] ++ firstDeployment)
      ).store.deployments.get? 11).map (fun row => (row.status, hasSuccessfulActivation sampleDigest row)) =
        some (.running, true) := by decide +kernel
  obtain ⟨deployment, found, row⟩ := Option.map_eq_some_iff.mp evaluated
  simp only [Prod.mk.injEq] at row
  have member := Table.mem_of_get? found
  exact ⟨deployment, member, row.1, ((activation_evidence_sound bound).1 deployment member row.2).2⟩

end ControlPlane

end Mcplica.Deployments
