import Mcplica.Deployments.Rewrites

/-! # The deployment store invariant

The projects and deployments tables under any sequence of the writes the service and the runner commit,
each repository call being a step of its own. A transaction that makes two calls and commits is two
consecutive steps, so the steps allow every interleaving the transactions have and more. The database's
partial unique index on `RUNNING` rows plays no role. -/

namespace Mcplica.Deployments

open Mcplica.Domain Mcplica.Library

/-- The calls of `transition` in the service and the runner. -/
inductive TransitionUse where
  | scheduleStop
  | beginRun
  | beginStartup (authOverlaySha256 : String)
  | recordProvisioned (containerId imageDigest : String) (healthStatus : Option String)
  deriving Repr, DecidableEq

inductive RepositoryCall where
  | createProject (projectId : Uuid) (hostname : String)
  | setEnabled (projectId : Uuid) (isEnabled : Bool)
  | create (projectId : Uuid) (request : DeploymentRequest) (transitionStoppingIds : List Uuid)
  | transition (deploymentId : Uuid) (use : TransitionUse)
  | beginActivation (deploymentId : Uuid) (proof : DeploymentActivationProof)
  | refreshActivationProof (deploymentId : Uuid) (proof : DeploymentActivationProof)
  | markRetiringPrevious (deploymentId : Uuid)
  | restorePrevious (deploymentId : Uuid) (previousRuntimeReady : Bool) (errorCode errorSummary : String)
      (now : Instant)
  | completeActivation (deploymentId : Uuid) (now : Instant)
  | recordStopped (deploymentId : Uuid) (now : Instant)
  | markFailed (deploymentId : Uuid) (errorCode errorSummary : String) (unhealthy : Bool) (now : Instant)
  | resetForRetry (deploymentId : Uuid)

namespace DeploymentStore

def transitionFor (store : DeploymentStore) (deploymentId : Uuid) : TransitionUse → Option DeploymentStore
  | .scheduleStop =>
    store.transition deploymentId [.pending, .deploying, .healthcheck, .running, .unhealthy] .stopping
  | .beginRun => store.transition deploymentId [.pending, .deploying, .healthcheck] .deploying
  | .beginStartup authOverlaySha256 =>
    store.transition deploymentId [.deploying, .healthcheck] .healthcheck (.starting authOverlaySha256)
  | .recordProvisioned containerId imageDigest healthStatus =>
    store.transition deploymentId [.healthcheck] .healthcheck
      (.provisioned containerId imageDigest healthStatus)

def call (store : DeploymentStore) : RepositoryCall → DeploymentStore
  | .createProject projectId hostname => commit store (store.createProject projectId hostname)
  | .setEnabled projectId isEnabled => commit store (store.setEnabled projectId isEnabled)
  | .create projectId request transitionStoppingIds =>
    match store.projects.get? projectId with
    | none => store
    | some project => commit store ((store.requestDeployment project request transitionStoppingIds).map Prod.fst)
  | .transition deploymentId use => (store.transitionFor deploymentId use).getD store
  | .beginActivation deploymentId proof => (store.beginActivation deploymentId proof).getD store
  | .refreshActivationProof deploymentId proof => (store.refreshActivationProof deploymentId proof).getD store
  | .markRetiringPrevious deploymentId => (store.markRetiringPrevious deploymentId).getD store
  | .restorePrevious deploymentId previousRuntimeReady errorCode errorSummary now =>
    store.failActivation deploymentId previousRuntimeReady errorCode errorSummary now
  | .completeActivation deploymentId now => (store.completeActivation deploymentId now).getD store
  | .recordStopped deploymentId now =>
    match store.deployments.get? deploymentId with
    | none => store
    | some deployment => store.recordStopped deployment now
  | .markFailed deploymentId errorCode errorSummary unhealthy now =>
    (store.markFailed deploymentId errorCode errorSummary unhealthy now).getD store
  | .resetForRetry deploymentId => (store.resetForRetry deploymentId).getD store

end DeploymentStore

/-! ## The invariant -/

structure Consistent (store : DeploymentStore) : Prop where
  /-- A running deployment is its project's active deployment. -/
  runningActive : ∀ deployment ∈ store.deployments, deployment.status = .running →
    ∃ project ∈ store.projects, project.id = deployment.projectId ∧
      project.activeDeploymentId = some deployment.id
  singleInProgress : ∀ deployment ∈ store.deployments, ∀ other ∈ store.deployments,
    deployment.projectId = other.projectId → deployment.status.inProgress = true →
    other.status.inProgress = true → deployment = other
  /-- The pointers name a deployment of the project and its build. -/
  pointers : ∀ project ∈ store.projects, ∀ deploymentId, project.activeDeploymentId = some deploymentId →
    ∃ deployment ∈ store.deployments, deployment.id = deploymentId ∧ deployment.projectId = project.id ∧
      project.activeBuildId = some deployment.buildId
  projectExists : ∀ deployment ∈ store.deployments, ∃ project ∈ store.projects,
    project.id = deployment.projectId
  /-- A recorded predecessor is another deployment of the same project. -/
  predecessor : ∀ deployment ∈ store.deployments, ∀ previousId,
    deployment.previousActiveDeploymentId = some previousId →
    ∃ previous ∈ store.deployments, previous.id = previousId ∧ previous.projectId = deployment.projectId ∧
      previous.id ≠ deployment.id

theorem Consistent.owner_of_active {store : DeploymentStore} (consistent : Consistent store) {project : Project}
    {deployment : Deployment} (projectMember : project ∈ store.projects)
    (member : deployment ∈ store.deployments) (active : project.activeDeploymentId = some deployment.id) :
    deployment.projectId = project.id := by
  obtain ⟨other, otherMember, same, owner, -⟩ :=
    consistent.pointers project projectMember deployment.id active
  rw [← Table.eq_of_key otherMember member same, owner]

theorem consistent_empty : Consistent DeploymentStore.empty where
  runningActive _ member := by cases member
  singleInProgress _ member := by cases member
  pointers _ member := by cases member
  projectExists _ member := by cases member
  predecessor _ member := by cases member

section Rewriting

variable {store next : DeploymentStore} {row : Deployment → Deployment} {pointer : Project → Project}

/-- What a rewriting operation has to show to keep the invariant: rows that are running afterwards are
active afterwards, nothing enters the in-progress statuses, and moved pointers are right. -/
theorem consistent_of_rewrite (consistent : Consistent store) (rewrite : Rewrite store next row pointer)
    (running : ∀ deployment ∈ store.deployments, (row deployment).status = .running →
      ∀ project ∈ store.projects, project.id = deployment.projectId →
        (pointer project).activeDeploymentId = some deployment.id)
    (progress : ∀ deployment ∈ store.deployments, (row deployment).status.inProgress = true →
      deployment.status.inProgress = true)
    (pointers : ∀ project ∈ store.projects, ∀ deploymentId,
      (pointer project).activeDeploymentId = some deploymentId →
      project.activeDeploymentId = some deploymentId ∧ (pointer project).activeBuildId = project.activeBuildId ∨
      ∃ deployment ∈ store.deployments, deployment.id = deploymentId ∧ deployment.projectId = project.id ∧
        (pointer project).activeBuildId = some deployment.buildId) : Consistent next where
  runningActive := by
    intro deployment member status
    obtain ⟨old, oldMember, rfl⟩ := rewrite.mem_deployments.mp member
    obtain ⟨project, projectMember, same⟩ := consistent.projectExists old oldMember
    refine ⟨pointer project, rewrite.mem_projects.mpr ⟨project, projectMember, rfl⟩, ?_, ?_⟩
    · rw [rewrite.projectId, same, (rewrite.identity old).projectId]
    · rw [running old oldMember status project projectMember same, (rewrite.identity old).id]
  singleInProgress := by
    intro deployment member other otherMember sameProject status otherStatus
    obtain ⟨old, oldMember, rfl⟩ := rewrite.mem_deployments.mp member
    obtain ⟨otherOld, otherOldMember, rfl⟩ := rewrite.mem_deployments.mp otherMember
    rw [(rewrite.identity old).projectId, (rewrite.identity otherOld).projectId] at sameProject
    rw [consistent.singleInProgress old oldMember otherOld otherOldMember sameProject
      (progress old oldMember status) (progress otherOld otherOldMember otherStatus)]
  pointers := by
    intro project member deploymentId active
    obtain ⟨old, oldMember, rfl⟩ := rewrite.mem_projects.mp member
    rw [rewrite.projectId]
    have target : ∃ deployment ∈ store.deployments, deployment.id = deploymentId ∧
        deployment.projectId = old.id ∧ (pointer old).activeBuildId = some deployment.buildId := by
      rcases pointers old oldMember deploymentId active with ⟨kept, build⟩ | moved
      · rw [build]
        exact consistent.pointers old oldMember deploymentId kept
      · exact moved
    obtain ⟨deployment, deploymentMember, same, sameProject, build⟩ := target
    have identity := rewrite.identity deployment
    exact ⟨row deployment, rewrite.mem_deployments.mpr ⟨deployment, deploymentMember, rfl⟩,
      identity.id.trans same, identity.projectId.trans sameProject, by rw [build, identity.buildId]⟩
  projectExists := by
    intro deployment member
    obtain ⟨old, oldMember, rfl⟩ := rewrite.mem_deployments.mp member
    obtain ⟨project, projectMember, same⟩ := consistent.projectExists old oldMember
    refine ⟨pointer project, rewrite.mem_projects.mpr ⟨project, projectMember, rfl⟩, ?_⟩
    rw [rewrite.projectId, same, (rewrite.identity old).projectId]
  predecessor := by
    intro deployment member previousId recorded
    obtain ⟨old, oldMember, rfl⟩ := rewrite.mem_deployments.mp member
    rw [(rewrite.identity old).previous] at recorded
    obtain ⟨previous, previousMember, same, sameProject, different⟩ :=
      consistent.predecessor old oldMember previousId recorded
    have identity := rewrite.identity previous
    exact ⟨row previous, rewrite.mem_deployments.mpr ⟨previous, previousMember, rfl⟩,
      identity.id.trans same, by rw [identity.projectId, sameProject, (rewrite.identity old).projectId],
      by rw [identity.id, (rewrite.identity old).id]; exact different⟩

/-- The active pointer of a running deployment's project. -/
theorem Consistent.active_of_running (consistent : Consistent store) {deployment : Deployment}
    (member : deployment ∈ store.deployments) (status : deployment.status = .running) {project : Project}
    (projectMember : project ∈ store.projects) (same : project.id = deployment.projectId) :
    project.activeDeploymentId = some deployment.id := by
  obtain ⟨other, otherMember, otherSame, active⟩ := consistent.runningActive deployment member status
  rw [Table.eq_of_key projectMember otherMember (same.trans otherSame.symm)]
  exact active

/-- Operations that leave the pointers alone, start nothing and make nothing running. -/
theorem consistent_of_quiet (consistent : Consistent store) (rewrite : Rewrite store next row id)
    (running : ∀ deployment ∈ store.deployments, (row deployment).status = .running →
      deployment.status = .running)
    (progress : ∀ deployment ∈ store.deployments, (row deployment).status.inProgress = true →
      deployment.status.inProgress = true) : Consistent next :=
  consistent_of_rewrite consistent rewrite
    (fun _ member status _ projectMember same =>
      consistent.active_of_running member (running _ member status) projectMember same)
    progress (fun _ _ _ active => .inl ⟨active, rfl⟩)

/-- Operations that point one project at a deployment of its own, or at none, and leave no other
deployment of that project running. -/
theorem consistent_of_pointing (consistent : Consistent store) {project : Project}
    (target : Option Deployment)
    (targetRow : ∀ deployment, target = some deployment →
      deployment ∈ store.deployments ∧ deployment.projectId = project.id)
    (rewrite : Rewrite store next row (onProject project.id fun old =>
      { old with activeBuildId := target.map Deployment.buildId, activeDeploymentId := target.map Deployment.id }))
    (inside : ∀ deployment ∈ store.deployments, (row deployment).status = .running →
      deployment.projectId = project.id → target = some deployment)
    (outside : ∀ deployment ∈ store.deployments, (row deployment).status = .running →
      deployment.projectId ≠ project.id → deployment.status = .running)
    (progress : ∀ deployment ∈ store.deployments, (row deployment).status.inProgress = true →
      deployment.status.inProgress = true) : Consistent next := by
  apply consistent_of_rewrite consistent rewrite
  · intro deployment member status holder holderMember same
    by_cases chosen : holder.id = project.id
    · have pointed := inside deployment member status (same.symm.trans chosen)
      simp [onProject, chosen, pointed]
    · have running := outside deployment member status (same ▸ chosen)
      simp only [onProject, chosen, if_false]
      exact consistent.active_of_running member running holderMember same
  · exact progress
  · intro holder _ deploymentId active
    by_cases chosen : holder.id = project.id
    · simp only [onProject, if_pos chosen, Option.map_eq_some_iff] at active ⊢
      obtain ⟨deployment, pointed, same⟩ := active
      obtain ⟨member, sameProject⟩ := targetRow deployment pointed
      exact .inr ⟨deployment, member, same, sameProject.trans chosen.symm, deployment, pointed, rfl⟩
    · simp only [onProject, if_neg chosen] at active ⊢
      exact .inl ⟨active, trivial⟩

end Rewriting

/-! ## One call -/

section Calls

variable {store next : DeploymentStore} {deploymentId : Uuid}

/-- A single-row update whose result is neither running nor newly in progress. -/
theorem consistent_of_row (consistent : Consistent store) {deployment : Deployment}
    {values : Deployment → Deployment} (found : store.deployments.get? deploymentId = some deployment)
    (rewrite : Rewrite store next (onRow deploymentId (fun _ => true) values) id)
    (running : (values deployment).status = .running → deployment.status = .running)
    (progress : (values deployment).status.inProgress = true → deployment.status.inProgress = true) :
    Consistent next := by
  apply consistent_of_quiet consistent rewrite
  · intro row member status
    rcases onRow_cases found member (fun _ => true) values with ⟨rfl, -, written⟩ | ⟨-, written⟩
    · rw [written] at status
      exact running status
    · rwa [written] at status
  · intro row member status
    rcases onRow_cases found member (fun _ => true) values with ⟨rfl, -, written⟩ | ⟨-, written⟩
    · rw [written] at status
      exact progress status
    · rwa [written] at status

theorem consistent_transitionFor (consistent : Consistent store) {use : TransitionUse}
    (written : store.transitionFor deploymentId use = some next) : Consistent next := by
  cases use with
  | scheduleStop =>
    obtain ⟨deployment, found, -, rewrite⟩ := DeploymentStore.transition_spec written
    exact consistent_of_row consistent found rewrite (by simp) (by simp [DeploymentStatus.inProgress])
  | beginRun | beginStartup | recordProvisioned =>
    obtain ⟨deployment, found, expected, rewrite⟩ := DeploymentStore.transition_spec written
    refine consistent_of_row consistent found rewrite (by simp) fun _ => ?_
    cases status : deployment.status <;> simp_all [DeploymentStatus.inProgress]

/-- Only the active deployment of a project can be running. -/
theorem Consistent.eq_of_running (consistent : Consistent store) {deployment row : Deployment}
    {project : Project} (found : store.deployments.get? deploymentId = some deployment)
    (projectFound : store.projects.get? deployment.projectId = some project)
    (active : project.activeDeploymentId = some deploymentId) (member : row ∈ store.deployments)
    (running : row.status = .running) (same : row.projectId = project.id) : row = deployment := by
  have rowActive := consistent.active_of_running member running (Table.mem_of_get? projectFound) same.symm
  rw [active, Option.some.injEq] at rowActive
  exact Table.eq_of_key member (Table.mem_of_get? found) (rowActive.symm.trans (Table.key_of_get? found).symm)

theorem retiredRow_status {project : Project} {previousId : Option Uuid} {row : Deployment}
    {status : DeploymentStatus} (retired : (DeploymentStore.retiredRow project previousId row).status = status)
    (live : status ≠ .stopping) : row.status = status ∧
      ¬ (previousId = some row.id ∧ project.activeDeploymentId = some row.id ∧ row.status = .running) := by
  unfold DeploymentStore.retiredRow at retired
  split at retired
  · exact absurd retired.symm live
  · rename_i kept
    exact ⟨retired, kept⟩

theorem consistent_beginActivation (consistent : Consistent store) {proof : DeploymentActivationProof}
    (written : store.beginActivation deploymentId proof = some next) : Consistent next := by
  obtain ⟨deployment, project, found, starting, projectFound, -, pointer, rewrite⟩ :=
    DeploymentStore.beginActivation_spec written
  have member := Table.mem_of_get? found
  have sameId : deployment.id = deploymentId := Table.key_of_get? found
  have sameProject : project.id = deployment.projectId := Table.key_of_get? projectFound
  have identity := (DeploymentStore.retireRunning_rewrite store project
    deployment.previousActiveDeploymentId).identity
  have candidate : deployment.status ≠ .running ∧ deployment.status.inProgress = true := by
    unfold DeploymentStore.startingUp at starting
    cases status : deployment.status <;> simp_all [DeploymentStatus.inProgress]
  have stillRunning : ∀ row, (onRow deploymentId DeploymentStore.startingUp
      (DeploymentStore.activatingValues proof) (DeploymentStore.retiredRow project
        deployment.previousActiveDeploymentId row)).status = .running →
      row.status = .running ∧ ¬ (deployment.previousActiveDeploymentId = some row.id ∧
        project.activeDeploymentId = some row.id ∧ row.status = .running) := by
    intro row status
    rw [onRow] at status
    split at status
    · cases status
    · exact retiredRow_status status (by simp)
  apply consistent_of_pointing consistent (some deployment) (by rintro _ ⟨⟩; exact ⟨member, sameProject.symm⟩)
    rewrite
  · intro row rowMember status same
    obtain ⟨running, kept⟩ := stillRunning row status
    have active := consistent.active_of_running rowMember running (Table.mem_of_get? projectFound) same.symm
    -- The pointer was free, at the candidate or at its predecessor, and none of them is running now.
    rw [active] at pointer
    rcases pointer with none | itself | previous
    · cases none
    · rw [← sameId, Option.some.injEq] at itself
      rw [Table.eq_of_key rowMember member itself] at running
      exact absurd running candidate.1
    · exact absurd ⟨previous.symm, active, running⟩ kept
  · intro row _ status _
    exact (stillRunning row status).1
  · intro row rowMember status
    simp only [Function.comp_apply] at status
    rw [onRow] at status
    split at status
    · rename_i chosen
      simp only [Bool.and_eq_true, decide_eq_true_eq, (identity row).id] at chosen
      rw [Table.eq_of_key rowMember member (chosen.1.trans sameId.symm)]
      exact candidate.2
    · rw [(retiredRow_status rfl (by intro stopping; rw [stopping] at status; cases status)).1]
      exact status

/-- The candidate leaves `HEALTHCHECK` and `RUNNING`, and no other row moves. -/
theorem failing_row {deployment row : Deployment} (found : store.deployments.get? deploymentId = some deployment)
    (member : row ∈ store.deployments) {errorCode errorSummary : String} {now : Instant}
    {status : DeploymentStatus}
    (failed : (onRow deploymentId DeploymentStore.failing
      (DeploymentStore.failedActivationValues errorCode errorSummary now) row).status = status)
    (live : status ≠ .unhealthy) :
    row.status = status ∧ (row = deployment → status ≠ .running) := by
  rcases onRow_cases found member DeploymentStore.failing
    (DeploymentStore.failedActivationValues errorCode errorSummary now) with ⟨-, -, written⟩ | ⟨kept, written⟩
  · rw [written] at failed
    exact absurd failed.symm live
  · rw [written] at failed
    refine ⟨failed, fun same running => ?_⟩
    have notFailing := kept same
    simp [DeploymentStore.failing, failed, running] at notFailing

theorem consistent_failActivation (consistent : Consistent store) (deploymentId : Uuid) (ready : Bool)
    (errorCode errorSummary : String) (now : Instant) :
    Consistent (store.failActivation deploymentId ready errorCode errorSummary now) := by
  unfold DeploymentStore.failActivation
  cases written : store.restorePreviousAfterFailedActivation deploymentId ready errorCode errorSummary now with
  | none => exact consistent
  | some next =>
    rw [Option.getD_some]
    rcases DeploymentStore.restorePreviousAfterFailedActivation_spec written with
      rfl | ⟨deployment, project, found, projectFound, active, outcome⟩
    · exact consistent
    have member := Table.mem_of_get? found
    have sameProject : project.id = deployment.projectId := Table.key_of_get? projectFound
    have nothingRuns : ∀ row ∈ store.deployments, (onRow deploymentId DeploymentStore.failing
        (DeploymentStore.failedActivationValues errorCode errorSummary now) row).status = .running →
        row.status = .running ∧ row.projectId ≠ project.id := by
      intro row rowMember status
      obtain ⟨running, notCandidate⟩ := failing_row found rowMember status (by simp)
      refine ⟨running, fun same => ?_⟩
      exact notCandidate (consistent.eq_of_running found projectFound active rowMember running same) rfl
    have progress : ∀ row ∈ store.deployments, (onRow deploymentId DeploymentStore.failing
        (DeploymentStore.failedActivationValues errorCode errorSummary now) row).status.inProgress = true →
        row.status.inProgress = true := by
      intro row rowMember status
      rw [(failing_row found rowMember rfl (by intro unhealthy; rw [unhealthy] at status; cases status)).1]
      exact status
    rcases outcome with ⟨previous, recorded, previousFound, -, -, rewrite⟩ | rewrite
    · have previousMember := Table.mem_of_get? previousFound
      obtain ⟨other, otherMember, otherId, otherProject, -⟩ :=
        consistent.predecessor deployment member previous.id recorded
      have previousProject : previous.projectId = project.id := by
        rw [Table.eq_of_key previousMember otherMember otherId.symm, otherProject, sameProject]
      have runs : ∀ row ∈ store.deployments, (onRow previous.id DeploymentStore.halted
          DeploymentStore.restoredValues (onRow deploymentId DeploymentStore.failing
            (DeploymentStore.failedActivationValues errorCode errorSummary now) row)).status = .running →
          row = previous ∨ row.status = .running ∧ row.projectId ≠ project.id := by
        intro row rowMember status
        have identity : SameIdentity row (onRow deploymentId DeploymentStore.failing
            (DeploymentStore.failedActivationValues errorCode errorSummary now) row) :=
          onRow_identity (by intro _; exact ⟨rfl, rfl, rfl, rfl⟩) row
        rw [onRow] at status
        split at status
        · rename_i chosen
          simp only [Bool.and_eq_true, decide_eq_true_eq, identity.id] at chosen
          exact .inl (Table.eq_of_key rowMember previousMember chosen.1)
        · exact .inr (nothingRuns row rowMember status)
      apply consistent_of_pointing consistent (some previous)
        (by rintro _ ⟨⟩; exact ⟨previousMember, previousProject⟩) rewrite
      · intro row rowMember status same
        rcases runs row rowMember status with rfl | ⟨-, apart⟩
        · rfl
        · exact absurd same apart
      · intro row rowMember status apart
        rcases runs row rowMember status with rfl | ⟨running, -⟩
        · exact absurd previousProject apart
        · exact running
      · intro row rowMember status
        simp only [Function.comp_apply] at status
        rw [onRow] at status
        split at status
        · cases status
        · exact progress row rowMember status
    · apply consistent_of_pointing consistent none (by simp) rewrite
      · intro row rowMember status same
        exact absurd same (nothingRuns row rowMember status).2
      · intro row rowMember status _
        exact (nothingRuns row rowMember status).1
      · exact progress

theorem stoppedRow_status {previousId : Option Uuid} {now : Instant} {row : Deployment}
    {status : DeploymentStatus} (stopped : (DeploymentStore.stoppedRow previousId now row).status = status)
    (live : status ≠ .stopped) : row.status = status := by
  unfold DeploymentStore.stoppedRow at stopped
  split at stopped
  · exact absurd stopped.symm live
  · exact stopped

theorem stoppedRow_identity (previousId : Option Uuid) (now : Instant) (row : Deployment) :
    SameIdentity row (DeploymentStore.stoppedRow previousId now row) := by
  unfold DeploymentStore.stoppedRow
  split <;> exact ⟨rfl, rfl, rfl, rfl⟩

theorem consistent_completeActivation (consistent : Consistent store) {now : Instant}
    (written : store.completeActivation deploymentId now = some next) : Consistent next := by
  obtain ⟨deployment, project, found, ready, projectFound, -, active, -, -, rewrite⟩ :=
    DeploymentStore.completeActivation_spec written
  have member := Table.mem_of_get? found
  have sameId : deployment.id = deploymentId := Table.key_of_get? found
  have sameProject : project.id = deployment.projectId := Table.key_of_get? projectFound
  have identity := stoppedRow_identity deployment.previousActiveDeploymentId now
  apply consistent_of_rewrite consistent rewrite
  · intro row rowMember status holder holderMember same
    simp only [Function.comp_apply] at status
    rw [onRow] at status
    split at status
    · rename_i chosen
      simp only [Bool.and_true, decide_eq_true_eq, (identity row).id] at chosen
      have rowIs : row = deployment := Table.eq_of_key rowMember member (chosen.trans sameId.symm)
      rw [id, Table.eq_of_key holderMember (Table.mem_of_get? projectFound)
        (same.trans (rowIs ▸ sameProject.symm)), active, chosen]
    · exact consistent.active_of_running rowMember (stoppedRow_status status (by simp)) holderMember same
  · intro row rowMember status
    simp only [Function.comp_apply] at status
    rw [onRow] at status
    split at status
    · cases status
    · rw [stoppedRow_status rfl (by intro stopped; rw [stopped] at status; cases status)]
      exact status
  · intro holder _ _ pointed
    exact .inl ⟨pointed, rfl⟩

theorem consistent_recordStopped (consistent : Consistent store) {deployment : Deployment}
    (found : store.deployments.get? deploymentId = some deployment) (now : Instant) :
    Consistent (store.recordStopped deployment now) := by
  have sameId : deployment.id = deploymentId := Table.key_of_get? found
  have kept : ∀ row ∈ store.deployments, ∀ status, status ≠ .stopped →
      (onRow deployment.id (fun _ => true) (DeploymentStore.stoppedValues now) row).status = status →
      row.status = status ∧ row ≠ deployment := by
    intro row rowMember status live stopped
    rw [sameId] at stopped
    rcases onRow_cases found rowMember (fun _ => true) (DeploymentStore.stoppedValues now) with
      ⟨-, -, written⟩ | ⟨different, written⟩
    · rw [written] at stopped
      exact absurd stopped.symm live
    · rw [written] at stopped
      exact ⟨stopped, fun same => by cases different same⟩
  apply consistent_of_rewrite consistent (DeploymentStore.recordStopped_rewrite store deployment now)
  · intro row rowMember status holder holderMember same
    obtain ⟨running, different⟩ := kept row rowMember .running (by simp) status
    have active := consistent.active_of_running rowMember running holderMember same
    have notCleared : ¬ (holder.id = deployment.projectId ∧ holder.activeDeploymentId = some deployment.id) := by
      rintro ⟨-, cleared⟩
      rw [active, Option.some.injEq] at cleared
      exact different (Table.eq_of_key rowMember (Table.mem_of_get? found) cleared)
    rw [if_neg notCleared]
    exact active
  · intro row rowMember status
    have moved := kept row rowMember _ (by intro stopped; rw [stopped] at status; cases status) rfl
    rw [moved.1]
    exact status
  · intro holder _ activeId pointed
    split at pointed
    · cases pointed
    · rename_i untouched
      rw [if_neg untouched]
      exact .inl ⟨pointed, rfl⟩

theorem consistent_setEnabled (consistent : Consistent store) {projectId : Uuid} {isEnabled : Bool}
    (written : store.setEnabled projectId isEnabled = .ok next) : Consistent next := by
  have pointers : ∀ project : Project,
      (onProject projectId ({ · with isEnabled }) project).activeDeploymentId = project.activeDeploymentId ∧
      (onProject projectId ({ · with isEnabled }) project).activeBuildId = project.activeBuildId := by
    intro project
    unfold onProject
    split <;> exact ⟨rfl, rfl⟩
  apply consistent_of_rewrite consistent (DeploymentStore.setEnabled_spec written)
  · intro row rowMember status holder holderMember same
    rw [(pointers holder).1]
    exact consistent.active_of_running rowMember status holderMember same
  · exact fun _ _ status => status
  · intro holder _ activeId pointed
    rw [(pointers holder).1] at pointed
    exact .inl ⟨pointed, (pointers holder).2⟩

theorem consistent_createProject (consistent : Consistent store) {projectId : Uuid} {hostname : String}
    (written : store.createProject projectId hostname = .ok next) : Consistent next := by
  simp only [DeploymentStore.createProject, bind_eq_ok, orRaise_eq_ok] at written
  obtain ⟨projects, inserted, written⟩ := written
  cases written
  have old : ∀ project ∈ store.projects, project ∈ projects := fun _ member =>
    (Table.mem_insert inserted).mpr (.inl member)
  exact {
    runningActive := by
      intro deployment member status
      obtain ⟨project, projectMember, rest⟩ := consistent.runningActive deployment member status
      exact ⟨project, old project projectMember, rest⟩
    singleInProgress := consistent.singleInProgress
    pointers := by
      intro project member deploymentId active
      rcases (Table.mem_insert inserted).mp member with existing | rfl
      · exact consistent.pointers project existing deploymentId active
      · cases active
    projectExists := by
      intro deployment member
      obtain ⟨project, projectMember, same⟩ := consistent.projectExists deployment member
      exact ⟨project, old project projectMember, same⟩
    predecessor := consistent.predecessor }

/-- No row of the project is in progress when a request passes. -/
theorem notInProgress_of_free {projectId : Uuid} {stopping : List Uuid}
    (free : store.hasInProgress projectId stopping = false) {row : Deployment} (member : row ∈ store.deployments)
    (same : row.projectId = projectId) : row.status.inProgress = false := by
  have notIn := Table.exists_eq_false.mp free row member
  cases status : row.status <;> simp_all [DeploymentStatus.inProgress]

theorem consistent_requestDeployment (consistent : Consistent store) {project : Project}
    {request : DeploymentRequest} {stopping : List Uuid} {row : Deployment} {projectId : Uuid}
    (projectFound : store.projects.get? projectId = some project)
    (written : store.requestDeployment project request stopping = .ok (next, row)) : Consistent next := by
  obtain ⟨-, free, -, sameProject, -, previous, pending, -, projects, inserted⟩ :=
    DeploymentStore.requestDeployment_spec written
  have projectMember := Table.mem_of_get? projectFound
  have old : ∀ deployment ∈ store.deployments, deployment ∈ next.deployments := fun _ member =>
    (Table.mem_insert inserted).mpr (.inl member)
  have fresh : ∀ deployment ∈ store.deployments, deployment.id ≠ row.id :=
    Table.get?_eq_none.mp (Table.key_of_insert inserted)
  refine ⟨?_, ?_, ?_, ?_, ?_⟩
  · intro deployment member status
    rw [projects]
    rcases (Table.mem_insert inserted).mp member with existing | rfl
    · exact consistent.runningActive deployment existing status
    · rw [pending] at status
      cases status
  · intro deployment member other otherMember same status otherStatus
    have blocked : ∀ deployment ∈ store.deployments, deployment.projectId = row.projectId →
        deployment.status.inProgress = true → False := by
      intro deployment existing same status
      rw [notInProgress_of_free free existing (same.trans sameProject)] at status
      cases status
    rcases (Table.mem_insert inserted).mp member with existing | rfl
    · rcases (Table.mem_insert inserted).mp otherMember with otherExisting | rfl
      · exact consistent.singleInProgress deployment existing other otherExisting same status otherStatus
      · exact (blocked deployment existing same status).elim
    · rcases (Table.mem_insert inserted).mp otherMember with otherExisting | rfl
      · exact (blocked other otherExisting same.symm otherStatus).elim
      · rfl
  · intro holder member deploymentId active
    rw [projects] at member
    obtain ⟨deployment, existing, rest⟩ := consistent.pointers holder member deploymentId active
    exact ⟨deployment, old deployment existing, rest⟩
  · intro deployment member
    rw [projects]
    rcases (Table.mem_insert inserted).mp member with existing | rfl
    · exact consistent.projectExists deployment existing
    · exact ⟨project, projectMember, sameProject.symm⟩
  · intro deployment member previousId recorded
    rcases (Table.mem_insert inserted).mp member with existing | rfl
    · obtain ⟨predecessor, predecessorMember, rest⟩ :=
        consistent.predecessor deployment existing previousId recorded
      exact ⟨predecessor, old predecessor predecessorMember, rest⟩
    · rw [previous] at recorded
      obtain ⟨predecessor, predecessorMember, same, sameOwner, -⟩ :=
        consistent.pointers project projectMember previousId recorded
      exact ⟨predecessor, old predecessor predecessorMember, same, sameOwner.trans sameProject.symm,
        fresh predecessor predecessorMember⟩

theorem consistent_call (store : DeploymentStore) (call : RepositoryCall) (consistent : Consistent store) :
    Consistent (store.call call) := by
  have unlessNone : ∀ result : Option DeploymentStore,
      (∀ next, result = some next → Consistent next) → Consistent (result.getD store) := by
    intro result after
    cases result with
    | none => exact consistent
    | some next => exact after next rfl
  cases call with
  | createProject projectId hostname =>
    exact commit_induction consistent fun _ written => consistent_createProject consistent written
  | setEnabled projectId isEnabled =>
    exact commit_induction consistent fun _ written => consistent_setEnabled consistent written
  | create projectId request stopping =>
    simp only [DeploymentStore.call]
    split
    · exact consistent
    · rename_i project projectFound
      apply commit_induction consistent
      intro next written
      cases requested : store.requestDeployment project request stopping with
      | error error =>
        rw [requested] at written
        cases written
      | ok result =>
        rw [requested] at written
        cases written
        exact consistent_requestDeployment consistent projectFound requested
  | transition deploymentId use =>
    exact unlessNone _ fun _ written => consistent_transitionFor consistent written
  | beginActivation deploymentId proof =>
    exact unlessNone _ fun _ written => consistent_beginActivation consistent written
  | refreshActivationProof deploymentId proof =>
    refine unlessNone _ fun next written => ?_
    obtain ⟨row, unmoved, rewrite⟩ := DeploymentStore.refreshActivationProof_spec written
    exact consistent_of_quiet consistent rewrite (fun deployment _ status => (unmoved deployment).1 ▸ status)
      (fun deployment _ status => (unmoved deployment).1 ▸ status)
  | markRetiringPrevious deploymentId =>
    refine unlessNone _ fun next written => ?_
    obtain ⟨deployment, found, -, rewrite⟩ := DeploymentStore.markRetiringPrevious_spec written
    exact consistent_of_row consistent found rewrite (fun status => status) (fun status => status)
  | restorePrevious deploymentId ready errorCode errorSummary now =>
    exact consistent_failActivation consistent deploymentId ready errorCode errorSummary now
  | completeActivation deploymentId now =>
    exact unlessNone _ fun _ written => consistent_completeActivation consistent written
  | recordStopped deploymentId now =>
    simp only [DeploymentStore.call]
    split
    · exact consistent
    · rename_i deployment found
      exact consistent_recordStopped consistent found now
  | markFailed deploymentId errorCode errorSummary unhealthy now =>
    refine unlessNone _ fun next written => ?_
    obtain ⟨deployment, row, found, inProgress, status, -, rewrite⟩ := DeploymentStore.markFailed_spec written
    refine consistent_of_row consistent found rewrite ?_ fun _ => inProgress
    rw [status]
    cases unhealthy <;> simp
  | resetForRetry deploymentId =>
    refine unlessNone _ fun next written => ?_
    obtain ⟨deployment, row, found, inProgress, status, -, rewrite⟩ :=
      DeploymentStore.resetForRetry_spec written
    refine consistent_of_row consistent found rewrite ?_ fun _ => inProgress
    rw [status]
    simp

end Calls

/-! ## Every run -/

theorem consistent_run (calls : List RepositoryCall) :
    Consistent (run DeploymentStore.call DeploymentStore.empty calls) :=
  run_invariant Consistent consistent_call consistent_empty calls

/-- In every state reached from empty tables: a running deployment is its project's active deployment,
so a project has at most one; at most one deployment of a project is pending, deploying or in its health
check; and an active deployment's build is the active build. -/
theorem deployment_store_invariant (calls : List RepositoryCall) :
    (∀ deployment ∈ (run DeploymentStore.call DeploymentStore.empty calls).deployments,
      deployment.status = .running →
      ∃ project, (run DeploymentStore.call DeploymentStore.empty calls).projects.get? deployment.projectId =
        some project ∧ project.activeDeploymentId = some deployment.id) ∧
    (∀ deployment ∈ (run DeploymentStore.call DeploymentStore.empty calls).deployments,
      ∀ other ∈ (run DeploymentStore.call DeploymentStore.empty calls).deployments,
      deployment.projectId = other.projectId → deployment.status = .running → other.status = .running →
      deployment = other) ∧
    (∀ deployment ∈ (run DeploymentStore.call DeploymentStore.empty calls).deployments,
      ∀ other ∈ (run DeploymentStore.call DeploymentStore.empty calls).deployments,
      deployment.projectId = other.projectId →
      deployment.status = .pending ∨ deployment.status = .deploying ∨ deployment.status = .healthcheck →
      other.status = .pending ∨ other.status = .deploying ∨ other.status = .healthcheck →
      deployment = other) ∧
    (∀ project ∈ (run DeploymentStore.call DeploymentStore.empty calls).projects,
      ∀ deploymentId, project.activeDeploymentId = some deploymentId →
      ∃ deployment, (run DeploymentStore.call DeploymentStore.empty calls).deployments.get? deploymentId =
        some deployment ∧ project.activeBuildId = some deployment.buildId) := by
  have consistent := consistent_run calls
  have inProgress : ∀ status : DeploymentStatus,
      status = .pending ∨ status = .deploying ∨ status = .healthcheck → status.inProgress = true := by
    rintro status (rfl | rfl | rfl) <;> rfl
  refine ⟨?_, ?_, ?_, ?_⟩
  · intro deployment member running
    obtain ⟨project, projectMember, same, active⟩ := consistent.runningActive deployment member running
    exact ⟨project, Table.get?_eq_some.mpr ⟨projectMember, same⟩, active⟩
  · intro deployment member other otherMember same running otherRunning
    obtain ⟨project, projectMember, owner, active⟩ := consistent.runningActive deployment member running
    have otherActive := consistent.active_of_running otherMember otherRunning projectMember (owner.trans same)
    rw [active, Option.some.injEq] at otherActive
    exact Table.eq_of_key member otherMember otherActive
  · intro deployment member other otherMember same status otherStatus
    exact consistent.singleInProgress deployment member other otherMember same (inProgress _ status)
      (inProgress _ otherStatus)
  · intro project member deploymentId active
    obtain ⟨deployment, deploymentMember, same, -, build⟩ :=
      consistent.pointers project member deploymentId active
    exact ⟨deployment, Table.get?_eq_some.mpr ⟨deploymentMember, same⟩, build⟩

end Mcplica.Deployments
