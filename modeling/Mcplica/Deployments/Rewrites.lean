import Mathlib.Data.Option.Basic
import Mcplica.Deployments.Transactions

/-! # What a repository operation does to the rows

Every operation except the two inserts maps the rows of both tables. `Rewrite` names the two maps, and
one lemma per operation gives its guards and its maps; invariants are proved from these lemmas only. -/

namespace Mcplica.Deployments

open Mcplica.Domain Mcplica.Library

/-- The columns that are written once, when the row is created. -/
structure SameIdentity (old new : Deployment) : Prop where
  id : new.id = old.id
  projectId : new.projectId = old.projectId
  buildId : new.buildId = old.buildId
  previous : new.previousActiveDeploymentId = old.previousActiveDeploymentId

theorem SameIdentity.refl (row : Deployment) : SameIdentity row row := ⟨rfl, rfl, rfl, rfl⟩

theorem SameIdentity.trans {first second third : Deployment} (left : SameIdentity first second)
    (right : SameIdentity second third) : SameIdentity first third :=
  ⟨right.id.trans left.id, right.projectId.trans left.projectId, right.buildId.trans left.buildId,
    right.previous.trans left.previous⟩

structure Rewrite (store next : DeploymentStore) (row : Deployment → Deployment) (pointer : Project → Project) :
    Prop where
  deployments : next.deployments.rows = store.deployments.rows.map row
  projects : next.projects.rows = store.projects.rows.map pointer
  identity : ∀ deployment, SameIdentity deployment (row deployment)
  projectId : ∀ project, (pointer project).id = project.id

namespace Rewrite

variable {store next last : DeploymentStore} {row nextRow : Deployment → Deployment}
  {pointer nextPointer : Project → Project}

theorem refl (store : DeploymentStore) : Rewrite store store id id where
  deployments := by simp
  projects := by simp
  identity := SameIdentity.refl
  projectId _ := rfl

theorem trans (first : Rewrite store next row pointer) (second : Rewrite next last nextRow nextPointer) :
    Rewrite store last (nextRow ∘ row) (nextPointer ∘ pointer) where
  deployments := by rw [second.deployments, first.deployments, List.map_map]
  projects := by rw [second.projects, first.projects, List.map_map]
  identity deployment := (first.identity deployment).trans (second.identity (row deployment))
  projectId project := (second.projectId (pointer project)).trans (first.projectId project)

theorem mem_deployments (rewrite : Rewrite store next row pointer) {deployment : Deployment} :
    deployment ∈ next.deployments ↔ ∃ old ∈ store.deployments, deployment = row old := by
  rw [← Table.mem_rows, rewrite.deployments, List.mem_map]
  simp only [Table.mem_rows, eq_comm]

theorem mem_projects (rewrite : Rewrite store next row pointer) {project : Project} :
    project ∈ next.projects ↔ ∃ old ∈ store.projects, project = pointer old := by
  rw [← Table.mem_rows, rewrite.projects, List.mem_map]
  simp only [Table.mem_rows, eq_comm]

theorem get?_deployment (rewrite : Rewrite store next row pointer) (deploymentId : Uuid) :
    next.deployments.get? deploymentId = (store.deployments.get? deploymentId).map row := by
  cases found : store.deployments.get? deploymentId with
  | none =>
    rw [Option.map_none, Table.get?_eq_none]
    intro deployment member
    obtain ⟨old, oldMember, rfl⟩ := rewrite.mem_deployments.mp member
    rw [key_deployment, (rewrite.identity old).id]
    exact Table.get?_eq_none.mp found old oldMember
  | some old =>
    have same := Table.key_of_get? found
    rw [Option.map_some, Table.get?_eq_some]
    refine ⟨rewrite.mem_deployments.mpr ⟨old, Table.mem_of_get? found, rfl⟩, ?_⟩
    rw [key_deployment, (rewrite.identity old).id]
    exact same

end Rewrite

/-! ## The elementary writes -/

/-- The map of an update that is guarded by the row's id and a further condition. -/
def onRow (deploymentId : Uuid) (where_ : Deployment → Bool) (values : Deployment → Deployment)
    (row : Deployment) : Deployment :=
  if row.id = deploymentId && where_ row then values row else row

def onProject (projectId : Uuid) (values : Project → Project) (project : Project) : Project :=
  if project.id = projectId then values project else project

theorem onRow_identity {deploymentId : Uuid} {where_ : Deployment → Bool} {values : Deployment → Deployment}
    (identity : ∀ row, SameIdentity row (values row)) (row : Deployment) :
    SameIdentity row (onRow deploymentId where_ values row) := by
  unfold onRow
  split
  · exact identity row
  · exact SameIdentity.refl row

/-- A guarded update changes the row it looked up, or nothing. -/
theorem onRow_cases {table : Table Deployment} {deploymentId : Uuid} {deployment row : Deployment}
    (found : table.get? deploymentId = some deployment) (member : row ∈ table) (where_ : Deployment → Bool)
    (values : Deployment → Deployment) :
    row = deployment ∧ where_ row = true ∧ onRow deploymentId where_ values row = values row ∨
      (row = deployment → where_ row = false) ∧ onRow deploymentId where_ values row = row := by
  have same : row.id = deploymentId ↔ row = deployment := by
    constructor
    · intro same
      exact Table.eq_of_key member (Table.mem_of_get? found) (same.trans (Table.key_of_get? found).symm)
    · rintro rfl
      exact Table.key_of_get? found
  unfold onRow
  cases holds : where_ row with
  | false => simp
  | true =>
    by_cases chosen : row = deployment
    · have sameId := same.mpr chosen
      exact .inl ⟨chosen, rfl, by simp [sameId]⟩
    · have different := same.not.mpr chosen
      simp [different, chosen]

namespace DeploymentStore

variable {store next : DeploymentStore} {deploymentId : Uuid} {where_ : Deployment → Bool}
  {values : Deployment → Deployment} {keeps : ∀ deployment, (values deployment).id = deployment.id}

theorem assignIf_rewrite (identity : ∀ row, SameIdentity row (values row)) :
    Rewrite store (store.assignIf deploymentId where_ values keeps) (onRow deploymentId where_ values) id where
  deployments := rfl
  projects := by simp [assignIf]
  identity := onRow_identity identity
  projectId _ := rfl

theorem assign_rewrite (identity : ∀ row, SameIdentity row (values row)) :
    Rewrite store (store.assign deploymentId values keeps) (onRow deploymentId (fun _ => true) values) id where
  deployments := by
    apply List.map_congr_left
    intro row _
    simp [onRow]
  projects := by simp [assign]
  identity := onRow_identity identity
  projectId _ := rfl

theorem assignWhere_spec (written : store.assignWhere deploymentId where_ values keeps = some next)
    (identity : ∀ row, SameIdentity row (values row)) :
    ∃ deployment, store.deployments.get? deploymentId = some deployment ∧ where_ deployment = true ∧
      Rewrite store next (onRow deploymentId (fun _ => true) values) id := by
  unfold assignWhere at written
  split at written
  · rename_i deployment found
    split at written
    · rename_i holds
      cases written
      exact ⟨deployment, found, holds, assign_rewrite identity⟩
    · cases written
  · cases written

theorem point_rewrite (store : DeploymentStore) (projectId : Uuid)
    (activeBuildId activeDeploymentId : Option Uuid) :
    Rewrite store (store.point projectId activeBuildId activeDeploymentId) id
      (onProject projectId fun project => { project with activeBuildId, activeDeploymentId }) where
  deployments := by simp [point]
  projects := by simp [point, Table.update, onProject]
  identity := SameIdentity.refl
  projectId project := by
    unfold onProject
    split <;> rfl

/-! ## The operations -/

theorem transition_spec {expected : List DeploymentStatus} {status : DeploymentStatus}
    {values : TransitionValues} (written : store.transition deploymentId expected status values = some next) :
    ∃ deployment, store.deployments.get? deploymentId = some deployment ∧
      expected.contains deployment.status = true ∧
      Rewrite store next
        (onRow deploymentId (fun _ => true) fun row => { values.apply row with status }) id := by
  apply assignWhere_spec written
  intro row
  cases values <;> exact ⟨rfl, rfl, rfl, rfl⟩

/-- The first transaction of a run changes nothing or moves the row to `DEPLOYING`. -/
theorem beginRun_spec {digest : RuntimeIdentity → Instant → String} {targets : RunTargets}
    {builds : Uuid → Option DeployableBuild} {preflight : Except McplicaError Unit}
    {begun : DeploymentStore × RunBranch}
    (written : store.beginRun digest deploymentId targets builds preflight = .ok begun) :
    begun.1 = store ∨
      store.transition deploymentId [.pending, .deploying, .healthcheck] .deploying = some begun.1 := by
  simp only [beginRun, bind_eq_ok, orRaise_eq_ok] at written
  obtain ⟨deployment, -, written⟩ := written
  cases status : deployment.status <;> simp only [status] at written
  case running | unhealthy | stopped | failed | stopping =>
    cases written
    exact .inl rfl
  case pending | deploying | healthcheck =>
    simp only [bind_eq_ok, orRaise_eq_ok, require_eq_ok] at written
    obtain ⟨project, -, -, -, written⟩ := written
    split at written
    · cases written
      exact .inl rfl
    · simp only [bind_eq_ok, orRaise_eq_ok, require_eq_ok] at written
      obtain ⟨-, -, -, -, -, -, next, transitioned, -, -, written⟩ := written
      cases written
      exact .inr transitioned

theorem markRetiringPrevious_spec (written : store.markRetiringPrevious deploymentId = some next) :
    ∃ deployment, store.deployments.get? deploymentId = some deployment ∧ deployment.status = .healthcheck ∧
      Rewrite store next
        (onRow deploymentId (fun _ => true) ({ · with activationPhase := some .retiringPrevious })) id := by
  obtain ⟨deployment, found, holds, rewrite⟩ := assignWhere_spec written fun _ => ⟨rfl, rfl, rfl, rfl⟩
  simp only [Bool.and_eq_true, decide_eq_true_eq] at holds
  exact ⟨deployment, found, holds.1.1.1, rewrite⟩

theorem markFailed_spec {errorCode errorSummary : String} {unhealthy : Bool} {now : Instant}
    (written : store.markFailed deploymentId errorCode errorSummary unhealthy now = some next) :
    ∃ deployment row, store.deployments.get? deploymentId = some deployment ∧
      deployment.status.inProgress = true ∧
      (row deployment).status = (if unhealthy then .unhealthy else .failed) ∧
      (row deployment).startedAt = deployment.startedAt ∧
      Rewrite store next (onRow deploymentId (fun _ => true) row) id := by
  obtain ⟨deployment, found, holds, rewrite⟩ := assignWhere_spec written fun _ => ⟨rfl, rfl, rfl, rfl⟩
  refine ⟨deployment, _, found, ?_, rfl, rfl, rewrite⟩
  cases status : deployment.status <;> simp_all [DeploymentStatus.inProgress]

theorem resetForRetry_spec (written : store.resetForRetry deploymentId = some next) :
    ∃ deployment row, store.deployments.get? deploymentId = some deployment ∧
      deployment.status.inProgress = true ∧ (row deployment).status = .pending ∧
      (row deployment).startedAt = none ∧ Rewrite store next (onRow deploymentId (fun _ => true) row) id := by
  obtain ⟨deployment, found, holds, rewrite⟩ := assignWhere_spec written fun _ => ⟨rfl, rfl, rfl, rfl⟩
  refine ⟨deployment, _, found, ?_, rfl, rfl, rewrite⟩
  cases status : deployment.status <;> simp_all [DeploymentStatus.inProgress]

/-- Status and start time of a row are left alone. -/
def Unmoved (row : Deployment → Deployment) : Prop :=
  ∀ deployment, (row deployment).status = deployment.status ∧ (row deployment).startedAt = deployment.startedAt

theorem refreshActivationProof_spec {proof : DeploymentActivationProof}
    (written : store.refreshActivationProof deploymentId proof = some next) :
    ∃ row, Unmoved row ∧ Rewrite store next row id := by
  simp only [refreshActivationProof, Option.bind_eq_bind, Option.bind_eq_some_iff] at written
  obtain ⟨deployment, -, -, -, -, -, written⟩ := written
  split at written
  · cases written
    refine ⟨_, ?_, assignIf_rewrite (by intro _; exact ⟨rfl, rfl, rfl, rfl⟩)⟩
    intro row
    unfold onRow
    split <;> exact ⟨rfl, rfl⟩
  · cases written
    refine ⟨_, ?_, assign_rewrite (by intro _; exact ⟨rfl, rfl, rfl, rfl⟩)⟩
    intro row
    unfold onRow
    split <;> exact ⟨rfl, rfl⟩

/-! ### Activation -/

/-- The map of `retireRunning`. -/
def retiredRow (project : Project) (previousId : Option Uuid) (row : Deployment) : Deployment :=
  if previousId = some row.id ∧ project.activeDeploymentId = some row.id ∧ row.status = .running then
    { row with status := .stopping }
  else
    row

theorem retireRunning_rewrite (store : DeploymentStore) (project : Project) (previousId : Option Uuid) :
    Rewrite store (store.retireRunning project previousId) (retiredRow project previousId) id where
  deployments := by
    unfold retireRunning
    cases previousId with
    | none =>
      have unchanged : retiredRow project none = id := by
        funext row
        simp [retiredRow]
      simp [unchanged]
    | some previous =>
      simp only
      split
      · rename_i active
        apply List.map_congr_left
        intro row _
        by_cases same : row.id = previous
        · simp [retiredRow, same, active]
        · simp [retiredRow, same, Ne.symm same]
      · rename_i inactive
        rw [List.map_congr_left (g := id), List.map_id]
        intro row _
        by_cases same : previous = row.id
        · simp [retiredRow, same ▸ inactive]
        · simp [retiredRow, same]
  projects := by
    unfold retireRunning
    cases previousId with
    | none => simp
    | some previous =>
      simp only
      split <;> simp [assignIf]
  identity row := by
    unfold retiredRow
    split <;> exact ⟨rfl, rfl, rfl, rfl⟩
  projectId _ := rfl

def startingUp (row : Deployment) : Bool :=
  [DeploymentStatus.deploying, .healthcheck].contains row.status

theorem beginActivation_spec {proof : DeploymentActivationProof}
    (written : store.beginActivation deploymentId proof = some next) :
    ∃ deployment project, store.deployments.get? deploymentId = some deployment ∧
      startingUp deployment = true ∧ store.projects.get? deployment.projectId = some project ∧
      project.isEnabled = true ∧
      (project.activeDeploymentId = none ∨ project.activeDeploymentId = some deploymentId ∨
        project.activeDeploymentId = deployment.previousActiveDeploymentId) ∧
      Rewrite store next
        (onRow deploymentId startingUp (activatingValues proof) ∘
          retiredRow project deployment.previousActiveDeploymentId)
        (onProject project.id fun row =>
          { row with activeBuildId := some deployment.buildId, activeDeploymentId := some deployment.id }) := by
  simp only [beginActivation, Option.bind_eq_bind, Option.bind_eq_some_iff, Option.guard_eq_some',
    exists_const] at written
  obtain ⟨deployment, found, starting, project, projectFound, enabled, -, pointer, written⟩ := written
  cases written
  refine ⟨deployment, project, found, starting, projectFound, enabled, by simpa using pointer, ?_⟩
  exact ((retireRunning_rewrite store project _).trans
    (assignIf_rewrite (by intro _; exact ⟨rfl, rfl, rfl, rfl⟩))).trans (point_rewrite _ _ _ _)

def failing (row : Deployment) : Bool :=
  row.status = .healthcheck || row.status = .running

def halted (row : Deployment) : Bool :=
  row.status = .stopping || row.status = .stopped

/-- Either nothing is written, or the active candidate fails and the pointers go to its predecessor or
to nothing. -/
theorem restorePreviousAfterFailedActivation_spec {ready : Bool} {errorCode errorSummary : String} {now : Instant}
    (written : store.restorePreviousAfterFailedActivation deploymentId ready errorCode errorSummary now =
      some next) :
    next = store ∨
    ∃ deployment project, store.deployments.get? deploymentId = some deployment ∧
      store.projects.get? deployment.projectId = some project ∧
      project.activeDeploymentId = some deploymentId ∧
      ((∃ previous, deployment.previousActiveDeploymentId = some previous.id ∧
          store.deployments.get? previous.id = some previous ∧ ready = true ∧ restorable previous = true ∧
          Rewrite store next
            (onRow previous.id halted restoredValues ∘
              onRow deploymentId failing (failedActivationValues errorCode errorSummary now))
            (onProject project.id fun row =>
              { row with activeBuildId := some previous.buildId, activeDeploymentId := some previous.id })) ∨
        Rewrite store next (onRow deploymentId failing (failedActivationValues errorCode errorSummary now))
          (onProject project.id fun row => { row with activeBuildId := none, activeDeploymentId := none })) := by
  simp only [restorePreviousAfterFailedActivation, Option.bind_eq_bind, Option.bind_eq_some_iff] at written
  obtain ⟨deployment, found, written⟩ := written
  split at written
  · cases written
    exact .inl rfl
  · rename_i project projectFound
    split at written
    · cases written
      exact .inl rfl
    · rename_i active
      have failed : ∀ values : Project → Project, ∀ build active, values = (fun row => { row with
            activeBuildId := build, activeDeploymentId := active }) →
          Rewrite store ((store.assignIf deploymentId failing
            (failedActivationValues errorCode errorSummary now)).point project.id build active)
            (onRow deploymentId failing (failedActivationValues errorCode errorSummary now))
            (onProject project.id values) := by
        rintro _ build active rfl
        exact (assignIf_rewrite (by intro _; exact ⟨rfl, rfl, rfl, rfl⟩)).trans (point_rewrite _ _ _ _)
      refine .inr ⟨deployment, project, found, projectFound, by simpa using active, ?_⟩
      split at written
      · cases written
        exact .inr (failed _ _ _ rfl)
      · rename_i previous previousFound
        simp only [Option.bind_eq_some_iff] at previousFound
        obtain ⟨previousId, recorded, previousFound⟩ := previousFound
        have same : previous.id = previousId := Table.key_of_get? previousFound
        subst same
        split at written
        · rename_i usable
          rw [Bool.and_eq_true] at usable
          cases written
          refine .inl ⟨previous, recorded, previousFound, usable.1, usable.2, ?_⟩
          exact ((assignIf_rewrite (by intro _; exact ⟨rfl, rfl, rfl, rfl⟩)).trans
            (assignIf_rewrite (by intro _; exact ⟨rfl, rfl, rfl, rfl⟩))).trans (point_rewrite _ _ _ _)
        · cases written
          exact .inr (failed _ _ _ rfl)

/-- The map of `retirePrevious`. -/
def stoppedRow (previousId : Option Uuid) (now : Instant) (row : Deployment) : Deployment :=
  if previousId = some row.id ∧ row.status = .stopping then stoppedValues now row else row

theorem retirePrevious_spec {deployment : Deployment} {now : Instant}
    (written : store.retirePrevious deployment now = some next) :
    (∀ previousId, deployment.previousActiveDeploymentId = some previousId →
      ∃ previous, store.deployments.get? previousId = some previous ∧
        previous.projectId = deployment.projectId ∧ halted previous = true) ∧
      Rewrite store next (stoppedRow deployment.previousActiveDeploymentId now) id := by
  unfold retirePrevious at written
  split at written
  · rename_i none
    cases written
    rw [none]
    refine ⟨by simp, ?_⟩
    have unchanged : stoppedRow Option.none now = id := by
      funext row
      simp [stoppedRow]
    rw [unchanged]
    exact Rewrite.refl store
  · rename_i previousId recorded
    simp only [Option.bind_eq_bind, Option.bind_eq_some_iff, Option.guard_eq_some', exists_const] at written
    obtain ⟨previous, found, sameProject, status, written⟩ := written
    cases written
    rw [recorded]
    refine ⟨?_, ?_⟩
    · rintro _ ⟨⟩
      refine ⟨previous, found, by simpa using sameProject, ?_⟩
      unfold halted
      grind
    · have rewrite : Rewrite store
          (store.assignIf previousId (fun row => row.status = .stopping) (stoppedValues now))
          (onRow previousId (fun row => row.status = .stopping) (stoppedValues now)) id :=
        assignIf_rewrite (by intro _; exact ⟨rfl, rfl, rfl, rfl⟩)
      have same : onRow previousId (fun row => row.status = .stopping) (stoppedValues now) =
          stoppedRow (some previousId) now := by
        funext row
        by_cases same : row.id = previousId
        · simp [onRow, stoppedRow, same]
        · simp [onRow, stoppedRow, same, Ne.symm same]
      rw [← same]
      exact rewrite

theorem completeActivation_spec {now : Instant}
    (written : store.completeActivation deploymentId now = some next) :
    ∃ deployment project, store.deployments.get? deploymentId = some deployment ∧
      readyToComplete deployment = true ∧ store.projects.get? deployment.projectId = some project ∧
      project.isEnabled = true ∧ project.activeDeploymentId = some deploymentId ∧
      (∀ previousId, deployment.previousActiveDeploymentId = some previousId →
        ∃ previous, store.deployments.get? previousId = some previous ∧
          previous.projectId = deployment.projectId ∧ halted previous = true) ∧
      (∀ row ∈ store.deployments, row.projectId = deployment.projectId → row.id ≠ deploymentId →
        row.status ≠ .running) ∧
      Rewrite store next
        (onRow deploymentId (fun _ => true) (runningValues now) ∘
          stoppedRow deployment.previousActiveDeploymentId now) id := by
  simp only [completeActivation, Option.bind_eq_bind, Option.bind_eq_some_iff, Option.guard_eq_some',
    exists_const] at written
  obtain ⟨deployment, found, ready, project, projectFound, open_, retired, retiredSpec, alone, written⟩ := written
  obtain ⟨previous, retiredRewrite⟩ := retirePrevious_spec retiredSpec
  obtain ⟨-, -, -, rewrite⟩ := assignWhere_spec written fun _ => ⟨rfl, rfl, rfl, rfl⟩
  simp only [Bool.and_eq_true, decide_eq_true_eq] at open_
  refine ⟨deployment, project, found, ready, projectFound, open_.1, open_.2, previous, ?_,
    retiredRewrite.trans rewrite⟩
  intro row member same different running
  have absent := Table.exists_eq_false.mp (by simpa using alone) row member
  simp [same, different, running] at absent

/-! ### Stopping -/

theorem recordStopped_rewrite (store : DeploymentStore) (deployment : Deployment) (now : Instant) :
    Rewrite store (store.recordStopped deployment now)
      (onRow deployment.id (fun _ => true) (stoppedValues now))
      (fun project => if project.id = deployment.projectId ∧ project.activeDeploymentId = some deployment.id then
        { project with activeDeploymentId := none } else project) := by
  have cleared : Rewrite store (store.clearActive deployment.projectId deployment.id) id
      (fun project => if project.id = deployment.projectId ∧ project.activeDeploymentId = some deployment.id then
        { project with activeDeploymentId := none } else project) := {
    deployments := by simp [clearActive]
    projects := by simp [clearActive, Table.update]
    identity := SameIdentity.refl
    projectId := by
      intro project
      split <;> rfl }
  exact cleared.trans (assign_rewrite (by intro _; exact ⟨rfl, rfl, rfl, rfl⟩))

theorem setEnabled_spec {projectId : Uuid} {isEnabled : Bool}
    (written : store.setEnabled projectId isEnabled = .ok next) :
    Rewrite store next id (onProject projectId ({ · with isEnabled })) := by
  simp only [setEnabled, bind_eq_ok, orRaise_eq_ok] at written
  obtain ⟨-, -, written⟩ := written
  cases written
  exact {
    deployments := by simp
    projects := by simp [Table.update, onProject]
    identity := SameIdentity.refl
    projectId := by
      intro project
      unfold onProject
      split <;> rfl }

/-! ### Inserts -/

theorem requestDeployment_spec {project : Project} {request : DeploymentRequest} {stopping : List Uuid}
    {row : Deployment} (written : store.requestDeployment project request stopping = .ok (next, row)) :
    project.isEnabled = true ∧ store.hasInProgress project.id stopping = false ∧
      row.id = request.deploymentId ∧ row.projectId = project.id ∧ row.buildId = request.buildId ∧
      row.previousActiveDeploymentId = project.activeDeploymentId ∧ row.status = .pending ∧
      row.startedAt = none ∧ next.projects = store.projects ∧
      store.deployments.insert row = some next.deployments := by
  simp only [requestDeployment, bind_eq_ok, require_eq_ok, orRaise_eq_ok] at written
  obtain ⟨-, enabled, -, free, build, -, -, -, -, -, manifest, -, -, -, -, -, -, -, deployments, inserted, written⟩ :=
    written
  cases written
  exact ⟨enabled, by simpa using free, rfl, rfl, rfl, rfl, rfl, rfl, rfl, inserted⟩

end DeploymentStore

end Mcplica.Deployments
