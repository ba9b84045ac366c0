import Mcplica.Deployments.RunnerSteps

/-! # The steps of the services

Requests, stops, redeployments and the effects of access token changes, each with the deployments it
asks to stop. -/

namespace Mcplica.Deployments.ControlPlane

open Mcplica.Domain Mcplica.Library Relation

variable {plane middle next : ControlPlane} {origin : Origin} {asked : List Uuid} {disabling : Option Uuid}

/-! ## Projects -/

theorem createProject_calm (sound : Sound plane) {projectId : Uuid} {hostname : String} {store : DeploymentStore}
    (written : plane.store.createProject projectId hostname = .ok store) :
    Calm plane (plane.withStore store) := by
  have consistent := consistent_createProject sound.consistent written
  simp only [DeploymentStore.createProject, bind_eq_ok, orRaise_eq_ok] at written
  obtain ⟨projects, inserted, written⟩ := written
  cases written
  -- The new project points at nothing.
  have pointed : ∀ project ∈ projects, ∀ deploymentId, project.activeDeploymentId = some deploymentId →
      project ∈ plane.store.projects := by
    intro project member deploymentId pointer
    rcases (Table.mem_insert inserted).mp member with old | rfl
    · exact old
    · cases pointer
  have active : ∀ deploymentId, (plane.withStore { plane.store with projects }).Active deploymentId ↔
      plane.Active deploymentId := by
    intro deploymentId
    constructor
    · rintro ⟨project, member, pointer⟩
      exact ⟨project, pointed project member deploymentId pointer, pointer⟩
    · rintro ⟨project, member, pointer⟩
      exact ⟨project, (Table.mem_insert inserted).mpr (.inl member), pointer⟩
  refine ⟨⟨?_, ?_, ?_, ?_⟩, ?_, .of_eq rfl⟩
  · exact { sound with
      consistent := consistent
      activeNotStopped := fun project member deployment deploymentMember pointer =>
        sound.activeNotStopped project (pointed project member deployment.id pointer) deployment deploymentMember
          pointer }
  · intro deploymentId retired
    refine ⟨retired.known, retired.settled, fun isActive => retired.stopping ((active _).mp isActive), ?_⟩
    refine retired.guarded.step (fun _ _ falls => falls) ?_ ?_
    · rintro source (inProgress | isActive)
      · exact .inl (.inl inProgress)
      · exact .inl (.inr ((active source).mp isActive))
    · exact fun source held _ => .inl ⟨fun isActive => held.1 ((active source).mp isActive), held.2⟩
  · intro disabledId
    constructor
    · rintro ⟨project, member, same, disabled⟩
      rcases (Table.mem_insert inserted).mp member with old | rfl
      · exact ⟨project, old, same, disabled⟩
      · cases disabled
    · rintro ⟨project, member, rest⟩
      exact ⟨project, (Table.mem_insert inserted).mpr (.inl member), rest⟩
  · intro quiescedId _ quiesced project member same activeId pointer
    exact quiesced project (pointed project member activeId pointer) same activeId pointer
  · exact fun deployment member running => ⟨deployment, member, rfl, running⟩

/-- A transaction goes on with stops. -/
theorem Outcome.then_stops {transitionId : Uuid} (outcome : Outcome plane middle [] disabling)
    (rests : Rests plane middle) (stops : Stops middle next transitionId asked)
    (cut : ∀ deploymentId, CutOff plane asked deploymentId → CutOff middle asked deploymentId) :
    Outcome plane next asked disabling where
  sound := stops.advance.sound
  retired deploymentId retired := stops.advance.retired deploymentId (outcome.retired deploymentId retired)
  cutOff deploymentId isCut := stops.retired outcome.sound (cut deploymentId isCut)
  runs := (rests.trans stops.rests).runs
  stops command member stop := by
    rcases stops.added command member with old | ⟨-, target, -⟩
    · rcases outcome.stops command old stop with older | none
      · exact .inl older
      · cases none
    · exact .inr target
  disabled projectId disabled := outcome.disabled projectId ((stops.advance.disabled projectId).mp disabled)
  quiesced projectId disabled quiesced := by
    have between := (stops.advance.disabled projectId).mp disabled
    exact stops.advance.quiesced projectId between (outcome.quiesced projectId between quiesced)

section SetEnabled

variable {projectId : Uuid} {isEnabled : Bool} {store : DeploymentStore}

theorem setEnabled_change (sound : Sound plane) (written : plane.store.setEnabled projectId isEnabled = .ok store) :
    RowChange plane (plane.withStore store) id (onProject projectId ({ · with isEnabled })) ∧
      ∀ project : Project, (onProject projectId ({ · with isEnabled }) project).activeDeploymentId =
        project.activeDeploymentId := by
  have pointers : ∀ project : Project, (onProject projectId ({ · with isEnabled }) project).activeDeploymentId =
      project.activeDeploymentId := by
    intro project
    unfold onProject
    split <;> rfl
  exact ⟨quiet_change sound (DeploymentStore.setEnabled_spec written) (consistent_setEnabled sound.consistent written)
    pointers fun _ member => sound.quiet_refl member, pointers⟩

theorem setEnabled_outcome (sound : Sound plane) (written : plane.store.setEnabled projectId isEnabled = .ok store) :
    Outcome plane (plane.withStore store) [] (if isEnabled then none else some projectId) ∧
      Rests plane (plane.withStore store) := by
  obtain ⟨change, pointers⟩ := setEnabled_change sound written
  have rests : Rests plane (plane.withStore store) := rests_of_rewrite change.rewrite fun _ _ => id
  refine ⟨⟨change.sound sound, fun _ => change.retired sound, ?_, rests.runs, ?_, ?_, ?_⟩, rests⟩
  · exact fun deploymentId cut => change.retired sound (cut.retired sound)
  · exact fun command member stop => .inl ⟨command, member, stop, rfl⟩
  · rintro disabledId ⟨project, member, same, disabled⟩
    obtain ⟨old, oldMember, rfl⟩ := change.rewrite.mem_projects.mp member
    rw [change.rewrite.projectId] at same
    unfold onProject at disabled
    split at disabled
    · rename_i target
      right
      rw [← same, target]
      cases disabled
      rfl
    · exact .inl ⟨old, oldMember, same, disabled⟩
  · intro quiescedId _ quiesced project member same activeId pointer previousId falls
    obtain ⟨old, oldMember, rfl⟩ := change.rewrite.mem_projects.mp member
    rw [change.rewrite.projectId] at same
    rw [pointers] at pointer
    exact quiesced old oldMember same activeId pointer previousId (change.fallback sound falls)

theorem setEnabled_cutOff (sound : Sound plane) (written : plane.store.setEnabled projectId isEnabled = .ok store)
    {deploymentId : Uuid} (cut : CutOff plane asked deploymentId) :
    CutOff (plane.withStore store) asked deploymentId := by
  obtain ⟨change, pointers⟩ := setEnabled_change sound written
  have rows : ∀ deployment ∈ store.deployments, deployment ∈ plane.store.deployments := by
    intro deployment member
    obtain ⟨old, oldMember, rfl⟩ := change.rewrite.mem_deployments.mp member
    exact oldMember
  have active : ∀ deploymentId, (plane.withStore store).Active deploymentId → plane.Active deploymentId := by
    rintro deploymentId ⟨project, member, pointer⟩
    obtain ⟨old, oldMember, rfl⟩ := change.rewrite.mem_projects.mp member
    exact ⟨old, oldMember, (pointers old).symm.trans pointer⟩
  refine ⟨?_, ?_, ?_, ?_⟩
  · obtain ⟨deployment, member, same⟩ := cut.known
    exact ⟨deployment, change.rewrite.mem_deployments.mpr ⟨deployment, member, rfl⟩, same⟩
  · exact fun deployment member => cut.inProgress deployment (rows deployment member)
  · exact fun isActive deployment member => cut.active (active _ isActive) deployment (rows deployment member)
  · intro source live remains path
    refine cut.unreached source ?_ (remains.imp_left (active source))
      (TransGen.mono (fun _ _ => change.fallback sound) _ _ path)
    rcases live with ⟨deployment, member, rest⟩ | isActive
    · exact .inl ⟨deployment, rows deployment member, rest⟩
    · exact .inr (active source isActive)

theorem updateEnabled_outcome (sound : Sound plane)
    (written : plane.updateEnabled origin projectId isEnabled = .ok next) :
    Outcome plane next (if isEnabled then [] else plane.stopTargets projectId)
      (if isEnabled then none else some projectId) := by
  simp only [updateEnabled, bind_eq_ok] at written
  obtain ⟨store, written, rest⟩ := written
  obtain ⟨outcome, rests⟩ := setEnabled_outcome sound written
  cases isEnabled with
  | true =>
    cases rest
    exact outcome
  | false =>
    have targets : (plane.withStore store).stopTargets projectId = plane.stopTargets projectId := by
      have same : store.deployments = plane.store.deployments :=
        Table.ext (by simpa using (DeploymentStore.setEnabled_spec written).deployments)
      simp only [stopTargets, DeploymentStore.listStoppableForProject, withStore_store, same]
    have stops := scheduleStopProject_stops outcome.sound rest
    rw [targets] at stops
    exact outcome.then_stops rests stops fun _ cut => setEnabled_cutOff sound written cut

end SetEnabled

/-! ## Requests -/

theorem Requested.calm {project : Project} {stopping : List Uuid} {row : Deployment}
    (requested : Requested plane next origin project stopping row) (sound : Sound plane)
    (projectMember : project ∈ plane.store.projects)
    (stopsFirst : ∀ deploymentId ∈ stopping, ∃ stop ∈ plane.commands.commands, stop.action = .stop ∧
      stop.deploymentId = deploymentId ∧ stop.transitionId = origin.transitionId ∧ stop.status ≠ .effective) :
    Calm plane next where
  advance := requested.advance sound projectMember stopsFirst
  rests deployment member running := by
    rcases requested.mem_iff.mp member with old | rfl
    · exact ⟨deployment, old, rfl, running⟩
    · rw [requested.pending] at running
      cases running
  keeps command member stop := by
    rcases requested.mem_commands.mp member with old | rfl
    · exact ⟨command, old, stop, rfl⟩
    · cases stop

theorem requestInSession_calm {project : Project} {request : DeploymentRequest} (sound : Sound plane)
    (projectMember : project ∈ plane.store.projects)
    (written : plane.requestInSession origin project request [] = .ok next) : Calm plane next := by
  obtain ⟨row, requested⟩ := requestInSession_spec sound projectMember written
  exact requested.calm sound projectMember nofun

theorem requestDeployment_calm {projectId : Uuid} {request : DeploymentRequest} (sound : Sound plane)
    (written : plane.requestDeployment origin projectId request = .ok next) : Calm plane next := by
  simp only [requestDeployment, bind_eq_ok, orRaise_eq_ok] at written
  obtain ⟨project, found, written⟩ := written
  exact requestInSession_calm sound (Table.mem_of_get? found) written

theorem restart_calm {digest : RuntimeIdentity → Instant → String} {deploymentId : Uuid}
    {request : DeploymentRequest} (sound : Sound plane)
    (written : plane.restart digest origin deploymentId request = .ok next) : Calm plane next := by
  simp only [restart, bind_eq_ok, orRaise_eq_ok, require_eq_ok] at written
  obtain ⟨target, -, project, found, -, -, -, -, -, -, written⟩ := written
  exact requestInSession_calm sound (Table.mem_of_get? found) written

theorem rollback_calm {digest : RuntimeIdentity → Instant → String} {projectId targetId : Uuid}
    {request : DeploymentRequest} (sound : Sound plane)
    (written : plane.rollback digest origin projectId targetId request = .ok next) : Calm plane next := by
  simp only [rollback, bind_eq_ok, orRaise_eq_ok, require_eq_ok] at written
  obtain ⟨project, found, target, -, -, -, -, -, written⟩ := written
  exact requestInSession_calm sound (Table.mem_of_get? found) written

/-! ## Stops -/

/-- The deployment `stop` asks to stop. -/
def stopAsked (plane : ControlPlane) (deploymentId : Uuid) : List Uuid :=
  match plane.store.deployments.get? deploymentId with
  | none => []
  | some current => if current.status = .stopped ∨ current.status = .failed then [] else [deploymentId]

theorem stop_outcome {deploymentId : Uuid} (sound : Sound plane)
    (written : plane.stop origin deploymentId = .ok next) :
    Outcome plane next (plane.stopAsked deploymentId) none := by
  simp only [stop, bind_eq_ok, orRaise_eq_ok] at written
  obtain ⟨current, found, written⟩ := written
  have sameId : current.id = deploymentId := Table.key_of_get? found
  simp only [stopAsked, found]
  split at written
  · rename_i ended
    cases written
    rw [if_pos ended]
    exact (Calm.refl sound).outcome sound
  · rename_i running
    rw [if_neg running, ← sameId]
    exact (scheduleStopInSession_stops sound (sameId ▸ found) written).outcome sound

/-! ## Redeployment -/

/-- The rows a redeployment stops before it requests the replacement. -/
def redeployStopping (plane : ControlPlane) (projectId : Uuid) (options : RedeployOptions) : List Deployment :=
  (plane.store.listStoppableForProject projectId).filter (stoppedByRedeploy options)

/-- The replacement is requested: the project is enabled, has a build to refresh, and the request is
accepted once the stops are scheduled. -/
def replaces (plane : ControlPlane) (origin : Origin) (projectId : Uuid) (request : DeploymentRequest)
    (options : RedeployOptions) : Bool :=
  (plane.store.projects.get? projectId).any fun project =>
    match plane.scheduleStops origin (plane.redeployStopping projectId options),
        plane.targetBuild project (plane.store.listStoppableForProject projectId) with
    | .ok stopped, some buildId =>
      project.isEnabled && (stopped.requestInSession origin project
        { request with buildId, stopOldFirst := options.stopOldFirst }
        ((plane.redeployStopping projectId options).map Deployment.id)).isOk
    | _, _ => false

/-- What a redeployment asks to stop: everything, if nothing replaces it and it may fall back to that. -/
def redeployAsked (plane : ControlPlane) (origin : Origin) (projectId : Uuid) (request : DeploymentRequest)
    (options : RedeployOptions) : List Uuid :=
  if options.fallbackToStop && !plane.replaces origin projectId request options then
    plane.stopTargets projectId
  else
    (plane.redeployStopping projectId options).map Deployment.id

/-- Only membership in the list of targets matters. -/
theorem Stops.of_mem_iff {transitionId : Uuid} {targets others : List Uuid}
    (stops : Stops plane next transitionId targets) (same : ∀ target, target ∈ targets ↔ target ∈ others) :
    Stops plane next transitionId others where
  advance := stops.advance
  rewrite := by
    have rows : stoppingRow others = stoppingRow targets := by
      funext row
      simp only [stoppingRow, same row.id]
    rw [rows]
    exact stops.rewrite
  containers := stops.containers
  overlays := stops.overlays
  kept := stops.kept
  added command member := by
    rcases stops.added command member with old | ⟨stop, target, rest⟩
    · exact .inl old
    · exact .inr ⟨stop, (same _).mp target, rest⟩
  asked deploymentId target := stops.asked deploymentId ((same deploymentId).mpr target)

/-- Scheduled stops do not change which deployments of a project are stoppable, nor their order. -/
theorem Stops.stopTargets {transitionId : Uuid} {targets : List Uuid}
    (stops : Stops plane next transitionId targets) (projectId : Uuid) :
    next.stopTargets projectId = plane.stopTargets projectId := by
  have kept : ∀ row, (stoppingRow targets row).projectId = row.projectId ∧
      DeploymentStore.stoppable (stoppingRow targets row).status = DeploymentStore.stoppable row.status ∧
      (stoppingRow targets row).createdAt = row.createdAt := by
    intro row
    unfold stoppingRow
    split
    · rename_i stopped
      refine ⟨rfl, ?_, rfl⟩
      cases status : row.status <;> simp_all [DeploymentStore.stoppable]
    · exact ⟨rfl, rfl, rfl⟩
  unfold ControlPlane.stopTargets DeploymentStore.listStoppableForProject
  rw [Table.select_map stops.rewrite.deployments, List.map_map]
  · apply List.map_congr_left
    intro row _
    exact (stoppingRow_identity targets row).id
  · intro row
    rw [(kept row).1, (kept row).2.1]
  · intro left right
    rw [(kept left).2.2, (kept right).2.2]

theorem redeployStopping_stops {projectId : Uuid} {options : RedeployOptions} (sound : Sound plane)
    (scheduled : plane.scheduleStops origin (plane.redeployStopping projectId options) = .ok next) :
    Stops plane next origin.transitionId ((plane.redeployStopping projectId options).map Deployment.id) := by
  refine scheduleStops_stops sound ?_ ?_ scheduled
  · exact fun deployment member => (listStoppable_found (List.mem_of_mem_filter member)).1
  · exact (listStoppable_nodup plane.store projectId).sublist (List.filter_sublist.map _)

/-- Stopping the rest of the project as well amounts to stopping the project. -/
theorem redeployFallback_stops {projectId : Uuid} {options : RedeployOptions}
    (stops : Stops plane middle origin.transitionId ((plane.redeployStopping projectId options).map Deployment.id))
    (scheduled : middle.scheduleStopProject origin projectId = .ok next) :
    Stops plane next origin.transitionId (plane.stopTargets projectId) := by
  have rest := scheduleStopProject_stops stops.advance.sound scheduled
  rw [stops.stopTargets] at rest
  refine (stops.trans rest).of_mem_iff fun target => ?_
  rw [List.mem_append, or_iff_right_of_imp]
  intro stopping
  obtain ⟨deployment, member, rfl⟩ := List.mem_map.mp stopping
  exact List.mem_map_of_mem (List.mem_of_mem_filter member)

/-- The stops of a fresh transition are all still to be made. -/
theorem Stops.waiting {targets : List Uuid} (stops : Stops plane next origin.transitionId targets)
    (fresh : plane.freshTransition origin = true) :
    ∀ deploymentId ∈ targets, ∃ stop ∈ next.commands.commands, stop.action = .stop ∧
      stop.deploymentId = deploymentId ∧ stop.transitionId = origin.transitionId ∧ stop.status ≠ .effective := by
  intro deploymentId target
  obtain ⟨stop, member, isStop, same, transition⟩ := stops.asked deploymentId target
  refine ⟨stop, member, isStop, same, transition, ?_⟩
  rcases stops.added stop member with old | ⟨-, -, -, pending⟩
  · have absent := Table.exists_eq_false.mp (by simpa [freshTransition] using fresh) stop old
    simp [transition] at absent
  · rw [pending]
    simp

theorem scheduleRedeployActive_outcome {projectId : Uuid} {request : DeploymentRequest} {options : RedeployOptions}
    (sound : Sound plane) (fresh : plane.freshTransition origin = true)
    (written : plane.scheduleRedeployActive origin projectId request options = .ok next) :
    Outcome plane next (plane.redeployAsked origin projectId request options) none := by
  simp only [scheduleRedeployActive, bind_eq_ok, orRaise_eq_ok] at written
  obtain ⟨project, found, stopped, scheduled, written⟩ := written
  have stops : Stops plane stopped origin.transitionId
      ((plane.redeployStopping projectId options).map Deployment.id) := redeployStopping_stops sound scheduled
  have decision : plane.replaces origin projectId request options =
      (plane.targetBuild project (plane.store.listStoppableForProject projectId)).any fun buildId =>
        project.isEnabled && (stopped.requestInSession origin project
          { request with buildId, stopOldFirst := options.stopOldFirst }
          ((plane.redeployStopping projectId options).map Deployment.id)).isOk := by
    have again : plane.scheduleStops origin (plane.redeployStopping projectId options) = .ok stopped := scheduled
    simp only [replaces, found, Option.any_some, again]
    cases plane.targetBuild project (plane.store.listStoppableForProject projectId) <;> rfl
  -- Without a replacement the stops scheduled so far stand, or the project is stopped.
  have unreplaced : plane.replaces origin projectId request options = false →
      (if options.fallbackToStop then stopped.scheduleStopProject origin projectId else .ok stopped) = .ok next →
      Outcome plane next (plane.redeployAsked origin projectId request options) none := by
    intro none outcome
    unfold redeployAsked
    rw [none]
    cases fallback : options.fallbackToStop with
    | true =>
      rw [fallback] at outcome
      exact (redeployFallback_stops stops outcome).outcome sound
    | false =>
      rw [fallback] at outcome
      cases outcome
      exact stops.outcome sound
  cases target : plane.targetBuild project (plane.store.listStoppableForProject projectId) with
  | none =>
    rw [target] at decision written
    exact unreplaced decision written
  | some buildId =>
    rw [target] at decision written
    cases enabled : project.isEnabled with
    | false =>
      simp only [Option.any_some, enabled, Bool.false_and] at decision
      simp only [enabled, Bool.not_false, if_true] at written
      exact unreplaced decision written
    | true =>
      simp only [Option.any_some, enabled, Bool.true_and] at decision
      simp only [enabled, Bool.not_true, Bool.false_eq_true, if_false] at written
      split at written
      · rename_i requested accepted
        cases written
        have replaced : plane.replaces origin projectId request options = true := by
          rw [decision]
          exact congrArg Except.isOk accepted
        have projectMember : project ∈ stopped.store.projects := by
          rw [stops.rewrite.mem_projects]
          exact ⟨project, Table.mem_of_get? found, rfl⟩
        obtain ⟨row, spec⟩ := requestInSession_spec stops.advance.sound projectMember accepted
        have calm := spec.calm stops.advance.sound projectMember (stops.waiting fresh)
        unfold redeployAsked
        rw [replaced, Bool.not_true, Bool.and_false]
        exact (stops.outcome sound).then_calm stops.rests calm
      · rename_i error refused
        have unreplacedRequest : plane.replaces origin projectId request options = false := by
          rw [decision]
          exact congrArg Except.isOk refused
        split at written
        · rename_i tolerated
          simp only [Bool.and_eq_true] at tolerated
          refine unreplaced unreplacedRequest ?_
          rw [if_pos tolerated.2]
          exact written
        · cases written

/-! ## Access tokens -/

def withTokens (plane : ControlPlane) (accessTokens : Table AccessToken) : ControlPlane :=
  { plane with accessTokens }

theorem sameTables_withTokens (plane : ControlPlane) (tokens : Table AccessToken) :
    SameTables plane (plane.withTokens tokens) := ⟨rfl, rfl, rfl⟩

section Blind

variable (tokens : Table AccessToken)

theorem createCommand_withTokens (action : RuntimeCommandAction) (deployment : Deployment) :
    (plane.withTokens tokens).createCommand origin action deployment =
      (plane.createCommand origin action deployment).map (·.withTokens tokens) := by
  simp only [createCommand, withTokens]
  cases plane.commands.create (origin.command action deployment) (origin.sequence action deployment.id)
    origin.now <;> rfl

theorem scheduleStopInSession_withTokens (deployment : Deployment) :
    (plane.withTokens tokens).scheduleStopInSession origin deployment =
      (plane.scheduleStopInSession origin deployment).map (·.withTokens tokens) := by
  unfold scheduleStopInSession
  have same : (plane.withTokens tokens).store.scheduleStop deployment = plane.store.scheduleStop deployment := rfl
  rw [same]
  cases plane.store.scheduleStop deployment with
  | error _ => rfl
  | ok store =>
    show ((plane.withStore store).withTokens tokens).createCommand origin .stop deployment = _
    rw [createCommand_withTokens]
    rfl

theorem scheduleStops_withTokens (deployments : List Deployment) :
    (plane.withTokens tokens).scheduleStops origin deployments =
      (plane.scheduleStops origin deployments).map (·.withTokens tokens) := by
  induction deployments generalizing plane with
  | nil => rfl
  | cons deployment rest ih =>
    simp only [scheduleStops]
    rw [scheduleStopInSession_withTokens]
    cases plane.scheduleStopInSession origin deployment with
    | error _ => rfl
    | ok stopped => exact ih

theorem requestInSession_withTokens (project : Project) (request : DeploymentRequest) (stopping : List Uuid) :
    (plane.withTokens tokens).requestInSession origin project request stopping =
      (plane.requestInSession origin project request stopping).map (·.withTokens tokens) := by
  unfold requestInSession
  have same : (plane.withTokens tokens).store.requestDeployment project request stopping =
      plane.store.requestDeployment project request stopping := rfl
  rw [same]
  cases plane.store.requestDeployment project request stopping with
  | error _ => rfl
  | ok requested =>
    show ((plane.withStore requested.1).withTokens tokens).createCommand origin .deploy requested.2 = _
    rw [createCommand_withTokens]
    rfl

theorem replaces_withTokens (projectId : Uuid) (request : DeploymentRequest) (options : RedeployOptions) :
    (plane.withTokens tokens).replaces origin projectId request options =
      plane.replaces origin projectId request options := by
  unfold replaces
  have rows : (plane.withTokens tokens).redeployStopping projectId options =
      plane.redeployStopping projectId options := rfl
  rw [rows, scheduleStops_withTokens]
  cases plane.scheduleStops origin (plane.redeployStopping projectId options) with
  | error _ => rfl
  | ok stopped =>
    simp only [Except.map]
    congr 1
    funext project
    have target : (plane.withTokens tokens).targetBuild project
        ((plane.withTokens tokens).store.listStoppableForProject projectId) =
        plane.targetBuild project (plane.store.listStoppableForProject projectId) := rfl
    rw [target]
    cases plane.targetBuild project (plane.store.listStoppableForProject projectId) with
    | none => rfl
    | some buildId =>
      simp only [requestInSession_withTokens]
      cases stopped.requestInSession origin project
        { request with buildId, stopOldFirst := options.stopOldFirst }
        ((plane.redeployStopping projectId options).map Deployment.id) <;> rfl

end Blind

/-- What the security effect of a token change asks to stop. -/
def securityAsked (plane : ControlPlane) (origin : Origin) (projectId : Uuid) (servable : Bool)
    (request : DeploymentRequest) : List Uuid :=
  if servable then
    plane.redeployAsked origin projectId { request with intent := .securityRefresh }
      { stopOldFirst := false, fallbackToStop := true }
  else
    plane.stopTargets projectId

theorem securityAsked_withTokens (tokens : Table AccessToken) (projectId : Uuid) (servable : Bool)
    (request : DeploymentRequest) :
    (plane.withTokens tokens).securityAsked origin projectId servable request =
      plane.securityAsked origin projectId servable request := by
  cases servable with
  | false => rfl
  | true =>
    simp only [securityAsked, if_true, redeployAsked, replaces_withTokens]
    rfl

/-- The tokens are written first, and the effect is that of the project's tables. -/
theorem scheduleSecurityEffect_outcome {tokens : Table AccessToken} {projectId : Uuid} {servable : Bool}
    {request : DeploymentRequest} (sound : Sound plane) (fresh : plane.freshTransition origin = true)
    (written : (plane.withTokens tokens).scheduleSecurityEffect origin projectId servable request = .ok next) :
    Outcome plane next (plane.securityAsked origin projectId servable request) none := by
  have same := sameTables_withTokens plane tokens
  apply same.outcome
  rw [← securityAsked_withTokens tokens]
  cases servable with
  | true => exact scheduleRedeployActive_outcome (same.sound sound) fresh written
  | false => exact (scheduleStopProject_stops (same.sound sound) written).outcome (same.sound sound)

section Tokens

variable {projectId tokenId : Uuid} {servable staticMode : Bool} {request : DeploymentRequest}

theorem issueToken_eq_ok {token : AccessToken} (written : plane.issueToken token = .ok next) :
    ∃ tokens, next = plane.withTokens tokens := by
  simp only [issueToken, bind_eq_ok] at written
  obtain ⟨tokens, -, written⟩ := written
  cases written
  exact ⟨tokens, rfl⟩

theorem createToken_outcome {token : AccessToken} (sound : Sound plane)
    (fresh : plane.freshTransition origin = true)
    (written : plane.createToken origin token staticMode servable request = .ok next) :
    Outcome plane next (plane.securityAsked origin token.projectId servable request) none := by
  simp only [createToken, bind_eq_ok] at written
  obtain ⟨-, -, -, -, -, -, issued, stored, written⟩ := written
  obtain ⟨tokens, rfl⟩ := issueToken_eq_ok stored
  exact scheduleSecurityEffect_outcome sound fresh written

theorem rotateToken_outcome {replacementId : Uuid} {overlapSeconds : Nat} (sound : Sound plane)
    (fresh : plane.freshTransition origin = true)
    (written : plane.rotateToken origin projectId tokenId replacementId overlapSeconds staticMode servable
      request = .ok next) :
    Outcome plane next (plane.securityAsked origin projectId servable request) none := by
  simp only [rotateToken, bind_eq_ok] at written
  obtain ⟨-, -, -, -, -, -, current, -, -, -, -, -, issued, stored, written⟩ := written
  obtain ⟨tokens, rfl⟩ := issueToken_eq_ok stored
  exact scheduleSecurityEffect_outcome sound fresh written

/-- Revoking a revoked token asks for nothing. -/
def revokeAsked (plane : ControlPlane) (origin : Origin) (projectId tokenId : Uuid) (servable : Bool)
    (request : DeploymentRequest) : List Uuid :=
  if (plane.accessTokens.get? tokenId).any fun token => token.revokedAt.isSome then []
  else plane.securityAsked origin projectId servable request

theorem revokeToken_outcome (sound : Sound plane) (fresh : plane.freshTransition origin = true)
    (written : plane.revokeToken origin projectId tokenId servable request = .ok next) :
    Outcome plane next (plane.revokeAsked origin projectId tokenId servable request) none := by
  simp only [revokeToken, currentToken, bind_eq_ok, orRaise_eq_ok] at written
  obtain ⟨-, -, current, ⟨token, found, -, -, same⟩, written⟩ := written
  cases same
  simp only [revokeAsked, found, Option.any_some]
  split at written
  · rename_i revoked
    cases written
    rw [if_pos revoked]
    exact (Calm.refl sound).outcome sound
  · rename_i current
    rw [if_neg current]
    exact scheduleSecurityEffect_outcome sound fresh written

end Tokens

end Mcplica.Deployments.ControlPlane
