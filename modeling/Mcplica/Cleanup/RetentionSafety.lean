import Mcplica.Cleanup.Retention

/-! # What retention leaves alone

Retention protects the newest version of a source, while the one in use is recorded by a pointer that may move back to
an older version. The two differ after an older content was uploaded again. -/

namespace Mcplica.Cleanup

open Mcplica.Domain Mcplica.Library Mcplica.Builds Mcplica.Sources

namespace RetentionStore

/-! ## Invariants -/

/-- What the transactions see to beyond the foreign keys. -/
structure References (store : RetentionStore) : Prop where
  deployed : ∀ deployment ∈ store.deployments, ∃ build ∈ store.builds,
    build.id = deployment.buildId ∧ build.projectId = deployment.projectId
  commanded : ∀ command ∈ store.commands, ∃ deployment ∈ store.deployments, deployment.buildId = command.buildId
  found : ∀ finding ∈ store.findings, store.isBound finding.buildId finding.sourceVersionId = true
  active : ∀ pair ∈ store.activeBuilds, ∃ build ∈ store.builds, build.id = pair.2 ∧ build.projectId = pair.1
  oneActive : (store.activeBuilds.map Prod.fst).Nodup

structure Invariant (store : RetentionStore) : Prop extends References store where
  keys : store.foreignKeys = true

section

variable {store next : RetentionStore}

/-- The builds of before are there, with their projects. -/
def KeepsBuilds (store next : RetentionStore) : Prop :=
  ∀ build ∈ store.builds, ∃ row ∈ next.builds, row.id = build.id ∧ row.projectId = build.projectId

theorem References.of_builds (references : store.References) (builds : store.KeepsBuilds next)
    (deployments : next.deployments = store.deployments) (commands : next.commands = store.commands)
    (found : ∀ finding ∈ next.findings, next.isBound finding.buildId finding.sourceVersionId = true)
    (activeBuilds : next.activeBuilds = store.activeBuilds) : next.References where
  deployed deployment member := by
    obtain ⟨build, isBuild, sameId, sameProject⟩ := references.deployed deployment (deployments ▸ member)
    obtain ⟨row, isRow, rowId, rowProject⟩ := builds build isBuild
    exact ⟨row, isRow, rowId.trans sameId, rowProject.trans sameProject⟩
  commanded command member := by
    rw [deployments]
    exact references.commanded command (commands ▸ member)
  found := found
  active pair member := by
    obtain ⟨build, isBuild, sameId, sameProject⟩ := references.active pair (activeBuilds ▸ member)
    obtain ⟨row, isRow, rowId, rowProject⟩ := builds build isBuild
    exact ⟨row, isRow, rowId.trans sameId, rowProject.trans sameProject⟩
  oneActive := activeBuilds ▸ references.oneActive

theorem keepsBuilds_of_eq (same : next.builds = store.builds) : store.KeepsBuilds next :=
  fun build member => ⟨build, same ▸ member, rfl, rfl⟩

theorem createBuild_eq_some {projectId buildId requestedBy : Uuid} {now : Instant}
    (created : store.createBuild projectId buildId requestedBy now = some next) :
    ∃ build bound, store.builds.insert build = some next.builds ∧ next.bindings = store.bindings ++ bound ∧
      next.findings = store.findings ∧ next.deployments = store.deployments ∧ next.commands = store.commands ∧
      next.activeBuilds = store.activeBuilds := by
  unfold createBuild at created
  split at created
  · cases created
  · simp only [Option.bind_eq_bind, Option.bind_eq_some_iff, Option.pure_def, Option.some.injEq] at created
    obtain ⟨builds, inserted, rfl⟩ := created
    exact ⟨_, _, inserted, rfl, rfl, rfl, rfl, rfl⟩

theorem isBound_iff {buildId sourceVersionId : Uuid} : store.isBound buildId sourceVersionId = true ↔
    ∃ binding ∈ store.bindings, binding.buildId = buildId ∧ binding.sourceVersionId = sourceVersionId := by
  simp [isBound]

theorem references_createBuild {projectId buildId requestedBy : Uuid} {now : Instant} (references : store.References)
    (created : store.createBuild projectId buildId requestedBy now = some next) : next.References := by
  obtain ⟨build, bound, inserted, bindings, findings, deployments, commands, activeBuilds⟩ := createBuild_eq_some created
  refine references.of_builds ?_ deployments commands ?_ activeBuilds
  · intro old isOld
    exact ⟨old, (Table.mem_insert inserted).mpr (.inl isOld), rfl, rfl⟩
  · intro finding member
    obtain ⟨binding, isBinding, sameIds⟩ := isBound_iff.mp (references.found finding (findings ▸ member))
    exact isBound_iff.mpr ⟨binding, bindings ▸ List.mem_append_left _ isBinding, sameIds⟩

theorem references_advanceBuild (buildId : Uuid) (progress : BuildProgress) (references : store.References) :
    (store.advanceBuild buildId progress).References := by
  refine references.of_builds ?_ rfl rfl references.found rfl
  intro build isBuild
  refine ⟨if build.id = buildId && !build.status.terminal then progress.values build else build, ?_, ?_⟩
  · exact (@Table.mem_update _ _ _ _ _ progress.values (fun _ => rfl) _).mpr ⟨build, isBuild, rfl⟩
  · split <;> exact ⟨rfl, rfl⟩

theorem references_deploy {projectId buildId deploymentId commandId : Uuid} (references : store.References)
    (ran : store.deploy projectId buildId deploymentId commandId = some next) : next.References := by
  unfold deploy at ran
  simp only [Option.bind_eq_bind, Option.bind_eq_some_iff] at ran
  obtain ⟨build, found, ran⟩ := ran
  obtain ⟨isBuild, sameId⟩ := Table.get?_eq_some.mp found
  split at ran
  · rename_i allowed
    cases ran
    simp only [Bool.and_eq_true, decide_eq_true_eq] at allowed
    refine ⟨?_, ?_, references.found, references.active, references.oneActive⟩
    · intro deployment member
      rcases List.mem_append.mp member with isOld | isNew
      · exact references.deployed deployment isOld
      · rw [List.mem_singleton.mp isNew]
        exact ⟨build, isBuild, sameId, allowed.1⟩
    · intro command member
      rcases List.mem_append.mp member with isOld | isNew
      · obtain ⟨deployment, isDeployment, sameBuild⟩ := references.commanded command isOld
        exact ⟨deployment, List.mem_append_left _ isDeployment, sameBuild⟩
      · rw [List.mem_singleton.mp isNew]
        exact ⟨_, List.mem_append_right _ (List.mem_singleton_self _), rfl⟩
  · cases ran

theorem references_stop {deploymentId commandId : Uuid} (references : store.References)
    (ran : store.stop deploymentId commandId = some next) : next.References := by
  unfold stop at ran
  simp only [Option.bind_eq_bind, Option.bind_eq_some_iff, Option.pure_def, Option.some.injEq] at ran
  obtain ⟨deployment, isFound, rfl⟩ := ran
  refine ⟨references.deployed, ?_, references.found, references.active, references.oneActive⟩
  intro command member
  rcases List.mem_append.mp member with isOld | isNew
  · exact references.commanded command isOld
  · rw [List.mem_singleton.mp isNew]
    exact ⟨deployment, List.mem_of_find?_eq_some isFound, rfl⟩

theorem references_setActive {projectId : Uuid} {deploymentId : Option Uuid} (references : store.References)
    (ran : store.setActive projectId deploymentId = some next) : next.References := by
  have cleared : ((store.activeBuilds.filter (·.1 ≠ projectId)).map Prod.fst).Nodup :=
    references.oneActive.sublist (List.filter_sublist.map _)
  cases deploymentId with
  | none =>
    cases ran
    exact ⟨references.deployed, references.commanded, references.found,
      fun pair member => references.active pair (List.mem_filter.mp member).1, cleared⟩
  | some deploymentId =>
    simp only [setActive, Option.bind_eq_bind, Option.bind_eq_some_iff, Option.pure_def, Option.some.injEq] at ran
    obtain ⟨deployment, isFound, rfl⟩ := ran
    have matching := List.find?_some isFound
    simp only [Bool.and_eq_true, decide_eq_true_eq] at matching
    refine ⟨references.deployed, references.commanded, references.found, ?_, ?_⟩
    · intro pair member
      rcases List.mem_cons.mp member with rfl | isOld
      · obtain ⟨build, isBuild, sameId, sameProject⟩ := references.deployed deployment (List.mem_of_find?_eq_some isFound)
        exact ⟨build, isBuild, sameId, sameProject.trans matching.2⟩
      · exact references.active pair (List.mem_filter.mp isOld).1
    · rw [List.map_cons, List.nodup_cons]
      refine ⟨?_, cleared⟩
      intro member
      obtain ⟨pair, isPair, same⟩ := List.mem_map.mp member
      have other := (List.mem_filter.mp isPair).2
      simp [same] at other

end

/-! ## The candidates -/

section

variable {store : RetentionStore} {projectId : Uuid} {settings : RetentionSettings} {now : Instant}

/-- The build is one that retention has to keep. -/
def Outlives (store : RetentionStore) (projectId : Uuid) (settings : RetentionSettings) (build : Build) : Prop :=
  settings.buildRetentionCount = none ∨ build.status.terminal = false ∨ (projectId, build.id) ∈ store.activeBuilds ∨
    (∃ deployment ∈ store.deployments, deployment.projectId = projectId ∧ deployment.buildId = build.id) ∨
    build ∈ store.newestBuilds projectId settings

theorem mem_of_mem_newestBuilds {build : Build} (newest : build ∈ store.newestBuilds projectId settings) :
    build ∈ store.builds := by
  unfold newestBuilds at newest
  split at newest
  · exact (Table.mem_ordered.mp (List.mem_of_mem_take newest)).1
  · exact (Table.mem_ordered.mp newest).1

theorem lookup_activeBuilds (references : store.References) {buildId : Uuid} :
    store.activeBuilds.lookup projectId = some buildId ↔ (projectId, buildId) ∈ store.activeBuilds := by
  have distinct := references.oneActive
  generalize store.activeBuilds = pairs at distinct ⊢
  induction pairs with
  | nil => simp
  | cons pair pairs ih =>
    rw [List.map_cons, List.nodup_cons] at distinct
    have later := ih distinct.2
    obtain ⟨first, second⟩ := pair
    rw [List.lookup_cons]
    by_cases same : projectId = first
    · subst same
      have absent : (projectId, buildId) ∉ pairs := by
        intro member
        exact distinct.1 (List.mem_map.mpr ⟨_, member, rfl⟩)
      simp [absent, eq_comm]
    · have different : (projectId == first) = false := beq_eq_false_iff_ne.mpr same
      simp [different, same, later]

theorem mem_buildCandidates (references : store.References) {build : Build} :
    build ∈ store.buildCandidates projectId settings ↔
      build ∈ store.builds ∧ build.projectId = projectId ∧ ¬ store.Outlives projectId settings build := by
  have newest : (store.newestBuilds projectId settings).any (·.id = build.id) = true ∧ build ∈ store.builds ↔
      build ∈ store.newestBuilds projectId settings := by
    simp only [List.any_eq_true, decide_eq_true_eq]
    constructor
    · rintro ⟨⟨other, isOther, same⟩, isBuild⟩
      exact Table.eq_of_key (mem_of_mem_newestBuilds isOther) isBuild same ▸ isOther
    · intro isNewest
      exact ⟨⟨build, isNewest, rfl⟩, mem_of_mem_newestBuilds isNewest⟩
  unfold buildCandidates Outlives
  by_cases retains : settings.buildRetentionCount = none
  · simp [retains]
  · have isSome : settings.buildRetentionCount.isSome = true := Option.isSome_iff_ne_none.mpr retains
    simp only [isSome, if_true, List.mem_filter, allBuilds, Table.mem_ordered, decide_eq_true_eq, isProtected,
      Bool.and_eq_true, Bool.not_eq_true', Bool.or_eq_false_iff, isDeployed, retains, false_or, not_or]
    rw [← newest, ← lookup_activeBuilds references]
    simp only [decide_eq_false_iff_not, Bool.not_eq_false, List.any_eq_false, List.any_eq_true, Bool.and_eq_true,
      decide_eq_true_eq, not_exists, not_and, Bool.not_eq_false', forall_exists_index, and_imp]
    constructor
    · rintro ⟨⟨isBuild, ofProject⟩, terminal, ⟨⟨older, -⟩, inactive⟩, undeployed⟩
      exact ⟨isBuild, ofProject, terminal, inactive, undeployed, fun other isOther same _ => older other isOther same⟩
    · rintro ⟨isBuild, ofProject, terminal, inactive, undeployed, older⟩
      exact ⟨⟨isBuild, ofProject⟩, terminal,
        ⟨⟨fun other isOther same => older other isOther same isBuild, terminal⟩, inactive⟩, undeployed⟩

theorem isCandidate_iff {buildId : Uuid} : store.isCandidate projectId settings buildId = true ↔
    ∃ build ∈ store.buildCandidates projectId settings, build.id = buildId := by
  simp [isCandidate]

/-- A build that has to outlive retention is no candidate, and neither is one of another project. -/
theorem isCandidate_eq_false (references : store.References) {build : Build} (isBuild : build ∈ store.builds)
    (kept : build.projectId = projectId → store.Outlives projectId settings build) :
    store.isCandidate projectId settings build.id = false := by
  by_contra isGone
  rw [Bool.not_eq_false, isCandidate_iff] at isGone
  obtain ⟨candidate, isCandidate, same⟩ := isGone
  obtain ⟨member, ofProject, goes⟩ := (mem_buildCandidates references).mp isCandidate
  have same := Table.eq_of_key member isBuild same
  exact goes (same ▸ kept (same ▸ ofProject))

theorem deployed_stays (references : store.References) {deployment : DeploymentReference}
    (member : deployment ∈ store.deployments) : store.isCandidate projectId settings deployment.buildId = false := by
  obtain ⟨build, isBuild, sameId, sameProject⟩ := references.deployed deployment member
  rw [← sameId]
  refine isCandidate_eq_false references isBuild fun ofProject => ?_
  exact .inr (.inr (.inr (.inl ⟨deployment, member, sameProject ▸ ofProject, sameId.symm⟩)))

theorem active_stays (references : store.References) {pair : Uuid × Uuid}
    (member : pair ∈ store.activeBuilds) : store.isCandidate projectId settings pair.2 = false := by
  obtain ⟨build, isBuild, sameId, sameProject⟩ := references.active pair member
  rw [← sameId]
  refine isCandidate_eq_false references isBuild fun ofProject => .inr (.inr (.inl ?_))
  rw [← ofProject, sameProject, sameId]
  exact member

/-! ## Foreign keys -/

/-- `foreignKeys` in terms of the rows. -/
structure ForeignKeys (store : RetentionStore) : Prop where
  current : ∀ row ∈ store.sourceRows, ∀ versionId, row.currentVersionId = some versionId →
    store.ownsVersion row.id versionId = true
  versions : ∀ version ∈ store.versionRows, (store.sourceRows.get? version.sourceId).isSome = true
  bindings : ∀ binding ∈ store.bindings, store.hasBuild binding.buildId = true ∧
    store.ownsVersion binding.sourceId binding.sourceVersionId = true ∧
    (store.sourceRows.get? binding.sourceId).isSome = true
  findings : ∀ finding ∈ store.findings, store.hasBuild finding.buildId = true ∧
    store.hasVersion finding.sourceVersionId = true
  snapshots : ∀ build ∈ store.builds, ∀ snapshotId, build.canonicalSnapshotId = some snapshotId →
    snapshotId ∈ store.snapshots
  generations : ∀ generation ∈ store.generations, store.hasBuild generation.buildId = true
  deployments : ∀ deployment ∈ store.deployments, store.hasBuild deployment.buildId = true
  commands : ∀ command ∈ store.commands, store.hasBuild command.buildId = true
  activeBuilds : ∀ pair ∈ store.activeBuilds, store.hasBuild pair.2 = true

theorem foreignKeys_iff : store.foreignKeys = true ↔ store.ForeignKeys := by
  simp only [foreignKeys, Bool.and_eq_true, List.all_eq_true, Option.all_eq_true, Table.mem_rows,
    List.contains_iff_mem]
  constructor
  · rintro ⟨⟨⟨⟨⟨⟨⟨⟨current, versions⟩, bindings⟩, findings⟩, snapshots⟩, generations⟩, deployments⟩, commands⟩, active⟩
    exact ⟨current, versions, fun binding member => ⟨(bindings binding member).1.1, (bindings binding member).1.2,
      (bindings binding member).2⟩, findings, snapshots, generations, deployments, commands, active⟩
  · intro keys
    exact ⟨⟨⟨⟨⟨⟨⟨⟨keys.current, keys.versions⟩, fun binding member =>
      ⟨⟨(keys.bindings binding member).1, (keys.bindings binding member).2.1⟩, (keys.bindings binding member).2.2⟩⟩,
      keys.findings⟩, keys.snapshots⟩, keys.generations⟩, keys.deployments⟩, keys.commands⟩, keys.activeBuilds⟩

theorem hasBuild_iff {buildId : Uuid} : store.hasBuild buildId = true ↔ ∃ build ∈ store.builds, build.id = buildId := by
  simp only [hasBuild, Option.isSome_iff_exists, Table.get?_eq_some]
  rfl

theorem hasVersion_iff {versionId : Uuid} :
    store.hasVersion versionId = true ↔ ∃ version ∈ store.versionRows, version.id = versionId := by
  simp only [hasVersion, Option.isSome_iff_exists, Table.get?_eq_some]
  rfl

theorem ownsVersion_iff {sourceId versionId : Uuid} : store.ownsVersion sourceId versionId = true ↔
    ∃ version ∈ store.versionRows, version.id = versionId ∧ version.sourceId = sourceId := by
  simp only [ownsVersion, Option.any_eq_true, Table.get?_eq_some, decide_eq_true_eq, and_assoc]
  rfl

/-! ## The versions -/

instance : Std.Total fun left right => newestVersionFirst left right = true where
  total left right := by
    simp only [newestVersionFirst, Bool.or_eq_true, Bool.and_eq_true, decide_eq_true_eq, Instant, Uuid]
    omega

instance : IsTrans VersionRow fun left right => newestVersionFirst left right = true where
  trans left middle right := by
    simp only [newestVersionFirst, Bool.or_eq_true, Bool.and_eq_true, decide_eq_true_eq, Instant, Uuid]
    omega

/-- A version that is not the newest of its source. -/
def Outdated (store : RetentionStore) (version : VersionRow) : Prop :=
  ∃ newer ∈ store.versionRows, newer.sourceId = version.sourceId ∧ newer.id ≠ version.id ∧
    newestVersionFirst newer version = true

/-- No build that outlives retention is bound to the version. -/
def Unbound (store : RetentionStore) (projectId : Uuid) (settings : RetentionSettings) (version : VersionRow) : Prop :=
  ∀ binding ∈ store.bindings, binding.sourceVersionId = version.id →
    ∃ build ∈ store.builds, build.id = binding.buildId ∧ build.projectId = projectId ∧
      ¬ store.Outlives projectId settings build

theorem isCandidate_iff_goes (references : store.References) {buildId : Uuid} :
    store.isCandidate projectId settings buildId = true ↔ ∃ build ∈ store.builds, build.id = buildId ∧
      build.projectId = projectId ∧ ¬ store.Outlives projectId settings build := by
  simp only [isCandidate_iff, mem_buildCandidates references]
  constructor
  · rintro ⟨build, ⟨isBuild, ofProject, goes⟩, same⟩
    exact ⟨build, isBuild, same, ofProject, goes⟩
  · rintro ⟨build, isBuild, same, ofProject, goes⟩
    exact ⟨build, ⟨isBuild, ofProject, goes⟩, same⟩

theorem mem_versionsOf_tail {sourceId : Uuid} {version : VersionRow} : version ∈ (store.versionsOf sourceId).tail ↔
    version ∈ store.versionRows ∧ version.sourceId = sourceId ∧ store.Outdated version := by
  have antisymm : ∀ left right : VersionRow, newestVersionFirst left right = true →
      newestVersionFirst right left = true → left.id = right.id := by
    intro left right
    simp only [newestVersionFirst, Bool.or_eq_true, Bool.and_eq_true, decide_eq_true_eq, Instant, Uuid]
    omega
  rw [versionsOf, Table.mem_tail_ordered antisymm, and_assoc]
  simp only [decide_eq_true_eq]
  constructor
  · rintro ⟨member, ofSource, newer, isNewer, sameSource, different, earlier⟩
    exact ⟨member, ofSource, newer, isNewer, sameSource.trans ofSource.symm, different, earlier⟩
  · rintro ⟨member, ofSource, newer, isNewer, sameSource, different, earlier⟩
    exact ⟨member, ofSource, newer, isNewer, sameSource.trans ofSource, different, earlier⟩

theorem mem_versionCandidates (references : store.References) {version : VersionRow} :
    version ∈ store.versionCandidates projectId settings now ↔ version ∈ store.versionRows ∧
      (∃ row ∈ store.sourceRows, row.projectId = projectId ∧ version.sourceId = row.id) ∧ store.Outdated version ∧
      (∃ retention, settings.sourceRetention = some retention ∧ version.createdAt < now - retention) ∧
      store.Unbound projectId settings version := by
  have unbound : store.remainingReference projectId settings version = false ↔
      store.Unbound projectId settings version := by
    simp only [remainingReference, List.any_eq_false, Bool.and_eq_true, decide_eq_true_eq, Bool.not_eq_true',
      Bool.not_eq_false, not_and, isCandidate_iff_goes references]
    rfl
  unfold versionCandidates
  cases retains : settings.sourceRetention with
  | none => simp
  | some retention =>
    simp only [List.mem_flatMap, List.mem_filter, Table.mem_rows, decide_eq_true_eq, mem_versionsOf_tail,
      expiredVersion, Bool.and_eq_true, Bool.not_eq_true', unbound, Option.some.injEq, exists_eq_left']
    constructor
    · rintro ⟨row, ⟨isRow, ofProject⟩, ⟨isVersion, ofSource, outdated⟩, expired, free⟩
      exact ⟨isVersion, ⟨row, isRow, ofProject, ofSource⟩, outdated, expired, free⟩
    · rintro ⟨isVersion, ⟨row, isRow, ofProject, ofSource⟩, outdated, expired, free⟩
      exact ⟨row, ⟨isRow, ofProject⟩, ⟨isVersion, ofSource, outdated⟩, expired, free⟩

/-! ## What is left -/

theorem mem_builds_withoutCandidates {build : Build} :
    build ∈ (store.withoutCandidates projectId settings now).builds ↔
      build ∈ store.builds ∧ store.isCandidate projectId settings build.id = false :=
  Table.mem_delete

theorem mem_versions_withoutCandidates {version : VersionRow} (isVersion : version ∈ store.versionRows)
    (references : store.References) :
    version ∈ (store.withoutCandidates projectId settings now).versionRows ↔
      version ∉ store.versionCandidates projectId settings now := by
  have left : version ∈ (store.withoutCandidates projectId settings now).versionRows ↔ version ∈ store.versionRows ∧
      (store.versionCandidates projectId settings now).any (·.id = version.id) = false := Table.mem_delete
  rw [left, List.any_eq_false]
  simp only [decide_eq_true_eq]
  constructor
  · intro stays isCandidate
    exact stays.2 version isCandidate rfl
  · intro stays
    refine ⟨isVersion, fun candidate isCandidate same => stays ?_⟩
    exact Table.eq_of_key ((mem_versionCandidates references).mp isCandidate).1 isVersion same ▸ isCandidate

theorem bound_stays {binding : SourceBinding} {version : VersionRow} (references : store.References)
    (isBinding : binding ∈ store.bindings) (stays : store.isCandidate projectId settings binding.buildId = false)
    (bound : binding.sourceVersionId = version.id) : version ∉ store.versionCandidates projectId settings now := by
  intro isCandidate
  obtain ⟨-, -, -, -, unbound⟩ := (mem_versionCandidates references).mp isCandidate
  have goes := (isCandidate_iff_goes references).mpr (unbound binding isBinding bound)
  rw [stays] at goes
  cases goes

theorem references_withoutCandidates (references : store.References) :
    (store.withoutCandidates projectId settings now).References where
  deployed deployment member := by
    obtain ⟨build, isBuild, sameId, sameProject⟩ := references.deployed deployment member
    have stays := @deployed_stays store projectId settings references deployment member
    exact ⟨build, mem_builds_withoutCandidates.mpr ⟨isBuild, sameId ▸ stays⟩, sameId, sameProject⟩
  commanded := references.commanded
  found finding member := by
    obtain ⟨isFinding, stays⟩ := List.mem_filter.mp member
    obtain ⟨binding, isBinding, sameBuild, sameVersion⟩ := isBound_iff.mp (references.found finding isFinding)
    exact isBound_iff.mpr ⟨binding, List.mem_filter.mpr ⟨isBinding, sameBuild ▸ stays⟩, sameBuild, sameVersion⟩
  active pair member := by
    obtain ⟨isActive, stays⟩ := List.mem_filter.mp member
    obtain ⟨build, isBuild, sameId, sameProject⟩ := references.active pair isActive
    have stays : store.isCandidate projectId settings build.id = false := by simpa [sameId] using stays
    exact ⟨build, mem_builds_withoutCandidates.mpr ⟨isBuild, stays⟩, sameId, sameProject⟩
  oneActive := references.oneActive.sublist (List.filter_sublist.map _)

theorem hasBuild_withoutCandidates {buildId : Uuid} (known : store.hasBuild buildId = true)
    (stays : store.isCandidate projectId settings buildId = false) :
    (store.withoutCandidates projectId settings now).hasBuild buildId = true := by
  obtain ⟨build, isBuild, same⟩ := hasBuild_iff.mp known
  exact hasBuild_iff.mpr ⟨build, mem_builds_withoutCandidates.mpr ⟨isBuild, same ▸ stays⟩, same⟩

/-- Retention keeps every foreign key unless it takes the version that a source has selected. -/
theorem foreignKeys_withoutCandidates (invariant : store.Invariant)
    (current : ∀ version ∈ store.versionCandidates projectId settings now, ∀ row ∈ store.sourceRows,
      row.currentVersionId ≠ some version.id) :
    (store.withoutCandidates projectId settings now).ForeignKeys where
  current row isRow versionId selected := by
    have keys := foreignKeys_iff.mp invariant.keys
    obtain ⟨version, isVersion, sameId, ofSource⟩ := ownsVersion_iff.mp (keys.current row isRow versionId selected)
    refine ownsVersion_iff.mpr ⟨version, ?_, sameId, ofSource⟩
    rw [mem_versions_withoutCandidates isVersion invariant.toReferences]
    intro isCandidate
    exact current version isCandidate row isRow (sameId ▸ selected)
  versions version member := by
    exact (foreignKeys_iff.mp invariant.keys).versions version (Table.mem_delete.mp member).1
  bindings binding member := by
    obtain ⟨isBinding, stays⟩ := List.mem_filter.mp member
    rw [Bool.not_eq_true'] at stays
    obtain ⟨known, owned, ofSource⟩ := (foreignKeys_iff.mp invariant.keys).bindings binding isBinding
    obtain ⟨version, isVersion, sameId, sameSource⟩ := ownsVersion_iff.mp owned
    refine ⟨hasBuild_withoutCandidates known stays, ownsVersion_iff.mpr ⟨version, ?_, sameId, sameSource⟩, ofSource⟩
    exact (mem_versions_withoutCandidates isVersion invariant.toReferences).mpr
      (bound_stays invariant.toReferences isBinding stays sameId.symm)
  findings finding member := by
    obtain ⟨isFinding, stays⟩ := List.mem_filter.mp member
    rw [Bool.not_eq_true'] at stays
    obtain ⟨known, hasVersion⟩ := (foreignKeys_iff.mp invariant.keys).findings finding isFinding
    obtain ⟨version, isVersion, sameId⟩ := hasVersion_iff.mp hasVersion
    -- The finding was written for a binding of its build, which keeps the version.
    obtain ⟨binding, isBinding, sameBuild, sameVersion⟩ := isBound_iff.mp (invariant.found finding isFinding)
    refine ⟨hasBuild_withoutCandidates known stays, hasVersion_iff.mpr ⟨version, ?_, sameId⟩⟩
    exact (mem_versions_withoutCandidates isVersion invariant.toReferences).mpr
      (bound_stays invariant.toReferences isBinding (sameBuild ▸ stays) (sameVersion.trans sameId.symm))
  snapshots build member snapshotId isSnapshot := by
    obtain ⟨isBuild, -⟩ := mem_builds_withoutCandidates.mp member
    have known := (foreignKeys_iff.mp invariant.keys).snapshots build isBuild snapshotId isSnapshot
    have used : (store.withoutCandidates projectId settings now).builds.exists_
        (·.canonicalSnapshotId = some snapshotId) = true :=
      Table.exists_iff.mpr ⟨build, member, decide_eq_true isSnapshot⟩
    refine List.mem_filter.mpr ⟨known, ?_⟩
    rw [Bool.not_eq_true', Bool.and_eq_false_iff]
    exact .inr (by rw [Bool.not_eq_false']; exact used)
  generations generation member := by
    obtain ⟨isGeneration, stays⟩ := List.mem_filter.mp member
    rw [Bool.not_eq_true'] at stays
    exact hasBuild_withoutCandidates ((foreignKeys_iff.mp invariant.keys).generations generation isGeneration) stays
  deployments deployment member :=
    hasBuild_withoutCandidates ((foreignKeys_iff.mp invariant.keys).deployments deployment member)
      (deployed_stays invariant.toReferences member)
  commands command member := by
    obtain ⟨deployment, isDeployment, sameBuild⟩ := invariant.commanded command member
    have stays := @deployed_stays store projectId settings invariant.toReferences deployment isDeployment
    exact hasBuild_withoutCandidates ((foreignKeys_iff.mp invariant.keys).commands command member) (sameBuild ▸ stays)
  activeBuilds pair member := by
    obtain ⟨isActive, stays⟩ := List.mem_filter.mp member
    rw [Bool.not_eq_true'] at stays
    exact hasBuild_withoutCandidates ((foreignKeys_iff.mp invariant.keys).activeBuilds pair isActive) stays

end

/-! ## Runs -/

section

variable {policy : SourceUrlPolicy} {unicode : Unicode} {sha256 : Text → Text} {store next : RetentionStore}

/-- What is not read by `References` may change. -/
theorem References.congr (references : store.References) (builds : next.builds = store.builds)
    (bindings : next.bindings = store.bindings) (findings : next.findings = store.findings)
    (deployments : next.deployments = store.deployments) (commands : next.commands = store.commands)
    (activeBuilds : next.activeBuilds = store.activeBuilds) : next.References := by
  refine references.of_builds (keepsBuilds_of_eq builds) deployments commands ?_ activeBuilds
  intro finding member
  rw [isBound_iff, bindings, ← isBound_iff]
  exact references.found finding (findings ▸ member)

theorem prepareRetentionJob_eq_ok {projectId jobId : Uuid} {settings : RetentionSettings} {now : Instant}
    {targetIds : Nat → Uuid} (prepared : store.prepareRetentionJob projectId settings now sha256 jobId targetIds = .ok next) :
    next = store ∨ ∃ cleanup, next = { store.withoutCandidates projectId settings now with cleanup } := by
  unfold prepareRetentionJob at prepared
  split at prepared
  · cases prepared
    exact .inl rfl
  · split at prepared
    · cases prepared
    · dsimp only at prepared
      split at prepared
      · cases prepared
        exact .inr ⟨_, rfl⟩
      · cases prepared

theorem references_transact {action : RetentionAction} (references : store.References)
    (ran : store.transact policy unicode sha256 action = some next) : next.References := by
  cases action with
  | source action => cases ran; exact references.congr rfl rfl rfl rfl rfl rfl
  | createBuild projectId buildId requestedBy now => exact references_createBuild references ran
  | advanceBuild buildId progress => cases ran; exact references_advanceBuild buildId progress references
  | addSnapshot snapshotId => cases ran; exact references.congr rfl rfl rfl rfl rfl rfl
  | addGeneration generation => cases ran; exact references.congr rfl rfl rfl rfl rfl rfl
  | addFinding buildId sourceVersionId =>
    simp only [transact] at ran
    split at ran
    · rename_i bound
      cases ran
      refine references.of_builds (keepsBuilds_of_eq rfl) rfl rfl ?_ rfl
      intro finding member
      rcases List.mem_append.mp member with isOld | isNew
      · exact references.found finding isOld
      · rw [List.mem_singleton.mp isNew]
        exact bound
    · cases ran
  | deploy projectId buildId deploymentId commandId => exact references_deploy references ran
  | stop deploymentId commandId => exact references_stop references ran
  | setActive projectId deploymentId => exact references_setActive references ran
  | cleanup action => cases ran; exact references.congr rfl rfl rfl rfl rfl rfl
  | retain projectId settings now jobId targetIds =>
    simp only [transact] at ran
    cases prepared : store.prepareRetentionJob projectId settings now sha256 jobId targetIds with
    | error error => rw [prepared] at ran; cases ran
    | ok result =>
      rw [prepared] at ran
      cases ran
      obtain same | ⟨cleanup, same⟩ := prepareRetentionJob_eq_ok prepared
      · exact same ▸ references
      · rw [same]
        have kept : (store.withoutCandidates projectId settings now).References := references_withoutCandidates references
        exact kept.congr rfl rfl rfl rfl rfl rfl

theorem invariant_initial : initial.Invariant where
  deployed _ member := by cases member
  commanded _ member := by cases member
  found _ member := by cases member
  active _ member := by cases member
  oneActive := List.nodup_nil
  keys := rfl

theorem invariant_step (action : RetentionAction) (invariant : store.Invariant) :
    (store.step policy unicode sha256 action).Invariant := by
  unfold step
  cases ran : store.transact policy unicode sha256 action with
  | none => exact invariant
  | some next =>
    by_cases keys : next.foreignKeys = true
    · rw [Option.filter_some_pos keys, Option.getD_some]
      exact ⟨references_transact invariant.toReferences ran, keys⟩
    · rw [Option.filter_some_neg (Bool.eq_false_of_not_eq_true keys)]
      exact invariant

theorem invariant_run (actions : List RetentionAction) :
    (run (step policy unicode sha256) initial actions).Invariant :=
  run_invariant Invariant (fun _ action invariant => invariant_step action invariant) invariant_initial actions

/-! ## The result -/

/-- What retention may do with a project. -/
structure RetentionSafe (store : RetentionStore) (projectId : Uuid) (settings : RetentionSettings) (now : Instant)
    (sha256 : Text → Text) (jobId : Uuid) (targetIds : Nat → Uuid) : Prop where
  /-- It deletes no version that a source has selected. -/
  current : ∀ version ∈ store.versionCandidates projectId settings now, ∀ row ∈ store.sourceRows,
    row.currentVersionId ≠ some version.id
  /-- It deletes no version that is bound to a build it keeps. -/
  bound : ∀ version ∈ store.versionCandidates projectId settings now, ∀ binding ∈ store.bindings,
    binding.sourceVersionId = version.id → store.isCandidate projectId settings binding.buildId = true
  builds : ∀ build ∈ store.buildCandidates projectId settings, build.status.terminal = true ∧
    (∀ pair ∈ store.activeBuilds, pair.2 ≠ build.id) ∧
    (∀ deployment ∈ store.deployments, deployment.buildId ≠ build.id) ∧
    build ∉ store.newestBuilds projectId settings
  commits : store.prepareRetentionJob projectId settings now sha256 jobId targetIds ≠ .error .foreignKey

/-- A source of the project has selected an expired version again that is not its newest one, and none of the builds
that outlive retention is bound to it. -/
def StaleSelection (store : RetentionStore) (projectId : Uuid) (settings : RetentionSettings) (now : Instant) : Prop :=
  ∃ row ∈ store.sourceRows, row.projectId = projectId ∧
    ∃ version ∈ store.versionRows, row.currentVersionId = some version.id ∧ store.Outdated version ∧
      (∃ retention, settings.sourceRetention = some retention ∧ version.createdAt < now - retention) ∧
      store.Unbound projectId settings version

variable {projectId : Uuid} {settings : RetentionSettings} {now : Instant}

theorem staleSelection_iff (invariant : store.Invariant) : store.StaleSelection projectId settings now ↔
    ∃ version ∈ store.versionCandidates projectId settings now, ∃ row ∈ store.sourceRows,
      row.currentVersionId = some version.id := by
  have owner : ∀ row ∈ store.sourceRows, ∀ version ∈ store.versionRows, row.currentVersionId = some version.id →
      version.sourceId = row.id := by
    intro row isRow version isVersion selected
    have owned := (foreignKeys_iff.mp invariant.keys).current row isRow version.id selected
    obtain ⟨other, isOther, sameId, ofSource⟩ := ownsVersion_iff.mp owned
    rw [← Table.eq_of_key isOther isVersion sameId]
    exact ofSource
  constructor
  · rintro ⟨row, isRow, ofProject, version, isVersion, selected, outdated, expired, unbound⟩
    refine ⟨version, ?_, row, isRow, selected⟩
    exact (mem_versionCandidates invariant.toReferences).mpr
      ⟨isVersion, ⟨row, isRow, ofProject, owner row isRow version isVersion selected⟩, outdated, expired, unbound⟩
  · rintro ⟨version, isCandidate, row, isRow, selected⟩
    obtain ⟨isVersion, ⟨source, isSource, ofProject, ofSource⟩, outdated, expired, unbound⟩ :=
      (mem_versionCandidates invariant.toReferences).mp isCandidate
    have same : source = row :=
      Table.eq_of_key isSource isRow (ofSource.symm.trans (owner row isRow version isVersion selected))
    exact ⟨row, isRow, same ▸ ofProject, version, isVersion, selected, outdated, expired, unbound⟩

theorem prepareRetentionJob_ne_foreignKey (invariant : store.Invariant) (jobId : Uuid) (targetIds : Nat → Uuid)
    (current : ∀ version ∈ store.versionCandidates projectId settings now, ∀ row ∈ store.sourceRows,
      row.currentVersionId ≠ some version.id) :
    store.prepareRetentionJob projectId settings now sha256 jobId targetIds ≠ .error .foreignKey := by
  have keys := foreignKeys_iff.mpr (foreignKeys_withoutCandidates invariant current)
  unfold prepareRetentionJob
  split
  · simp
  · split
    · simp
    · simp [keys]

/-- In every state that runs reach, retention of a project is safe exactly when none of its sources has selected an
expired older version again. -/
theorem retentionSafe_iff_of_every_run (policy : SourceUrlPolicy) (unicode : Unicode) (sha256 : Text → Text)
    (actions : List RetentionAction) (projectId : Uuid) (settings : RetentionSettings) (now : Instant) (jobId : Uuid)
    (targetIds : Nat → Uuid) :
    (run (step policy unicode sha256) initial actions).RetentionSafe projectId settings now sha256 jobId targetIds ↔
      ¬ (run (step policy unicode sha256) initial actions).StaleSelection projectId settings now := by
  have invariant := @invariant_run policy unicode sha256 actions
  rw [staleSelection_iff invariant]
  constructor
  · rintro safe ⟨version, isCandidate, row, isRow, selected⟩
    exact safe.current version isCandidate row isRow selected
  · intro fresh
    have current : ∀ version ∈ versionCandidates _ projectId settings now, ∀ row ∈ sourceRows _,
        row.currentVersionId ≠ some version.id :=
      fun version isCandidate row isRow selected => fresh ⟨version, isCandidate, row, isRow, selected⟩
    refine ⟨current, ?_, ?_, prepareRetentionJob_ne_foreignKey invariant jobId targetIds current⟩
    · intro version isCandidate binding isBinding bound
      obtain ⟨-, -, -, -, unbound⟩ := (mem_versionCandidates invariant.toReferences).mp isCandidate
      exact (isCandidate_iff_goes invariant.toReferences).mpr (unbound binding isBinding bound)
    · intro build candidate
      have goes : isCandidate _ projectId settings build.id = true := isCandidate_iff.mpr ⟨build, candidate, rfl⟩
      obtain ⟨-, -, expendable⟩ := (mem_buildCandidates invariant.toReferences).mp candidate
      refine ⟨?_, ?_, ?_, fun newest => expendable (.inr (.inr (.inr (.inr newest))))⟩
      · by_contra running
        exact expendable (.inr (.inl (Bool.eq_false_of_not_eq_true running)))
      · intro pair isActive same
        rw [← same, active_stays invariant.toReferences isActive] at goes
        cases goes
      · intro deployment isDeployment same
        rw [← same, deployed_stays invariant.toReferences isDeployment] at goes
        cases goes

end

/-- A document is uploaded, then another one, then the first one again. -/
def uploadedAgain : List RetentionAction :=
  let source : ProjectSource := ⟨1, 7, .openapi, "items", none, true⟩
  let content (digest : Text) : StoredContent := {
    contentSha256 := digest, mediaType := "application/json", storageKey := digest, byteSize := 1, detectedFormat := "json" }
  let creation : SourceCreation := {
    sourceId := 1, projectId := 7, kind := .openapi, name := "items", originType := .upload, sourceUrl := none,
    isPrimary := false, content := content "a", actorUserId := 1, versionId := 11, now := 1 }
  [.source (.createProject 7), .source (.createVersioned creation), .source (.readSource 7 1),
    .source (.addVersion ⟨source, content "b", 1, 12, 2⟩), .source (.addVersion ⟨source, content "a", 1, 13, 3⟩)]

/-- The version in use is the older one; retention deletes it and fails at its commit. -/
theorem not_retentionSafe_of_every_run :
    ¬ ∀ actions projectId settings now jobId targetIds,
      (run (step ⟨false⟩ asciiUnicode id) initial actions).RetentionSafe projectId settings now id jobId targetIds := by
  intro safe
  have fails : (match (run (step ⟨false⟩ asciiUnicode id) initial uploadedAgain).prepareRetentionJob 7 ⟨none, some 10⟩ 100
      id 21 (· + 31) with
    | .error .foreignKey => true
    | _ => false) = true := by decide +kernel
  have commits := (safe uploadedAgain 7 ⟨none, some 10⟩ 100 21 (· + 31)).commits
  split at fails
  · rename_i isError
    exact commits isError
  · cases fails

end RetentionStore

end Mcplica.Cleanup
