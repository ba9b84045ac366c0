import Mcplica.Canonicalization.Uncached
import Mcplica.Parsers.Extension
import Mcplica.Sources.Creation

/-! # Sources created under one name

A source created under the name of another one takes the primary role over from it. The older ones stay bound to the
project, as dependencies of the newest under the name that they share. -/

namespace Mcplica.Sources

open Mcplica.Domain Mcplica.Library Mcplica.Contracts Mcplica.Parsers Mcplica.Canonicalization

/-! ## The rows after a creation -/

namespace SourceStore

/-- The row of a creation when the next one has or has not come yet. -/
def settledSource (isPrimary : Bool) (creation : SourceCreation) : SourceRow :=
  { newSource creation with
    isPrimary
    currentVersionId := some creation.versionId
    currentVersionSelectedAt := some creation.now
    lastObservedAt := some creation.now
    lastObservedEtag := creation.content.sourceEtag
    lastObservedLastModified := creation.content.sourceLastModified }

/-- One value for each creation; the last one is the primary. -/
def superseded {α : Type} (make : Bool → SourceCreation → α) (creations : List SourceCreation) : List α :=
  creations.dropLast.map (make false) ++ creations.getLast?.toList.map (make true)

theorem superseded_nil {α : Type} (make : Bool → SourceCreation → α) : superseded make [] = [] := rfl

theorem superseded_concat {α : Type} (make : Bool → SourceCreation → α) (creations : List SourceCreation)
    (creation : SourceCreation) : superseded make (creations ++ [creation]) = creations.map (make false) ++ [make true creation] := by
  simp [superseded]

theorem map_superseded {α β : Type} (make : Bool → SourceCreation → α) (change : α → β) (creations : List SourceCreation) :
    (superseded make creations).map change = superseded (fun isPrimary creation => change (make isPrimary creation)) creations := by
  simp [superseded, Function.comp_def]

theorem superseded_eq_map {α : Type} (make : Bool → SourceCreation → α) (creations : List SourceCreation) :
    superseded make creations = (superseded Prod.mk creations).map fun pair => make pair.1 pair.2 :=
  (map_superseded Prod.mk (fun pair => make pair.1 pair.2) creations).symm

theorem superseded_of_plain {α : Type} (make : SourceCreation → α) (creations : List SourceCreation) :
    superseded (fun _ creation => make creation) creations = creations.map make := by
  rcases List.eq_nil_or_concat creations with rfl | ⟨earlier, last, rfl⟩
  · rfl
  · rw [List.concat_eq_append, superseded_concat, List.map_append, List.map_singleton]

theorem mem_superseded {α : Type} {make : Bool → SourceCreation → α} {creations : List SourceCreation} {value : α}
    (member : value ∈ superseded make creations) : ∃ creation ∈ creations, ∃ isPrimary, value = make isPrimary creation := by
  rcases List.eq_nil_or_concat creations with rfl | ⟨earlier, last, rfl⟩
  · cases member
  · rw [List.concat_eq_append, superseded_concat, List.mem_append, List.mem_map, List.mem_singleton] at member
    rcases member with ⟨creation, isCreation, rfl⟩ | rfl
    · exact ⟨creation, by simp [isCreation], false, rfl⟩
    · exact ⟨last, by simp, true, rfl⟩

/-- The OpenAPI sources of one project and name, each created after the ones before it. -/
structure Group (projectId : Uuid) (name : Text) (creations : List SourceCreation) : Prop where
  project : ∀ creation ∈ creations, creation.projectId = projectId
  named : ∀ creation ∈ creations, creation.name = name
  kind : ∀ creation ∈ creations, creation.kind = .openapi
  ids : (creations.map SourceCreation.sourceId).Nodup
  times : creations.Pairwise fun creation later => creation.now < later.now

/-- A store in which the project has no sources; every version belongs to a source. -/
structure EmptyProject (store : SourceStore) (projectId : Uuid) : Prop where
  sources : ∀ row ∈ store.sources, row.projectId ≠ projectId
  versions : ∀ version ∈ store.versions, ∃ row ∈ store.sources, row.id = version.sourceId

/-- The rows after the creations: those of other projects and one source with its version for each of them. -/
structure Holds (before store : SourceStore) (creations : List SourceCreation) : Prop where
  sources : store.sources.rows = before.sources.rows ++ superseded settledSource creations
  versions : store.versions.rows = before.versions.rows ++ creations.map newVersion

section Step

variable {projectId : Uuid} {name : Text} {creations : List SourceCreation} {creation : SourceCreation}
  {before store next : SourceStore}

theorem Group.of_concat (group : Group projectId name (creations ++ [creation])) : Group projectId name creations where
  project other member := group.project other (List.mem_append_left _ member)
  named other member := group.named other (List.mem_append_left _ member)
  kind other member := group.kind other (List.mem_append_left _ member)
  ids := (List.nodup_append.mp (List.map_append ▸ group.ids)).1
  times := (List.pairwise_append.mp group.times).1

theorem Group.fresh (group : Group projectId name (creations ++ [creation])) {other : SourceCreation} (member : other ∈ creations) :
    other.sourceId ≠ creation.sourceId := by
  have distinct := group.ids
  rw [List.map_append] at distinct
  exact (List.nodup_append.mp distinct).2.2 _ (List.mem_map_of_mem member) _ (by simp)

theorem Group.earlier (group : Group projectId name (creations ++ [creation])) {other : SourceCreation} (member : other ∈ creations) :
    other.now < creation.now :=
  (List.pairwise_append.mp group.times).2.2 other member creation (by simp)

theorem Group.project_last (group : Group projectId name (creations ++ [creation])) : creation.projectId = projectId :=
  group.project creation (by simp)

theorem Group.kind_last (group : Group projectId name (creations ++ [creation])) : creation.kind = .openapi :=
  group.kind creation (by simp)

theorem Holds.mem (holds : Holds before store creations) {row : SourceRow} : row ∈ store.sources ↔
    row ∈ before.sources ∨ row ∈ superseded settledSource creations := by
  rw [← Table.mem_rows, holds.sources, List.mem_append, Table.mem_rows]

/-- The key is not one of another project, as its source would not be the one that is created. -/
theorem Holds.get?_eq_none (holds : Holds before store creations) (empty : before.EmptyProject projectId)
    (group : Group projectId name (creations ++ [creation]))
    (known : ∀ row, store.sources.get? creation.sourceId = some row → sameIdentity creation row = true) :
    store.sources.get? creation.sourceId = none := by
  cases found : store.sources.get? creation.sourceId with
  | none => rfl
  | some row =>
    obtain ⟨member, sameId⟩ := Table.get?_eq_some.mp found
    rcases holds.mem.mp member with foreign | own
    · have same := known row found
      simp only [sameIdentity, Bool.and_eq_true, decide_eq_true_eq] at same
      exact absurd (same.1.1.1.1.trans group.project_last) (empty.sources row foreign)
    · obtain ⟨other, isOther, isPrimary, rfl⟩ := mem_superseded own
      exact absurd sameId (group.fresh isOther)

instance : Std.Total fun left right => newestFirst left right = true where
  total left right := by
    simp only [newestFirst, Bool.or_eq_true, Bool.and_eq_true, decide_eq_true_eq, Instant, Uuid]
    omega

instance : IsTrans SourceRow fun left right => newestFirst left right = true where
  trans first second third := by
    simp only [newestFirst, Bool.or_eq_true, Bool.and_eq_true, decide_eq_true_eq, Instant, Uuid]
    omega

theorem EmptyProject.not_inGroup (empty : before.EmptyProject projectId) {row : SourceRow} (member : row ∈ before.sources)
    (kind : SourceKind) : inGroup projectId name kind row = false := by
  simp [inGroup, empty.sources row member]

/-- The newest source of the group is the one that was created last, and it is the primary one. -/
theorem Holds.latestInGroup (holds : Holds before store creations) (empty : before.EmptyProject projectId)
    (group : Group projectId name creations) :
    (store.latestInGroup projectId name .openapi).any (·.isPrimary) = !creations.isEmpty := by
  rcases List.eq_nil_or_concat creations with rfl | ⟨earlier, last, rfl⟩
  · have none : store.sources.rows.filter (inGroup projectId name .openapi) = [] := by
      rw [holds.sources, superseded_nil, List.append_nil, List.filter_eq_nil_iff]
      intro row member
      rw [empty.not_inGroup member]
      exact Bool.false_ne_true
    unfold SourceStore.latestInGroup Table.select
    rw [none]
    rfl
  · rw [List.concat_eq_append] at holds group ⊢
    have isLast : settledSource true last ∈ store.sources := by
      rw [holds.mem, superseded_concat]
      simp
    have inLast : inGroup projectId name .openapi (settledSource true last) = true := by
      simp [inGroup, settledSource, newSource, group.project last (by simp), group.named last (by simp),
        group.kind last (by simp)]
    have first : ∀ other ∈ store.sources, inGroup projectId name .openapi other = true →
        newestFirst other (settledSource true last) = true → other = settledSource true last := by
      intro other member inGroup newer
      rw [holds.mem, superseded_concat, List.mem_append, List.mem_map, List.mem_singleton] at member
      rcases member with foreign | ⟨earlierCreation, isEarlier, rfl⟩ | rfl
      · rw [empty.not_inGroup foreign] at inGroup
        cases inGroup
      · have before := group.earlier isEarlier
        simp [newestFirst, settledSource, newSource] at newer
        grind
      · rfl
    unfold SourceStore.latestInGroup
    rw [Table.head_select isLast inLast first]
    simp [settledSource]

theorem persistSource_new {inheritsPrimary : Bool} (holds : Holds before store creations)
    (empty : before.EmptyProject projectId) (group : Group projectId name (creations ++ [creation]))
    (ran : store.persistSource creation = .ok (next, inheritsPrimary)) :
    store.sources.get? creation.sourceId = none ∧ next.sources.rows = store.sources.rows ++ [newSource creation] ∧
      next.versions = store.versions ∧ inheritsPrimary = !creations.isEmpty := by
  have isNew := holds.get?_eq_none empty group fun row found => by
    unfold persistSource at ran
    rw [found] at ran
    simp only [bind_eq_ok, ensure_eq_ok] at ran
    exact ran.choose_spec.1
  refine ⟨isNew, ?_⟩
  unfold persistSource at ran
  rw [isNew] at ran
  simp only [bind_eq_ok, obtain?_eq_ok] at ran
  obtain ⟨sources, inserted, same⟩ := ran
  cases same
  refine ⟨Table.rows_insert inserted, rfl, ?_⟩
  rw [group.project_last, group.named creation (by simp), group.kind_last]
  exact holds.latestInGroup empty group.of_concat

theorem persistVersion_new {version : VersionRow} {deduplicated : Bool} {rows : List VersionRow}
    (versions : store.versions.rows = rows) (absent : ∀ version ∈ rows, version.sourceId ≠ creation.sourceId)
    (ran : store.persistVersion creation = .ok (next, version, deduplicated)) :
    next.sources = store.sources ∧ next.versions.rows = rows ++ [newVersion creation] ∧ version = newVersion creation := by
  have notStored : store.versionByHash creation.sourceId creation.content.contentSha256 = none := by
    rw [versionByHash, List.find?_eq_none, versions]
    intro row member
    simp [absent row member]
  unfold persistVersion at ran
  rw [notStored] at ran
  simp only [bind_eq_ok, obtain?_eq_ok] at ran
  obtain ⟨inserted, isInserted, same⟩ := ran
  cases same
  exact ⟨rfl, versions ▸ Table.rows_insert isInserted, rfl⟩

/-- The newest row is changed as told, the others are not. -/
theorem rows_update_newest {change : SourceRow → SourceRow} (keeps) {sources : Table SourceRow} {rows : List SourceRow}
    {newest : SourceRow} (shape : sources.rows = rows ++ [newest]) (others : ∀ row ∈ rows, row.id ≠ newest.id) :
    (sources.update (·.id = newest.id) change keeps).rows = rows ++ [change newest] := by
  have kept : rows.map (fun row => if row.id = newest.id then change row else row) = rows := by
    conv => rhs; rw [← List.map_id rows]
    apply List.map_congr_left
    intro row member
    rw [if_neg (others row member)]
    rfl
  simp [Table.update, shape, kept]

/-- The rows of other projects stay as they are, the older ones of the project lose the primary role. -/
theorem rows_clear_others {sources : Table SourceRow} {foreign older : List SourceRow} {newest : SourceRow} (keeps)
    (shape : sources.rows = foreign ++ older ++ [newest]) (elsewhere : ∀ row ∈ foreign, row.projectId ≠ projectId)
    (others : ∀ row ∈ older, row.id ≠ newest.id)
    (executable : ∀ row ∈ older, row.projectId = projectId ∧ row.kind = .openapi) :
    (sources.update (fun row => isPrimaryExecutableRow projectId row && row.id ≠ newest.id) (setPrimary false) keeps).rows =
      foreign ++ older.map (setPrimary false) ++ [newest] := by
  have kept : ∀ row ∈ foreign, isPrimaryExecutableRow projectId row = true → ¬ row.id = newest.id →
      setPrimary false row = row := by
    intro row member isPrimary
    simp only [isPrimaryExecutableRow, Bool.and_eq_true, decide_eq_true_eq] at isPrimary
    exact absurd isPrimary.1.1 (elsewhere row member)
  -- A row that is not primary is not touched, and it is what clearing would make of it.
  have cleared : ∀ row ∈ older, (isPrimaryExecutableRow projectId row = true → row.id = newest.id) →
      row = setPrimary false row := by
    intro row member untouched
    obtain ⟨inProject, isOpenApi⟩ := executable row member
    have notPrimary : row.isPrimary = false := by
      by_contra isPrimary
      refine others row member (untouched ?_)
      simp [isPrimaryExecutableRow, isExecutable, inProject, isOpenApi, eq_true_of_ne_false isPrimary]
    rw [setPrimary, ← notPrimary]
  have foreignRows : foreign.map (fun row => if isPrimaryExecutableRow projectId row = true ∧ ¬ row.id = newest.id
      then setPrimary false row else row) = foreign := by
    conv => rhs; rw [← List.map_id foreign]
    apply List.map_congr_left
    intro row member
    split
    · rename_i touched
      exact kept row member touched.1 touched.2
    · rfl
  simpa [Table.update, shape, foreignRows] using cleared

/-- Without an older source there is no primary one yet, and otherwise the role is inherited. -/
theorem takesOver {inheritsPrimary : Bool} (empty : before.EmptyProject projectId)
    (group : Group projectId name (creations ++ [creation]))
    (shape : store.sources.rows = before.sources.rows ++ superseded settledSource creations ++ [settledSource false creation])
    (inherits : inheritsPrimary = !creations.isEmpty) : (isExecutable creation.kind && (creation.isPrimary ||
      (store.versionedPrimaryExecutable creation.projectId).isNone || inheritsPrimary)) = true := by
  rw [group.kind_last, inherits]
  cases creations with
  | nil =>
    have none : store.versionedPrimaryExecutable creation.projectId = none := by
      rw [versionedPrimaryExecutable, shape, superseded_nil, List.append_nil, List.find?_eq_none]
      intro row member
      rw [List.mem_append, List.mem_singleton] at member
      rcases member with foreign | rfl
      · simp [isPrimaryExecutableRow, group.project_last, empty.sources row foreign]
      · simp [isPrimaryExecutableRow, settledSource]
    simp [none, isExecutable]
  | cons _ _ => simp [isExecutable]

theorem rows_promote {inheritsPrimary : Bool} (empty : before.EmptyProject projectId)
    (group : Group projectId name (creations ++ [creation]))
    (shape : store.sources.rows = before.sources.rows ++ superseded settledSource creations ++ [settledSource false creation])
    (isNew : ∀ row ∈ before.sources.rows ++ superseded settledSource creations, row.id ≠ creation.sourceId)
    (inherits : inheritsPrimary = !creations.isEmpty) (ran : store.promote creation inheritsPrimary = .ok next) :
    next.sources.rows = before.sources.rows ++ superseded settledSource (creations ++ [creation]) ∧
      next.versions = store.versions := by
  have isNewest : settledSource false creation ∈ store.sources := by
    rw [← Table.mem_rows, shape]
    simp
  have found : store.sources.get? creation.sourceId = some (settledSource false creation) :=
    Table.get?_eq_some.mpr ⟨isNewest, rfl⟩
  have executable : ∀ row ∈ superseded settledSource creations,
      row.projectId = creation.projectId ∧ row.kind = .openapi := by
    intro row member
    obtain ⟨other, isOther, isPrimary, rfl⟩ := mem_superseded member
    exact ⟨(group.of_concat.project other isOther).trans group.project_last.symm, group.of_concat.kind other isOther⟩
  have mayBePromoted : (decide ((settledSource false creation).projectId = creation.projectId) &&
      isExecutable (settledSource false creation).kind && (settledSource false creation).currentVersionId.isSome) = true := by
    simp [settledSource, newSource, group.kind_last, isExecutable]
  unfold promote at ran
  rw [if_pos (takesOver empty group shape inherits), obtain?_eq_ok, promoteExecutable, found, Option.bind_eq_bind,
    Option.bind_some, if_pos mayBePromoted] at ran
  cases ran
  have cleared := rows_clear_others (fun _ => rfl) shape
    (fun row member => group.project_last ▸ empty.sources row member)
    (fun row member => isNew row (List.mem_append_right _ member)) executable
  have older : ∀ row ∈ before.sources.rows ++ (superseded settledSource creations).map (setPrimary false),
      row.id ≠ (settledSource false creation).id := by
    intro row member
    rcases List.mem_append.mp member with foreign | own
    · exact isNew row (List.mem_append_left _ foreign)
    · obtain ⟨old, isOld, rfl⟩ := List.mem_map.mp own
      exact isNew old (List.mem_append_right _ isOld)
  have promoted := @rows_update_newest (setPrimary true) (fun _ => rfl) _ _ _ cleared older
  refine ⟨promoted.trans ?_, rfl⟩
  have plain : superseded (fun isPrimary creation => setPrimary false (settledSource isPrimary creation)) creations =
      creations.map (settledSource false) := superseded_of_plain _ creations
  rw [superseded_concat, map_superseded, plain, List.append_assoc]
  rfl

/-- One creation: the new row is the primary one, all older ones are not. -/
theorem Holds.persistCreatedSource (holds : Holds before store creations) (empty : before.EmptyProject projectId)
    (group : Group projectId name (creations ++ [creation])) (ran : store.persistCreatedSource creation = .ok next) :
    Holds before next (creations ++ [creation]) := by
  unfold SourceStore.persistCreatedSource at ran
  simp only [bind_eq_ok] at ran
  obtain ⟨_, -, ⟨withSource, inheritsPrimary⟩, isSource, ⟨withVersion, version, deduplicated⟩, isVersion, ran⟩ := ran
  obtain ⟨isNew, sourceRows, sameVersions, inherits⟩ := persistSource_new holds empty group isSource
  rw [Table.get?_eq_none] at isNew
  have others : ∀ row ∈ before.sources.rows ++ superseded settledSource creations, row.id ≠ creation.sourceId := by
    intro row member
    rw [← holds.sources] at member
    exact isNew row member
  have versionsElsewhere : ∀ version ∈ before.versions.rows ++ creations.map newVersion, version.sourceId ≠ creation.sourceId := by
    intro version member
    rcases List.mem_append.mp member with foreign | own
    · obtain ⟨row, isRow, sameId⟩ := empty.versions version foreign
      exact sameId ▸ others row (List.mem_append_left _ isRow)
    · obtain ⟨other, isOther, rfl⟩ := List.mem_map.mp own
      exact group.fresh isOther
  obtain ⟨sameSources, versionRows, rfl⟩ := persistVersion_new (sameVersions ▸ holds.versions) versionsElsewhere isVersion
  have shape : withVersion.sources.rows = before.sources.rows ++ superseded settledSource creations ++ [newSource creation] := by
    rw [sameSources, sourceRows, holds.sources]
  have selected := @rows_update_newest (fun row => { row with
    currentVersionId := some creation.versionId
    currentVersionSelectedAt := some creation.now
    lastObservedAt := some creation.now
    lastObservedEtag := creation.content.sourceEtag
    lastObservedLastModified := creation.content.sourceLastModified }) (fun _ => rfl) _ _ _ shape others
  obtain ⟨rows, versions⟩ := rows_promote empty group selected others inherits ran
  refine ⟨rows, ?_⟩
  rw [versions, List.map_append, List.map_singleton, ← List.append_assoc]
  exact versionRows

end Step

end SourceStore

/-! ## Creations one after another -/

open SourceStore

theorem normalize_eq_ok {policy : SourceUrlPolicy} {unicode : Unicode} {creation normalized : SourceCreation}
    (ran : creation.normalize policy unicode = .ok normalized) :
    ∃ sourceUrl, normalized = { creation with name := creation.name.strip, sourceUrl } := by
  unfold SourceCreation.normalize at ran
  simp only [bind_eq_ok] at ran
  obtain ⟨_, -, sourceUrl, -, _, -, same⟩ := ran
  cases same
  exact ⟨sourceUrl, rfl⟩

/-- OpenAPI sources of one project that are created one after another under one name. -/
structure CreatedInTurn (projectId : Uuid) (name : Text) (creations : List SourceCreation) : Prop where
  project : ∀ creation ∈ creations, creation.projectId = projectId
  named : ∀ creation ∈ creations, creation.name.strip = name
  kind : ∀ creation ∈ creations, creation.kind = .openapi
  ids : (creations.map SourceCreation.sourceId).Nodup
  times : creations.Pairwise fun creation later => creation.now < later.now

theorem CreatedInTurn.of_concat {projectId : Uuid} {name : Text} {creations : List SourceCreation} {creation : SourceCreation}
    (inTurn : CreatedInTurn projectId name (creations ++ [creation])) : CreatedInTurn projectId name creations where
  project other member := inTurn.project other (List.mem_append_left _ member)
  named other member := inTurn.named other (List.mem_append_left _ member)
  kind other member := inTurn.kind other (List.mem_append_left _ member)
  ids := (List.nodup_append.mp (List.map_append ▸ inTurn.ids)).1
  times := (List.pairwise_append.mp inTurn.times).1

section Runs

variable {policy : SourceUrlPolicy} {unicode : Unicode} {projectId : Uuid} {name : Text}
  {creations normalized : List SourceCreation} {store : SourceStore}

/-- The creations as they are persisted. -/
def Normalized (policy : SourceUrlPolicy) (unicode : Unicode) (creation normalized : SourceCreation) : Prop :=
  creation.normalize policy unicode = .ok normalized ∧ (normalized.sourceUrl.mapM (urlsplit unicode)).isSome = true

theorem group_of_normalized (inTurn : CreatedInTurn projectId name creations)
    (areNormalized : List.Forall₂ (fun creation normalized => creation.normalize policy unicode = .ok normalized) creations
      normalized) : Group projectId name normalized := by
  have sameIds : normalized.map SourceCreation.sourceId = creations.map SourceCreation.sourceId := by
    clear inTurn
    induction areNormalized with
    | nil => rfl
    | cons isNormalized _ ih =>
      obtain ⟨sourceUrl, rfl⟩ := normalize_eq_ok isNormalized
      rw [List.map_cons, List.map_cons, ih]
  have origin : ∀ creation ∈ normalized, ∃ original ∈ creations, ∃ sourceUrl,
      creation = { original with name := original.name.strip, sourceUrl } := by
    intro creation member
    obtain ⟨original, isOriginal, isNormalized⟩ := exists_of_forall₂_right areNormalized member
    exact ⟨original, isOriginal, normalize_eq_ok isNormalized⟩
  refine ⟨?_, ?_, ?_, sameIds ▸ inTurn.ids, ?_⟩
  · intro creation member
    obtain ⟨original, isOriginal, sourceUrl, rfl⟩ := origin creation member
    exact inTurn.project original isOriginal
  · intro creation member
    obtain ⟨original, isOriginal, sourceUrl, rfl⟩ := origin creation member
    exact inTurn.named original isOriginal
  · intro creation member
    obtain ⟨original, isOriginal, sourceUrl, rfl⟩ := origin creation member
    exact inTurn.kind original isOriginal
  · refine (pairwise_iff_of_forall₂ areNormalized ?_).mpr inTurn.times
    intro first firstNormalized second secondNormalized isFirst isSecond
    obtain ⟨firstUrl, rfl⟩ := normalize_eq_ok isFirst
    obtain ⟨secondUrl, rfl⟩ := normalize_eq_ok isSecond
    exact Iff.rfl

/-- A whole run of creations in a project that was empty. -/
theorem holds_of_created {before : SourceStore} (empty : before.EmptyProject projectId)
    (inTurn : CreatedInTurn projectId name creations)
    (created : creations.foldlM (createSource policy unicode) before = .ok store) :
    ∃ normalized, List.Forall₂ (Normalized policy unicode) creations normalized ∧ Holds before store normalized := by
  refine foldlM_induction (fun read state => CreatedInTurn projectId name read →
    ∃ normalized, List.Forall₂ (Normalized policy unicode) read normalized ∧ Holds before state normalized) ?_ ?_ created inTurn
  · intro _
    exact ⟨[], .nil, by simp [superseded_nil], by simp⟩
  · intro read state creation next ih stepped inTurn
    obtain ⟨normalized, areNormalized, holds⟩ := ih inTurn.of_concat
    unfold createSource at stepped
    simp only [bind_eq_ok] at stepped
    obtain ⟨last, isNormalized, exists_, isExisting, ran⟩ := stepped
    have group := group_of_normalized inTurn
      (List.rel_append (areNormalized.imp fun _ _ each => each.1) (.cons isNormalized .nil))
    have isNew := holds.get?_eq_none empty group fun row found => by
      unfold existingCreation at isExisting
      rw [found] at isExisting
      simp only [bind_eq_ok, ensure_eq_ok] at isExisting
      exact isExisting.choose_spec.1
    have notExisting : exists_ = false := by
      unfold existingCreation at isExisting
      rw [isNew] at isExisting
      exact (Except.ok.inj isExisting).symm
    subst notExisting
    rw [if_neg Bool.false_ne_true] at ran
    obtain ⟨_, located, ran⟩ := bind_eq_ok.mp ran
    rw [mapError_eq_ok, orValueError_eq_ok] at located
    have isLast : Normalized policy unicode creation last := ⟨isNormalized, by rw [located]; rfl⟩
    exact ⟨normalized ++ [last], List.rel_append areNormalized (.cons isLast .nil), holds.persistCreatedSource empty group ran⟩

/-! ## The bound versions -/

/-- A created source as it is bound. -/
def boundCreation (unicode : Unicode) (isPrimary : Bool) (creation : SourceCreation) : BoundSourceVersion where
  source := (settledSource isPrimary creation).toProjectSource
  versionId := creation.versionId
  contentSha256 := creation.content.contentSha256
  storageKey := creation.content.storageKey
  dependencyAliases := (sourceDependencyAliases unicode (settledSource isPrimary creation).toProjectSource).getD []

theorem sourceDependencyAliases_settled (isPrimary : Bool) (creation : SourceCreation) :
    sourceDependencyAliases unicode (settledSource isPrimary creation).toProjectSource =
      match creation.sourceUrl.filter (· ≠ []) with
      | none => some [creation.name]
      | some url => (urlsplit unicode url).map fun parsed =>
        Text.sorted (creation.name :: url :: if purePosixPathName parsed.path = [] then [] else
          [purePosixPathName parsed.path]).dedup :=
  rfl

theorem aliases_of_located (isPrimary : Bool) {creation : SourceCreation}
    (located : (creation.sourceUrl.mapM (urlsplit unicode)).isSome = true) :
    ∃ aliases, sourceDependencyAliases unicode (settledSource isPrimary creation).toProjectSource = some aliases ∧
      creation.name ∈ aliases ∧ aliases.Nodup := by
  rw [sourceDependencyAliases_settled]
  cases isUrl : creation.sourceUrl.filter (· ≠ []) with
  | none => exact ⟨[creation.name], rfl, List.mem_singleton_self _, List.nodup_singleton _⟩
  | some url =>
    have written : creation.sourceUrl = some url := (Option.filter_eq_some_iff.mp isUrl).1
    rw [written] at located
    cases parsed : urlsplit unicode url with
    | none =>
      rw [Option.mapM_some, parsed] at located
      cases located
    | some parts =>
      simp only [parsed, Option.map_some, Option.some.injEq]
      refine ⟨_, rfl, ?_, ?_⟩
      · rw [Text.mem_sorted, List.mem_dedup]
        exact List.mem_cons_self
      · exact (Text.perm_sortedBy _ _).nodup_iff.mpr (List.nodup_dedup _)

/-- Each source of the project has the version it was created with, oldest first. -/
theorem latestVersions_eq {before : SourceStore} (empty : before.EmptyProject projectId) (group : Group projectId name creations)
    (holds : Holds before store creations) : store.latestVersions projectId =
      superseded (fun isPrimary creation => (settledSource isPrimary creation, newVersion creation)) creations := by
  have own : store.sources.rows.filter (·.projectId = projectId) = superseded settledSource creations := by
    have foreign : before.sources.rows.filter (·.projectId = projectId) = [] := by
      rw [List.filter_eq_nil_iff]
      intro row member
      simp [empty.sources row member]
    have kept : (superseded settledSource creations).filter (·.projectId = projectId) = superseded settledSource creations := by
      rw [List.filter_eq_self]
      intro row member
      obtain ⟨creation, isCreation, isPrimary, rfl⟩ := mem_superseded member
      exact decide_eq_true (group.project creation isCreation)
    rw [holds.sources, List.filter_append, foreign, kept, List.nil_append]
  have sorted : (superseded settledSource creations).Pairwise fun row other => decide (row.createdAt ≤ other.createdAt) = true := by
    have times : ((superseded settledSource creations).map SourceRow.createdAt).Pairwise (· ≤ ·) := by
      rw [map_superseded]
      show (superseded (fun _ creation => SourceCreation.now creation) creations).Pairwise _
      rw [superseded_of_plain, List.pairwise_map]
      exact group.times.imp fun earlier => le_of_lt earlier
    rw [List.pairwise_map] at times
    exact times.imp fun earlier => decide_eq_true earlier
  have versioned : ∀ creation ∈ creations, store.versions.get? creation.versionId = some (newVersion creation) := by
    intro creation member
    refine Table.get?_eq_some.mpr ⟨?_, rfl⟩
    rw [← Table.mem_rows, holds.versions]
    exact List.mem_append_right _ (List.mem_map_of_mem member)
  unfold latestVersions
  rw [Table.ordered_eq_filter (own ▸ sorted), own, superseded_eq_map settledSource, List.filterMap_map,
    superseded_eq_map fun isPrimary creation => (settledSource isPrimary creation, newVersion creation),
    ← List.filterMap_eq_map]
  apply List.filterMap_congr
  intro pair member
  obtain ⟨creation, isCreation, isPrimary, rfl⟩ := mem_superseded member
  show (store.versions.get? creation.versionId).map _ = _
  rw [versioned creation isCreation]
  rfl

/-- All sources of the project are bound; the last one is the primary. -/
theorem latestBoundVersions_eq {before : SourceStore} (empty : before.EmptyProject projectId)
    (group : Group projectId name creations) (holds : Holds before store creations)
    (located : ∀ creation ∈ creations, (creation.sourceUrl.mapM (urlsplit unicode)).isSome = true) :
    store.latestBoundVersions unicode projectId = some (superseded (boundCreation unicode) creations) := by
  have bound : ∀ pair ∈ superseded Prod.mk creations, boundVersion unicode (settledSource pair.1 pair.2) (newVersion pair.2) =
      some (boundCreation unicode pair.1 pair.2) := by
    intro pair member
    obtain ⟨creation, isCreation, isPrimary, rfl⟩ := mem_superseded member
    obtain ⟨aliases, areAliases, -, -⟩ := aliases_of_located isPrimary (located creation isCreation)
    unfold boundVersion boundCreation
    rw [areAliases]
    rfl
  unfold latestBoundVersions
  rw [latestVersions_eq empty group holds, superseded_eq_map fun isPrimary creation => (settledSource isPrimary creation,
    newVersion creation), superseded_eq_map (boundCreation unicode), List.mapM_map]
  generalize superseded Prod.mk creations = pairs at bound ⊢
  induction pairs with
  | nil => rfl
  | cons pair pairs ih =>
    have others := ih fun other member => bound other (List.mem_cons_of_mem _ member)
    rw [List.mapM_cons, others, Function.comp_apply, bound pair List.mem_cons_self]
    rfl

end Runs

/-! ## Canonicalization -/

section Canonicalization

variable {libraries : ServiceLibraries} {projectId : Uuid} {name : Text} {maxSourceBytes : Nat}
  {routing : ProjectRoutingConfiguration}

/-- The document of a creation, parsed on its own under the id of its version. -/
def parsedAlone (libraries : ServiceLibraries) (projectId : Uuid) (maxSourceBytes : Nat) (routing : ProjectRoutingConfiguration)
    (creation : SourceCreation) : Except SourceError CanonicalApi := do
  let document ← libraries.load creation.content.storageKey maxSourceBytes
  parseOpenApi libraries.toParserLibraries libraries.fuel
    ⟨projectId, creation.versionId, creation.content.contentSha256, routing⟩ [] document

/-- The document of the creation parses on its own and refers to no other one. -/
def Parseable (libraries : ServiceLibraries) (projectId : Uuid) (maxSourceBytes : Nat) (routing : ProjectRoutingConfiguration)
    (creation : SourceCreation) : Prop :=
  ∃ document, libraries.load creation.content.storageKey maxSourceBytes = .ok document ∧
    SelfContained libraries.unicode document ∧ Succeeds (parsedAlone libraries projectId maxSourceBytes routing creation)

section Bindings

variable {earlier : List SourceCreation} {last : SourceCreation}

theorem effectiveAliases_bound (isPrimary : Bool) {creation : SourceCreation}
    (located : (creation.sourceUrl.mapM (urlsplit libraries.unicode)).isSome = true) :
    ∃ aliases, (boundCreation libraries.unicode isPrimary creation).effectiveDependencyAliases libraries.unicode = some aliases ∧
      creation.name ∈ aliases ∧ aliases.Nodup := by
  obtain ⟨aliases, areAliases, named, distinct⟩ := aliases_of_located isPrimary located
  refine ⟨aliases, ?_, named, distinct⟩
  unfold BoundSourceVersion.effectiveDependencyAliases boundCreation
  rw [areAliases]
  exact if_neg (List.ne_nil_of_mem named)

theorem primaryBinding_superseded (group : Group projectId name (earlier ++ [last])) :
    primaryBinding (superseded (boundCreation libraries.unicode) (earlier ++ [last])) =
      .ok (boundCreation libraries.unicode true last) := by
  rw [primaryBinding_eq_ok, superseded_concat, List.filter_append]
  have none : (earlier.map (boundCreation libraries.unicode false)).filter isPrimaryExecutable = [] := by
    rw [List.filter_eq_nil_iff]
    intro binding member
    obtain ⟨creation, -, rfl⟩ := List.mem_map.mp member
    exact Bool.false_ne_true
  have one : isPrimaryExecutable (boundCreation libraries.unicode true last) = true := by
    simp [isPrimaryExecutable, boundCreation, settledSource, newSource, group.kind_last]
  rw [none, List.filter_cons_of_pos one, List.filter_nil, List.nil_append]

theorem dependencies_superseded (group : Group projectId name (earlier ++ [last]))
    (distinct : ((earlier ++ [last]).map SourceCreation.versionId).Nodup) :
    (superseded (boundCreation libraries.unicode) (earlier ++ [last])).filter
      (isDependency (boundCreation libraries.unicode true last)) = earlier.map (boundCreation libraries.unicode false) := by
  rw [superseded_concat, List.filter_append]
  have all : (earlier.map (boundCreation libraries.unicode false)).filter (isDependency (boundCreation libraries.unicode true last)) =
      earlier.map (boundCreation libraries.unicode false) := by
    rw [List.filter_eq_self]
    intro binding member
    obtain ⟨creation, isEarlier, rfl⟩ := List.mem_map.mp member
    rw [List.map_append] at distinct
    have different := (List.nodup_append.mp distinct).2.2 _ (List.mem_map_of_mem isEarlier) last.versionId (by simp)
    simp [isDependency, boundCreation, settledSource, newSource, group.of_concat.kind creation isEarlier, different]
  have notItself : ¬ isDependency (boundCreation libraries.unicode true last) (boundCreation libraries.unicode true last) = true := by
    simp [isDependency]
  rw [all, List.filter_cons_of_neg notItself, List.filter_nil, List.append_nil]

/-- Every dependency is captured, under the name of the group and further aliases. -/
theorem captureDependencies_superseded (group : Group projectId name (earlier ++ [last]))
    (distinct : ((earlier ++ [last]).map SourceCreation.versionId).Nodup)
    (located : ∀ creation ∈ earlier, (creation.sourceUrl.mapM (urlsplit libraries.unicode)).isSome = true)
    (loaded : ∀ creation ∈ earlier, Succeeds (libraries.load creation.content.storageKey maxSourceBytes)) :
    ∃ captures, captureDependencies libraries.unicode (parseSource libraries maxSourceBytes)
        (boundCreation libraries.unicode true last) (superseded (boundCreation libraries.unicode) (earlier ++ [last])) =
          .ok captures ∧ captures.length = earlier.length ∧
      ∀ capture ∈ captures, name ∈ capture.aliases ∧ capture.aliases.Nodup := by
  unfold captureDependencies
  rw [dependencies_superseded group distinct]
  have captured : ∀ creation ∈ earlier, ∃ capture, captureSource libraries.unicode (parseSource libraries maxSourceBytes)
      (boundCreation libraries.unicode false creation) = .ok capture ∧ name ∈ capture.aliases ∧ capture.aliases.Nodup := by
    intro creation member
    obtain ⟨document, isDocument⟩ := loaded creation member
    obtain ⟨aliases, areAliases, named, aliasesDistinct⟩ := effectiveAliases_bound false (located creation member)
    refine ⟨⟨boundCreation libraries.unicode false creation, document, aliases⟩, ?_, ?_, aliasesDistinct⟩
    · unfold captureSource
      rw [bind_eq_ok]
      refine ⟨document, attributed_eq_ok.mpr isDocument, ?_⟩
      rw [areAliases]
      rfl
    · rw [← group.of_concat.named creation member]
      exact named
  have succeeds : Succeeds ((earlier.map (boundCreation libraries.unicode false)).mapM
      (captureSource libraries.unicode (parseSource libraries maxSourceBytes))) := by
    rw [succeeds_mapM]
    intro binding member
    obtain ⟨creation, isEarlier, rfl⟩ := List.mem_map.mp member
    obtain ⟨capture, isCapture, -⟩ := captured creation isEarlier
    exact ⟨capture, isCapture⟩
  obtain ⟨captures, areCaptures⟩ := succeeds
  refine ⟨captures, areCaptures, ?_, ?_⟩
  · rw [← (mapM_eq_ok.mp areCaptures).length_eq, List.length_map]
  · intro capture member
    obtain ⟨binding, isBinding, isCapture⟩ := exists_of_mapM_result areCaptures member
    obtain ⟨creation, isEarlier, rfl⟩ := List.mem_map.mp isBinding
    obtain ⟨other, isOther, named⟩ := captured creation isEarlier
    rw [isCapture] at isOther
    obtain rfl := Except.ok.inj isOther
    exact named

end Bindings

/-- Captures that share an alias make a table only when there is one of them at most. -/
theorem aliases_distinct_iff {captures : List Capture}
    (named : ∀ capture ∈ captures, name ∈ capture.aliases ∧ capture.aliases.Nodup) :
    ((captures.flatMap Capture.entries).map Prod.fst).Nodup ↔ captures.length ≤ 1 := by
  rw [List.map_flatMap]
  simp only [keys_entries]
  match captures, named with
  | [], _ => simp
  | [capture], named => simpa using (named capture (by simp)).2
  | first :: second :: rest, named =>
    refine iff_of_false ?_ (by simp)
    intro distinct
    rw [List.flatMap_cons, List.flatMap_cons, List.nodup_append] at distinct
    have shared := (named second (by simp)).1
    exact distinct.2.2 name (named first (by simp)).1 name (List.mem_append_left _ shared) rfl

/-- The primary source parses beside one older source at most, and then to what it is on its own. -/
theorem parsePrimary_superseded_iff {earlier : List SourceCreation} {last : SourceCreation} {api : CanonicalApi}
    (loads : LoadsReferencedOnly libraries.toParserLibraries) (group : Group projectId name (earlier ++ [last]))
    (distinct : ((earlier ++ [last]).map SourceCreation.versionId).Nodup)
    (located : ∀ creation ∈ earlier, (creation.sourceUrl.mapM (urlsplit libraries.unicode)).isSome = true)
    (parseable : ∀ creation ∈ earlier ++ [last], Parseable libraries projectId maxSourceBytes routing creation) :
    parsePrimary libraries projectId (superseded (boundCreation libraries.unicode) (earlier ++ [last])) routing maxSourceBytes =
      .ok api ↔ earlier.length ≤ 1 ∧ parsedAlone libraries projectId maxSourceBytes routing last = .ok api := by
  obtain ⟨document, isDocument, selfContained, alone, isAlone⟩ := parseable last (by simp)
  have parsed := isAlone
  unfold parsedAlone at parsed
  rw [isDocument] at parsed
  obtain ⟨captures, captured, sameNumber, named⟩ := captureDependencies_superseded group distinct located fun creation member => by
    obtain ⟨loaded, isLoaded, -⟩ := parseable creation (List.mem_append_left _ member)
    exact ⟨loaded, isLoaded⟩
  have isOpenApi : (boundCreation libraries.unicode true last).source.kind = .openapi := group.kind_last
  have loaded : attributed (boundCreation libraries.unicode true last).versionId "#"
      (parseSource libraries maxSourceBytes (boundCreation libraries.unicode true last)) = .ok document :=
    attributed_eq_ok.mpr isDocument
  unfold parsePrimary
  rw [primaryBinding_superseded group]
  show (attributed _ "#" (parseSource libraries maxSourceBytes (boundCreation libraries.unicode true last)) >>= _) = _ ↔ _
  rw [loaded]
  show (if _ then _ else _) = _ ↔ _
  rw [if_pos isOpenApi, bind_eq_ok]
  constructor
  · rintro ⟨external, isExternal, ran⟩
    obtain ⟨others, areOthers, rfl, apart⟩ := externalDocuments_spec isExternal
    rw [captured] at areOthers
    obtain rfl := Except.ok.inj areOthers
    have same := parseOpenApi_extends loads selfContained (captures.flatMap Capture.entries) alone parsed
    have sameApi : Except.ok alone = Except.ok api := same.symm.trans (attributed_eq_ok.mp ran)
    exact ⟨sameNumber ▸ (aliases_distinct_iff named).mp apart, isAlone.trans sameApi⟩
  · rintro ⟨few, isApi⟩
    rw [isAlone] at isApi
    obtain rfl := Except.ok.inj isApi
    have apart := (aliases_distinct_iff named).mpr (sameNumber ▸ few)
    refine ⟨_, externalDocuments_of_captures captured apart, attributed_eq_ok.mpr ?_⟩
    exact parseOpenApi_extends loads selfContained _ alone parsed

/-- The project canonicalizes, to what the given source is on its own. -/
def CanonicalizesAs (libraries : ServiceLibraries) (cache : List (CacheKey × CanonicalApi)) (store : SourceStore)
    (projectId : Uuid) (maxSourceBytes : Nat) (routing : Option ProjectRoutingConfiguration)
    (project : ProjectRoutingConfiguration) (last : SourceCreation) : Prop :=
  ∃ bindings api alone, store.latestBoundVersions libraries.unicode projectId = some bindings ∧
    canonicalize libraries cache ⟨projectId, bindings, maxSourceBytes, routing⟩ project = .ok api ∧
    parsedAlone libraries projectId maxSourceBytes (routing.getD project) last = .ok alone ∧
    api.operations = alone.operations ∧ api.servers = alone.servers ∧ api.schemas = alone.schemas ∧
    api.securitySchemes = alone.securitySchemes

section Project

variable {cache : List (CacheKey × CanonicalApi)} {before store : SourceStore} {requested : Option ProjectRoutingConfiguration}
  {project : ProjectRoutingConfiguration} {policy : SourceUrlPolicy} {versions : Uuid → Option StoredVersion}
  {earlier : List SourceCreation} {last : SourceCreation}

/-- The sources are created one after another in the empty project, and the rows of their versions are known. -/
structure Supersession (libraries : ServiceLibraries) (policy : SourceUrlPolicy) (versions : Uuid → Option StoredVersion)
    (projectId : Uuid) (name : Text) (before store : SourceStore) (creations : List SourceCreation) : Prop where
  empty : before.EmptyProject projectId
  inTurn : CreatedInTurn projectId name creations
  created : creations.foldlM (createSource policy libraries.unicode) before = .ok store
  uuids : ∀ creation ∈ creations, creation.versionId < 2 ^ 128
  rows : ∀ version ∈ store.versions, versions version.id = some ⟨version.contentSha256, version.storageKey⟩

theorem admissible_superseded {creations : List SourceCreation} (holds : Holds before store creations)
    (uuids : ∀ creation ∈ creations, creation.versionId < 2 ^ 128)
    (rows : ∀ version ∈ store.versions, versions version.id = some ⟨version.contentSha256, version.storageKey⟩)
    (mappings : ((requested.getD project).serverMappings.map Prod.fst).Nodup) :
    CanonicalizationRequest.Admissible versions
      ⟨projectId, superseded (boundCreation libraries.unicode) creations, maxSourceBytes, requested⟩ project := by
  refine ⟨fun binding member => ?_, mappings⟩
  obtain ⟨creation, isCreation, isPrimary, rfl⟩ := mem_superseded member
  have isVersion : newVersion creation ∈ store.versions := by
    rw [← Table.mem_rows, holds.versions]
    exact List.mem_append_right _ (List.mem_map_of_mem isCreation)
  exact ⟨uuids creation isCreation, rows _ isVersion⟩

theorem versionIds_distinct {creations : List SourceCreation} (holds : Holds before store creations) :
    (creations.map SourceCreation.versionId).Nodup := by
  have distinct := store.versions.unique
  rw [holds.versions, List.map_append, List.map_map] at distinct
  exact (List.nodup_append.mp distinct).2.1

/-- Canonicalization over the bound versions, whatever the cache holds. -/
theorem canonicalize_superseded_iff {api : CanonicalApi} (loads : LoadsReferencedOnly libraries.toParserLibraries)
    (collisionFree : CollisionFree libraries.digests) (sound : CacheSound libraries versions cache)
    (mappings : ((requested.getD project).serverMappings.map Prod.fst).Nodup)
    (holds : Holds before store (earlier ++ [last])) (group : Group projectId name (earlier ++ [last]))
    (uuids : ∀ creation ∈ earlier ++ [last], creation.versionId < 2 ^ 128)
    (rows : ∀ version ∈ store.versions, versions version.id = some ⟨version.contentSha256, version.storageKey⟩)
    (located : ∀ creation ∈ earlier ++ [last], (creation.sourceUrl.mapM (urlsplit libraries.unicode)).isSome = true)
    (parseable : ∀ creation ∈ earlier ++ [last], Parseable libraries projectId maxSourceBytes (requested.getD project) creation) :
    canonicalize libraries cache
        ⟨projectId, superseded (boundCreation libraries.unicode) (earlier ++ [last]), maxSourceBytes, requested⟩ project = .ok api ↔
      earlier.length ≤ 1 ∧ ∃ alone, parsedAlone libraries projectId maxSourceBytes (requested.getD project) last = .ok alone ∧
        api = bindProvenance libraries (superseded (boundCreation libraries.unicode) (earlier ++ [last])) alone := by
  have distinct := versionIds_distinct holds
  have admissible : CanonicalizationRequest.Admissible versions
      ⟨projectId, superseded (boundCreation libraries.unicode) (earlier ++ [last]), maxSourceBytes, requested⟩ project :=
    admissible_superseded holds uuids rows mappings
  have noDocumentation : ((superseded (boundCreation libraries.unicode) (earlier ++ [last])).filter isDocumentation).length ≤ 1 := by
    have none : (superseded (boundCreation libraries.unicode) (earlier ++ [last])).filter isDocumentation = [] := by
      rw [List.filter_eq_nil_iff]
      intro binding member
      obtain ⟨creation, isCreation, isPrimary, rfl⟩ := mem_superseded member
      simp [isDocumentation, boundCreation, settledSource, newSource, group.kind creation isCreation]
    rw [none]
    exact Nat.zero_le 1
  have sameIds : (superseded (boundCreation libraries.unicode) (earlier ++ [last])).map BoundSourceVersion.versionId =
      (earlier ++ [last]).map SourceCreation.versionId := by
    rw [map_superseded]
    exact superseded_of_plain _ _
  obtain ⟨key, keyed⟩ := @exists_cacheKey libraries.unicode libraries.digests
    ⟨projectId, superseded (boundCreation libraries.unicode) (earlier ++ [last]), maxSourceBytes, requested⟩ project
    (sameIds ▸ distinct)
    (fun binding member => by
      obtain ⟨creation, isCreation, isPrimary, rfl⟩ := mem_superseded member
      exact group.project creation isCreation)
    (fun binding member => by
      obtain ⟨creation, isCreation, isPrimary, rfl⟩ := mem_superseded member
      rfl)
    (fun binding member => by
      obtain ⟨creation, isCreation, isPrimary, rfl⟩ := mem_superseded member
      obtain ⟨aliases, areAliases, -⟩ := effectiveAliases_bound isPrimary (located creation isCreation)
      exact ⟨aliases, areAliases⟩)
  have parsed := fun alone => @parsePrimary_superseded_iff libraries projectId name maxSourceBytes (requested.getD project)
    earlier last alone loads group distinct (fun creation member => located creation (List.mem_append_left _ member)) parseable
  constructor
  · intro returned
    have computed := compute_of_canonicalize collisionFree sound admissible noDocumentation returned
    obtain ⟨alone, isAlone, same⟩ := bind_eq_ok.mp computed
    obtain ⟨few, isAlone⟩ := (parsed alone).mp isAlone
    exact ⟨few, alone, isAlone, (Except.ok.inj same).symm⟩
  · rintro ⟨few, alone, isAlone, rfl⟩
    refine canonicalize_of_compute collisionFree sound admissible noDocumentation keyed ?_
    exact bind_eq_ok.mpr ⟨alone, (parsed alone).mpr ⟨few, isAlone⟩, rfl⟩

/-- Sources that are created one after another under one name, each of which parses on its own, leave a project that
canonicalizes as the last of them exactly as long as there are two of them at most. -/
theorem superseded_project_canonicalizes_iff (loads : LoadsReferencedOnly libraries.toParserLibraries)
    (collisionFree : CollisionFree libraries.digests) (sound : CacheSound libraries versions cache)
    (mappings : ((requested.getD project).serverMappings.map Prod.fst).Nodup)
    (supersession : Supersession libraries policy versions projectId name before store (earlier ++ [last]))
    (parseable : ∀ creation ∈ earlier ++ [last], Parseable libraries projectId maxSourceBytes (requested.getD project) creation) :
    CanonicalizesAs libraries cache store projectId maxSourceBytes requested project last ↔ (earlier ++ [last]).length ≤ 2 := by
  obtain ⟨normalized, areNormalized, holds⟩ :=
    holds_of_created supersession.empty supersession.inTurn supersession.created
  have group := group_of_normalized supersession.inTurn (areNormalized.imp fun _ _ each => each.1)
  have origin : ∀ creation ∈ normalized, ∃ original ∈ earlier ++ [last], Normalized policy libraries.unicode original creation :=
    fun creation member => exists_of_forall₂_right areNormalized member
  have located : ∀ creation ∈ normalized, (creation.sourceUrl.mapM (urlsplit libraries.unicode)).isSome = true := by
    intro creation member
    obtain ⟨original, -, isNormalized⟩ := origin creation member
    exact isNormalized.2
  have bound := latestBoundVersions_eq supersession.empty group holds located
  have uuids : ∀ creation ∈ normalized, creation.versionId < 2 ^ 128 := by
    intro creation member
    obtain ⟨original, isOriginal, isNormalized⟩ := origin creation member
    obtain ⟨sourceUrl, rfl⟩ := normalize_eq_ok isNormalized.1
    exact supersession.uuids original isOriginal
  have stillParseable : ∀ creation ∈ normalized,
      Parseable libraries projectId maxSourceBytes (requested.getD project) creation := by
    intro creation member
    obtain ⟨original, isOriginal, isNormalized⟩ := origin creation member
    obtain ⟨sourceUrl, rfl⟩ := normalize_eq_ok isNormalized.1
    exact parseable original isOriginal
  obtain ⟨others, newest, rfl, areOthers, isNewest⟩ := forall₂_concat areNormalized
  obtain ⟨sourceUrl, rfl⟩ := normalize_eq_ok isNewest.1
  have canonical := fun api => @canonicalize_superseded_iff libraries projectId name maxSourceBytes cache before store requested
    project versions others _ api loads collisionFree sound mappings holds group uuids supersession.rows located stillParseable
  rw [List.length_append, List.length_singleton, areOthers.length_eq]
  constructor
  · rintro ⟨bindings, api, alone, areBindings, returned, -⟩
    rw [bound] at areBindings
    obtain rfl := Option.some.inj areBindings
    have few := ((canonical api).mp returned).1
    omega
  · intro few
    obtain ⟨alone, isAlone⟩ := (parseable last (by simp)).choose_spec.2.2
    refine ⟨_, _, alone, bound, (canonical _).mpr ⟨by omega, alone, isAlone, rfl⟩, isAlone, rfl, rfl, rfl, rfl⟩

end Project

end Canonicalization

/-! ### Uploads of one document -/

/-- An upload under the name of the earlier ones. -/
def itemsCreation (number : Nat) : SourceCreation where
  sourceId := number
  projectId := 7
  kind := .openapi
  name := "items"
  originType := .upload
  sourceUrl := none
  isPrimary := false
  content := {
    contentSha256 := plainSha256, mediaType := "application/json", storageKey := Text.ofNat number, byteSize := 1,
    detectedFormat := "json" }
  actorUserId := 1
  versionId := number
  now := number

def emptyStore : SourceStore :=
  ⟨[7], Table.empty, Table.empty⟩

def createItems (creations : List SourceCreation) : Except SourceServiceError SourceStore :=
  creations.foldlM (createSource ⟨false⟩ asciiUnicode) emptyStore

theorem parseable_items (number : Nat) (isNumber : number = 1 ∨ number = 2 ∨ number = 3) :
    Parseable itemsLibraries 7 1000 {} (itemsCreation number) := by
  have succeeds : (parsedAlone itemsLibraries 7 1000 {} (itemsCreation number)).isOk = true := by
    rcases isNumber with rfl | rfl | rfl <;> decide +kernel
  refine ⟨itemsDocument, rfl, ?_, exists_ok_of_isOk succeeds⟩
  intro reference member
  have none : Json.references (.object itemsDocument) = [] := by decide +kernel
  rw [none] at member
  cases member

theorem supersession_items {creations : List SourceCreation} {store : SourceStore}
    (created : createItems creations = .ok store) (inTurn : CreatedInTurn 7 "items" creations)
    (uuids : ∀ creation ∈ creations, creation.versionId < 2 ^ 128)
    (rows : (createItems creations).toOption.map (fun store => store.versions.rows.all fun version =>
      itemsVersions version.id = some ⟨version.contentSha256, version.storageKey⟩) = some true) :
    Supersession itemsLibraries ⟨false⟩ itemsVersions 7 "items" emptyStore store creations := by
  refine ⟨⟨?_, ?_⟩, inTurn, created, uuids, ?_⟩
  · intro row member
    cases member
  · intro version member
    cases member
  · intro version member
    rw [created] at rows
    have all := List.all_eq_true.mp (Option.some.inj rows) version member
    exact of_decide_eq_true all

/-- After the third upload the two older sources are dependencies of the newest under one name. -/
theorem third_upload_unbuildable :
    ∃ store, Supersession itemsLibraries ⟨false⟩ itemsVersions 7 "items" emptyStore store
        ([itemsCreation 1, itemsCreation 2] ++ [itemsCreation 3]) ∧
      (∀ creation ∈ [itemsCreation 1, itemsCreation 2] ++ [itemsCreation 3], Parseable itemsLibraries 7 1000 {} creation) ∧
      ¬ CanonicalizesAs itemsLibraries [] store 7 1000 none {} (itemsCreation 3) := by
  have succeeds : (createItems ([itemsCreation 1, itemsCreation 2] ++ [itemsCreation 3])).isOk = true := by decide +kernel
  obtain ⟨store, created⟩ := exists_ok_of_isOk succeeds
  have inTurn : CreatedInTurn 7 "items" ([itemsCreation 1, itemsCreation 2] ++ [itemsCreation 3]) :=
    ⟨by decide, by decide, by decide, by decide, by decide⟩
  refine ⟨store, supersession_items created inTurn (by decide) (by decide +kernel), ?_, ?_⟩
  · intro creation member
    simp only [List.cons_append, List.nil_append, List.mem_cons, List.not_mem_nil, or_false] at member
    rcases member with rfl | rfl | rfl
    · exact parseable_items 1 (by decide)
    · exact parseable_items 2 (by decide)
    · exact parseable_items 3 (by decide)
  · rintro ⟨bindings, api, alone, areBindings, returned, -⟩
    have refused : ((createItems ([itemsCreation 1, itemsCreation 2] ++ [itemsCreation 3])).toOption.bind fun store =>
        (store.latestBoundVersions asciiUnicode 7).map fun bindings =>
          (canonicalize itemsLibraries [] ⟨7, bindings, 1000, none⟩ {}).isOk) = some false := by
      decide +kernel
    have isBound : store.latestBoundVersions asciiUnicode 7 = some bindings := areBindings
    rw [created] at refused
    simp only [Except.toOption, Option.bind_some, isBound, Option.map_some, returned] at refused
    cases refused

theorem second_upload_canonicalizes : ∃ store, createItems [itemsCreation 1, itemsCreation 2] = .ok store ∧
    CanonicalizesAs itemsLibraries [] store 7 1000 none {} (itemsCreation 2) := by
  have succeeds : (createItems ([itemsCreation 1] ++ [itemsCreation 2])).isOk = true := by decide +kernel
  obtain ⟨store, created⟩ := exists_ok_of_isOk succeeds
  have inTurn : CreatedInTurn 7 "items" ([itemsCreation 1] ++ [itemsCreation 2]) :=
    ⟨by decide, by decide, by decide, by decide, by decide⟩
  have supersession := supersession_items created inTurn (by decide) (by decide +kernel)
  have sound : CacheSound itemsLibraries itemsVersions [] := nofun
  have mappings : (((none : Option ProjectRoutingConfiguration).getD {}).serverMappings.map Prod.fst).Nodup := List.nodup_nil
  refine ⟨store, created, (superseded_project_canonicalizes_iff ?_ ?_ sound mappings supersession ?_).mpr (by decide)⟩
  · intro _ _ _ _ _
    rfl
  · intro _ _ same
    exact same
  · intro creation member
    simp only [List.cons_append, List.nil_append, List.mem_cons, List.not_mem_nil, or_false] at member
    rcases member with rfl | rfl
    · exact parseable_items 1 (by decide)
    · exact parseable_items 2 (by decide)

end Mcplica.Sources
