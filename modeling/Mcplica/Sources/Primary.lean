import Mcplica.Sources.Lifecycle

/-! # The primary executable source

Whatever happens to the sources of a project, at most one executable source is the primary one, it has a version, and
there is one as soon as any executable source has a version. -/

namespace Mcplica.Sources

open Mcplica.Domain Mcplica.Library Mcplica.Contracts

namespace SourceStore

def isVersionedExecutable (projectId : Uuid) (row : SourceRow) : Bool :=
  row.projectId = projectId && isExecutable row.kind && row.currentVersionId.isSome

/-- At most one executable source of the project is primary, and it has a version. -/
structure AtMostOnePrimary (store : SourceStore) (projectId : Uuid) : Prop where
  unique : ∀ row ∈ store.sources, ∀ other ∈ store.sources, isPrimaryExecutableRow projectId row = true →
    isPrimaryExecutableRow projectId other = true → row.id = other.id
  versioned : ∀ row ∈ store.sources, isPrimaryExecutableRow projectId row = true → row.currentVersionId.isSome = true

/-- There is a primary source if any executable source has a version. -/
def PrimaryPresent (store : SourceStore) (projectId : Uuid) : Prop :=
  (∃ row ∈ store.sources, isVersionedExecutable projectId row = true) →
    ∃ row ∈ store.sources, isPrimaryExecutableRow projectId row = true

structure PrimarySound (store : SourceStore) (projectId : Uuid) : Prop extends AtMostOnePrimary store projectId where
  present : store.PrimaryPresent projectId

/-- The current version of a source is one of its own. -/
def Linked (store : SourceStore) : Prop :=
  ∀ row ∈ store.sources, ∀ versionId, row.currentVersionId = some versionId →
    ∃ version ∈ store.versions, version.id = versionId ∧ version.sourceId = row.id

/-- Every source has a version or was there before, of the same kind, but for those with some ids. -/
def Evolves (isNew : Uuid → Prop) (store next : SourceStore) : Prop :=
  ∀ row ∈ next.sources, isNew row.id ∨ row.currentVersionId.isSome = true ∨
    ∃ old ∈ store.sources, old.id = row.id ∧ old.kind = row.kind ∧ old.currentVersionId = none

theorem Evolves.refl (isNew : Uuid → Prop) (store : SourceStore) : store.Evolves isNew store := by
  intro row member
  cases current : row.currentVersionId with
  | none => exact .inr (.inr ⟨row, member, rfl, rfl, current⟩)
  | some _ => exact .inr (.inl rfl)

theorem Evolves.of_sources {isNew : Uuid → Prop} {store next : SourceStore} (same : next.sources = store.sources) :
    store.Evolves isNew next := by
  intro row member
  exact Evolves.refl isNew store row (same ▸ member)

theorem Evolves.trans {isNew : Uuid → Prop} {first second third : SourceStore} (left : first.Evolves isNew second)
    (right : second.Evolves isNew third) : first.Evolves isNew third := by
  intro row member
  rcases right row member with fresh | versioned | ⟨old, isOld, sameId, sameKind, unversioned⟩
  · exact .inl fresh
  · exact .inr (.inl versioned)
  · rcases left old isOld with fresh | versioned | ⟨older, isOlder, olderId, olderKind, olderUnversioned⟩
    · exact .inl (sameId ▸ fresh)
    · rw [unversioned] at versioned
      cases versioned
    · exact .inr (.inr ⟨older, isOlder, olderId.trans sameId, olderKind.trans sameKind, olderUnversioned⟩)

theorem Evolves.mono {isNew isNewer : Uuid → Prop} {store next : SourceStore} (evolves : store.Evolves isNew next)
    (implies : ∀ id, isNew id → isNewer id) : store.Evolves isNewer next :=
  fun row member => (evolves row member).imp_left (implies row.id)

/-! ## Rewritten rows -/

/-- The sources are rewritten one by one, the versions stay. -/
structure Rewrites (rewrite : SourceRow → SourceRow) (store next : SourceStore) : Prop where
  sources : ∀ {row}, row ∈ next.sources ↔ ∃ old ∈ store.sources, row = rewrite old
  versions : next.versions = store.versions

theorem rewrites_update (store : SourceStore) (where_ : SourceRow → Bool) (assign : SourceRow → SourceRow) (keeps) :
    Rewrites (fun row => if where_ row then assign row else row) store
      { store with sources := store.sources.update where_ assign keeps } :=
  ⟨fun {_} => @Table.mem_update _ _ _ _ _ _ keeps _, rfl⟩

theorem Rewrites.trans {first second : SourceRow → SourceRow} {store middle next : SourceStore}
    (left : Rewrites first store middle) (right : Rewrites second middle next) :
    Rewrites (fun row => second (first row)) store next where
  sources := by
    intro row
    rw [right.sources]
    constructor
    · rintro ⟨_, isMiddle, rfl⟩
      obtain ⟨old, isOld, rfl⟩ := left.sources.mp isMiddle
      exact ⟨old, isOld, rfl⟩
    · rintro ⟨old, isOld, rfl⟩
      exact ⟨first old, left.sources.mpr ⟨old, isOld, rfl⟩, rfl⟩
  versions := right.versions.trans left.versions

/-- What a rewrite leaves alone: who the source is, and that it has a version if it has one. -/
structure KeepsIdentity (rewrite : SourceRow → SourceRow) : Prop where
  sameId : ∀ row, (rewrite row).id = row.id
  sameProject : ∀ row, (rewrite row).projectId = row.projectId
  sameKind : ∀ row, (rewrite row).kind = row.kind
  versioned : ∀ row, row.currentVersionId.isSome = true → (rewrite row).currentVersionId.isSome = true

theorem keepsIdentity_ite (assign : SourceRow → SourceRow) (where_ : SourceRow → Bool) (keeps : KeepsIdentity assign) :
    KeepsIdentity fun row => if where_ row then assign row else row where
  sameId row := by split <;> simp [keeps.sameId]
  sameProject row := by split <;> simp [keeps.sameProject]
  sameKind row := by split <;> simp [keeps.sameKind]
  versioned row := by split <;> simp +contextual [keeps.versioned]

section

variable {store next : SourceStore} {projectId : Uuid} {rewrite : SourceRow → SourceRow}

theorem Rewrites.evolves (rewrites : Rewrites rewrite store next) (identity : KeepsIdentity rewrite)
    (isNew : Uuid → Prop) : store.Evolves isNew next := by
  intro row member
  obtain ⟨old, isOld, rfl⟩ := rewrites.sources.mp member
  cases current : old.currentVersionId with
  | none => exact .inr (.inr ⟨old, isOld, (identity.sameId old).symm, (identity.sameKind old).symm, current⟩)
  | some _ => exact .inr (.inl (identity.versioned old (by rw [current]; rfl)))

/-- The primary source stays when no row takes the role or loses it. -/
theorem Rewrites.atMostOnePrimary (rewrites : Rewrites rewrite store next) (identity : KeepsIdentity rewrite)
    (role : ∀ row ∈ store.sources, isPrimaryExecutableRow projectId (rewrite row) = isPrimaryExecutableRow projectId row)
    (sound : store.AtMostOnePrimary projectId) : next.AtMostOnePrimary projectId := by
  constructor
  · intro row isRow other isOther rowPrimary otherPrimary
    obtain ⟨oldRow, isOldRow, rfl⟩ := rewrites.sources.mp isRow
    obtain ⟨oldOther, isOldOther, rfl⟩ := rewrites.sources.mp isOther
    rw [identity.sameId oldRow, identity.sameId oldOther]
    exact sound.unique oldRow isOldRow oldOther isOldOther (role oldRow isOldRow ▸ rowPrimary)
      (role oldOther isOldOther ▸ otherPrimary)
  · intro row isRow rowPrimary
    obtain ⟨oldRow, isOldRow, rfl⟩ := rewrites.sources.mp isRow
    exact identity.versioned oldRow (sound.versioned oldRow isOldRow (role oldRow isOldRow ▸ rowPrimary))

/-- Nothing changes for a project none of whose executable sources gets its first version. -/
theorem Rewrites.primarySound (rewrites : Rewrites rewrite store next) (identity : KeepsIdentity rewrite)
    (role : ∀ row ∈ store.sources, isPrimaryExecutableRow projectId (rewrite row) = isPrimaryExecutableRow projectId row)
    (noFirst : ∀ row ∈ store.sources, isVersionedExecutable projectId (rewrite row) = true →
      isVersionedExecutable projectId row = true)
    (sound : store.PrimarySound projectId) : next.PrimarySound projectId := by
  refine ⟨rewrites.atMostOnePrimary identity role sound.toAtMostOnePrimary, ?_⟩
  rintro ⟨row, member, versioned⟩
  obtain ⟨old, isOld, rfl⟩ := rewrites.sources.mp member
  obtain ⟨primary, isPrimary, holds⟩ := sound.present ⟨old, isOld, noFirst old isOld versioned⟩
  exact ⟨rewrite primary, rewrites.sources.mpr ⟨primary, isPrimary, rfl⟩, (role primary isPrimary).trans holds⟩

theorem Rewrites.linked (rewrites : Rewrites rewrite store next) (identity : KeepsIdentity rewrite)
    (current : ∀ row, (rewrite row).currentVersionId = row.currentVersionId) (linked : store.Linked) : next.Linked := by
  intro row member id selected
  obtain ⟨old, isOld, rfl⟩ := rewrites.sources.mp member
  rw [identity.sameId old, rewrites.versions]
  exact linked old isOld id (current old ▸ selected)

/-! ## Promotion -/

/-- A promotion takes the role from every other executable source of the project. -/
def promoted (projectId sourceId : Uuid) (row : SourceRow) : SourceRow :=
  if row.id = sourceId then setPrimary true row
  else if isPrimaryExecutableRow projectId row then setPrimary false row
  else row

theorem keepsIdentity_promoted (projectId sourceId : Uuid) : KeepsIdentity (promoted projectId sourceId) := by
  constructor <;> intro row <;> unfold promoted <;> split_ifs <;> simp [setPrimary]

theorem promoted_currentVersionId (projectId sourceId : Uuid) (row : SourceRow) :
    (promoted projectId sourceId row).currentVersionId = row.currentVersionId := by
  unfold promoted
  split_ifs <;> rfl

/-- A promotion succeeds for a versioned executable source of the project only. -/
theorem promoteExecutable_eq_some {sourceId : Uuid} (ran : store.promoteExecutable projectId sourceId = some next) :
    Rewrites (promoted projectId sourceId) store next ∧
      ∃ target ∈ store.sources, target.id = sourceId ∧ isVersionedExecutable projectId target = true := by
  unfold promoteExecutable at ran
  rw [Option.bind_eq_bind, Option.bind_eq_some_iff] at ran
  obtain ⟨target, found, ran⟩ := ran
  obtain ⟨isTarget, sameId⟩ := Table.get?_eq_some.mp found
  split at ran
  · rename_i allowed
    cases ran
    refine ⟨?_, target, isTarget, sameId, allowed⟩
    have twice := (rewrites_update store (fun row => isPrimaryExecutableRow projectId row && row.id ≠ sourceId)
      (setPrimary false) (fun _ => rfl)).trans (rewrites_update _ (·.id = sourceId) (setPrimary true) (fun _ => rfl))
    have isPromoted : promoted projectId sourceId = fun row =>
        let cleared := if isPrimaryExecutableRow projectId row && row.id ≠ sourceId then setPrimary false row else row
        if decide (cleared.id = sourceId) then setPrimary true cleared else cleared := by
      funext row
      unfold promoted
      by_cases isSource : row.id = sourceId <;> by_cases isPrimary : isPrimaryExecutableRow projectId row = true <;>
        simp [isSource, isPrimary, setPrimary]
    rw [isPromoted]
    exact twice
  · cases ran

/-- A promotion settles the project it is made in, whatever was the case before. -/
theorem primarySound_of_promoteExecutable {sourceId : Uuid}
    (ran : store.promoteExecutable projectId sourceId = some next) : next.PrimarySound projectId := by
  obtain ⟨rewrites, target, isTarget, isSource, allowed⟩ := promoteExecutable_eq_some ran
  have identity := keepsIdentity_promoted projectId sourceId
  have onlySource : ∀ row, isPrimaryExecutableRow projectId (promoted projectId sourceId row) = true → row.id = sourceId := by
    intro row isPrimary
    by_contra other
    unfold promoted at isPrimary
    rw [if_neg other] at isPrimary
    split at isPrimary
    · simp [isPrimaryExecutableRow, setPrimary] at isPrimary
    · contradiction
  simp only [isVersionedExecutable, Bool.and_eq_true, decide_eq_true_eq] at allowed
  refine ⟨⟨?_, ?_⟩, ?_⟩
  · intro row isRow other isOther rowPrimary otherPrimary
    obtain ⟨oldRow, _, rfl⟩ := rewrites.sources.mp isRow
    obtain ⟨oldOther, _, rfl⟩ := rewrites.sources.mp isOther
    rw [identity.sameId, identity.sameId, onlySource oldRow rowPrimary, onlySource oldOther otherPrimary]
  · intro row isRow rowPrimary
    obtain ⟨oldRow, isOldRow, rfl⟩ := rewrites.sources.mp isRow
    have same : oldRow = target := Table.eq_of_key isOldRow isTarget ((onlySource oldRow rowPrimary).trans isSource.symm)
    exact identity.versioned oldRow (same ▸ allowed.2)
  · intro _
    refine ⟨promoted projectId sourceId target, rewrites.sources.mpr ⟨target, isTarget, rfl⟩, ?_⟩
    simp [promoted, isSource, isPrimaryExecutableRow, setPrimary, allowed]

/-- The sources of the other projects are left alone. -/
theorem primarySound_promoteExecutable_of_ne {otherProject sourceId : Uuid} (elsewhere : otherProject ≠ projectId)
    (ran : store.promoteExecutable projectId sourceId = some next) (sound : store.PrimarySound otherProject) :
    next.PrimarySound otherProject := by
  obtain ⟨rewrites, target, isTarget, isSource, allowed⟩ := promoteExecutable_eq_some ran
  have identity := keepsIdentity_promoted projectId sourceId
  simp only [isVersionedExecutable, Bool.and_eq_true, decide_eq_true_eq] at allowed
  -- A row that is rewritten belongs to the project of the promotion.
  have kept : ∀ row ∈ store.sources, row.projectId = otherProject → promoted projectId sourceId row = row := by
    intro row isRow inOther
    have notSource : row.id ≠ sourceId := by
      intro same
      have isSame : row = target := Table.eq_of_key isRow isTarget (same.trans isSource.symm)
      exact elsewhere (inOther.symm.trans (isSame ▸ allowed.1.1))
    have notPrimary : isPrimaryExecutableRow projectId row = false := by
      have notProject : row.projectId ≠ projectId := fun same => elsewhere (inOther.symm.trans same)
      simp [isPrimaryExecutableRow, notProject]
    simp [promoted, notSource, notPrimary]
  refine rewrites.primarySound identity ?_ ?_ sound
  · intro row isRow
    by_cases inOther : row.projectId = otherProject
    · rw [kept row isRow inOther]
    · simp [isPrimaryExecutableRow, identity.sameProject, inOther]
  · intro row isRow versioned
    simpa only [isVersionedExecutable, identity.sameProject, identity.sameKind, promoted_currentVersionId] using versioned

theorem linked_promoteExecutable {sourceId : Uuid} (ran : store.promoteExecutable projectId sourceId = some next)
    (linked : store.Linked) : next.Linked :=
  (promoteExecutable_eq_some ran).1.linked (keepsIdentity_promoted projectId sourceId)
    (promoted_currentVersionId projectId sourceId) linked

/-! ## Insertion and selection -/

variable {creation : SourceCreation}

/-- A new source is neither primary nor versioned. -/
theorem primarySound_insert {sources : Table SourceRow} (inserted : store.sources.insert (newSource creation) = some sources)
    (sound : store.PrimarySound projectId) : PrimarySound { store with sources } projectId := by
  have old : ∀ row ∈ sources, isPrimaryExecutableRow projectId row = true ∨ isVersionedExecutable projectId row = true →
      row ∈ store.sources := by
    intro row member role
    rcases (Table.mem_insert inserted).mp member with isOld | rfl
    · exact isOld
    · simp [isPrimaryExecutableRow, isVersionedExecutable, newSource] at role
  refine ⟨⟨?_, ?_⟩, ?_⟩
  · intro row isRow other isOther rowPrimary otherPrimary
    exact sound.unique row (old row isRow (.inl rowPrimary)) other (old other isOther (.inl otherPrimary)) rowPrimary
      otherPrimary
  · intro row isRow rowPrimary
    exact sound.versioned row (old row isRow (.inl rowPrimary)) rowPrimary
  · rintro ⟨row, isRow, versioned⟩
    obtain ⟨primary, isPrimary, holds⟩ := sound.present ⟨row, old row isRow (.inr versioned), versioned⟩
    exact ⟨primary, (Table.mem_insert inserted).mpr (.inl isPrimary), holds⟩

theorem linked_insert {sources : Table SourceRow} (inserted : store.sources.insert (newSource creation) = some sources)
    (linked : store.Linked) : Linked { store with sources } := by
  intro row member id selected
  rcases (Table.mem_insert inserted).mp member with isOld | rfl
  · exact linked row isOld id selected
  · cases selected

theorem evolves_insert {sources : Table SourceRow} (inserted : store.sources.insert (newSource creation) = some sources) :
    store.Evolves (· = creation.sourceId) { store with sources } := by
  intro row member
  rcases (Table.mem_insert inserted).mp member with isOld | rfl
  · exact Evolves.refl (· = creation.sourceId) store row isOld
  · exact .inl rfl

/-- The version is one of the source, whether it was there or not. -/
theorem persistVersion_spec {version : VersionRow} {deduplicated : Bool}
    (ran : store.persistVersion creation = .ok (next, version, deduplicated)) :
    next.sources = store.sources ∧ version ∈ next.versions ∧ version.sourceId = creation.sourceId ∧
      ∀ other ∈ store.versions, other ∈ next.versions := by
  unfold persistVersion at ran
  split at ran
  · rename_i found
    cases ran
    have matching := List.find?_some found
    simp only [Bool.and_eq_true, decide_eq_true_eq] at matching
    exact ⟨rfl, List.mem_of_find?_eq_some found, matching.1, fun _ member => member⟩
  · simp only [bind_eq_ok, obtain?_eq_ok] at ran
    obtain ⟨versions, inserted, same⟩ := ran
    cases same
    exact ⟨rfl, (Table.mem_insert inserted).mpr (.inr rfl), rfl, fun _ member => (Table.mem_insert inserted).mpr (.inl member)⟩

/-- The primary source is a matter of the sources alone. -/
theorem primarySound_of_sources (same : next.sources = store.sources) (sound : store.PrimarySound projectId) :
    next.PrimarySound projectId := by
  refine ⟨⟨?_, ?_⟩, ?_⟩
  · rw [same]
    exact sound.unique
  · rw [same]
    exact sound.versioned
  · unfold PrimaryPresent
    rw [same]
    exact sound.present

theorem linked_of_sources (same : next.sources = store.sources) (kept : ∀ version ∈ store.versions, version ∈ next.versions)
    (linked : store.Linked) : next.Linked := by
  intro row member id selected
  obtain ⟨version, isVersion, isSelected⟩ := linked row (same ▸ member) id selected
  exact ⟨version, kept version isVersion, isSelected⟩

section Selection

variable {sourceId versionId : Uuid} {content : StoredContent} {now : Instant}

def selected (sourceId versionId : Uuid) (content : StoredContent) (now : Instant) (row : SourceRow) : SourceRow :=
  if row.id = sourceId then
    { row with
      currentVersionId := some versionId
      currentVersionSelectedAt := some now
      lastObservedAt := some now
      lastObservedEtag := content.sourceEtag
      lastObservedLastModified := content.sourceLastModified }
  else row

theorem rewrites_selectCurrentVersion : Rewrites (selected sourceId versionId content now) store
    (store.selectCurrentVersion sourceId versionId content now) := by
  constructor
  · intro row
    simp [selectCurrentVersion, Table.mem_update, selected]
  · rfl

theorem keepsIdentity_selected : KeepsIdentity (selected sourceId versionId content now) := by
  constructor <;> intro row <;> unfold selected <;> split <;> simp

theorem selected_isPrimaryExecutableRow (row : SourceRow) :
    isPrimaryExecutableRow projectId (selected sourceId versionId content now row) =
      isPrimaryExecutableRow projectId row := by
  unfold selected
  split <;> rfl

theorem atMostOnePrimary_selectCurrentVersion (sound : store.AtMostOnePrimary projectId) :
    (store.selectCurrentVersion sourceId versionId content now).AtMostOnePrimary projectId :=
  rewrites_selectCurrentVersion.atMostOnePrimary keepsIdentity_selected (fun row _ => selected_isPrimaryExecutableRow row)
    sound

/-- A selection settles the project unless the source is an executable one of it without a version. -/
theorem primarySound_selectCurrentVersion (sound : store.PrimarySound projectId)
    (noFirst : ∀ row ∈ store.sources, row.id = sourceId → row.projectId = projectId → isExecutable row.kind = true →
      row.currentVersionId.isSome = true) :
    (store.selectCurrentVersion sourceId versionId content now).PrimarySound projectId := by
  refine rewrites_selectCurrentVersion.primarySound keepsIdentity_selected
    (fun row _ => selected_isPrimaryExecutableRow row) ?_ sound
  intro row member versioned
  unfold selected at versioned
  split at versioned
  · rename_i isSource
    simp only [isVersionedExecutable, Bool.and_eq_true, decide_eq_true_eq] at versioned ⊢
    exact ⟨versioned.1, noFirst row member isSource versioned.1.1 versioned.1.2⟩
  · exact versioned

theorem linked_selectCurrentVersion (linked : store.Linked)
    (own : ∃ version ∈ store.versions, version.id = versionId ∧ version.sourceId = sourceId) :
    (store.selectCurrentVersion sourceId versionId content now).Linked := by
  intro row member id isCurrent
  obtain ⟨old, isOld, rfl⟩ := rewrites_selectCurrentVersion.sources.mp member
  rw [keepsIdentity_selected.sameId old]
  unfold selected at isCurrent
  split at isCurrent
  · rename_i isSource
    cases isCurrent
    exact isSource ▸ own
  · exact linked old isOld id isCurrent

end Selection

/-! ## Promotion where it is due -/

theorem promote_eq_ok {inheritsPrimary : Bool} (ran : store.promote creation inheritsPrimary = .ok next) :
    store.promoteExecutable creation.projectId creation.sourceId = some next ∨
      next = store ∧ (isExecutable creation.kind = false ∨
        ∃ row ∈ store.sources, isPrimaryExecutableRow creation.projectId row = true) := by
  unfold promote at ran
  split at ran
  · exact .inl (obtain?_eq_ok.mp ran)
  · rename_i notDue
    cases ran
    refine .inr ⟨rfl, ?_⟩
    cases executable : isExecutable creation.kind with
    | false => exact .inl rfl
    | true =>
      right
      cases found : store.versionedPrimaryExecutable creation.projectId with
      | none => simp [executable, found] at notDue
      | some row =>
        have matching := List.find?_some found
        rw [Bool.and_eq_true] at matching
        exact ⟨row, List.mem_of_find?_eq_some found, matching.1⟩

/-- After the promotion every project is settled, if those were that it does not settle itself. -/
theorem primarySound_promote {inheritsPrimary : Bool} (ran : store.promote creation inheritsPrimary = .ok next)
    (atMost : store.AtMostOnePrimary creation.projectId)
    (elsewhere : ∀ other, other ≠ creation.projectId → store.PrimarySound other)
    (notExecutable : isExecutable creation.kind = false → store.PrimarySound creation.projectId) :
    next.PrimarySound projectId := by
  by_cases here : projectId = creation.projectId
  · subst here
    rcases promote_eq_ok ran with promotion | ⟨rfl, documentation | present⟩
    · exact primarySound_of_promoteExecutable promotion
    · exact notExecutable documentation
    · exact ⟨atMost, fun _ => present⟩
  · rcases promote_eq_ok ran with promotion | ⟨rfl, _⟩
    · exact primarySound_promoteExecutable_of_ne here promotion (elsewhere projectId here)
    · exact elsewhere projectId here

theorem linked_promote {inheritsPrimary : Bool} (ran : store.promote creation inheritsPrimary = .ok next)
    (linked : store.Linked) : next.Linked := by
  rcases promote_eq_ok ran with promotion | ⟨rfl, _⟩
  · exact linked_promoteExecutable promotion linked
  · exact linked

theorem evolves_promote {inheritsPrimary : Bool} (ran : store.promote creation inheritsPrimary = .ok next)
    (isNew : Uuid → Prop) : store.Evolves isNew next := by
  rcases promote_eq_ok ran with promotion | ⟨rfl, _⟩
  · exact (promoteExecutable_eq_some promotion).1.evolves (keepsIdentity_promoted _ _) isNew
  · exact Evolves.refl isNew _

/-! ## Transactions -/

/-- What holds of the rows after every transaction. -/
structure Invariant (store : SourceStore) : Prop where
  sound : ∀ projectId, store.PrimarySound projectId
  linked : store.Linked

theorem Invariant.of_sources (invariant : store.Invariant) (same : next.sources = store.sources)
    (kept : ∀ version ∈ store.versions, version ∈ next.versions) : next.Invariant :=
  ⟨fun projectId => primarySound_of_sources same (invariant.sound projectId), linked_of_sources same kept invariant.linked⟩

/-- Every source of the id of the creation has the project of the creation, and its kind or a version. -/
def Identifies (creation : SourceCreation) (store : SourceStore) : Prop :=
  ∀ row ∈ store.sources, row.id = creation.sourceId → row.projectId = creation.projectId ∧
    (row.kind = creation.kind ∨ row.currentVersionId.isSome = true)

section Persisting

variable {version : VersionRow} {content : StoredContent} {now : Instant} {inheritsPrimary deduplicated : Bool}

/-- The last two statements of every transaction that adds a version. -/
theorem invariant_select_promote (invariant : store.Invariant) (identifies : store.Identifies creation)
    (isVersion : version ∈ store.versions) (own : version.sourceId = creation.sourceId)
    (ran : (store.selectCurrentVersion creation.sourceId version.id content now).promote creation inheritsPrimary =
      .ok next) : next.Invariant := by
  have atMost : (store.selectCurrentVersion creation.sourceId version.id content now).AtMostOnePrimary creation.projectId :=
    atMostOnePrimary_selectCurrentVersion (invariant.sound creation.projectId).toAtMostOnePrimary
  refine ⟨fun projectId => primarySound_promote ran atMost ?_ ?_, ?_⟩
  · intro other elsewhere
    refine primarySound_selectCurrentVersion (invariant.sound other) ?_
    intro row member isSource inOther _
    exact absurd (inOther.symm.trans (identifies row member isSource).1) elsewhere
  · intro documentation
    refine primarySound_selectCurrentVersion (invariant.sound creation.projectId) ?_
    intro row member isSource _ executable
    rcases (identifies row member isSource).2 with sameKind | versioned
    · rw [sameKind, documentation] at executable
      cases executable
    · exact versioned
  · exact linked_promote ran (linked_selectCurrentVersion invariant.linked ⟨version, isVersion, rfl, own⟩)

/-- The source has a version in the end, and the others are as they were. -/
theorem evolves_select_promote
    (ran : (store.selectCurrentVersion creation.sourceId version.id content now).promote creation inheritsPrimary =
      .ok next) : store.Evolves (fun _ => False) next ∧
      ∀ row ∈ next.sources, row.id = creation.sourceId → row.currentVersionId.isSome = true := by
  have promotion := evolves_promote ran
  refine ⟨(rewrites_selectCurrentVersion.evolves keepsIdentity_selected _).trans (promotion _), ?_⟩
  intro row member isSource
  rcases promotion (fun _ => False) row member with absurdity | versioned | ⟨old, isOld, sameId, -, unversioned⟩
  · exact absurdity.elim
  · exact versioned
  · obtain ⟨older, _, rfl⟩ := rewrites_selectCurrentVersion.sources.mp isOld
    rw [keepsIdentity_selected.sameId older] at sameId
    simp [selected, sameId.trans isSource] at unversioned

theorem persistSource_spec (invariant : store.Invariant)
    (ran : store.persistSource creation = .ok (next, inheritsPrimary)) :
    next.Invariant ∧ store.Evolves (· = creation.sourceId) next ∧ next.Identifies creation := by
  unfold persistSource at ran
  split at ran
  · rename_i absent
    simp only [bind_eq_ok, obtain?_eq_ok] at ran
    obtain ⟨sources, inserted, same⟩ := ran
    cases same
    refine ⟨⟨fun projectId => primarySound_insert inserted (invariant.sound projectId),
      linked_insert inserted invariant.linked⟩, evolves_insert inserted, ?_⟩
    intro row member isSource
    rcases (Table.mem_insert inserted).mp member with isOld | rfl
    · exact absurd isSource (Table.get?_eq_none.mp absent row isOld)
    · exact ⟨rfl, .inl rfl⟩
  · rename_i found
    simp only [bind_eq_ok, ensure_eq_ok] at ran
    obtain ⟨_, same, isStore⟩ := ran
    cases isStore
    refine ⟨invariant, Evolves.refl (· = creation.sourceId) store, ?_⟩
    intro row member isSource
    obtain ⟨isFound, foundId⟩ := Table.get?_eq_some.mp found
    have isRow := Table.eq_of_key member isFound (isSource.trans foundId.symm)
    simp only [sameIdentity, Bool.and_eq_true, decide_eq_true_eq] at same
    exact ⟨isRow ▸ same.1.1.1.1, .inl (isRow ▸ same.1.1.1.2)⟩

theorem persistCreatedSource_spec (invariant : store.Invariant) (ran : store.persistCreatedSource creation = .ok next) :
    next.Invariant ∧ store.Evolves (fun _ => False) next := by
  unfold persistCreatedSource at ran
  simp only [bind_eq_ok] at ran
  obtain ⟨_, _, ⟨created, inheritsPrimary⟩, persisted, ⟨versioned, version, deduplicated⟩, added, promoted⟩ := ran
  obtain ⟨createdInvariant, createdEvolves, identifies⟩ := persistSource_spec invariant persisted
  obtain ⟨same, isVersion, own, kept⟩ := persistVersion_spec added
  have identified : versioned.Identifies creation := by
    unfold Identifies
    rw [same]
    exact identifies
  obtain ⟨lastEvolves, hasVersion⟩ := evolves_select_promote promoted
  refine ⟨invariant_select_promote (createdInvariant.of_sources same kept) identified isVersion own promoted, ?_⟩
  intro row member
  rcases lastEvolves row member with absurdity | isVersioned | ⟨old, isOld, sameId, sameKind, unversioned⟩
  · exact absurdity.elim
  · exact .inr (.inl isVersioned)
  · rcases createdEvolves old (same ▸ isOld) with isSource | isVersioned | ⟨older, isOlder, olderId, olderKind, wasUnversioned⟩
    · exact .inr (.inl (hasVersion row member (sameId ▸ isSource)))
    · rw [unversioned] at isVersioned
      cases isVersioned
    · exact .inr (.inr ⟨older, isOlder, olderId.trans sameId, olderKind.trans sameKind, wasUnversioned⟩)

end Persisting

theorem createBare_spec {policy : SourceUrlPolicy} {unicode : Unicode} (invariant : store.Invariant)
    (ran : store.createBare policy unicode creation = .ok next) :
    next.Invariant ∧ store.Evolves (· = creation.sourceId) next := by
  unfold createBare at ran
  simp only [bind_eq_ok, obtain?_eq_ok] at ran
  obtain ⟨normalized, isNormalized, _, _, _, _, sources, inserted, same⟩ := ran
  cases same
  have sameId : normalized.sourceId = creation.sourceId := by
    unfold SourceCreation.normalize at isNormalized
    simp only [bind_eq_ok] at isNormalized
    obtain ⟨_, _, _, _, _, _, isResult⟩ := isNormalized
    cases isResult
    rfl
  exact ⟨⟨fun projectId => primarySound_insert inserted (invariant.sound projectId),
    linked_insert inserted invariant.linked⟩, sameId ▸ evolves_insert inserted⟩

theorem lockSource_spec {sourceId : Uuid} {row : SourceRow} (locked : store.lockSource projectId sourceId = .ok row) :
    row ∈ store.sources ∧ row.id = sourceId ∧ row.projectId = projectId := by
  unfold lockSource at locked
  simp only [bind_eq_ok, obtain?_eq_ok, ensure_eq_ok, decide_eq_true_eq] at locked
  obtain ⟨_, _, found, isFound, _, inProject, same⟩ := locked
  cases same
  obtain ⟨member, sameId⟩ := Table.get?_eq_some.mp isFound
  exact ⟨member, sameId, inProject⟩

theorem addVersion_spec {addition : VersionAddition} (invariant : store.Invariant)
    (known : ∀ row ∈ store.sources, row.id = addition.source.id →
      row.kind = addition.source.kind ∨ row.currentVersionId.isSome = true)
    (ran : store.addVersion addition = .ok next) : next.Invariant ∧ store.Evolves (fun _ => False) next := by
  unfold addVersion at ran
  simp only [bind_eq_ok] at ran
  obtain ⟨locked, isLocked, ⟨versioned, version, deduplicated⟩, added, promoted⟩ := ran
  obtain ⟨isRow, sameId, inProject⟩ := lockSource_spec isLocked
  obtain ⟨same, isVersion, own, kept⟩ := persistVersion_spec added
  have identified : versioned.Identifies addition.creation := by
    intro row member isSource
    rw [same] at member
    have isSame : row = locked := Table.eq_of_key member isRow (isSource.trans sameId.symm)
    exact ⟨isSame ▸ inProject, known row member isSource⟩
  exact ⟨invariant_select_promote (invariant.of_sources same kept) identified isVersion own promoted,
    (Evolves.of_sources same).trans (evolves_select_promote promoted).1⟩

/-- A change of a row that is neither the role nor the version. -/
theorem invariant_rewrite (invariant : store.Invariant) {rewrite : SourceRow → SourceRow}
    (rewrites : Rewrites rewrite store next) (identity : KeepsIdentity rewrite)
    (role : ∀ row, (rewrite row).isPrimary = row.isPrimary)
    (current : ∀ row, (rewrite row).currentVersionId = row.currentVersionId) : next.Invariant := by
  refine ⟨fun projectId => rewrites.primarySound identity ?_ ?_ (invariant.sound projectId),
    rewrites.linked identity current invariant.linked⟩
  · intro row _
    simp only [isPrimaryExecutableRow, identity.sameProject, identity.sameKind, role]
  · intro row _ versioned
    simpa only [isVersionedExecutable, identity.sameProject, identity.sameKind, current] using versioned

theorem observeNotModified_spec {sourceId expectedVersionId : Uuid} {etag lastModified : Option Text} {now : Instant}
    (invariant : store.Invariant)
    (ran : store.observeNotModified sourceId expectedVersionId etag lastModified now = .ok next) :
    next.Invariant ∧ store.Evolves (fun _ => False) next := by
  unfold observeNotModified at ran
  simp only [bind_eq_ok] at ran
  obtain ⟨_, _, _, _, _, _, same⟩ := ran
  cases same
  have rewrites := rewrites_update store
    (fun row => decide (row.id = sourceId) && decide (row.currentVersionId = some expectedVersionId))
    (fun row => { row with lastObservedAt := some now, lastObservedEtag := etag, lastObservedLastModified := lastModified })
    (fun _ => rfl)
  have identity := keepsIdentity_ite (fun row : SourceRow =>
    { row with lastObservedAt := some now, lastObservedEtag := etag, lastObservedLastModified := lastModified })
    (fun row => decide (row.id = sourceId) && decide (row.currentVersionId = some expectedVersionId))
    ⟨fun _ => rfl, fun _ => rfl, fun _ => rfl, fun _ versioned => versioned⟩
  refine ⟨invariant_rewrite invariant rewrites identity ?_ ?_, rewrites.evolves identity _⟩
  · intro row
    split <;> rfl
  · intro row
    split <;> rfl

theorem rename_spec (sourceId : Uuid) (name : Text) (invariant : store.Invariant) :
    (store.rename sourceId name).Invariant ∧ store.Evolves (fun _ => False) (store.rename sourceId name) := by
  have rewrites := rewrites_update store (·.id = sourceId) (fun row => { row with name }) (fun _ => rfl)
  have identity := keepsIdentity_ite (fun row : SourceRow => { row with name }) (·.id = sourceId)
    ⟨fun _ => rfl, fun _ => rfl, fun _ => rfl, fun _ versioned => versioned⟩
  refine ⟨invariant_rewrite invariant rewrites identity ?_ ?_, rewrites.evolves identity _⟩
  · intro row
    split <;> rfl
  · intro row
    split <;> rfl

theorem promoteExecutable_spec {sourceId : Uuid} (invariant : store.Invariant)
    (ran : store.promoteExecutable projectId sourceId = some next) :
    next.Invariant ∧ store.Evolves (fun _ => False) next := by
  refine ⟨⟨?_, linked_promoteExecutable ran invariant.linked⟩,
    (promoteExecutable_eq_some ran).1.evolves (keepsIdentity_promoted _ _) _⟩
  intro other
  by_cases here : other = projectId
  · exact here ▸ primarySound_of_promoteExecutable ran
  · exact primarySound_promoteExecutable_of_ne here ran (invariant.sound other)

theorem update_spec {change : SourceUpdate} (invariant : store.Invariant) (ran : store.update change = .ok next) :
    next.Invariant ∧ store.Evolves (fun _ => False) next := by
  unfold SourceStore.update at ran
  simp only [bind_eq_ok] at ran
  obtain ⟨_, _, named, isNamed, _, _, ran⟩ := ran
  have renamed : named.Invariant ∧ store.Evolves (fun _ => False) named := by
    cases isName : change.name with
    | none =>
      rw [isName] at isNamed
      cases isNamed
      exact ⟨invariant, Evolves.refl _ store⟩
    | some name =>
      rw [isName] at isNamed
      simp only [Option.elim_some, renameTo, bind_eq_ok] at isNamed
      obtain ⟨_, _, same⟩ := isNamed
      cases same
      exact rename_spec change.sourceId _ invariant
  split at ran
  · obtain ⟨promotedInvariant, evolved⟩ := promoteExecutable_spec renamed.1 (obtain?_eq_ok.mp ran)
    exact ⟨promotedInvariant, renamed.2.trans evolved⟩
  · cases ran
    exact renamed

/-! ## Deletion -/

theorem mem_deleteSource {sourceId : Uuid} {row : SourceRow} :
    row ∈ (store.deleteSource sourceId).sources ↔ row ∈ store.sources ∧ row.id ≠ sourceId := by
  simp [deleteSource, Table.mem_delete]

theorem atMostOnePrimary_deleteSource (sourceId : Uuid) (sound : store.AtMostOnePrimary projectId) :
    (store.deleteSource sourceId).AtMostOnePrimary projectId where
  unique row isRow other isOther :=
    sound.unique row (mem_deleteSource.mp isRow).1 other (mem_deleteSource.mp isOther).1
  versioned row isRow := sound.versioned row (mem_deleteSource.mp isRow).1

/-- Only the deletion of the primary source leaves a project without one. -/
theorem primarySound_deleteSource {sourceId : Uuid} (sound : store.PrimarySound projectId)
    (notPrimary : ∀ row ∈ store.sources, row.id = sourceId → isPrimaryExecutableRow projectId row = false) :
    (store.deleteSource sourceId).PrimarySound projectId := by
  refine ⟨atMostOnePrimary_deleteSource sourceId sound.toAtMostOnePrimary, ?_⟩
  rintro ⟨row, member, versioned⟩
  obtain ⟨primary, isPrimary, holds⟩ := sound.present ⟨row, (mem_deleteSource.mp member).1, versioned⟩
  refine ⟨primary, mem_deleteSource.mpr ⟨isPrimary, ?_⟩, holds⟩
  intro isSource
  rw [notPrimary primary isPrimary isSource] at holds
  cases holds

theorem linked_deleteSource (sourceId : Uuid) (linked : store.Linked) : (store.deleteSource sourceId).Linked := by
  intro row member id selected
  obtain ⟨isRow, other⟩ := mem_deleteSource.mp member
  obtain ⟨version, isVersion, isSelected, own⟩ := linked row isRow id selected
  refine ⟨version, ?_, isSelected, own⟩
  simp [deleteSource, Table.mem_delete, isVersion, own, other]

theorem evolves_deleteSource (sourceId : Uuid) (isNew : Uuid → Prop) :
    store.Evolves isNew (store.deleteSource sourceId) := by
  intro row member
  exact Evolves.refl isNew store row (mem_deleteSource.mp member).1

/-- The query finds a versioned executable source whenever there is another one. -/
theorem exists_of_firstVersionedExecutable {excluded : Uuid} {row : SourceRow} (member : row ∈ store.sources)
    (versioned : isVersionedExecutable projectId row = true) (other : row.id ≠ excluded) :
    (store.firstVersionedExecutable projectId excluded).isSome = true := by
  refine Table.head_select_isSome member ?_
  simpa [isVersionedExecutable, other] using versioned

/-- A primary source without a replacement was the last versioned executable one of the project. -/
theorem primarySound_of_no_replacement {row : SourceRow} (sound : store.AtMostOnePrimary row.projectId)
    (isPrimary : row.isPrimary = true) (alone : store.replacement row = none) :
    (store.deleteSource row.id).PrimarySound row.projectId := by
  refine ⟨atMostOnePrimary_deleteSource row.id sound, ?_⟩
  rintro ⟨other, member, versioned⟩
  obtain ⟨isOther, different⟩ := mem_deleteSource.mp member
  have found := exists_of_firstVersionedExecutable isOther versioned different
  unfold replacement at alone
  rw [if_pos isPrimary, Option.or_eq_none_iff] at alone
  rw [alone.2] at found
  cases found

theorem delete_spec {sourceId : Uuid} {referenced : Bool} (invariant : store.Invariant)
    (ran : store.delete projectId sourceId referenced = .ok next) :
    next.Invariant ∧ store.Evolves (fun _ => False) next := by
  unfold SourceStore.delete at ran
  simp only [bind_eq_ok] at ran
  obtain ⟨row, isLocked, _, _, ran⟩ := ran
  obtain ⟨isRow, rfl, rfl⟩ := lockSource_spec isLocked
  have linked := linked_deleteSource row.id invariant.linked
  have evolved : store.Evolves (fun _ => False) (store.deleteSource row.id) := evolves_deleteSource row.id _
  -- The source is no primary one of another project.
  have elsewhere : ∀ other, other ≠ row.projectId → (store.deleteSource row.id).PrimarySound other := by
    intro other different
    refine primarySound_deleteSource (invariant.sound other) ?_
    intro found isFound sameId
    have same : found = row := Table.eq_of_key isFound isRow sameId
    simp [isPrimaryExecutableRow, same, Ne.symm different]
  split at ran
  · rename_i alone
    cases ran
    refine ⟨⟨?_, linked⟩, evolved⟩
    intro other
    by_cases here : other = row.projectId
    · subst here
      cases isPrimary : row.isPrimary with
      | true => exact primarySound_of_no_replacement (invariant.sound _).toAtMostOnePrimary isPrimary alone
      | false =>
        refine primarySound_deleteSource (invariant.sound _) ?_
        intro found isFound sameId
        have same : found = row := Table.eq_of_key isFound isRow sameId
        simp [isPrimaryExecutableRow, same, isPrimary]
    · exact elsewhere other here
  · rename_i replacement _
    have promotion := obtain?_eq_ok.mp ran
    refine ⟨⟨?_, linked_promoteExecutable promotion linked⟩,
      evolved.trans ((promoteExecutable_eq_some promotion).1.evolves (keepsIdentity_promoted _ _) _)⟩
    intro other
    by_cases here : other = row.projectId
    · exact here ▸ primarySound_of_promoteExecutable promotion
    · exact primarySound_promoteExecutable_of_ne here promotion (elsewhere other here)

end

/-! ## The check of a build -/

section Bindings

variable {store : SourceStore} {projectId : Uuid}

/-- The bindings keep the sources in order. -/
theorem length_primaryExecutables {unicode : Unicode} {bindings : List BoundSourceVersion}
    (bound : store.latestBoundVersions unicode projectId = some bindings) :
    (primaryExecutables bindings).length =
      (store.latestVersions projectId).countP fun pair => pair.1.isPrimary && isExecutable pair.1.kind := by
  unfold latestBoundVersions at bound
  generalize store.latestVersions projectId = pairs at bound ⊢
  rw [primaryExecutables, ← List.countP_eq_length_filter]
  induction pairs generalizing bindings with
  | nil =>
    cases bound
    rfl
  | cons pair pairs ih =>
    simp only [List.mapM_cons, Option.bind_eq_bind, Option.bind_eq_some_iff, Option.pure_def, Option.some.injEq] at bound
    obtain ⟨binding, isBinding, rest, isRest, rfl⟩ := bound
    have sameSource : binding.source = pair.1.toProjectSource := by
      unfold boundVersion at isBinding
      simp only [Option.bind_eq_bind, Option.bind_eq_some_iff, Option.pure_def, Option.some.injEq] at isBinding
      obtain ⟨_, _, rfl⟩ := isBinding
      rfl
    rw [List.countP_cons, List.countP_cons, ih isRest, sameSource]

/-- Every primary source is among the bindings, as its version is stored. -/
theorem countP_latestVersions (invariant : store.Invariant) :
    ((store.latestVersions projectId).countP fun pair => pair.1.isPrimary && isExecutable pair.1.kind) =
      store.sources.count (isPrimaryExecutableRow projectId) := by
  unfold latestVersions
  rw [List.countP_filterMap, Table.ordered, (List.perm_insertionSort _ _).countP_eq, List.countP_filter, Table.count]
  apply List.countP_congr
  intro row member
  constructor
  · intro holds
    cases current : row.currentVersionId with
    | none => simp [current] at holds
    | some versionId =>
      cases found : store.versions.get? versionId with
      | none => simp [current, found] at holds
      | some version =>
        simp only [current, found, Option.bind_some, Option.map_some, Option.getD_some, Bool.and_eq_true,
          decide_eq_true_eq] at holds
        simp [isPrimaryExecutableRow, holds]
  · intro isPrimary
    obtain ⟨versionId, current⟩ := Option.isSome_iff_exists.mp ((invariant.sound projectId).versioned row member isPrimary)
    obtain ⟨version, isVersion, rfl, _⟩ := invariant.linked row member versionId current
    have found : store.versions.get? version.id = some version := Table.get?_of_mem isVersion
    simp only [isPrimaryExecutableRow, Bool.and_eq_true, decide_eq_true_eq] at isPrimary
    simp [current, found, isPrimary]

/-- With at most one primary source there is exactly one if any executable source has a version. -/
theorem count_primary_eq_one_iff (sound : store.PrimarySound projectId) :
    store.sources.count (isPrimaryExecutableRow projectId) = 1 ↔
      ∃ row ∈ store.sources, isVersionedExecutable projectId row = true := by
  rw [Table.count_eq_one_iff sound.unique]
  constructor
  · rintro ⟨row, member, isPrimary⟩
    have versioned := sound.versioned row member isPrimary
    simp only [isPrimaryExecutableRow, Bool.and_eq_true] at isPrimary
    exact ⟨row, member, by simp only [isVersionedExecutable, isPrimary, versioned, Bool.and_self]⟩
  · exact sound.present

end Bindings

end SourceStore

/-! ## Runs -/

namespace SourceSystem

variable {policy : SourceUrlPolicy} {unicode : Unicode}

/-- A source with the id of a record that was read has the kind of that record or a version. -/
def ReadingsHold (system : SourceSystem) : Prop :=
  ∀ reading ∈ system.readings, ∀ row ∈ system.store.sources, row.id = reading.id →
    row.kind = reading.kind ∨ row.currentVersionId.isSome = true

structure Invariant (system : SourceSystem) : Prop where
  store : system.store.Invariant
  readings : system.ReadingsHold

/-- One transaction keeps the rows sound, and no source takes the id of a reading without a version. -/
theorem transact_spec {system : SourceSystem} {action : SourceAction} {next : SourceStore}
    (invariant : system.Invariant) (ran : system.transact policy unicode action = .ok next) :
    next.Invariant ∧ system.store.Evolves (fun id => ∀ reading ∈ system.readings, reading.id ≠ id) next := by
  have rows := invariant.store
  cases action with
  | createProject projectId =>
    cases ran
    exact ⟨rows.of_sources rfl fun _ member => member, SourceStore.Evolves.of_sources rfl⟩
  | create creation =>
    simp only [transact] at ran
    split at ran
    · cases ran
      exact ⟨rows, SourceStore.Evolves.refl _ system.store⟩
    · rename_i unseen
      obtain ⟨sound, evolved⟩ := SourceStore.createBare_spec rows ran
      refine ⟨sound, evolved.mono ?_⟩
      rintro id rfl reading isReading same
      exact unseen (List.any_eq_true.mpr ⟨reading, isReading, by simpa using same⟩)
  | createVersioned creation =>
    simp only [transact, SourceStore.createVersioned, bind_eq_ok] at ran
    obtain ⟨normalized, _, ran⟩ := ran
    obtain ⟨sound, evolved⟩ := SourceStore.persistCreatedSource_spec rows ran
    exact ⟨sound, evolved.mono fun _ => False.elim⟩
  | readSource projectId sourceId =>
    cases ran
    exact ⟨rows, SourceStore.Evolves.refl _ system.store⟩
  | addVersion addition =>
    simp only [transact] at ran
    split at ran
    · rename_i isRead
      obtain ⟨sound, evolved⟩ :=
        SourceStore.addVersion_spec rows (invariant.readings addition.source (List.contains_iff_mem.mp isRead)) ran
      exact ⟨sound, evolved.mono fun _ => False.elim⟩
    · cases ran
      exact ⟨rows, SourceStore.Evolves.refl _ system.store⟩
  | observeNotModified sourceId expectedVersionId etag lastModified now =>
    obtain ⟨sound, evolved⟩ := SourceStore.observeNotModified_spec rows ran
    exact ⟨sound, evolved.mono fun _ => False.elim⟩
  | update change =>
    obtain ⟨sound, evolved⟩ := SourceStore.update_spec rows ran
    exact ⟨sound, evolved.mono fun _ => False.elim⟩
  | delete projectId sourceId referenced =>
    obtain ⟨sound, evolved⟩ := SourceStore.delete_spec rows ran
    exact ⟨sound, evolved.mono fun _ => False.elim⟩

/-- The rows after a step, which are those of the transaction or the old ones. -/
theorem step_spec (policy : SourceUrlPolicy) (unicode : Unicode) (system : SourceSystem) (action : SourceAction) (invariant : system.Invariant) :
    (system.step policy unicode action).store.Invariant ∧
      system.store.Evolves (fun id => ∀ reading ∈ system.readings, reading.id ≠ id) (system.step policy unicode action).store := by
  show (commit system.store (system.transact policy unicode action)).Invariant ∧ system.store.Evolves _ (commit _ _)
  exact commit_induction (P := fun next => next.Invariant ∧ system.store.Evolves _ next)
    ⟨invariant.store, SourceStore.Evolves.refl _ system.store⟩ fun _ ran => transact_spec invariant ran

theorem invariant_step (system : SourceSystem) (action : SourceAction) (invariant : system.Invariant) :
    (system.step policy unicode action).Invariant := by
  obtain ⟨sound, evolved⟩ := step_spec policy unicode system action invariant
  refine ⟨sound, ?_⟩
  intro reading isReading row member sameId
  rcases List.mem_append.mp isReading with isOld | isNew
  · rcases evolved row member with fresh | versioned | ⟨old, isOldRow, oldId, sameKind, unversioned⟩
    · exact absurd sameId.symm (fresh reading isOld)
    · exact .inr versioned
    · rcases invariant.readings reading isOld old isOldRow (oldId.trans sameId) with kind | versioned
      · exact .inl (sameKind ▸ kind)
      · rw [unversioned] at versioned
        cases versioned
  · -- Only a step that changes no row reads a record.
    cases action with
    | readSource projectId sourceId =>
      simp only [readingOf, List.mem_map, Option.mem_toList, Option.filter_eq_some_iff] at isNew
      obtain ⟨read, ⟨found, _⟩, rfl⟩ := isNew
      have same : row = read := Table.eq_of_key member (Table.mem_of_get? found) sameId
      exact .inl (by rw [same])
    | _ => cases isNew

theorem invariant_initial : initial.Invariant := by
  refine ⟨⟨fun projectId => ⟨⟨?_, ?_⟩, ?_⟩, ?_⟩, ?_⟩
  · intro row member
    exact absurd member (Table.not_mem_empty row)
  · intro row member
    exact absurd member (Table.not_mem_empty row)
  · rintro ⟨row, member, _⟩
    exact absurd member (Table.not_mem_empty row)
  · intro row member
    exact absurd member (Table.not_mem_empty row)
  · intro reading isReading
    cases isReading

end SourceSystem

/-- At most one executable source of a project is primary and it has a version, there is one whenever an executable
source has a version, and a build does not find exactly one only when there is none. -/
theorem primary_executable_of_every_run (policy : SourceUrlPolicy) (unicode : Unicode) (actions : List SourceAction)
    (projectId : Uuid) :
    let store := (run (SourceSystem.step policy unicode) SourceSystem.initial actions).store
    (∀ row ∈ store.sources, ∀ other ∈ store.sources, SourceStore.isPrimaryExecutableRow projectId row = true →
        SourceStore.isPrimaryExecutableRow projectId other = true → row = other) ∧
      (∀ row ∈ store.sources, SourceStore.isPrimaryExecutableRow projectId row = true →
        ∃ version ∈ store.versions, row.currentVersionId = some version.id ∧ version.sourceId = row.id) ∧
      ((∃ row ∈ store.sources, SourceStore.isVersionedExecutable projectId row = true) →
        ∃ row ∈ store.sources, SourceStore.isPrimaryExecutableRow projectId row = true) ∧
      ∀ bindings, store.latestBoundVersions unicode projectId = some bindings →
        ((primaryExecutables bindings).length ≠ 1 ↔
          ∀ row ∈ store.sources, SourceStore.isVersionedExecutable projectId row = false) := by
  have invariant := (run_invariant SourceSystem.Invariant SourceSystem.invariant_step SourceSystem.invariant_initial
    actions : (run (SourceSystem.step policy unicode) SourceSystem.initial actions).Invariant).store
  have sound := invariant.sound projectId
  refine ⟨?_, ?_, sound.present, ?_⟩
  · intro row isRow other isOther rowPrimary otherPrimary
    exact Table.eq_of_key isRow isOther (sound.unique row isRow other isOther rowPrimary otherPrimary)
  · intro row isRow isPrimary
    obtain ⟨versionId, current⟩ := Option.isSome_iff_exists.mp (sound.versioned row isRow isPrimary)
    obtain ⟨version, isVersion, rfl, own⟩ := invariant.linked row isRow versionId current
    exact ⟨version, isVersion, current, own⟩
  · intro bindings bound
    rw [SourceStore.length_primaryExecutables bound, SourceStore.countP_latestVersions invariant, Ne,
      SourceStore.count_primary_eq_one_iff sound]
    simp

end Mcplica.Sources
