import Mcplica.Sources.Primary

/-! # Concurrent refreshes of a source

`SourceService.refresh` reads the source, then its current version, fetches and commits, each in a transaction of its own.
Refreshes of one source may overlap in any way. -/

namespace Mcplica.Sources

open Mcplica.Domain Mcplica.Library Mcplica.Contracts

/-! ## One refresh -/

/-- A response; its body is staged and its format detected. -/
inductive SourceResponse where
  | notModified (etag lastModified : Option Text)
  | content (content : StoredContent)
  deriving Repr, DecidableEq

inductive Refresh where
  | absent
  | reading (source : SourceRow)
  | based (source : SourceRow) (latest : Option VersionRow)
  /-- The responses are numbered in the order in which they were fetched. -/
  | fetched (source : SourceRow) (latest : Option VersionRow) (response : SourceResponse) (order : Nat)
  | committed
  deriving Repr, DecidableEq

/-- The request headers that make a fetch conditional. -/
def conditionalHeaders (source : SourceRow) (latest : Option VersionRow) : List (Text × Text) :=
  if latest.isSome then
    (source.lastObservedEtag.filter (· ≠ [])).toList.map (("If-None-Match" : Text), ·) ++
      (source.lastObservedLastModified.filter (· ≠ [])).toList.map (("If-Modified-Since" : Text), ·)
  else []

namespace SourceStore

/-- `latest_version` -/
def latestVersion (store : SourceStore) (sourceId : Uuid) : Option VersionRow :=
  (store.sources.get? sourceId).bind fun row => row.currentVersionId.bind store.versions.get?

/-- The last transaction of `refresh`. -/
def commitResponse (store : SourceStore) (source : SourceRow) (latest : Option VersionRow) (response : SourceResponse)
    (actorUserId versionId : Uuid) (now : Instant) : Except SourceServiceError SourceStore :=
  match response, latest with
  | .notModified _ _, none =>
    .error (.service ⟨.invalidState, "Remote source returned not-modified without a prior version", none⟩)
  | .notModified etag lastModified, some latest =>
    store.observeNotModified source.id latest.id (etag.or source.lastObservedEtag)
      (lastModified.or source.lastObservedLastModified) now
  | .content content, _ => store.addVersion ⟨source.toProjectSource, content, actorUserId, versionId, now⟩

end SourceStore

/-! ## The system -/

/-- A content with the validators that were observed for it. -/
structure Observation where
  contentSha256 : Text
  etag : Option Text
  lastModified : Option Text
  deriving Repr, DecidableEq

namespace SourceStore

/-- What a row says about its current version. -/
def recorded (store : SourceStore) (row : SourceRow) : Option Observation :=
  (row.currentVersionId.bind store.versions.get?).map fun version =>
    ⟨version.contentSha256, row.lastObservedEtag, row.lastObservedLastModified⟩

/-- What the source says about its current version. -/
def stored (store : SourceStore) (sourceId : Uuid) : Option Observation :=
  (store.sources.get? sourceId).bind store.recorded

/-- What a response says about the remote content. An unmodified one is the content whose validators were sent. -/
def observes (store : SourceStore) (source : SourceRow) : SourceResponse → Option Observation
  | .notModified etag lastModified => (store.recorded source).map fun old =>
    ⟨old.contentSha256, etag.or old.etag, lastModified.or old.lastModified⟩
  | .content content => some ⟨content.contentSha256, content.sourceEtag, content.sourceLastModified⟩

end SourceStore

/-- The rows and the refreshes. No step reads the last three fields: how many responses were fetched, what the last one
says, and which is the last one fetched of those that are committed. -/
structure RefreshSystem where
  store : SourceStore
  refreshes : Nat → Refresh := fun _ => .absent
  fetches : Nat := 0
  newest : Option Observation := none
  latestCommitted : Nat := 0

inductive RefreshAction where
  /-- `_get_source` -/
  | read (refresh : Nat)
  /-- `latest_version` -/
  | readLatest (refresh : Nat)
  | fetch (refresh : Nat) (response : SourceResponse)
  | commit (refresh : Nat) (actorUserId versionId : Uuid) (now : Instant)

namespace RefreshSystem

def setRefresh (system : RefreshSystem) (refresh : Nat) (value : Refresh) : RefreshSystem :=
  { system with refreshes := Function.update system.refreshes refresh value }

variable (projectId sourceId : Uuid)

/-- A refresh that raises goes no further. -/
def step (system : RefreshSystem) : RefreshAction → RefreshSystem
  | .read refresh => match system.refreshes refresh, system.store.sources.get? sourceId with
    | .absent, some source =>
      if source.projectId = projectId ∧ source.originType = .url ∧ source.sourceUrl.isSome = true then
        system.setRefresh refresh (.reading source)
      else system
    | _, _ => system
  | .readLatest refresh => match system.refreshes refresh with
    | .reading source => system.setRefresh refresh (.based source (system.store.latestVersion sourceId))
    | _ => system
  | .fetch refresh response => match system.refreshes refresh with
    | .based source latest =>
      { system.setRefresh refresh (.fetched source latest response (system.fetches + 1)) with
        fetches := system.fetches + 1
        newest := system.store.observes source response }
    | _ => system
  | .commit refresh actorUserId versionId now => match system.refreshes refresh with
    | .fetched source latest response order =>
      match system.store.commitResponse source latest response actorUserId versionId now with
      | .ok store =>
        { system.setRefresh refresh .committed with store, latestCommitted := max system.latestCommitted order }
      | .error _ => system
    | _ => system

/-! ## What is promised -/

variable (belongs : Observation → Prop)

/-- The validators of a row are of the content of its version. -/
def ValidatorsBelong (store : SourceStore) (row : SourceRow) : Prop :=
  (row.currentVersionId = none ∧ row.lastObservedEtag = none ∧ row.lastObservedLastModified = none) ∨
    ∃ observation, store.recorded row = some observation ∧ belongs observation

/-- No refresh has begun, and the stored validators are those of the stored content. -/
structure Initial (system : RefreshSystem) : Prop where
  absent : ∀ refresh, system.refreshes refresh = .absent
  unfetched : system.fetches = 0
  uncommitted : system.latestCommitted = 0
  validators : ∀ row, system.store.sources.get? sourceId = some row → ValidatorsBelong belongs system.store row

/-- The server sends content with its own validators, and says that content is not modified only when it is asked. -/
def Honest (system : RefreshSystem) : RefreshAction → Prop
  | .fetch refresh response => ∀ source latest, system.refreshes refresh = .based source latest → match response with
    | .content content => belongs ⟨content.contentSha256, content.sourceEtag, content.sourceLastModified⟩
    | .notModified etag lastModified => conditionalHeaders source latest ≠ [] ∧ ∀ contentSha256,
      belongs ⟨contentSha256, source.lastObservedEtag, source.lastObservedLastModified⟩ →
        belongs ⟨contentSha256, etag.or source.lastObservedEtag, lastModified.or source.lastObservedLastModified⟩
  | _ => True

/-- When a response may be committed. -/
inductive Timely (system : RefreshSystem) (source : SourceRow) (latest : Option VersionRow) (order : Nat) :
    SourceResponse → Prop
  /-- No response that was fetched later is committed. -/
  | content {content : StoredContent} : system.latestCommitted < order → Timely system source latest order (.content content)
  /-- Nor has the version changed since the source was read. -/
  | notModified {etag lastModified : Option Text} : system.latestCommitted < order →
      (system.store.sources.get? sourceId).bind SourceRow.currentVersionId = source.currentVersionId →
      latest.map VersionRow.id = source.currentVersionId → Timely system source latest order (.notModified etag lastModified)
  /-- The response is dropped, and a later one is committed. -/
  | dropped {etag lastModified : Option Text} : order ≤ system.latestCommitted →
      latest.map VersionRow.id ≠ (system.store.sources.get? sourceId).bind SourceRow.currentVersionId →
      Timely system source latest order (.notModified etag lastModified)
  /-- The response says what is stored. -/
  | known {response : SourceResponse} : (system.store.stored sourceId).isSome = true →
      system.store.stored sourceId = system.store.observes source response → Timely system source latest order response

def InOrder (system : RefreshSystem) : RefreshAction → Prop
  | .commit refresh _ _ _ => ∀ source latest response order, system.refreshes refresh = .fetched source latest response order →
    Timely sourceId system source latest order response
  | _ => True

/-- Every response that was fetched is committed. -/
def Settled (system : RefreshSystem) : Prop :=
  ∀ refresh source latest response order, system.refreshes refresh ≠ .fetched source latest response order

/-- The source says what the last response says. -/
structure Current (system : RefreshSystem) : Prop where
  validators : ∀ row, system.store.sources.get? sourceId = some row → ValidatorsBelong belongs system.store row
  newest : Settled system → 0 < system.fetches →
    ∃ observation, system.newest = some observation ∧ system.store.stored sourceId = some observation

end RefreshSystem

/-! ## What a transaction stores -/

namespace SourceStore

variable {store next : SourceStore} {sourceId : Uuid}

/-- No version is lost. -/
def Extends (store next : SourceStore) : Prop :=
  ∀ versionId version, store.versions.get? versionId = some version → next.versions.get? versionId = some version

theorem recorded_of_extends (isExtended : Extends store next) {row : SourceRow} {observation : Observation}
    (found : store.recorded row = some observation) : next.recorded row = some observation := by
  unfold recorded at found ⊢
  obtain ⟨version, isVersion, rfl⟩ := Option.map_eq_some_iff.mp found
  obtain ⟨versionId, isCurrent, isRow⟩ := Option.bind_eq_some_iff.mp isVersion
  rw [isCurrent, Option.bind_some, isExtended versionId version isRow, Option.map_some]

theorem observes_of_extends (isExtended : Extends store next) {source : SourceRow} {response : SourceResponse}
    {observation : Observation} (found : store.observes source response = some observation) :
    next.observes source response = some observation := by
  cases response with
  | content content => exact found
  | notModified etag lastModified =>
    obtain ⟨old, isOld, rfl⟩ := Option.map_eq_some_iff.mp found
    exact Option.map_eq_some_iff.mpr ⟨old, recorded_of_extends isExtended isOld, rfl⟩

theorem get?_of_rewrites {rewrite : SourceRow → SourceRow} (rewrites : Rewrites rewrite store next)
    (identity : KeepsIdentity rewrite) : next.sources.get? sourceId = (store.sources.get? sourceId).map rewrite := by
  cases found : store.sources.get? sourceId with
  | none =>
    refine Table.get?_eq_none.mpr fun row member => ?_
    obtain ⟨old, isOld, rfl⟩ := rewrites.sources.mp member
    exact fun same => Table.get?_eq_none.mp found old isOld ((identity.sameId old).symm.trans same)
  | some row =>
    obtain ⟨isRow, isKey⟩ := Table.get?_eq_some.mp found
    exact Table.get?_eq_some.mpr ⟨rewrites.sources.mpr ⟨row, isRow, rfl⟩, (identity.sameId row).trans isKey⟩

/-- A promotion leaves alone what the sources say about their versions. -/
theorem stored_promote {creation : SourceCreation} {inheritsPrimary : Bool}
    (ran : store.promote creation inheritsPrimary = .ok next) :
    next.versions = store.versions ∧ next.stored sourceId = store.stored sourceId := by
  rcases promote_eq_ok ran with promotion | ⟨rfl, -⟩
  · have rewrites := (promoteExecutable_eq_some promotion).1
    refine ⟨rewrites.versions, ?_⟩
    have sameRecord : ∀ row, next.recorded (promoted creation.projectId creation.sourceId row) = store.recorded row := by
      intro row
      unfold recorded
      rw [promoted_currentVersionId, rewrites.versions]
      unfold promoted
      split_ifs <;> rfl
    unfold stored
    rw [get?_of_rewrites rewrites (keepsIdentity_promoted _ _), Option.bind_map]
    exact congrArg _ (funext sameRecord)
  · exact ⟨rfl, rfl⟩

/-- The version that is persisted has the content, whether it was there or not. -/
theorem get?_persistVersion {creation : SourceCreation} {version : VersionRow} {deduplicated : Bool}
    (ran : store.persistVersion creation = .ok (next, version, deduplicated)) :
    next.sources = store.sources ∧ Extends store next ∧ next.versions.get? version.id = some version ∧
      version.contentSha256 = creation.content.contentSha256 := by
  unfold persistVersion at ran
  split at ran
  · rename_i found
    cases ran
    have matching := List.find?_some found
    simp only [Bool.and_eq_true, decide_eq_true_eq] at matching
    exact ⟨rfl, fun _ _ isVersion => isVersion, Table.get?_of_mem (List.mem_of_find?_eq_some found), matching.2⟩
  · obtain ⟨versions, inserted, same⟩ := bind_eq_ok.mp ran
    rw [obtain?_eq_ok] at inserted
    cases same
    refine ⟨rfl, ?_, Table.get?_of_mem ((Table.mem_insert inserted).mpr (.inr rfl)), rfl⟩
    intro versionId old isOld
    obtain ⟨member, isKey⟩ := Table.get?_eq_some.mp isOld
    exact Table.get?_eq_some.mpr ⟨(Table.mem_insert inserted).mpr (.inl member), isKey⟩

/-- The source says what the new content says. -/
theorem stored_addVersion {addition : VersionAddition} (ran : store.addVersion addition = .ok next) :
    Extends store next ∧ next.stored addition.source.id =
      some ⟨addition.content.contentSha256, addition.content.sourceEtag, addition.content.sourceLastModified⟩ := by
  obtain ⟨locked, isLocked, ran⟩ := bind_eq_ok.mp ran
  obtain ⟨⟨versioned, version, deduplicated⟩, added, promotes⟩ := bind_eq_ok.mp ran
  obtain ⟨sameSources, isExtended, isVersion, sameContent⟩ := get?_persistVersion added
  obtain ⟨sameVersions, sameStored⟩ := @stored_promote _ _ addition.source.id _ _ promotes
  refine ⟨fun versionId old isOld => sameVersions ▸ isExtended versionId old isOld, sameStored.trans ?_⟩
  obtain ⟨isRow, isSource, -⟩ := lockSource_spec isLocked
  have found : versioned.sources.get? addition.source.id = some locked := by
    rw [sameSources]
    exact Table.get?_eq_some.mpr ⟨isRow, isSource⟩
  unfold stored selectCurrentVersion
  rw [Table.get?_update, found, Option.map_some, if_pos (by simpa using isSource), Option.bind_some]
  unfold recorded
  rw [Option.bind_some, isVersion, Option.map_some, sameContent]
  rfl

/-- The validators are stored when the version is the expected one. -/
theorem observeNotModified_eq_ok {expectedVersionId : Uuid} {etag lastModified : Option Text} {now : Instant}
    (ran : store.observeNotModified sourceId expectedVersionId etag lastModified now = .ok next) :
    next.versions = store.versions ∧ ∃ row, store.sources.get? sourceId = some row ∧
      if row.currentVersionId = some expectedVersionId then
        next.stored sourceId = (store.recorded row).map fun old => ⟨old.contentSha256, etag, lastModified⟩
      else next.sources = store.sources := by
  obtain ⟨row, isRow, ran⟩ := bind_eq_ok.mp ran
  obtain ⟨-, ran⟩ := check_bind_eq_ok.mp ran
  obtain ⟨-, -, same⟩ := bind_eq_ok.mp ran
  rw [obtain?_eq_ok] at isRow
  cases same
  refine ⟨rfl, row, isRow, ?_⟩
  obtain ⟨member, isSource⟩ := Table.get?_eq_some.mp isRow
  split
  · rename_i isExpected
    unfold stored
    rw [Table.get?_update, isRow, Option.map_some, if_pos (by simpa using ⟨isSource, isExpected⟩), Option.bind_some]
    unfold recorded
    rw [Option.map_map]
    rfl
  · rename_i differs
    have nothing : ∀ other ∈ store.sources,
        (decide (other.id = sourceId) && decide (other.currentVersionId = some expectedVersionId)) = false := by
      intro other isOther
      rw [Bool.and_eq_false_iff, decide_eq_false_iff_not, decide_eq_false_iff_not]
      by_cases sameSource : other.id = sourceId
      · right
        rw [Table.eq_of_key isOther member (sameSource.trans isSource.symm)]
        exact differs
      · exact .inl sameSource
    refine @Table.update_eq_self _ _ _ _ _ _ ?_ nothing
    exact fun _ => rfl

end SourceStore

namespace RefreshSystem

variable {projectId sourceId : Uuid} {belongs : Observation → Prop} {system : RefreshSystem}

/-! ## The invariant -/

theorem validatorsBelong_of_extends {store next : SourceStore} {row : SourceRow} (isExtended : SourceStore.Extends store next)
    (before : ValidatorsBelong belongs store row) : ValidatorsBelong belongs next row := by
  refine before.imp_right ?_
  rintro ⟨observation, isRecorded, holds⟩
  exact ⟨observation, SourceStore.recorded_of_extends isExtended isRecorded, holds⟩

/-- The row that a refresh has read. -/
def source? : Refresh → Option SourceRow
  | .absent | .committed => none
  | .reading source | .based source _ | .fetched source _ _ _ => some source

theorem setRefresh_self {refresh : Nat} {value : Refresh} : (system.setRefresh refresh value).refreshes refresh = value :=
  Function.update_self ..

theorem setRefresh_of_ne {refresh other : Nat} {value : Refresh} (different : other ≠ refresh) :
    (system.setRefresh refresh value).refreshes other = system.refreshes other :=
  Function.update_of_ne different ..

variable (sourceId belongs) in
/-- What holds after every step, as long as responses are committed in order. -/
structure Holds (system : RefreshSystem) : Prop where
  validators : ∀ row, system.store.sources.get? sourceId = some row → ValidatorsBelong belongs system.store row
  readings : ∀ refresh source, source? (system.refreshes refresh) = some source →
    source.id = sourceId ∧ ValidatorsBelong belongs system.store source
  responses : ∀ refresh source latest response order, system.refreshes refresh = .fetched source latest response order →
    order ≤ system.fetches ∧ ∃ observation, system.store.observes source response = some observation ∧
      belongs observation ∧ (order = system.fetches → system.newest = some observation)
  bounded : system.latestCommitted ≤ system.fetches
  pending : 0 < system.fetches → system.latestCommitted = system.fetches ∨
    ∃ refresh source latest response, system.refreshes refresh = .fetched source latest response system.fetches
  newest : 0 < system.fetches → system.latestCommitted = system.fetches →
    ∃ observation, system.newest = some observation ∧ system.store.stored sourceId = some observation

theorem Initial.holds (initial : Initial sourceId belongs system) : Holds sourceId belongs system where
  validators := initial.validators
  readings refresh source isSource := by
    rw [initial.absent] at isSource
    cases isSource
  responses refresh source latest response order isFetched := by
    rw [initial.absent] at isFetched
    cases isFetched
  bounded := by
    rw [initial.uncommitted]
    exact Nat.zero_le _
  pending fetched := absurd initial.unfetched (Nat.ne_of_gt fetched)
  newest fetched := absurd initial.unfetched (Nat.ne_of_gt fetched)

theorem Holds.current (holds : Holds sourceId belongs system) : Current sourceId belongs system where
  validators := holds.validators
  newest settled fetched := by
    rcases holds.pending fetched with committed | ⟨refresh, source, latest, response, isFetched⟩
    · exact holds.newest fetched committed
    · exact absurd isFetched (settled refresh source latest response _)

/-- A refresh that has not fetched yet goes on. -/
theorem Holds.setRefresh (holds : Holds sourceId belongs system) {refresh : Nat} {value : Refresh}
    (unfetched : ∀ source latest response order, system.refreshes refresh ≠ .fetched source latest response order)
    (notFetched : ∀ source latest response order, value ≠ .fetched source latest response order)
    (reading : ∀ source, source? value = some source → source.id = sourceId ∧ ValidatorsBelong belongs system.store source) :
    Holds sourceId belongs (system.setRefresh refresh value) where
  validators := holds.validators
  readings other source isSource := by
    by_cases same : other = refresh
    · subst same
      rw [setRefresh_self] at isSource
      exact reading source isSource
    · rw [setRefresh_of_ne same] at isSource
      exact holds.readings other source isSource
  responses other source latest response order isFetched := by
    by_cases same : other = refresh
    · subst same
      rw [setRefresh_self] at isFetched
      exact absurd isFetched (notFetched source latest response order)
    · rw [setRefresh_of_ne same] at isFetched
      exact holds.responses other source latest response order isFetched
  bounded := holds.bounded
  pending fetched := by
    refine (holds.pending fetched).imp_right ?_
    rintro ⟨other, source, latest, response, isFetched⟩
    have different : other ≠ refresh := by
      rintro rfl
      exact unfetched source latest response _ isFetched
    exact ⟨other, source, latest, response, (setRefresh_of_ne different).trans isFetched⟩
  newest := holds.newest

theorem Holds.fetch (holds : Holds sourceId belongs system) {refresh : Nat} {source : SourceRow} {latest : Option VersionRow}
    {response : SourceResponse} (isBased : system.refreshes refresh = .based source latest)
    (honest : Honest belongs system (.fetch refresh response)) :
    Holds sourceId belongs { system.setRefresh refresh (.fetched source latest response (system.fetches + 1)) with
      fetches := system.fetches + 1
      newest := system.store.observes source response } := by
  obtain ⟨isSource, sourceBelongs⟩ := holds.readings refresh source (by rw [isBased]; rfl)
  have honestly := honest source latest isBased
  -- the response says something, and says it truthfully
  obtain ⟨observation, isObserved, isTrue⟩ : ∃ observation, system.store.observes source response = some observation ∧
      belongs observation := by
    cases response with
    | content content => exact ⟨_, rfl, honestly⟩
    | notModified etag lastModified =>
      obtain ⟨isConditional, isKept⟩ := honestly
      rcases sourceBelongs with ⟨-, noEtag, noLastModified⟩ | ⟨old, isRecorded, oldTrue⟩
      · exact absurd (by simp [conditionalHeaders, noEtag, noLastModified]) isConditional
      · obtain ⟨version, isVersion, rfl⟩ := Option.map_eq_some_iff.mp isRecorded
        exact ⟨_, Option.map_eq_some_iff.mpr ⟨_, isRecorded, rfl⟩, isKept _ oldTrue⟩
  refine ⟨holds.validators, ?_, ?_, Nat.le_succ_of_le holds.bounded, ?_, ?_⟩
  · intro other otherSource isOther
    by_cases same : other = refresh
    · subst same
      dsimp only at isOther
      rw [setRefresh_self] at isOther
      cases isOther
      exact ⟨isSource, sourceBelongs⟩
    · dsimp only at isOther
      rw [setRefresh_of_ne same] at isOther
      exact holds.readings other otherSource isOther
  · intro other otherSource otherLatest otherResponse order isFetched
    by_cases same : other = refresh
    · subst same
      cases setRefresh_self.symm.trans isFetched
      exact ⟨Nat.le_refl _, observation, isObserved, isTrue, fun _ => isObserved⟩
    · obtain ⟨before, otherObservation, isOther, otherTrue, -⟩ :=
        holds.responses other _ _ _ _ ((setRefresh_of_ne same).symm.trans isFetched)
      exact ⟨Nat.le_succ_of_le before, otherObservation, isOther, otherTrue, fun isLast => by dsimp only at isLast; omega⟩
  · exact fun _ => .inr ⟨refresh, source, latest, response, setRefresh_self⟩
  · intro _ isLast
    have bounded := holds.bounded
    dsimp only [RefreshSystem.setRefresh] at isLast
    omega

theorem stored_of_sources {store next : SourceStore} (same : next.sources = store.sources)
    (isExtended : SourceStore.Extends store next) {observation : Observation} (found : store.stored sourceId = some observation) :
    next.stored sourceId = some observation := by
  unfold SourceStore.stored at found ⊢
  obtain ⟨row, isRow, isRecorded⟩ := Option.bind_eq_some_iff.mp found
  rw [same, isRow, Option.bind_some]
  exact SourceStore.recorded_of_extends isExtended isRecorded

/-- A timely transaction makes the source say what the response says, or changes nothing as a later one is committed. -/
theorem commitResponse_spec {source : SourceRow} {latest : Option VersionRow} {response : SourceResponse} {order : Nat}
    {actorUserId versionId : Uuid} {now : Instant} {next : SourceStore} {observation : Observation}
    (isSource : source.id = sourceId) (isObserved : system.store.observes source response = some observation)
    (timely : Timely sourceId system source latest order response)
    (ran : system.store.commitResponse source latest response actorUserId versionId now = .ok next) :
    SourceStore.Extends system.store next ∧
      ((next.stored sourceId = some observation ∧
        (system.latestCommitted < order ∨ system.store.stored sourceId = some observation)) ∨
      (next.sources = system.store.sources ∧ order ≤ system.latestCommitted)) := by
  cases response with
  | content content =>
    cases isObserved
    obtain ⟨isExtended, isStored⟩ := SourceStore.stored_addVersion ran
    refine ⟨isExtended, .inl ⟨isSource ▸ isStored, ?_⟩⟩
    cases timely with
    | content later => exact .inl later
    | known _ isKnown => exact .inr isKnown
  | notModified etag lastModified =>
    cases latest with
    | none => cases ran
    | some latest =>
      obtain ⟨sameVersions, row, isRow, effect⟩ := SourceStore.observeNotModified_eq_ok ran
      rw [isSource] at isRow effect
      have isExtended : SourceStore.Extends system.store next := by
        intro versionId version isVersion
        rwa [sameVersions]
      obtain ⟨old, isOld, rfl⟩ := Option.map_eq_some_iff.mp isObserved
      obtain ⟨version, isVersion, rfl⟩ := Option.map_eq_some_iff.mp isOld
      refine ⟨isExtended, ?_⟩
      cases timely with
      | notModified later sameVersion isLatest =>
        rw [isRow, Option.bind_some] at sameVersion
        rw [if_pos (show row.currentVersionId = some latest.id from sameVersion.trans isLatest.symm)] at effect
        refine .inl ⟨?_, .inl later⟩
        rw [effect, SourceStore.recorded, sameVersion, isVersion]
        rfl
      | dropped earlier differs =>
        rw [isRow, Option.bind_some] at differs
        rw [if_neg (show row.currentVersionId ≠ some latest.id from Ne.symm differs)] at effect
        exact .inr ⟨effect, earlier⟩
      | known _ isKnown =>
        rw [isObserved] at isKnown
        refine .inl ⟨?_, .inr isKnown⟩
        split at effect
        · -- the validators that are stored are the ones that were there
          rw [SourceStore.stored, isRow, Option.bind_some] at isKnown
          rw [effect, isKnown]
          rfl
        · exact stored_of_sources effect isExtended isKnown

theorem Holds.commit (holds : Holds sourceId belongs system) {refresh : Nat} {source : SourceRow}
    {latest : Option VersionRow} {response : SourceResponse} {order : Nat} {actorUserId versionId : Uuid} {now : Instant}
    {next : SourceStore} (isFetched : system.refreshes refresh = .fetched source latest response order)
    (timely : Timely sourceId system source latest order response)
    (ran : system.store.commitResponse source latest response actorUserId versionId now = .ok next) :
    Holds sourceId belongs { system.setRefresh refresh .committed with
      store := next, latestCommitted := max system.latestCommitted order } := by
  obtain ⟨isSource, -⟩ := holds.readings refresh source (by rw [isFetched]; rfl)
  obtain ⟨inTime, observation, isObserved, isTrue, isNewest⟩ := holds.responses refresh source latest response order isFetched
  obtain ⟨isExtended, effect⟩ := commitResponse_spec isSource isObserved timely ran
  have bounded := holds.bounded
  have unchanged : ∀ other value, (system.setRefresh refresh .committed).refreshes other = value → value ≠ .committed →
      system.refreshes other = value := by
    intro other value isValue differs
    by_cases same : other = refresh
    · subst same
      exact absurd (isValue.symm.trans setRefresh_self) differs
    · rwa [setRefresh_of_ne same] at isValue
  refine ⟨?_, ?_, ?_, ?_, ?_, ?_⟩
  · intro row isRow
    rcases effect with ⟨isStored, -⟩ | ⟨sameSources, -⟩
    · dsimp only [RefreshSystem.setRefresh] at isRow
      rw [SourceStore.stored, isRow, Option.bind_some] at isStored
      exact .inr ⟨observation, isStored, isTrue⟩
    · dsimp only [RefreshSystem.setRefresh] at isRow
      rw [sameSources] at isRow
      exact validatorsBelong_of_extends isExtended (holds.validators row isRow)
  · intro other otherSource isOther
    have before := unchanged other _ rfl fun isCommitted => by
      cases (congrArg source? isCommitted).symm.trans isOther
    obtain ⟨sameId, otherBelongs⟩ := holds.readings other otherSource (by rw [before]; exact isOther)
    exact ⟨sameId, validatorsBelong_of_extends isExtended otherBelongs⟩
  · intro other otherSource otherLatest otherResponse otherOrder isOther
    have before := unchanged other _ isOther nofun
    obtain ⟨otherInTime, otherObservation, otherObserved, otherTrue, otherNewest⟩ := holds.responses other _ _ _ _ before
    exact ⟨otherInTime, otherObservation, SourceStore.observes_of_extends isExtended otherObserved, otherTrue, otherNewest⟩
  · exact max_le bounded inTime
  · intro fetched
    rcases holds.pending fetched with committed | ⟨other, otherSource, otherLatest, otherResponse, isOther⟩
    · exact .inl (by dsimp only [RefreshSystem.setRefresh]; omega)
    · by_cases same : other = refresh
      · subst same
        rw [isFetched] at isOther
        cases isOther
        exact .inl (by dsimp only [RefreshSystem.setRefresh]; omega)
      · exact .inr ⟨other, otherSource, otherLatest, otherResponse, (setRefresh_of_ne same).trans isOther⟩
  · intro fetched isLast
    dsimp only [RefreshSystem.setRefresh] at isLast fetched ⊢
    rcases effect with ⟨isStored, later | wasStored⟩ | ⟨sameSources, earlier⟩
    · exact ⟨observation, isNewest (by omega), isStored⟩
    · by_cases isLastOrder : order = system.fetches
      · exact ⟨observation, isNewest isLastOrder, isStored⟩
      · obtain ⟨newest, areNewest, newestStored⟩ := holds.newest fetched (by omega)
        cases newestStored.symm.trans wasStored
        exact ⟨observation, areNewest, isStored⟩
    · obtain ⟨newest, areNewest, newestStored⟩ := holds.newest fetched (by omega)
      exact ⟨newest, areNewest, stored_of_sources sameSources isExtended newestStored⟩

theorem Holds.step (holds : Holds sourceId belongs system) {action : RefreshAction} (honest : Honest belongs system action)
    (inOrder : InOrder sourceId system action) : Holds sourceId belongs (step projectId sourceId system action) := by
  cases action with
  | read refresh =>
    rw [RefreshSystem.step]
    split
    · rename_i source isAbsent isRow
      split
      · refine holds.setRefresh (fun _ _ _ _ => by rw [isAbsent]; exact nofun) (fun _ _ _ _ => nofun) ?_
        intro read isRead
        cases isRead
        exact ⟨Table.key_of_get? isRow, holds.validators source isRow⟩
      · exact holds
    · exact holds
  | readLatest refresh =>
    rw [RefreshSystem.step]
    split
    · rename_i source isReading
      refine holds.setRefresh (fun _ _ _ _ => by rw [isReading]; exact nofun) (fun _ _ _ _ => nofun) ?_
      intro read isRead
      cases isRead
      exact holds.readings refresh source (by rw [isReading]; rfl)
    · exact holds
  | fetch refresh response =>
    rw [RefreshSystem.step]
    split
    · rename_i source latest isBased
      exact holds.fetch isBased honest
    · exact holds
  | commit refresh actorUserId versionId now =>
    rw [RefreshSystem.step]
    split
    · rename_i source latest response order isFetched
      split
      · rename_i next ran
        exact holds.commit isFetched (inOrder source latest response order isFetched) ran
      · exact holds
    · exact holds

theorem refresh_keeps_newest (belongs : Observation → Prop) (projectId sourceId : Uuid) {system : RefreshSystem}
    (initial : Initial sourceId belongs system) {actions : List RefreshAction}
    (honest : Along (step projectId sourceId) (Honest belongs) system actions)
    (inOrder : Along (step projectId sourceId) (InOrder sourceId) system actions) :
    Current sourceId belongs (run (step projectId sourceId) system actions) := by
  have met : Along (step projectId sourceId) (fun system action => Honest belongs system action ∧ InOrder sourceId system action)
      system actions := fun taken member => ⟨honest taken member, inOrder taken member⟩
  have preserved : ∀ state action, Honest belongs state action ∧ InOrder sourceId state action →
      Holds sourceId belongs state → Holds sourceId belongs (step projectId sourceId state action) :=
    fun state action conditions holds => holds.step conditions.1 conditions.2
  exact (run_invariant_along preserved initial.holds met).current

/-! ## Examples -/

/-- A source of a project that has no version yet. -/
def unversioned : RefreshSystem where
  store := ⟨[1], ⟨[⟨⟨7, 1, .documentation, "docs", some "https://example.com/docs", false⟩, .url, 0, none, none, none, none, none⟩],
    List.nodup_singleton _⟩, Table.empty⟩

/-- The server uses the hash of a content as its tag. -/
def IsTag (observation : Observation) : Prop :=
  observation.etag = some observation.contentSha256

def page (contentSha256 : Text) : StoredContent :=
  ⟨contentSha256, "text/plain", contentSha256, 1, "TEXT", some contentSha256, none⟩

/-- Two refreshes start from no version and commit in the order of their fetches. A third one, which starts between the two
commits, fetches before the second and commits after it. -/
def oneByOne : List RefreshAction :=
  [.read 0, .readLatest 0, .read 1, .readLatest 1, .fetch 0 (.content (page "old")), .commit 0 3 10 1,
    .read 2, .readLatest 2, .fetch 2 (.notModified none none), .fetch 1 (.content (page "new")), .commit 1 3 11 2,
    .commit 2 3 12 3]

/-- The first refresh fetches first and commits last. -/
def overtaken : List RefreshAction :=
  [.read 0, .readLatest 0, .read 1, .readLatest 1, .fetch 0 (.content (page "old")), .fetch 1 (.content (page "new")),
    .commit 1 3 11 1, .commit 0 3 10 2]

theorem initial_unversioned : Initial 7 IsTag unversioned := by
  refine ⟨fun _ => rfl, rfl, rfl, ?_⟩
  intro row isRow
  cases isRow
  exact .inl ⟨rfl, rfl, rfl⟩

/-- The third response is dropped, and the source says what the second one says. -/
theorem refresh_keeps_newest_one_by_one : Current 7 IsTag (run (step 1 7) unversioned oneByOne) ∧
    (run (step 1 7) unversioned oneByOne).store.stored 7 = some ⟨"new", some "new", none⟩ := by
  refine ⟨refresh_keeps_newest IsTag 1 7 initial_unversioned ?_ ?_, by decide⟩
  · refine along_cons.mpr ⟨trivial, along_cons.mpr ⟨trivial, along_cons.mpr ⟨trivial, along_cons.mpr ⟨trivial,
      along_cons.mpr ⟨?_, along_cons.mpr ⟨trivial, along_cons.mpr ⟨trivial, along_cons.mpr ⟨trivial, along_cons.mpr ⟨?_,
      along_cons.mpr ⟨?_, along_cons.mpr ⟨trivial, along_cons.mpr ⟨trivial, along_nil⟩⟩⟩⟩⟩⟩⟩⟩⟩⟩⟩⟩
    · intro source latest isBased
      cases isBased
      rfl
    · intro source latest isBased
      cases isBased
      exact ⟨by decide, fun _ isTag => isTag⟩
    · intro source latest isBased
      cases isBased
      rfl
  · refine along_cons.mpr ⟨trivial, along_cons.mpr ⟨trivial, along_cons.mpr ⟨trivial, along_cons.mpr ⟨trivial,
      along_cons.mpr ⟨trivial, along_cons.mpr ⟨?_, along_cons.mpr ⟨trivial, along_cons.mpr ⟨trivial, along_cons.mpr ⟨trivial,
      along_cons.mpr ⟨trivial, along_cons.mpr ⟨?_, along_cons.mpr ⟨?_, along_nil⟩⟩⟩⟩⟩⟩⟩⟩⟩⟩⟩⟩
    · intro source latest response order isFetched
      cases isFetched
      exact .content (by decide)
    · intro source latest response order isFetched
      cases isFetched
      exact .content (by decide)
    · intro source latest response order isFetched
      cases isFetched
      exact .dropped (by decide) (by decide)

/-- The source keeps the response that was fetched first. -/
theorem not_refresh_keeps_newest : ¬ ∀ actions, Along (step 1 7) (Honest IsTag) unversioned actions →
    Current 7 IsTag (run (step 1 7) unversioned actions) := by
  intro law
  have honest : Along (step 1 7) (Honest IsTag) unversioned overtaken := by
    refine along_cons.mpr ⟨trivial, along_cons.mpr ⟨trivial, along_cons.mpr ⟨trivial, along_cons.mpr ⟨trivial,
      along_cons.mpr ⟨?_, along_cons.mpr ⟨?_, along_cons.mpr ⟨trivial, along_cons.mpr ⟨trivial, along_nil⟩⟩⟩⟩⟩⟩⟩⟩
    · intro source latest isBased
      cases isBased
      rfl
    · intro source latest isBased
      cases isBased
      rfl
  have settled : Settled (run (step 1 7) unversioned overtaken) := by
    intro refresh source latest response order isFetched
    by_cases isFirst : refresh = 0
    · subst isFirst
      cases isFetched
    · by_cases isSecond : refresh = 1
      · subst isSecond
        cases isFetched
      · have absent : (run (step 1 7) unversioned overtaken).refreshes refresh = .absent := by
          refine (Function.update_of_ne isFirst ..).trans ((Function.update_of_ne isSecond ..).trans ?_)
          refine (Function.update_of_ne isSecond ..).trans ((Function.update_of_ne isFirst ..).trans ?_)
          refine (Function.update_of_ne isSecond ..).trans ((Function.update_of_ne isSecond ..).trans ?_)
          exact (Function.update_of_ne isFirst ..).trans (Function.update_of_ne isFirst ..)
        cases absent.symm.trans isFetched
  obtain ⟨observation, isNewest, isStored⟩ := (law overtaken honest).newest settled (by decide)
  exact absurd (isStored.trans isNewest.symm) (by decide)

end RefreshSystem

end Mcplica.Sources
