import Mathlib.Data.Finset.Card
import Mathlib.Data.Finset.Dedup
import Mcplica.Library.Checks

/-! # Expansion of references

References are expanded depth first into one table of definitions. The first reference to a place enters a
placeholder under the key of the place, expands what stands there and then fills the entry. While a place is being
expanded its mark is on the trail: a new key with a mark on the trail keeps its placeholder. -/

namespace Mcplica.Library

universe u v w x

/-- Places of references. What stands at a place refers to others in a fixed order, unless it cannot be read. -/
structure ReferenceGraph (α : Type u) (κ : Type v) (ι : Type w) (β : Type x) where
  key : α → κ
  mark : α → ι
  references : α → Option (List α)
  value : α → β
  placeholder : β

namespace ReferenceGraph

variable {α : Type u} {κ : Type v} {ι : Type w} {β : Type x}

/-- The places that can be reached from those given. -/
inductive Reaches (graph : ReferenceGraph α κ ι β) (places : List α) : α → Prop
  | start {place : α} (member : place ∈ places) : Reaches graph places place
  | next {place other : α} {references : List α} (reached : Reaches graph places place)
      (read : graph.references place = some references) (member : other ∈ references) : Reaches graph places other

section

variable [DecidableEq κ]

/-- Fills the entry of a key. -/
def assign (known : List (κ × β)) (key : κ) (value : β) : List (κ × β) :=
  known.map fun entry => if entry.1 = key then (key, value) else entry

/-- The expansion of places one after the other, at most as deep as the fuel: trail and table before, table after. -/
inductive Explores (graph : ReferenceGraph α κ ι β) : Nat → List ι → List (κ × β) → List α → List (κ × β) → Prop
  | done {fuel : Nat} {trail : List ι} {known : List (κ × β)} : Explores graph fuel trail known [] known
  | seen {fuel : Nat} {trail : List ι} {known after : List (κ × β)} {place : α} {rest : List α}
      (isKnown : graph.key place ∈ known.map Prod.fst) (others : Explores graph fuel trail known rest after) :
      Explores graph fuel trail known (place :: rest) after
  | inside {fuel : Nat} {trail : List ι} {known after : List (κ × β)} {place : α} {rest : List α}
      (isNew : graph.key place ∉ known.map Prod.fst) (onTrail : graph.mark place ∈ trail)
      (others : Explores graph fuel trail (known ++ [(graph.key place, graph.placeholder)]) rest after) :
      Explores graph fuel trail known (place :: rest) after
  | fresh {fuel : Nat} {trail : List ι} {known inner after : List (κ × β)} {place : α} {references rest : List α}
      (isNew : graph.key place ∉ known.map Prod.fst) (offTrail : graph.mark place ∉ trail)
      (read : graph.references place = some references)
      (expanded : Explores graph fuel (graph.mark place :: trail)
        (known ++ [(graph.key place, graph.placeholder)]) references inner)
      (others : Explores graph (fuel + 1) trail (assign inner (graph.key place) (graph.value place)) rest after) :
      Explores graph (fuel + 1) trail known (place :: rest) after

end

/-- The same search when every placeholder it leaves is what stands at the place. -/
inductive Clear (graph : ReferenceGraph α κ ι β) : List ι → List κ → List α → List κ → Prop
  | done {trail : List ι} {known : List κ} : Clear graph trail known [] known
  | seen {trail : List ι} {known after : List κ} {place : α} {rest : List α} (isKnown : graph.key place ∈ known)
      (others : Clear graph trail known rest after) : Clear graph trail known (place :: rest) after
  | blank {trail : List ι} {known after : List κ} {place : α} {rest : List α} (isNew : graph.key place ∉ known)
      (onTrail : graph.mark place ∈ trail) (isBlank : graph.value place = graph.placeholder)
      (others : Clear graph trail (known ++ [graph.key place]) rest after) :
      Clear graph trail known (place :: rest) after
  | fresh {trail : List ι} {known inner after : List κ} {place : α} {references rest : List α}
      (isNew : graph.key place ∉ known) (offTrail : graph.mark place ∉ trail)
      (read : graph.references place = some references)
      (expanded : Clear graph (graph.mark place :: trail) (known ++ [graph.key place]) references inner)
      (others : Clear graph trail inner rest after) : Clear graph trail known (place :: rest) after

variable {graph : ReferenceGraph α κ ι β} {fuel : Nat} {trail : List ι} {known after : List (κ × β)}
  {places more : List α}

theorem Reaches.mono (included : ∀ place ∈ places, Reaches graph more place) {place : α}
    (reached : Reaches graph places place) : Reaches graph more place := by
  induction reached with
  | start member => exact included _ member
  | next _ read member ih => exact .next ih read member

/-! ## Runs -/

variable [DecidableEq κ]

@[simp] theorem keys_assign (known : List (κ × β)) (key : κ) (value : β) :
    (assign known key value).map Prod.fst = known.map Prod.fst := by
  rw [assign, List.map_map]
  refine List.map_congr_left fun entry _ => ?_
  by_cases same : entry.1 = key
  · simp [same]
  · simp [same]

/-- What is filled is the last entry of a table that went on growing. -/
theorem assign_append {key : κ} {value placeholder : β} {added : List (κ × β)} (absent : key ∉ known.map Prod.fst)
    (apart : key ∉ added.map Prod.fst) :
    assign (known ++ (key, placeholder) :: added) key value = known ++ (key, value) :: added := by
  have unchanged (entries : List (κ × β)) (free : key ∉ entries.map Prod.fst) : assign entries key value = entries := by
    rw [assign]
    refine (List.map_congr_left fun entry member => ?_).trans (List.map_id _)
    have different : entry.1 ≠ key := fun same => free (List.mem_map.mpr ⟨entry, member, same⟩)
    simp [different]
  have whole : assign (known ++ (key, placeholder) :: added) key value =
      assign known key value ++ (key, value) :: assign added key value := by
    simp [assign]
  rw [whole, unchanged known absent, unchanged added apart]

theorem explores_append {rest : List α} :
    Explores graph fuel trail known (places ++ rest) after ↔
      ∃ between, Explores graph fuel trail known places between ∧ Explores graph fuel trail between rest after := by
  constructor
  · intro run
    induction places generalizing known with
    | nil => exact ⟨known, .done, run⟩
    | cons place others ih =>
      cases run with
      | seen isKnown run =>
        obtain ⟨between, first, second⟩ := ih run
        exact ⟨between, .seen isKnown first, second⟩
      | inside isNew onTrail run =>
        obtain ⟨between, first, second⟩ := ih run
        exact ⟨between, .inside isNew onTrail first, second⟩
      | fresh isNew offTrail read expanded run =>
        obtain ⟨between, first, second⟩ := ih run
        exact ⟨between, .fresh isNew offTrail read expanded first, second⟩
  · rintro ⟨between, first, second⟩
    induction first with
    | done => exact second
    | seen isKnown _ ih => exact .seen isKnown (ih second)
    | inside isNew onTrail _ ih => exact .inside isNew onTrail (ih second)
    | fresh isNew offTrail read expanded _ _ ih =>
      exact .fresh isNew offTrail read expanded (ih second)

theorem Explores.keeps_keys (run : Explores graph fuel trail known places after) :
    known.map Prod.fst ⊆ after.map Prod.fst := by
  induction run with
  | done => exact fun _ same => same
  | seen _ _ ih => exact ih
  | inside _ _ _ ih =>
    rw [List.map_append] at ih
    exact fun _ old => ih (List.mem_append_left _ old)
  | fresh _ _ _ _ _ expandedHypothesis ih =>
    rw [List.map_append] at expandedHypothesis
    rw [keys_assign] at ih
    exact fun _ old => ih (expandedHypothesis (List.mem_append_left _ old))

/-- A run leaves the table as it is and adds entries with new keys, of every place it is given at least. -/
structure Extends (graph : ReferenceGraph α κ ι β) (known : List (κ × β)) (places : List α) (after : List (κ × β)) :
    Prop where
  keeps : known <+: after
  distinct : (after.map Prod.fst).Nodup
  covers : ∀ place ∈ places, graph.key place ∈ after.map Prod.fst

omit [DecidableEq κ] in
theorem nodup_opened {key : κ} (value : β) (distinct : (known.map Prod.fst).Nodup) (isNew : key ∉ known.map Prod.fst) :
    ((known ++ [(key, value)]).map Prod.fst).Nodup := by
  rw [List.map_append]
  exact distinct.append (List.nodup_singleton key) (by simpa using isNew)

/-- The table after a place was expanded: its own entry, and what the expansion added. -/
theorem assign_of_prefix {key : κ} {placeholder : β} {inner : List (κ × β)} (value : β)
    (keeps : known ++ [(key, placeholder)] <+: inner) (distinct : (inner.map Prod.fst).Nodup) :
    ∃ added, inner = known ++ (key, placeholder) :: added ∧ assign inner key value = known ++ (key, value) :: added := by
  obtain ⟨added, rfl⟩ := keeps
  rw [List.append_assoc, List.singleton_append] at distinct ⊢
  refine ⟨added, rfl, assign_append ?_ ?_⟩
  · rw [List.map_append, List.map_cons] at distinct
    exact fun member => (List.nodup_append.mp distinct).2.2 key member key List.mem_cons_self rfl
  · rw [List.map_append, List.map_cons] at distinct
    exact (List.nodup_cons.mp (List.nodup_append.mp distinct).2.1).1

theorem Explores.extends (run : Explores graph fuel trail known places after)
    (distinct : (known.map Prod.fst).Nodup) : Extends graph known places after := by
  induction run with
  | done => exact ⟨List.prefix_rfl, distinct, (fun _ member => by cases member)⟩
  | @seen _ _ known _ place _ isKnown _ ih =>
    obtain ⟨keeps, afterDistinct, covers⟩ := ih distinct
    refine ⟨keeps, afterDistinct, fun other member => ?_⟩
    rcases List.mem_cons.mp member with rfl | later
    · exact (keeps.map Prod.fst).subset isKnown
    · exact covers other later
  | @inside _ _ known _ place _ isNew _ _ ih =>
    obtain ⟨keeps, afterDistinct, covers⟩ := ih (nodup_opened graph.placeholder distinct isNew)
    refine ⟨(List.prefix_append _ _).trans keeps, afterDistinct, fun other member => ?_⟩
    rcases List.mem_cons.mp member with rfl | later
    · exact (keeps.map Prod.fst).subset (by simp)
    · exact covers other later
  | @fresh _ _ known inner _ place _ _ isNew _ _ _ _ expandedHypothesis ih =>
    obtain ⟨innerKeeps, innerDistinct, -⟩ := expandedHypothesis (nodup_opened graph.placeholder distinct isNew)
    obtain ⟨added, -, filled⟩ := assign_of_prefix (graph.value place) innerKeeps innerDistinct
    obtain ⟨keeps, afterDistinct, covers⟩ := ih (by rw [keys_assign]; exact innerDistinct)
    rw [filled] at keeps
    refine ⟨(List.prefix_append _ _).trans keeps, afterDistinct, fun other member => ?_⟩
    rcases List.mem_cons.mp member with rfl | later
    · exact (keeps.map Prod.fst).subset (by simp)
    · exact covers other later

/-- More fuel changes nothing. -/
theorem Explores.more_fuel (run : Explores graph fuel trail known places after) :
    ∀ {more : Nat}, fuel ≤ more → Explores graph more trail known places after := by
  induction run with
  | done => exact fun _ => .done
  | seen isKnown _ ih => exact fun enough => .seen isKnown (ih enough)
  | inside isNew onTrail _ ih => exact fun enough => .inside isNew onTrail (ih enough)
  | fresh isNew offTrail read _ _ expandedHypothesis ih =>
    intro more enough
    obtain ⟨smaller, rfl⟩ : ∃ smaller, more = smaller + 1 := ⟨more - 1, by omega⟩
    exact .fresh isNew offTrail read (expandedHypothesis (by omega)) (ih enough)

/-- The search does not depend on what stands where it does not come. -/
theorem Explores.congr {references : α → Option (List α)} {value : α → β}
    (agree : ∀ place, Reaches graph more place → references place = graph.references place ∧ value place = graph.value place)
    (run : Explores graph fuel trail known places after) (reached : ∀ place ∈ places, Reaches graph more place) :
    Explores { graph with references, value } fuel trail known places after := by
  induction run with
  | done => exact .done
  | seen isKnown _ ih =>
    exact .seen isKnown (ih fun other later => reached other (List.mem_cons_of_mem _ later))
  | inside isNew onTrail _ ih =>
    exact .inside isNew onTrail (ih fun other later => reached other (List.mem_cons_of_mem _ later))
  | fresh isNew offTrail read _ _ expandedHypothesis ih =>
    have isReached := reached _ List.mem_cons_self
    obtain ⟨sameReferences, sameValue⟩ := agree _ isReached
    refine .fresh isNew offTrail (sameReferences.trans read)
      (expandedHypothesis fun other isReference => .next isReached read isReference) ?_
    rw [← sameValue] at ih
    exact ih fun other later => reached other (List.mem_cons_of_mem _ later)

theorem Explores.keys_of_places (run : Explores graph fuel trail known places after) :
    ∀ key ∈ after.map Prod.fst, key ∈ known.map Prod.fst ∨ ∃ place, key = graph.key place := by
  induction run with
  | done => exact fun key member => .inl member
  | seen _ _ ih => exact ih
  | @inside _ _ known _ place _ _ _ _ ih =>
    intro key member
    rcases ih key member with before | isPlace
    · rw [List.map_append] at before
      exact (List.mem_append.mp before).imp_right fun opened => ⟨place, List.mem_singleton.mp opened⟩
    · exact .inr isPlace
  | @fresh _ _ known _ _ place _ _ _ _ _ _ _ expandedHypothesis ih =>
    intro key member
    rcases ih key member with before | isPlace
    · rw [keys_assign] at before
      rcases expandedHypothesis key before with earlier | isPlace
      · rw [List.map_append] at earlier
        exact (List.mem_append.mp earlier).imp_right fun opened => ⟨place, List.mem_singleton.mp opened⟩
      · exact .inr isPlace
    · exact .inr isPlace

/-- An entry with what stands at a place that was read, all of whose references are entered too. -/
def Filled (graph : ReferenceGraph α κ ι β) (after : List (κ × β)) (entry : κ × β) : Prop :=
  ∃ place references, graph.references place = some references ∧ entry = (graph.key place, graph.value place) ∧
    ∀ other ∈ references, graph.key other ∈ after.map Prod.fst

omit [DecidableEq κ] in
theorem Filled.mono {entry : κ × β} {later : List (κ × β)} (filled : Filled graph after entry)
    (keeps : after.map Prod.fst ⊆ later.map Prod.fst) : Filled graph later entry := by
  obtain ⟨place, references, read, isEntry, covered⟩ := filled
  exact ⟨place, references, read, isEntry, fun other member => keeps (covered other member)⟩

/-- Every new entry of the table is filled or has the placeholder. -/
theorem Explores.entry_cases (run : Explores graph fuel trail known places after) (distinct : (known.map Prod.fst).Nodup) :
    ∀ entry ∈ after, entry ∈ known ∨ entry.2 = graph.placeholder ∨ Filled graph after entry := by
  induction run with
  | done => exact fun entry member => .inl member
  | seen _ _ ih => exact ih distinct
  | inside isNew _ _ ih =>
    intro entry member
    rcases ih (nodup_opened graph.placeholder distinct isNew) entry member with before | other
    · rcases List.mem_append.mp before with old | opened
      · exact .inl old
      · exact .inr (.inl (by rw [List.mem_singleton.mp opened]))
    · exact .inr other
  | @fresh _ _ known inner after place references rest isNew _ read expanded others expandedHypothesis
      ih =>
    have opened := nodup_opened graph.placeholder distinct isNew
    have innerExtends := expanded.extends opened
    have kept : inner.map Prod.fst ⊆ after.map Prod.fst := by
      have keeps := others.keeps_keys
      rwa [keys_assign] at keeps
    intro entry member
    rcases ih (by rw [keys_assign]; exact innerExtends.distinct) entry member with before | other
    · obtain ⟨source, isSource, rfl⟩ := List.mem_map.mp before
      split
      · exact .inr (.inr ⟨place, references, read, rfl, fun other isReference =>
          kept (innerExtends.covers other isReference)⟩)
      · rename_i different
        rcases expandedHypothesis opened source isSource with earlier | isPlaceholder | filled
        · rcases List.mem_append.mp earlier with old | isOpened
          · exact .inl old
          · exact absurd (congrArg Prod.fst (List.mem_singleton.mp isOpened)) different
        · exact .inr (.inl isPlaceholder)
        · exact .inr (.inr (filled.mono kept))
    · exact .inr other

/-! ## What a clear search leaves -/

/-- Where only the placeholder stands there are no references. -/
def BlankEnds (graph : ReferenceGraph α κ ι β) : Prop :=
  ∀ place references, graph.value place = graph.placeholder → graph.references place = some references → references = []

/-- An entry of a reached place with what stands there, all of whose references are entered too. -/
def Settled (graph : ReferenceGraph α κ ι β) (places : List α) (after : List (κ × β)) (entry : κ × β) : Prop :=
  ∃ place, Reaches graph places place ∧ entry = (graph.key place, graph.value place) ∧
    ∀ references, graph.references place = some references → ∀ other ∈ references, graph.key other ∈ after.map Prod.fst

omit [DecidableEq κ] in
theorem Settled.mono {entry : κ × β} {later : List (κ × β)} (settled : Settled graph places after entry)
    (included : ∀ place ∈ places, Reaches graph more place) (keeps : after.map Prod.fst ⊆ later.map Prod.fst) :
    Settled graph more later entry := by
  obtain ⟨place, reached, isEntry, covered⟩ := settled
  exact ⟨place, reached.mono included, isEntry, fun references read other member =>
    keeps (covered references read other member)⟩

omit [DecidableEq κ] in
theorem not_mem_of_added {first second : List (κ × β)} (distinct : ((first ++ second).map Prod.fst).Nodup) {entry : κ × β}
    (added : entry ∈ second) : entry ∉ first := by
  rw [List.map_append] at distinct
  intro before
  exact (List.nodup_append.mp distinct).2.2 _ (List.mem_map_of_mem before) _ (List.mem_map_of_mem added) rfl

/-- Along a clear search every new entry is settled. -/
theorem Explores.settled (blankEnds : BlankEnds graph)
    (run : Explores graph fuel trail known places after) (distinct : (known.map Prod.fst).Nodup) {keys : List κ}
    (clear : Clear graph trail (known.map Prod.fst) places keys) :
    keys = after.map Prod.fst ∧ ∀ entry ∈ after, entry ∈ known ∨ Settled graph places after entry := by
  induction run generalizing keys with
  | done =>
    cases clear
    exact ⟨rfl, fun entry member => .inl member⟩
  | @seen _ _ known after place rest isKnown others ih =>
    cases clear with
    | seen _ clear =>
      obtain ⟨sameKeys, settled⟩ := ih distinct clear
      refine ⟨sameKeys, fun entry member => (settled entry member).imp_right fun isSettled => ?_⟩
      exact isSettled.mono (fun other later => .start (List.mem_cons_of_mem _ later)) (fun _ same => same)
    | blank isNew => exact absurd isKnown isNew
    | fresh isNew => exact absurd isKnown isNew
  | @inside _ _ known after place rest isNew onTrail others ih =>
    cases clear with
    | seen isKnown => exact absurd isKnown isNew
    | fresh _ offTrail => exact absurd onTrail offTrail
    | blank _ _ isBlank clear =>
      obtain ⟨sameKeys, settled⟩ := ih (nodup_opened graph.placeholder distinct isNew) (by rwa [List.map_append])
      refine ⟨sameKeys, fun entry member => ?_⟩
      rcases settled entry member with before | isSettled
      · rcases List.mem_append.mp before with old | opened
        · exact .inl old
        · refine .inr ⟨place, .start List.mem_cons_self, ?_, ?_⟩
          · rw [List.mem_singleton.mp opened, isBlank]
          · intro references read other isReference
            rw [blankEnds place references isBlank read] at isReference
            cases isReference
      · exact .inr (isSettled.mono (fun other later => .start (List.mem_cons_of_mem _ later)) (fun _ same => same))
  | @fresh _ _ known inner after place references rest isNew offTrail read expanded others expandedHypothesis
      ih =>
    cases clear with
    | seen isKnown => exact absurd isKnown isNew
    | blank _ onTrail => exact absurd onTrail offTrail
    | fresh _ _ clearRead clearInner clear =>
      rw [read] at clearRead
      cases clearRead
      have opened := nodup_opened graph.placeholder distinct isNew
      have innerExtends := expanded.extends opened
      obtain ⟨innerKeys, innerSettled⟩ := expandedHypothesis opened (by rwa [List.map_append])
      subst innerKeys
      have reopened : ((assign inner (graph.key place) (graph.value place)).map Prod.fst).Nodup := by
        rw [keys_assign]
        exact innerExtends.distinct
      obtain ⟨sameKeys, settled⟩ := ih reopened (by rwa [keys_assign])
      have innerKept : inner.map Prod.fst ⊆ after.map Prod.fst := by
        have kept := ((others.extends reopened).keeps.map Prod.fst).subset
        rwa [keys_assign] at kept
      obtain ⟨added, isInner, filled⟩ := assign_of_prefix (graph.value place) innerExtends.keeps innerExtends.distinct
      refine ⟨sameKeys, fun entry member => ?_⟩
      rcases settled entry member with before | isSettled
      · rw [filled, List.mem_append, List.mem_cons] at before
        rcases before with old | rfl | new
        · exact .inl old
        · refine .inr ⟨place, .start List.mem_cons_self, rfl, ?_⟩
          intro others isRead other isReference
          rw [read] at isRead
          cases isRead
          exact innerKept (innerExtends.covers other isReference)
        · have inInner : entry ∈ inner := by
            rw [isInner]
            exact List.mem_append_right _ (List.mem_cons_of_mem _ new)
          have notOld : entry ∉ known ++ [(graph.key place, graph.placeholder)] := by
            have parted : inner = (known ++ [(graph.key place, graph.placeholder)]) ++ added := by
              rw [isInner, List.append_assoc, List.singleton_append]
            exact not_mem_of_added (parted ▸ innerExtends.distinct) new
          have isSettled := (innerSettled entry inInner).resolve_left notOld
          exact .inr (isSettled.mono (fun other isReference => .next (.start List.mem_cons_self) read isReference) innerKept)
      · exact .inr (isSettled.mono (fun other later => .start (List.mem_cons_of_mem _ later)) (fun _ same => same))

/-- A new entry that is a placeholder although something else stands at its place. -/
def LeavesPlaceholder (graph : ReferenceGraph α κ ι β) (known : List (κ × β)) (places : List α) (after : List (κ × β)) :
    Prop :=
  ∃ place, Reaches graph places place ∧ graph.key place ∉ known.map Prod.fst ∧
    (graph.key place, graph.placeholder) ∈ after ∧ graph.value place ≠ graph.placeholder

omit [DecidableEq κ] in
theorem LeavesPlaceholder.mono {before later : List (κ × β)} (left : LeavesPlaceholder graph known places after)
    (included : ∀ place ∈ places, Reaches graph more place) (fewer : before.map Prod.fst ⊆ known.map Prod.fst)
    (kept : ∀ entry ∈ after, entry.1 ∉ known.map Prod.fst → entry ∈ later) :
    LeavesPlaceholder graph before more later := by
  obtain ⟨place, reached, isNew, entry, standsThere⟩ := left
  exact ⟨place, reached.mono included, fun old => isNew (fewer old), kept _ entry isNew, standsThere⟩

theorem mem_assign_of_ne {key : κ} {value : β} {entry : κ × β} (member : entry ∈ known) (different : entry.1 ≠ key) :
    entry ∈ assign known key value := by
  rw [assign, List.mem_map]
  exact ⟨entry, member, by rw [if_neg different]⟩

theorem Explores.clear_or_left (run : Explores graph fuel trail known places after)
    (distinct : (known.map Prod.fst).Nodup) :
    Clear graph trail (known.map Prod.fst) places (after.map Prod.fst) ∨ LeavesPlaceholder graph known places after := by
  induction run with
  | done => exact .inl .done
  | seen isKnown others ih =>
    rcases ih distinct with clear | left
    · exact .inl (.seen isKnown clear)
    · exact .inr (left.mono (fun _ later => .start (List.mem_cons_of_mem _ later)) (fun _ old => old) fun _ kept _ => kept)
  | @inside _ _ _ _ place _ isNew onTrail others ih =>
    have opened := nodup_opened graph.placeholder distinct isNew
    by_cases isBlank : graph.value place = graph.placeholder
    · rcases ih opened with clear | left
      · rw [List.map_append] at clear
        exact .inl (.blank isNew onTrail isBlank clear)
      · refine .inr (left.mono (fun _ later => .start (List.mem_cons_of_mem _ later)) ?_ fun _ kept _ => kept)
        rw [List.map_append]
        exact List.subset_append_left _ _
    · exact .inr ⟨place, .start List.mem_cons_self, isNew, (others.extends opened).keeps.subset (by simp), isBlank⟩
  | @fresh _ _ known inner after place references rest isNew offTrail read expanded others expandedHypothesis
      ih =>
    have opened := nodup_opened graph.placeholder distinct isNew
    have innerExtends := expanded.extends opened
    have reopened : ((assign inner (graph.key place) (graph.value place)).map Prod.fst).Nodup := by
      rw [keys_assign]
      exact innerExtends.distinct
    have outerKept : known.map Prod.fst ⊆ inner.map Prod.fst :=
      (((List.prefix_append _ _).trans innerExtends.keeps).map Prod.fst).subset
    rcases expandedHypothesis opened with innerClear | left
    · rcases ih reopened with clear | left
      · rw [List.map_append] at innerClear
        rw [keys_assign] at clear
        exact .inl (.fresh isNew offTrail read innerClear clear)
      · refine .inr (left.mono (fun _ later => .start (List.mem_cons_of_mem _ later)) ?_ fun _ kept _ => kept)
        rw [keys_assign]
        exact outerKept
    · -- The entry is newer than the one of this place, which is the only one that is filled now.
      refine .inr (left.mono (fun _ isReference => .next (.start List.mem_cons_self) read isReference) ?_ ?_)
      · rw [List.map_append]
        exact List.subset_append_left _ _
      · intro entry inInner isNewer
        refine (others.extends reopened).keeps.subset (mem_assign_of_ne inInner ?_)
        rintro same
        exact isNewer (by rw [List.map_append, same]; simp)

/-! ## When the table is faithful -/

/-- Every reached place has what stands there under its key. -/
def Faithful (graph : ReferenceGraph α κ ι β) (places : List α) (after : List (κ × β)) : Prop :=
  ∀ place, Reaches graph places place → (graph.key place, graph.value place) ∈ after

/-- Different places that are reached have different keys. -/
def KeysApart (graph : ReferenceGraph α κ ι β) (places : List α) : Prop :=
  ∀ first second, Reaches graph places first → Reaches graph places second → graph.key first = graph.key second →
    first = second

theorem Explores.faithful (blankEnds : BlankEnds graph)
    (apart : KeysApart graph places) (run : Explores graph fuel [] [] places after) {keys : List κ}
    (clear : Clear graph [] [] places keys) : Faithful graph places after := by
  obtain ⟨-, settled⟩ := run.settled blankEnds List.nodup_nil clear
  have extended := run.extends List.nodup_nil
  have entered : ∀ place, Reaches graph places place → graph.key place ∈ after.map Prod.fst →
      (graph.key place, graph.value place) ∈ after ∧ ∀ references, graph.references place = some references →
        ∀ other ∈ references, graph.key other ∈ after.map Prod.fst := by
    intro place reached isKey
    obtain ⟨entry, isEntry, sameKey⟩ := List.mem_map.mp isKey
    obtain ⟨other, otherReached, rfl, covered⟩ := (settled entry isEntry).resolve_left List.not_mem_nil
    obtain rfl := apart other place otherReached reached sameKey
    exact ⟨isEntry, covered⟩
  have isKey : ∀ place, Reaches graph places place → graph.key place ∈ after.map Prod.fst := by
    intro place reached
    induction reached with
    | start member => exact extended.covers _ member
    | next reached read member ih => exact (entered _ reached ih).2 _ read _ member
  intro place reached
  exact (entered place reached (isKey place reached)).1

/-- The table is faithful exactly when the search was clear. -/
theorem Explores.faithful_iff (blankEnds : BlankEnds graph) (apart : KeysApart graph places) (run : Explores graph fuel [] [] places after) :
    Faithful graph places after ↔ ∃ keys, Clear graph [] [] places keys := by
  constructor
  · intro faithful
    rcases run.clear_or_left List.nodup_nil with clear | ⟨place, reached, -, entry, standsThere⟩
    · exact ⟨_, clear⟩
    · have same := List.inj_on_of_nodup_map (run.extends List.nodup_nil).distinct (faithful place reached) entry rfl
      exact absurd (congrArg Prod.snd same) standsThere
  · rintro ⟨keys, clear⟩
    exact run.faithful blankEnds apart clear

/-! ## Termination -/

/-- The keys that the table does not have yet. -/
def unseen (keys : Finset κ) (known : List (κ × β)) : Finset κ :=
  keys \ (known.map Prod.fst).toFinset

theorem unseen_mono {keys : Finset κ} {later : List (κ × β)} (kept : known.map Prod.fst ⊆ later.map Prod.fst) :
    unseen keys later ⊆ unseen keys known :=
  Finset.sdiff_subset_sdiff (Finset.Subset.refl _) fun _ member =>
    List.mem_toFinset.mpr (kept (List.mem_toFinset.mp member))

theorem card_unseen_opened {keys : Finset κ} {key : κ} (value : β) (member : key ∈ keys)
    (isNew : key ∉ known.map Prod.fst) :
    (unseen keys (known ++ [(key, value)])).card < (unseen keys known).card := by
  refine Finset.card_lt_card (Finset.ssubset_iff_subset_ne.mpr ⟨unseen_mono ?_, fun same => ?_⟩)
  · rw [List.map_append]
    exact List.subset_append_left _ _
  · have isUnseen : key ∈ unseen keys known :=
      Finset.mem_sdiff.mpr ⟨member, fun old => isNew (List.mem_toFinset.mp old)⟩
    rw [← same, unseen, Finset.mem_sdiff] at isUnseen
    exact isUnseen.2 (List.mem_toFinset.mpr (by simp))

/-- When every reached place can be read and only finitely many keys are reached, the search ends, at a depth of at
most as many expansions as keys are missing. -/
theorem exists_explores [DecidableEq ι] {keys : Finset κ} (all : ∀ place, Reaches graph more place →
      graph.key place ∈ keys ∧ ∃ references, graph.references place = some references) :
    ∀ (fuel : Nat) (trail : List ι) (places : List α) (known : List (κ × β)),
      (∀ place ∈ places, Reaches graph more place) → (known.map Prod.fst).Nodup → (unseen keys known).card ≤ fuel →
      ∃ after, Explores graph fuel trail known places after := by
  intro fuel
  induction fuel using Nat.strong_induction_on with
  | _ fuel deeper =>
    intro trail places
    induction places with
    | nil => exact fun known _ _ _ => ⟨known, .done⟩
    | cons place rest ih =>
      intro known reached distinct bounded
      have restReached : ∀ other ∈ rest, Reaches graph more other := fun other later =>
        reached other (List.mem_cons_of_mem _ later)
      by_cases isKnown : graph.key place ∈ known.map Prod.fst
      · obtain ⟨after, run⟩ := ih known restReached distinct bounded
        exact ⟨after, .seen isKnown run⟩
      have opened := nodup_opened graph.placeholder distinct isKnown
      have isReached := reached place List.mem_cons_self
      obtain ⟨isKey, references, read⟩ := all place isReached
      have fewer := card_unseen_opened graph.placeholder isKey isKnown
      by_cases onTrail : graph.mark place ∈ trail
      · obtain ⟨after, run⟩ := ih _ restReached opened (by omega)
        exact ⟨after, .inside isKnown onTrail run⟩
      · obtain ⟨smaller, rfl⟩ : ∃ smaller, fuel = smaller + 1 := ⟨fuel - 1, by omega⟩
        obtain ⟨inner, innerRun⟩ := deeper smaller (by omega) (graph.mark place :: trail) references _
          (fun other isReference => .next isReached read isReference) opened (by omega)
        have innerExtends := innerRun.extends opened
        have kept : (unseen keys (assign inner (graph.key place) (graph.value place))).card ≤ (unseen keys known).card := by
          refine Finset.card_le_card (unseen_mono ?_)
          rw [keys_assign]
          exact (((List.prefix_append _ _).trans innerExtends.keeps).map Prod.fst).subset
        obtain ⟨after, run⟩ := ih (assign inner (graph.key place) (graph.value place)) restReached
          (by rw [keys_assign]; exact innerExtends.distinct) (Nat.le_trans kept bounded)
        exact ⟨after, .fresh isKnown onTrail read innerRun run⟩

end ReferenceGraph

end Mcplica.Library
