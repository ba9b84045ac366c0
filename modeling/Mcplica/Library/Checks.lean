import Mcplica.Library.Run

/-! # Checks that raise

A check returns nothing and may raise; a list of checks raises the first error. -/

namespace Mcplica.Library

universe u v

variable {ε : Type u} {α β : Type v}

/-- `if not condition: raise error` -/
def ensure (condition : Bool) (error : ε) : Except ε Unit :=
  if condition then .ok () else .error error

@[simp] theorem ensure_eq_ok {condition : Bool} {error : ε} {passed : Unit} :
    ensure condition error = .ok passed ↔ condition = true := by
  cases condition <;> simp [ensure]

theorem ensure_eq_error {condition : Bool} {error failure : ε} :
    ensure condition error = .error failure ↔ condition = false ∧ error = failure := by
  unfold ensure
  cases condition <;> simp

/-- A check has only one result. -/
theorem exists_const_unit {p : Prop} : (∃ _ : Unit, p) ↔ p :=
  exists_const Unit

/-- A check before something else. -/
theorem check_bind_eq_ok {β : Type} {first : Except ε Unit} {rest : Unit → Except ε β} {value : β} :
    (first >>= rest) = .ok value ↔ first = .ok () ∧ rest () = .ok value := by
  rw [bind_eq_ok]
  exact ⟨fun ⟨_, passed, later⟩ => ⟨passed, later⟩, fun ⟨passed, later⟩ => ⟨(), passed, later⟩⟩

theorem bind_eq_error {first : Except ε α} {rest : α → Except ε β} {error : ε} :
    (first >>= rest) = .error error ↔ first = .error error ∨ ∃ middle, first = .ok middle ∧ rest middle = .error error := by
  cases first <;> simp [bind, Except.bind]

theorem exists_map_eq_ok {result : Except ε α} {make : α → β} :
    (∃ made, result.map make = .ok made) ↔ ∃ value, result = .ok value := by
  cases result with
  | error error => exact iff_of_false (fun ⟨_, isOk⟩ => by cases isOk) (fun ⟨_, isOk⟩ => by cases isOk)
  | ok value => exact iff_of_true ⟨make value, rfl⟩ ⟨value, rfl⟩

theorem exists_ok_of_isOk {result : Except ε α} (succeeds : result.isOk = true) : ∃ value, result = .ok value := by
  cases result with
  | error _ => cases succeeds
  | ok value => exact ⟨value, rfl⟩

/-- An error may be changed on its way, a result is not. -/
theorem mapError_eq_ok {φ : Type u} {result : Except ε α} {change : ε → φ} {value : α} :
    result.mapError change = .ok value ↔ result = .ok value := by
  cases result <;> simp [Except.mapError]

theorem map_eq_ok {γ : Type v} {result : Except ε α} {change : α → γ} {value : γ} :
    result.map change = .ok value ↔ ∃ source, result = .ok source ∧ change source = value := by
  cases result <;> simp [Except.map]

theorem toOption_eq_some {result : Except ε α} {value : α} : result.toOption = some value ↔ result = .ok value := by
  cases result <;> simp [Except.toOption]

/-- The value of an optional result, or the error. -/
def obtain? (result : Option α) (error : ε) : Except ε α :=
  match result with
  | some value => .ok value
  | none => .error error

@[simp] theorem obtain?_eq_ok {result : Option α} {error : ε} {value : α} :
    obtain? result error = .ok value ↔ result = some value := by
  cases result <;> simp [obtain?]

/-- A `for` loop whose body only checks. -/
@[simp] theorem forM_eq_ok {values : List α} {check : α → Except ε PUnit} {passed : PUnit} :
    forM values check = .ok passed ↔ ∀ value ∈ values, check value = .ok () := by
  induction values with
  | nil => simp [pure, Except.pure]
  | cons value rest ih =>
    cases checked : check value with
    | ok _ => simp [checked, bind, Except.bind, ih]
    | error _ => simp [checked, bind, Except.bind]

/-- A comprehension whose element expression may raise. -/
theorem mapM_eq_ok {values : List α} {make : α → Except ε β} {made : List β} :
    values.mapM make = .ok made ↔ List.Forall₂ (fun value result => make value = .ok result) values made := by
  induction values generalizing made with
  | nil => cases made <;> simp [pure, Except.pure]
  | cons value rest ih =>
    rw [List.mapM_cons]
    cases first : make value with
    | error _ => cases made <;> simp [bind, Except.bind, first]
    | ok result =>
      cases others : rest.mapM make with
      | error _ => cases made <;> simp [bind, Except.bind, ← ih, first, others]
      | ok results =>
        cases made <;> simp [bind, Except.bind, pure, Except.pure, ← ih, first, others]

theorem mapM_eq_some {values : List α} {make : α → Option β} {made : List β} :
    values.mapM make = some made ↔ List.Forall₂ (fun value result => make value = some result) values made := by
  induction values generalizing made with
  | nil => cases made <;> simp
  | cons value rest ih =>
    rw [List.mapM_cons]
    cases first : make value with
    | none => cases made <;> simp [first]
    | some result =>
      cases others : rest.mapM make with
      | none => cases made <;> simp [← ih, first, others]
      | some results => cases made <;> simp [← ih, first, others]

theorem exists_of_forall₂_left {R : α → β → Prop} {values : List α} {results : List β}
    (related : List.Forall₂ R values results) {value : α} (member : value ∈ values) : ∃ result ∈ results, R value result := by
  induction related with
  | nil => cases member
  | cons isRelated _ ih =>
    rcases List.mem_cons.mp member with rfl | later
    · exact ⟨_, List.mem_cons_self, isRelated⟩
    · obtain ⟨result, resultMember, laterRelated⟩ := ih later
      exact ⟨result, List.mem_cons_of_mem _ resultMember, laterRelated⟩

theorem exists_of_forall₂_right {R : α → β → Prop} {values : List α} {results : List β}
    (related : List.Forall₂ R values results) {result : β} (member : result ∈ results) : ∃ value ∈ values, R value result := by
  obtain ⟨value, valueMember, isRelated⟩ := exists_of_forall₂_left related.flip member
  exact ⟨value, valueMember, isRelated⟩

theorem forall₂_append_left {R : α → β → Prop} {first second : List α} {results : List β}
    (related : List.Forall₂ R (first ++ second) results) :
    ∃ front back, results = front ++ back ∧ List.Forall₂ R first front ∧ List.Forall₂ R second back := by
  induction first generalizing results with
  | nil => exact ⟨[], results, rfl, .nil, related⟩
  | cons head rest ih =>
    cases related with
    | cons isRelated later =>
      obtain ⟨front, back, rfl, restRelated, secondRelated⟩ := ih later
      exact ⟨_ :: front, back, rfl, .cons isRelated restRelated, secondRelated⟩

theorem exists_of_forall₂_getElem? {R : α → β → Prop} {values : List α} {results : List β}
    (related : List.Forall₂ R values results) {index : Nat} {value : α} (found : values[index]? = some value) :
    ∃ result, results[index]? = some result ∧ R value result := by
  obtain ⟨inRange, isValue⟩ := List.getElem?_eq_some_iff.mp found
  have inResults : index < results.length := related.length_eq ▸ inRange
  refine ⟨results[index], List.getElem?_eq_getElem inResults, ?_⟩
  rw [← isValue]
  exact related.get inRange inResults

theorem exists_of_mem_zip {γ : Type v} {R : α → β → Prop} {name : α → γ} {values : List α} {results : List β}
    (related : List.Forall₂ R values results) {pair : γ × β} (member : pair ∈ (values.map name).zip results) :
    ∃ value ∈ values, name value = pair.1 ∧ R value pair.2 := by
  induction related with
  | nil => cases member
  | @cons value result _ _ isRelated _ ih =>
    rcases List.mem_cons.mp member with rfl | later
    · exact ⟨value, List.mem_cons_self, rfl, isRelated⟩
    · obtain ⟨other, isOther, named⟩ := ih later
      exact ⟨other, List.mem_cons_of_mem _ isOther, named⟩

theorem forall₂_concat {R : α → β → Prop} {values : List α} {value : α} {results : List β}
    (related : List.Forall₂ R (values ++ [value]) results) :
    ∃ others result, results = others ++ [result] ∧ List.Forall₂ R values others ∧ R value result := by
  induction values generalizing results with
  | nil =>
    cases related with
    | cons isRelated rest =>
      cases rest
      exact ⟨[], _, rfl, .nil, isRelated⟩
  | cons head values ih =>
    cases related with
    | cons isRelated rest =>
      obtain ⟨others, result, rfl, areOthers, isLast⟩ := ih rest
      exact ⟨_ :: others, result, rfl, .cons isRelated areOthers, isLast⟩

/-- Corresponding lists are pairwise related alike when corresponding pairs are. -/
theorem pairwise_iff_of_forall₂ {R : α → β → Prop} {S : α → α → Prop} {T : β → β → Prop} {values : List α}
    {results : List β} (related : List.Forall₂ R values results)
    (alike : ∀ {value result other otherResult}, R value result → R other otherResult →
      (T result otherResult ↔ S value other)) : results.Pairwise T ↔ values.Pairwise S := by
  induction related with
  | nil => simp
  | cons isRelated others ih =>
    rw [List.pairwise_cons, List.pairwise_cons, ih]
    refine and_congr_left fun _ => ⟨?_, ?_⟩
    · intro each value member
      obtain ⟨result, resultMember, otherRelated⟩ := exists_of_forall₂_left others member
      exact (alike isRelated otherRelated).mp (each result resultMember)
    · intro each result member
      obtain ⟨value, valueMember, otherRelated⟩ := exists_of_forall₂_right others member
      exact (alike isRelated otherRelated).mpr (each value valueMember)

theorem exists_of_mapM_source {values : List α} {make : α → Except ε β} {made : List β}
    (ran : values.mapM make = .ok made) {value : α} (member : value ∈ values) :
    ∃ result ∈ made, make value = .ok result :=
  exists_of_forall₂_left (mapM_eq_ok.mp ran) member

theorem exists_of_mapM_result {values : List α} {make : α → Except ε β} {made : List β}
    (ran : values.mapM make = .ok made) {result : β} (member : result ∈ made) :
    ∃ value ∈ values, make value = .ok result :=
  exists_of_forall₂_right (mapM_eq_ok.mp ran) member

/-- The comprehension raises what one of its elements raises. -/
theorem exists_of_mapM_error {values : List α} {make : α → Except ε β} {error : ε}
    (raised : values.mapM make = .error error) : ∃ value ∈ values, make value = .error error := by
  induction values with
  | nil => cases raised
  | cons value rest ih =>
    rw [List.mapM_cons] at raised
    cases first : make value with
    | error _ =>
      simp only [bind, Except.bind, first, Except.error.injEq] at raised
      exact ⟨value, List.mem_cons_self, first.trans (congrArg Except.error raised)⟩
    | ok _ =>
      cases others : rest.mapM make with
      | error _ =>
        simp only [bind, Except.bind, first, others] at raised
        obtain ⟨other, member, failed⟩ := ih (others.trans raised)
        exact ⟨other, List.mem_cons_of_mem _ member, failed⟩
      | ok _ => simp [bind, Except.bind, first, others, pure, Except.pure] at raised

/-- What every result takes over from its source, the list of results takes over from the list. -/
theorem map_of_mapM {γ : Type v} {values : List α} {make : α → Except ε β} {made : List β} {left : α → γ} {right : β → γ}
    (ran : values.mapM make = .ok made) (agree : ∀ value result, make value = .ok result → right result = left value) :
    made.map right = values.map left := by
  rw [mapM_eq_ok] at ran
  induction ran with
  | nil => rfl
  | cons isMade _ ih => rw [List.map_cons, List.map_cons, agree _ _ isMade, ih]

/-- A loop with an accumulator: what its body keeps, with the values it has read, holds at the end. -/
theorem foldlM_induction {σ : Type v} {step : σ → α → Except ε σ} (P : List α → σ → Prop) {initial final : σ}
    (start : P [] initial)
    (keeps : ∀ read state value next, P read state → step state value = .ok next → P (read ++ [value]) next)
    {values : List α} (ran : values.foldlM step initial = .ok final) : P values final := by
  have general : ∀ read state, P read state → values.foldlM step state = .ok final → P (read ++ values) final := by
    clear ran
    induction values with
    | nil =>
      intro read state holds ran
      cases ran
      rw [List.append_nil]
      exact holds
    | cons value rest ih =>
      intro read state holds ran
      rw [List.foldlM_cons, bind_eq_ok] at ran
      obtain ⟨next, stepped, ran⟩ := ran
      have later := ih (read ++ [value]) next (keeps read state value next holds stepped) ran
      rwa [List.append_assoc] at later
  exact general [] initial start ran

/-- A loop that fails fails at one of its values. -/
theorem exists_of_foldlM_error {σ : Type v} {step : σ → α → Except ε σ} {values : List α} {error : ε} :
    ∀ {state : σ}, values.foldlM step state = .error error →
      ∃ value ∈ values, ∃ state, step state value = .error error := by
  induction values with
  | nil =>
    intro state failed
    cases failed
  | cons value rest ih =>
    intro state failed
    rw [List.foldlM_cons, bind_eq_error] at failed
    rcases failed with here | ⟨next, -, later⟩
    · exact ⟨value, List.mem_cons_self, state, here⟩
    · obtain ⟨other, member, failing⟩ := ih later
      exact ⟨other, List.mem_cons_of_mem _ member, failing⟩

/-- The entry of a key in a dictionary. -/
theorem lookup_of_mem {κ : Type u} {ν : Type v} [BEq κ] [LawfulBEq κ] {entries : List (κ × ν)} {key : κ} {value : ν}
    (unique : (entries.map Prod.fst).Nodup) (member : (key, value) ∈ entries) : entries.lookup key = some value := by
  induction entries with
  | nil => cases member
  | cons entry rest ih =>
    rw [List.map_cons, List.nodup_cons] at unique
    rcases List.mem_cons.mp member with rfl | later
    · simp
    · have different : (key == entry.1) = false := by
        rw [beq_eq_false_iff_ne]
        rintro rfl
        exact unique.1 (List.mem_map.mpr ⟨_, later, rfl⟩)
      rw [List.lookup_cons, different]
      exact ih unique.2 later

theorem lookup_eq_none_of_not_mem {κ : Type u} {ν : Type v} [BEq κ] [LawfulBEq κ] {entries : List (κ × ν)} {key : κ}
    (absent : key ∉ entries.map Prod.fst) : entries.lookup key = none := by
  rw [List.lookup_eq_none_iff]
  intro entry member
  rw [bne_iff_ne]
  rintro rfl
  exact absent (List.mem_map_of_mem member)

theorem lookup_isSome {κ : Type u} {ν : Type v} [BEq κ] [LawfulBEq κ] {entries : List (κ × ν)} {key : κ} :
    (entries.lookup key).isSome = true ↔ key ∈ entries.map Prod.fst := by
  constructor
  · intro found
    by_contra absent
    rw [lookup_eq_none_of_not_mem absent] at found
    cases found
  · intro member
    rw [Option.isSome_iff_ne_none, ne_eq, List.lookup_eq_none_iff]
    intro none
    obtain ⟨entry, isEntry, rfl⟩ := List.mem_map.mp member
    exact absurd (none entry isEntry) (by simp)

theorem mem_of_lookup {κ : Type u} {ν : Type v} [BEq κ] [LawfulBEq κ] {entries : List (κ × ν)} {key : κ} {value : ν}
    (found : entries.lookup key = some value) : (key, value) ∈ entries := by
  obtain ⟨before, after, rfl, -⟩ := List.lookup_eq_some_iff.mp found
  simp

/-- A dictionary is read alike in every order. -/
theorem lookup_perm {κ : Type u} {ν : Type v} [BEq κ] [LawfulBEq κ] {entries others : List (κ × ν)}
    (same : entries.Perm others) (unique : (entries.map Prod.fst).Nodup) (key : κ) :
    entries.lookup key = others.lookup key := by
  have otherUnique : (others.map Prod.fst).Nodup := (same.map Prod.fst).nodup_iff.mp unique
  cases found : others.lookup key with
  | some value => exact lookup_of_mem unique (same.mem_iff.mpr (mem_of_lookup found))
  | none =>
    refine lookup_eq_none_of_not_mem fun member => ?_
    have isSome := lookup_isSome.mpr ((same.map Prod.fst).mem_iff.mp member)
    rw [found] at isSome
    cases isSome

/-- `entries[key] = value`: a key that is there keeps its place. -/
def setEntry {κ : Type u} {ν : Type v} [DecidableEq κ] (entries : List (κ × ν)) (key : κ) (value : ν) : List (κ × ν) :=
  if (entries.lookup key).isSome then entries.map fun entry => if entry.1 = key then (key, value) else entry
  else entries ++ [(key, value)]

theorem setEntry_of_not_mem {κ : Type u} {ν : Type v} [DecidableEq κ] {entries : List (κ × ν)} {key : κ}
    (absent : key ∉ entries.map Prod.fst) (value : ν) : setEntry entries key value = entries ++ [(key, value)] := by
  unfold setEntry
  rw [if_neg fun isKey => absent (lookup_isSome.mp isKey)]

theorem keys_setEntry {κ : Type u} {ν : Type v} [DecidableEq κ] (entries : List (κ × ν)) (key : κ) (value : ν) :
    (setEntry entries key value).map Prod.fst =
      if key ∈ entries.map Prod.fst then entries.map Prod.fst else entries.map Prod.fst ++ [key] := by
  unfold setEntry
  by_cases isKey : (entries.lookup key).isSome = true
  · rw [if_pos isKey, if_pos (lookup_isSome.mp isKey), List.map_map]
    apply List.map_congr_left
    intro entry _
    by_cases same : entry.1 = key
    · simp [same]
    · simp [same]
  · rw [if_neg isKey, if_neg fun member => isKey (lookup_isSome.mpr member), List.map_append]
    rfl

theorem mem_setEntry {κ : Type u} {ν : Type v} [DecidableEq κ] {entries : List (κ × ν)} {key : κ} {value : ν}
    {entry : κ × ν} (member : entry ∈ setEntry entries key value) : entry = (key, value) ∨ entry ∈ entries := by
  unfold setEntry at member
  split at member
  · obtain ⟨old, isOld, rfl⟩ := List.mem_map.mp member
    split
    · exact .inl rfl
    · exact .inr isOld
  · rcases List.mem_append.mp member with before | last
    · exact .inr before
    · exact .inl (List.mem_singleton.mp last)

/-- `{key(value): value for value in values}`: the last of the values with a key counts. -/
def dictBy {κ : Type u} {ν : Type v} [DecidableEq κ] (key : ν → κ) (values : List ν) : List (κ × ν) :=
  values.foldl (fun entries value => setEntry entries (key value) value) []

theorem keys_dictBy {κ : Type u} {ν : Type v} [DecidableEq κ] (key : ν → κ) (values : List ν) :
    ((dictBy key values).map Prod.fst).Nodup ∧ ∀ name, name ∈ (dictBy key values).map Prod.fst ↔ name ∈ values.map key := by
  have general : ∀ entries : List (κ × ν), (entries.map Prod.fst).Nodup →
      ((values.foldl (fun entries value => setEntry entries (key value) value) entries).map Prod.fst).Nodup ∧
      ∀ name, name ∈ (values.foldl (fun entries value => setEntry entries (key value) value) entries).map Prod.fst ↔
        name ∈ entries.map Prod.fst ∨ name ∈ values.map key := by
    induction values with
    | nil => exact fun entries distinct => ⟨distinct, fun name => by simp⟩
    | cons value rest ih =>
      intro entries distinct
      have keys := keys_setEntry entries (key value) value
      by_cases isKey : key value ∈ entries.map Prod.fst
      · rw [if_pos isKey] at keys
        obtain ⟨stillDistinct, members⟩ := ih (setEntry entries (key value) value) (by rw [keys]; exact distinct)
        refine ⟨stillDistinct, fun name => (members name).trans ?_⟩
        rw [keys, List.map_cons, List.mem_cons]
        constructor
        · exact Or.imp_right .inr
        · rintro (old | rfl | new)
          · exact .inl old
          · exact .inl isKey
          · exact .inr new
      · rw [if_neg isKey] at keys
        have moreDistinct : (entries.map Prod.fst ++ [key value]).Nodup :=
          List.nodup_append.mpr ⟨distinct, List.nodup_singleton _, fun name old other isNew same =>
            isKey (List.mem_singleton.mp isNew ▸ same ▸ old)⟩
        obtain ⟨stillDistinct, members⟩ :=
          ih (setEntry entries (key value) value) (by rw [keys]; exact moreDistinct)
        refine ⟨stillDistinct, fun name => (members name).trans ?_⟩
        rw [keys, List.mem_append, List.mem_singleton, List.map_cons, List.mem_cons, or_assoc]
  obtain ⟨distinct, members⟩ := general [] List.nodup_nil
  exact ⟨distinct, fun name => (members name).trans (or_iff_right List.not_mem_nil)⟩

theorem mem_dictBy {κ : Type u} {ν : Type v} [DecidableEq κ] {key : ν → κ} {values : List ν} {entry : κ × ν}
    (member : entry ∈ dictBy key values) : entry.2 ∈ values ∧ key entry.2 = entry.1 := by
  have general : ∀ entries : List (κ × ν),
      entry ∈ values.foldl (fun entries value => setEntry entries (key value) value) entries →
        entry ∈ entries ∨ (entry.2 ∈ values ∧ key entry.2 = entry.1) := by
    clear member
    induction values with
    | nil => exact fun entries member => .inl member
    | cons value rest ih =>
      intro entries member
      rcases ih _ member with before | ⟨later, isKey⟩
      · rcases mem_setEntry before with rfl | old
        · exact .inr ⟨List.mem_cons_self, rfl⟩
        · exact .inl old
      · exact .inr ⟨List.mem_cons_of_mem _ later, isKey⟩
  exact (general [] member).resolve_left List.not_mem_nil

/-- Among values of distinct keys, each has an entry. -/
theorem mem_dictBy_of_mem {κ : Type u} {ν : Type v} [DecidableEq κ] {key : ν → κ} {values : List ν}
    (distinct : (values.map key).Nodup) {value : ν} (member : value ∈ values) : (key value, value) ∈ dictBy key values := by
  have isKey := ((keys_dictBy key values).2 (key value)).mpr (List.mem_map_of_mem member)
  obtain ⟨⟨found, other⟩, isEntry, isFound⟩ := List.mem_map.mp isKey
  obtain ⟨isValue, sameKey⟩ := mem_dictBy isEntry
  obtain rfl : found = key value := isFound
  obtain rfl : other = value := List.inj_on_of_nodup_map distinct isValue member sameKey
  exact isEntry

/-- A comprehension whose condition may raise. -/
def filterChecked {α : Type} (holds : α → Except ε Bool) : List α → Except ε (List α)
  | [] => .ok []
  | value :: rest => do
    let kept ← holds value
    let others ← filterChecked holds rest
    return if kept then value :: others else others

theorem mem_filterChecked {α : Type} {holds : α → Except ε Bool} {values kept : List α}
    (ran : filterChecked holds values = .ok kept) {value : α} (member : value ∈ kept) :
    value ∈ values ∧ holds value = .ok true := by
  induction values generalizing kept with
  | nil =>
    cases ran
    cases member
  | cons first rest ih =>
    simp only [filterChecked, bind_eq_ok, pure, Except.pure, Except.ok.injEq] at ran
    obtain ⟨isKept, judged, others, ran, rfl⟩ := ran
    have later : value ∈ others → value ∈ first :: rest ∧ holds value = .ok true := by
      intro isOther
      have found := ih ran isOther
      exact ⟨List.mem_cons_of_mem _ found.1, found.2⟩
    cases isKept with
    | false => exact later member
    | true =>
      rcases List.mem_cons.mp member with rfl | isOther
      · exact ⟨List.mem_cons_self, judged⟩
      · exact later isOther

/-! ## Distinct results -/

/-- One round of a loop that appends what it has not appended yet. -/
def addNew [BEq β] (make : α → Except ε β) (made : List β) (value : α) : Except ε (List β) := do
  let result ← make value
  return if made.contains result then made else made ++ [result]

/-- The results of a function that may raise, each once, in the order of their first occurrence. -/
def distinctResults [BEq β] (make : α → Except ε β) (values : List α) : Except ε (List β) :=
  values.foldlM (addNew make) []

section DistinctResults

variable [BEq β] [LawfulBEq β] {make : α → Except ε β} {values : List α} {made next : List β}

theorem addNew_eq_ok {value : α} : addNew make made value = .ok next ↔
    ∃ result, make value = .ok result ∧ next = if result ∈ made then made else made ++ [result] := by
  simp only [addNew, bind_eq_ok, pure, Except.pure, Except.ok.injEq, List.contains_iff_mem, eq_comm (a := next)]

theorem distinctResults_spec (ran : distinctResults make values = .ok made) :
    made.Nodup ∧ (∀ result ∈ made, ∃ value ∈ values, make value = .ok result) ∧
      ∀ value ∈ values, ∃ result ∈ made, make value = .ok result := by
  refine foldlM_induction (fun read state => state.Nodup ∧ (∀ result ∈ state, ∃ value ∈ read, make value = .ok result) ∧
      ∀ value ∈ read, ∃ result ∈ state, make value = .ok result)
    ⟨List.nodup_nil, (fun _ member => by cases member), (fun _ member => by cases member)⟩ ?_ ran
  intro read state value next ⟨distinct, fromValue, toResult⟩ step
  obtain ⟨result, isResult, rfl⟩ := addNew_eq_ok.mp step
  have kept : ∀ old ∈ state, ∃ source ∈ read ++ [value], make source = .ok old := by
    intro old member
    obtain ⟨source, isSource, makes⟩ := fromValue old member
    exact ⟨source, List.mem_append_left _ isSource, makes⟩
  split
  · rename_i found
    refine ⟨distinct, kept, fun source member => ?_⟩
    rcases List.mem_append.mp member with before | last
    · exact toResult source before
    · rw [List.mem_singleton.mp last]
      exact ⟨result, found, isResult⟩
  · rename_i fresh
    refine ⟨distinct.append (List.nodup_singleton _) (by simpa using fresh), fun old member => ?_, fun source member => ?_⟩
    · rcases List.mem_append.mp member with before | last
      · exact kept old before
      · rw [List.mem_singleton.mp last]
        exact ⟨value, by simp, isResult⟩
    · rcases List.mem_append.mp member with before | last
      · obtain ⟨old, isOld, makes⟩ := toResult source before
        exact ⟨old, List.mem_append_left _ isOld, makes⟩
      · rw [List.mem_singleton.mp last]
        exact ⟨result, by simp, isResult⟩

/-- The loop only appends, at most once for each value. -/
theorem foldlM_addNew (ran : values.foldlM (addNew make) made = .ok next) :
    ∃ added, next = made ++ added ∧ added.length ≤ values.length := by
  refine foldlM_induction (fun read state => ∃ added, state = made ++ added ∧ added.length ≤ read.length)
    ⟨[], (List.append_nil made).symm, Nat.le_refl 0⟩ ?_ ran
  intro read state value later ⟨added, isState, bound⟩ step
  obtain ⟨result, -, rfl⟩ := addNew_eq_ok.mp step
  split
  · exact ⟨added, isState, by simp; omega⟩
  · exact ⟨added ++ [result], by rw [isState, List.append_assoc], by simpa using bound⟩

end DistinctResults

/-- Distinct values are the results of the loop exactly when each of them is its own result. -/
theorem distinctResults_self_iff [BEq α] [LawfulBEq α] {make : α → Except ε α} {values : List α} (distinct : values.Nodup) :
    distinctResults make values = .ok values ↔ ∀ value ∈ values, make value = .ok value := by
  suffices general : ∀ made : List α, (made ++ values).Nodup →
      (values.foldlM (addNew make) made = .ok (made ++ values) ↔ ∀ value ∈ values, make value = .ok value) from
    general [] distinct
  clear distinct
  induction values with
  | nil => simp [pure, Except.pure]
  | cons value rest ih =>
    intro made distinct
    have fresh : value ∉ made := fun member =>
      (List.nodup_append.mp distinct).2.2 value member value List.mem_cons_self rfl
    rw [List.append_cons] at distinct ⊢
    simp only [List.foldlM_cons, bind_eq_ok, addNew_eq_ok, List.forall_mem_cons]
    constructor
    · rintro ⟨state, ⟨result, isResult, rfl⟩, ran⟩
      obtain ⟨added, same, bound⟩ := foldlM_addNew ran
      split at same
      · have lengths := congrArg List.length same
        simp at lengths
        omega
      · rename_i absent
        have isValue : value = result := by
          have firsts := List.append_cancel_left ((List.append_assoc ..).symm.trans
            (same.trans (List.append_assoc ..)))
          exact (List.cons.inj firsts).1
        subst isValue
        rw [if_neg absent] at ran
        exact ⟨isResult, (ih _ distinct).mp ran⟩
    · rintro ⟨isResult, others⟩
      refine ⟨made ++ [value], ⟨value, isResult, (if_neg fresh).symm⟩, ?_⟩
      exact (ih _ distinct).mpr others

/-! ## Success -/

/-- The computation does not raise. -/
def Succeeds (result : Except ε α) : Prop :=
  ∃ value, result = .ok value

@[simp] theorem succeeds_ok {value : α} : Succeeds (Except.ok value : Except ε α) :=
  ⟨value, rfl⟩

@[simp] theorem succeeds_pure {value : α} : Succeeds (pure value : Except ε α) :=
  ⟨value, rfl⟩

theorem succeeds_bind {first : Except ε α} {rest : α → Except ε β} :
    Succeeds (first >>= rest) ↔ ∃ middle, first = .ok middle ∧ Succeeds (rest middle) := by
  constructor
  · rintro ⟨value, ran⟩
    obtain ⟨middle, firstRan, restRan⟩ := bind_eq_ok.mp ran
    exact ⟨middle, firstRan, value, restRan⟩
  · rintro ⟨middle, firstRan, value, restRan⟩
    exact ⟨value, bind_eq_ok.mpr ⟨middle, firstRan, restRan⟩⟩

@[simp] theorem succeeds_ensure {condition : Bool} {error : ε} : Succeeds (ensure condition error) ↔ condition = true := by
  simp [Succeeds]

theorem succeeds_ensure_bind {β : Type} {condition : Bool} {error : ε} {rest : Unit → Except ε β} :
    Succeeds (ensure condition error >>= rest) ↔ condition = true ∧ Succeeds (rest ()) := by
  simp only [succeeds_bind, ensure_eq_ok]
  exact ⟨fun ⟨_, passed, later⟩ => ⟨passed, later⟩, fun ⟨passed, later⟩ => ⟨(), passed, later⟩⟩

theorem succeeds_bind_pure {first : Except ε α} {rest : α → β} :
    Succeeds (first >>= fun value => pure (rest value)) ↔ Succeeds first := by
  simp only [succeeds_bind, succeeds_pure, and_true]
  rfl

@[simp] theorem succeeds_obtain? {result : Option α} {error : ε} :
    Succeeds (obtain? result error) ↔ result.isSome = true := by
  simp [Succeeds, Option.isSome_iff_exists]

/-- A loop whose rounds succeed or fail whatever was read before. -/
theorem succeeds_foldlM_iff {σ : Type v} {step : σ → α → Except ε σ} {valid : α → Prop} {values : List α} {initial : σ}
    (each : ∀ state, ∀ value ∈ values, Succeeds (step state value) ↔ valid value) :
    Succeeds (values.foldlM step initial) ↔ ∀ value ∈ values, valid value := by
  induction values generalizing initial with
  | nil => simp
  | cons value rest ih =>
    have later := fun state => @ih state fun state other member =>
      each state other (List.mem_cons_of_mem _ member)
    rw [List.foldlM_cons, succeeds_bind, List.forall_mem_cons, ← each initial value List.mem_cons_self]
    constructor
    · rintro ⟨next, stepped, ran⟩
      exact ⟨⟨next, stepped⟩, (later next).mp ran⟩
    · rintro ⟨⟨next, stepped⟩, others⟩
      exact ⟨next, stepped, (later next).mpr others⟩

theorem succeeds_mapM {values : List α} {make : α → Except ε β} :
    Succeeds (values.mapM make) ↔ ∀ value ∈ values, Succeeds (make value) := by
  constructor
  · rintro ⟨made, ran⟩ value member
    obtain ⟨result, -, isMade⟩ := exists_of_mapM_source ran member
    exact ⟨result, isMade⟩
  · intro each
    induction values with
    | nil => exact ⟨[], rfl⟩
    | cons value rest ih =>
      obtain ⟨result, isMade⟩ := each value List.mem_cons_self
      obtain ⟨results, areMade⟩ := ih fun other member => each other (List.mem_cons_of_mem _ member)
      exact ⟨result :: results, mapM_eq_ok.mpr (.cons isMade (mapM_eq_ok.mp areMade))⟩

end Mcplica.Library
