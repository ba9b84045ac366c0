import Mcplica.Library.Checks

/-! # Outcomes

A checked computation without its errors: what it returns, if it returns. -/

namespace Mcplica.Library

universe u v

variable {ε : Type u} {α β : Type v}

theorem toOption_ok (value : α) : (Except.ok value : Except ε α).toOption = some value := rfl

theorem toOption_error (error : ε) : (Except.error error : Except ε α).toOption = none := rfl

theorem toOption_pure (value : α) : (pure value : Except ε α).toOption = some value := rfl

theorem toOption_bind (first : Except ε α) (rest : α → Except ε β) :
    (first >>= rest).toOption = first.toOption.bind fun value => (rest value).toOption := by
  cases first <;> rfl

theorem toOption_mapM {σ : Type v} (make : σ → Except ε β) (values : List σ) :
    (values.mapM make).toOption = values.mapM fun value => (make value).toOption := by
  induction values with
  | nil => rfl
  | cons value rest ih =>
    rw [List.mapM_cons, List.mapM_cons, toOption_bind]
    refine congrArg _ (funext fun made => ?_)
    rw [toOption_bind, ih]
    rfl

theorem toOption_ensure (condition : Bool) (error : ε) :
    (ensure condition error).toOption = if condition then some () else none := by
  cases condition <;> rfl

theorem toOption_obtain? (result : Option α) (error : ε) : (obtain? result error).toOption = result := by
  cases result <;> rfl

theorem mapM_map_option {σ : Type v} (make : σ → Option α) (change : α → β) (values : List σ) :
    values.mapM (fun value => (make value).map change) = (values.mapM make).map (List.map change) := by
  induction values with
  | nil => rfl
  | cons value rest ih =>
    rw [List.mapM_cons, List.mapM_cons, ih]
    cases make value with
    | none => rfl
    | some made => cases rest.mapM make <;> rfl

/-- Loops over two lists that correspond make the same when their rounds do. -/
theorem mapM_eq_of_forall₂ {σ τ : Type v} {R : σ → τ → Prop} {values : List σ} {others : List τ}
    (related : List.Forall₂ R values others) {make : σ → Option β} {otherMake : τ → Option β}
    (same : ∀ value other, R value other → make value = otherMake other) :
    values.mapM make = others.mapM otherMake := by
  induction related with
  | nil => rfl
  | cons isRelated _ ih =>
    rw [List.mapM_cons, List.mapM_cons, same _ _ isRelated, ih]

theorem filter_forall₂ {σ τ : Type v} {R : σ → τ → Prop} {values : List σ} {others : List τ}
    (related : List.Forall₂ R values others) {keep : σ → Bool} {otherKeep : τ → Bool}
    (same : ∀ value other, R value other → keep value = otherKeep other) :
    List.Forall₂ R (values.filter keep) (others.filter otherKeep) := by
  induction related with
  | nil => exact .nil
  | @cons value other _ _ isRelated _ ih =>
    cases kept : otherKeep other with
    | true =>
      rw [List.filter_cons_of_pos ((same _ _ isRelated).trans kept), List.filter_cons_of_pos kept]
      exact .cons isRelated ih
    | false =>
      rw [List.filter_cons_of_neg (by rw [same _ _ isRelated, kept]; exact Bool.false_ne_true),
        List.filter_cons_of_neg (by rw [kept]; exact Bool.false_ne_true)]
      exact ih

/-! ## Entries that are there -/

/-- The entries that have a value. -/
def presentEntries {κ : Type u} (entries : List (κ × Option α)) : List (κ × α) :=
  entries.filterMap fun entry => entry.2.map fun value => (entry.1, value)

theorem keys_presentEntries {κ : Type u} (entries : List (κ × Option α)) {key : κ}
    (member : key ∈ (presentEntries entries).map Prod.fst) : key ∈ entries.map Prod.fst := by
  obtain ⟨entry, isEntry, rfl⟩ := List.mem_map.mp member
  obtain ⟨source, isSource, made⟩ := List.mem_filterMap.mp isEntry
  obtain ⟨value, -, rfl⟩ := Option.map_eq_some_iff.mp made
  exact List.mem_map_of_mem isSource

theorem lookup_presentEntries {κ : Type u} [BEq κ] [LawfulBEq κ] {entries : List (κ × Option α)}
    (unique : (entries.map Prod.fst).Nodup) (key : κ) :
    (presentEntries entries).lookup key = (entries.lookup key).join := by
  induction entries with
  | nil => rfl
  | cons entry rest ih =>
    rw [List.map_cons, List.nodup_cons] at unique
    have later := ih unique.2
    obtain ⟨name, given⟩ := entry
    by_cases same : key = name
    · subst same
      cases given with
      | none =>
        have absent : (presentEntries rest).lookup key = none :=
          lookup_eq_none_of_not_mem fun member => unique.1 (keys_presentEntries rest member)
        rw [List.lookup_cons_self]
        exact absent
      | some value =>
        rw [List.lookup_cons_self]
        exact List.lookup_cons_self
    · have different : (key == name) = false := beq_eq_false_iff_ne.mpr same
      cases given with
      | none =>
        rw [List.lookup_cons, different]
        exact later
      | some value =>
        have split : presentEntries ((name, some value) :: rest) = (name, value) :: presentEntries rest := rfl
        rw [split, List.lookup_cons, List.lookup_cons, different]
        exact later

end Mcplica.Library
