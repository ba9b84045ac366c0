import Mcplica.Library.Checks

/-! # Two computations side by side

A computation that raises less than another one, and what two computations return when both succeed. Each notion has
one rule for every way computations are put together. -/

namespace Mcplica.Library

universe u v

variable {ε : Type u} {α β : Type v}

/-! ## Extension -/

/-- Whatever the first computation returns, the second one returns as well. -/
def Extends (first second : Except ε α) : Prop :=
  ∀ value, first = .ok value → second = .ok value

theorem Extends.refl (result : Except ε α) : Extends result result :=
  fun _ returned => returned

theorem extends_of_eq {first second : Except ε α} (same : first = second) : Extends first second :=
  same ▸ Extends.refl first

theorem Extends.bind {first second : Except ε α} {rest others : α → Except ε β} (before : Extends first second)
    (after : ∀ value, Extends (rest value) (others value)) : Extends (first >>= rest) (second >>= others) := by
  intro value returned
  obtain ⟨middle, isMiddle, isValue⟩ := bind_eq_ok.mp returned
  exact bind_eq_ok.mpr ⟨middle, before middle isMiddle, after middle value isValue⟩

theorem Extends.mapError {first second : Except ε α} {change : ε → ε} (extension : Extends first second) :
    Extends (first.mapError change) (second.mapError change) := by
  intro value returned
  exact mapError_eq_ok.mpr (extension value (mapError_eq_ok.mp returned))

theorem extends_ite {condition : Prop} [Decidable condition] {first second rest others : Except ε α}
    (positive : Extends first second) (negative : Extends rest others) :
    Extends (if condition then first else rest) (if condition then second else others) := by
  split
  · exact positive
  · exact negative

theorem extends_mapM {values : List α} {make other : α → Except ε β} (each : ∀ value, Extends (make value) (other value)) :
    Extends (values.mapM make) (values.mapM other) := by
  induction values with
  | nil => exact Extends.refl _
  | cons value values ih =>
    rw [List.mapM_cons, List.mapM_cons]
    exact (each value).bind fun _ => ih.bind fun _ => Extends.refl _

theorem extends_foldlM {σ : Type v} {values : List α} {step other : σ → α → Except ε σ} (state : σ)
    (each : ∀ state value, Extends (step state value) (other state value)) :
    Extends (values.foldlM step state) (values.foldlM other state) := by
  induction values generalizing state with
  | nil => exact Extends.refl _
  | cons value values ih =>
    rw [List.foldlM_cons, List.foldlM_cons]
    exact (each state value).bind fun next => ih next

/-! ## Agreement -/

/-- Two computations raise the same error, or return values that look alike. -/
def Agrees {γ : Type v} (view : α → γ) (first second : Except ε α) : Prop :=
  first.map view = second.map view

section Agreement

variable {γ δ : Type v} {view : α → γ} {first second : Except ε α}

theorem Agrees.refl (view : α → γ) (result : Except ε α) : Agrees view result result :=
  rfl

theorem agrees_ok {value other : α} (same : view value = view other) : Agrees view (.ok value : Except ε α) (.ok other) :=
  congrArg Except.ok same

theorem Agrees.cases (agree : Agrees view first second) :
    (∃ error, first = .error error ∧ second = .error error) ∨
      ∃ value other, first = .ok value ∧ second = .ok other ∧ view value = view other := by
  unfold Agrees at agree
  cases first with
  | error error =>
    cases second with
    | error other =>
      cases agree
      exact .inl ⟨error, rfl, rfl⟩
    | ok other => cases agree
  | ok value =>
    cases second with
    | error other => cases agree
    | ok other => exact .inr ⟨value, other, rfl, rfl, Except.ok.inj agree⟩

theorem Agrees.bind {look : β → δ} {rest others : α → Except ε β} (before : Agrees view first second)
    (after : ∀ value other, view value = view other → Agrees look (rest value) (others other)) :
    Agrees look (first >>= rest) (second >>= others) := by
  rcases before.cases with ⟨error, rfl, rfl⟩ | ⟨value, other, rfl, rfl, same⟩
  · rfl
  · exact after value other same

theorem agrees_mapM {σ : Type u} {values : List σ} {make other : σ → Except ε α}
    (each : ∀ value ∈ values, Agrees view (make value) (other value)) :
    Agrees (List.map view) (values.mapM make) (values.mapM other) := by
  induction values with
  | nil => rfl
  | cons value values ih =>
    rw [List.mapM_cons, List.mapM_cons]
    refine (each value List.mem_cons_self).bind fun made alsoMade same => ?_
    refine (ih fun value later => each value (List.mem_cons_of_mem _ later)).bind fun rest others alike => ?_
    exact agrees_ok (by rw [List.map_cons, List.map_cons, same, alike])

end Agreement

end Mcplica.Library
