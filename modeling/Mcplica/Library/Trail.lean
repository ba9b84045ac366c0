import Mathlib.Data.List.Perm.Subperm
import Mathlib.Data.List.Nodup

/-! # Trails

A search that follows one link after the other and marks where it has been. It stops where there is no link or where
the link leads to a mark it has left. -/

namespace Mcplica.Library

universe u v

variable {α : Type u} {ι : Type v} {next : α → Option (ι × α)} {start place other : α} {visited marks : List ι}

/-- The places that the search comes to, each with the marks it has left by then. -/
inductive Trail (next : α → Option (ι × α)) (start : α) : List ι → α → Prop
  | start : Trail next start [] start
  | more {visited : List ι} {place other : α} {mark : ι} (trail : Trail next start visited place)
      (leads : next place = some (mark, other)) (isNew : mark ∉ visited) : Trail next start (mark :: visited) other

/-- The search goes no further. -/
def Stops (next : α → Option (ι × α)) (visited : List ι) (place : α) : Prop :=
  ∀ mark other, next place = some (mark, other) → mark ∈ visited

theorem Trail.nodup (trail : Trail next start visited place) : visited.Nodup := by
  induction trail with
  | start => exact List.nodup_nil
  | more _ _ isNew ih => exact List.nodup_cons.mpr ⟨isNew, ih⟩

/-- Two trails of one length are the same. -/
theorem Trail.unique {others : List ι} (first : Trail next start visited place) :
    ∀ {other : α}, Trail next start others other → visited.length = others.length → visited = others ∧ place = other := by
  induction first generalizing others with
  | start =>
    intro other second same
    cases second with
    | start => exact ⟨rfl, rfl⟩
    | more _ _ _ => cases same
  | more _ leads _ ih =>
    intro other second same
    cases second with
    | start => cases same
    | more earlier otherLeads _ =>
      obtain ⟨rfl, rfl⟩ := ih earlier (Nat.succ.inj same)
      rw [leads, Option.some.injEq, Prod.mk.injEq] at otherLeads
      obtain ⟨rfl, rfl⟩ := otherLeads
      exact ⟨rfl, rfl⟩

/-- A trail that is shorter than another goes further. -/
theorem Trail.not_stops_of_longer {others : List ι} (first : Trail next start visited place)
    (second : Trail next start others other) : visited.length < others.length → ¬ Stops next visited place := by
  induction second with
  | start =>
    intro longer
    cases longer
  | more earlier leads isNew ih =>
    intro longer stops
    rcases Nat.lt_or_eq_of_le (Nat.le_of_lt_succ longer) with shorter | same
    · exact ih shorter stops
    · obtain ⟨rfl, rfl⟩ := first.unique earlier same
      exact isNew (stops _ _ leads)

/-- The search stops at one place only. -/
theorem Trail.stop_unique {others : List ι} (first : Trail next start visited place) (stops : Stops next visited place)
    (second : Trail next start others other) (otherStops : Stops next others other) :
    visited = others ∧ place = other := by
  rcases Nat.lt_trichotomy visited.length others.length with shorter | same | longer
  · exact absurd stops (first.not_stops_of_longer second shorter)
  · exact first.unique second same
  · exact absurd otherStops (second.not_stops_of_longer first longer)

/-- With finitely many marks the search stops: what holds where it stops and is carried back along every link holds
wherever it comes. -/
theorem Trail.induction_back (holds : List ι → α → Prop)
    (within : ∀ {visited : List ι} {place : α}, Trail next start visited place → visited ⊆ marks)
    (atStop : ∀ {visited : List ι} {place : α}, Trail next start visited place → Stops next visited place →
      holds visited place)
    (back : ∀ {visited : List ι} {place other : α} {mark : ι}, Trail next start visited place →
      next place = some (mark, other) → mark ∉ visited → holds (mark :: visited) other → holds visited place)
    (trail : Trail next start visited place) : holds visited place := by
  -- The number of marks that are not left yet goes down with every link.
  generalize isLeft : marks.length - visited.length = left
  induction left generalizing visited place with
  | zero =>
    refine atStop trail fun mark other leads => ?_
    by_contra isNew
    have longer := Trail.more trail leads isNew
    have fits := (List.subperm_of_subset longer.nodup (within longer)).length_le
    rw [List.length_cons] at fits
    omega
  | succ left ih =>
    by_cases stops : Stops next visited place
    · exact atStop trail stops
    · simp only [Stops, not_forall] at stops
      obtain ⟨mark, other, leads, isNew⟩ := stops
      refine back trail leads isNew (ih (.more trail leads isNew) ?_)
      rw [List.length_cons]
      omega

end Mcplica.Library
