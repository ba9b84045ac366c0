import Mathlib.Logic.Relation
import Mathlib.Tactic.Common

/-! # Targets out of reach

A relation `edge` says where a node may hand over to, `live` which nodes are acting and `held` which of
the live ones cannot act yet. A target is guarded when every live node that could reach it is held. The
rules below say which changes of the three predicates keep a target guarded. -/

namespace Mcplica.Library

open Relation

variable {α : Type*}

/-- Every live node from which the target can be reached is held. -/
def Guarded (edge : α → α → Prop) (live held : α → Prop) (target : α) : Prop :=
  ∀ source, live source → TransGen edge source target → held source

variable {edge edge' : α → α → Prop} {live live' held held' : α → Prop} {target : α}

theorem not_transGen_of_no_edge {source : α} (isolated : ∀ next, ¬ edge source next) :
    ¬ TransGen edge source target := by
  intro path
  obtain ⟨next, first, -⟩ := TransGen.head'_iff.mp path
  exact isolated next first

/-- Edges only disappear, a node that becomes live was reachable from one that acts, and a held node
stays held as long as it has an edge. -/
theorem Guarded.step (guarded : Guarded edge live held target)
    (edges : ∀ source next, edge' source next → edge source next)
    (lives : ∀ source, live' source → live source ∨ ∃ origin, live origin ∧ ¬ held origin ∧ edge origin source)
    (holds : ∀ source, held source → live' source → held' source ∨ ∀ next, ¬ edge' source next) :
    Guarded edge' live' held' target := by
  intro source isLive path
  have oldPath : TransGen edge source target := TransGen.mono (fun _ _ => edges _ _) _ _ path
  rcases lives source isLive with wasLive | ⟨origin, originLive, notHeld, first⟩
  · rcases holds source (guarded source wasLive oldPath) isLive with held | isolated
    · exact held
    · exact absurd path (not_transGen_of_no_edge isolated)
  · exact absurd (guarded origin originLive (TransGen.head first oldPath)) notHeld

/-- A new node that nothing leads to keeps the target guarded if what it leads to was live and not
held, unless that is the target itself and the new node is held. -/
theorem Guarded.extend (new old : α) (guarded : Guarded edge live held target)
    (edges : ∀ source next, edge' source next → edge source next ∨ source = new ∧ next = old)
    (unreached : ∀ source, ¬ edge source new)
    (lives : ∀ source, live' source → live source ∨ source = new)
    (isolated : ∀ next, ¬ edge new next)
    (keeps : ∀ source, held source → held' source)
    (oldLive : edge' new old → live old ∧ ¬ held old)
    (itself : edge' new old → old = target → held' new)
    (different : old ≠ new) : Guarded edge' live' held' target := by
  have older : ∀ source, source ≠ new → ∀ last, TransGen edge' source last → TransGen edge source last := by
    intro source notNew last path
    induction path with
    | single first =>
      rcases edges _ _ first with known | ⟨rfl, -⟩
      · exact .single known
      · exact absurd rfl notNew
    | tail _ last ih =>
      rcases edges _ _ last with known | ⟨rfl, -⟩
      · exact .tail ih known
      · obtain ⟨middle, -, into⟩ := TransGen.tail'_iff.mp ih
        exact absurd into (unreached middle)
  intro source isLive path
  by_cases isNew : source = new
  · subst isNew
    obtain ⟨next, first, rest⟩ := TransGen.head'_iff.mp path
    rcases edges _ _ first with known | ⟨-, rfl⟩
    · exact absurd known (isolated next)
    · obtain ⟨nextLive, notHeld⟩ := oldLive first
      rcases ReflTransGen.cases_head rest with same | ⟨after, second, rest⟩
      · exact itself first same
      · have tail := older next different target (TransGen.head' second rest)
        exact absurd (guarded next nextLive tail) notHeld
  · rcases lives source isLive with wasLive | rfl
    · exact keeps source (guarded source wasLive (older source isNew target path))
    · exact absurd rfl isNew

end Mcplica.Library
