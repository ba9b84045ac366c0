import Mathlib.Algebra.BigOperators.Group.List.Basic
import Mathlib.Algebra.GroupWithZero.Nat
import Mcplica.Library.Table

/-! # What the rows of a table hold together

Every row holds an amount. The total changes with a row by what the row gives back and takes. -/

namespace Mcplica.Library.Table

universe u v

variable {ρ : Type u} {κ : Type v} [Row ρ κ]

def total (table : Table ρ) (amount : ρ → Nat) : Nat :=
  (table.rows.map amount).sum

variable {table inserted : Table ρ} {amount : ρ → Nat} {row : ρ}

@[simp] theorem total_empty : (empty : Table ρ).total amount = 0 := rfl

theorem total_insert [DecidableEq κ] (isInserted : table.insert row = some inserted) :
    inserted.total amount = table.total amount + amount row := by
  simp [total, rows_insert isInserted]

/-- The rows in front of a row and behind it have other keys. -/
theorem rows_split (member : row ∈ table) : ∃ before after, table.rows = before ++ row :: after ∧
    ∀ other, other ∈ before ∨ other ∈ after → Row.key other ≠ Row.key row := by
  obtain ⟨before, after, isSplit⟩ := List.append_of_mem (mem_rows.mpr member)
  refine ⟨before, after, isSplit, ?_⟩
  have unique := table.unique
  rw [isSplit, List.map_append, List.map_cons, List.nodup_append, List.nodup_cons] at unique
  obtain ⟨-, ⟨notAfter, -⟩, notBefore⟩ := unique
  rintro other (isBefore | isAfter) same
  · exact notBefore _ (List.mem_map_of_mem isBefore) _ List.mem_cons_self same
  · exact notAfter (same ▸ List.mem_map_of_mem isAfter)

theorem total_update [DecidableEq κ] (member : row ∈ table) {assign : ρ → ρ} {keeps} :
    (table.update (fun other => Row.key other = Row.key row) assign keeps).total amount + amount row =
      table.total amount + amount (assign row) := by
  obtain ⟨before, after, isSplit, apart⟩ := rows_split member
  have unchanged : ∀ rows : List ρ, (∀ other ∈ rows, Row.key other ≠ Row.key row) →
      (rows.map fun other => if decide (Row.key other = Row.key row) = true then assign other else other) = rows := by
    intro rows different
    conv => rhs; rw [← List.map_id rows]
    refine List.map_congr_left fun other isOther => ?_
    rw [decide_eq_false (different other isOther), if_neg Bool.false_ne_true]
    rfl
  have updated : (table.update (fun other => Row.key other = Row.key row) assign keeps).rows =
      before ++ assign row :: after := by
    show table.rows.map _ = _
    rw [isSplit, List.map_append, List.map_cons, unchanged before fun other isBefore => apart other (.inl isBefore),
      unchanged after fun other isAfter => apart other (.inr isAfter), if_pos (decide_eq_true rfl)]
  simp only [total, updated, isSplit, List.map_append, List.map_cons, List.sum_append, List.sum_cons]
  omega

/-- An assignment to other columns leaves the total as it is. -/
theorem total_update_of_eq {where_ : ρ → Bool} {assign : ρ → ρ} {keeps} (same : ∀ row, amount (assign row) = amount row) :
    (table.update where_ assign keeps).total amount = table.total amount := by
  have unchanged : (table.rows.map fun row => if where_ row then assign row else row).map amount = table.rows.map amount := by
    rw [List.map_map]
    refine List.map_congr_left fun row _ => ?_
    show amount (if where_ row then assign row else row) = amount row
    split
    · exact same row
    · rfl
  exact congrArg List.sum unchanged

theorem total_delete [DecidableEq κ] (member : row ∈ table) :
    (table.delete fun other => Row.key other = Row.key row).total amount + amount row = table.total amount := by
  obtain ⟨before, after, isSplit, apart⟩ := rows_split member
  have kept : ∀ rows : List ρ, (∀ other ∈ rows, Row.key other ≠ Row.key row) →
      rows.filter (fun other => !decide (Row.key other = Row.key row)) = rows := by
    intro rows different
    refine List.filter_eq_self.mpr fun other isOther => ?_
    rw [decide_eq_false (different other isOther)]
    rfl
  have deleted : (table.delete fun other => Row.key other = Row.key row).rows = before ++ after := by
    show table.rows.filter _ = _
    rw [isSplit, List.filter_append, List.filter_cons_of_neg (by simp),
      kept before fun other isBefore => apart other (.inl isBefore),
      kept after fun other isAfter => apart other (.inr isAfter)]
  simp only [total, deleted, isSplit, List.map_append, List.map_cons, List.sum_append, List.sum_cons]
  omega

end Mcplica.Library.Table
