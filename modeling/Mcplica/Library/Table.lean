import Mathlib.Data.List.Nodup
import Mathlib.Data.List.Sort
import Mathlib.Data.List.Perm.Subperm
import Mathlib.Tactic.Common

/-! # Tables with a primary key

A table is a list of rows in insertion order whose keys are pairwise different. The operations are
the statements a repository issues: a lookup by key, `UPDATE … WHERE`, `INSERT`, `SELECT … WHERE` and
`DELETE … WHERE`. Every operation has one lemma that says what a lookup finds afterwards, and callers
reason through these lemmas only. -/

namespace Mcplica.Library

universe u v

/-- A row type with the column that is its primary key. -/
class Row (ρ : Type u) (κ : outParam (Type v)) where
  key : ρ → κ

structure Table (ρ : Type u) {κ : Type v} [Row ρ κ] where
  rows : List ρ
  unique : (rows.map Row.key).Nodup

namespace Table

variable {ρ : Type u} {κ : Type v} [Row ρ κ]

instance : Membership ρ (Table ρ) where
  mem table row := row ∈ table.rows

theorem mem_rows {table : Table ρ} {row : ρ} : row ∈ table.rows ↔ row ∈ table := Iff.rfl

def empty : Table ρ := ⟨[], List.nodup_nil⟩

@[simp] theorem not_mem_empty (row : ρ) : row ∉ (empty : Table ρ) := List.not_mem_nil

@[ext] theorem ext {left right : Table ρ} (h : left.rows = right.rows) : left = right := by
  cases left
  cases right
  cases h
  rfl

/-- Two rows of a table with the same key are the same row. -/
theorem eq_of_key {table : Table ρ} {row other : ρ} (hrow : row ∈ table) (hother : other ∈ table)
    (hkey : Row.key row = Row.key other) : row = other :=
  List.inj_on_of_nodup_map table.unique hrow hother hkey

/-! ## Lookup -/

section Lookup

variable [DecidableEq κ]

def get? (table : Table ρ) (key : κ) : Option ρ :=
  table.rows.find? fun row => Row.key row = key

theorem get?_eq_some {table : Table ρ} {key : κ} {row : ρ} :
    table.get? key = some row ↔ row ∈ table ∧ Row.key row = key := by
  constructor
  · intro found
    exact ⟨List.mem_of_find?_eq_some found, by simpa using List.find?_some found⟩
  · rintro ⟨member, rfl⟩
    cases found : table.get? (Row.key row) with
    | none =>
      have absent := List.find?_eq_none.mp found row member
      simp at absent
    | some other =>
      have hkey : Row.key other = Row.key row := by simpa using List.find?_some found
      rw [eq_of_key (List.mem_of_find?_eq_some found) member hkey]

theorem get?_of_mem {table : Table ρ} {row : ρ} (member : row ∈ table) :
    table.get? (Row.key row) = some row :=
  get?_eq_some.mpr ⟨member, rfl⟩

theorem mem_of_get? {table : Table ρ} {key : κ} {row : ρ} (found : table.get? key = some row) :
    row ∈ table :=
  (get?_eq_some.mp found).1

theorem key_of_get? {table : Table ρ} {key : κ} {row : ρ} (found : table.get? key = some row) :
    Row.key row = key :=
  (get?_eq_some.mp found).2

theorem get?_eq_none {table : Table ρ} {key : κ} :
    table.get? key = none ↔ ∀ row ∈ table, Row.key row ≠ key := by
  simp [get?, List.find?_eq_none, mem_rows]

@[simp] theorem get?_empty (key : κ) : (empty : Table ρ).get? key = none := rfl

end Lookup

/-! ## Update -/

/-- `UPDATE … SET … WHERE`: the assignment may not touch the primary key. -/
def update (table : Table ρ) (where_ : ρ → Bool) (assign : ρ → ρ)
    (keeps : ∀ row, Row.key (assign row) = Row.key row := by intro _; rfl) : Table ρ where
  rows := table.rows.map fun row => if where_ row then assign row else row
  unique := by
    have hkeys : (table.rows.map fun row => if where_ row then assign row else row).map Row.key =
        table.rows.map Row.key := by
      rw [List.map_map]
      apply List.map_congr_left
      intro row _
      simp only [Function.comp_apply]
      split
      · exact keeps row
      · rfl
    rw [hkeys]
    exact table.unique

theorem mem_update {table : Table ρ} {where_ : ρ → Bool} {assign : ρ → ρ} {keeps} {row : ρ} :
    row ∈ table.update where_ assign keeps ↔
      ∃ old ∈ table, row = if where_ old then assign old else old := by
  simp only [← mem_rows, update, List.mem_map]
  constructor <;> rintro ⟨old, member, h⟩ <;> exact ⟨old, member, h.symm⟩

theorem mem_update_of_mem {table : Table ρ} {where_ : ρ → Bool} {assign : ρ → ρ} {row : ρ} (member : row ∈ table)
    (keeps : ∀ row, Row.key (assign row) = Row.key row := by intro _; rfl) :
    (if where_ row then assign row else row) ∈ table.update where_ assign keeps :=
  mem_update.mpr ⟨row, member, rfl⟩

theorem update_eq_self {table : Table ρ} {where_ : ρ → Bool} {assign : ρ → ρ} {keeps}
    (nothing : ∀ row ∈ table, where_ row = false) : table.update where_ assign keeps = table := by
  apply Table.ext
  simp only [update]
  conv => rhs; rw [← List.map_id table.rows]
  apply List.map_congr_left
  intro row member
  simp [nothing row member]

theorem get?_update [DecidableEq κ] {table : Table ρ} {where_ : ρ → Bool} {assign : ρ → ρ} {keeps}
    {key : κ} :
    (table.update where_ assign keeps).get? key =
      (table.get? key).map fun row => if where_ row then assign row else row := by
  simp only [get?, update, List.find?_map]
  congr 1
  apply congrArg (fun test => List.find? test table.rows)
  funext row
  simp only [Function.comp_apply]
  split
  · rw [keeps row]
  · rfl

/-! ## Insertion and deletion -/

/-- `INSERT`: a row whose key is taken is refused. -/
def insert [DecidableEq κ] (table : Table ρ) (row : ρ) : Option (Table ρ) :=
  if taken : Row.key row ∈ table.rows.map Row.key then
    none
  else
    some ⟨table.rows ++ [row], by
      rw [List.map_append, List.map_singleton, List.nodup_append]
      refine ⟨table.unique, List.nodup_singleton _, ?_⟩
      intro key member other hother
      rw [List.mem_singleton] at hother
      rintro rfl
      exact taken (hother ▸ member)⟩

section Insert

variable [DecidableEq κ] {table inserted : Table ρ} {row : ρ}

theorem rows_insert (h : table.insert row = some inserted) : inserted.rows = table.rows ++ [row] := by
  unfold insert at h
  split at h
  · cases h
  · cases h
    rfl

theorem key_of_insert (h : table.insert row = some inserted) : table.get? (Row.key row) = none := by
  unfold insert at h
  split at h
  · cases h
  · rename_i free
    rw [get?_eq_none]
    intro other member same
    exact free (List.mem_map.mpr ⟨other, member, same⟩)

theorem mem_insert (h : table.insert row = some inserted) {other : ρ} :
    other ∈ inserted ↔ other ∈ table ∨ other = row := by
  rw [← mem_rows, rows_insert h, List.mem_append, List.mem_singleton, mem_rows]

theorem get?_insert (h : table.insert row = some inserted) (key : κ) :
    inserted.get? key = if Row.key row = key then some row else table.get? key := by
  split
  · rename_i same
    exact get?_eq_some.mpr ⟨(mem_insert h).mpr (.inr rfl), same⟩
  · rename_i different
    simp [get?, rows_insert h, List.find?_append, different]

end Insert

/-- `DELETE … WHERE`. -/
def delete (table : Table ρ) (where_ : ρ → Bool) : Table ρ where
  rows := table.rows.filter fun row => !where_ row
  unique := table.unique.sublist (List.filter_sublist.map _)

theorem mem_delete {table : Table ρ} {where_ : ρ → Bool} {row : ρ} :
    row ∈ table.delete where_ ↔ row ∈ table ∧ where_ row = false := by
  simp [← mem_rows, delete]

/-! ## Queries -/

/-- `SELECT EXISTS (… WHERE …)`. -/
def exists_ (table : Table ρ) (where_ : ρ → Bool) : Bool :=
  table.rows.any where_

theorem exists_iff {table : Table ρ} {where_ : ρ → Bool} :
    table.exists_ where_ = true ↔ ∃ row ∈ table, where_ row = true := by
  simp [exists_, mem_rows]

theorem exists_eq_false {table : Table ρ} {where_ : ρ → Bool} :
    table.exists_ where_ = false ↔ ∀ row ∈ table, where_ row = false := by
  simp [exists_, mem_rows]

/-- `SELECT count(*) … WHERE …`. -/
def count (table : Table ρ) (where_ : ρ → Bool) : Nat :=
  table.rows.countP where_

/-- Rows satisfy the condition after a rewrite only if they satisfied another one before, and no added
row does. -/
theorem count_le_of_rewrite {table next : Table ρ} {rewrite : ρ → ρ} {added : List ρ} {where_ other : ρ → Bool}
    (rows : next.rows = table.rows.map rewrite ++ added)
    (implies : ∀ row ∈ table, where_ (rewrite row) = true → other row = true)
    (fresh : ∀ row ∈ added, where_ row = false) : next.count where_ ≤ table.count other := by
  have none : added.countP where_ = 0 := by
    rw [List.countP_eq_zero]
    intro row member satisfied
    rw [fresh row member] at satisfied
    cases satisfied
  unfold count
  rw [rows, List.countP_append, List.countP_map, none, Nat.add_zero]
  exact List.countP_mono_left implies

/-- Rows that satisfy a condition satisfy another one after a rewrite. -/
theorem count_le_rewrite {table next : Table ρ} {rewrite : ρ → ρ} {where_ other : ρ → Bool}
    (rows : next.rows = table.rows.map rewrite)
    (implies : ∀ row ∈ table, where_ row = true → other (rewrite row) = true) :
    table.count where_ ≤ next.count other := by
  unfold count
  rw [rows, List.countP_map]
  exact List.countP_mono_left implies

theorem count_mono {table : Table ρ} {where_ other : ρ → Bool}
    (implies : ∀ row ∈ table, where_ row = true → other row = true) : table.count where_ ≤ table.count other :=
  List.countP_mono_left implies

/-- Of two conditions, one of which implies the other, as many rows meet both when every row does. -/
theorem count_eq_count_iff {table : Table ρ} {outer inner : ρ → Bool} (implies : ∀ row, inner row = true → outer row = true) :
    table.count outer = table.count inner ↔ ∀ row ∈ table, outer row = true → inner row = true := by
  show table.rows.countP outer = table.rows.countP inner ↔ ∀ row ∈ table.rows, outer row = true → inner row = true
  induction table.rows with
  | nil => simp
  | cons row rows ih =>
    have fewer : rows.countP inner ≤ rows.countP outer := List.countP_mono_left fun other _ => implies other
    simp only [List.countP_cons, List.forall_mem_cons, ← ih]
    cases isOuter : outer row <;> cases isInner : inner row
    · simp
    · rw [implies row isInner] at isOuter
      cases isOuter
    · simp
      omega
    · simp

theorem count_or_le (table : Table ρ) (where_ other : ρ → Bool) :
    table.count (fun row => where_ row || other row) ≤ table.count where_ + table.count other := by
  unfold count
  induction table.rows with
  | nil => simp
  | cons row rows ih =>
    simp only [List.countP_cons]
    cases where_ row <;> cases other row <;> simp <;> omega

/-- Keys are unique, so no more rows than listed keys have one of them. -/
theorem count_keys_le [DecidableEq κ] (table : Table ρ) (keys : List κ) :
    table.count (fun row => keys.contains (Row.key row)) ≤ keys.length := by
  unfold count
  rw [List.countP_eq_length_filter, ← List.length_map Row.key]
  refine (List.subperm_of_subset (table.unique.sublist (List.filter_sublist.map _)) ?_).length_le
  intro key member
  obtain ⟨row, selected, rfl⟩ := List.mem_map.mp member
  simpa using (List.mem_filter.mp selected).2

/-- Of a condition that one row at most meets. -/
theorem count_eq_one_iff [DecidableEq κ] {table : Table ρ} {where_ : ρ → Bool}
    (atMost : ∀ row ∈ table, ∀ other ∈ table, where_ row = true → where_ other = true → Row.key row = Row.key other) :
    table.count where_ = 1 ↔ ∃ row ∈ table, where_ row = true := by
  constructor
  · intro one
    exact List.countP_pos_iff.mp (by rw [count] at one; omega)
  · rintro ⟨row, member, holds⟩
    have positive : 0 < table.count where_ := List.countP_pos_iff.mpr ⟨row, member, holds⟩
    have bounded : table.count where_ ≤ table.count fun other => [Row.key row].contains (Row.key other) := by
      apply count_mono
      intro other isOther otherHolds
      simp [atMost row member other isOther holds otherHolds]
    have single := bounded.trans (count_keys_le table [Row.key row])
    rw [List.length_singleton] at single
    omega

/-- `SELECT … WHERE … ORDER BY … LIMIT`. -/
def select (table : Table ρ) (where_ : ρ → Bool) (before : ρ → ρ → Bool) (limit : Nat) : List ρ :=
  ((table.rows.filter where_).insertionSort fun left right => before left right = true).take limit

theorem mem_of_mem_select {table : Table ρ} {where_ : ρ → Bool} {before : ρ → ρ → Bool} {limit : Nat}
    {row : ρ} (member : row ∈ table.select where_ before limit) : row ∈ table ∧ where_ row = true := by
  have sorted := List.mem_of_mem_take member
  rw [List.mem_insertionSort, List.mem_filter] at sorted
  exact sorted

theorem length_select_le (table : Table ρ) (where_ : ρ → Bool) (before : ρ → ρ → Bool) (limit : Nat) :
    (table.select where_ before limit).length ≤ limit :=
  List.length_take_le limit _

/-- A rewrite of the rows that the query cannot see rewrites its result. -/
theorem select_map {table next : Table ρ} {rewrite : ρ → ρ} {where_ : ρ → Bool} {before : ρ → ρ → Bool}
    (rows : next.rows = table.rows.map rewrite) (kept : ∀ row, where_ (rewrite row) = where_ row)
    (ordered : ∀ left right, before (rewrite left) (rewrite right) = before left right) (limit : Nat) :
    next.select where_ before limit = (table.select where_ before limit).map rewrite := by
  have predicate : where_ ∘ rewrite = where_ := funext kept
  have sorted := List.map_insertionSort (fun left right => before left right = true)
    (fun left right => before left right = true) rewrite (table.rows.filter where_) (by
      intro left _ right _
      rw [ordered])
  unfold select
  rw [rows, List.filter_map, predicate, List.map_take, sorted]

theorem select_keys_nodup (table : Table ρ) (where_ : ρ → Bool) (before : ρ → ρ → Bool) (limit : Nat) :
    ((table.select where_ before limit).map Row.key).Nodup := by
  have filtered : ((table.rows.filter where_).map Row.key).Nodup :=
    table.unique.sublist (List.filter_sublist.map _)
  have sorted := ((List.perm_insertionSort (fun left right => before left right = true)
    (table.rows.filter where_)).map Row.key).nodup_iff.mpr filtered
  exact sorted.sublist ((List.take_sublist _ _).map _)

section Limit

variable {table : Table ρ} {where_ : ρ → Bool} {before : ρ → ρ → Bool} {limit : Nat}

/-- The rows that meet the condition, in the order of the query. -/
def ordered (table : Table ρ) (where_ : ρ → Bool) (before : ρ → ρ → Bool) : List ρ :=
  (table.rows.filter where_).insertionSort fun left right => before left right = true

theorem mem_ordered {row : ρ} : row ∈ table.ordered where_ before ↔ row ∈ table ∧ where_ row = true := by
  rw [ordered, List.mem_insertionSort, List.mem_filter, mem_rows]

theorem length_ordered (table : Table ρ) (where_ : ρ → Bool) (before : ρ → ρ → Bool) :
    (table.ordered where_ before).length = table.count where_ := by
  rw [ordered, List.length_insertionSort, count, List.countP_eq_length_filter]

theorem length_select (table : Table ρ) (where_ : ρ → Bool) (before : ρ → ρ → Bool) (limit : Nat) :
    (table.select where_ before limit).length = min limit (table.count where_) := by
  show ((table.ordered where_ before).take limit).length = min limit (table.count where_)
  rw [List.length_take, length_ordered]

theorem nodup_ordered (table : Table ρ) (where_ : ρ → Bool) (before : ρ → ρ → Bool) :
    (table.ordered where_ before).Nodup :=
  (List.perm_insertionSort _ _).nodup_iff.mpr ((List.Nodup.of_map _ table.unique).filter _)

/-- A limit that is not exceeded leaves nothing out. -/
theorem mem_select_of_count_le (fits : table.count where_ ≤ limit) {row : ρ} :
    row ∈ table.select where_ before limit ↔ row ∈ table ∧ where_ row = true := by
  show row ∈ (table.ordered where_ before).take limit ↔ _
  rw [List.take_of_length_le (by rw [length_ordered]; exact fits), mem_ordered]

/-- What lies behind the limit is left out. -/
theorem not_mem_select_of_mem_drop {row : ρ} (later : row ∈ (table.ordered where_ before).drop limit) :
    row ∉ table.select where_ before limit := by
  intro selected
  have distinct := nodup_ordered table where_ before
  rw [← List.take_append_drop limit (table.ordered where_ before), List.nodup_append] at distinct
  exact distinct.2.2 row selected row later rfl

theorem exists_not_mem_select (before : ρ → ρ → Bool) (many : limit < table.count where_) :
    ∃ row ∈ table, where_ row = true ∧ row ∉ table.select where_ before limit := by
  have longer : limit < (table.ordered where_ before).length := by rw [length_ordered]; exact many
  have later : (table.ordered where_ before)[limit] ∈ (table.ordered where_ before).drop limit := by
    rw [List.drop_eq_getElem_cons longer]
    exact List.mem_cons_self
  obtain ⟨member, selected⟩ := mem_ordered.mp (List.mem_of_mem_drop later)
  exact ⟨_, member, selected, not_mem_select_of_mem_drop later⟩

/-- A row that comes before no other one is the first to be left out. -/
theorem last_not_mem_select [Std.Total fun left right : ρ => before left right = true]
    [IsTrans ρ fun left right => before left right = true] (many : limit < table.count where_) {row : ρ}
    (last : ∀ other ∈ table, where_ other = true → before row other = true → other = row) :
    row ∉ table.select where_ before limit := by
  obtain ⟨other, later⟩ : ∃ other, other ∈ (table.ordered where_ before).drop limit := by
    have longer : limit < (table.ordered where_ before).length := by rw [length_ordered]; exact many
    rw [List.drop_eq_getElem_cons longer]
    exact ⟨_, List.mem_cons_self⟩
  intro selected
  have sorted : (table.ordered where_ before).Pairwise fun left right => before left right = true :=
    List.pairwise_insertionSort _ _
  rw [← List.take_append_drop limit (table.ordered where_ before), List.pairwise_append] at sorted
  obtain ⟨member, matching⟩ := mem_ordered.mp (List.mem_of_mem_drop later)
  have same := last other member matching (sorted.2.2 row selected other later)
  exact not_mem_select_of_mem_drop later (same ▸ selected)

/-- A row that no other one comes before is the first of the query. -/
theorem head_select [Std.Total fun left right : ρ => before left right = true]
    [IsTrans ρ fun left right => before left right = true] {row : ρ} (member : row ∈ table) (matching : where_ row = true)
    (first : ∀ other ∈ table, where_ other = true → before other row = true → other = row) :
    (table.select where_ before 1).head? = some row := by
  have sorted : (table.ordered where_ before).Pairwise fun left right => before left right = true :=
    List.pairwise_insertionSort _ _
  have isOrdered : row ∈ table.ordered where_ before := mem_ordered.mpr ⟨member, matching⟩
  show ((table.ordered where_ before).take 1).head? = some row
  cases isList : table.ordered where_ before with
  | nil =>
    rw [isList] at isOrdered
    cases isOrdered
  | cons head rest =>
    rw [isList] at sorted isOrdered
    rw [List.take_succ_cons, List.head?_cons]
    rcases List.mem_cons.mp isOrdered with same | later
    · rw [same]
    · have isHead : head ∈ table.ordered where_ before := isList ▸ List.mem_cons_self
      obtain ⟨headMember, headMatching⟩ := mem_ordered.mp isHead
      rw [first head headMember headMatching ((List.pairwise_cons.mp sorted).1 row later)]

/-- The query finds a row if one meets the condition. -/
theorem head_select_isSome {row : ρ} (member : row ∈ table) (matching : where_ row = true) :
    (table.select where_ before 1).head?.isSome = true := by
  have isOrdered : row ∈ table.ordered where_ before := mem_ordered.mpr ⟨member, matching⟩
  show ((table.ordered where_ before).take 1).head?.isSome = true
  cases isList : table.ordered where_ before with
  | nil =>
    rw [isList] at isOrdered
    cases isOrdered
  | cons _ _ => rfl

/-- Behind the first row of a query are the rows that another one comes before. -/
theorem mem_tail_ordered [Std.Total fun left right : ρ => before left right = true]
    [IsTrans ρ fun left right => before left right = true] {row : ρ}
    (antisymm : ∀ left right, before left right = true → before right left = true → Row.key left = Row.key right) :
    row ∈ (table.ordered where_ before).tail ↔ (row ∈ table ∧ where_ row = true) ∧
      ∃ other ∈ table, where_ other = true ∧ Row.key other ≠ Row.key row ∧ before other row = true := by
  have sorted : (table.ordered where_ before).Pairwise fun left right => before left right = true :=
    List.pairwise_insertionSort _ _
  have distinct := nodup_ordered table where_ before
  have members : ∀ other, other ∈ table.ordered where_ before ↔ other ∈ table ∧ where_ other = true :=
    fun _ => mem_ordered
  cases isList : table.ordered where_ before with
  | nil =>
    simp only [isList, List.not_mem_nil, false_iff] at members
    simp only [List.tail_nil, List.not_mem_nil, false_iff]
    exact fun both => members row both.1
  | cons head rest =>
    rw [isList] at sorted distinct members
    rw [List.tail_cons, ← members row]
    rw [List.pairwise_cons] at sorted
    rw [List.nodup_cons] at distinct
    have headMember := (members head).mp List.mem_cons_self
    constructor
    · intro later
      have isRow := (members row).mp (List.mem_cons_of_mem _ later)
      exact ⟨List.mem_cons_of_mem _ later, head, headMember.1, headMember.2,
        fun same => distinct.1 (eq_of_key headMember.1 isRow.1 same ▸ later), sorted.1 row later⟩
    · intro later
      obtain ⟨isRow, other, isOther, otherMatching, different, earlier⟩ := later
      rcases List.mem_cons.mp isRow with rfl | behind
      · rcases List.mem_cons.mp ((members other).mpr ⟨isOther, otherMatching⟩) with same | behind
        · exact absurd (congrArg Row.key same) different
        · exact absurd (antisymm other row earlier (sorted.1 other behind)) different
      · exact behind

/-- Rows that were inserted in the order of the query come in the order of the table. -/
theorem ordered_eq_filter (sorted : (table.rows.filter where_).Pairwise fun left right => before left right = true) :
    table.ordered where_ before = table.rows.filter where_ :=
  sorted.insertionSort_eq

end Limit

end Table

end Mcplica.Library
