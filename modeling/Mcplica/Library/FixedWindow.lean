import Mathlib.Data.List.Induction
import Mathlib.Tactic.Common

/-! # Counting in fixed windows

A counter of requests that is forgotten a fixed time after its first one. A request is within the limit when the counter
has not passed it. -/

namespace Mcplica.Library.FixedWindow

structure Counter where
  count : Nat
  expiresAt : Nat
  deriving Repr, DecidableEq

section

variable (limit window : Nat)

/-- A request at the time: the first one opens a window. -/
def hit (counter : Option Counter) (now : Nat) : Counter :=
  match counter with
  | some counter => if now < counter.expiresAt then { counter with count := counter.count + 1 } else ⟨1, now + window⟩
  | none => ⟨1, now + window⟩

def after (counter : Option Counter) (times : List Nat) : Option Counter :=
  times.foldl (fun counter now => some (hit window counter now)) counter

/-- The requests, each with whether it is within the limit. -/
def decisions (counter : Option Counter) : List Nat → List (Nat × Bool)
  | [] => []
  | now :: later => (now, decide ((hit window counter now).count ≤ limit)) ::
      decisions (some (hit window counter now)) later

end

def inInterval (first last time : Nat) : Bool :=
  decide (first ≤ time) && decide (time < last)

/-- A request within the limit, at a time of some kind. -/
def admitted (holds : Nat → Bool) (decision : Nat × Bool) : Bool :=
  decision.2 && holds decision.1

variable {limit window : Nat} {counter : Option Counter}

theorem decisions_append (before later : List Nat) : decisions limit window counter (before ++ later) =
    decisions limit window counter before ++ decisions limit window (after window counter before) later := by
  induction before generalizing counter with
  | nil => rfl
  | cons now before ih =>
    show _ :: decisions limit window _ (before ++ later) = _ :: (_ ++ _)
    rw [ih]
    rfl

theorem fst_decisions (times : List Nat) : (decisions limit window counter times).map Prod.fst = times := by
  induction times generalizing counter with
  | nil => rfl
  | cons now later ih => exact congrArg (now :: ·) ih

/-! ## At most twice the limit in any interval -/

theorem countP_eq_zero_of_late {first last : Nat} {times : List Nat} (late : ∀ time ∈ times, last ≤ time) :
    (decisions limit window counter times).countP (admitted (inInterval first last)) = 0 := by
  refine List.countP_eq_zero.mpr fun decision member isAdmitted => ?_
  simp only [admitted, inInterval, Bool.and_eq_true, decide_eq_true_eq] at isAdmitted
  have listed := List.mem_map_of_mem (f := Prod.fst) member
  rw [fst_decisions] at listed
  exact absurd isAdmitted.2.2 (Nat.not_lt.mpr (late _ listed))

/-- While its window lasts, a counter lets through what is left of the limit. -/
theorem countP_of_open {counter : Counter} {first last : Nat} {times : List Nat} (sorted : times.Pairwise (· ≤ ·))
    (isOpen : last ≤ counter.expiresAt) :
    (decisions limit window (some counter) times).countP (admitted (inInterval first last)) ≤ limit - counter.count := by
  induction times generalizing counter with
  | nil => exact Nat.zero_le _
  | cons now later ih =>
    obtain ⟨earliest, sorted⟩ := List.pairwise_cons.mp sorted
    by_cases isLate : last ≤ now
    · rw [countP_eq_zero_of_late]
      · exact Nat.zero_le _
      · exact List.forall_mem_cons.mpr ⟨isLate, fun time member => Nat.le_trans isLate (earliest time member)⟩
    · have isHit : hit window (some counter) now = { counter with count := counter.count + 1 } := if_pos (by omega)
      have rest := @ih { counter with count := counter.count + 1 } sorted isOpen
      rw [decisions, isHit, List.countP_cons]
      dsimp only at rest
      split
      · rename_i isAdmitted
        simp only [admitted, inInterval, Bool.and_eq_true, decide_eq_true_eq] at isAdmitted
        omega
      · omega

theorem countP_of_late {first : Nat} {times : List Nat} (sorted : times.Pairwise (· ≤ ·)) (late : ∀ time ∈ times, first ≤ time) :
    (decisions limit window counter times).countP (admitted (inInterval first (first + window))) ≤
      (counter.elim 0 fun counter => limit - counter.count) + limit := by
  induction times generalizing counter with
  | nil => exact Nat.zero_le _
  | cons now later ih =>
    obtain ⟨earliest, sorted⟩ := List.pairwise_cons.mp sorted
    obtain ⟨isLate, late⟩ := List.forall_mem_cons.mp late
    rw [decisions, List.countP_cons]
    by_cases isOpen : ∃ live, counter = some live ∧ now < live.expiresAt
    · obtain ⟨live, rfl, inside⟩ := isOpen
      have isHit : hit window (some live) now = { live with count := live.count + 1 } := if_pos inside
      have rest := @ih (some { live with count := live.count + 1 }) sorted late
      rw [isHit]
      simp only [Option.elim_some] at rest ⊢
      split
      · rename_i isAdmitted
        simp only [admitted, inInterval, Bool.and_eq_true, decide_eq_true_eq] at isAdmitted
        omega
      · omega
    · -- The request opens a window that covers the rest of the interval.
      have isHit : hit window counter now = ⟨1, now + window⟩ := by
        cases counter with
        | none => rfl
        | some live => exact if_neg fun inside => isOpen ⟨live, rfl, inside⟩
      have rest := @countP_of_open limit window ⟨1, now + window⟩ first (first + window) later sorted (by dsimp only; omega)
      rw [isHit]
      dsimp only at rest
      split
      · rename_i isAdmitted
        simp only [admitted, inInterval, Bool.and_eq_true, decide_eq_true_eq] at isAdmitted
        omega
      · omega

theorem countP_admitted_le {first : Nat} {times : List Nat} (sorted : times.Pairwise (· ≤ ·)) :
    (decisions limit window counter times).countP (admitted (inInterval first (first + window))) ≤ 2 * limit := by
  induction times generalizing counter with
  | nil => exact Nat.zero_le _
  | cons now later ih =>
    obtain ⟨earliest, others⟩ := List.pairwise_cons.mp sorted
    by_cases isEarly : now < first
    · rw [decisions, List.countP_cons_of_neg]
      · exact ih others
      · simp only [admitted, inInterval, Bool.and_eq_true, decide_eq_true_eq]
        omega
    · refine Nat.le_trans (countP_of_late sorted ?_) ?_
      · exact List.forall_mem_cons.mpr ⟨by omega, fun time member => by have := earliest time member; omega⟩
      · cases counter with
        | none => simp only [Option.elim_none]; omega
        | some live => simp only [Option.elim_some]; omega

/-! ## No refusal without reason -/

theorem after_append (before : List Nat) (now : Nat) :
    after window counter (before ++ [now]) = some (hit window (after window counter before) now) := by
  rw [after, List.foldl_append]
  rfl

/-- A request goes on with the open window, or opens one. -/
theorem hit_cases (counter : Option Counter) (now : Nat) :
    (∃ live, counter = some live ∧ now < live.expiresAt ∧ hit window counter now = { live with count := live.count + 1 }) ∨
      hit window counter now = ⟨1, now + window⟩ := by
  cases counter with
  | none => exact .inr rfl
  | some live =>
    by_cases isOpen : now < live.expiresAt
    · exact .inl ⟨live, rfl, isOpen, if_pos isOpen⟩
    · exact .inr (if_neg isOpen)

theorem opened_of_after {times : List Nat} : ∀ {live}, after window none times = some live →
    ∃ opened ∈ times, live.expiresAt = opened + window := by
  induction times using List.reverseRecOn with
  | nil =>
    intro live isLive
    cases isLive
  | append_singleton times now ih =>
    intro live isLive
    rw [after_append] at isLive
    obtain rfl := Option.some.inj isLive
    rcases hit_cases (after window none times) now with ⟨old, isOld, -, isHit⟩ | isHit
    · obtain ⟨opened, member, isOpened⟩ := ih isOld
      rw [isHit]
      exact ⟨opened, List.mem_append_left _ member, isOpened⟩
    · rw [isHit]
      exact ⟨now, List.mem_append_right _ (List.mem_singleton_self _), rfl⟩

/-- What an open window counts was let through since it was opened, up to the limit. -/
theorem count_le_countP {times : List Nat} (sorted : times.Pairwise (· ≤ ·)) : ∀ {live}, after window none times = some live →
    min live.count limit ≤ (decisions limit window none times).countP
      (admitted fun time => decide (live.expiresAt ≤ time + window)) := by
  induction times using List.reverseRecOn with
  | nil =>
    intro live isLive
    cases isLive
  | append_singleton times now ih =>
    obtain ⟨sorted, -, earlier⟩ := List.pairwise_append.mp sorted
    intro live isLive
    rw [after_append] at isLive
    obtain rfl := Option.some.inj isLive
    rw [decisions_append, List.countP_append]
    rcases hit_cases (after window none times) now with ⟨old, isOld, -, isHit⟩ | isHit
    · have counted := ih sorted isOld
      obtain ⟨opened, member, isOpened⟩ := opened_of_after isOld
      have before := earlier opened member now (List.mem_singleton_self _)
      rw [isHit]
      dsimp only
      by_cases within : old.count + 1 ≤ limit
      · rw [decisions, isHit, List.countP_cons_of_pos]
        · omega
        · simp only [admitted, within, decide_true, Bool.true_and, decide_eq_true_eq]
          omega
      · omega
    · rw [isHit]
      dsimp only
      by_cases within : 1 ≤ limit
      · rw [decisions, isHit, List.countP_cons_of_pos]
        · omega
        · simp [admitted, within]
      · omega

/-- A request is refused only when as many as the limit were let through in the time of one window before it. -/
theorem limit_le_countP_of_refused {times : List Nat} {now : Nat} (sorted : times.Pairwise (· ≤ ·))
    (refused : limit < (hit window (after window none times) now).count) :
    limit ≤ (decisions limit window none times).countP
      (admitted fun time => decide (now < time + window)) := by
  rcases hit_cases (after window none times) now with ⟨old, isOld, isOpen, isHit⟩ | isHit
  · have counted := @count_le_countP limit window times sorted old isOld
    rw [isHit] at refused
    dsimp only at refused
    rw [Nat.min_eq_right (by omega)] at counted
    refine Nat.le_trans counted (List.countP_mono_left fun decision _ isAdmitted => ?_)
    simp only [admitted, Bool.and_eq_true, decide_eq_true_eq] at isAdmitted ⊢
    exact ⟨isAdmitted.1, by omega⟩
  · rw [isHit] at refused
    dsimp only at refused
    omega

end Mcplica.Library.FixedWindow
