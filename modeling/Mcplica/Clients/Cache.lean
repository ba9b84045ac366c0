import Mcplica.Library.FixedWindow
import Mcplica.Library.Text

/-! # Rate limits

`RedisClient.rate_limit_exceeded`: a script of Redis increments the counter of a key and lets it expire a window after the
first increment. A check that Redis does not answer raises, whether the script ran or not. -/

namespace Mcplica.Clients

open Mcplica.Library

/-- What becomes of the call of the script. -/
inductive Delivery where
  | answered
  /-- `ClientUnavailableError`; the script may have run. -/
  | lost (counted : Bool)
  deriving Repr, DecidableEq

structure RateLimitCheck where
  key : Text
  now : Nat
  delivery : Delivery
  deriving Repr, DecidableEq

namespace RateLimitCheck

def counted (check : RateLimitCheck) : Bool :=
  match check.delivery with
  | .answered => true
  | .lost counted => counted

end RateLimitCheck

/-- The counters that Redis holds. -/
abbrev RateCounters := Text → Option FixedWindow.Counter

section

variable (limit window : Nat)

/-- The answer of `rate_limit_exceeded`, none when it raises, and the counters after it. -/
def rateLimitExceeded (counters : RateCounters) (check : RateLimitCheck) : Option Bool × RateCounters :=
  if check.counted then
    -- `INCR`, and `EXPIRE` when the count is one.
    let counter := FixedWindow.hit window (counters check.key) check.now
    let counters := fun key => if key = check.key then some counter else counters key
    match check.delivery with
    | .answered => (some (decide (limit < counter.count)), counters)
    | .lost _ => (none, counters)
  else (none, counters)

/-- The checks in the order in which Redis runs them, each with its answer. -/
def rateLimitAnswers (counters : RateCounters) : List RateLimitCheck → List (RateLimitCheck × Option Bool)
  | [] => []
  | check :: later =>
    let (answer, counters) := rateLimitExceeded limit window counters check
    (check, answer) :: rateLimitAnswers counters later

end

/-- The check let its caller through. -/
def passed (key : Text) (holds : Nat → Bool) (answer : RateLimitCheck × Option Bool) : Bool :=
  decide (answer.1.key = key) && decide (answer.2 = some false) && holds answer.1.now

/-- The check was counted and did not refuse its caller, who may not have learned of it. -/
def spent (key : Text) (holds : Nat → Bool) (answer : RateLimitCheck × Option Bool) : Bool :=
  decide (answer.1.key = key) && answer.1.counted && decide (answer.2 ≠ some true) && holds answer.1.now

/-! ## One key -/

/-- The times at which the counter of the key is incremented. -/
def requestTimes (key : Text) (checks : List RateLimitCheck) : List Nat :=
  (checks.filter fun check => decide (check.key = key) && check.counted).map RateLimitCheck.now

section

variable {limit window : Nat} {counters : RateCounters} {key : Text}

/-- What a check answers, and what it does to the counter of a key. -/
theorem rateLimitExceeded_cases (counters : RateCounters) (check : RateLimitCheck) (key : Text) :
    ((check.key ≠ key ∨ check.counted = false) ∧
        (rateLimitExceeded limit window counters check).2 key = counters key ∧
        (check.counted = false → (rateLimitExceeded limit window counters check).1 = none)) ∨
      (check.key = key ∧ check.counted = true ∧
        (rateLimitExceeded limit window counters check).2 key = some (FixedWindow.hit window (counters key) check.now) ∧
        ((rateLimitExceeded limit window counters check).1 = none ∨ (rateLimitExceeded limit window counters check).1 =
          some (decide (limit < (FixedWindow.hit window (counters key) check.now).count)))) := by
  unfold rateLimitExceeded
  cases counted : check.counted with
  | false => exact .inl ⟨.inr rfl, rfl, fun _ => rfl⟩
  | true =>
    rw [if_pos rfl]
    by_cases same : check.key = key
    · subst same
      refine .inr ⟨rfl, rfl, ?_, ?_⟩
      · cases check.delivery with
        | answered => exact if_pos rfl
        | lost => exact if_pos rfl
      · cases check.delivery with
        | answered => exact .inr rfl
        | lost => exact .inl rfl
    · refine .inl ⟨.inl same, ?_, fun notCounted => by cases notCounted⟩
      cases check.delivery with
      | answered => exact if_neg (Ne.symm same)
      | lost => exact if_neg (Ne.symm same)

/-- Between the answers that let a caller of the key through and those that spend the limit stand the counter's own. -/
theorem countP_answers (holds : Nat → Bool) (checks : List RateLimitCheck) :
    (rateLimitAnswers limit window counters checks).countP (passed key holds) ≤
        (FixedWindow.decisions limit window (counters key) (requestTimes key checks)).countP (FixedWindow.admitted holds) ∧
      (FixedWindow.decisions limit window (counters key) (requestTimes key checks)).countP (FixedWindow.admitted holds) ≤
        (rateLimitAnswers limit window counters checks).countP (spent key holds) := by
  induction checks generalizing counters with
  | nil => exact ⟨Nat.le_refl _, Nat.le_refl _⟩
  | cons check later ih =>
    have rest := @ih (rateLimitExceeded limit window counters check).2
    have split : rateLimitAnswers limit window counters (check :: later) =
        (check, (rateLimitExceeded limit window counters check).1) ::
          rateLimitAnswers limit window (rateLimitExceeded limit window counters check).2 later := rfl
    rw [split, List.countP_cons, List.countP_cons]
    rcases @rateLimitExceeded_cases limit window counters check key with
      ⟨other, sameCounter, unanswered⟩ | ⟨rfl, counted, isHit, answer⟩
    · have skipped : requestTimes key (check :: later) = requestTimes key later := by
        unfold requestTimes
        rw [List.filter_cons_of_neg]
        rcases other with otherKey | notCounted
        · simp [otherKey]
        · simp [notCounted]
      have notPassed : passed key holds (check, (rateLimitExceeded limit window counters check).1) = false := by
        rcases other with otherKey | notCounted
        · simp [passed, otherKey]
        · simp [passed, unanswered notCounted]
      have notSpent : spent key holds (check, (rateLimitExceeded limit window counters check).1) = false := by
        rcases other with otherKey | notCounted
        · simp [spent, otherKey]
        · simp [spent, notCounted]
      rw [sameCounter] at rest
      rw [skipped, notPassed, notSpent]
      exact rest
    · have listed : requestTimes check.key (check :: later) = check.now :: requestTimes check.key later := by
        unfold requestTimes
        rw [List.filter_cons_of_pos, List.map_cons]
        simp [counted]
      rw [isHit] at rest
      rw [listed, FixedWindow.decisions, List.countP_cons]
      refine ⟨Nat.add_le_add rest.1 ?_, Nat.add_le_add rest.2 ?_⟩
      · split
        · rename_i isPassed
          rw [if_pos]
          simp only [passed, decide_true, Bool.true_and, Bool.and_eq_true, decide_eq_true_eq] at isPassed
          rcases answer with none | given
          · rw [none] at isPassed
            cases isPassed.1
          · rw [given, Option.some.injEq, decide_eq_false_iff_not] at isPassed
            simp only [FixedWindow.admitted, Bool.and_eq_true, decide_eq_true_eq]
            exact ⟨Nat.not_lt.mp isPassed.1, isPassed.2⟩
        · exact Nat.zero_le _
      · split
        · rename_i isAdmitted
          rw [if_pos]
          simp only [FixedWindow.admitted, Bool.and_eq_true, decide_eq_true_eq] at isAdmitted
          simp only [spent, decide_true, Bool.true_and, counted, Bool.and_eq_true, decide_eq_true_eq]
          refine ⟨?_, isAdmitted.2⟩
          rcases answer with none | given
          · rw [none]
            simp
          · rw [given]
            simp [isAdmitted.1]
        · exact Nat.zero_le _

/-! ## Every sequence of checks -/

/-- The checks run one after another, so their times do not decrease. -/
def InOrder (checks : List RateLimitCheck) : Prop :=
  checks.Pairwise fun earlier later => earlier.now ≤ later.now

instance (checks : List RateLimitCheck) : Decidable (InOrder checks) :=
  inferInstanceAs (Decidable (checks.Pairwise _))

theorem InOrder.requestTimes {checks : List RateLimitCheck} (ordered : InOrder checks) (key : Text) :
    (requestTimes key checks).Pairwise (· ≤ ·) :=
  List.pairwise_map.mpr (List.Pairwise.filter _ ordered)

def countersAfter (limit window : Nat) (counters : RateCounters) (checks : List RateLimitCheck) : RateCounters :=
  checks.foldl (fun counters check => (rateLimitExceeded limit window counters check).2) counters

theorem rateLimitAnswers_append (before later : List RateLimitCheck) :
    rateLimitAnswers limit window counters (before ++ later) =
      rateLimitAnswers limit window counters before ++
        rateLimitAnswers limit window (countersAfter limit window counters before) later := by
  induction before generalizing counters with
  | nil => rfl
  | cons check before ih =>
    show _ :: rateLimitAnswers limit window _ (before ++ later) = _ :: (_ ++ _)
    rw [ih]
    rfl

theorem fst_rateLimitAnswers (checks : List RateLimitCheck) :
    (rateLimitAnswers limit window counters checks).map Prod.fst = checks := by
  induction checks generalizing counters with
  | nil => rfl
  | cons check later ih => exact congrArg (check :: ·) ih

/-- The counter of a key depends on the checks of that key only. -/
theorem countersAfter_eq (checks : List RateLimitCheck) : countersAfter limit window counters checks key =
    FixedWindow.after window (counters key) (requestTimes key checks) := by
  induction checks generalizing counters with
  | nil => rfl
  | cons check later ih =>
    have rest := @ih (rateLimitExceeded limit window counters check).2
    refine rest.trans ?_
    rcases @rateLimitExceeded_cases limit window counters check key with
      ⟨other, sameCounter, -⟩ | ⟨rfl, counted, isHit, -⟩
    · rw [sameCounter]
      unfold requestTimes
      rw [List.filter_cons_of_neg]
      rcases other with otherKey | notCounted
      · simp [otherKey]
      · simp [notCounted]
    · rw [isHit]
      unfold requestTimes
      rw [@List.filter_cons_of_pos _ _ check]
      · rfl
      · simp [counted]

/-- Any interval as long as the window sees at most twice the limit let through for a key. A check is refused only when
the limit was spent on its own key less than a window ago. -/
theorem rateLimit_run {checks : List RateLimitCheck} (ordered : InOrder checks) (key : Text) :
    (∀ first, (rateLimitAnswers limit window (fun _ => none) checks).countP
        (passed key (FixedWindow.inInterval first (first + window))) ≤ 2 * limit) ∧
      ∀ before check later, checks = before ++ check :: later → check.key = key →
        (rateLimitAnswers limit window (fun _ => none) checks)[before.length]? = some (check, some true) →
        limit ≤ (rateLimitAnswers limit window (fun _ => none) before).countP
          (spent key fun time => decide (check.now < time + window)) := by
  refine ⟨fun first => ?_, ?_⟩
  · exact (countP_answers _ checks).1.trans (FixedWindow.countP_admitted_le (ordered.requestTimes key))
  · rintro before check later rfl rfl refused
    have sorted : InOrder before := (List.pairwise_append.mp ordered).1
    have lengths : (rateLimitAnswers limit window (fun _ => none) before).length = before.length := by
      rw [← List.length_map Prod.fst, fst_rateLimitAnswers]
    rw [rateLimitAnswers_append, List.getElem?_append_right (by omega), lengths, Nat.sub_self] at refused
    have answer : (rateLimitExceeded limit window (countersAfter limit window (fun _ => none) before) check).1 = some true :=
      (Prod.mk.inj (Option.some.inj refused)).2
    have spentLimit := (@countP_answers limit window (fun _ => none) check.key
      (fun time => decide (check.now < time + window)) before).2
    refine (FixedWindow.limit_le_countP_of_refused (sorted.requestTimes check.key) ?_).trans spentLimit
    rcases @rateLimitExceeded_cases limit window (countersAfter limit window (fun _ => none) before) check check.key with
      ⟨other, -, unanswered⟩ | ⟨-, -, -, none | given⟩
    · rcases other with otherKey | notCounted
      · exact absurd rfl otherKey
      · rw [unanswered notCounted] at answer
        cases answer
    · rw [none] at answer
      cases answer
    · rw [given, Option.some.injEq, decide_eq_true_eq, countersAfter_eq] at answer
      exact answer

/-- Two checks within a limit of one, and one between them that is refused. -/
def loginChecks : List RateLimitCheck :=
  [⟨"login:a", 0, .answered⟩, ⟨"login:a", 5, .answered⟩, ⟨"login:b", 6, .answered⟩, ⟨"login:a", 10, .answered⟩]

theorem rateLimit_loginChecks : (rateLimitAnswers 1 10 (fun _ => none) loginChecks).countP
      (passed "login:a" (FixedWindow.inInterval 5 15)) ≤ 2 * 1 ∧
    1 ≤ (rateLimitAnswers 1 10 (fun _ => none) (loginChecks.take 1)).countP
      (spent "login:a" fun time => decide (5 < time + 10)) := by
  have bounds := @rateLimit_run 1 10 loginChecks (by decide) "login:a"
  exact ⟨bounds.1 5, bounds.2 (loginChecks.take 1) ⟨"login:a", 5, .answered⟩ (loginChecks.drop 2) rfl rfl (by decide)⟩

end

end Mcplica.Clients
