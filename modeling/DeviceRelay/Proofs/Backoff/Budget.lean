import DeviceRelay.Proofs.Backoff.Delays

/-!
# The budget of attempts

A policy that bounds the attempts puts up with so many short sessions in a row. A fresh start, a
reset and a stable session each begin a new row. Where delays escalate first, the budget is the bound
in every row. Otherwise a stable session is counted as the first attempt of the row that it begins,
so that this row has one short session fewer than a row after a fresh start.

* `Policy.IsOverBudget`: more short sessions have ended in a row than the bound allows.
* `Policy.delay?_eq_none_iff`: a short session has no wait once all attempts are counted.
* `Policy.budget_kept_iff`: where having no wait and being over the budget are the same.
-/

namespace DeviceRelay.Backoff.Policy

/-- A short session ends, and with it more of them have ended in a row than the bound allows. -/
def IsOverBudget (p : Policy) (m : UInt32) (history : List Event) (held : Duration) : Prop :=
  ¬p.stableAfter ≤ held ∧ m.toNat < p.shortEnds (history ++ [.ended held])

instance (p : Policy) (m : UInt32) (history : List Event) (held : Duration) :
    Decidable (p.IsOverBudget m history held) := inferInstanceAs (Decidable (_ ∧ _))

/-- The stable session with which a row began, where it is counted as an attempt of the row. -/
def stableAttempts (p : Policy) (history : List Event) : Nat :=
  if p.escalateFirst then 0 else (p.startedStable history).toNat

/-! ## Attempts of a row -/

section Attempts

variable {p : Policy} {held : Duration}

theorem attempts_eq (p : Policy) (history : List Event) :
    p.attempts history = p.shortEnds history + p.stableAttempts history := by
  unfold attempts ends stableAttempts
  cases p.escalateFirst <;> rfl

theorem attempts_nil (p : Policy) : p.attempts [] = 0 := by
  unfold attempts
  cases p.escalateFirst <;> rfl

theorem stableAttempts_cases (p : Policy) (history : List Event) :
    p.stableAttempts history = 0 ∨
      p.stableAttempts history = 1 ∧ p.escalateFirst = false ∧ p.startedStable history = true := by
  unfold stableAttempts
  cases p.escalateFirst <;> cases p.startedStable history <;> simp

theorem isShort_row (h : ¬p.stableAfter ≤ held) :
    ∀ event ∈ [Event.ended held], p.isShort event = true :=
  List.forall_mem_singleton.mpr (isShort_ended_iff.mpr h)

/-- Attempts after a stable session and a row of short ones. -/
theorem attempts_after_stable (history : List Event) {stable : Duration}
    (hstable : p.stableAfter ≤ stable) {row : List Event}
    (hrow : ∀ event ∈ row, p.isShort event = true) :
    p.attempts (history ++ [.ended stable] ++ row) =
      row.length + if p.escalateFirst then 0 else 1 := by
  have hevent : p.isShort (.ended stable) = false :=
    eq_false_of_ne_true fun hshort => isShort_ended_iff.mp hshort hstable
  rw [attempts_append _ hrow, attempts_concat _ hevent, Nat.add_comm]
  rfl

end Attempts

/-! ## Sessions without a wait -/

section Budget

variable {p : Policy} {m : UInt32} (hmax : p.maxAttempts = some m)

include hmax

theorem isSpentBy_iff {attempts : Nat} : p.isSpentBy attempts = true ↔ m.toNat ≤ attempts := by
  rw [isSpentBy, hmax]
  simp

/-- **Sessions without a wait.** They are short, and all attempts were counted before. -/
theorem delay?_eq_none_iff (hm : 1 ≤ m.toNat) (history : List Event) (held : Duration) :
    p.delay? history held = none ↔ ¬p.stableAfter ≤ held ∧ m.toNat ≤ p.attempts history := by
  have hclosed : p.delay? history held = none ↔
      p.isSpentBy (p.attempts (history ++ [.ended held]) - 1) = true := by
    rw [← Option.map_eq_none_iff (f := Duration.nanos), (p.delays_closed_form history held).1]
    simp
  rw [hclosed, isSpentBy_iff hmax]
  by_cases hheld : p.stableAfter ≤ held
  · -- The first attempt of a row is never beyond the bound.
    have hfirst := attempts_after_stable history hheld (List.forall_mem_nil _)
    rw [List.append_nil] at hfirst
    rw [hfirst]
    constructor
    · intro hspent
      split at hspent <;> simp at hspent <;> omega
    · rintro ⟨hshort, -⟩
      exact absurd hheld hshort
  · rw [attempts_append history (isShort_row hheld), List.length_singleton, Nat.add_sub_cancel]
    exact ⟨fun hspent => ⟨hheld, hspent⟩, And.right⟩

/-- A row is over its budget by its short sessions alone, or one session earlier where the stable
session with which it began is counted. -/
theorem delay?_eq_none_iff_shortEnds (hm : 1 ≤ m.toNat) (history : List Event) (held : Duration) :
    p.delay? history held = none ↔ ¬p.stableAfter ≤ held ∧
      m.toNat < p.shortEnds (history ++ [.ended held]) + p.stableAttempts history := by
  rw [delay?_eq_none_iff hmax hm, attempts_eq]
  refine and_congr_right fun hheld => ?_
  rw [shortEnds_append history (isShort_row hheld), List.length_singleton]
  omega

/-- How many short sessions of a row have a wait: after a stable session, and after a fresh start. -/
theorem delay?_row_eq_none_iff (hm : 1 ≤ m.toNat) (history : List Event) {stable later : Duration}
    (hstable : p.stableAfter ≤ stable) {row : List Event}
    (hrow : ∀ event ∈ row ++ [Event.ended later], p.isShort event = true) :
    (p.delay? (history ++ [.ended stable] ++ row) later = none ↔
      m.toNat ≤ row.length + if p.escalateFirst then 0 else 1) ∧
    (p.delay? row later = none ↔ m.toNat ≤ row.length) := by
  obtain ⟨hrow, hlater⟩ := List.forall_mem_append.mp hrow
  have hshort : ¬p.stableAfter ≤ later :=
    isShort_ended_iff.mp (hlater _ List.mem_cons_self)
  have hfresh : p.attempts row = row.length := by
    rw [← List.nil_append row, attempts_append _ hrow, attempts_nil, Nat.zero_add,
      List.nil_append]
  rw [delay?_eq_none_iff hmax hm, delay?_eq_none_iff hmax hm,
    attempts_after_stable history hstable hrow, hfresh]
  exact ⟨and_iff_right hshort, and_iff_right hshort⟩

/-- **The budget of attempts.** After any history a session has no wait exactly if it is short and
more than the allowed number of attempts have been made: the short sessions in a row and, unless
delays escalate first, the stable session with which the row began. So this is the budget that is
meant except after that many short sessions that follow a stable one, where delays double after the
wait. A row after a stable session then has one short session with a wait fewer than a fresh one. -/
theorem budget_kept_iff (hm : 1 ≤ m.toNat) (history : List Event) (held : Duration) :
    let now := history ++ [Event.ended held]
    (p.delay? history held = none ↔ ¬p.stableAfter ≤ held ∧
      m.toNat < p.shortEnds now +
        if p.escalateFirst then 0 else (p.startedStable history).toNat) ∧
    ((p.delay? history held = none ↔ p.IsOverBudget m history held) ↔
      ¬(p.escalateFirst = false ∧ ¬p.stableAfter ≤ held ∧ p.startedStable history = true ∧
        p.shortEnds now = m.toNat)) ∧
    ∀ stable row later, p.stableAfter ≤ stable →
      (∀ event ∈ row ++ [Event.ended later], p.isShort event = true) →
      (p.delay? (history ++ [.ended stable] ++ row) later = none ↔
        m.toNat ≤ row.length + if p.escalateFirst then 0 else 1) ∧
      (p.delay? row later = none ↔ m.toNat ≤ row.length) := by
  have hnone := delay?_eq_none_iff_shortEnds hmax hm history held
  refine ⟨hnone, ?_, fun stable row later hstable hrow =>
    delay?_row_eq_none_iff hmax hm history hstable hrow⟩
  rw [hnone, IsOverBudget]
  rcases p.stableAttempts_cases history with hzero | ⟨hone, hlast, hstarted⟩
  · -- No stable session is counted.
    have hkeeps : ¬(p.escalateFirst = false ∧ p.startedStable history = true) := by
      rintro ⟨hlast, hstarted⟩
      simp [stableAttempts, hlast, hstarted] at hzero
    rw [hzero, Nat.add_zero]
    exact iff_of_true Iff.rfl fun h => hkeeps ⟨h.1, h.2.2.1⟩
  · rw [hone]
    by_cases hheld : p.stableAfter ≤ held
    · simp [hheld]
    · simp only [hheld, hlast, hstarted, not_false_eq_true, true_and]
      omega

end Budget

/-- The second short session after a stable one is the third attempt of two. -/
theorem budget_kept_iff_after_stable :
    let p := Policy.outbound (.ofSeconds 1) (some 2)
    let history := [Event.ended .zero, .ended (.ofSeconds 30), .ended .zero]
    p.maxAttempts = some 2 ∧ 1 ≤ (2 : UInt32).toNat ∧ p.delay? history .zero = none ∧
      ¬(p.delay? history .zero = none ↔ p.IsOverBudget 2 history .zero) := by
  intro p history
  obtain ⟨hnone, hkept, -⟩ :=
    budget_kept_iff (p := p) (m := 2) rfl (by decide) history .zero
  exact ⟨rfl, by decide, hnone.mpr (by decide), fun h => hkept.mp h (by decide)⟩

/-- One attempt is allowed. The first short session has a wait, but not where a stable session came
before it. -/
theorem budget_lost_to_stable_session :
    let p := Policy.outbound (.ofSeconds 1) (some 1)
    p.delay? [] .zero = some (.ofSeconds 1) ∧
      p.delay? [.ended (.ofSeconds 30)] .zero = none ∧
      ¬p.IsOverBudget 1 [.ended (.ofSeconds 30)] .zero := by
  decide

end DeviceRelay.Backoff.Policy
