import DeviceRelay.Backoff

/-!
# Reconnect delays and their bounds

A delay starts at the base of its policy, or at the ceiling where the base is longer. It doubles and
starts over, but never leaves these bounds. Under a policy that bounds the attempts, a short session
counts as one more, and there is no wait after it once they are spent.

* `Duration.nanos_min`, `nanos_double`: spans in nanoseconds.
* `Backoff.Within`, `Backoff.Within.onSessionEnd`: the next delay and every wait are between the
  bounds.
* `Backoff.onSessionEnd_stable`, `onSessionEnd_short`, `onSessionEnd_spent`: the attempts.
-/

namespace DeviceRelay

/-! ## Spans -/

namespace Duration

theorem le_def {a b : Duration} : a ≤ b ↔ a.nanos ≤ b.nanos := Iff.rfl

theorem lt_def {a b : Duration} : a < b ↔ a.nanos < b.nanos := Iff.rfl

protected theorem le_refl (d : Duration) : d ≤ d := le_def.mpr (Nat.le_refl _)

@[simp] theorem nanos_min (a b : Duration) : (min a b).nanos = min a.nanos b.nanos := by
  change (if a ≤ b then a else b).nanos = _
  rw [apply_ite nanos, Nat.min_def]
  rfl

@[simp] theorem nanos_double (d : Duration) :
    d.double.nanos = min (d.nanos * 2) longestNanos := rfl

theorem le_double (d : Duration) : d ≤ d.double := by
  have h := d.le_longest
  rw [le_def, nanos_double]
  omega

end Duration

/-! ## Delays -/

namespace Backoff

/-- The shortest wait under a policy. -/
def Policy.floor (p : Policy) : Duration := min p.base p.ceiling

/-- The next delay is between the bounds of the policy. -/
structure Within (b : Backoff) : Prop where
  floor_le : b.policy.floor ≤ b.next
  le_ceiling : b.next ≤ b.policy.ceiling

variable {b : Backoff}

theorem Policy.floor_le_ceiling (p : Policy) : p.floor ≤ p.ceiling := by
  rw [Duration.le_def, floor, Duration.nanos_min]
  omega

theorem within_new (p : Policy) : (new p).Within := ⟨Nat.le_refl _, p.floor_le_ceiling⟩

/-- A delay that doubles stays between the bounds. -/
theorem Within.grow (h : b.Within) (failures : UInt32) :
    ({ b with failures := failures, next := b.policy.grow b.next } : Backoff).Within := by
  have hlower := h.floor_le
  have hdouble := b.next.le_double
  have hceiling := b.policy.floor_le_ceiling
  simp only [Duration.le_def] at hlower hdouble hceiling
  constructor
  · simp only [Duration.le_def, Policy.grow, Duration.nanos_min]
    omega
  · simp only [Duration.le_def, Policy.grow, Duration.nanos_min]
    omega

/-- A session whose end starts the delays over. -/
theorem Within.startOver (h : b.Within) (stable : Bool) :
    (if stable then b.reset else b).Within := by
  cases stable with
  | true => exact within_new b.policy
  | false => exact h

theorem policy_startOver (b : Backoff) (stable : Bool) :
    (if stable then b.reset else b).policy = b.policy := by
  cases stable <;> rfl

/-- **The end of a session.** The wait after it is between the bounds, and so is the next delay. -/
theorem Within.onSessionEnd (h : b.Within) (held : Duration) :
    (b.onSessionEnd held).2.Within ∧ (b.onSessionEnd held).2.policy = b.policy ∧
      ∀ delay ∈ (b.onSessionEnd held).1, b.policy.floor ≤ delay ∧ delay ≤ b.policy.ceiling := by
  have hstart := h.startOver (b.policy.stableAfter ≤ held)
  have hpolicy := b.policy_startOver (b.policy.stableAfter ≤ held)
  unfold Backoff.onSessionEnd
  dsimp only
  generalize (if (decide (b.policy.stableAfter ≤ held)) = true then b.reset else b) = c at *
  rw [← hpolicy]
  split
  case isTrue => exact ⟨hstart, rfl, nofun⟩
  case isFalse =>
    split
    case isTrue =>
      split
      case isTrue =>
        refine ⟨hstart, rfl, fun d hd => ?_⟩
        cases hd
        exact ⟨hstart.floor_le, hstart.le_ceiling⟩
      case isFalse =>
        have hgrown := hstart.grow (countUp c.failures)
        refine ⟨hgrown, rfl, fun d hd => ?_⟩
        cases hd
        exact ⟨hgrown.floor_le, hgrown.le_ceiling⟩
    case isFalse =>
      refine ⟨hstart.grow _, rfl, fun d hd => ?_⟩
      cases hd
      exact ⟨hstart.floor_le, hstart.le_ceiling⟩

/-! ## Attempts -/

theorem toNat_countUp {n : UInt32} (h : n.toNat < UInt32.size - 1) :
    (countUp n).toNat = n.toNat + 1 := by
  have hne : n ≠ UInt32.ofNat (UInt32.size - 1) := by
    rintro rfl
    exact absurd h (by decide)
  rw [countUp, if_neg hne, UInt32.toNat_add, UInt32.toNat_one, Nat.mod_eq_of_lt]
  have hsize : UInt32.size = 2 ^ 32 := rfl
  omega

theorem spent_iff {m : UInt32} (hmax : b.policy.maxAttempts = some m) :
    b.spent = true ↔ m.toNat ≤ b.failures.toNat := by
  rw [spent, hmax]
  simp [UInt32.le_iff_toNat_le]

section Attempts

variable {m : UInt32} (hmax : b.policy.maxAttempts = some m) {held : Duration}

include hmax

/-- A stable session, after which the next dial is the first attempt. -/
theorem onSessionEnd_stable (hlast : b.policy.escalateFirst = false) (hm : 0 < m.toNat)
    (hheld : b.policy.stableAfter ≤ held) :
    ∃ delay next, b.onSessionEnd held = (some delay, ⟨b.policy, next, 1⟩) := by
  have hleft : b.reset.spent = false := by
    rw [← Bool.not_eq_true, spent_iff (b := b.reset) hmax]
    exact Nat.not_le_of_lt hm
  refine ⟨b.reset.next, b.policy.grow b.reset.next, ?_⟩
  unfold onSessionEnd
  simp only [hheld, decide_true, if_true, hleft, Bool.false_eq_true, if_false]
  rw [if_neg (by simpa [reset, new] using hlast)]
  rfl

/-- A short session while attempts are left. -/
theorem onSessionEnd_short (hlast : b.policy.escalateFirst = false)
    (hheld : ¬b.policy.stableAfter ≤ held) (hleft : b.failures.toNat < m.toNat) :
    ∃ delay next failures, b.onSessionEnd held = (some delay, ⟨b.policy, next, failures⟩) ∧
      failures.toNat = b.failures.toNat + 1 := by
  have hspent : b.spent = false := by
    rw [← Bool.not_eq_true, spent_iff hmax]
    omega
  have hcount : b.failures.toNat < UInt32.size - 1 := by
    have hlt := m.toNat_lt_size
    omega
  refine ⟨b.next, b.policy.grow b.next, countUp b.failures, ?_, toNat_countUp hcount⟩
  unfold onSessionEnd
  simp [hheld, hspent, hlast]

/-- A short session once the attempts are spent. -/
theorem onSessionEnd_spent (hheld : ¬b.policy.stableAfter ≤ held)
    (hspent : m.toNat ≤ b.failures.toNat) : b.onSessionEnd held = (none, b) := by
  have hspent : b.spent = true := (spent_iff hmax).mpr hspent
  unfold onSessionEnd
  simp [hheld, hspent]

end Attempts

end Backoff

end DeviceRelay
