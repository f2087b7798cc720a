import DeviceRelay.Proofs.Backoff
import Mathlib.Algebra.Group.Nat.Defs
import Mathlib.Data.List.DropRight

/-!
# Delays in closed form

A delay is the base of its policy doubled a number of times, or the ceiling where that is shorter.
The number is that of the sessions that ended since the delays last started over: at the beginning,
by a reset, or with a stable session. The products are exact, however long the history is, since the
ceiling cuts them off before the longest span could.

* `Backoff.Event`, `Policy.after`: what happens, and where it leaves the delays.
* `Policy.shortEnds`, `Policy.ends`: how many sessions ended since the delays started over.
* `Backoff.Stands`: what is stored after so many counted ends.
* `Policy.delays_closed_form`: every delay, its bounds and its growth.
-/

namespace DeviceRelay.Backoff

/-! ## Histories -/

inductive Event where
  | ended (held : Duration)
  | reset
  deriving DecidableEq, Repr

def Event.isEnd : Event → Bool
  | .ended _ => true
  | .reset => false

/-- The delays after one more event. -/
def record (b : Backoff) : Event → Backoff
  | .ended held => (b.onSessionEnd held).2
  | .reset => b.reset

namespace Policy

/-- Where a history leaves the delays. -/
def after (p : Policy) (history : List Event) : Backoff := history.foldl record (new p)

/-- The wait after a session that ends once a history has happened, none where the attempts are
spent. -/
def delay? (p : Policy) (history : List Event) (held : Duration) : Option Duration :=
  ((p.after history).onSessionEnd held).1

/-- Whether an event is the end of a session that does not count as stable. -/
def isShort (p : Policy) : Event → Bool
  | .ended held => !decide (p.stableAfter ≤ held)
  | .reset => false

/-- How many short sessions have ended in a row. -/
def shortEnds (p : Policy) (history : List Event) : Nat := (history.rtakeWhile p.isShort).length

/-- Whether it was with a stable session that the delays last started over. -/
def startedStable (p : Policy) (history : List Event) : Bool :=
  (history.rdropWhile p.isShort).getLast?.any Event.isEnd

/-- How many sessions have ended since the delays last started over. A stable session with which
they did is the first of them. -/
def ends (p : Policy) (history : List Event) : Nat :=
  p.shortEnds history + (p.startedStable history).toNat

/-- How many of the last sessions count as attempts. A stable session counts only where the delay
doubles after the wait. -/
def attempts (p : Policy) (history : List Event) : Nat :=
  if p.escalateFirst then p.shortEnds history else p.ends history

/-- How often the base is doubled for the wait after the last session. Where delays escalate first, a
short session doubles its own wait; otherwise each session doubles the wait after the next one. -/
def doublings (p : Policy) (history : List Event) : Nat :=
  if p.escalateFirst then p.shortEnds history else p.ends history - 1

/-- Whether so many attempts are all that the policy allows. -/
def isSpentBy (p : Policy) (attempts : Nat) : Bool :=
  p.maxAttempts.any fun m => m.toNat ≤ attempts

/-! ## Ends since the delays started over -/

section Ends

variable {p : Policy} {held : Duration}

theorem isShort_ended_iff : p.isShort (.ended held) = true ↔ ¬p.stableAfter ≤ held := by
  simp [isShort]

/-- Short sessions are counted one by one. -/
theorem shortEnds_append (history : List Event) {row : List Event}
    (h : ∀ event ∈ row, p.isShort event = true) :
    p.shortEnds (history ++ row) = p.shortEnds history + row.length := by
  have hrow : (row.reverse.takeWhile p.isShort) = row.reverse :=
    List.takeWhile_eq_self_iff.mpr fun event he => h event (List.mem_reverse.mp he)
  simp [shortEnds, List.rtakeWhile, List.takeWhile_append, hrow, Nat.add_comm]

theorem startedStable_append (history : List Event) {row : List Event}
    (h : ∀ event ∈ row, p.isShort event = true) :
    p.startedStable (history ++ row) = p.startedStable history := by
  have hrow : (row.reverse.dropWhile p.isShort) = [] :=
    List.dropWhile_eq_nil_iff.mpr fun event he => h event (List.mem_reverse.mp he)
  simp [startedStable, List.rdropWhile, List.dropWhile_append, hrow]

theorem ends_append (history : List Event) {row : List Event}
    (h : ∀ event ∈ row, p.isShort event = true) :
    p.ends (history ++ row) = p.ends history + row.length := by
  rw [ends, shortEnds_append history h, startedStable_append history h, Nat.add_right_comm]
  rfl

theorem attempts_append (history : List Event) {row : List Event}
    (h : ∀ event ∈ row, p.isShort event = true) :
    p.attempts (history ++ row) = p.attempts history + row.length := by
  unfold attempts
  split
  · exact shortEnds_append history h
  · exact ends_append history h

/-- An event that is not the end of a short session starts the count over. -/
theorem shortEnds_concat (history : List Event) {event : Event} (h : p.isShort event = false) :
    p.shortEnds (history ++ [event]) = 0 := by
  rw [shortEnds, List.rtakeWhile_concat_neg _ _ _ (by simp [h])]
  rfl

theorem ends_concat (history : List Event) {event : Event} (h : p.isShort event = false) :
    p.ends (history ++ [event]) = event.isEnd.toNat := by
  rw [ends, shortEnds_concat history h, startedStable,
    List.rdropWhile_concat_neg _ _ _ (by simp [h]), List.getLast?_concat, Nat.zero_add]
  rfl

theorem attempts_concat (history : List Event) {event : Event} (h : p.isShort event = false) :
    p.attempts (history ++ [event]) = if p.escalateFirst then 0 else event.isEnd.toNat := by
  rw [attempts, shortEnds_concat history h, ends_concat history h]

theorem doublings_eq (p : Policy) (history : List Event) :
    p.doublings history =
      if p.escalateFirst then p.attempts history else p.attempts history - 1 := by
  unfold doublings attempts
  cases p.escalateFirst <;> rfl

end Ends

end Policy

/-! ## What is stored -/

/-- How often the base was doubled after so many counted ends. Once the attempts are spent, nothing
is counted any more. -/
def Policy.counted (p : Policy) (attempts : Nat) : Nat :=
  match p.maxAttempts with
  | some m => min attempts m.toNat
  | none => attempts

/-- What is stored after so many attempts since the delays started over. The count of attempts stops
at the largest word, which no bound exceeds. -/
structure Stands (p : Policy) (attempts : Nat) (b : Backoff) : Prop where
  policy : b.policy = p
  failures : b.failures.toNat = min (p.counted attempts) (UInt32.size - 1)
  next : b.next.nanos = min (p.base.nanos * 2 ^ p.counted attempts) p.ceiling.nanos

/-- One more attempt is counted, and the delay doubles. -/
def advance (b : Backoff) : Backoff :=
  { b with failures := countUp b.failures, next := b.policy.grow b.next }

section Stands

variable {p : Policy} {attempts : Nat} {b : Backoff}

theorem counted_of_spent (h : p.isSpentBy attempts = true) :
    p.counted (attempts + 1) = p.counted attempts := by
  unfold Policy.isSpentBy at h
  unfold Policy.counted
  split
  · rename_i m hm
    have hle : m.toNat ≤ attempts := by simpa [hm] using h
    omega
  · rename_i hm
    simp [hm] at h

theorem counted_of_left (h : p.isSpentBy attempts = false) :
    p.counted attempts = attempts ∧ p.counted (attempts + 1) = attempts + 1 := by
  unfold Policy.isSpentBy at h
  unfold Policy.counted
  split
  · rename_i m hm
    have hlt : attempts < m.toNat := by simpa [hm] using h
    omega
  · exact ⟨rfl, rfl⟩

theorem toNat_countUp_eq (n : UInt32) :
    (countUp n).toNat = min (n.toNat + 1) (UInt32.size - 1) := by
  have hlt := n.toNat_lt_size
  by_cases h : n.toNat < UInt32.size - 1
  · rw [toNat_countUp h]
    omega
  · have hmax : n = UInt32.ofNat (UInt32.size - 1) :=
      UInt32.toNat_inj.mp ((by omega : n.toNat = UInt32.size - 1).trans rfl)
    rw [countUp, if_pos hmax]
    omega

/-- Doubling a delay that is cut off at the ceiling is cutting off the doubled one, for the ceiling
is a span itself. -/
theorem Policy.nanos_grow (p : Policy) (delay : Duration) :
    (p.grow delay).nanos = min (delay.nanos * 2) p.ceiling.nanos := by
  have hceiling := p.ceiling.le_longest
  rw [grow, Duration.nanos_min, Duration.nanos_double]
  omega

theorem Policy.counted_zero (p : Policy) : p.counted 0 = 0 := by
  unfold counted
  split <;> simp

theorem stands_new (p : Policy) : Stands p 0 (new p) := by
  refine ⟨rfl, ?_, ?_⟩
  · rw [p.counted_zero]
    rfl
  · rw [p.counted_zero, Nat.pow_zero, Nat.mul_one]
    exact Duration.nanos_min _ _

theorem Stands.reset (h : Stands p attempts b) : Stands p 0 b.reset := by
  rw [Backoff.reset, h.policy]
  exact stands_new p

theorem Stands.spent_eq (h : Stands p attempts b) : b.spent = p.isSpentBy attempts := by
  unfold spent Policy.isSpentBy
  rw [h.policy]
  cases hm : p.maxAttempts with
  | none => rfl
  | some m =>
    have hlt := m.toNat_lt_size
    have hfailures : b.failures.toNat = min (min attempts m.toNat) (UInt32.size - 1) := by
      rw [h.failures, Policy.counted, hm]
    simp only [Option.any_some, UInt32.le_iff_toNat_le]
    rw [hfailures, decide_eq_decide]
    omega

theorem Stands.stay (h : Stands p attempts b) (hspent : p.isSpentBy attempts = true) :
    Stands p (attempts + 1) b := by
  refine ⟨h.policy, ?_, ?_⟩
  · rw [counted_of_spent hspent, h.failures]
  · rw [counted_of_spent hspent, h.next]

theorem Stands.advance (h : Stands p attempts b) (hleft : p.isSpentBy attempts = false) :
    Stands p (attempts + 1) b.advance := by
  obtain ⟨hnow, hthen⟩ := counted_of_left hleft
  refine ⟨h.policy, ?_, ?_⟩
  · rw [Backoff.advance, toNat_countUp_eq, h.failures, hnow, hthen]
    omega
  · rw [Backoff.advance, h.policy, Policy.nanos_grow, h.next, hnow, hthen, Nat.pow_succ,
      ← Nat.mul_assoc]
    omega

end Stands

/-! ## Ends of sessions -/

section Ends

variable {p : Policy} {b : Backoff} {held : Duration}

theorem onSessionEnd_of_stable (h : b.policy.stableAfter ≤ held) :
    b.onSessionEnd held =
      if b.reset.spent then (none, b.reset)
      else if b.policy.escalateFirst then (some b.reset.next, b.reset)
      else (some b.reset.next, b.reset.advance) := by
  unfold onSessionEnd
  simp only [h, decide_true, if_true]
  rfl

theorem onSessionEnd_of_short (h : ¬b.policy.stableAfter ≤ held) :
    b.onSessionEnd held =
      if b.spent then (none, b)
      else if b.policy.escalateFirst then (some b.advance.next, b.advance)
      else (some b.next, b.advance) := by
  unfold onSessionEnd
  simp only [h, decide_false, Bool.false_eq_true, if_false]
  rfl

/-- The wait after the last session of a history, in nanoseconds. -/
def Policy.closedForm (p : Policy) (history : List Event) : Option Nat :=
  if p.isSpentBy (p.attempts history - 1) then none
  else some (min (p.base.nanos * 2 ^ p.doublings history) p.ceiling.nanos)

/-- The wait is that of the closed form, and the end of the session is counted. -/
def EndsWell (p : Policy) (history : List Event) (ended : Option Duration × Backoff) : Prop :=
  ended.1.map Duration.nanos = p.closedForm history ∧ Stands p (p.attempts history) ended.2

/-- After a stable session the delays start over. -/
theorem Stands.ended_stable {attempts : Nat} (h : Stands p attempts b)
    (hheld : p.stableAfter ≤ held) (history : List Event) :
    EndsWell p (history ++ [.ended held]) (b.onSessionEnd held) := by
  have hevent : p.isShort (.ended held) = false :=
    eq_false_of_ne_true fun hshort => Policy.isShort_ended_iff.mp hshort hheld
  have hattempts := Policy.attempts_concat history hevent
  have hreset := h.reset
  have hnext := hreset.next
  rw [Policy.counted_zero] at hnext
  have hfirst : p.attempts (history ++ [.ended held]) - 1 = 0 ∧
      p.doublings (history ++ [.ended held]) = 0 := by
    rw [Policy.doublings_eq, hattempts]
    cases p.escalateFirst <;> exact ⟨rfl, rfl⟩
  rw [onSessionEnd_of_stable (h.policy.symm ▸ hheld), h.policy, hreset.spent_eq]
  unfold EndsWell Policy.closedForm
  rw [hfirst.1, hfirst.2, hattempts]
  cases hleft : p.isSpentBy 0 with
  | true =>
    refine ⟨rfl, ?_⟩
    cases p.escalateFirst with
    | true => exact hreset
    | false => exact hreset.stay hleft
  | false =>
    cases p.escalateFirst with
    | true => exact ⟨congrArg some hnext, hreset⟩
    | false => exact ⟨congrArg some hnext, hreset.advance hleft⟩

/-- A short session is one more. -/
theorem Stands.ended_short {history : List Event} (h : Stands p (p.attempts history) b)
    (hheld : ¬p.stableAfter ≤ held) :
    EndsWell p (history ++ [.ended held]) (b.onSessionEnd held) := by
  have hrow : ∀ event ∈ [Event.ended held], p.isShort event = true :=
    List.forall_mem_singleton.mpr (Policy.isShort_ended_iff.mpr hheld)
  rw [onSessionEnd_of_short (h.policy.symm ▸ hheld), h.policy, h.spent_eq]
  unfold EndsWell Policy.closedForm
  rw [Policy.doublings_eq, Policy.attempts_append history hrow, List.length_singleton,
    Nat.add_sub_cancel]
  cases hleft : p.isSpentBy (p.attempts history) with
  | true => exact ⟨rfl, h.stay hleft⟩
  | false =>
    have hadvance := h.advance hleft
    have hnext := h.next
    have hnext' := hadvance.next
    obtain ⟨hnow, hthen⟩ := counted_of_left hleft
    rw [hnow] at hnext
    rw [hthen] at hnext'
    cases p.escalateFirst with
    | true => exact ⟨congrArg some hnext', hadvance⟩
    | false => exact ⟨congrArg some hnext, hadvance⟩

/-- **The end of a session.** -/
theorem Stands.ended {history : List Event} (h : Stands p (p.attempts history) b)
    (held : Duration) : EndsWell p (history ++ [.ended held]) (b.onSessionEnd held) := by
  by_cases hheld : p.stableAfter ≤ held
  · exact h.ended_stable hheld history
  · exact h.ended_short hheld

/-- What is stored after any history. -/
theorem Policy.stands_after (p : Policy) (history : List Event) :
    Stands p (p.attempts history) (p.after history) := by
  induction history using List.reverseRecOn with
  | nil =>
    have hnone : p.attempts [] = 0 := by
      unfold attempts
      split <;> rfl
    exact hnone ▸ stands_new p
  | append_singleton history event ih =>
    rw [after, List.foldl_append]
    cases event with
    | ended held => exact (ih.ended held).2
    | reset =>
      have hnone : p.attempts (history ++ [.reset]) = 0 :=
        (attempts_concat history rfl).trans (ite_self 0)
      exact hnone ▸ ih.reset

/-! ## The theorem on delays -/

/-- A delay is doubled at least as often after more short sessions in a row. -/
theorem Policy.doublings_append (p : Policy) (history : List Event) {row : List Event}
    (h : ∀ event ∈ row, p.isShort event = true) :
    p.doublings history ≤ p.doublings (history ++ row) := by
  rw [doublings_eq, doublings_eq, attempts_append history h]
  split <;> omega

theorem Policy.nanos_of_mem_delay? {history : List Event} {delay : Duration}
    (h : delay ∈ p.delay? history held) :
    delay.nanos =
      min (p.base.nanos * 2 ^ p.doublings (history ++ [.ended held])) p.ceiling.nanos := by
  have hends := ((p.stands_after history).ended held).1
  have hdelay : ((p.after history).onSessionEnd held).1 = some delay := h
  rw [hdelay, closedForm] at hends
  split at hends
  · cases hends
  · exact Option.some.inj hends

/-- **Delays in closed form.** After any history the wait after a session is the base doubled so
often, or the ceiling where that is shorter, as long as attempts are left. So every delay is between
the first one and the ceiling, and from one session to a later one, with no stable session and no
reset in between, delays do not get shorter. -/
theorem Policy.delays_closed_form (p : Policy) (history : List Event) (held : Duration) :
    let now := history ++ [Event.ended held]
    (p.delay? history held).map Duration.nanos =
      (if p.isSpentBy (p.attempts now - 1) then none
        else some (min (p.base.nanos * 2 ^ p.doublings now) p.ceiling.nanos)) ∧
    (∀ delay ∈ p.delay? history held,
      min p.base.nanos p.ceiling.nanos ≤ delay.nanos ∧ delay.nanos ≤ p.ceiling.nanos) ∧
    ∀ row later, (∀ event ∈ row ++ [Event.ended later], p.isShort event = true) →
      ∀ delay ∈ p.delay? history held, ∀ delay' ∈ p.delay? (now ++ row) later,
        delay.nanos ≤ delay'.nanos := by
  dsimp only
  refine ⟨((p.stands_after history).ended held).1, fun delay hdelay => ?_, ?_⟩
  · have hpos : p.base.nanos ≤ p.base.nanos * 2 ^ p.doublings (history ++ [.ended held]) :=
      Nat.le_mul_of_pos_right _ (Nat.two_pow_pos _)
    rw [nanos_of_mem_delay? hdelay]
    omega
  · intro row later hrow delay hdelay delay' hdelay'
    have hmore := p.doublings_append (history ++ [.ended held]) hrow
    rw [← List.append_assoc] at hmore
    have hgrown := Nat.mul_le_mul_left p.base.nanos (Nat.pow_le_pow_right Nat.two_pos hmore)
    rw [nanos_of_mem_delay? hdelay, nanos_of_mem_delay? hdelay']
    omega

/-- A tunnel's second short session after a reset is followed by four times its base of two seconds,
the fourth one by the ceiling, which is less than sixteen times the base. -/
theorem Policy.delays_closed_form_capped :
    let p := Policy.tunnel (.ofSeconds 2)
    let short := Event.ended (.ofSeconds 1)
    let history := [Event.ended (.ofSeconds 45), .reset, short]
    (∀ event ∈ [short] ++ [short], p.isShort event = true) ∧
      p.delay? history (.ofSeconds 1) = some (.ofSeconds 8) ∧
      p.delay? (history ++ [short] ++ [short]) (.ofSeconds 1) = some (.ofSeconds 30) ∧
      (Duration.ofSeconds 8).nanos ≤ (Duration.ofSeconds 30).nanos := by
  intro p short history
  have hrow : ∀ event ∈ [short] ++ [short], p.isShort event = true := by decide
  have hsecond : p.delay? history (.ofSeconds 1) = some (.ofSeconds 8) := by decide
  have hfourth : p.delay? (history ++ [short] ++ [short]) (.ofSeconds 1) =
      some (.ofSeconds 30) := by decide
  exact ⟨hrow, hsecond, hfourth,
    (p.delays_closed_form history (.ofSeconds 1)).2.2 [short] (.ofSeconds 1) hrow _ hsecond _
      hfourth⟩

end Ends

end DeviceRelay.Backoff
