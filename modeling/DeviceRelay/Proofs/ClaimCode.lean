import DeviceRelay.ClaimCode
import DeviceRelay.Proofs.Backoff
import Mathlib.Data.List.GetD

/-!
# The code that a device shows

A store of claim codes is asked for the code, and for the time that is left of it, at instants that
need not be in order. What it keeps is the code that it gave last. It gives that one again as long
as the code is live and no new one is asked for, and the time left is always that of this code, so
two reads at one instant are about the same code.

* `ClaimCode.IsText`, `ClaimCode.exists_draw_iff`: the texts that are drawn.
* `ClaimStore.current_cases`: the code last drawn, or a new one.
* `ClaimCall`, `ClaimStore.answers`, `ClaimStore.after`: calls of a store, one after the other.
* `ClaimStore.last_after`: the store keeps the code that it gave last.
* `ClaimStore.shows_live_code`: what a store answers after any calls.
-/

namespace DeviceRelay

/-! ## Texts of codes -/

theorem length_claimAlphabet : claimAlphabet.length = 31 := by decide

theorem nodup_claimAlphabet : claimAlphabet.Nodup := by decide

theorem length_claimSymbols (count seed : Nat) : (claimSymbols count seed).length = count := by
  induction count generalizing seed with
  | zero => rfl
  | succ count ih => exact congrArg Nat.succ (ih _)

theorem mem_claimAlphabet_of_mem {count seed : Nat} {c : Char} (h : c ∈ claimSymbols count seed) :
    c ∈ claimAlphabet := by
  induction count generalizing seed with
  | zero => cases h
  | succ count ih =>
    have hdigit : seed % claimAlphabet.length < claimAlphabet.length := Nat.mod_lt _ (by decide)
    obtain rfl | h := List.mem_cons.mp h
    · rw [List.getD_eq_getElem _ _ hdigit]
      exact List.getElem_mem hdigit
    · exact ih h

/-- The digits of a seed can be chosen one by one. -/
theorem exists_claimSymbols {s : List Char} (h : ∀ c ∈ s, c ∈ claimAlphabet) :
    ∃ seed, claimSymbols s.length seed = s := by
  induction s with
  | nil => exact ⟨0, rfl⟩
  | cons c s ih =>
    obtain ⟨seed, hseed⟩ := ih fun d hd => h d (List.mem_cons_of_mem c hd)
    obtain ⟨digit, hdigit, hc⟩ := List.getElem_of_mem (h c List.mem_cons_self)
    have hmod : (digit + claimAlphabet.length * seed) % claimAlphabet.length = digit := by
      rw [Nat.add_mul_mod_self_left, Nat.mod_eq_of_lt hdigit]
    have hdiv : (digit + claimAlphabet.length * seed) / claimAlphabet.length = seed := by
      rw [Nat.add_mul_div_left _ _ (by decide), Nat.div_eq_of_lt hdigit, Nat.zero_add]
    refine ⟨digit + claimAlphabet.length * seed, ?_⟩
    rw [List.length_cons, claimSymbols, hmod, hdiv, hseed, List.getD_eq_getElem _ _ hdigit, hc]

namespace ClaimCode

/-- Eight symbols of the alphabet. -/
def IsText (s : String) : Prop := s.toList.length = claimLength ∧ ∀ c ∈ s.toList, c ∈ claimAlphabet

/-- Less than the lifetime has passed since the code was drawn. -/
def IsLive (c : ClaimCode) (now lifetime : Duration) : Prop := now.sub c.issuedAt < lifetime

theorem isText_draw (seed : Nat) (now : Duration) : IsText (draw seed now).code := by
  rw [IsText, draw, String.toList_ofList]
  exact ⟨length_claimSymbols _ _, fun c => mem_claimAlphabet_of_mem⟩

/-- **What may be drawn** is any eight symbols of the alphabet. -/
theorem exists_draw_iff {now : Duration} {s : String} :
    (∃ seed, (draw seed now).code = s) ↔ IsText s := by
  constructor
  · rintro ⟨seed, rfl⟩
    exact isText_draw seed now
  · rintro ⟨hlength, hsymbols⟩
    obtain ⟨seed, hseed⟩ := exists_claimSymbols hsymbols
    refine ⟨seed, ?_⟩
    rw [draw, ← hlength, hseed, String.ofList_toList]

/-- No code is drawn from every seed. -/
theorem draw_zero_ne_draw_one (now : Duration) : draw 0 now ≠ draw 1 now := by
  have hcodes : claimSymbols claimLength 0 ≠ claimSymbols claimLength 1 := by decide
  exact fun h => hcodes (String.ofList_injective (congrArg code h))

/-! ## The time that is left -/

theorem nanos_expiresIn (c : ClaimCode) (now lifetime : Duration) :
    (c.expiresIn now lifetime).nanos = lifetime.nanos - (now.nanos - c.issuedAt.nanos) := rfl

theorem isZero_expiresIn {c : ClaimCode} {now lifetime : Duration} :
    (c.expiresIn now lifetime).isZero = false ↔ c.IsLive now lifetime := by
  have hpassed : (now.sub c.issuedAt).nanos = now.nanos - c.issuedAt.nanos := rfl
  rw [IsLive, Duration.lt_def, hpassed, Duration.isZero, decide_eq_false_iff_not, nanos_expiresIn]
  omega

theorem expiresIn_le (c : ClaimCode) (now lifetime : Duration) :
    c.expiresIn now lifetime ≤ lifetime := by
  rw [Duration.le_def, nanos_expiresIn]
  exact Nat.sub_le _ _

theorem expiresIn_pos {c : ClaimCode} {now lifetime : Duration} (h : c.IsLive now lifetime) :
    .zero < c.expiresIn now lifetime := by
  have hzero := isZero_expiresIn.mpr h
  exact Nat.pos_of_ne_zero (of_decide_eq_false hzero)

/-- A code is live when it is drawn. -/
theorem isLive_draw {lifetime : Duration} (h : .zero < lifetime) (seed : Nat) (now : Duration) :
    (draw seed now).IsLive now lifetime := by
  have hpassed : (now.sub now).nanos = 0 := Nat.sub_self _
  rw [IsLive, draw, Duration.lt_def, hpassed]
  exact h

end ClaimCode

namespace ClaimStore

open ClaimCode

variable {s : ClaimStore}

/-! ## One call -/

theorem stale_eq_false_iff {now : Duration} :
    s.stale now = false ↔ ∃ c, s.last = some c ∧ c.IsLive now s.lifetime := by
  unfold stale
  cases s.last with
  | none => simp
  | some c => simp [isZero_expiresIn]

/-- **The code last drawn is given again** if it is live and no new one is asked for. If not, a new
one is drawn. -/
theorem current_cases (s : ClaimStore) (rotate : Bool) (now : Duration) (seed : Nat) :
    (rotate = false ∧ s.stale now = false ∧
      ∃ c, s.last = some c ∧ s.current rotate now seed = (c, s)) ∨
    ((rotate = true ∨ s.stale now = true) ∧
      s.current rotate now seed = (.draw seed now, { s with last := some (.draw seed now) })) := by
  unfold current
  split
  · rename_i c hlast
    split
    · rename_i hdue
      exact .inr ⟨by simpa using hdue, rfl⟩
    · rename_i hlive
      obtain ⟨hrotate, hstale⟩ : rotate = false ∧ s.stale now = false := by simpa using hlive
      exact .inl ⟨hrotate, hstale, c, hlast, rfl⟩
  · rename_i hnone
    exact .inr ⟨.inr (by rw [stale, hnone]; rfl), rfl⟩

theorem last_current (s : ClaimStore) (rotate : Bool) (now : Duration) (seed : Nat) :
    (s.current rotate now seed).2 = { s with last := some (s.current rotate now seed).1 } := by
  obtain ⟨-, -, c, hlast, heq⟩ | ⟨-, heq⟩ := s.current_cases rotate now seed
  · rw [heq, ← hlast]
  · rw [heq]

/-- The seed does not matter exactly where a live code is kept. -/
theorem current_eq_iff {rotate : Bool} {now : Duration} {c : ClaimCode} :
    (∀ seed, (s.current rotate now seed).1 = c) ↔
      rotate = false ∧ s.last = some c ∧ c.IsLive now s.lifetime := by
  constructor
  · intro h
    obtain ⟨hrotate, hlive, d, hlast, heq⟩ | ⟨hdue, heq⟩ := s.current_cases rotate now 0
    · obtain rfl : d = c := by rw [← h 0, heq]
      obtain ⟨e, hlast', he⟩ := stale_eq_false_iff.mp hlive
      rw [hlast] at hlast'
      cases hlast'
      exact ⟨hrotate, hlast, he⟩
    · -- a code that is due is drawn, and two seeds draw two codes
      obtain ⟨hrotate, hlive, -⟩ | ⟨-, heq'⟩ := s.current_cases rotate now 1
      · simp [hrotate, hlive] at hdue
      · have hzero := h 0
        have hone := h 1
        rw [heq] at hzero
        rw [heq'] at hone
        exact absurd (hzero.trans hone.symm) (draw_zero_ne_draw_one now)
  · rintro ⟨rfl, hlast, hlive⟩ seed
    obtain ⟨-, -, d, hlast', heq⟩ | ⟨hdue, -⟩ := s.current_cases false now seed
    · rw [hlast] at hlast'
      cases hlast'
      rw [heq]
    · have hstale := stale_eq_false_iff.mpr ⟨c, hlast, hlive⟩
      simp [hstale] at hdue

/-- Where no live code is kept, the code is a new one. -/
theorem current_of_due {rotate : Bool} {now : Duration}
    (h : ∀ c, ¬(rotate = false ∧ s.last = some c ∧ c.IsLive now s.lifetime)) (seed : Nat) :
    (s.current rotate now seed).1 = .draw seed now := by
  obtain ⟨hrotate, hlive, -⟩ | ⟨-, heq⟩ := s.current_cases rotate now seed
  · obtain ⟨c, hlast, hc⟩ := stale_eq_false_iff.mp hlive
    exact absurd ⟨hrotate, hlast, hc⟩ (h c)
  · rw [heq]

/-- No code is given that has expired, unless codes expire at once. -/
theorem isLive_current (h : .zero < s.lifetime) (rotate : Bool) (now : Duration) (seed : Nat) :
    (s.current rotate now seed).1.IsLive now s.lifetime := by
  obtain ⟨-, hlive, c, hlast, heq⟩ | ⟨-, heq⟩ := s.current_cases rotate now seed
  · obtain ⟨d, hlast', hd⟩ := stale_eq_false_iff.mp hlive
    rw [hlast] at hlast'
    cases hlast'
    rwa [heq]
  · rw [heq]
    exact isLive_draw h seed now

theorem expiresIn_eq (s : ClaimStore) (now : Duration) :
    s.expiresIn now = (s.last.map fun c => c.expiresIn now s.lifetime).getD s.lifetime := by
  unfold expiresIn
  cases s.last <;> rfl

/-- Two reads at one instant are about the same code. -/
theorem expiresIn_current (s : ClaimStore) (rotate : Bool) (now : Duration) (seed : Nat) :
    (s.current rotate now seed).2.expiresIn now =
      (s.current rotate now seed).1.expiresIn now s.lifetime := by
  rw [expiresIn_eq, last_current]
  rfl

end ClaimStore

/-! ## Calls one after the other -/

/-- A call of a store of claim codes. -/
inductive ClaimCall where
  /-- The code at an instant, a new one on request. A new one is drawn from the seed. -/
  | current (rotate : Bool) (now : Duration) (seed : Nat)
  /-- The time that is left at an instant. -/
  | expiresIn (now : Duration)

/-- What a call is answered with. -/
inductive ClaimAnswer where
  | code (c : ClaimCode)
  | left (time : Duration)

def ClaimAnswer.code? : ClaimAnswer → Option ClaimCode
  | .code c => some c
  | .left _ => none

namespace ClaimStore

open ClaimCode

/-- The answer to a call, and the store afterwards. -/
def answer (s : ClaimStore) : ClaimCall → ClaimAnswer × ClaimStore
  | .current rotate now seed => (.code (s.current rotate now seed).1, (s.current rotate now seed).2)
  | .expiresIn now => (.left (s.expiresIn now), s)

def answers (s : ClaimStore) : List ClaimCall → List ClaimAnswer
  | [] => []
  | call :: calls => (s.answer call).1 :: (s.answer call).2.answers calls

def after (s : ClaimStore) (calls : List ClaimCall) : ClaimStore :=
  calls.foldl (fun s call => (s.answer call).2) s

/-- The code that was given last. -/
def lastGiven (answers : List ClaimAnswer) : Option ClaimCode :=
  (answers.filterMap ClaimAnswer.code?).getLast?

theorem lastGiven_cons (a : ClaimAnswer) (answers : List ClaimAnswer) :
    lastGiven (a :: answers) = (lastGiven answers).or a.code? := by
  cases a with
  | code c =>
    unfold lastGiven
    rw [List.filterMap_cons_some (f := ClaimAnswer.code?) rfl, List.getLast?_cons]
    cases (answers.filterMap ClaimAnswer.code?).getLast? <;> rfl
  | left time => exact (Option.or_none).symm

/-- **A call** keeps the lifetime, and the code that it gives if it gives one. -/
theorem answer_snd (s : ClaimStore) (call : ClaimCall) :
    (s.answer call).2 = { s with last := (s.answer call).1.code?.or s.last } := by
  cases call with
  | current rotate now seed => exact s.last_current rotate now seed
  | expiresIn now => rfl

theorem lifetime_after (s : ClaimStore) (calls : List ClaimCall) :
    (s.after calls).lifetime = s.lifetime := by
  induction calls generalizing s with
  | nil => rfl
  | cons call calls ih =>
    refine (ih (s.answer call).2).trans ?_
    rw [answer_snd]

/-- **The store keeps the code that it gave last.** -/
theorem last_after (s : ClaimStore) (calls : List ClaimCall) :
    (s.after calls).last = (lastGiven (s.answers calls)).or s.last := by
  induction calls generalizing s with
  | nil => rfl
  | cons call calls ih =>
    refine (ih (s.answer call).2).trans ?_
    rw [answers, lastGiven_cons, Option.or_assoc, answer_snd]

theorem isText_answers {s : ClaimStore} (h : ∀ c ∈ s.last, IsText c.code) {calls : List ClaimCall}
    {c : ClaimCode} (hc : .code c ∈ s.answers calls) : IsText c.code := by
  induction calls generalizing s with
  | nil => cases hc
  | cons call calls ih =>
    have hgiven : ∀ d ∈ (s.answer call).1.code?, IsText d.code := by
      intro d hd
      cases call with
      | current rotate now seed =>
        cases hd
        obtain ⟨-, -, d, hlast, heq⟩ | ⟨-, heq⟩ := s.current_cases rotate now seed
        · rw [heq]
          exact h d hlast
        · rw [heq]
          exact isText_draw seed now
      | expiresIn now => cases hd
    obtain hc | hc := List.mem_cons.mp hc
    · exact hgiven c (congrArg ClaimAnswer.code? hc).symm
    · refine ih (fun d hd => ?_) hc
      rw [answer_snd, Option.mem_def, Option.or_eq_some_iff] at hd
      obtain hd | ⟨-, hd⟩ := hd
      · exact hgiven d hd
      · exact h d hd

/-- **A store shows a live code, and the same one as long as it is live.** After any calls, at
instants in any order: the code that was given last is given again, whatever the next one would be,
exactly if no new one is asked for and less than the lifetime has passed since it was drawn, no time
where the clock has gone back. If not, the code is drawn now, and may be any eight symbols of the
alphabet. Unless codes expire at once, the code that is given is live at that instant, with some
time left, at most the lifetime. The time left is that of the code that was given last, the lifetime
if there is none. All codes that were given are eight symbols of the alphabet, which has 31. -/
theorem shows_live_code (lifetime : Duration) (calls : List ClaimCall) (rotate : Bool)
    (now : Duration) :
    let s := (new lifetime).after calls
    let last := lastGiven ((new lifetime).answers calls)
    (∀ c, (∀ seed, (s.current rotate now seed).1 = c) ↔
      rotate = false ∧ last = some c ∧ now.sub c.issuedAt < lifetime) ∧
    ((∀ c, ¬(rotate = false ∧ last = some c ∧ now.sub c.issuedAt < lifetime)) →
      (∀ seed, (s.current rotate now seed).1.issuedAt = now) ∧
        ∀ text, (∃ seed, (s.current rotate now seed).1.code = text) ↔ IsText text) ∧
    (.zero < lifetime → ∀ seed,
      let left := (s.current rotate now seed).2.expiresIn now
      .zero < left ∧ left ≤ lifetime ∧
        left = (s.current rotate now seed).1.expiresIn now lifetime) ∧
    s.expiresIn now = (last.map fun c => c.expiresIn now lifetime).getD lifetime ∧
    (∀ c, .code c ∈ (new lifetime).answers calls → IsText c.code) ∧
    claimAlphabet.length = 31 ∧ claimAlphabet.Nodup := by
  intro s last
  have hlast : s.last = last := (last_after (new lifetime) calls).trans Option.or_none
  have hlifetime : s.lifetime = lifetime := lifetime_after (new lifetime) calls
  clear_value s
  subst hlifetime
  rw [← hlast]
  refine ⟨fun c => current_eq_iff, fun hdue => ?_, fun hpos seed => ?_, s.expiresIn_eq now,
    fun c => isText_answers fun _ hnone => (by cases hnone), length_claimAlphabet,
    nodup_claimAlphabet⟩
  · have hdrawn := current_of_due hdue
    refine ⟨fun seed => by rw [hdrawn]; rfl, fun text => ?_⟩
    simp only [hdrawn]
    exact exists_draw_iff
  · dsimp only
    rw [expiresIn_current]
    exact ⟨expiresIn_pos (isLive_current hpos rotate now seed), expiresIn_le _ _ _, rfl⟩

end ClaimStore

end DeviceRelay
