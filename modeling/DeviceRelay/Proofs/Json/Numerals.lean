import DeviceRelay.Json.Printer
import DeviceRelay.Proofs.Json.Reading

/-!
# Numbers as they are written and read

What is written for a number is a numeral: a sign, digits, and perhaps a point and an exponent with
digits of their own. The reader takes a numeral whole, as long as nothing follows that could go on
with it, and what it gives depends on the digits alone. An integer of 64 bits is read as itself. The
digits of a double are scaled by a power of ten that is rounded, so the double that is read may be
a neighbour of the one that was written.

* `Json.Spelling`: a numeral as it is written, after its sign.
* `Json.Numeral.scan_spelling`: it is scanned into its digits.
* `Json.exists_spells`: what is written for a number is a numeral.
* `Number.reread?`: the number that is read for the digits of a number.
* `Json.reads_numberChars_iff`: a number that is read where it was written.
-/

namespace DeviceRelay

open Json

namespace Json

/-! ## Numerals as they are written -/

/-- The values of digits. -/
def digitValues (digits : List Char) : List Nat := digits.map fun c => c.toNat - '0'.toNat

/-- Digits after a mark, where there are any. -/
def marked (mark digits : List Char) : List Char := if digits.isEmpty then [] else mark ++ digits

/-- A numeral as it is written, after its sign. -/
structure Spelling where
  whole : List Char
  fraction : List Char := []
  exponentNegative : Bool := false
  exponent : List Char := []

namespace Spelling

/-- The mark of an exponent, with its sign. -/
def exponentMark (s : Spelling) : List Char := ['e', if s.exponentNegative then '-' else '+']

def chars (s : Spelling) : List Char :=
  s.whole ++ (marked ['.'] s.fraction ++ marked s.exponentMark s.exponent)

/-- The numeral that is written. -/
def numeral (s : Spelling) (negative : Bool) : Numeral :=
  ⟨negative, digitValues s.whole, digitValues s.fraction, s.exponentNegative,
    digitValues s.exponent⟩

/-- The whole part does not start with a zero, or is one. -/
structure Valid (s : Spelling) : Prop where
  whole_ne_nil : s.whole ≠ []
  leading : s.whole.head? = some '0' → s.whole = ['0']
  whole : ∀ c ∈ s.whole, c.isDigit = true
  fraction : ∀ c ∈ s.fraction, c.isDigit = true
  exponent : ∀ c ∈ s.exponent, c.isDigit = true
  sign : s.exponent = [] → s.exponentNegative = false

end Spelling

/-- A character that could go on with a numeral. -/
def goesOn (c : Char) : Bool := c.isDigit || c = '.' || c = 'e' || c = 'E'

/-- A numeral that comes before the text ends there. -/
def Ends (rest : List Char) : Prop := ∀ c ∈ rest.head?, goesOn c = false

theorem ends_nil : Ends [] := nofun

theorem ends_cons {c : Char} (h : goesOn c = false) (rest : List Char) : Ends (c :: rest) := by
  rintro d ⟨⟩
  exact h

/-! ## Scanning -/

theorem digit?_of_isDigit {c : Char} (h : c.isDigit = true) :
    digit? c = some (c.toNat - '0'.toNat) := if_pos h

/-- Digits are taken up to the first character that is none. -/
theorem spanDigits_append {digits rest : List Char} (hd : ∀ c ∈ digits, c.isDigit = true)
    (hr : ∀ c ∈ rest.head?, c.isDigit = false) :
    ∃ h, spanDigits (digits ++ rest) = (digitValues digits, ⟨rest, h⟩) := by
  have htake : (digits ++ rest).takeWhile Char.isDigit = digits := by
    rw [List.takeWhile_append_of_pos hd]
    cases rest with
    | nil => exact List.append_nil digits
    | cons c r =>
      rw [List.takeWhile_cons_of_neg (by simp [hr c rfl]), List.append_nil]
  have hdrop : (digits ++ rest).dropWhile Char.isDigit = rest := by
    rw [List.dropWhile_append_of_pos hd]
    cases rest with
    | nil => rfl
    | cons c r => exact List.dropWhile_cons_of_neg (by simp [hr c rfl])
  refine ⟨by simp, ?_⟩
  simp only [spanDigits, htake, hdrop, digitValues]

namespace Numeral

theorem scanWhole_append {digits rest : List Char} (hne : digits ≠ [])
    (hzero : digits.head? = some '0' → digits = ['0']) (hd : ∀ c ∈ digits, c.isDigit = true)
    (hr : ∀ c ∈ rest.head?, c.isDigit = false) :
    ∃ h, scanWhole (digits ++ rest) = .ok (digitValues digits, ⟨rest, h⟩) := by
  obtain ⟨c, digits, rfl⟩ := List.exists_cons_of_ne_nil hne
  obtain ⟨hc, hd⟩ := List.forall_mem_cons.mp hd
  refine ⟨by simp only [List.cons_append, List.length_cons, List.length_append]; omega, ?_⟩
  change scanWhole (c :: (digits ++ rest)) = _
  rw [scanWhole, digit?_of_isDigit hc]
  by_cases h0 : c = '0'
  · subst h0
    cases hzero rfl
    have hnext : rest.head?.any Char.isDigit = false := by
      cases rest with
      | nil => rfl
      | cons d r => exact hr d rfl
    simp only [List.nil_append, hnext]
    rfl
  · have hpos : c.toNat - '0'.toNat ≠ 0 := by
      have hlow : '0'.toNat ≤ c.toNat := by
        simp only [Char.isDigit, Bool.and_eq_true, decide_eq_true_eq] at hc
        exact hc.1
      intro h
      exact h0 (Char.toNat_inj.mp (by omega))
    obtain ⟨hlen, hspan⟩ := spanDigits_append hd hr
    obtain ⟨n, hn⟩ := Nat.exists_eq_succ_of_ne_zero hpos
    rw [hn]
    simp only [hspan, digitValues, List.map_cons, hn]
    rfl

theorem scanFraction_append {digits rest : List Char} (hd : ∀ c ∈ digits, c.isDigit = true)
    (hr : ∀ c ∈ rest.head?, c.isDigit = false ∧ c ≠ '.') :
    ∃ h, scanFraction (marked ['.'] digits ++ rest) = .ok (digitValues digits, ⟨rest, h⟩) := by
  cases digits with
  | nil =>
    refine ⟨Nat.le_refl _, ?_⟩
    change scanFraction rest = _
    unfold scanFraction
    split
    · exact absurd rfl (hr '.' rfl).2
    · rfl
  | cons d ds =>
    obtain ⟨hlen, hspan⟩ := spanDigits_append hd fun c hc => (hr c hc).1
    refine ⟨Nat.le_succ_of_le hlen, ?_⟩
    change scanFraction ('.' :: (d :: ds ++ rest)) = _
    rw [scanFraction]
    simp only [hspan, digitValues, List.map_cons]
    rfl

theorem scanExponent_append {s : Spelling} (hd : ∀ c ∈ s.exponent, c.isDigit = true)
    (hsign : s.exponent = [] → s.exponentNegative = false) {rest : List Char} (hr : Ends rest) :
    ∃ h, scanExponent (marked s.exponentMark s.exponent ++ rest) =
      .ok ((s.exponentNegative, digitValues s.exponent), ⟨rest, h⟩) := by
  obtain ⟨_, _, negative, digits⟩ := s
  dsimp only [Spelling.exponentMark] at hd hsign ⊢
  cases digits with
  | nil =>
    cases hsign rfl
    refine ⟨Nat.le_refl _, ?_⟩
    change scanExponent rest = _
    cases rest with
    | nil => rfl
    | cons c r =>
      have hc := hr c rfl
      simp only [goesOn, Bool.or_eq_false_iff, decide_eq_false_iff_not] at hc
      have he : ¬ (c = 'e' ∨ c = 'E') := not_or.mpr ⟨hc.1.2, hc.2⟩
      exact if_neg he
  | cons d ds =>
    have hnext : ∀ c ∈ rest.head?, c.isDigit = false := by
      intro c hc
      have h := hr c hc
      simp only [goesOn, Bool.or_eq_false_iff] at h
      exact h.1.1.1
    obtain ⟨hlen, hspan⟩ := spanDigits_append hd hnext
    refine ⟨Nat.le_trans hlen (by simp [marked]), ?_⟩
    have he : 'e' = 'e' ∨ 'e' = 'E' := .inl rfl
    change scanExponent ('e' :: (if negative then '-' else '+') :: (d :: ds ++ rest)) = _
    unfold scanExponent
    dsimp only
    rw [if_pos he]
    -- the sign is taken, and the digits that follow it are some
    cases negative <;> split <;> rename_i h <;> cases hspan.symm.trans h
    · rfl
    · rfl

/-- What follows the whole part, or the fraction, of a numeral. -/
theorem head?_marked_append {mark : Char} {marks digits rest : List Char} {c : Char}
    (h : c ∈ (marked (mark :: marks) digits ++ rest).head?) : c = mark ∨ c ∈ rest.head? := by
  cases digits with
  | nil => exact .inr h
  | cons d ds => exact .inl (Option.some.inj h).symm

/-- **A numeral that was written is scanned into its digits.** -/
theorem scan_spelling {s : Spelling} (hs : s.Valid) (negative : Bool) {rest : List Char}
    (hr : Ends rest) :
    ∃ h, scan negative (s.chars ++ rest) = .ok (s.numeral negative, ⟨rest, h⟩) := by
  -- what follows each part cannot go on with it
  have hend : ∀ c ∈ rest.head?, c.isDigit = false ∧ c ≠ '.' := by
    intro c hc
    have h := hr c hc
    simp only [goesOn, Bool.or_eq_false_iff, decide_eq_false_iff_not] at h
    exact ⟨h.1.1.1, h.1.1.2⟩
  have hexponent : ∀ c ∈ (marked s.exponentMark s.exponent ++ rest).head?,
      c.isDigit = false ∧ c ≠ '.' := by
    intro c hc
    obtain rfl | hc := head?_marked_append hc
    · exact ⟨rfl, by decide⟩
    · exact hend c hc
  have hfraction : ∀ c ∈ (marked ['.'] s.fraction ++
      (marked s.exponentMark s.exponent ++ rest)).head?, c.isDigit = false := by
    intro c hc
    obtain rfl | hc := head?_marked_append hc
    · rfl
    · exact (hexponent c hc).1
  obtain ⟨h₁, hwhole⟩ := scanWhole_append hs.whole_ne_nil hs.leading hs.whole hfraction
  obtain ⟨h₂, hpoint⟩ := scanFraction_append hs.fraction hexponent
  obtain ⟨h₃, hmark⟩ := scanExponent_append hs.exponent hs.sign hr
  have hchars : s.chars ++ rest =
      s.whole ++ (marked ['.'] s.fraction ++ (marked s.exponentMark s.exponent ++ rest)) := by
    simp only [Spelling.chars, List.append_assoc]
  rw [hchars]
  refine ⟨by omega, ?_⟩
  exact bind_eq_ok.mpr ⟨_, hwhole, bind_eq_ok.mpr ⟨_, hpoint, bind_eq_ok.mpr ⟨_, hmark, rfl⟩⟩⟩

end Numeral

/-- A number that is read where a numeral was written is the value of the numeral. -/
theorem readNumber_spelling_iff {s : Spelling} (hs : s.Valid) (negative : Bool)
    {rest t : List Char} (hr : Ends rest) {n : Number} :
    (∃ h, readNumber negative (s.chars ++ rest) = .ok (n, ⟨t, h⟩)) ↔
      (s.numeral negative).value = .ok n ∧ t = rest := by
  obtain ⟨hlen, hscan⟩ := Numeral.scan_spelling hs negative hr
  constructor
  · rintro ⟨_, h⟩
    obtain ⟨⟨numeral, r⟩, h', h⟩ := bind_eq_ok.mp h
    cases hscan.symm.trans h'
    dsimp only at h
    split at h
    · rename_i hv
      cases h
      exact ⟨hv, rfl⟩
    · cases h
  · rintro ⟨hv, rfl⟩
    refine ⟨hlen, bind_eq_ok.mpr ⟨_, hscan, ?_⟩⟩
    dsimp only
    rw [hv]

/-! ## The numeral of a number -/

theorem isDigit_naturalChars {n : Nat} {c : Char} (h : c ∈ naturalChars n) : c.isDigit = true :=
  Nat.isDigit_of_mem_toDigits (by decide) (by decide) h

theorem naturalChars_ne_nil (n : Nat) : naturalChars n ≠ [] := Nat.toDigits_ne_nil

/-- The digits of a number above zero do not start with a zero. -/
theorem head?_naturalChars {n : Nat} (h : 0 < n) : (naturalChars n).head? ≠ some '0' := by
  induction n using Nat.strongRecOn with
  | _ n ih =>
    unfold naturalChars at ih ⊢
    by_cases hn : n < 10
    · rw [Nat.toDigits_of_lt_base hn]
      have hall : ∀ n : Fin 10, 0 < n.val → n.val.digitChar ≠ '0' := by decide
      intro h0
      exact hall ⟨n, hn⟩ h (Option.some.inj h0)
    · have hten : 10 ≤ n := Nat.not_lt.mp hn
      rw [Nat.toDigits_of_base_le (by decide) hten]
      have hhead := ih (n / 10) (by omega) (by omega)
      cases h : Nat.toDigits 10 (n / 10) with
      | nil => exact absurd h Nat.toDigits_ne_nil
      | cons c cs =>
        rw [h] at hhead
        exact hhead

end Json

namespace Magnitude

/-- The lower midpoint of a magnitude above zero is above zero. -/
theorem not_admits_zero {x : Magnitude} (hx : x.mantissa ≠ 0) {unit : Nat} (hunit : 0 < unit)
    (grid : Nat) : x.admits unit grid 0 = false := by
  have hquarters : x.lowerQuarters ≤ 2 := by
    unfold lowerQuarters
    split <;> omega
  have hlow : 0 < (4 * x.mantissa - x.lowerQuarters) * unit := Nat.mul_pos (by omega) hunit
  unfold admits
  dsimp only
  rw [Nat.zero_mul]
  split
  · rw [decide_eq_false (Nat.not_le.mpr hlow), Bool.false_and]
  · rw [decide_eq_false (Nat.not_lt_zero _), Bool.false_and]

theorem digits_pos_of_onGrid? {x : Magnitude} (hx : x.mantissa ≠ 0) {k : Int} {d : Decimal}
    (h : x.onGrid? k = some d) : 0 < d.digits := by
  have hunit : 0 < twoTo (x.exponent - 2).toNat * tenTo (-k).toNat :=
    Nat.mul_pos (Nat.two_pow_pos _) (Nat.pow_pos (by decide))
  -- the digits are admitted, or one above
  have hpos {grid c : Nat}
      (hc : x.admits (twoTo (x.exponent - 2).toNat * tenTo (-k).toNat) grid c = true) : 0 < c := by
    refine Nat.pos_of_ne_zero ?_
    rintro rfl
    rw [not_admits_zero hx hunit] at hc
    cases hc
  unfold onGrid? at h
  dsimp only at h
  split at h
  · rename_i hc _
    cases h
    dsimp only
    split
    · exact Nat.succ_pos _
    · exact hpos hc
  · rename_i hc _
    cases h
    exact hpos hc
  · cases h
    exact Nat.succ_pos _
  · cases h

/-- The shortest digits of a magnitude above zero are above zero, where any are found. -/
theorem digits_shortest {x : Magnitude} (hx : x.mantissa ≠ 0) :
    0 < x.shortest.digits ∨ x.shortest = ⟨0, 0⟩ := by
  have hfirst (count : Nat) (k : Int) (d : Decimal) (h : x.firstOnGrid? count k = some d) :
      0 < d.digits := by
    induction count generalizing k with
    | zero => cases h
    | succ count ih =>
      rw [firstOnGrid?] at h
      split at h
      · rename_i hgrid
        cases h
        exact digits_pos_of_onGrid? hx hgrid
      · exact ih _ h
  unfold shortest
  dsimp only
  generalize hfound : x.firstOnGrid? 40 _ = found
  cases found with
  | none => exact .inr rfl
  | some d => exact .inl (hfirst _ _ d hfound)

end Magnitude

namespace Json

theorem marked_of_ne_nil {digits : List Char} (h : digits ≠ []) (mark : List Char) :
    marked mark digits = mark ++ digits := by
  obtain ⟨d, ds, rfl⟩ := List.exists_cons_of_ne_nil h
  rfl

section Decimals

variable {digits : List Char} (hdigits : ∀ c ∈ digits, c.isDigit = true) (hne : digits ≠ [])

include hdigits

private theorem isDigit_replicate_append (n : Nat) :
    ∀ c ∈ List.replicate n '0' ++ digits, c.isDigit = true := by
  intro c hc
  obtain hc | hc := List.mem_append.mp hc
  · rw [List.eq_of_mem_replicate hc]
    rfl
  · exact hdigits c hc

include hne

/-- Digits, zeros, and a point with a zero. -/
theorem valid_whole (hlead : digits.head? ≠ some '0') (zeros : Nat) :
    Spelling.Valid { whole := digits ++ List.replicate zeros '0', fraction := ['0'] } where
  whole_ne_nil := List.append_ne_nil_of_left_ne_nil hne _
  leading h := by
    obtain ⟨c, cs, rfl⟩ := List.exists_cons_of_ne_nil hne
    exact absurd h hlead
  whole c hc := by
    obtain hc | hc := List.mem_append.mp hc
    · exact hdigits c hc
    · rw [List.eq_of_mem_replicate hc]
      rfl
  fraction := List.forall_mem_singleton.mpr rfl
  exponent := nofun
  sign _ := rfl

/-- A point between two digits. -/
theorem valid_between (hlead : digits.head? ≠ some '0') {point : Nat} (hpoint : 0 < point) :
    Spelling.Valid { whole := digits.take point, fraction := digits.drop point } where
  whole_ne_nil := by
    simp [hne, Nat.ne_of_gt hpoint]
  leading h := by
    rw [List.head?_take, if_neg (Nat.ne_of_gt hpoint)] at h
    exact absurd h hlead
  whole c hc := hdigits c (List.mem_of_mem_take hc)
  fraction c hc := hdigits c (List.mem_of_mem_drop hc)
  exponent := nofun
  sign _ := rfl

/-- One digit, perhaps a point and further digits, and an exponent. -/
theorem valid_scientific (exponent : Int) :
    Spelling.Valid
      { whole := digits.take 1, fraction := digits.drop 1
        exponentNegative := exponent < 0, exponent := naturalChars exponent.natAbs } where
  whole_ne_nil := by
    simp [hne]
  leading h := by
    obtain ⟨c, cs, rfl⟩ := List.exists_cons_of_ne_nil hne
    cases h
    rfl
  whole c hc := hdigits c (List.mem_of_mem_take hc)
  fraction c hc := hdigits c (List.mem_of_mem_drop hc)
  exponent _ := isDigit_naturalChars
  sign h := absurd h (naturalChars_ne_nil _)

end Decimals

/-- A zero, a point, and zeros before the digits. -/
theorem valid_small {digits : List Char} (hdigits : ∀ c ∈ digits, c.isDigit = true)
    (zeros : Nat) :
    Spelling.Valid { whole := ['0'], fraction := List.replicate zeros '0' ++ digits } where
  whole_ne_nil := List.cons_ne_nil _ _
  leading _ := rfl
  whole := List.forall_mem_singleton.mpr rfl
  fraction := isDigit_replicate_append hdigits zeros
  exponent := nofun
  sign _ := rfl

/-- The digits of a decimal are written as a numeral. -/
theorem exists_spelling_decimal {d : Decimal} (hd : 0 < d.digits ∨ d = ⟨0, 0⟩) :
    ∃ s : Spelling, s.Valid ∧ s.chars = decimalChars d := by
  obtain hpos | rfl := hd
  · have hdigits : ∀ c ∈ naturalChars d.digits, c.isDigit = true := fun _ => isDigit_naturalChars
    have hlead := head?_naturalChars hpos
    have hne := naturalChars_ne_nil d.digits
    unfold decimalChars
    dsimp only
    generalize naturalChars d.digits = digits at hdigits hlead hne
    have hlength := List.length_pos_iff.mpr hne
    split
    · exact ⟨_, valid_whole hdigits hne hlead d.exponent.toNat, by simp [Spelling.chars, marked]⟩
    split
    · rename_i hexponent hpoint
      refine ⟨_, valid_between hdigits hne hlead (Int.pos_iff_toNat_pos.mp hpoint.1), ?_⟩
      have hdrop : digits.drop ((digits.length : Int) + d.exponent).toNat ≠ [] := by
        rw [ne_eq, List.drop_eq_nil_iff]
        omega
      rw [Spelling.chars, marked_of_ne_nil hdrop]
      simp [marked]
    split
    · refine ⟨_, valid_small hdigits (-((digits.length : Int) + d.exponent)).toNat, ?_⟩
      rw [Spelling.chars, marked_of_ne_nil (List.append_ne_nil_of_right_ne_nil _ hne)]
      simp [marked]
    · refine ⟨_, valid_scientific hdigits hne ((digits.length : Int) + d.exponent - 1), ?_⟩
      have hmantissa : digits.take 1 ++ marked ['.'] (digits.drop 1) =
          if digits.length ≤ 1 then digits else digits.take 1 ++ '.' :: digits.drop 1 := by
        split
        · rename_i hone
          rw [List.drop_eq_nil_iff.mpr hone, List.take_of_length_le hone]
          exact List.append_nil digits
        · rename_i hmore
          rw [marked_of_ne_nil (mt List.drop_eq_nil_iff.mp hmore)]
          rfl
      rw [Spelling.chars, marked_of_ne_nil (naturalChars_ne_nil _), ← List.append_assoc,
        ← List.append_assoc, hmantissa, Spelling.exponentMark]
      congr 2
      by_cases hsign : (digits.length : Int) + d.exponent - 1 < 0 <;> simp [hsign]
  · exact ⟨_, valid_small (List.forall_mem_nil _) 1, rfl⟩

theorem valid_natural (n : Nat) : Spelling.Valid { whole := naturalChars n } where
  whole_ne_nil := naturalChars_ne_nil n
  leading h := by
    obtain rfl | hpos := Nat.eq_zero_or_pos n
    · rfl
    · exact absurd h (head?_naturalChars hpos)
  whole _ := isDigit_naturalChars
  fraction := nofun
  exponent := nofun
  sign _ := rfl

/-- The numeral `s` is what is written for a number, after a minus where it is negative. -/
structure Spells (n : Number) (negative : Bool) (s : Spelling) : Prop where
  valid : s.Valid
  chars_eq : numberChars n = if negative then '-' :: s.chars else s.chars

theorem chars_natural (n : Nat) : Spelling.chars { whole := naturalChars n } = naturalChars n :=
  List.append_nil _

theorem spells_natural (n : UInt64) : Spells (.natural n) false { whole := naturalChars n.toNat } :=
  ⟨valid_natural _, (chars_natural _).symm⟩

theorem spells_negative {n : Int64} (h : n.toInt < 0) :
    Spells (.negative n) true { whole := naturalChars n.toInt.natAbs } := by
  refine ⟨valid_natural _, ?_⟩
  rw [chars_natural, numberChars, integerChars, if_pos h]
  rfl

/-- What is written for a number is a numeral. -/
theorem exists_spells (n : Number) : ∃ negative s, Spells n negative s := by
  cases n with
  | natural n => exact ⟨false, _, spells_natural n⟩
  | negative n =>
    by_cases h : n.toInt < 0
    · exact ⟨true, _, spells_negative h⟩
    · refine ⟨false, _, valid_natural n.toInt.natAbs, ?_⟩
      rw [chars_natural, numberChars, integerChars, if_neg h]
      rfl
  | real x =>
    obtain ⟨s, hs, hchars⟩ : ∃ s : Spelling, s.Valid ∧ s.chars =
        if x.magnitude.mantissa = 0 then ['0', '.', '0']
        else decimalChars x.magnitude.shortest := by
      split
      · exact exists_spelling_decimal (d := ⟨0, 0⟩) (.inr rfl)
      · rename_i h
        exact exists_spelling_decimal (Magnitude.digits_shortest h)
    refine ⟨x.negative, s, hs, ?_⟩
    rw [hchars]
    rfl

end Json

/-- The number that is read where a number was written, if it is in range. -/
def Number.reread? (n : Number) : Option Number :=
  match Json.parse (Json.render (.number n)) with
  | .ok (.number m) => some m
  | _ => none

theorem Number.reread?_eq_some_iff {n m : Number} :
    n.reread? = some m ↔ Json.parse (Json.render (.number n)) = .ok (.number m) := by
  unfold reread?
  split
  · rename_i h
    rw [h, Option.some.injEq, Except.ok.injEq, Json.number.injEq]
  · rename_i h
    exact ⟨nofun, fun h' => absurd h' (h m)⟩

namespace Json

theorem readsFrom_minus_iff {d : Nat} {r t : List Char} {j : Json} :
    ReadsFrom d '-' r j t ↔
      ∃ m, (∃ h, readNumber true r = .ok (m, ⟨t, h⟩)) ∧ j = .number m := by
  constructor
  · intro h
    cases h with
    | negative h => exact ⟨_, h, rfl⟩
    | natural hc h => cases hc
  · rintro ⟨m, h, rfl⟩
    exact .negative h

theorem readsFrom_digit_iff {d : Nat} {c : Char} (hc : c.isDigit = true) {r t : List Char}
    {j : Json} :
    ReadsFrom d c r j t ↔
      ∃ m, (∃ h, readNumber false (c :: r) = .ok (m, ⟨t, h⟩)) ∧ j = .number m := by
  constructor
  · intro h
    cases h with
    | natural _ h => exact ⟨_, h, rfl⟩
    | _ => cases hc
  · rintro ⟨m, h, rfl⟩
    exact .natural hc h

/-- A value by its first character, where that is no blank. -/
theorem reads_cons_iff {d : Nat} {c : Char} (hc : isBlank c = false) {r t : List Char} {j : Json} :
    Reads d (c :: r) j t ↔ ReadsFrom d c r j t := by
  have hs : skipBlanks (c :: r) = c :: r := List.dropWhile_cons_of_neg (by simp [hc])
  rw [reads_iff_from, hs]
  constructor
  · rintro ⟨_, _, h, hfrom⟩
    cases h
    exact hfrom
  · intro h
    exact ⟨c, r, rfl, h⟩

theorem isBlank_of_isDigit {c : Char} (h : c.isDigit = true) : isBlank c = false := by
  unfold isBlank
  simp only [Bool.or_eq_false_iff, decide_eq_false_iff_not]
  refine ⟨⟨⟨?_, ?_⟩, ?_⟩, ?_⟩ <;> rintro rfl <;> cases h

section Spells

variable {n : Number} {negative : Bool} {s : Spelling} (hn : Spells n negative s)

include hn

/-- A number that is read where it was written has the value of its digits. -/
theorem Spells.reads_iff {d : Nat} {rest t : List Char} (hr : Ends rest) {j : Json} :
    Reads d (numberChars n ++ rest) j t ↔
      ∃ m, (s.numeral negative).value = .ok m ∧ j = .number m ∧ t = rest := by
  have hvalue (m : Number) := readNumber_spelling_iff (t := t) (n := m) hn.valid negative hr
  rw [hn.chars_eq]
  cases negative with
  | true =>
    rw [if_pos rfl, List.cons_append, reads_cons_iff rfl, readsFrom_minus_iff]
    simp only [hvalue, and_assoc, and_comm (a := _ = rest)]
  | false =>
    obtain ⟨c, cs, hwhole⟩ := List.exists_cons_of_ne_nil hn.valid.whole_ne_nil
    have hc : c.isDigit = true := hn.valid.whole c (hwhole ▸ List.mem_cons_self)
    obtain ⟨r, hstart⟩ : ∃ r, s.chars ++ rest = c :: r := by
      rw [Spelling.chars, hwhole]
      exact ⟨_, rfl⟩
    rw [hstart] at hvalue
    rw [if_neg Bool.false_ne_true, hstart, reads_cons_iff (isBlank_of_isDigit hc),
      readsFrom_digit_iff hc]
    simp only [hvalue, and_assoc, and_comm (a := _ = rest)]

theorem Spells.reread?_eq_some_iff {m : Number} :
    n.reread? = some m ↔ (s.numeral negative).value = .ok m := by
  have hchars : (render (.number n)).toList = numberChars n ++ [] := by
    rw [render, String.toList_ofList, chars, List.append_nil]
  rw [Number.reread?_eq_some_iff, parse_eq_ok_iff, hchars]
  simp only [hn.reads_iff ends_nil]
  constructor
  · rintro ⟨t, ⟨m', hm, h, -⟩, -⟩
    cases h
    exact hm
  · intro hm
    exact ⟨[], ⟨m, hm, rfl, rfl⟩, rfl⟩

end Spells

/-- **A number is read to its end where it was written**, whatever follows it there. -/
theorem reads_numberChars_iff {n : Number} {d : Nat} {rest t : List Char} (hr : Ends rest)
    {j : Json} :
    Reads d (numberChars n ++ rest) j t ↔ ∃ m, n.reread? = some m ∧ j = .number m ∧ t = rest := by
  obtain ⟨negative, s, hs⟩ := exists_spells n
  simp only [hs.reads_iff hr, hs.reread?_eq_some_iff]

/-! ## Integers -/

private theorem le_ofDigitChars (n : Nat) (digits : List Char) :
    n ≤ Nat.ofDigitChars 10 digits n := by
  induction digits generalizing n with
  | nil => exact Nat.le_refl n
  | cons c digits ih =>
    rw [Nat.ofDigitChars_cons]
    exact Nat.le_trans (by omega) (ih _)

/-- Digits whose number fits 64 bits are all kept. -/
theorem absorb_eq {n : Nat} {digits : List Char}
    (h : Nat.ofDigitChars 10 digits n ≤ Numeral.largest) :
    Numeral.absorb n (digitValues digits) = (Nat.ofDigitChars 10 digits n, 0) := by
  induction digits generalizing n with
  | nil => rfl
  | cons c digits ih =>
    rw [Nat.ofDigitChars_cons, Nat.mul_comm] at h ⊢
    rw [digitValues, List.map_cons, Numeral.absorb, if_pos (Nat.le_trans (le_ofDigitChars _ _) h)]
    exact ih h

theorem absorb_naturalChars {n : Nat} (h : n ≤ Numeral.largest) :
    Numeral.absorb 0 (digitValues (naturalChars n)) = (n, 0) := by
  have hn : Nat.ofDigitChars 10 (naturalChars n) 0 = n :=
    Nat.ofDigitChars_toDigits (by decide) (by decide)
  have habsorb := absorb_eq (hn.symm ▸ h)
  rw [habsorb, hn]

end Json

/-- A natural number of 64 bits is read as itself. -/
theorem Number.reread?_natural (n : UInt64) : (natural n).reread? = some (natural n) := by
  have hlargest : n.toNat ≤ Numeral.largest := Nat.le_sub_one_of_lt n.toNat_lt
  have hvalue : Numeral.value (Spelling.numeral { whole := naturalChars n.toNat } false) =
      .ok (natural (UInt64.ofNat n.toNat)) := by
    unfold Numeral.value Spelling.numeral
    dsimp only
    rw [absorb_naturalChars hlargest]
    rfl
  rw [(spells_natural n).reread?_eq_some_iff, hvalue, UInt64.ofNat_toNat]

/-- An integer of 64 bits below zero is read as itself. -/
theorem Number.reread?_negative {n : Int64} (h : n.toInt < 0) :
    (negative n).reread? = some (negative n) := by
  have hlow := n.le_toInt
  have hsize : 0 < n.toInt.natAbs ∧ n.toInt.natAbs ≤ UInt64.size / 2 := by
    rw [UInt64.size]
    omega
  have hlargest : n.toInt.natAbs ≤ Numeral.largest := Nat.le_trans hsize.2 (by decide)
  have hvalue : Numeral.value (Spelling.numeral { whole := naturalChars n.toInt.natAbs } true) =
      .ok (negative (Int64.ofInt (-(n.toInt.natAbs : Int)))) := by
    unfold Numeral.value Spelling.numeral
    dsimp only
    rw [absorb_naturalChars hlargest]
    exact if_pos hsize
  rw [(spells_negative h).reread?_eq_some_iff, hvalue, Int.ofNat_natAbs_of_nonpos (Int.le_of_lt h),
    Int.neg_neg, Int64.ofInt_toInt]

/-- An integer of 64 bits as the reader gives it: a natural number, or one below zero. -/
def Number.IsInteger : Number → Prop
  | .natural _ => True
  | .negative n => n.toInt < 0
  | .real _ => False

/-- **An integer of 64 bits is read as itself.** -/
theorem Number.reread?_of_isInteger {n : Number} (h : n.IsInteger) : n.reread? = some n := by
  cases n with
  | natural n => exact reread?_natural n
  | negative n => exact reread?_negative h
  | real x => exact h.elim

end DeviceRelay
