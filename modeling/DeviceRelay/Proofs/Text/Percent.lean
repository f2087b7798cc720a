import DeviceRelay.Proofs.Text.Utf8
import DeviceRelay.Text.Percent

/-!
# Percent coding loses nothing

A component is written in unreserved characters and escapes only, so that nothing which separates
components occurs in it, and reading it gives back the bytes that it was written from.

* `Text.Escaped`: texts of unreserved characters, escapes and some separators.
* `Text.escaped_percentEncode`: a component needs no separators.
* `Text.percentDecode_percentEncode`: reading inverts writing.
-/

namespace DeviceRelay.Text

/-! ## What a component is written in -/

/-- Letters, digits and `- _ . ~`. -/
def IsPlain (c : Char) : Prop := c.isAlphanum = true ∨ c ∈ ['-', '_', '.', '~']

instance (c : Char) : Decidable (IsPlain c) := inferInstanceAs (Decidable (_ ∨ _))

/-- A digit of an escape. -/
def IsEscapeDigit (c : Char) : Prop := c.isDigit = true ∨ ('A' ≤ c ∧ c ≤ 'F')

instance (c : Char) : Decidable (IsEscapeDigit c) := inferInstanceAs (Decidable (_ ∨ _))

/-- Nothing but unreserved characters, escapes and the given separators. -/
inductive Escaped (separators : List Char) : List Char → Prop where
  | nil : Escaped separators []
  | plain {c : Char} {s : List Char} (hc : IsPlain c) (h : Escaped separators s) :
      Escaped separators (c :: s)
  | separator {c : Char} {s : List Char} (hc : c ∈ separators) (h : Escaped separators s) :
      Escaped separators (c :: s)
  | escape {high low : Char} {s : List Char} (hhigh : IsEscapeDigit high)
      (hlow : IsEscapeDigit low) (h : Escaped separators s) :
      Escaped separators ('%' :: high :: low :: s)

theorem Escaped.append {separators s s' : List Char} (h : Escaped separators s)
    (h' : Escaped separators s') : Escaped separators (s ++ s') := by
  induction h with
  | nil => exact h'
  | plain hc _ ih => exact .plain hc ih
  | separator hc _ ih => exact .separator hc ih
  | escape hhigh hlow _ ih => exact .escape hhigh hlow ih

theorem Escaped.mono {separators more s : List Char} (h : Escaped separators s)
    (hsub : separators ⊆ more) : Escaped more s := by
  induction h with
  | nil => exact .nil
  | plain hc _ ih => exact .plain hc ih
  | separator hc _ ih => exact .separator (hsub hc) ih
  | escape hhigh hlow _ ih => exact .escape hhigh hlow ih

/-- A text without escapes. The check is one over the list: a quantifier over its characters would
be decided by going through all there are. -/
theorem Escaped.of_all {separators s : List Char}
    (h : s.all (fun c => IsPlain c ∨ c ∈ separators) = true) : Escaped separators s := by
  induction s with
  | nil => exact .nil
  | cons c s ih =>
    rw [List.all_cons, Bool.and_eq_true, decide_eq_true_iff] at h
    obtain ⟨hc | hc, hrest⟩ := h
    · exact .plain hc (ih hrest)
    · exact .separator hc (ih hrest)

theorem Escaped.intercalate {separators : List Char} {c : Char} (hc : c ∈ separators)
    {parts : List (List Char)} (h : ∀ part ∈ parts, Escaped separators part) :
    Escaped separators ([c].intercalate parts) := by
  induction parts with
  | nil => exact .nil
  | cons part parts ih =>
    have hpart := h part List.mem_cons_self
    cases parts with
    | nil =>
      rw [List.intercalate_singleton]
      exact hpart
    | cons next parts =>
      rw [List.intercalate_cons_cons]
      exact (hpart.append (.separator hc .nil)).append
        (ih fun p hp => h p (List.mem_cons_of_mem part hp))

/-- A digit of an escape is unreserved itself. -/
theorem IsEscapeDigit.isPlain {c : Char} (h : IsEscapeDigit c) : IsPlain c := by
  refine .inl ?_
  obtain h | ⟨hlow, hhigh⟩ := h
  · simp [Char.isAlphanum, h]
  · have hlow : 65 ≤ c.val := hlow
    have hhigh : c.val ≤ 70 := hhigh
    have hupper : c.isUpper = true := decide_eq_true ⟨hlow, UInt32.le_trans hhigh (by decide)⟩
    have halpha : c.isAlpha = true := Bool.or_eq_true_iff.mpr (.inl hupper)
    simp [Char.isAlphanum, halpha]

/-- A character that is reserved, and no separator, does not occur. -/
theorem Escaped.not_mem {separators s : List Char} {c : Char} (h : Escaped separators s)
    (hc : ¬ IsPlain c) (hescape : c ≠ '%') (hsep : c ∉ separators) : c ∉ s := by
  induction h with
  | nil => exact List.not_mem_nil
  | plain hd _ ih =>
    rintro (_ | ⟨_, hmem⟩)
    · exact hc hd
    · exact ih hmem
  | separator hd _ ih =>
    rintro (_ | ⟨_, hmem⟩)
    · exact hsep hd
    · exact ih hmem
  | escape hhigh hlow _ ih =>
    rintro (_ | ⟨_, _ | ⟨_, _ | ⟨_, hmem⟩⟩⟩)
    · exact hescape rfl
    · exact hc hhigh.isPlain
    · exact hc hlow.isPlain
    · exact ih hmem

theorem isEscapeDigit_upperHexDigit : ∀ n < 16, IsEscapeDigit (upperHexDigit n) := by decide

theorem isPlain_of_isUnreserved {b : UInt8} (h : isUnreserved b = true) :
    IsPlain (Char.ofNat b.toNat) := by
  have hsmall : ∀ n < 256, isUnreserved (UInt8.ofNat n) = true → IsPlain (Char.ofNat n) := by
    decide +kernel
  exact hsmall b.toNat b.toNat_lt (by rwa [UInt8.ofNat_toNat])

theorem escaped_percentEncodeByte (b : UInt8) : Escaped [] (percentEncodeByte b) := by
  have hb := b.toNat_lt
  unfold percentEncodeByte
  split
  · rename_i h
    exact .plain (isPlain_of_isUnreserved h) .nil
  · exact .escape (isEscapeDigit_upperHexDigit _ (by omega))
      (isEscapeDigit_upperHexDigit _ (by omega)) .nil

/-- **A component** has no separators. -/
theorem escaped_percentEncode (s : String) : Escaped [] (percentEncode s).toList := by
  rw [percentEncode, String.toList_ofList]
  induction bytes s with
  | nil => exact .nil
  | cons b bs ih =>
    rw [List.flatMap_cons]
    exact (escaped_percentEncodeByte b).append ih

/-! ## Reading a component -/

theorem percentDecode_cons_of_ne {b : UInt8} (h : b ≠ 0x25) (rest : List UInt8) :
    percentDecode (b :: rest) = b :: percentDecode rest := by
  match rest with
  | [] => rfl
  | [_] => rfl
  | _ :: _ :: _ => rw [percentDecode, if_neg h]

theorem percentDecode_escape {b c high low : UInt8} (hb : hexValue? b = some high)
    (hc : hexValue? c = some low) (rest : List UInt8) :
    percentDecode (0x25 :: b :: c :: rest) = (high * 16 + low) :: percentDecode rest := by
  rw [percentDecode, if_pos rfl, hb, hc]

/-- A digit of an escape is one byte, which has its value. -/
theorem hexValue?_upperHexDigit : ∀ n < 16,
    ∃ b, String.utf8EncodeChar (upperHexDigit n) = [b] ∧ hexValue? b = some (UInt8.ofNat n) := by
  have hbyte : ∀ n < 16,
      String.utf8EncodeChar (upperHexDigit n) = [UInt8.ofNat (upperHexDigit n).toNat] ∧
        hexValue? (UInt8.ofNat (upperHexDigit n).toNat) = some (UInt8.ofNat n) := by
    decide
  exact fun n hn => ⟨_, hbyte n hn⟩

/-- An unreserved character is the one byte that it stands for. -/
theorem bytesOf_of_isUnreserved {b : UInt8} (h : isUnreserved b = true) :
    bytesOf [Char.ofNat b.toNat] = [b] ∧ b ≠ 0x25 := by
  have hsmall : ∀ n < 256, isUnreserved (UInt8.ofNat n) = true →
      bytesOf [Char.ofNat n] = [UInt8.ofNat n] ∧ UInt8.ofNat n ≠ 0x25 := by
    decide +kernel
  have hb := hsmall b.toNat b.toNat_lt
  rw [UInt8.ofNat_toNat] at hb
  exact hb h

theorem percentDecode_percentEncodeByte (b : UInt8) (rest : List UInt8) :
    percentDecode (bytesOf (percentEncodeByte b) ++ rest) = b :: percentDecode rest := by
  have hb := b.toNat_lt
  unfold percentEncodeByte
  split
  · rename_i h
    obtain ⟨hbytes, hne⟩ := bytesOf_of_isUnreserved h
    rw [hbytes]
    exact percentDecode_cons_of_ne hne rest
  · obtain ⟨high, hhigh, hhigh'⟩ := hexValue?_upperHexDigit (b.toNat / 16) (by omega)
    obtain ⟨low, hlow, hlow'⟩ := hexValue?_upperHexDigit (b.toNat % 16) (by omega)
    have hbytes : bytesOf ['%', upperHexDigit (b.toNat / 16), upperHexDigit (b.toNat % 16)] =
        [0x25, high, low] := by
      simp only [bytesOf, List.flatMap_cons, List.flatMap_nil, hhigh, hlow]
      rfl
    have hvalue : UInt8.ofNat (b.toNat / 16) * 16 + UInt8.ofNat (b.toNat % 16) = b := by
      refine UInt8.toNat_inj.mp ?_
      simp only [UInt8.toNat_add, UInt8.toNat_mul, UInt8.toNat_ofNat', UInt8.reduceToNat]
      omega
    rw [hbytes, ← hvalue]
    exact percentDecode_escape hhigh' hlow' rest

/-- **Reading a component** gives back the bytes of the text. -/
theorem percentDecode_percentEncode (s : String) :
    percentDecode (bytes (percentEncode s)) = bytes s := by
  rw [percentEncode, bytes, String.toList_ofList]
  induction bytes s with
  | nil => rfl
  | cons b bs ih =>
    have hcons : bytesOf ((b :: bs).flatMap percentEncodeByte) =
        bytesOf (percentEncodeByte b) ++ bytesOf (bs.flatMap percentEncodeByte) := by
      rw [List.flatMap_cons, bytesOf, List.flatMap_append]
      rfl
    rw [hcons, percentDecode_percentEncodeByte, ih]

end DeviceRelay.Text
