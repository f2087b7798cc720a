import DeviceRelay.Text.Utf8

/-!
# Decoding inverts encoding

Bytes are decoded to a text exactly where they are the encoding of the text.

* `Text.Start.Completes`: the bytes that a started character still takes, and the character.
* `Text.encode_of_completes`, `Text.completes_encode`: those bytes are the rest of the encoding.
* `Text.decode?_eq_some_iff`: decoding inverts encoding.
-/

namespace DeviceRelay.Text

/-! ## One character -/

/-- The byte may come next. -/
def Pending.Allows (p : Pending) (b : UInt8) : Prop :=
  p.low.toNat ≤ b.toNat ∧ b.toNat ≤ p.high.toNat

/-- The bytes that complete what was started, and the character that they complete. -/
inductive Start.Completes : Start → List UInt8 → Char → Prop where
  | whole (c : Char) : Completes (.whole c) [] c
  | more {p : Pending} {b : UInt8} {bs : List UInt8} {c : Char} (hb : p.Allows b)
      (h : Completes (p.take b) bs c) : Completes (.pending p) (b :: bs) c

private theorem byte_eq_of_toNat {n : Nat} {b : UInt8} (h : n = b.toNat) : UInt8.ofNat n = b := by
  subst h
  exact UInt8.ofNat_toNat

theorem toNat_byte {n : Nat} (h : n < 256) : (UInt8.ofNat n).toNat = n := by
  rw [UInt8.toNat_ofNat', Nat.mod_eq_of_lt h]

private theorem toNat_char {n : Nat} (h : n.isValidChar) : (Char.ofNat n).val.toNat = n := by
  unfold Char.ofNat
  rw [dif_pos h]
  rfl

private theorem char_of_toNat {n : Nat} {c : Char} (h : n = c.val.toNat) : Char.ofNat n = c := by
  subst h
  exact Char.ofNat_toNat c

theorem encode_one {c : Char} (h : c.val.toNat ≤ 0x7f) :
    String.utf8EncodeChar c = [UInt8.ofNat c.val.toNat] := by
  unfold String.utf8EncodeChar
  rw [if_pos h]

theorem encode_two {c : Char} (h : 0x7f < c.val.toNat) (h' : c.val.toNat ≤ 0x7ff) :
    String.utf8EncodeChar c =
      [UInt8.ofNat (c.val.toNat / 64 % 32 + 0xc0), UInt8.ofNat (c.val.toNat % 64 + 0x80)] := by
  unfold String.utf8EncodeChar
  rw [if_neg (Nat.not_le.mpr h), if_pos h']

theorem encode_three {c : Char} (h : 0x7ff < c.val.toNat) (h' : c.val.toNat ≤ 0xffff) :
    String.utf8EncodeChar c =
      [UInt8.ofNat (c.val.toNat / 4096 % 16 + 0xe0), UInt8.ofNat (c.val.toNat / 64 % 64 + 0x80),
        UInt8.ofNat (c.val.toNat % 64 + 0x80)] := by
  unfold String.utf8EncodeChar
  rw [if_neg (by omega), if_neg (Nat.not_le.mpr h), if_pos h']

theorem encode_four {c : Char} (h : 0xffff < c.val.toNat) :
    String.utf8EncodeChar c =
      [UInt8.ofNat (c.val.toNat / 262144 % 8 + 0xf0), UInt8.ofNat (c.val.toNat / 4096 % 64 + 0x80),
        UInt8.ofNat (c.val.toNat / 64 % 64 + 0x80), UInt8.ofNat (c.val.toNat % 64 + 0x80)] := by
  unfold String.utf8EncodeChar
  rw [if_neg (by omega), if_neg (by omega), if_neg (Nat.not_le.mpr h)]

/-! ## The first byte -/

/-- The byte continues a character. -/
def IsTail (b : UInt8) : Prop := 0x80 ≤ b.toNat ∧ b.toNat ≤ 0xbf

/-- What a first byte leaves open: the two leading bytes must name a number that no shorter
encoding has, that is no surrogate and no larger than the last character. -/
inductive Starts (b : UInt8) : Prop where
  | one (h : b.toNat < 0x80) (hs : Start.ofByte b = .whole (Char.ofNat b.toNat))
  | two (h : 0xc2 ≤ b.toNat) (h' : b.toNat ≤ 0xdf)
      (hs : Start.ofByte b = .pending ⟨b.toNat % 0x20, 1, 0x80, 0xbf⟩)
  | three (low high : UInt8) (h : 0xe0 ≤ b.toNat) (h' : b.toNat ≤ 0xef)
      (hs : Start.ofByte b = .pending ⟨b.toNat % 0x10, 2, low, high⟩)
      (hb : ∀ x : UInt8, low.toNat ≤ x.toNat ∧ x.toNat ≤ high.toNat ↔ IsTail x ∧
        0x20 ≤ b.toNat % 0x10 * 0x40 + x.toNat % 0x40 ∧
        ¬ (0x360 ≤ b.toNat % 0x10 * 0x40 + x.toNat % 0x40 ∧
          b.toNat % 0x10 * 0x40 + x.toNat % 0x40 ≤ 0x37f))
  | four (low high : UInt8) (h : 0xf0 ≤ b.toNat) (h' : b.toNat ≤ 0xf4)
      (hs : Start.ofByte b = .pending ⟨b.toNat % 0x08, 3, low, high⟩)
      (hb : ∀ x : UInt8, low.toNat ≤ x.toNat ∧ x.toNat ≤ high.toNat ↔ IsTail x ∧
        0x10 ≤ b.toNat % 0x08 * 0x40 + x.toNat % 0x40 ∧
        b.toNat % 0x08 * 0x40 + x.toNat % 0x40 ≤ 0x10f)
  | none (h : 0x80 ≤ b.toNat) (h' : b.toNat < 0xc2 ∨ 0xf4 < b.toNat)
      (hs : Start.ofByte b = .malformed)

theorem starts (b : UInt8) : Starts b := by
  have hlo : (0x80 : UInt8).toNat = 0x80 := rfl
  have hhi : (0xbf : UInt8).toNat = 0xbf := rfl
  have h9f : (0x9f : UInt8).toNat = 0x9f := rfl
  have ha0 : (0xa0 : UInt8).toNat = 0xa0 := rfl
  have h90 : (0x90 : UInt8).toNat = 0x90 := rfl
  have h8f : (0x8f : UInt8).toNat = 0x8f := rfl
  generalize hs : Start.ofByte b = start
  have hs' := hs
  unfold Start.ofByte at hs'
  dsimp only at hs'
  split at hs'
  · exact .one ‹_› (hs.trans hs'.symm)
  split at hs'
  · exact .two (by omega) (by omega) (hs.trans hs'.symm)
  split at hs'
  · exact .three _ _ (by omega) (by omega) (hs.trans hs'.symm) fun x => by
      unfold IsTail; omega
  split at hs'
  · exact .three _ _ (by omega) (by omega) (hs.trans hs'.symm) fun x => by
      unfold IsTail; omega
  split at hs'
  · exact .three _ _ (by omega) (by omega) (hs.trans hs'.symm) fun x => by
      unfold IsTail; omega
  split at hs'
  · exact .four _ _ (by omega) (by omega) (hs.trans hs'.symm) fun x => by
      unfold IsTail; omega
  split at hs'
  · exact .four _ _ (by omega) (by omega) (hs.trans hs'.symm) fun x => by
      unfold IsTail; omega
  split at hs'
  · exact .four _ _ (by omega) (by omega) (hs.trans hs'.symm) fun x => by
      unfold IsTail; omega
  · exact .none (by omega) (by omega) (hs.trans hs'.symm)

/-! ## Whole characters -/

theorem completes_whole {d c : Char} {bs : List UInt8} :
    Start.Completes (.whole d) bs c ↔ bs = [] ∧ c = d := by
  constructor
  · intro h
    cases h
    exact ⟨rfl, rfl⟩
  · rintro ⟨rfl, rfl⟩
    exact .whole c

theorem completes_pending {p : Pending} {c : Char} {bs : List UInt8} :
    Start.Completes (.pending p) bs c ↔
      ∃ x xs, bs = x :: xs ∧ p.Allows x ∧ Start.Completes (p.take x) xs c := by
  constructor
  · intro h
    cases h with
    | more hb h => exact ⟨_, _, rfl, hb, h⟩
  · rintro ⟨x, xs, rfl, hb, h⟩
    exact .more hb h

/-- The last byte of a character. -/
theorem completes_one {bits : Nat} {low high : UInt8} {c : Char} {bs : List UInt8} :
    Start.Completes (.pending ⟨bits, 1, low, high⟩) bs c ↔
      ∃ x, bs = [x] ∧ (low.toNat ≤ x.toNat ∧ x.toNat ≤ high.toNat) ∧
        c = Char.ofNat (bits * 0x40 + x.toNat % 0x40) := by
  rw [completes_pending]
  constructor
  · rintro ⟨x, xs, rfl, hb, h⟩
    obtain ⟨rfl, rfl⟩ := completes_whole.mp h
    exact ⟨x, rfl, hb, rfl⟩
  · rintro ⟨x, rfl, hb, rfl⟩
    exact ⟨x, [], rfl, hb, .whole _⟩

/-- The last two bytes of a character. -/
theorem completes_two {bits : Nat} {low high : UInt8} {c : Char} {bs : List UInt8} :
    Start.Completes (.pending ⟨bits, 2, low, high⟩) bs c ↔
      ∃ x y, bs = [x, y] ∧ (low.toNat ≤ x.toNat ∧ x.toNat ≤ high.toNat) ∧ IsTail y ∧
        c = Char.ofNat ((bits * 0x40 + x.toNat % 0x40) * 0x40 + y.toNat % 0x40) := by
  rw [completes_pending]
  constructor
  · rintro ⟨x, xs, rfl, hb, h⟩
    obtain ⟨y, rfl, hy, rfl⟩ := completes_one.mp h
    exact ⟨x, y, rfl, hb, hy, rfl⟩
  · rintro ⟨x, y, rfl, hb, hy, rfl⟩
    exact ⟨x, [y], rfl, hb, completes_one.mpr ⟨y, rfl, hy, rfl⟩⟩

/-- The last three bytes of a character. -/
theorem completes_three {bits : Nat} {low high : UInt8} {c : Char} {bs : List UInt8} :
    Start.Completes (.pending ⟨bits, 3, low, high⟩) bs c ↔
      ∃ x y z, bs = [x, y, z] ∧ (low.toNat ≤ x.toNat ∧ x.toNat ≤ high.toNat) ∧ IsTail y ∧
        IsTail z ∧ c = Char.ofNat
          (((bits * 0x40 + x.toNat % 0x40) * 0x40 + y.toNat % 0x40) * 0x40 + z.toNat % 0x40) := by
  rw [completes_pending]
  constructor
  · rintro ⟨x, xs, rfl, hb, h⟩
    obtain ⟨y, z, rfl, hy, hz, rfl⟩ := completes_two.mp h
    exact ⟨x, y, z, rfl, hb, hy, hz, rfl⟩
  · rintro ⟨x, y, z, rfl, hb, hy, hz, rfl⟩
    exact ⟨x, [y, z], rfl, hb, completes_two.mpr ⟨y, z, rfl, hy, hz, rfl⟩⟩

/-- What completes a first byte is the rest of the encoding. -/
theorem encode_of_completes {b : UInt8} {bs : List UInt8} {c : Char}
    (h : (Start.ofByte b).Completes bs c) : String.utf8EncodeChar c = b :: bs := by
  cases starts b with
  | one hb hs =>
    rw [hs] at h
    obtain ⟨rfl, rfl⟩ := completes_whole.mp h
    have hv := toNat_char (n := b.toNat) (by unfold Nat.isValidChar; omega)
    rw [encode_one (by omega), byte_eq_of_toNat hv]
  | two hb hb' hs =>
    rw [hs] at h
    obtain ⟨x, rfl, ⟨hx, hx'⟩, rfl⟩ := completes_one.mp h
    have hx : 0x80 ≤ x.toNat := hx
    have hx' : x.toNat ≤ 0xbf := hx'
    generalize hn : b.toNat % 0x20 * 0x40 + x.toNat % 0x40 = n
    have hv := toNat_char (n := n) (by unfold Nat.isValidChar; omega)
    rw [encode_two (by omega) (by omega), byte_eq_of_toNat (b := b) (by omega),
      byte_eq_of_toNat (b := x) (by omega)]
  | three low high hb hb' hs ha =>
    rw [hs] at h
    obtain ⟨x, y, rfl, hx, ⟨hy, hy'⟩, rfl⟩ := completes_two.mp h
    obtain ⟨⟨hx, hx'⟩, hlow, hgap⟩ := (ha x).mp hx
    generalize hn : (b.toNat % 0x10 * 0x40 + x.toNat % 0x40) * 0x40 + y.toNat % 0x40 = n
    have hv := toNat_char (n := n) (by unfold Nat.isValidChar; omega)
    rw [encode_three (by omega) (by omega), byte_eq_of_toNat (b := b) (by omega),
      byte_eq_of_toNat (b := x) (by omega), byte_eq_of_toNat (b := y) (by omega)]
  | four low high hb hb' hs ha =>
    rw [hs] at h
    obtain ⟨x, y, z, rfl, hx, ⟨hy, hy'⟩, ⟨hz, hz'⟩, rfl⟩ := completes_three.mp h
    obtain ⟨⟨hx, hx'⟩, hlow, hhigh⟩ := (ha x).mp hx
    generalize hn : ((b.toNat % 0x08 * 0x40 + x.toNat % 0x40) * 0x40 + y.toNat % 0x40) * 0x40 +
      z.toNat % 0x40 = n
    have hv := toNat_char (n := n) (by unfold Nat.isValidChar; omega)
    rw [encode_four (by omega), byte_eq_of_toNat (b := b) (by omega),
      byte_eq_of_toNat (b := x) (by omega), byte_eq_of_toNat (b := y) (by omega),
      byte_eq_of_toNat (b := z) (by omega)]
  | none _ _ hs =>
    rw [hs] at h
    cases h

theorem val_lt (c : Char) :
    c.val.toNat < 0x110000 ∧ ¬ (0xd800 ≤ c.val.toNat ∧ c.val.toNat ≤ 0xdfff) := by
  have h : c.val.toNat < 0xd800 ∨ 0xdfff < c.val.toNat ∧ c.val.toNat < 0x110000 := c.valid
  omega

/-- An encoding of one byte. -/
theorem completes_encode_one {c : Char} (h : c.val.toNat ≤ 0x7f) :
    ∃ b bs, String.utf8EncodeChar c = b :: bs ∧ (Start.ofByte b).Completes bs c := by
  refine ⟨_, _, encode_one h, ?_⟩
  have hb := toNat_byte (n := c.val.toNat) (by omega)
  cases starts (UInt8.ofNat c.val.toNat) with
  | one _ hs =>
    rw [hs]
    exact completes_whole.mpr ⟨rfl, (char_of_toNat hb).symm⟩
  | two => omega
  | three => omega
  | four => omega
  | none => omega

/-- An encoding of two bytes. -/
theorem completes_encode_two {c : Char} (h : 0x7f < c.val.toNat) (h' : c.val.toNat ≤ 0x7ff) :
    ∃ b bs, String.utf8EncodeChar c = b :: bs ∧ (Start.ofByte b).Completes bs c := by
  refine ⟨_, _, encode_two h h', ?_⟩
  have hb := toNat_byte (n := c.val.toNat / 64 % 32 + 0xc0) (by omega)
  have hx := toNat_byte (n := c.val.toNat % 64 + 0x80) (by omega)
  generalize UInt8.ofNat (c.val.toNat / 64 % 32 + 0xc0) = b at hb ⊢
  generalize UInt8.ofNat (c.val.toNat % 64 + 0x80) = x at hx ⊢
  cases starts b with
  | two _ _ hs =>
    rw [hs]
    refine completes_one.mpr ⟨x, rfl, ⟨?_, ?_⟩, (char_of_toNat (by omega)).symm⟩
    · exact (by omega : 0x80 ≤ x.toNat)
    · exact (by omega : x.toNat ≤ 0xbf)
  | one => omega
  | three => omega
  | four => omega
  | none => omega

/-- An encoding of three bytes, of no surrogate. -/
theorem completes_encode_three {c : Char} (h : 0x7ff < c.val.toNat) (h' : c.val.toNat ≤ 0xffff) :
    ∃ b bs, String.utf8EncodeChar c = b :: bs ∧ (Start.ofByte b).Completes bs c := by
  obtain ⟨hmax, hgap⟩ := val_lt c
  refine ⟨_, _, encode_three h h', ?_⟩
  have hb := toNat_byte (n := c.val.toNat / 4096 % 16 + 0xe0) (by omega)
  have hx := toNat_byte (n := c.val.toNat / 64 % 64 + 0x80) (by omega)
  have hy := toNat_byte (n := c.val.toNat % 64 + 0x80) (by omega)
  generalize UInt8.ofNat (c.val.toNat / 4096 % 16 + 0xe0) = b at hb ⊢
  generalize UInt8.ofNat (c.val.toNat / 64 % 64 + 0x80) = x at hx ⊢
  generalize UInt8.ofNat (c.val.toNat % 64 + 0x80) = y at hy ⊢
  cases starts b with
  | three low high _ _ hs ha =>
    rw [hs]
    refine completes_two.mpr
      ⟨x, y, rfl, (ha x).mpr ⟨?_, ?_, ?_⟩, ?_, (char_of_toNat (by omega)).symm⟩
    · unfold IsTail; omega
    · omega
    · omega
    · unfold IsTail; omega
  | one => omega
  | two => omega
  | four => omega
  | none => omega

/-- An encoding of four bytes, of none past the last character. -/
theorem completes_encode_four {c : Char} (h : 0xffff < c.val.toNat) :
    ∃ b bs, String.utf8EncodeChar c = b :: bs ∧ (Start.ofByte b).Completes bs c := by
  obtain ⟨hmax, hgap⟩ := val_lt c
  refine ⟨_, _, encode_four h, ?_⟩
  have hb := toNat_byte (n := c.val.toNat / 262144 % 8 + 0xf0) (by omega)
  have hx := toNat_byte (n := c.val.toNat / 4096 % 64 + 0x80) (by omega)
  have hy := toNat_byte (n := c.val.toNat / 64 % 64 + 0x80) (by omega)
  have hz := toNat_byte (n := c.val.toNat % 64 + 0x80) (by omega)
  generalize UInt8.ofNat (c.val.toNat / 262144 % 8 + 0xf0) = b at hb ⊢
  generalize UInt8.ofNat (c.val.toNat / 4096 % 64 + 0x80) = x at hx ⊢
  generalize UInt8.ofNat (c.val.toNat / 64 % 64 + 0x80) = y at hy ⊢
  generalize UInt8.ofNat (c.val.toNat % 64 + 0x80) = z at hz ⊢
  cases starts b with
  | four low high _ _ hs ha =>
    rw [hs]
    refine completes_three.mpr
      ⟨x, y, z, rfl, (ha x).mpr ⟨?_, ?_, ?_⟩, ?_, ?_, (char_of_toNat (by omega)).symm⟩
    · unfold IsTail; omega
    · omega
    · omega
    · unfold IsTail; omega
    · unfold IsTail; omega
  | one => omega
  | two => omega
  | three => omega
  | none => omega

/-- The encoding of a character starts the character and completes it. -/
theorem completes_encode (c : Char) :
    ∃ b bs, String.utf8EncodeChar c = b :: bs ∧ (Start.ofByte b).Completes bs c := by
  by_cases h1 : c.val.toNat ≤ 0x7f
  · exact completes_encode_one h1
  by_cases h2 : c.val.toNat ≤ 0x7ff
  · exact completes_encode_two (Nat.not_le.mp h1) h2
  by_cases h3 : c.val.toNat ≤ 0xffff
  · exact completes_encode_three (Nat.not_le.mp h2) h3
  · exact completes_encode_four (Nat.not_le.mp h3)

/-! ## Whole texts -/

/-- The pieces once the state is known that a byte leads to. -/
def piecesFrom (done : List (Option Char)) (s : Start) (bytes : List UInt8) :
    List (Option Char) :=
  match s with
  | .whole c => pieces (some c :: done) none bytes
  | .pending p => pieces done (some p) bytes
  | .malformed => pieces (none :: done) none bytes

theorem pieces_cons {done : List (Option Char)} {b : UInt8} {bytes : List UInt8} :
    pieces done none (b :: bytes) = piecesFrom done (.ofByte b) bytes := by
  rw [pieces.eq_def]
  rfl

theorem pieces_allowed {done : List (Option Char)} {p : Pending} {b : UInt8}
    {bytes : List UInt8} (h : p.Allows b) :
    pieces done (some p) (b :: bytes) = piecesFrom done (p.take b) bytes := by
  have hb : (decide (p.low ≤ b) && decide (b ≤ p.high)) = true := by
    obtain ⟨hl, hh⟩ := h
    simp only [Bool.and_eq_true, decide_eq_true_eq, UInt8.le_iff_toNat_le]
    exact ⟨hl, hh⟩
  rw [pieces.eq_def]
  simp only [Option.any_some, hb]
  rfl

/-- Bytes that complete a character are its piece. -/
theorem pieces_of_completes {s : Start} {bs : List UInt8} {c : Char} (h : s.Completes bs c)
    {done : List (Option Char)} {rest : List UInt8} :
    piecesFrom done s (bs ++ rest) = pieces (some c :: done) none rest := by
  induction h with
  | whole c => rfl
  | more hb _ ih =>
    rw [← ih, List.cons_append]
    exact pieces_allowed hb

/-- The pieces of an encoded text are its characters. -/
theorem pieces_bytesOf {done : List (Option Char)} {s : List Char} :
    pieces done none (bytesOf s) = done.reverse ++ s.map some := by
  induction s generalizing done with
  | nil => simp [bytesOf, pieces]
  | cons c s ih =>
    obtain ⟨b, bs, he, hc⟩ := completes_encode c
    have hb : bytesOf (c :: s) = b :: (bs ++ bytesOf s) := by
      rw [bytesOf, List.flatMap_cons, he]
      rfl
    rw [hb, pieces_cons, pieces_of_completes hc, ih]
    simp

theorem pieces_refused {done : List (Option Char)} {p : Pending} {b : UInt8}
    {bytes : List UInt8} (h : ¬ p.Allows b) :
    pieces done (some p) (b :: bytes) = piecesFrom (none :: done) (.ofByte b) bytes := by
  have hb : (decide (p.low ≤ b) && decide (b ≤ p.high)) = false := by
    simp only [Bool.and_eq_false_iff, decide_eq_false_iff_not, UInt8.le_iff_toNat_le]
    exact Classical.not_and_iff_not_or_not.mp h
  rw [pieces.eq_def]
  simp only [Option.any_some, hb]
  rfl

/-- A malformed piece stays a piece. -/
theorem none_mem_pieces {done : List (Option Char)} {pending : Option Pending}
    {bytes : List UInt8} (h : none ∈ done) : none ∈ pieces done pending bytes := by
  induction bytes generalizing done pending with
  | nil =>
    cases pending with
    | none => simpa [pieces] using h
    | some p => simp [pieces]
  | cons b bytes ih =>
    have hfrom : ∀ {done : List (Option Char)} {s : Start}, none ∈ done →
        none ∈ piecesFrom done s bytes := by
      intro done s h
      cases s with
      | whole c => exact ih (List.mem_cons_of_mem _ h)
      | pending p => exact ih h
      | malformed => exact ih List.mem_cons_self
    cases pending with
    | none =>
      rw [pieces_cons]
      exact hfrom h
    | some p =>
      by_cases hb : p.Allows b
      · rw [pieces_allowed hb]
        exact hfrom h
      · rw [pieces_refused hb]
        exact hfrom List.mem_cons_self

theorem none_mem_piecesFrom {done : List (Option Char)} {s : Start} {bytes : List UInt8}
    (h : none ∈ done) : none ∈ piecesFrom done s bytes := by
  cases s with
  | whole c => exact none_mem_pieces (List.mem_cons_of_mem _ h)
  | pending p => exact none_mem_pieces h
  | malformed => exact none_mem_pieces List.mem_cons_self

/-- Where no piece is malformed, what was started is completed. -/
theorem completes_of_pieces {done : List (Option Char)} {s : Start} {bytes : List UInt8}
    (h : none ∉ piecesFrom done s bytes) :
    ∃ c used rest, bytes = used ++ rest ∧ s.Completes used c ∧
      none ∉ pieces (some c :: done) none rest := by
  induction bytes generalizing s with
  | nil =>
    cases s with
    | whole c => exact ⟨c, [], [], rfl, .whole c, h⟩
    | pending p => exact absurd (by simp [piecesFrom, pieces]) h
    | malformed => exact absurd (none_mem_pieces List.mem_cons_self) h
  | cons b bytes ih =>
    cases s with
    | whole c => exact ⟨c, [], b :: bytes, rfl, .whole c, h⟩
    | pending p =>
      by_cases hb : p.Allows b
      · rw [show piecesFrom done (.pending p) (b :: bytes) = pieces done (some p) (b :: bytes)
          from rfl, pieces_allowed hb] at h
        obtain ⟨c, used, rest, rfl, hc, hrest⟩ := ih h
        exact ⟨c, b :: used, rest, rfl, .more hb hc, hrest⟩
      · rw [show piecesFrom done (.pending p) (b :: bytes) = pieces done (some p) (b :: bytes)
          from rfl, pieces_refused hb] at h
        exact absurd (none_mem_piecesFrom List.mem_cons_self) h
    | malformed => exact absurd (none_mem_pieces List.mem_cons_self) h

/-- Bytes without a malformed piece encode a text. -/
theorem bytesOf_of_pieces {done : List (Option Char)} {bytes : List UInt8}
    (h : none ∉ pieces done none bytes) : ∃ s, bytes = bytesOf s := by
  induction hn : bytes.length using Nat.strongRecOn generalizing bytes done with
  | _ n ih =>
    cases bytes with
    | nil => exact ⟨[], rfl⟩
    | cons b bytes =>
      rw [pieces_cons] at h
      obtain ⟨c, used, rest, rfl, hc, hrest⟩ := completes_of_pieces h
      have hlt : rest.length < n := by
        rw [← hn, List.length_cons, List.length_append]
        omega
      obtain ⟨s, rfl⟩ := ih _ hlt hrest rfl
      refine ⟨c :: s, ?_⟩
      rw [show bytesOf (c :: s) = String.utf8EncodeChar c ++ bytesOf s from List.flatMap_cons,
        encode_of_completes hc]
      rfl

/-- **Decoding inverts encoding.** Bytes have a text where they are its encoding. -/
theorem decode?_eq_some_iff {b : List UInt8} {s : String} : decode? b = some s ↔ bytes s = b := by
  unfold decode? bytes
  dsimp only
  constructor
  · intro h
    split at h
    · rename_i hall
      have hnone : none ∉ pieces [] none b := fun hmem => by
        simpa using List.all_eq_true.mp hall none hmem
      obtain ⟨cs, rfl⟩ := bytesOf_of_pieces hnone
      rw [pieces_bytesOf] at h
      simp at h
      rw [← h, String.toList_ofList]
    · cases h
  · rintro rfl
    rw [pieces_bytesOf]
    simp

end DeviceRelay.Text
