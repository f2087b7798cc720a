import DeviceRelay.Proofs.Text.Utf8

/-!
# Cutting an encoded text

The bytes of a text are cut into parts, and each part is decoded on its own. A cut between two
characters does no harm. A cut inside a character does: the part that begins with the rest of the
character has a piece for it, so the parts have more pieces than the text has characters.

* `Text.encode_cases`: the first byte of a character begins it, the others do not.
* `Text.bytesOf_eq_append`: a cut before a byte that begins a character is between characters.
* `Text.leads_le_pieces`: every byte that begins a character has a piece of its own.
* `Text.length_pieces_le`: there are no more pieces than bytes.
* `Text.flatMap_decodeLossy_eq_iff`: when the parts together decode to the text.
-/

namespace DeviceRelay.Text

instance (b : UInt8) : Decidable (IsTail b) := inferInstanceAs (Decidable (_ ∧ _))

/-- How many bytes begin a character. -/
def leads (bytes : List UInt8) : Nat := bytes.countP fun b => ¬ IsTail b

/-- The bytes begin within a character. -/
def StartsInside (bytes : List UInt8) : Prop := ∃ b rest, bytes = b :: rest ∧ IsTail b

/-- So many bytes of the text are a number of whole characters. -/
def IsBoundary (s : List Char) (n : Nat) : Prop :=
  ∃ before after, s = before ++ after ∧ (bytesOf before).length = n

/-! ## Characters -/

theorem isTail_ofNat {n : Nat} (h : 0x80 ≤ n) (h' : n ≤ 0xbf) : IsTail (UInt8.ofNat n) := by
  rw [IsTail, toNat_byte (by omega)]
  exact ⟨h, h'⟩

theorem not_isTail_ofNat {n : Nat} (hn : n < 256) (h : n < 0x80 ∨ 0xbf < n) :
    ¬ IsTail (UInt8.ofNat n) := by
  rw [IsTail, toNat_byte hn]
  omega

/-- The first byte of a character begins it, and the others do not. -/
theorem encode_cases (c : Char) : ∃ b bs, String.utf8EncodeChar c = b :: bs ∧ ¬ IsTail b ∧
    ∀ x ∈ bs, IsTail x := by
  obtain ⟨hmax, -⟩ := val_lt c
  by_cases h1 : c.val.toNat ≤ 0x7f
  · refine ⟨_, _, encode_one h1, not_isTail_ofNat (by omega) (by omega), ?_⟩
    simp
  by_cases h2 : c.val.toNat ≤ 0x7ff
  · refine ⟨_, _, encode_two (by omega) h2, not_isTail_ofNat (by omega) (by omega), ?_⟩
    simp only [List.mem_cons, List.not_mem_nil, or_false, forall_eq]
    exact isTail_ofNat (by omega) (by omega)
  by_cases h3 : c.val.toNat ≤ 0xffff
  · refine ⟨_, _, encode_three (by omega) h3, not_isTail_ofNat (by omega) (by omega), ?_⟩
    simp only [List.mem_cons, List.not_mem_nil, or_false, forall_eq_or_imp, forall_eq]
    exact ⟨isTail_ofNat (by omega) (by omega), isTail_ofNat (by omega) (by omega)⟩
  · refine ⟨_, _, encode_four (by omega), not_isTail_ofNat (by omega) (by omega), ?_⟩
    simp only [List.mem_cons, List.not_mem_nil, or_false, forall_eq_or_imp, forall_eq]
    exact ⟨isTail_ofNat (by omega) (by omega), isTail_ofNat (by omega) (by omega),
      isTail_ofNat (by omega) (by omega)⟩

theorem bytesOf_cons (c : Char) (s : List Char) :
    bytesOf (c :: s) = String.utf8EncodeChar c ++ bytesOf s := List.flatMap_cons

theorem bytesOf_append (s s' : List Char) : bytesOf (s ++ s') = bytesOf s ++ bytesOf s' :=
  List.flatMap_append

theorem leads_append (x y : List UInt8) : leads (x ++ y) = leads x + leads y :=
  List.countP_append

/-- As many bytes begin a character as there are characters. -/
theorem leads_bytesOf (s : List Char) : leads (bytesOf s) = s.length := by
  induction s with
  | nil => rfl
  | cons c s ih =>
    obtain ⟨b, bs, he, hb, hbs⟩ := encode_cases c
    have hnone : leads bs = 0 := by
      rw [leads, List.countP_eq_zero]
      exact fun x hx => by simpa using hbs x hx
    have hone : leads (b :: bs) = 1 := by
      rw [leads, List.countP_cons_of_pos (by simpa using hb), ← leads, hnone]
    rw [bytesOf_cons, leads_append, ih, he, hone, List.length_cons, Nat.add_comm]

/-- A text does not begin within a character. -/
theorem not_startsInside_bytesOf (s : List Char) : ¬ StartsInside (bytesOf s) := by
  rintro ⟨b, rest, h, hb⟩
  cases s with
  | nil => cases h
  | cons c s =>
    obtain ⟨b', bs, he, hb', -⟩ := encode_cases c
    rw [bytesOf_cons, he] at h
    cases h
    exact hb' hb

/-- A cut is between two characters unless the second part begins within one. -/
theorem bytesOf_eq_append {s : List Char} {x y : List UInt8} (h : bytesOf s = x ++ y)
    (hy : ¬ StartsInside y) :
    ∃ before after, s = before ++ after ∧ x = bytesOf before ∧ y = bytesOf after := by
  induction s generalizing x with
  | nil =>
    obtain ⟨rfl, rfl⟩ := List.nil_eq_append_iff.mp h
    exact ⟨[], [], rfl, rfl, rfl⟩
  | cons c s ih =>
    rw [bytesOf_cons] at h
    obtain ⟨b, bs, he, -, hbs⟩ := encode_cases c
    rcases List.append_eq_append_iff.mp h with ⟨x', rfl, hx'⟩ | ⟨z, hz, rfl⟩
    · obtain ⟨before, after, rfl, rfl, rfl⟩ := ih hx'
      exact ⟨c :: before, after, rfl, (bytesOf_cons c before).symm, rfl⟩
    · cases x with
      | nil => exact ⟨[], c :: s, rfl, rfl, by rw [bytesOf_cons, hz]; rfl⟩
      | cons a x =>
        cases z with
        | nil =>
          refine ⟨[c], s, rfl, ?_, rfl⟩
          rw [bytesOf_cons, hz]
          simp [bytesOf]
        | cons b' z =>
          -- The cut is behind the first byte of the character and before its last one.
          rw [he, List.cons_append] at hz
          obtain ⟨-, rfl⟩ := List.cons.inj hz
          exact absurd ⟨b', z ++ bytesOf s, rfl, hbs b' (by simp)⟩ hy

/-! ## Pieces -/

/-- Only a byte that begins no character may come next. -/
def Pending.IsSound (p : Pending) : Prop := ∀ b, p.Allows b → IsTail b

theorem isSound_ofByte {b : UInt8} {p : Pending} (h : Start.ofByte b = .pending p) :
    p.IsSound := by
  intro x hx
  cases starts b with
  | one _ hs =>
    rw [hs] at h
    cases h
  | two _ _ hs =>
    rw [hs] at h
    cases h
    exact hx
  | three low high _ _ hs ha =>
    rw [hs] at h
    cases h
    exact ((ha x).mp hx).1
  | four low high _ _ hs ha =>
    rw [hs] at h
    cases h
    exact ((ha x).mp hx).1
  | none _ _ hs =>
    rw [hs] at h
    cases h

theorem isSound_take {p q : Pending} {b : UInt8} (h : p.take b = .pending q) : q.IsSound := by
  unfold Pending.take at h
  dsimp only at h
  split at h
  · cases h
  · cases h
    exact fun x hx => hx

/-- Every byte that begins a character has a piece of its own; so does what was started before. -/
theorem leads_le_pieces (bytes : List UInt8) (done : List (Option Char)) :
    done.length + leads bytes ≤ (pieces done none bytes).length ∧
      ∀ p : Pending, p.IsSound →
        done.length + 1 + leads bytes ≤ (pieces done (some p) bytes).length := by
  induction bytes generalizing done with
  | nil => simp [pieces, leads]
  | cons b bytes ih =>
    have hfrom (done : List (Option Char)) (s : Start) (hs : ∀ p, s = .pending p → p.IsSound) :
        done.length + 1 + leads bytes ≤ (piecesFrom done s bytes).length := by
      cases s with
      | whole c => exact (ih (some c :: done)).1
      | pending p => exact (ih done).2 p (hs p rfl)
      | malformed => exact (ih (none :: done)).1
    have hstart := hfrom done (.ofByte b) fun p => isSound_ofByte
    have hle : leads (b :: bytes) ≤ leads bytes + 1 := by
      unfold leads
      rw [List.countP_cons]
      split <;> omega
    constructor
    · rw [pieces_cons]
      omega
    · intro p hp
      by_cases hb : p.Allows b
      · have hsame : leads (b :: bytes) = leads bytes :=
          List.countP_cons_of_neg (by simpa using hp b hb)
        rw [pieces_allowed hb, hsame]
        exact hfrom done (p.take b) fun q => isSound_take
      · have hagain := hfrom (none :: done) (.ofByte b) fun p => isSound_ofByte
        rw [pieces_refused hb]
        rw [List.length_cons] at hagain
        omega

/-- The rest of a character at the beginning is a piece more. -/
theorem leads_lt_pieces {bytes : List UInt8} (h : StartsInside bytes) :
    leads bytes < (pieces [] none bytes).length := by
  obtain ⟨b, rest, rfl, hb⟩ := h
  have hsame : leads (b :: rest) = leads rest := List.countP_cons_of_neg (by simpa using hb)
  rw [hsame, pieces_cons]
  refine Nat.lt_of_succ_le (Nat.le_trans (Nat.le_of_eq (Nat.add_comm _ 1)) ?_)
  cases hs : Start.ofByte b with
  | whole c => exact (leads_le_pieces rest [some c]).1
  | pending p => exact (leads_le_pieces rest []).2 p (isSound_ofByte hs)
  | malformed => exact (leads_le_pieces rest [none]).1

/-- There are no more pieces than bytes. What was started before takes one more. -/
theorem length_pieces_le (bytes : List UInt8) (done : List (Option Char)) :
    (pieces done none bytes).length ≤ done.length + bytes.length ∧
      ∀ p : Pending, (pieces done (some p) bytes).length ≤ done.length + 1 + bytes.length := by
  induction bytes generalizing done with
  | nil => simp [pieces]
  | cons b bytes ih =>
    have hfrom (done : List (Option Char)) (s : Start) :
        (piecesFrom done s bytes).length ≤ done.length + 1 + bytes.length := by
      cases s with
      | whole c => exact (ih (some c :: done)).1
      | pending p => exact (ih done).2 p
      | malformed => exact (ih (none :: done)).1
    rw [List.length_cons]
    constructor
    · rw [pieces_cons]
      have hstart := hfrom done (.ofByte b)
      omega
    · intro p
      by_cases hb : p.Allows b
      · rw [pieces_allowed hb]
        have htake := hfrom done (p.take b)
        omega
      · rw [pieces_refused hb]
        have hagain := hfrom (none :: done) (.ofByte b)
        rw [List.length_cons] at hagain
        omega

/-- A text has no more characters than there were bytes. -/
theorem length_decodeLossy_le (bytes : List UInt8) : (decodeLossy bytes).length ≤ bytes.length := by
  have hle := (length_pieces_le bytes []).1
  rw [List.length_nil, Nat.zero_add] at hle
  rw [decodeLossy, String.length_ofList, List.length_map]
  exact hle

/-! ## Parts -/

theorem toList_decodeLossy (bytes : List UInt8) :
    (decodeLossy bytes).toList = (pieces [] none bytes).map fun p => p.getD replacement := by
  rw [decodeLossy, String.toList_ofList]

theorem toList_decodeLossy_bytesOf (s : List Char) : (decodeLossy (bytesOf s)).toList = s := by
  rw [toList_decodeLossy, pieces_bytesOf, List.reverse_nil, List.nil_append, List.map_map]
  exact List.map_id' s

/-- Parts of a text have at least its characters, and more if one of them begins within one. -/
theorem leads_le_length_decodeLossy (parts : List (List UInt8)) :
    leads parts.flatten ≤ (parts.flatMap fun p => (decodeLossy p).toList).length ∧
      ((∃ p ∈ parts, StartsInside p) →
        leads parts.flatten < (parts.flatMap fun p => (decodeLossy p).toList).length) := by
  induction parts with
  | nil => simp [leads]
  | cons p parts ih =>
    have hp : leads p ≤ (decodeLossy p).toList.length := by
      simpa [toList_decodeLossy] using (leads_le_pieces p []).1
    rw [List.flatten_cons, leads_append, List.flatMap_cons, List.length_append]
    refine ⟨Nat.add_le_add hp ih.1, ?_⟩
    rintro ⟨q, hq, hinside⟩
    rcases List.mem_cons.mp hq with rfl | hq
    · have hlt : leads q < (decodeLossy q).toList.length := by
        simpa [toList_decodeLossy] using leads_lt_pieces hinside
      exact Nat.add_lt_add_of_lt_of_le hlt ih.1
    · exact Nat.add_lt_add_of_le_of_lt hp (ih.2 ⟨q, hq, hinside⟩)

theorem not_startsInside_flatten {parts : List (List UInt8)}
    (h : ∀ p ∈ parts, ¬ StartsInside p) : ¬ StartsInside parts.flatten := by
  induction parts with
  | nil => rintro ⟨b, rest, hnil, -⟩; cases hnil
  | cons p parts ih =>
    obtain ⟨hp, hparts⟩ := List.forall_mem_cons.mp h
    cases p with
    | nil => exact ih hparts
    | cons b p =>
      rintro ⟨b', rest, heq, hb⟩
      obtain ⟨rfl, -⟩ := List.cons.inj heq
      exact hp ⟨b, p, rfl, hb⟩

/-- **Parts decode to the text exactly where none of them begins within a character.** -/
theorem flatMap_decodeLossy_eq_iff {s : List Char} {parts : List (List UInt8)}
    (h : parts.flatten = bytesOf s) :
    (parts.flatMap fun p => (decodeLossy p).toList) = s ↔ ∀ p ∈ parts, ¬ StartsInside p := by
  constructor
  · intro heq p hp hinside
    have hlt := (leads_le_length_decodeLossy parts).2 ⟨p, hp, hinside⟩
    rw [h, leads_bytesOf, heq] at hlt
    exact Nat.lt_irrefl _ hlt
  · intro hnone
    induction parts generalizing s with
    | nil =>
      cases s with
      | nil => rfl
      | cons c s =>
        obtain ⟨b, bs, he, -⟩ := encode_cases c
        rw [bytesOf_cons, he] at h
        cases h
    | cons p parts ih =>
      obtain ⟨-, hparts⟩ := List.forall_mem_cons.mp hnone
      obtain ⟨before, after, rfl, rfl, hafter⟩ :=
        bytesOf_eq_append h.symm (not_startsInside_flatten hparts)
      rw [List.flatMap_cons, toList_decodeLossy_bytesOf, ih hafter hparts]

theorem StartsInside.append {x : List UInt8} (h : StartsInside x) (y : List UInt8) :
    StartsInside (x ++ y) := by
  obtain ⟨b, rest, rfl, hb⟩ := h
  exact ⟨b, rest ++ y, rfl, hb⟩

/-- The rest of a text begins within a character unless what is before it is a number of whole
characters. -/
theorem startsInside_iff_not_isBoundary {s : List Char} {before rest : List UInt8}
    (h : before ++ rest = bytesOf s) : StartsInside rest ↔ ¬ IsBoundary s before.length := by
  constructor
  · rintro hinside ⟨pre, post, rfl, hlen⟩
    rw [bytesOf_append] at h
    obtain ⟨-, rfl⟩ := List.append_inj h hlen.symm
    exact not_startsInside_bytesOf post hinside
  · intro hnot
    refine Classical.byContradiction fun hinside => hnot ?_
    obtain ⟨pre, post, rfl, rfl, -⟩ := bytesOf_eq_append h.symm hinside
    exact ⟨pre, post, rfl, rfl⟩

end DeviceRelay.Text
