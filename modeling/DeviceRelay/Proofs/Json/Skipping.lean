import DeviceRelay.Proofs.Json.Reading

/-!
# Skipping what can be read

Every value that can be read can be skipped, and skipping ends where reading ends.

* `Json.Skips`: the value at the front of a text is skipped, and what follows.
* `Json.skips_of_reads`: a value that is read is skipped up to the same place.
* `Json.SkipAt`: where the skipper of a whole value ends.
-/

namespace DeviceRelay.Json

/-! ## Strings -/

/-- The loop of a reader of strings, one character further. -/
theorem skipChars_plain {o r : List Char} {c : Char} {h : (c :: r).length ≤ o.length}
    (hq : c ≠ '"') (hb : c ≠ '\\') (hc : ¬ c.toNat < 0x20) :
    ∃ h', skipChars (o := o) (c :: r) h = skipChars (o := o) r h' := by
  refine ⟨Nat.le_of_lt h, ?_⟩
  rw [skipChars.eq_def]
  dsimp only
  rw [if_neg hq, if_neg hb, if_neg hc]

theorem skipChars_quote {o r : List Char} {h : ('"' :: r).length ≤ o.length} :
    skipChars (o := o) ('"' :: r) h = some ⟨r, h⟩ := by
  rw [skipChars.eq_def]
  dsimp only
  rw [if_pos rfl]

theorem skipChars_hex {o r : List Char} {n : Nat} {t : Rest r}
    {h : ('\\' :: 'u' :: r).length ≤ o.length} (hx : readHex r = .ok (n, t)) :
    ∃ h', skipChars (o := o) ('\\' :: 'u' :: r) h = skipChars (o := o) t.1 h' := by
  refine ⟨Nat.le_of_lt (Nat.lt_trans (t.past 'u').2 h), ?_⟩
  rw [skipChars.eq_def]
  dsimp only
  rw [if_neg (by decide), if_pos rfl]
  split
  · rename_i heq _ _; cases heq
  · rename_i heq _ _
    cases heq
    split
    · rename_i hx'; rw [hx] at hx'; cases hx'; rfl
    · rename_i hx'; rw [hx] at hx'; cases hx'
  · rename_i hne heq _ _; cases heq; exact absurd rfl hne

theorem skipChars_short {o r : List Char} {c e : Char} {h : ('\\' :: c :: r).length ≤ o.length}
    (he : shortEscape? c = some e) :
    ∃ h', skipChars (o := o) ('\\' :: c :: r) h = skipChars (o := o) r h' := by
  refine ⟨Nat.le_of_lt (Nat.lt_trans (Rest.tail c r).2 h), ?_⟩
  rw [skipChars.eq_def]
  dsimp only
  rw [if_neg (by decide), if_pos rfl]
  split
  · rename_i heq _ _; cases heq
  · rename_i heq _ _; cases heq; cases he
  · rename_i heq _ _; cases heq; rw [he]; rfl

/-- An escape that is read is skipped, in two goes where it is a pair of code units. -/
theorem skipChars_escape {o r : List Char} {e : Char} {t : Rest r}
    {h : ('\\' :: r).length ≤ o.length} (he : readEscape r = .ok (e, t)) :
    ∃ h', skipChars (o := o) ('\\' :: r) h = skipChars (o := o) t.1 h' := by
  cases r with
  | nil => cases he
  | cons c r =>
    unfold readEscape at he
    dsimp only at he
    split at he
    · rename_i hu
      subst hu
      obtain ⟨⟨lead, u⟩, hl, he⟩ := bind_eq_ok.mp he
      obtain ⟨h', heq⟩ := skipChars_hex (h := h) hl
      dsimp only at he
      split at he
      · cases he
      · split at he
        · cases he
          exact ⟨h', heq⟩
        · split at he
          · cases he
          · rename_i v hv
            obtain ⟨⟨trail, w⟩, ht, he⟩ := bind_eq_ok.mp he
            dsimp only at he
            split at he
            · cases he
            · obtain ⟨-, rfl⟩ := Prod.mk.inj (Except.ok.inj he)
              obtain ⟨h'', heq'⟩ := skipChars_hex (o := o) (h := by rw [← hv]; exact h') ht
              refine ⟨h'', ?_⟩
              rw [heq, ← heq']
              simp only [hv]
          · cases he
          · cases he
          · cases he
    · split at he
      · rename_i hs
        cases he
        exact skipChars_short hs
      · cases he

theorem skipChars_of_readChars {o : List Char} {done s : List Char} {hs : s.length ≤ o.length}
    {k : String} {t : Rest o} (h : readChars (o := o) done s hs = .ok (k, t))
    {o' : List Char} {hs' : s.length ≤ o'.length} :
    ∃ ht, skipChars (o := o') s hs' = some ⟨t.1, ht⟩ := by
  induction hn : s.length using Nat.strongRecOn generalizing done s with
  | _ n ih =>
    cases s with
    | nil =>
      rw [readChars.eq_def] at h
      cases h
    | cons c r =>
      rw [readChars.eq_def] at h
      dsimp only at h
      split at h
      · rename_i hq
        subst hq
        cases h
        exact ⟨hs', skipChars_quote⟩
      · rename_i hq
        split at h
        · rename_i hb
          subst hb
          split at h
          · cases h
          · rename_i e u he
            obtain ⟨h', heq⟩ := skipChars_escape (o := o') (h := hs') he
            rw [heq]
            exact ih _ (hn ▸ Nat.lt_succ_of_lt u.2) h rfl
        · rename_i hb
          split at h
          · cases h
          · rename_i hc
            obtain ⟨h', heq⟩ := skipChars_plain (o := o') (h := hs') hq hb hc
            rw [heq]
            exact ih _ (hn ▸ Nat.lt_succ_self _) h rfl

/-- A string that is read is skipped. -/
theorem StringAt.skipChars {s t o : List Char} {k : String} (h : StringAt s k t)
    (hs : s.length ≤ o.length) : ∃ ht, skipChars (o := o) s hs = some ⟨t, ht⟩ := by
  obtain ⟨_, h⟩ := h
  exact skipChars_of_readChars h

/-- A key that is read is skipped with its colon. -/
theorem StringAt.skipKey {s r v : List Char} {k : String} (h : StringAt s k r)
    (hc : skipBlanks r = ':' :: v) : ∃ hv, skipKey s = some ⟨v, hv⟩ := by
  obtain ⟨hr, hk⟩ := h.skipChars (length_le_self s)
  refine ⟨Nat.lt_trans (length_of_skipBlanks hc) hr, ?_⟩
  unfold Json.skipKey
  rw [hk]
  dsimp only
  split
  · rename_i h'; rw [hc] at h'; cases h'; rfl
  · rename_i h'; exact absurd hc (h' v)

/-! ## Words and numerals -/

theorem scan_of_readNumber {b : Bool} {s : List Char} {n : Number} {t : Rest s}
    (h : readNumber b s = .ok (n, t)) : ∃ numeral, Numeral.scan b s = .ok (numeral, t) := by
  obtain ⟨⟨numeral, u⟩, hs, h⟩ := bind_eq_ok.mp h
  dsimp only at h
  split at h
  · cases h
    exact ⟨numeral, hs⟩
  · cases h

/-- What is neither an array nor an object is skipped in one step. -/
theorem ReadsFrom.skipScalar {d : Nat} {c : Char} {r t : List Char} {j : Json}
    (h : ReadsFrom d c r j t) (ha : c ≠ '[') (ho : c ≠ '{') :
    ∃ ht, skipScalar c r = some ⟨t, ht⟩ := by
  unfold Json.skipScalar
  cases h with
  | null h =>
    obtain ⟨ht, h⟩ := h
    exact ⟨Nat.lt_succ_of_le ht, by dsimp only; rw [if_pos rfl, h]; rfl⟩
  | yes h =>
    obtain ⟨ht, h⟩ := h
    exact ⟨Nat.lt_succ_of_le ht, by
      dsimp only; rw [if_neg (by decide), if_pos rfl, h]; rfl⟩
  | no h =>
    obtain ⟨ht, h⟩ := h
    exact ⟨Nat.lt_succ_of_le ht, by
      dsimp only; rw [if_neg (by decide), if_neg (by decide), if_pos rfl, h]; rfl⟩
  | negative h =>
    obtain ⟨ht, h⟩ := h
    obtain ⟨numeral, hs⟩ := scan_of_readNumber h
    refine ⟨Nat.lt_trans ht (Nat.lt_succ_self _), ?_⟩
    dsimp only
    rw [if_neg (by decide), if_neg (by decide), if_neg (by decide), if_neg (by decide),
      if_pos rfl, hs]
    rfl
  | natural hc h =>
    obtain ⟨ht, h⟩ := h
    obtain ⟨numeral, hs⟩ := scan_of_readNumber h
    obtain ⟨hn, hy, hf, hm⟩ := ne_of_isDigit hc
    refine ⟨ht, ?_⟩
    dsimp only
    rw [if_neg hn, if_neg hy, if_neg hf, if_neg (by rintro rfl; cases hc), if_neg hm, if_pos hc, hs]
  | string h =>
    obtain ⟨ht, h⟩ := h.skipChars (length_le_cons '"' r)
    refine ⟨ht, ?_⟩
    dsimp only
    rw [if_neg (by decide), if_neg (by decide), if_neg (by decide), if_pos rfl, h]
  | array => exact absurd rfl ha
  | object => exact absurd rfl ho

/-! ## Values -/

/-- The value at the front of `s` is skipped, whatever is open around it, and `t` follows. -/
def Skips (s t : List Char) : Prop :=
  t.length < s.length ∧ ∀ (o : List Char) (brackets : List Enclosing) (hs : s.length ≤ o.length)
    (ht : t.length < o.length), skipInside (o := o) brackets s hs = skipAfter brackets t ht

theorem skipAfter_nil {o s : List Char} {hs : s.length < o.length} :
    skipAfter (o := o) [] s hs = some ⟨s, hs⟩ := by
  rw [skipAfter.eq_def]

theorem skipValue_of_skips {s t : List Char} (h : Skips s t) : skipValue s = some ⟨t, h.1⟩ := by
  unfold skipValue
  rw [h.2 s [] (length_le_self s) h.1, skipAfter_nil]

theorem skips_scalar {s r t : List Char} {c : Char} {ht : t.length < (c :: r).length}
    (hs : skipBlanks s = c :: r) (ha : c ≠ '[') (ho : c ≠ '{')
    (h : skipScalar c r = some ⟨t, ht⟩) : Skips s t := by
  refine ⟨Nat.lt_of_lt_of_le ht (length_of_skipBlanks hs), fun o brackets hs' ht' => ?_⟩
  rw [skipInside.eq_def]
  split
  · rename_i h'; rw [hs] at h'; cases h'
  · rename_i h'
    rw [hs] at h'
    cases h'
    dsimp only
    rw [if_neg ha, if_neg ho, h]

/-- No value starts with a closing bracket. -/
theorem not_skips_bracket {s r t : List Char} (hs : skipBlanks s = ']' :: r) : ¬ Skips s t := by
  intro h
  have heq := skipValue_of_skips h
  unfold skipValue at heq
  rw [skipInside.eq_def] at heq
  split at heq
  · cases heq
  · rename_i h'
    rw [hs] at h'
    cases h'
    rw [if_neg (by decide), if_neg (by decide)] at heq
    cases heq

/-! ## Arrays and objects -/

theorem skipAfter_close {o s t : List Char} {b : Enclosing} {brackets : List Enclosing} {c : Char}
    {hs : s.length < o.length} (h : skipBlanks s = c :: t)
    (hc : (c = ']' ∧ b = .list) ∨ (c = '}' ∧ b = .object)) :
    ∃ ht, skipAfter (o := o) (b :: brackets) s hs = skipAfter brackets t ht := by
  refine ⟨Nat.lt_trans (length_of_skipBlanks h) hs, ?_⟩
  have hne : c ≠ ',' := by
    rcases hc with ⟨rfl, -⟩ | ⟨rfl, -⟩ <;> decide
  conv => lhs; rw [skipAfter.eq_def]
  dsimp only
  split
  · rename_i h'; rw [h] at h'; cases h'
  · rename_i h'; rw [h] at h'; cases h'; rw [if_neg hne, if_pos hc]

theorem skipAfter_next_item {o s t : List Char} (brackets : List Enclosing)
    (hs : s.length < o.length) (h : skipBlanks s = ',' :: t) :
    ∃ ht, skipAfter (o := o) (.list :: brackets) s hs =
      skipInside (.list :: brackets) t ht := by
  refine ⟨Nat.le_of_lt (Nat.lt_trans (length_of_skipBlanks h) hs), ?_⟩
  rw [skipAfter.eq_def]
  dsimp only
  split
  · rename_i h'; rw [h] at h'; cases h'
  · rename_i h'; rw [h] at h'; cases h'; rw [if_pos rfl]

theorem skipAfter_next_member {o s w x v : List Char} (brackets : List Enclosing)
    (hs : s.length < o.length) {hv : v.length < x.length} (h : skipBlanks s = ',' :: w)
    (hq : skipBlanks w = '"' :: x) (hk : skipKey x = some ⟨v, hv⟩) :
    ∃ h', skipAfter (o := o) (.object :: brackets) s hs =
      skipInside (.object :: brackets) v h' := by
  have hx : x.length < s.length := Nat.lt_trans (length_of_skipBlanks hq) (length_of_skipBlanks h)
  refine ⟨Nat.le_of_lt (Nat.lt_trans hv (Nat.lt_trans hx hs)), ?_⟩
  rw [skipAfter.eq_def]
  dsimp only
  split
  · rename_i h'; rw [h] at h'; cases h'
  · rename_i h'
    rw [h] at h'
    cases h'
    rw [if_pos rfl]
    split
    · rename_i h''
      rw [hq] at h''
      cases h''
      rw [hk]
    · rename_i h''; exact absurd hq (h'' _)

theorem skipInside_empty_array {o s r t : List Char} (brackets : List Enclosing)
    {h : s.length ≤ o.length} (hs : skipBlanks s = '[' :: r) (hc : skipBlanks r = ']' :: t) :
    ∃ ht, skipInside (o := o) brackets s h = skipAfter brackets t ht := by
  have hlt := Nat.lt_trans (length_of_skipBlanks hc) (length_of_skipBlanks hs)
  refine ⟨Nat.lt_of_lt_of_le hlt h, ?_⟩
  rw [skipInside.eq_def]
  split
  · rename_i h'; rw [hs] at h'; cases h'
  · rename_i h'
    rw [hs] at h'
    cases h'
    dsimp only
    rw [if_pos rfl]
    split
    · rename_i h''; rw [hc] at h''; cases h''; rfl
    · rename_i h''; exact absurd hc (h'' t)

theorem skipInside_array {o s r : List Char} (brackets : List Enclosing)
    {h : s.length ≤ o.length} (hs : skipBlanks s = '[' :: r)
    (hc : ∀ t, skipBlanks r ≠ ']' :: t) :
    ∃ hr, skipInside (o := o) brackets s h = skipInside (.list :: brackets) r hr := by
  refine ⟨Nat.le_of_lt (Nat.lt_of_lt_of_le (length_of_skipBlanks hs) h), ?_⟩
  conv => lhs; rw [skipInside.eq_def]
  split
  · rename_i h'; rw [hs] at h'; cases h'
  · rename_i h'
    rw [hs] at h'
    cases h'
    dsimp only
    rw [if_pos rfl]
    split
    · rename_i h''; exact absurd h'' (hc _)
    · rfl

theorem skipInside_empty_object {o s r t : List Char} (brackets : List Enclosing)
    {h : s.length ≤ o.length} (hs : skipBlanks s = '{' :: r) (hc : skipBlanks r = '}' :: t) :
    ∃ ht, skipInside (o := o) brackets s h = skipAfter brackets t ht := by
  have hlt := Nat.lt_trans (length_of_skipBlanks hc) (length_of_skipBlanks hs)
  refine ⟨Nat.lt_of_lt_of_le hlt h, ?_⟩
  rw [skipInside.eq_def]
  split
  · rename_i h'; rw [hs] at h'; cases h'
  · rename_i h'
    rw [hs] at h'
    cases h'
    dsimp only
    rw [if_neg (by decide), if_pos rfl]
    split
    · rename_i h''; rw [hc] at h''; cases h''; rfl
    · rename_i h''; rw [hc] at h''; cases h''
    · rename_i h'' _; exact absurd hc (h'' t)

theorem skipInside_object {o s r x v : List Char} (brackets : List Enclosing)
    {h : s.length ≤ o.length} {hv : v.length < x.length} (hs : skipBlanks s = '{' :: r)
    (hq : skipBlanks r = '"' :: x) (hk : skipKey x = some ⟨v, hv⟩) :
    ∃ h', skipInside (o := o) brackets s h = skipInside (.object :: brackets) v h' := by
  have hx := Nat.lt_trans (length_of_skipBlanks hq) (length_of_skipBlanks hs)
  refine ⟨Nat.le_of_lt (Nat.lt_trans hv (Nat.lt_of_lt_of_le hx h)), ?_⟩
  conv => lhs; rw [skipInside.eq_def]
  split
  · rename_i h'; rw [hs] at h'; cases h'
  · rename_i h'
    rw [hs] at h'
    cases h'
    dsimp only
    rw [if_neg (by decide), if_pos rfl]
    split
    · rename_i h''; rw [hq] at h''; cases h''
    · rename_i h''
      rw [hq] at h''
      cases h''
      rw [hk]
    · rename_i h''; exact absurd hq (h'' _)

section Insides

variable {α : Type} {V : List Char → α → List Char → Prop} (hV : ∀ {s a t}, V s a t → Skips s t)

include hV

/-- The items that follow one in an array are skipped. -/
theorem skipAfter_of_moreItems {u t : List Char} {as : List α} (h : MoreItems V u as t) :
    t.length < u.length ∧ ∀ (o : List Char) (brackets : List Enclosing) (hu : u.length < o.length)
      (ht : t.length < o.length),
      skipAfter (o := o) (.list :: brackets) u hu = skipAfter brackets t ht := by
  induction h with
  | close h =>
    refine ⟨length_of_skipBlanks h, fun o brackets hu ht => ?_⟩
    exact (skipAfter_close h (.inl ⟨rfl, rfl⟩)).2
  | comma h ha _ ih =>
    obtain ⟨hlt, hskip⟩ := hV ha
    refine ⟨Nat.lt_trans ih.1 (Nat.lt_trans hlt (length_of_skipBlanks h)),
      fun o brackets hu ht => ?_⟩
    obtain ⟨hr, heq⟩ := skipAfter_next_item brackets hu h
    rw [heq, hskip o _ hr (Nat.lt_of_lt_of_le hlt hr), ih.2 o brackets _ ht]

/-- An array is skipped when its items are. -/
theorem skips_array {s r t : List Char} {as : List α} (hs : skipBlanks s = '[' :: r)
    (h : Items V r as t) : Skips s t := by
  cases h with
  | empty hc =>
    refine ⟨Nat.lt_trans (length_of_skipBlanks hc) (length_of_skipBlanks hs),
      fun o brackets hs' ht => ?_⟩
    exact (skipInside_empty_array brackets hs hc).2
  | items ha hm =>
    obtain ⟨hlt, hskip⟩ := hV ha
    obtain ⟨hlt', hafter⟩ := skipAfter_of_moreItems hV hm
    refine ⟨Nat.lt_trans hlt' (Nat.lt_trans hlt (length_of_skipBlanks hs)),
      fun o brackets hs' ht => ?_⟩
    have hne : ∀ u, skipBlanks r ≠ ']' :: u := fun u hc => not_skips_bracket hc ⟨hlt, hskip⟩
    obtain ⟨hr, heq⟩ := skipInside_array brackets (h := hs') hs hne
    rw [heq, hskip o _ hr (Nat.lt_of_lt_of_le hlt hr), hafter o brackets _ ht]

/-- The members of an object are skipped, from the value of the first on. -/
theorem skipInside_of_members {s t : List Char} {ms : List (String × α)} (h : Members V s ms t) :
    ∃ v hv, skipKey s = some ⟨v, hv⟩ ∧ t.length < v.length ∧
      ∀ (o : List Char) (brackets : List Enclosing) (hs : v.length ≤ o.length)
        (ht : t.length < o.length),
        skipInside (o := o) (.object :: brackets) v hs = skipAfter brackets t ht := by
  induction h with
  | @close s r v u t k a hk hc ha h =>
    obtain ⟨hv, hkey⟩ := hk.skipKey hc
    obtain ⟨hlt, hskip⟩ := hV ha
    refine ⟨v, hv, hkey, Nat.lt_trans (length_of_skipBlanks h) hlt, fun o brackets hs ht => ?_⟩
    rw [hskip o _ hs (Nat.lt_of_lt_of_le hlt hs)]
    exact (skipAfter_close h (.inr ⟨rfl, rfl⟩)).2
  | @comma s r v u w x t k a ms hk hc ha h hq _ ih =>
    obtain ⟨hv, hkey⟩ := hk.skipKey hc
    obtain ⟨hlt, hskip⟩ := hV ha
    obtain ⟨v', hv', hkey', hlt', hrest⟩ := ih
    have hvu : v'.length < u.length :=
      Nat.lt_trans hv' (Nat.lt_trans (length_of_skipBlanks hq) (length_of_skipBlanks h))
    refine ⟨v, hv, hkey, Nat.lt_trans hlt' (Nat.lt_trans hvu hlt), fun o brackets hs ht => ?_⟩
    rw [hskip o _ hs (Nat.lt_of_lt_of_le hlt hs)]
    obtain ⟨h', heq⟩ := skipAfter_next_member brackets (Nat.lt_of_lt_of_le hlt hs) h hq hkey'
    rw [heq, hrest o brackets h' ht]

/-- An object is skipped when its values are. -/
theorem skips_object {s r t : List Char} {ms : List (String × α)} (hs : skipBlanks s = '{' :: r)
    (h : ObjectAt V r ms t) : Skips s t := by
  cases h with
  | empty hc =>
    refine ⟨Nat.lt_trans (length_of_skipBlanks hc) (length_of_skipBlanks hs),
      fun o brackets hs' ht => ?_⟩
    exact (skipInside_empty_object brackets hs hc).2
  | members hq hms =>
    obtain ⟨v, hv, hkey, hlt, hrest⟩ := skipInside_of_members hV hms
    have hvr : v.length < r.length := Nat.lt_trans hv (length_of_skipBlanks hq)
    refine ⟨Nat.lt_trans hlt (Nat.lt_trans hvr (length_of_skipBlanks hs)),
      fun o brackets hs' ht => ?_⟩
    obtain ⟨h', heq⟩ := skipInside_object brackets (h := hs') hs hq hkey
    rw [heq, hrest o brackets h' ht]

end Insides

/-- **What is read is skipped, up to the same place.** -/
theorem skips_of_reads {d : Nat} {s t : List Char} {j : Json} (h : Reads d s j t) : Skips s t := by
  induction d generalizing s t j with
  | zero =>
    obtain ⟨c, r, hs, h⟩ := reads_iff_from.mp h
    by_cases hb : c = '[' ∨ c = '{'
    · rcases hb with rfl | rfl
      · cases h with
        | natural hc => cases hc
      · cases h with
        | natural hc => cases hc
    · obtain ⟨ha, ho⟩ := not_or.mp hb
      exact skips_scalar hs ha ho (h.skipScalar ha ho).2
  | succ d ih =>
    obtain ⟨c, r, hs, h⟩ := reads_iff_from.mp h
    by_cases ha : c = '['
    · subst ha
      cases h with
      | natural hc => cases hc
      | array h => exact skips_array ih hs h
    · by_cases ho : c = '{'
      · subst ho
        cases h with
        | natural hc => cases hc
        | object h => exact skips_object ih hs h
      · exact skips_scalar hs ha ho (h.skipScalar ha ho).2

/-- The value at the front of `s` is skipped, and `t` follows. -/
def SkipAt (s t : List Char) : Prop := ∃ h, skipValue s = some ⟨t, h⟩

theorem SkipAt.unique {s t t' : List Char} (h : SkipAt s t) (h' : SkipAt s t') : t = t' := by
  obtain ⟨_, h⟩ := h
  obtain ⟨_, h'⟩ := h'
  rw [h] at h'
  cases h'
  rfl

theorem Reads.skipAt {d : Nat} {s t : List Char} {j : Json} (h : Reads d s j t) : SkipAt s t :=
  ⟨h.length_lt, skipValue_of_skips (skips_of_reads h)⟩

end DeviceRelay.Json
