import DeviceRelay.Json.Parser

/-!
# What the reader accepts

The reader of JSON texts as relations between a text, what stands at its front, and what follows.
The failures of the reader are left out, and so are the proofs that its rests are shorter.

* `Json.Reads`: a value at the front of a text.
* `Json.Items`, `Json.Members`: the inside of an array and of an object, for any kind of value.
* `Json.reads_iff_from`: a value by the character it starts with.
* `Json.parse_eq_ok_iff`: what a whole text denotes.
-/

namespace DeviceRelay.Json

theorem bind_eq_ok {ε α β : Type} {x : Except ε α} {f : α → Except ε β} {b : β} :
    x >>= f = .ok b ↔ ∃ a, x = .ok a ∧ f a = .ok b := by
  cases x with
  | error e => exact ⟨nofun, fun ⟨_, h, _⟩ => nomatch h⟩
  | ok a => exact ⟨fun h => ⟨a, rfl, h⟩, fun ⟨_, h, hf⟩ => by cases h; exact hf⟩

/-! ## Blanks -/

theorem skipBlanks_idem (s : List Char) : skipBlanks (skipBlanks s) = skipBlanks s := by
  unfold skipBlanks
  induction s with
  | nil => rfl
  | cons c s ih =>
    by_cases h : isBlank c = true
    · rw [List.dropWhile_cons_of_pos h]; exact ih
    · rw [List.dropWhile_cons_of_neg h, List.dropWhile_cons_of_neg h]

/-! ## Strings and values at the front of a text -/

/-- The string `k` stands at the front of `s`, from after its opening quote, and `t` follows. -/
def StringAt (s : List Char) (k : String) (t : List Char) : Prop :=
  ∃ h, readString s = .ok (k, ⟨t, h⟩)

/-- The value `j` stands at the front of `s`, nested at most `d` deep, and `t` follows. -/
def Reads (d : Nat) (s : List Char) (j : Json) (t : List Char) : Prop :=
  ∃ h, readValue d s = .ok (j, ⟨t, h⟩)

theorem StringAt.length_lt {s t : List Char} {k : String} (h : StringAt s k t) :
    t.length < s.length := h.1

theorem Reads.length_lt {d : Nat} {s t : List Char} {j : Json} (h : Reads d s j t) :
    t.length < s.length := h.1

theorem StringAt.unique {s : List Char} {k k' : String} {t t' : List Char}
    (h : StringAt s k t) (h' : StringAt s k' t') : k = k' ∧ t = t' := by
  obtain ⟨_, h⟩ := h
  obtain ⟨_, h'⟩ := h'
  rw [h] at h'
  simpa using h'

/-- A character that stands for itself in a string. -/
def isPlain (c : Char) : Bool := c ≠ '"' && c ≠ '\\' && 0x20 ≤ c.toNat

theorem readChars_quote {rest o : List Char} (done : List Char)
    (hs : ('"' :: rest).length ≤ o.length) :
    readChars (o := o) done ('"' :: rest) hs = .ok (String.ofList done.reverse, ⟨rest, hs⟩) := by
  rw [readChars.eq_def]
  exact if_pos rfl

theorem readChars_of_isPlain {c : Char} (hc : isPlain c = true) {s o : List Char}
    (done : List Char) (hs : (c :: s).length ≤ o.length) :
    readChars (o := o) done (c :: s) hs =
      readChars (o := o) (c :: done) s (Nat.le_of_lt hs) := by
  obtain ⟨⟨hquote, hback⟩, hcontrol⟩ : (c ≠ '"' ∧ c ≠ '\\') ∧ 0x20 ≤ c.toNat := by
    simpa [isPlain] using hc
  rw [readChars.eq_def]
  dsimp only
  rw [if_neg hquote, if_neg hback, if_neg (Nat.not_lt.mpr hcontrol)]

theorem readChars_plain {cs rest o : List Char} (h : ∀ c ∈ cs, isPlain c = true)
    (done : List Char) (hs : (cs ++ '"' :: rest).length ≤ o.length) :
    ∃ ht, readChars (o := o) done (cs ++ '"' :: rest) hs =
      .ok (String.ofList (done.reverse ++ cs), ⟨rest, ht⟩) := by
  induction cs generalizing done with
  | nil =>
    rw [List.append_nil]
    exact ⟨hs, readChars_quote done hs⟩
  | cons c cs ih =>
    obtain ⟨hc, hcs⟩ := List.forall_mem_cons.mp h
    obtain ⟨ht, hrest⟩ := ih hcs (c :: done) (Nat.le_of_lt hs)
    refine ⟨ht, (readChars_of_isPlain hc done hs).trans (hrest.trans ?_)⟩
    rw [List.reverse_cons, List.append_assoc]
    rfl

/-- A string without escapes stands as it is. -/
theorem stringAt_plain {cs : List Char} (h : ∀ c ∈ cs, isPlain c = true) (rest : List Char) :
    StringAt (cs ++ '"' :: rest) (String.ofList cs) rest := by
  obtain ⟨ht, hread⟩ := readChars_plain h [] (length_le_self (cs ++ '"' :: rest))
  exact ⟨ht, hread⟩

theorem Reads.unique {d : Nat} {s : List Char} {j j' : Json} {t t' : List Char}
    (h : Reads d s j t) (h' : Reads d s j' t') : j = j' ∧ t = t' := by
  obtain ⟨_, h⟩ := h
  obtain ⟨_, h'⟩ := h'
  rw [h] at h'
  simpa using h'

/-- The reader for what is inside a bracket. -/
def inner : (d : Nat) → Option ((s : List Char) → Reading Json s)
  | 0 => none
  | d + 1 => some (readValue d)

theorem readValue_of_nil {d : Nat} {s : List Char} (hs : skipBlanks s = []) :
    readValue d s = failAt .endInValue [] := by
  rw [readValue.eq_def]
  dsimp only
  split
  · rfl
  · rename_i h; rw [h] at hs; cases hs

theorem readValue_of_cons {d : Nat} {s r : List Char} {c : Char} (hs : skipBlanks s = c :: r) :
    readValue d s = readFrom (inner d) c r >>= fun x =>
      .ok (x.1, x.2.widen (hs ▸ length_skipBlanks_le s)) := by
  rw [readValue.eq_def]
  dsimp only
  split
  · rename_i h; rw [h] at hs; cases hs
  · rename_i h; rw [h] at hs; cases hs; cases d <;> rfl

/-- A value is read from the first character that is no blank. -/
theorem reads_iff {d : Nat} {s : List Char} {j : Json} {t : List Char} :
    Reads d s j t ↔ ∃ c r, skipBlanks s = c :: r ∧
      ∃ h, readFrom (inner d) c r = .ok (j, ⟨t, h⟩) := by
  unfold Reads
  cases hs : skipBlanks s with
  | nil =>
    rw [readValue_of_nil hs]
    exact ⟨fun ⟨_, h⟩ => (nomatch h), fun ⟨_, _, h, _⟩ => (nomatch h)⟩
  | cons c r =>
    rw [readValue_of_cons hs]
    constructor
    · rintro ⟨_, h⟩
      obtain ⟨⟨j', t'⟩, hr, h⟩ := bind_eq_ok.mp h
      cases h
      exact ⟨c, r, rfl, t'.2, hr⟩
    · rintro ⟨_, _, h, _, hr⟩
      cases h
      exact ⟨_, bind_eq_ok.mpr ⟨_, hr, rfl⟩⟩

/-- Blanks before a value do not matter. -/
theorem reads_skipBlanks {d : Nat} {s t : List Char} {j : Json} :
    Reads d (skipBlanks s) j t ↔ Reads d s j t := by
  rw [reads_iff, reads_iff, skipBlanks_idem]

/-! ## The inside of an array -/

/-- What follows an item of an array: further items up to the closing bracket. -/
inductive MoreItems {α : Type} (V : List Char → α → List Char → Prop) :
    List Char → List α → List Char → Prop where
  | close {s t : List Char} (h : skipBlanks s = ']' :: t) : MoreItems V s [] t
  | comma {s r u t : List Char} {a : α} {as : List α} (h : skipBlanks s = ',' :: r) (ha : V r a u)
      (hs : MoreItems V u as t) : MoreItems V s (a :: as) t

/-- The inside of an array, from after its opening bracket. -/
inductive Items {α : Type} (V : List Char → α → List Char → Prop) :
    List Char → List α → List Char → Prop where
  | empty {s t : List Char} (h : skipBlanks s = ']' :: t) : Items V s [] t
  | items {s u t : List Char} {a : α} {as : List α} (ha : V s a u) (hs : MoreItems V u as t) :
      Items V s (a :: as) t

/-- No value starts with a closing bracket. -/
theorem not_reads_bracket {d : Nat} {s r t : List Char} {j : Json} (hs : skipBlanks s = ']' :: r) :
    ¬ Reads d s j t := by
  rw [reads_iff]
  rintro ⟨c, r', h, _, hr⟩
  rw [hs] at h
  cases h
  simp [readFrom, failPast] at hr

theorem readItems_of_close {o : List Char} {d : Nat} (done : List Json) {s t : List Char}
    (hs : s.length ≤ o.length) {item : Json} {r : Rest s} (hr : readValue d s = .ok (item, r))
    (h : skipBlanks r.1 = ']' :: t) :
    ∃ ht, readItems (o := o) (readValue d) done s hs =
      .ok (.array (item :: done).reverse, ⟨t, ht⟩) := by
  refine ⟨Nat.lt_of_lt_of_le (Nat.lt_trans (length_of_skipBlanks h) r.2) hs, ?_⟩
  rw [readItems.eq_def, hr]
  dsimp only
  split
  · rename_i h'; rw [h'] at h; cases h
  · rename_i h'; rw [h'] at h; cases h; rfl

theorem readItems_of_comma {o : List Char} {d : Nat} (done : List Json) {s t u : List Char}
    {c : Char} (hs : s.length ≤ o.length) {item : Json} {r : Rest s}
    (hr : readValue d s = .ok (item, r)) (h : skipBlanks r.1 = ',' :: t)
    (ht : skipBlanks t = c :: u) (hc : c ≠ ']') :
    ∃ hu, readItems (o := o) (readValue d) done s hs =
      readItems (o := o) (readValue d) (item :: done) (c :: u) hu := by
  have hlt : (c :: u).length < s.length :=
    Nat.lt_of_le_of_lt (length_of_skipBlanks ht) (Nat.lt_trans (length_of_skipBlanks h) r.2)
  refine ⟨Nat.le_of_lt (Nat.lt_of_lt_of_le hlt hs), ?_⟩
  rw [readItems.eq_def, hr]
  dsimp only
  split
  · rename_i h'; rw [h'] at h; cases h
  · rename_i h'
    rw [h'] at h
    cases h
    rw [if_neg (by decide), if_pos rfl]
    split
    · rename_i h''; rw [h''] at ht; cases ht
    · rename_i h''; rw [h''] at ht; cases ht; rw [if_neg hc]

/-- What may follow an item that was read. -/
theorem readItems_cases {o : List Char} {d : Nat} {done : List Json} {s t : List Char}
    {hs : s.length ≤ o.length} {j : Json} {ht : t.length < o.length}
    (h : readItems (o := o) (readValue d) done s hs = .ok (j, ⟨t, ht⟩)) :
    ∃ item r, readValue d s = .ok (item, r) ∧
      ((skipBlanks r.1 = ']' :: t ∧ j = .array (item :: done).reverse) ∨
        ∃ v c u, skipBlanks r.1 = ',' :: v ∧ skipBlanks v = c :: u ∧ c ≠ ']') := by
  rw [readItems.eq_def] at h
  split at h
  · cases h
  · rename_i item r hr
    refine ⟨item, r, hr, ?_⟩
    split at h
    · cases h
    · rename_i c v hv
      dsimp only at h
      split at h
      · rename_i hc
        cases h
        exact .inl ⟨hc ▸ hv, rfl⟩
      · split at h
        · rename_i hc
          split at h
          · cases h
          · rename_i c' u hu
            split at h
            · cases h
            · rename_i hne
              exact .inr ⟨v, c', u, hc ▸ hv, hu, hne⟩
        · cases h

/-- What an array reader accepted is a list of items. -/
theorem moreItems_of_readItems {o : List Char} {d : Nat} {done : List Json} {s t : List Char}
    {hs : s.length ≤ o.length} {j : Json} {ht : t.length < o.length}
    (h : readItems (o := o) (readValue d) done s hs = .ok (j, ⟨t, ht⟩)) :
    ∃ item items u, Reads d s item u ∧ MoreItems (Reads d) u items t ∧
      j = .array (done.reverse ++ item :: items) := by
  induction hn : s.length using Nat.strongRecOn generalizing done s with
  | _ n ih =>
    obtain ⟨item, r, hr, ⟨hc, rfl⟩ | ⟨v, c, u, hv, hu, hne⟩⟩ := readItems_cases h
    · exact ⟨item, [], r.1, ⟨r.2, hr⟩, .close hc, by simp⟩
    · obtain ⟨hu', heq⟩ := readItems_of_comma done hs hr hv hu hne
      have hlt : (c :: u).length < s.length :=
        Nat.lt_of_le_of_lt (length_of_skipBlanks hu) (Nat.lt_trans (length_of_skipBlanks hv) r.2)
      rw [heq] at h
      obtain ⟨next, items, w, hnext, hitems, rfl⟩ := ih _ (hn ▸ hlt) h rfl
      rw [← hu, reads_skipBlanks] at hnext
      exact ⟨item, next :: items, r.1, ⟨r.2, hr⟩, .comma hv hnext hitems, by simp⟩

/-- An array reader accepts every list of items. -/
theorem readItems_of_moreItems {o : List Char} {d : Nat} {u t : List Char} {items : List Json}
    (hm : MoreItems (Reads d) u items t) (done : List Json) {s : List Char}
    (hs : s.length ≤ o.length) {item : Json} (hi : Reads d s item u) :
    ∃ ht, readItems (o := o) (readValue d) done s hs =
      .ok (.array (done.reverse ++ item :: items), ⟨t, ht⟩) := by
  obtain ⟨hlt, hr⟩ := hi
  induction hm generalizing done s item with
  | close h =>
    obtain ⟨ht, heq⟩ := readItems_of_close done hs hr h
    exact ⟨ht, by rw [heq, List.reverse_cons]⟩
  | comma h hnext _ ih =>
    obtain ⟨c, w, hv, -⟩ := reads_iff.mp hnext
    have hne : c ≠ ']' := by
      rintro rfl
      exact not_reads_bracket hv hnext
    obtain ⟨hu, heq⟩ := readItems_of_comma done hs hr h hv hne
    rw [← reads_skipBlanks, hv] at hnext
    obtain ⟨hlt', hr'⟩ := hnext
    obtain ⟨ht, heq'⟩ := ih (item :: done) hu hlt' hr'
    exact ⟨ht, by rw [heq, heq', List.reverse_cons, List.append_assoc]; rfl⟩

theorem readArray_iff {d : Nat} {s t : List Char} {j : Json} :
    (∃ h, readArray (readValue d) s = .ok (j, ⟨t, h⟩)) ↔
      ∃ items, Items (Reads d) s items t ∧ j = .array items := by
  unfold readArray
  constructor
  · intro ⟨ht, h⟩
    split at h
    · cases h
    · rename_i c r hc
      split at h
      · rename_i hb
        cases h
        exact ⟨[], .empty (hb ▸ hc), rfl⟩
      · obtain ⟨item, items, u, hi, hm, rfl⟩ := moreItems_of_readItems h
        rw [← hc, reads_skipBlanks] at hi
        exact ⟨_, .items hi hm, rfl⟩
  · rintro ⟨items, hitems, rfl⟩
    cases hitems with
    | empty h =>
      refine ⟨length_of_skipBlanks h, ?_⟩
      split
      · rename_i h'; rw [h'] at h; cases h
      · rename_i h'; rw [h'] at h; cases h; rw [if_pos rfl]
    | items hi hm =>
      split
      · rename_i h'
        obtain ⟨c, r, hc, -⟩ := reads_iff.mp hi
        rw [h'] at hc; cases hc
      · rename_i c r hc
        have hne : c ≠ ']' := by
          rintro rfl
          exact not_reads_bracket hc hi
        rw [if_neg hne]
        rw [← reads_skipBlanks, hc] at hi
        exact readItems_of_moreItems hm [] _ hi

/-! ## The inside of an object -/

/-- The members of an object, from after the opening quote of a key. -/
inductive Members {α : Type} (V : List Char → α → List Char → Prop) :
    List Char → List (String × α) → List Char → Prop where
  | close {s r v u t : List Char} {k : String} {a : α} (hk : StringAt s k r)
      (hc : skipBlanks r = ':' :: v) (ha : V v a u) (h : skipBlanks u = '}' :: t) :
      Members V s [(k, a)] t
  | comma {s r v u w x t : List Char} {k : String} {a : α} {ms : List (String × α)}
      (hk : StringAt s k r) (hc : skipBlanks r = ':' :: v) (ha : V v a u)
      (h : skipBlanks u = ',' :: w) (hq : skipBlanks w = '"' :: x) (hms : Members V x ms t) :
      Members V s ((k, a) :: ms) t

/-- The inside of an object, from after its opening brace. -/
inductive ObjectAt {α : Type} (V : List Char → α → List Char → Prop) :
    List Char → List (String × α) → List Char → Prop where
  | empty {s t : List Char} (h : skipBlanks s = '}' :: t) : ObjectAt V s [] t
  | members {s r t : List Char} {ms : List (String × α)} (h : skipBlanks s = '"' :: r)
      (hms : Members V r ms t) : ObjectAt V s ms t

/-- Members put into an object one after the other. -/
def insertAll (done ms : List (String × Json)) : List (String × Json) :=
  ms.foldl (fun acc m => insertMember m.1 m.2 acc) done

theorem readColon_iff {s t : List Char} :
    (∃ h, readColon s = .ok ((), ⟨t, h⟩)) ↔ skipBlanks s = ':' :: t := by
  unfold readColon
  constructor
  · intro ⟨_, h⟩
    split at h
    · cases h
    · rename_i hs
      split at h
      · rename_i hc
        cases h
        exact hc ▸ hs
      · cases h
  · intro h
    refine ⟨length_of_skipBlanks h, ?_⟩
    split
    · rename_i h'; rw [h'] at h; cases h
    · rename_i h'; rw [h'] at h; cases h; rw [if_pos rfl]

theorem readMember_iff {d : Nat} {s t : List Char} {m : String × Json} :
    (∃ h, readMember (readValue d) s = .ok (m, ⟨t, h⟩)) ↔
      ∃ r v, StringAt s m.1 r ∧ skipBlanks r = ':' :: v ∧ Reads d v m.2 t := by
  unfold readMember
  constructor
  · intro ⟨_, h⟩
    obtain ⟨⟨k, r⟩, hk, h⟩ := bind_eq_ok.mp h
    obtain ⟨⟨_, v⟩, hc, h⟩ := bind_eq_ok.mp h
    obtain ⟨⟨j, u⟩, hj, h⟩ := bind_eq_ok.mp h
    cases h
    exact ⟨r.1, v.1, ⟨r.2, hk⟩, readColon_iff.mp ⟨v.2, hc⟩, ⟨u.2, hj⟩⟩
  · rintro ⟨r, v, ⟨hr, hk⟩, hc, ⟨ht, hj⟩⟩
    obtain ⟨hv, hc⟩ := readColon_iff.mpr hc
    refine ⟨Nat.lt_trans ht (Nat.lt_trans hv hr), ?_⟩
    refine bind_eq_ok.mpr ⟨_, hk, bind_eq_ok.mpr ⟨_, hc, bind_eq_ok.mpr ⟨_, hj, rfl⟩⟩⟩

/-- What may follow a member that was read. -/
theorem readMembers_cases {o : List Char} {d : Nat} {done : List (String × Json)}
    {s t : List Char} {hs : s.length ≤ o.length} {j : Json} {ht : t.length < o.length}
    (h : readMembers (o := o) (readValue d) done s hs = .ok (j, ⟨t, ht⟩)) :
    ∃ m r, readMember (readValue d) s = .ok (m, r) ∧
      ((skipBlanks r.1 = '}' :: t ∧ j = .object (insertMember m.1 m.2 done)) ∨
        ∃ w x hx, skipBlanks r.1 = ',' :: w ∧ skipBlanks w = '"' :: x ∧
          readMembers (o := o) (readValue d) (insertMember m.1 m.2 done) x hx =
            .ok (j, ⟨t, ht⟩)) := by
  rw [readMembers.eq_def] at h
  split at h
  · cases h
  · rename_i k v r hr
    refine ⟨(k, v), r, hr, ?_⟩
    split at h
    · cases h
    · rename_i c w hw
      dsimp only at h
      split at h
      · rename_i hc
        cases h
        exact .inl ⟨hc ▸ hw, rfl⟩
      · split at h
        · rename_i hc
          split at h
          · cases h
          · rename_i c' x hx
            split at h
            · rename_i hq
              exact .inr ⟨w, x, _, hc ▸ hw, hq ▸ hx, h⟩
            · split at h <;> cases h
        · cases h

theorem readMembers_of_close {o : List Char} {d : Nat} (done : List (String × Json))
    {s t : List Char} (hs : s.length ≤ o.length) {m : String × Json} {r : Rest s}
    (hr : readMember (readValue d) s = .ok (m, r)) (h : skipBlanks r.1 = '}' :: t) :
    ∃ ht, readMembers (o := o) (readValue d) done s hs =
      .ok (.object (insertMember m.1 m.2 done), ⟨t, ht⟩) := by
  refine ⟨Nat.lt_of_lt_of_le (Nat.lt_trans (length_of_skipBlanks h) r.2) hs, ?_⟩
  rw [readMembers.eq_def, hr]
  dsimp only
  split
  · rename_i h'; rw [h'] at h; cases h
  · rename_i h'; rw [h'] at h; cases h; rw [if_pos rfl]

theorem readMembers_of_comma {o : List Char} {d : Nat} (done : List (String × Json))
    {s w x : List Char} (hs : s.length ≤ o.length) {m : String × Json} {r : Rest s}
    (hr : readMember (readValue d) s = .ok (m, r)) (h : skipBlanks r.1 = ',' :: w)
    (hq : skipBlanks w = '"' :: x) :
    ∃ hx, readMembers (o := o) (readValue d) done s hs =
      readMembers (o := o) (readValue d) (insertMember m.1 m.2 done) x hx := by
  have hlt : x.length < s.length :=
    Nat.lt_trans (length_of_skipBlanks hq) (Nat.lt_trans (length_of_skipBlanks h) r.2)
  refine ⟨Nat.le_of_lt (Nat.lt_of_lt_of_le hlt hs), ?_⟩
  rw [readMembers.eq_def, hr]
  dsimp only
  split
  · rename_i h'; rw [h'] at h; cases h
  · rename_i h'
    rw [h'] at h
    cases h
    rw [if_neg (by decide), if_pos rfl]
    split
    · rename_i h''; rw [h''] at hq; cases hq
    · rename_i h''; rw [h''] at hq; cases hq; rw [if_pos rfl]

/-- What an object reader accepted is a list of members, and a later member wins. -/
theorem members_of_readMembers {o : List Char} {d : Nat} {done : List (String × Json)}
    {s t : List Char} {hs : s.length ≤ o.length} {j : Json} {ht : t.length < o.length}
    (h : readMembers (o := o) (readValue d) done s hs = .ok (j, ⟨t, ht⟩)) :
    ∃ ms, Members (Reads d) s ms t ∧ j = .object (insertAll done ms) := by
  induction hn : s.length using Nat.strongRecOn generalizing done s with
  | _ n ih =>
    obtain ⟨m, r, hr, ⟨hc, rfl⟩ | ⟨w, x, hx, hw, hq, h⟩⟩ := readMembers_cases h
    · obtain ⟨u, v, hk, hcolon, hj⟩ := readMember_iff.mp ⟨r.2, hr⟩
      exact ⟨[m], .close hk hcolon hj hc, rfl⟩
    · obtain ⟨u, v, hk, hcolon, hj⟩ := readMember_iff.mp ⟨r.2, hr⟩
      have hlt : x.length < s.length :=
        Nat.lt_trans (length_of_skipBlanks hq) (Nat.lt_trans (length_of_skipBlanks hw) r.2)
      obtain ⟨ms, hms, rfl⟩ := ih _ (hn ▸ hlt) h rfl
      exact ⟨m :: ms, .comma hk hcolon hj hw hq hms, rfl⟩

/-- An object reader accepts every list of members. -/
theorem readMembers_of_members {o : List Char} {d : Nat} {s t : List Char}
    {ms : List (String × Json)} (h : Members (Reads d) s ms t) (done : List (String × Json))
    (hs : s.length ≤ o.length) :
    ∃ ht, readMembers (o := o) (readValue d) done s hs =
      .ok (.object (insertAll done ms), ⟨t, ht⟩) := by
  induction h generalizing done with
  | @close s r v u t k j hk hc ha h =>
    obtain ⟨hlt, hr⟩ := (readMember_iff (m := (k, j))).mpr ⟨_, _, hk, hc, ha⟩
    exact readMembers_of_close done hs hr h
  | @comma s r v u w x t k j ms hk hc ha h hq _ ih =>
    obtain ⟨hlt, hr⟩ := (readMember_iff (m := (k, j))).mpr ⟨_, _, hk, hc, ha⟩
    obtain ⟨hx, heq⟩ := readMembers_of_comma done hs hr h hq
    obtain ⟨ht, heq'⟩ := ih (insertMember k j done) hx
    exact ⟨ht, by rw [heq, heq']; rfl⟩

theorem readObject_iff {d : Nat} {s t : List Char} {j : Json} :
    (∃ h, readObject (readValue d) s = .ok (j, ⟨t, h⟩)) ↔
      ∃ ms, ObjectAt (Reads d) s ms t ∧ j = .object (insertAll [] ms) := by
  unfold readObject
  constructor
  · intro ⟨ht, h⟩
    split at h
    · cases h
    · rename_i c r hc
      dsimp only at h
      split at h
      · rename_i hb
        cases h
        exact ⟨[], .empty (hb ▸ hc), rfl⟩
      · split at h
        · rename_i hq
          obtain ⟨ms, hms, rfl⟩ := members_of_readMembers h
          exact ⟨ms, .members (hq ▸ hc) hms, rfl⟩
        · cases h
  · rintro ⟨ms, hms, rfl⟩
    cases hms with
    | empty h =>
      refine ⟨length_of_skipBlanks h, ?_⟩
      split
      · rename_i h'; rw [h'] at h; cases h
      · rename_i h'; rw [h'] at h; cases h; rw [if_pos rfl]; rfl
    | members h hms =>
      split
      · rename_i h'; rw [h'] at h; cases h
      · rename_i h'
        rw [h'] at h
        cases h
        rw [if_neg (by decide), if_pos rfl]
        exact readMembers_of_members hms [] _

/-! ## Values by their first character -/

/-- The value `j` starts with the character `c`, goes on with `r`, and `t` follows. -/
inductive ReadsFrom : Nat → Char → List Char → Json → List Char → Prop where
  | null {d : Nat} {r t : List Char} (h : ∃ ht, readWord ['u', 'l', 'l'] r = .ok ⟨t, ht⟩) :
      ReadsFrom d 'n' r .null t
  | yes {d : Nat} {r t : List Char} (h : ∃ ht, readWord ['r', 'u', 'e'] r = .ok ⟨t, ht⟩) :
      ReadsFrom d 't' r (.bool true) t
  | no {d : Nat} {r t : List Char} (h : ∃ ht, readWord ['a', 'l', 's', 'e'] r = .ok ⟨t, ht⟩) :
      ReadsFrom d 'f' r (.bool false) t
  | negative {d : Nat} {r t : List Char} {n : Number}
      (h : ∃ ht, readNumber true r = .ok (n, ⟨t, ht⟩)) : ReadsFrom d '-' r (.number n) t
  | natural {d : Nat} {c : Char} {r t : List Char} {n : Number} (hc : c.isDigit = true)
      (h : ∃ ht, readNumber false (c :: r) = .ok (n, ⟨t, ht⟩)) : ReadsFrom d c r (.number n) t
  | string {d : Nat} {r t : List Char} {k : String} (h : StringAt r k t) :
      ReadsFrom d '"' r (.string k) t
  | array {d : Nat} {r t : List Char} {items : List Json} (h : Items (Reads d) r items t) :
      ReadsFrom (d + 1) '[' r (.array items) t
  | object {d : Nat} {r t : List Char} {ms : List (String × Json)} (h : ObjectAt (Reads d) r ms t) :
      ReadsFrom (d + 1) '{' r (.object (insertAll [] ms)) t

theorem readsFrom_of_readFrom {d : Nat} {c : Char} {r t : List Char} {j : Json}
    {ht : t.length < (c :: r).length} (h : readFrom (inner d) c r = .ok (j, ⟨t, ht⟩)) :
    ReadsFrom d c r j t := by
  unfold readFrom at h
  dsimp only at h
  split at h
  · rename_i hc
    subst hc
    obtain ⟨u, hu, h⟩ := bind_eq_ok.mp h
    cases h
    exact .null ⟨u.2, hu⟩
  split at h
  · rename_i hc
    subst hc
    obtain ⟨u, hu, h⟩ := bind_eq_ok.mp h
    cases h
    exact .yes ⟨u.2, hu⟩
  split at h
  · rename_i hc
    subst hc
    obtain ⟨u, hu, h⟩ := bind_eq_ok.mp h
    cases h
    exact .no ⟨u.2, hu⟩
  split at h
  · rename_i hc
    subst hc
    obtain ⟨⟨n, u⟩, hu, h⟩ := bind_eq_ok.mp h
    cases h
    exact .negative ⟨u.2, hu⟩
  split at h
  · rename_i hc
    obtain ⟨⟨n, u⟩, hu, h⟩ := bind_eq_ok.mp h
    cases h
    exact .natural hc ⟨_, hu⟩
  split at h
  · rename_i hc
    subst hc
    obtain ⟨⟨k, u⟩, hu, h⟩ := bind_eq_ok.mp h
    cases h
    exact .string ⟨u.2, hu⟩
  split at h
  · cases d with
    | zero => cases h
    | succ d =>
      dsimp only [inner] at h
      split at h
      · rename_i hc
        subst hc
        obtain ⟨⟨j', u⟩, hu, h⟩ := bind_eq_ok.mp h
        cases h
        obtain ⟨items, hitems, rfl⟩ := readArray_iff.mp ⟨u.2, hu⟩
        exact .array hitems
      · rename_i hor hne
        have hc : c = '{' := hor.resolve_left hne
        subst hc
        obtain ⟨⟨j', u⟩, hu, h⟩ := bind_eq_ok.mp h
        cases h
        obtain ⟨ms, hms, rfl⟩ := readObject_iff.mp ⟨u.2, hu⟩
        exact .object hms
  · cases h

theorem ne_of_isDigit {c : Char} (hc : c.isDigit = true) :
    c ≠ 'n' ∧ c ≠ 't' ∧ c ≠ 'f' ∧ c ≠ '-' := by
  refine ⟨?_, ?_, ?_, ?_⟩ <;> rintro rfl <;> cases hc

theorem readFrom_of_readsFrom {d : Nat} {c : Char} {r t : List Char} {j : Json}
    (h : ReadsFrom d c r j t) : ∃ ht, readFrom (inner d) c r = .ok (j, ⟨t, ht⟩) := by
  unfold readFrom
  cases h with
  | null h =>
    obtain ⟨_, h⟩ := h
    exact ⟨_, bind_eq_ok.mpr ⟨_, h, rfl⟩⟩
  | yes h =>
    obtain ⟨_, h⟩ := h
    exact ⟨_, bind_eq_ok.mpr ⟨_, h, rfl⟩⟩
  | no h =>
    obtain ⟨_, h⟩ := h
    exact ⟨_, bind_eq_ok.mpr ⟨_, h, rfl⟩⟩
  | negative h =>
    obtain ⟨_, h⟩ := h
    exact ⟨_, bind_eq_ok.mpr ⟨_, h, rfl⟩⟩
  | natural hc h =>
    obtain ⟨ht, h⟩ := h
    obtain ⟨hn, hy, hf, hm⟩ := ne_of_isDigit hc
    refine ⟨ht, ?_⟩
    dsimp only
    rw [if_neg hn, if_neg hy, if_neg hf, if_neg hm, if_pos hc]
    exact bind_eq_ok.mpr ⟨_, h, rfl⟩
  | string h =>
    obtain ⟨_, h⟩ := h
    exact ⟨_, bind_eq_ok.mpr ⟨_, h, rfl⟩⟩
  | array h =>
    obtain ⟨_, h⟩ := readArray_iff.mpr ⟨_, h, rfl⟩
    exact ⟨_, bind_eq_ok.mpr ⟨_, h, rfl⟩⟩
  | object h =>
    obtain ⟨_, h⟩ := readObject_iff.mpr ⟨_, h, rfl⟩
    exact ⟨_, bind_eq_ok.mpr ⟨_, h, rfl⟩⟩

/-- **A value by the character it starts with.** -/
theorem reads_iff_from {d : Nat} {s : List Char} {j : Json} {t : List Char} :
    Reads d s j t ↔ ∃ c r, skipBlanks s = c :: r ∧ ReadsFrom d c r j t := by
  rw [reads_iff]
  constructor
  · rintro ⟨c, r, hs, _, h⟩
    exact ⟨c, r, hs, readsFrom_of_readFrom h⟩
  · rintro ⟨c, r, hs, h⟩
    exact ⟨c, r, hs, readFrom_of_readsFrom h⟩

theorem reads_string_iff {d : Nat} {s t : List Char} {k : String} :
    Reads d s (.string k) t ↔ ∃ r, skipBlanks s = '"' :: r ∧ StringAt r k t := by
  rw [reads_iff_from]
  constructor
  · rintro ⟨c, r, hs, h⟩
    cases h with
    | string h => exact ⟨r, hs, h⟩
  · rintro ⟨r, hs, h⟩
    exact ⟨_, r, hs, .string h⟩

theorem reads_array_iff {d : Nat} {s t : List Char} {items : List Json} :
    Reads (d + 1) s (.array items) t ↔
      ∃ r, skipBlanks s = '[' :: r ∧ Items (Reads d) r items t := by
  rw [reads_iff_from]
  constructor
  · rintro ⟨c, r, hs, h⟩
    cases h with
    | array h => exact ⟨r, hs, h⟩
  · rintro ⟨r, hs, h⟩
    exact ⟨_, r, hs, .array h⟩

theorem reads_object_iff {d : Nat} {s t : List Char} {ms : List (String × Json)} :
    Reads (d + 1) s (.object ms) t ↔
      ∃ r raw, skipBlanks s = '{' :: r ∧ ObjectAt (Reads d) r raw t ∧ ms = insertAll [] raw := by
  rw [reads_iff_from]
  constructor
  · rintro ⟨c, r, hs, h⟩
    cases h with
    | object h => exact ⟨r, _, hs, h, rfl⟩
  · rintro ⟨r, raw, hs, h, rfl⟩
    exact ⟨_, r, hs, .object h⟩

/-! ## Whole texts -/

private theorem mapError_eq_ok {ε ε' α : Type} {x : Except ε α} {f : ε → ε'} {a : α} :
    x.mapError f = .ok a ↔ x = .ok a := by
  cases x with
  | error e => exact ⟨nofun, nofun⟩
  | ok b => exact ⟨fun h => by cases h; rfl, fun h => by cases h; rfl⟩

theorem finish_eq_ok_iff {s : List Char} : finish s = .ok () ↔ skipBlanks s = [] := by
  unfold finish
  split
  · rename_i h
    exact ⟨fun _ => h, fun _ => rfl⟩
  · rename_i h
    exact ⟨nofun, fun h' => absurd h' h⟩

/-- **A text denotes a value where the value stands at its front and only blanks follow.** -/
theorem parse_eq_ok_iff {text : String} {j : Json} :
    parse text = .ok j ↔ ∃ t, Reads maxDepth text.toList j t ∧ skipBlanks t = [] := by
  unfold parse
  rw [mapError_eq_ok, bind_eq_ok]
  constructor
  · rintro ⟨⟨v, r⟩, hv, h⟩
    obtain ⟨⟨⟩, hr, h⟩ := bind_eq_ok.mp h
    cases h
    exact ⟨r.1, ⟨r.2, hv⟩, finish_eq_ok_iff.mp hr⟩
  · rintro ⟨t, ⟨ht, hv⟩, hr⟩
    exact ⟨_, hv, bind_eq_ok.mpr ⟨_, finish_eq_ok_iff.mpr hr, rfl⟩⟩

end DeviceRelay.Json
