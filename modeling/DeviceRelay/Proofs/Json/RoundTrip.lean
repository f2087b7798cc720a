import DeviceRelay.Proofs.Json.Numerals
import DeviceRelay.Proofs.Json.Written

/-!
# Values that are written and read again

The text of a value is read as the value with its numbers as they are read, if each of them is in
range and the value is nested no deeper than the reader goes. Nothing else is lost: each character
of a string comes back from what was written for it, and members in order stay as they are.

* `Json.depth`: how deep arrays and objects are nested.
* `Json.reread?`: a value with each of its numbers as it is read.
* `Json.stringAt_escaped`: a string is read where it was written.
* `Json.roundTrips`: what is read where a value was written.
* `Json.parse_render_iff`: what the text of a value denotes.
-/

namespace DeviceRelay.Json

/-! ## Strings -/

/-- Three ways to write a character of a string. -/
theorem escapeChar_cases (c : Char) :
    (∃ e, e ≠ 'u' ∧ shortEscape? e = some c ∧ escapeChar c = ['\\', e]) ∨
      (c.toNat < 0x20 ∧ escapeChar c =
        ['\\', 'u', '0', '0', hexDigit (c.toNat / 16), hexDigit (c.toNat % 16)]) ∨
      isPlain c = true ∧ escapeChar c = [c] := by
  unfold escapeChar
  split
  · rename_i h
    subst h
    exact .inl ⟨'"', by decide, rfl, rfl⟩
  split
  · rename_i h
    subst h
    exact .inl ⟨'\\', by decide, rfl, rfl⟩
  split
  · rename_i h
    subst h
    exact .inl ⟨'b', by decide, rfl, rfl⟩
  split
  · rename_i h
    subst h
    exact .inl ⟨'t', by decide, rfl, rfl⟩
  split
  · rename_i h
    subst h
    exact .inl ⟨'n', by decide, rfl, rfl⟩
  split
  · rename_i h
    subst h
    exact .inl ⟨'f', by decide, rfl, rfl⟩
  split
  · rename_i h
    subst h
    exact .inl ⟨'r', by decide, rfl, rfl⟩
  split
  · rename_i h
    exact .inr (.inl ⟨h, rfl⟩)
  · rename_i hquote hback _ _ _ _ _ hcontrol
    refine .inr (.inr ⟨?_, rfl⟩)
    simp [isPlain, hquote, hback, Nat.not_lt.mp hcontrol]

theorem hexValue?_hexDigit {n : Nat} (h : n < 16) : hexValue? (hexDigit n) = some n := by
  have hall : ∀ n : Fin 16, hexValue? (hexDigit n) = some n.val := by decide
  exact hall ⟨n, h⟩

theorem readEscape_short {e c : Char} (he : e ≠ 'u') (hc : shortEscape? e = some c)
    (s : List Char) : ∃ h, readEscape (e :: s) = .ok (c, ⟨s, h⟩) := by
  refine ⟨Nat.lt_succ_self _, ?_⟩
  unfold readEscape
  dsimp only
  rw [if_neg he, hc]
  rfl

/-- A control character comes back from its digits. -/
theorem readEscape_control {c : Char} (hc : c.toNat < 0x20) (s : List Char) :
    ∃ h, readEscape
      ('u' :: '0' :: '0' :: hexDigit (c.toNat / 16) :: hexDigit (c.toNat % 16) :: s) =
        .ok (c, ⟨s, h⟩) := by
  have hzero : hexValue? '0' = some 0 := rfl
  have hhigh := hexValue?_hexDigit (n := c.toNat / 16) (by omega)
  have hlow := hexValue?_hexDigit (n := c.toNat % 16) (by omega)
  have hcode : ((0 * 16 + 0) * 16 + c.toNat / 16) * 16 + c.toNat % 16 = c.toNat := by omega
  have hhex : ∃ h, readHex
      ('0' :: '0' :: hexDigit (c.toNat / 16) :: hexDigit (c.toNat % 16) :: s) =
        .ok (c.toNat, ⟨s, h⟩) := by
    refine ⟨by simp only [List.length_cons]; omega, ?_⟩
    unfold readHex
    dsimp only
    rw [hzero, hhigh, hlow]
    dsimp only
    rw [hcode]
  obtain ⟨_, hhex⟩ := hhex
  refine ⟨by simp only [List.length_cons]; omega, ?_⟩
  unfold readEscape
  dsimp only
  rw [if_pos rfl]
  refine bind_eq_ok.mpr ⟨_, hhex, ?_⟩
  dsimp only
  rw [if_neg (by omega), if_pos (by omega), Char.ofNat_toNat]
  rfl

section Reading

variable {o : List Char} (done : List Char)

theorem readChars_escape {r s : List Char} {c : Char} (hread : ∃ h, readEscape r = .ok (c, ⟨s, h⟩))
    (hs : ('\\' :: r).length ≤ o.length) :
    ∃ h, readChars (o := o) done ('\\' :: r) hs = readChars (o := o) (c :: done) s h := by
  obtain ⟨hlt, hread⟩ := hread
  refine ⟨Nat.le_of_lt (Nat.lt_trans hlt hs), ?_⟩
  rw [readChars.eq_def]
  dsimp only
  rw [if_neg (by decide), if_pos rfl, hread]

/-- What was written for a character is read as the character. -/
theorem readChars_escapeChar (c : Char) {s : List Char}
    (hs : (escapeChar c ++ s).length ≤ o.length) :
    ∃ h, readChars (o := o) done (escapeChar c ++ s) hs = readChars (o := o) (c :: done) s h := by
  obtain ⟨e, he, hc, hesc⟩ | ⟨hc, hesc⟩ | ⟨hc, hesc⟩ := escapeChar_cases c
  · revert hs
    rw [hesc]
    exact readChars_escape done (readEscape_short he hc s)
  · revert hs
    rw [hesc]
    exact readChars_escape done (readEscape_control hc s)
  · revert hs
    rw [hesc]
    exact fun hs => ⟨Nat.le_of_lt hs, readChars_of_isPlain hc done hs⟩

theorem readChars_escaped {cs rest : List Char}
    (hs : (cs.flatMap escapeChar ++ '"' :: rest).length ≤ o.length) :
    ∃ h, readChars (o := o) done (cs.flatMap escapeChar ++ '"' :: rest) hs =
      .ok (String.ofList (done.reverse ++ cs), ⟨rest, h⟩) := by
  induction cs generalizing done with
  | nil =>
    rw [List.append_nil]
    exact ⟨hs, readChars_quote done hs⟩
  | cons c cs ih =>
    revert hs
    rw [List.flatMap_cons, List.append_assoc]
    intro hs
    obtain ⟨hs', hstep⟩ := readChars_escapeChar done c hs
    obtain ⟨h, hrest⟩ := ih (c :: done) hs'
    refine ⟨h, ?_⟩
    rw [hstep, hrest, List.reverse_cons, List.append_assoc]
    rfl

end Reading

/-- **A string is read where it was written**, from after its opening quote. -/
theorem stringAt_escaped (s : String) (rest : List Char) :
    StringAt (s.toList.flatMap escapeChar ++ '"' :: rest) s rest := by
  obtain ⟨h, hread⟩ :=
    readChars_escaped [] (length_le_self (s.toList.flatMap escapeChar ++ '"' :: rest))
  rw [List.reverse_nil, List.nil_append, String.ofList_toList] at hread
  exact ⟨h, hread⟩

theorem stringAt_escaped_iff {s k : String} {rest t : List Char} :
    StringAt (s.toList.flatMap escapeChar ++ '"' :: rest) k t ↔ k = s ∧ t = rest := by
  constructor
  · intro h
    exact h.unique (stringAt_escaped s rest)
  · rintro ⟨rfl, rfl⟩
    exact stringAt_escaped k t

/-! ## Nesting and numbers -/

mutual

/-- How deep arrays and objects are nested. -/
def depth : Json → Nat
  | .array items => itemDepth items + 1
  | .object members => memberDepth members + 1
  | _ => 0
termination_by structural j => j

def itemDepth : List Json → Nat
  | [] => 0
  | item :: items => max (depth item) (itemDepth items)
termination_by structural j => j

def memberDepth : List (String × Json) → Nat
  | [] => 0
  | m :: ms => max (oneMemberDepth m) (memberDepth ms)
termination_by structural j => j

def oneMemberDepth : String × Json → Nat
  | (_, value) => depth value
termination_by structural j => j

end

mutual

/-- The value with each of its numbers as it is read, if all of them are in range. -/
def reread? : Json → Option Json
  | .number n => n.reread?.map .number
  | .array items => (rereadItems? items).map .array
  | .object members => (rereadMembers? members).map .object
  | .null => some .null
  | .bool b => some (.bool b)
  | .string s => some (.string s)
termination_by structural j => j

def rereadItems? : List Json → Option (List Json)
  | [] => some []
  | item :: items => (reread? item).bind fun k => (rereadItems? items).map (k :: ·)
termination_by structural j => j

def rereadMembers? : List (String × Json) → Option (List (String × Json))
  | [] => some []
  | m :: ms => (rereadMember? m).bind fun k => (rereadMembers? ms).map (k :: ·)
termination_by structural j => j

def rereadMember? : String × Json → Option (String × Json)
  | (key, value) => (reread? value).map (key, ·)
termination_by structural j => j

end

theorem rereadItems?_cons_eq_some_iff {item : Json} {items ks : List Json} :
    rereadItems? (item :: items) = some ks ↔
      ∃ k ks', ks = k :: ks' ∧ item.reread? = some k ∧ rereadItems? items = some ks' := by
  simp only [rereadItems?, Option.bind_eq_some_iff, Option.map_eq_some_iff]
  constructor
  · rintro ⟨k, hk, ks', hks, rfl⟩
    exact ⟨k, ks', rfl, hk, hks⟩
  · rintro ⟨k, ks', rfl, hk, hks⟩
    exact ⟨k, hk, ks', hks, rfl⟩

theorem rereadMembers?_cons_eq_some_iff {m : String × Json} {members ks : List (String × Json)} :
    rereadMembers? (m :: members) = some ks ↔
      ∃ k ks', ks = k :: ks' ∧ rereadMember? m = some k ∧ rereadMembers? members = some ks' := by
  simp only [rereadMembers?, Option.bind_eq_some_iff, Option.map_eq_some_iff]
  constructor
  · rintro ⟨k, hk, ks', hks, rfl⟩
    exact ⟨k, ks', rfl, hk, hks⟩
  · rintro ⟨k, ks', rfl, hk, hks⟩
    exact ⟨k, hk, ks', hks, rfl⟩

theorem rereadMember?_eq_some_iff {key : String} {value : Json} {k : String × Json} :
    rereadMember? (key, value) = some k ↔ k.1 = key ∧ value.reread? = some k.2 := by
  rw [rereadMember?, Option.map_eq_some_iff]
  constructor
  · rintro ⟨v, hv, rfl⟩
    exact ⟨rfl, hv⟩
  · rintro ⟨rfl, hv⟩
    exact ⟨k.2, hv, rfl⟩

/-! ## Arrays -/

theorem skipBlanks_cons {c : Char} (h : isBlank c = false) (s : List Char) :
    skipBlanks (c :: s) = c :: s := List.dropWhile_cons_of_neg (by simp [h])

/-- A comma and a part, and so on. -/
def following (parts : List (List Char)) : List Char := parts.flatMap (',' :: ·)

theorem commaSeparated_cons (part : List Char) (parts : List (List Char)) :
    commaSeparated (part :: parts) = part ++ following parts := by
  induction parts generalizing part with
  | nil => exact (List.append_nil part).symm
  | cons p parts ih =>
    rw [commaSeparated, ih]
    · rfl
    · exact List.cons_ne_nil p parts

theorem ends_following {c : Char} (hc : goesOn c = false) (parts : List (List Char))
    (rest : List Char) : Ends (following parts ++ c :: rest) := by
  cases parts with
  | nil => exact ends_cons hc rest
  | cons p parts => exact ends_cons rfl _

/-- No value starts with a blank or a closing bracket. -/
theorem exists_chars_eq_cons (j : Json) :
    ∃ c r, j.chars = c :: r ∧ isBlank c = false ∧ c ≠ ']' := by
  cases j with
  | null => exact ⟨_, _, rfl, rfl, by decide⟩
  | bool b => cases b <;> exact ⟨_, _, rfl, rfl, by decide⟩
  | number n =>
    obtain ⟨negative, s, hs⟩ := exists_spells n
    rw [chars, hs.chars_eq]
    cases negative with
    | true => exact ⟨_, _, rfl, rfl, by decide⟩
    | false =>
      obtain ⟨c, cs, hwhole⟩ := List.exists_cons_of_ne_nil hs.valid.whole_ne_nil
      have hc : c.isDigit = true := hs.valid.whole c (hwhole ▸ List.mem_cons_self)
      rw [if_neg Bool.false_ne_true, Spelling.chars, hwhole]
      refine ⟨c, _, rfl, isBlank_of_isDigit hc, ?_⟩
      rintro rfl
      cases hc
  | string s => exact ⟨_, _, rfl, rfl, by decide⟩
  | array items => exact ⟨_, _, rfl, rfl, by decide⟩
  | object members => exact ⟨_, _, rfl, rfl, by decide⟩

/-- What is read where a value was written: the value with its numbers as they are read, and what
follows it is left. -/
def RoundTrips (j : Json) : Prop :=
  ∀ {d : Nat} {rest : List Char}, Ends rest → ∀ {k : Json} {t : List Char},
    Reads d (j.chars ++ rest) k t ↔ j.depth ≤ d ∧ j.reread? = some k ∧ t = rest

section Arrays

variable {d : Nat} {rest t : List Char}

theorem following_cons (part : List Char) (parts : List (List Char)) (rest : List Char) :
    following (part :: parts) ++ rest = ',' :: (part ++ (following parts ++ rest)) := by
  rw [following, List.flatMap_cons, List.append_assoc]
  rfl

theorem moreItems_following_iff {items : List Json} (each : ∀ v ∈ items, RoundTrips v)
    {ks : List Json} :
    MoreItems (Reads d) (following (itemChars items) ++ ']' :: rest) ks t ↔
      itemDepth items ≤ d ∧ rereadItems? items = some ks ∧ t = rest := by
  induction items generalizing ks with
  | nil =>
    have hs : skipBlanks (']' :: rest) = ']' :: rest := skipBlanks_cons rfl rest
    change MoreItems (Reads d) (']' :: rest) ks t ↔ _
    constructor
    · intro h
      cases h with
      | close h =>
        cases hs.symm.trans h
        exact ⟨Nat.zero_le d, rfl, rfl⟩
      | comma h _ _ => cases hs.symm.trans h
    · rintro ⟨-, h, rfl⟩
      cases h
      exact .close hs
  | cons item items ih =>
    obtain ⟨hitem, each⟩ := List.forall_mem_cons.mp each
    have hends : Ends (following (itemChars items) ++ ']' :: rest) := ends_following rfl _ _
    have hs := skipBlanks_cons (c := ',') rfl
      (item.chars ++ (following (itemChars items) ++ ']' :: rest))
    rw [itemChars, following_cons, itemDepth, Nat.max_le, rereadItems?_cons_eq_some_iff]
    constructor
    · intro h
      cases h with
      | close h => cases hs.symm.trans h
      | comma h ha hmore =>
        cases hs.symm.trans h
        obtain ⟨hdepth, hk, rfl⟩ := (hitem hends).mp ha
        obtain ⟨hdepths, hks, rfl⟩ := (ih each).mp hmore
        exact ⟨⟨hdepth, hdepths⟩, ⟨_, _, rfl, hk, hks⟩, rfl⟩
    · rintro ⟨⟨hdepth, hdepths⟩, ⟨k, ks', rfl, hk, hks⟩, rfl⟩
      exact .comma hs ((hitem hends).mpr ⟨hdepth, hk, rfl⟩) ((ih each).mpr ⟨hdepths, hks, rfl⟩)

theorem items_chars_iff {items : List Json} (each : ∀ v ∈ items, RoundTrips v)
    {ks : List Json} :
    Items (Reads d) (commaSeparated (itemChars items) ++ ']' :: rest) ks t ↔
      itemDepth items ≤ d ∧ rereadItems? items = some ks ∧ t = rest := by
  cases items with
  | nil =>
    have hs : skipBlanks (']' :: rest) = ']' :: rest := skipBlanks_cons rfl rest
    change Items (Reads d) (']' :: rest) ks t ↔ _
    constructor
    · intro h
      cases h with
      | empty h =>
        cases hs.symm.trans h
        exact ⟨Nat.zero_le d, rfl, rfl⟩
      | items ha _ => exact absurd ha (not_reads_bracket hs)
    · rintro ⟨-, h, rfl⟩
      cases h
      exact .empty hs
  | cons item items =>
    obtain ⟨hitem, each⟩ := List.forall_mem_cons.mp each
    have hends : Ends (following (itemChars items) ++ ']' :: rest) := ends_following rfl _ _
    rw [itemChars, commaSeparated_cons, List.append_assoc, itemDepth, Nat.max_le,
      rereadItems?_cons_eq_some_iff]
    constructor
    · intro h
      cases h with
      | empty h =>
        obtain ⟨c, r, hchars, hblank, hc⟩ := exists_chars_eq_cons item
        rw [hchars, List.cons_append, skipBlanks_cons hblank] at h
        cases h
        exact absurd rfl hc
      | items ha hmore =>
        obtain ⟨hdepth, hk, rfl⟩ := (hitem hends).mp ha
        obtain ⟨hdepths, hks, rfl⟩ := (moreItems_following_iff each).mp hmore
        exact ⟨⟨hdepth, hdepths⟩, ⟨_, _, rfl, hk, hks⟩, rfl⟩
    · rintro ⟨⟨hdepth, hdepths⟩, ⟨k, ks', rfl, hk, hks⟩, rfl⟩
      exact .items ((hitem hends).mpr ⟨hdepth, hk, rfl⟩)
        ((moreItems_following_iff each).mpr ⟨hdepths, hks, rfl⟩)

end Arrays

/-! ## Objects -/

section Objects

variable {d : Nat} {rest t : List Char}

/-- A member that is read where it was written, and what may follow it. -/
theorem members_oneMemberChars_iff {key : String} {value : Json} (hvalue : RoundTrips value)
    {after : List Char} (hafter : Ends after) {ks : List (String × Json)} :
    Members (Reads d) (key.toList.flatMap escapeChar ++ '"' :: ':' :: (value.chars ++ after)) ks t ↔
      ∃ k, value.depth ≤ d ∧ value.reread? = some k ∧
        ((skipBlanks after = '}' :: t ∧ ks = [(key, k)]) ∨
          ∃ w x ks', skipBlanks after = ',' :: w ∧ skipBlanks w = '"' :: x ∧
            Members (Reads d) x ks' t ∧ ks = (key, k) :: ks') := by
  have hcolon := skipBlanks_cons (c := ':') rfl (value.chars ++ after)
  constructor
  · intro h
    cases h with
    | close hk hc ha h =>
      obtain ⟨rfl, rfl⟩ := stringAt_escaped_iff.mp hk
      cases hcolon.symm.trans hc
      obtain ⟨hdepth, hreread, rfl⟩ := (hvalue hafter).mp ha
      exact ⟨_, hdepth, hreread, .inl ⟨h, rfl⟩⟩
    | comma hk hc ha h hq hms =>
      obtain ⟨rfl, rfl⟩ := stringAt_escaped_iff.mp hk
      cases hcolon.symm.trans hc
      obtain ⟨hdepth, hreread, rfl⟩ := (hvalue hafter).mp ha
      exact ⟨_, hdepth, hreread, .inr ⟨_, _, _, h, hq, hms, rfl⟩⟩
  · rintro ⟨k, hdepth, hreread, ⟨h, rfl⟩ | ⟨w, x, ks', h, hq, hms, rfl⟩⟩
    · exact .close (stringAt_escaped key _) hcolon ((hvalue hafter).mpr ⟨hdepth, hreread, rfl⟩) h
    · exact .comma (stringAt_escaped key _) hcolon ((hvalue hafter).mpr ⟨hdepth, hreread, rfl⟩)
        h hq hms

theorem oneMemberChars_append (key : String) (value : Json) (rest : List Char) :
    oneMemberChars (key, value) ++ rest =
      '"' :: (key.toList.flatMap escapeChar ++ '"' :: ':' :: (value.chars ++ rest)) := by
  simp [oneMemberChars, stringChars]

theorem members_chars_iff {key : String} {value : Json} (hvalue : RoundTrips value)
    {members : List (String × Json)} (each : ∀ m ∈ members, RoundTrips m.2)
    {ks : List (String × Json)} :
    Members (Reads d) (key.toList.flatMap escapeChar ++ '"' :: ':' ::
        (value.chars ++ (following (memberChars members) ++ '}' :: rest))) ks t ↔
      memberDepth ((key, value) :: members) ≤ d ∧
        rereadMembers? ((key, value) :: members) = some ks ∧ t = rest := by
  induction members generalizing key value ks with
  | nil =>
    have hs : skipBlanks ('}' :: rest) = '}' :: rest := skipBlanks_cons rfl rest
    rw [members_oneMemberChars_iff hvalue (ends_following rfl _ _), memberDepth, oneMemberDepth,
      Nat.max_le, rereadMembers?_cons_eq_some_iff]
    change (∃ k, _ ∧ _ ∧ (skipBlanks ('}' :: rest) = _ ∧ _ ∨
      ∃ w x ks', skipBlanks ('}' :: rest) = _ ∧ _)) ↔ _
    constructor
    · rintro ⟨k, hdepth, hk, ⟨h, rfl⟩ | ⟨w, x, ks', h, -⟩⟩
      · cases hs.symm.trans h
        exact ⟨⟨hdepth, Nat.zero_le d⟩,
          ⟨_, [], rfl, rereadMember?_eq_some_iff.mpr ⟨rfl, hk⟩, rfl⟩, rfl⟩
      · cases hs.symm.trans h
    · rintro ⟨⟨hdepth, -⟩, ⟨⟨_, k⟩, ks', rfl, hk, hks⟩, rfl⟩
      obtain ⟨rfl, hread⟩ := rereadMember?_eq_some_iff.mp hk
      cases hks
      exact ⟨k, hdepth, hread, .inl ⟨hs, rfl⟩⟩
  | cons m members ih =>
    obtain ⟨key', value'⟩ := m
    obtain ⟨hvalue', each⟩ := List.forall_mem_cons.mp each
    have hnext : following (memberChars ((key', value') :: members)) ++ '}' :: rest =
        ',' :: '"' :: (key'.toList.flatMap escapeChar ++ '"' :: ':' ::
          (value'.chars ++ (following (memberChars members) ++ '}' :: rest))) := by
      rw [memberChars, following_cons, oneMemberChars_append]
    have hcomma := skipBlanks_cons (c := ',') rfl
      ('"' :: (key'.toList.flatMap escapeChar ++ '"' :: ':' ::
        (value'.chars ++ (following (memberChars members) ++ '}' :: rest))))
    have hquote := skipBlanks_cons (c := '"') rfl
      (key'.toList.flatMap escapeChar ++ '"' :: ':' ::
        (value'.chars ++ (following (memberChars members) ++ '}' :: rest)))
    rw [members_oneMemberChars_iff hvalue (ends_following rfl _ _), memberDepth, oneMemberDepth,
      Nat.max_le, rereadMembers?_cons_eq_some_iff, hnext]
    constructor
    · rintro ⟨k, hdepth, hk, ⟨h, -⟩ | ⟨w, x, ks', h, hq, hms, rfl⟩⟩
      · cases hcomma.symm.trans h
      · cases hcomma.symm.trans h
        cases hquote.symm.trans hq
        obtain ⟨hdepths, hks, rfl⟩ := (ih hvalue' each).mp hms
        exact ⟨⟨hdepth, hdepths⟩,
          ⟨_, ks', rfl, rereadMember?_eq_some_iff.mpr ⟨rfl, hk⟩, hks⟩, rfl⟩
    · rintro ⟨⟨hdepth, hdepths⟩, ⟨⟨_, k⟩, ks', rfl, hk, hks⟩, rfl⟩
      obtain ⟨rfl, hread⟩ := rereadMember?_eq_some_iff.mp hk
      exact ⟨k, hdepth, hread, .inr ⟨_, _, ks', hcomma, hquote,
        (ih hvalue' each).mpr ⟨hdepths, hks, rfl⟩, rfl⟩⟩

/-- The inside of an object that was written. -/
theorem objectAt_chars_iff {members : List (String × Json)}
    (each : ∀ m ∈ members, RoundTrips m.2) {ks : List (String × Json)} :
    ObjectAt (Reads d) (commaSeparated (memberChars members) ++ '}' :: rest) ks t ↔
      memberDepth members ≤ d ∧ rereadMembers? members = some ks ∧ t = rest := by
  cases members with
  | nil =>
    have hs : skipBlanks ('}' :: rest) = '}' :: rest := skipBlanks_cons rfl rest
    change ObjectAt (Reads d) ('}' :: rest) ks t ↔ _
    constructor
    · intro h
      cases h with
      | empty h =>
        cases hs.symm.trans h
        exact ⟨Nat.zero_le d, rfl, rfl⟩
      | members h _ => cases hs.symm.trans h
    · rintro ⟨-, h, rfl⟩
      cases h
      exact .empty hs
  | cons m members =>
    obtain ⟨key, value⟩ := m
    obtain ⟨hvalue, each⟩ := List.forall_mem_cons.mp each
    rw [memberChars, commaSeparated_cons, List.append_assoc, oneMemberChars_append,
      ← members_chars_iff hvalue each]
    have hs := skipBlanks_cons (c := '"') rfl (key.toList.flatMap escapeChar ++ '"' :: ':' ::
      (value.chars ++ (following (memberChars members) ++ '}' :: rest)))
    constructor
    · intro h
      cases h with
      | empty h => cases hs.symm.trans h
      | members h hms =>
        cases hs.symm.trans h
        exact hms
    · exact .members hs

end Objects

/-! ## Values -/

theorem keys_rereadMembers? {members ks : List (String × Json)}
    (h : rereadMembers? members = some ks) : ks.map Prod.fst = members.map Prod.fst := by
  induction members generalizing ks with
  | nil =>
    cases h
    rfl
  | cons m members ih =>
    obtain ⟨k, ks', rfl, hk, hks⟩ := rereadMembers?_cons_eq_some_iff.mp h
    rw [List.map_cons, List.map_cons, ih hks, (rereadMember?_eq_some_iff.mp hk).1]

theorem keysIncrease_iff {members : List (String × Json)} :
    KeysIncrease members ↔ (members.map Prod.fst).Pairwise (· < ·) := List.pairwise_map.symm

theorem keysIncrease_of_rereadMembers? {members ks : List (String × Json)}
    (hkeys : KeysIncrease members) (h : rereadMembers? members = some ks) : KeysIncrease ks := by
  rw [keysIncrease_iff, keys_rereadMembers? h, ← keysIncrease_iff]
  exact hkeys

theorem insertMember_last {key : String} {members : List (String × Json)}
    (h : ∀ m ∈ members, m.1 < key) (value : Json) :
    insertMember key value members = members ++ [(key, value)] := by
  induction members with
  | nil => rfl
  | cons m members ih =>
    obtain ⟨hm, hmembers⟩ := List.forall_mem_cons.mp h
    rw [insertMember, if_neg (String.ne_of_lt hm), if_neg (String.lt_asymm hm), ih hmembers]
    rfl

/-- Members in order stay as they are. -/
theorem insertAll_of_keysIncrease {done members : List (String × Json)}
    (h : KeysIncrease (done ++ members)) : insertAll done members = done ++ members := by
  induction members generalizing done with
  | nil => exact (List.append_nil done).symm
  | cons m members ih =>
    have hlast : ∀ d ∈ done, d.1 < m.1 := fun d hd =>
      (List.pairwise_append.mp h).2.2 d hd m List.mem_cons_self
    have hmove : done ++ m :: members = done ++ [m] ++ members := by simp
    rw [hmove] at h ⊢
    rw [← ih h, insertAll, List.foldl_cons, insertMember_last hlast]
    rfl

theorem readWord_append (word rest : List Char) :
    ∃ h, readWord word (word ++ rest) = .ok ⟨rest, h⟩ := by
  induction word with
  | nil => exact ⟨_, rfl⟩
  | cons w word ih =>
    obtain ⟨hle, ih⟩ := ih
    refine ⟨Nat.le_succ_of_le hle, ?_⟩
    change readWord (w :: word) (w :: (word ++ rest)) = _
    rw [readWord, if_pos rfl]
    exact bind_eq_ok.mpr ⟨_, ih, rfl⟩

/-- A value that comes back as it is. -/
theorem RoundTrips.of_reads {j : Json} (hdepth : j.depth = 0) (hreread : j.reread? = some j)
    (hreads : ∀ (d : Nat) (rest : List Char), Reads d (j.chars ++ rest) j rest) :
    RoundTrips j := by
  intro d rest _ k t
  rw [hdepth, hreread]
  constructor
  · intro h
    obtain ⟨rfl, rfl⟩ := (hreads d rest).unique h
    exact ⟨Nat.zero_le d, rfl, rfl⟩
  · rintro ⟨-, h, rfl⟩
    cases h
    exact hreads d t

/-- **What is read where a value was written.** -/
theorem roundTrips {j : Json} (hj : j.Ordered) : RoundTrips j := by
  -- by the nesting of the value, for any nesting that is left to the reader
  induction hj with
  | null =>
    apply RoundTrips.of_reads rfl rfl
    intro d rest
    exact (reads_cons_iff rfl).mpr (.null (readWord_append ['u', 'l', 'l'] rest))
  | bool b =>
    apply RoundTrips.of_reads rfl rfl
    intro d rest
    cases b with
    | true => exact (reads_cons_iff rfl).mpr (.yes (readWord_append ['r', 'u', 'e'] rest))
    | false => exact (reads_cons_iff rfl).mpr (.no (readWord_append ['a', 'l', 's', 'e'] rest))
  | number n =>
    intro d rest hrest k t
    rw [chars, reads_numberChars_iff hrest, reread?, Option.map_eq_some_iff]
    constructor
    · rintro ⟨m, hm, rfl, rfl⟩
      exact ⟨Nat.zero_le d, ⟨m, hm, rfl⟩, rfl⟩
    · rintro ⟨-, ⟨m, hm, rfl⟩, rfl⟩
      exact ⟨m, hm, rfl, rfl⟩
  | string s =>
    apply RoundTrips.of_reads rfl rfl
    intro d rest
    have hchars : (string s).chars ++ rest =
        '"' :: (s.toList.flatMap escapeChar ++ '"' :: rest) := by
      simp [chars, stringChars]
    rw [hchars, reads_cons_iff rfl]
    exact .string (stringAt_escaped s rest)
  | @array items each ih =>
    intro d rest _ k t
    have hchars : (array items).chars ++ rest =
        '[' :: (commaSeparated (itemChars items) ++ ']' :: rest) := by
      simp [chars]
    rw [hchars, reads_cons_iff rfl, depth, reread?, Option.map_eq_some_iff]
    constructor
    · intro h
      cases h with
      | array h =>
        obtain ⟨hdepth, hks, rfl⟩ := (items_chars_iff ih).mp h
        exact ⟨Nat.succ_le_succ hdepth, ⟨_, hks, rfl⟩, rfl⟩
      | natural hc h => cases hc
    · rintro ⟨hdepth, ⟨ks, hks, rfl⟩, rfl⟩
      obtain ⟨d, rfl⟩ := Nat.exists_eq_add_of_le' (Nat.le_trans (Nat.le_add_left 1 _) hdepth)
      exact .array ((items_chars_iff ih).mpr ⟨Nat.le_of_succ_le_succ hdepth, hks, rfl⟩)
  | @object members keys each ih =>
    intro d rest _ k t
    have hchars : (object members).chars ++ rest =
        '{' :: (commaSeparated (memberChars members) ++ '}' :: rest) := by
      simp [chars]
    -- what is put together from members in order is these members
    have hmembers {ks : List (String × Json)} (hks : rereadMembers? members = some ks) :
        insertAll [] ks = ks :=
      insertAll_of_keysIncrease (keysIncrease_of_rereadMembers? keys hks)
    rw [hchars, reads_cons_iff rfl, depth, reread?, Option.map_eq_some_iff]
    constructor
    · intro h
      cases h with
      | object h =>
        obtain ⟨hdepth, hks, rfl⟩ := (objectAt_chars_iff ih).mp h
        exact ⟨Nat.succ_le_succ hdepth, ⟨_, hks, by rw [hmembers hks]⟩, rfl⟩
      | natural hc h => cases hc
    · rintro ⟨hdepth, ⟨ks, hks, rfl⟩, rfl⟩
      obtain ⟨d, rfl⟩ := Nat.exists_eq_add_of_le' (Nat.le_trans (Nat.le_add_left 1 _) hdepth)
      rw [← hmembers hks]
      exact .object ((objectAt_chars_iff ih).mpr ⟨Nat.le_of_succ_le_succ hdepth, hks, rfl⟩)

/-- **What the text of a value denotes.** -/
theorem parse_render_iff {j k : Json} (hj : j.Ordered) :
    parse j.render = .ok k ↔ j.depth ≤ maxDepth ∧ j.reread? = some k := by
  have hchars : j.render.toList = j.chars ++ [] := by
    rw [render, String.toList_ofList, List.append_nil]
  rw [parse_eq_ok_iff, hchars]
  simp only [roundTrips hj ends_nil]
  constructor
  · rintro ⟨t, ⟨hdepth, hreread, -⟩, -⟩
    exact ⟨hdepth, hreread⟩
  · rintro ⟨hdepth, hreread⟩
    exact ⟨[], ⟨hdepth, hreread, rfl⟩, rfl⟩

end DeviceRelay.Json
