import DeviceRelay.Json.Member
import DeviceRelay.Json.Printer
import DeviceRelay.Proofs.Json.Written

/-!
# Sizes of written values

How many bytes a value takes when it is written. A string takes the bytes of its escaped
characters, at most six for each character, and a 64-bit number takes at most twenty.

* `Json.escapedSize`: the bytes of a string between its quotes.
* `Json.size_render`: the bytes of a value are those of its characters.
* `Json.textSize_object`: the bytes of an object by its members.
* `Json.textSize_insertMember_le`: the bytes that a member adds.
* `Json.length_text?_le`: a string that was read has no more characters than its text.
-/

namespace DeviceRelay.Json

/-! ## Texts -/

theorem foldl_utf8Size (s : List Char) (n : Nat) :
    s.foldl (fun n c => n + c.utf8Size) n = n + textSize s := by
  unfold textSize
  induction s generalizing n with
  | nil => rfl
  | cons c s ih =>
    rw [List.foldl_cons, List.foldl_cons, ih, ih (0 + c.utf8Size)]
    omega

@[simp] theorem textSize_nil : textSize [] = 0 := rfl

@[simp] theorem textSize_cons (c : Char) (s : List Char) :
    textSize (c :: s) = c.utf8Size + textSize s := by
  rw [textSize, List.foldl_cons, foldl_utf8Size, Nat.zero_add]

@[simp] theorem textSize_append (s t : List Char) :
    textSize (s ++ t) = textSize s + textSize t := by
  induction s with
  | nil => simp
  | cons c s ih => simp [ih, Nat.add_assoc]

theorem size_ofList (s : List Char) : (String.ofList s).utf8ByteSize = textSize s := by
  induction s with
  | nil => rfl
  | cons c s ih =>
    rw [String.ofList_cons, String.utf8ByteSize_append, String.utf8ByteSize_singleton, ih,
      textSize_cons]

theorem length_le_textSize (s : List Char) : s.length ≤ textSize s := by
  induction s with
  | nil => exact Nat.le_refl 0
  | cons c s ih =>
    have hc := c.utf8Size_pos
    rw [textSize_cons, List.length_cons]
    omega

/-- The bytes of a value are those of its characters. -/
theorem size_render (j : Json) : j.render.utf8ByteSize = textSize j.chars := size_ofList _

/-! ## Strings -/

/-- The bytes of a string between its quotes. -/
def escapedSize (s : String) : Nat := textSize (s.toList.flatMap escapeChar)

theorem textSize_stringChars (s : String) : textSize (stringChars s) = escapedSize s + 2 := by
  have hq : '"'.utf8Size = 1 := rfl
  unfold stringChars escapedSize
  simp only [List.cons_append, textSize_cons, textSize_append, textSize_nil, hq]
  omega

theorem utf8Size_hexDigit {n : Nat} (h : n < 16) : (hexDigit n).utf8Size = 1 := by
  have hall : ∀ n : Fin 16, (hexDigit n).utf8Size = 1 := by decide
  exact hall ⟨n, h⟩

theorem textSize_escapeChar_le (c : Char) : textSize (escapeChar c) ≤ 6 := by
  unfold escapeChar
  split
  · decide
  split
  · decide
  split
  · decide
  split
  · decide
  split
  · decide
  split
  · decide
  split
  · decide
  split
  · rename_i h
    have hu : ∀ t, textSize ('\\' :: 'u' :: '0' :: '0' :: t) = 4 + textSize t := by
      intro t
      have h1 : '\\'.utf8Size = 1 := rfl
      have h2 : 'u'.utf8Size = 1 := rfl
      have h3 : '0'.utf8Size = 1 := rfl
      simp only [textSize_cons, h1, h2, h3]
      omega
    rw [hu, textSize_cons, textSize_cons, utf8Size_hexDigit (by omega),
      utf8Size_hexDigit (by omega)]
    exact Nat.le_refl 6
  · have hc := c.utf8Size_le_four
    simp only [textSize_cons, textSize_nil]
    omega

theorem escapedSize_le (s : String) : escapedSize s ≤ 6 * s.length := by
  unfold escapedSize
  rw [← String.length_toList]
  induction s.toList with
  | nil => exact Nat.le_refl 0
  | cons c cs ih =>
    have hc := textSize_escapeChar_le c
    rw [List.flatMap_cons, textSize_append, List.length_cons]
    omega

/-! ## Numbers -/

theorem textSize_of_digits {s : List Char} (h : ∀ c ∈ s, c.isDigit = true) :
    textSize s = s.length := by
  induction s with
  | nil => rfl
  | cons c s ih =>
    have hc : c.utf8Size = 1 := by
      have hd := h c List.mem_cons_self
      simp only [Char.isDigit, Bool.and_eq_true, decide_eq_true_eq] at hd
      exact Char.utf8Size_eq_one_iff.mpr (UInt32.le_trans hd.2 (by decide))
    rw [textSize_cons, List.length_cons, hc, ih fun d hd => h d (List.mem_cons_of_mem _ hd)]
    omega

theorem textSize_naturalChars_le (n : UInt64) : textSize (naturalChars n.toNat) ≤ 20 := by
  have hd : ∀ c ∈ naturalChars n.toNat, c.isDigit = true := fun c hc =>
    Nat.isDigit_of_mem_toDigits (by decide) (by decide) hc
  rw [textSize_of_digits hd]
  refine (Nat.length_toDigits_le_iff (by decide) (by decide)).mpr ?_
  exact Nat.lt_trans n.toNat_lt (by decide)

/-- The bytes of a count. -/
theorem textSize_ofNat_le (n : Nat) : textSize (chars (.ofNat n)) ≤ 20 :=
  textSize_naturalChars_le _

/-! ## Objects -/

theorem textSize_member (key : String) (value : Json) :
    textSize (oneMemberChars (key, value)) = escapedSize key + 3 + textSize value.chars := by
  have hc : ':'.utf8Size = 1 := rfl
  rw [oneMemberChars, textSize_append, textSize_stringChars, textSize_cons, hc]
  omega

/-- The bytes of parts that each follow a comma. -/
def followingSize : List (List Char) → Nat
  | [] => 0
  | part :: parts => 1 + textSize part + followingSize parts

theorem textSize_commaSeparated (part : List Char) (parts : List (List Char)) :
    textSize (commaSeparated (part :: parts)) = textSize part + followingSize parts := by
  have hc : ','.utf8Size = 1 := rfl
  induction parts generalizing part with
  | nil => rfl
  | cons p parts ih =>
    rw [commaSeparated, textSize_append, textSize_cons, ih, hc, followingSize]
    · omega
    · nofun

/-- The bytes of an object that has members. -/
theorem textSize_object (m : String × Json) (ms : List (String × Json)) :
    textSize (chars (.object (m :: ms))) =
      2 + textSize (oneMemberChars m) + followingSize (memberChars ms) := by
  have hl : '{'.utf8Size = 1 := rfl
  have hr : '}'.utf8Size = 1 := rfl
  rw [chars, memberChars, List.cons_append, textSize_cons, textSize_append,
    textSize_commaSeparated, textSize_cons, textSize_nil, hl, hr]
  omega

/-- A member in front of others. -/
theorem textSize_object_cons (m n : String × Json) (ms : List (String × Json)) :
    textSize (chars (.object (m :: n :: ms))) =
      textSize (oneMemberChars m) + 1 + textSize (chars (.object (n :: ms))) := by
  rw [textSize_object, textSize_object, memberChars, followingSize]
  omega

/-- A member that is put in its place adds itself and a comma at most. -/
theorem followingSize_insertMember_le (key : String) (value : Json) (ms : List (String × Json)) :
    followingSize (memberChars (insertMember key value ms)) ≤
      1 + textSize (oneMemberChars (key, value)) + followingSize (memberChars ms) := by
  induction ms with
  | nil => exact Nat.le_refl _
  | cons m ms ih =>
    obtain ⟨k, v⟩ := m
    unfold insertMember
    split
    · simp only [memberChars, followingSize]
      omega
    · split
      · exact Nat.le_refl _
      · simp only [memberChars, followingSize]
        omega

theorem insertMember_ne_nil (key : String) (value : Json) (ms : List (String × Json)) :
    insertMember key value ms ≠ [] := by
  cases ms with
  | nil => exact List.cons_ne_nil _ _
  | cons m ms =>
    unfold insertMember
    split
    · exact List.cons_ne_nil _ _
    · split <;> exact List.cons_ne_nil _ _

/-- The first member has no comma, but there are two brackets. -/
theorem textSize_object_of_ne_nil {ms : List (String × Json)} (h : ms ≠ []) :
    textSize (chars (.object ms)) = 1 + followingSize (memberChars ms) := by
  obtain ⟨m, ms, rfl⟩ := List.exists_cons_of_ne_nil h
  rw [textSize_object, memberChars, followingSize]
  omega

/-- A member more takes its own bytes and a comma at most. -/
theorem textSize_insertMember_le (key : String) (value : Json) (ms : List (String × Json)) :
    textSize (chars (.object (insertMember key value ms))) ≤
      textSize (chars (.object ms)) + escapedSize key + 4 + textSize value.chars := by
  have hmember := textSize_member key value
  have hmore := followingSize_insertMember_le key value ms
  have hleft : 1 + followingSize (memberChars ms) ≤ textSize (chars (.object ms)) := by
    cases ms with
    | nil => decide
    | cons m ms => exact Nat.le_of_eq (textSize_object_of_ne_nil (List.cons_ne_nil m ms)).symm
  rw [textSize_object_of_ne_nil (insertMember_ne_nil key value ms)]
  omega

/-! ## Strings that were read -/

theorem length_le_of_readChars {o done s : List Char} {hs : s.length ≤ o.length} {k : String}
    {t : Rest o} (h : readChars (o := o) done s hs = .ok (k, t)) :
    k.length ≤ done.length + s.length := by
  induction hn : s.length using Nat.strongRecOn generalizing done s with
  | _ n ih =>
    cases s with
    | nil =>
      rw [readChars.eq_def] at h
      cases h
    | cons c r =>
      rw [List.length_cons] at hn
      rw [readChars.eq_def] at h
      dsimp only at h
      split at h
      · cases h
        rw [String.length_ofList, List.length_reverse]
        omega
      · split at h
        · split at h
          · cases h
          · rename_i u _
            have hlt := u.2
            have hle := ih _ (by omega) h rfl
            rw [List.length_cons] at hle
            omega
        · split at h
          · cases h
          · have hle := ih _ (by omega) h rfl
            rw [List.length_cons] at hle
            omega

theorem StringAt.length_le {s t : List Char} {k : String} (h : StringAt s k t) :
    k.length ≤ s.length := by
  obtain ⟨_, h⟩ := h
  have hle := length_le_of_readChars h
  rw [List.length_nil] at hle
  omega

/-- Each value of an object stands at a place within its text. -/
theorem Members.reads_of_mem {d : Nat} {s t : List Char} {ms : List (String × Json)}
    (h : Members (Reads d) s ms t) {m : String × Json} (hm : m ∈ ms) :
    ∃ v u, Reads d v m.2 u ∧ v.length ≤ s.length := by
  induction h with
  | close hk hc ha _ =>
    cases List.mem_singleton.mp hm
    exact ⟨_, _, ha, Nat.le_of_lt (Nat.lt_trans (length_of_skipBlanks hc) hk.length_lt)⟩
  | comma hk hc ha h hq _ ih =>
    have hv := Nat.lt_trans (length_of_skipBlanks hc) hk.length_lt
    rcases List.mem_cons.mp hm with rfl | hm
    · exact ⟨_, _, ha, Nat.le_of_lt hv⟩
    · obtain ⟨v, u, hr, hle⟩ := ih hm
      have hx := Nat.lt_trans (length_of_skipBlanks hq) (length_of_skipBlanks h)
      have hu := ha.length_lt
      exact ⟨v, u, hr, by omega⟩

/-- A string member of a value that was read has no more characters than the text. -/
theorem length_text?_le {text key s : String} {j : Json} (hp : parse text = .ok j)
    (h : j.text? key = some s) : s.length ≤ text.length := by
  obtain ⟨v, hv, hs⟩ := Option.bind_eq_some_iff.mp h
  cases j with
  | object ms =>
    obtain ⟨written, ⟨r, t, hb, hat, -⟩, rfl⟩ := parse_eq_object_iff.mp hp
    unfold get? members at hv
    rw [lookup_insertAll, show lookup key [] = none from rfl, Option.or_none] at hv
    obtain ⟨m, hm, rfl⟩ := mem_of_mem_values (List.mem_of_getLast? hv)
    cases hat with
    | empty => cases hm
    | members hq hms =>
      obtain ⟨v, u, hr, hle⟩ := hms.reads_of_mem hm
      have hstr : m.2 = .string s := by
        generalize m.2 = j at hs
        cases j with
        | string s' => cases hs; rfl
        | _ => cases hs
      rw [hstr] at hr
      obtain ⟨x, hx, hat⟩ := reads_string_iff.mp hr
      have h1 := hat.length_le
      have h2 := length_of_skipBlanks hx
      have h3 := length_of_skipBlanks hq
      have h4 := length_of_skipBlanks hb
      rw [String.length_toList] at h4
      omega
  | _ => cases hv

end DeviceRelay.Json
