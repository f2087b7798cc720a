import DeviceRelay.Proofs.Json.Skipping

/-!
# Objects as they are written

An object in a text may have a key twice, and the value that is read keeps the last. Here the
members stand in the order of the text, doubled keys included.

* `Json.values`: the values written under one key.
* `Json.lookup_insertAll`: the value that is read has the last of them.
* `Json.keysIncrease_insertMember`: members that are put in keep their order.
* `Json.ordered_of_parse`: a value that is read has the keys of all its objects in order.
* `Json.Written`: a whole text is an object with these members.
* `Json.Located`: a value taken by its place alone, whether or not it can be read.
-/

namespace DeviceRelay.Json

/-! ## Doubled keys -/

/-- The values written under a key, in the order of the text. -/
def values {α : Type} (key : String) (ms : List (String × α)) : List α :=
  (ms.filter fun m => m.1 = key).map Prod.snd

theorem values_cons_of_eq {α : Type} {key : String} {m : String × α} {ms : List (String × α)}
    (h : m.1 = key) : values key (m :: ms) = m.2 :: values key ms := by
  unfold values
  rw [List.filter_cons_of_pos (by simpa using h), List.map_cons]

theorem values_cons_of_ne {α : Type} {key : String} {m : String × α} {ms : List (String × α)}
    (h : m.1 ≠ key) : values key (m :: ms) = values key ms := by
  unfold values
  rw [List.filter_cons_of_neg (by simpa using h)]

theorem mem_of_mem_values {α : Type} {key : String} {ms : List (String × α)} {a : α}
    (h : a ∈ values key ms) : ∃ m ∈ ms, m.2 = a := by
  obtain ⟨m, hm, ha⟩ := List.mem_map.mp h
  exact ⟨m, (List.mem_filter.mp hm).1, ha⟩

theorem lookup_cons (key : String) (m : String × Json) (ms : List (String × Json)) :
    lookup key (m :: ms) = if m.1 = key then some m.2 else lookup key ms := by
  unfold lookup
  by_cases h : m.1 = key
  · rw [List.find?_cons_of_pos (by simpa using h), if_pos h]
    rfl
  · rw [List.find?_cons_of_neg (by simpa using h), if_neg h]

theorem lookup_insertMember (key k : String) (v : Json) (ms : List (String × Json)) :
    lookup key (insertMember k v ms) = if k = key then some v else lookup key ms := by
  induction ms with
  | nil => exact lookup_cons key (k, v) []
  | cons m ms ih =>
    unfold insertMember
    split
    · rename_i hk
      rw [lookup_cons, lookup_cons]
      dsimp only at hk ⊢
      split
      · rfl
      · rename_i hne
        rw [if_neg (by rw [hk]; exact hne)]
    · split
      · rw [lookup_cons]
      · rename_i hk _
        rw [lookup_cons, ih, lookup_cons]
        dsimp only at hk ⊢
        split
        · rename_i hkey
          rw [if_neg (by rintro rfl; exact hk hkey)]
        · rfl

theorem mem_of_mem_insertMember {key : String} {v : Json} {ms : List (String × Json)}
    {m : String × Json} (h : m ∈ insertMember key v ms) : m = (key, v) ∨ m ∈ ms := by
  induction ms with
  | nil => exact .inl (List.mem_singleton.mp h)
  | cons d ms ih =>
    unfold insertMember at h
    split at h
    · exact (List.mem_cons.mp h).imp_right (List.mem_cons_of_mem d)
    · split at h
      · exact List.mem_cons.mp h
      · obtain rfl | h := List.mem_cons.mp h
        · exact .inr List.mem_cons_self
        · exact (ih h).imp_right (List.mem_cons_of_mem d)

/-- Members stay in order, each key once. -/
theorem keysIncrease_insertMember (key : String) (v : Json) {ms : List (String × Json)}
    (h : KeysIncrease ms) : KeysIncrease (insertMember key v ms) := by
  induction ms with
  | nil => exact List.pairwise_singleton _ _
  | cons d ms ih =>
    obtain ⟨hd, hms⟩ := List.pairwise_cons.mp h
    unfold insertMember
    split
    · rename_i heq
      exact List.pairwise_cons.mpr ⟨fun m hm => heq ▸ hd m hm, hms⟩
    · rename_i hne
      split
      · rename_i hlt
        refine List.pairwise_cons.mpr ⟨fun m hm => ?_, h⟩
        obtain rfl | hm := List.mem_cons.mp hm
        · exact hlt
        · exact String.lt_trans hlt (hd m hm)
      · rename_i hnot
        have hlt : d.1 < key := Std.lt_of_le_of_ne (String.not_lt.mp hnot) hne
        refine List.pairwise_cons.mpr ⟨fun m hm => ?_, ih hms⟩
        obtain rfl | hm := mem_of_mem_insertMember hm
        · exact hlt
        · exact hd m hm

/-- **Of the values written under a key the last is the one that is read.** -/
theorem lookup_insertAll (key : String) (done ms : List (String × Json)) :
    lookup key (insertAll done ms) = (values key ms).getLast?.or (lookup key done) := by
  induction ms generalizing done with
  | nil => rfl
  | cons m ms ih =>
    rw [show insertAll done (m :: ms) = insertAll (insertMember m.1 m.2 done) ms from rfl, ih,
      lookup_insertMember]
    by_cases h : m.1 = key
    · rw [if_pos h, values_cons_of_eq h, List.getLast?_cons]
      cases (values key ms).getLast? <;> rfl
    · rw [if_neg h, values_cons_of_ne h]

/-! ## Values in order -/

theorem keysIncrease_insertAll {done : List (String × Json)} (h : KeysIncrease done)
    (ms : List (String × Json)) : KeysIncrease (insertAll done ms) := by
  induction ms generalizing done with
  | nil => exact h
  | cons m ms ih => exact ih (keysIncrease_insertMember m.1 m.2 h)

theorem mem_of_mem_insertAll {done ms : List (String × Json)} {m : String × Json}
    (h : m ∈ insertAll done ms) : m ∈ done ∨ m ∈ ms := by
  induction ms generalizing done with
  | nil => exact .inl h
  | cons a ms ih =>
    obtain hdone | hms := ih h
    · obtain rfl | hdone := mem_of_mem_insertMember hdone
      · exact .inr List.mem_cons_self
      · exact .inl hdone
    · exact .inr (List.mem_cons_of_mem a hms)

section Inside

variable {α : Type} {V : List Char → α → List Char → Prop} {P : α → Prop}
  (hV : ∀ s a t, V s a t → P a)

include hV

theorem MoreItems.forall_mem {s t : List Char} {as : List α} (h : MoreItems V s as t) :
    ∀ a ∈ as, P a := by
  induction h with
  | close h => nofun
  | comma h ha hs ih => exact List.forall_mem_cons.mpr ⟨hV _ _ _ ha, ih⟩

theorem Items.forall_mem {s t : List Char} {as : List α} (h : Items V s as t) :
    ∀ a ∈ as, P a := by
  cases h with
  | empty h => nofun
  | items ha hs => exact List.forall_mem_cons.mpr ⟨hV _ _ _ ha, hs.forall_mem hV⟩

theorem Members.forall_mem {s t : List Char} {ms : List (String × α)} (h : Members V s ms t) :
    ∀ m ∈ ms, P m.2 := by
  induction h with
  | close hk hc ha h => exact List.forall_mem_singleton.mpr (hV _ _ _ ha)
  | comma hk hc ha h hq hms ih => exact List.forall_mem_cons.mpr ⟨hV _ _ _ ha, ih⟩

theorem ObjectAt.forall_mem {s t : List Char} {ms : List (String × α)} (h : ObjectAt V s ms t) :
    ∀ m ∈ ms, P m.2 := by
  cases h with
  | empty h => nofun
  | members h hms => exact hms.forall_mem hV

end Inside

theorem Reads.ordered {d : Nat} {s t : List Char} {j : Json} (h : Reads d s j t) : j.Ordered := by
  induction d using Nat.strongRecOn generalizing s j t with
  | _ d ih =>
    obtain ⟨c, r, -, h⟩ := reads_iff_from.mp h
    cases h with
    | null h => exact .null
    | yes h => exact .bool true
    | no h => exact .bool false
    | negative h => exact .number _
    | natural hc h => exact .number _
    | string h => exact .string _
    | @array d _ _ _ h =>
      have heach : ∀ s j t, Reads d s j t → j.Ordered := fun _ _ _ => ih d (Nat.lt_succ_self d)
      exact .array (h.forall_mem heach)
    | @object d _ _ _ h =>
      have heach : ∀ s j t, Reads d s j t → j.Ordered := fun _ _ _ => ih d (Nat.lt_succ_self d)
      refine .object (keysIncrease_insertAll List.Pairwise.nil _) fun m hm => ?_
      obtain hnil | hm := mem_of_mem_insertAll hm
      · cases hnil
      · exact h.forall_mem heach m hm

/-- **A value that is read is in order**, however its members stood in the text. -/
theorem ordered_of_parse {text : String} {j : Json} (h : parse text = .ok j) : j.Ordered := by
  obtain ⟨t, h, -⟩ := parse_eq_ok_iff.mp h
  exact h.ordered

/-! ## Whole texts -/

/-- The text is an object, and these are its members as written. -/
def Written {α : Type} (V : List Char → α → List Char → Prop) (text : List Char)
    (ms : List (String × α)) : Prop :=
  ∃ r t, skipBlanks text = '{' :: r ∧ ObjectAt V r ms t ∧ skipBlanks t = []

/-- The nesting left inside the outer bracket. -/
def innerDepth : Nat := maxDepth - 1

/-- A text denotes an object where it is written as one. -/
theorem parse_eq_object_iff {text : String} {ms : List (String × Json)} :
    parse text = .ok (.object ms) ↔
      ∃ written, Written (Reads innerDepth) text.toList written ∧ ms = insertAll [] written := by
  rw [parse_eq_ok_iff]
  constructor
  · rintro ⟨t, h, ht⟩
    obtain ⟨r, written, hs, hat, rfl⟩ := reads_object_iff.mp h
    exact ⟨written, ⟨r, t, hs, hat, ht⟩, rfl⟩
  · rintro ⟨written, ⟨r, t, hs, hat, ht⟩, rfl⟩
    exact ⟨t, reads_object_iff.mpr ⟨r, written, hs, hat, rfl⟩, ht⟩

/-! ## One way to take the members -/

section Unique

variable {α : Type} {V : List Char → α → List Char → Prop}
  (hV : ∀ {s a a' t t'}, V s a t → V s a' t' → a = a' ∧ t = t')

include hV

theorem Members.unique {s t t' : List Char} {ms ms' : List (String × α)} (h : Members V s ms t)
    (h' : Members V s ms' t') : ms = ms' ∧ t = t' := by
  induction h generalizing ms' t' with
  | close hk hc ha h =>
    cases h' with
    | close hk' hc' ha' h' =>
      obtain ⟨rfl, rfl⟩ := hk.unique hk'
      rw [hc] at hc'
      cases hc'
      obtain ⟨rfl, rfl⟩ := hV ha ha'
      rw [h] at h'
      cases h'
      exact ⟨rfl, rfl⟩
    | comma hk' hc' ha' h' =>
      obtain ⟨rfl, rfl⟩ := hk.unique hk'
      rw [hc] at hc'
      cases hc'
      obtain ⟨rfl, rfl⟩ := hV ha ha'
      rw [h] at h'
      cases h'
  | comma hk hc ha h hq hms ih =>
    cases h' with
    | close hk' hc' ha' h' =>
      obtain ⟨rfl, rfl⟩ := hk.unique hk'
      rw [hc] at hc'
      cases hc'
      obtain ⟨rfl, rfl⟩ := hV ha ha'
      rw [h] at h'
      cases h'
    | comma hk' hc' ha' h' hq' hms' =>
      obtain ⟨rfl, rfl⟩ := hk.unique hk'
      rw [hc] at hc'
      cases hc'
      obtain ⟨rfl, rfl⟩ := hV ha ha'
      rw [h] at h'
      cases h'
      rw [hq] at hq'
      cases hq'
      obtain ⟨rfl, rfl⟩ := ih hms'
      exact ⟨rfl, rfl⟩

/-- A text is written as an object in one way at most. -/
theorem Written.unique {text : List Char} {ms ms' : List (String × α)} (h : Written V text ms)
    (h' : Written V text ms') : ms = ms' := by
  obtain ⟨r, t, hs, hat, ht⟩ := h
  obtain ⟨r', t', hs', hat', ht'⟩ := h'
  rw [hs] at hs'
  cases hs'
  cases hat with
  | empty h =>
    cases hat' with
    | empty h' => rfl
    | members h' hms' => rw [h] at h'; cases h'
  | members h hms =>
    cases hat' with
    | empty h' => rw [h] at h'; cases h'
    | members h' hms' =>
      rw [h] at h'
      cases h'
      exact (Members.unique @hV hms hms').1

end Unique

/-! ## Values by their place -/

/-- The value at the front of `s` is named by its place and skipped. -/
def Located (s place t : List Char) : Prop := place = s ∧ SkipAt s t

theorem Located.unique {s p p' t t' : List Char} (h : Located s p t) (h' : Located s p' t') :
    p = p' ∧ t = t' :=
  ⟨h.1.trans h'.1.symm, h.2.unique h'.2⟩

/-- The values `as` stand at the places `ps`. -/
inductive ReadAt (d : Nat) : List (List Char) → List Json → Prop where
  | nil : ReadAt d [] []
  | cons {p u : List Char} {j : Json} {ps : List (List Char)} {js : List Json}
      (h : Reads d p j u) (hs : ReadAt d ps js) : ReadAt d (p :: ps) (j :: js)

theorem Members.located {d : Nat} {s t : List Char} {ms : List (String × Json)}
    (h : Members (Reads d) s ms t) :
    ∃ places, Members Located s places t ∧
      ∀ key, ReadAt d (values key places) (values key ms) := by
  induction h with
  | @close s r v u t k j hk hc ha h =>
    refine ⟨[(k, v)], .close hk hc ⟨rfl, ha.skipAt⟩ h, fun key => ?_⟩
    by_cases hkey : k = key
    · rw [values_cons_of_eq hkey, values_cons_of_eq hkey]
      exact .cons ha .nil
    · rw [values_cons_of_ne hkey, values_cons_of_ne hkey]
      exact .nil
  | @comma s r v u w x t k j ms hk hc ha h hq _ ih =>
    obtain ⟨places, hp, hread⟩ := ih
    refine ⟨(k, v) :: places, .comma hk hc ⟨rfl, ha.skipAt⟩ h hq hp, fun key => ?_⟩
    by_cases hkey : k = key
    · rw [values_cons_of_eq hkey, values_cons_of_eq hkey]
      exact .cons ha (hread key)
    · rw [values_cons_of_ne hkey, values_cons_of_ne hkey]
      exact hread key

/-- Members that are read are members that are skipped, key by key. -/
theorem Written.located {d : Nat} {text : List Char} {ms : List (String × Json)}
    (h : Written (Reads d) text ms) :
    ∃ places, Written Located text places ∧
      ∀ key, ReadAt d (values key places) (values key ms) := by
  obtain ⟨r, t, hs, hat, ht⟩ := h
  cases hat with
  | empty hc => exact ⟨[], ⟨r, t, hs, .empty hc, ht⟩, fun _ => .nil⟩
  | members hq hms =>
    obtain ⟨places, hp, hread⟩ := hms.located
    exact ⟨places, ⟨r, t, hs, .members hq hp, ht⟩, hread⟩

end DeviceRelay.Json
