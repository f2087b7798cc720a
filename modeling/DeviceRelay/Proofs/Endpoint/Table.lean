import DeviceRelay.Endpoint.Clients
import Mathlib.Data.List.Nodup

/-!
# Laws of the client table

Every operation of the table is told by what it does to the tracked clients, wherever their slots
are. A client is known by its tag, its id and the number it came as; most operations leave the tags
alone.

* `ClientTable.clients_remove`: removing an id.
* `ClientTable.insert_cases`: a new client takes a free slot, or that of the client that came first.
-/

namespace DeviceRelay

/-- What stays the same about a client for as long as it is tracked. -/
def Client.tag (c : Client) : ClientId × Nat := (c.id, c.seq)

namespace ClientTable

/-- The tags of the tracked clients, in the order of their slots. -/
def tags (t : ClientTable) : List (ClientId × Nat) := t.clients.map Client.tag

theorem ids_eq_map_tags (t : ClientTable) : t.ids = t.tags.map Prod.fst := by
  rw [ids, tags, List.map_map]
  rfl

/-! ## Finding -/

theorem mem_of_find? {t : ClientTable} {id : ClientId} {c : Client} (h : t.find? id = some c) :
    c ∈ t.clients ∧ c.id = id :=
  ⟨List.mem_of_find?_eq_some h, by simpa using List.find?_some h⟩

theorem find?_eq_none_iff {t : ClientTable} {id : ClientId} : t.find? id = none ↔ id ∉ t.ids := by
  simp [find?, ids]

theorem find?_isSome_iff {t : ClientTable} {id : ClientId} :
    (t.find? id).isSome = true ↔ id ∈ t.ids := by
  rw [Option.isSome_iff_ne_none, ne_eq, find?_eq_none_iff, Decidable.not_not]

/-- Where keys are distinct, an item is found by its own. -/
theorem find?_key {α β : Type} [DecidableEq β] {key : α → β} {l : List α}
    (hn : (l.map key).Nodup) {a : α} (h : a ∈ l) :
    l.find? (fun x => key x = key a) = some a := by
  cases hf : l.find? (fun x => key x = key a) with
  | none =>
    have hne := List.find?_eq_none.mp hf a h
    simp at hne
  | some b =>
    have hkey : key b = key a := by simpa using List.find?_some hf
    rw [List.inj_on_of_nodup_map hn (List.mem_of_find?_eq_some hf) h hkey]

theorem find?_eq_some_iff {t : ClientTable} (hn : t.ids.Nodup) {id : ClientId} {c : Client} :
    t.find? id = some c ↔ c ∈ t.clients ∧ c.id = id := by
  constructor
  · exact mem_of_find?
  · rintro ⟨hc, rfl⟩
    exact find?_key hn hc

/-! ## Changing clients in their slots -/

theorem tags_map {f : Client → Client} (hf : ∀ c, (f c).tag = c.tag) (t : ClientTable) :
    (t.map f).tags = t.tags := by
  rw [tags, clients_map, List.map_map, tags]
  exact List.map_congr_left fun c _ => hf c

theorem tags_modify {f : Client → Client} (hf : ∀ c, (f c).tag = c.tag) (t : ClientTable)
    (id : ClientId) : (t.modify id f).tags = t.tags := by
  obtain ⟨slots, nextSeq⟩ := t
  simp only [tags, clients, modify]
  induction slots with
  | nil => rfl
  | cons s slots ih =>
    cases s with
    | none => exact ih
    | some c =>
      rw [modifyFirst]
      split
      · simp [hf]
      · simpa using ih

theorem find?_modify_of_ne {f : Client → Client} (hf : ∀ c, (f c).id = c.id) (t : ClientTable)
    {id other : ClientId} (h : other ≠ id) : (t.modify id f).find? other = t.find? other := by
  obtain ⟨slots, nextSeq⟩ := t
  simp only [find?, clients, modify]
  induction slots with
  | nil => rfl
  | cons s slots ih =>
    cases s with
    | none => exact ih
    | some c =>
      rw [modifyFirst]
      split
      · rename_i hc
        have hc' : ¬ (f c).id = other := fun hother => h (hother.symm.trans ((hf c).trans hc))
        have hc : ¬ c.id = other := fun hother => h (hother.symm.trans hc)
        simp [hc, hc']
      · by_cases hother : c.id = other
        · simp [hother]
        · simpa [hother] using ih

theorem find?_modify_self {f : Client → Client} (hf : ∀ c, (f c).id = c.id) (t : ClientTable)
    (id : ClientId) : (t.modify id f).find? id = (t.find? id).map f := by
  obtain ⟨slots, nextSeq⟩ := t
  simp only [find?, clients, modify]
  induction slots with
  | nil => rfl
  | cons s slots ih =>
    cases s with
    | none => exact ih
    | some c =>
      rw [modifyFirst]
      by_cases h : c.id = id
      · simp [h, hf]
      · simpa [h] using ih

theorem length_slots_modify (t : ClientTable) (id : ClientId) (f : Client → Client) :
    (t.modify id f).slots.length = t.slots.length := by
  obtain ⟨slots, nextSeq⟩ := t
  simp only [modify]
  induction slots with
  | nil => rfl
  | cons s slots ih =>
    cases s with
    | none => simpa [modifyFirst] using ih
    | some c =>
      rw [modifyFirst]
      split
      · rfl
      · simpa using ih

/-! ## Removing -/

theorem filterMap_freeFirst (id : ClientId) (slots : List (Option Client)) :
    (freeFirst id slots).filterMap (fun s => s) =
      (slots.filterMap fun s => s).eraseP fun c => c.id = id := by
  induction slots with
  | nil => rfl
  | cons s slots ih =>
    cases s with
    | none => exact ih
    | some c =>
      rw [freeFirst]
      by_cases h : c.id = id
      · simp [h]
      · simp [h, ih]

theorem eraseP_eq_filter (id : ClientId) {cs : List Client} (hn : (cs.map Client.id).Nodup) :
    (cs.eraseP fun c => c.id = id) = cs.filter fun c => c.id ≠ id := by
  induction cs with
  | nil => rfl
  | cons c cs ih =>
    obtain ⟨hc, hn⟩ := List.nodup_cons.mp hn
    by_cases h : c.id = id
    · have hrest : cs.filter (fun c => c.id ≠ id) = cs := by
        refine List.filter_eq_self.mpr fun d hd => ?_
        have hne : d.id ≠ id := fun hid => hc (h.trans hid.symm ▸ List.mem_map_of_mem hd)
        simpa using hne
      rw [List.eraseP_cons_of_pos (by simpa using h), List.filter_cons_of_neg (by simpa using h),
        hrest]
    · rw [List.eraseP_cons_of_neg (by simpa using h), List.filter_cons_of_pos (by simpa using h),
        ih hn]

theorem length_freeFirst (id : ClientId) (slots : List (Option Client)) :
    (freeFirst id slots).length = slots.length := by
  induction slots with
  | nil => rfl
  | cons s slots ih =>
    cases s with
    | none => simpa [freeFirst] using ih
    | some c =>
      rw [freeFirst]
      split
      · rfl
      · simpa using ih

theorem length_slots_remove (t : ClientTable) (id : ClientId) :
    (t.remove id).2.slots.length = t.slots.length := by
  unfold remove
  split
  · exact length_freeFirst id t.slots
  · rfl

theorem nextSeq_remove (t : ClientTable) (id : ClientId) :
    (t.remove id).2.nextSeq = t.nextSeq := by
  unfold remove
  split <;> rfl

/-- Where ids are distinct, the client with an id is the only one to go. -/
theorem clients_remove {t : ClientTable} (hn : t.ids.Nodup) (id : ClientId) :
    (t.remove id).2.clients = t.clients.filter fun c => c.id ≠ id := by
  unfold remove
  cases hf : t.find? id with
  | some c =>
    rw [← eraseP_eq_filter id hn]
    exact filterMap_freeFirst id t.slots
  | none =>
    refine (List.filter_eq_self.mpr fun c hc => ?_).symm
    have hne : c.id ≠ id := fun h => find?_eq_none_iff.mp hf (h ▸ List.mem_map_of_mem hc)
    simpa using hne

/-- In any case nobody else is tracked afterwards. -/
theorem tags_remove_subset (t : ClientTable) (id : ClientId) : (t.remove id).2.tags ⊆ t.tags := by
  refine List.map_subset Client.tag ?_
  unfold remove
  split
  · have hclients := List.Perm.of_eq (filterMap_freeFirst id t.slots)
    exact fun c hc => List.mem_of_mem_eraseP (hclients.subset hc)
  · exact List.Subset.refl _

/-! ## Inserting -/

theorem oldest?_eq_none_iff {cs : List Client} : oldest? cs = none ↔ cs = [] := by
  cases cs with
  | nil => simp [oldest?]
  | cons c cs =>
    rw [oldest?]
    split <;> simp

/-- The client that came first is one of them, and none came before it. -/
theorem oldest?_spec {cs : List Client} {old : Client} (h : oldest? cs = some old) :
    old ∈ cs ∧ ∀ c ∈ cs, old.seq ≤ c.seq := by
  induction cs generalizing old with
  | nil => cases h
  | cons c cs ih =>
    rw [oldest?] at h
    cases hr : oldest? cs with
    | none =>
      rw [hr] at h
      cases h
      rw [oldest?_eq_none_iff.mp hr]
      simp
    | some d =>
      rw [hr] at h
      obtain ⟨hd, hle⟩ := ih hr
      simp only [Option.some.injEq] at h
      subst h
      by_cases hcd : c.seq ≤ d.seq
      · rw [if_pos hcd]
        refine ⟨List.mem_cons_self, fun x hx => ?_⟩
        rcases List.mem_cons.mp hx with rfl | hx
        · exact Nat.le_refl _
        · exact Nat.le_trans hcd (hle x hx)
      · rw [if_neg hcd]
        refine ⟨List.mem_cons_of_mem _ hd, fun x hx => ?_⟩
        rcases List.mem_cons.mp hx with rfl | hx
        · omega
        · exact hle x hx

/-- A client takes the first free slot. -/
theorem clients_fillFree {c : Client} {slots filled : List (Option Client)}
    (h : fillFree c slots = some filled) :
    (filled.filterMap fun s => s).Perm (c :: slots.filterMap fun s => s) ∧
      (slots.filterMap fun s => s).length < slots.length := by
  induction slots generalizing filled with
  | nil => cases h
  | cons s slots ih =>
    cases s with
    | none =>
      cases h
      have hle := List.length_filterMap_le (fun s : Option Client => s) slots
      exact ⟨.refl _, Nat.lt_succ_of_le hle⟩
    | some d =>
      obtain ⟨rest, hr, rfl⟩ := Option.map_eq_some_iff.mp h
      obtain ⟨hperm, hlt⟩ := ih hr
      exact ⟨(hperm.cons d).trans (.swap c d _), Nat.succ_lt_succ hlt⟩

/-- No slot is free. -/
theorem length_of_fillFree_eq_none {c : Client} {slots : List (Option Client)}
    (h : fillFree c slots = none) : (slots.filterMap fun s => s).length = slots.length := by
  induction slots with
  | nil => rfl
  | cons s slots ih =>
    cases s with
    | none => cases h
    | some d =>
      exact congrArg (· + 1) (ih (Option.map_eq_none_iff.mp h))

theorem filterMap_replaceAt (seq : Nat) (c : Client) (slots : List (Option Client)) :
    (replaceAt seq c slots).filterMap (fun s => s) =
      (slots.filterMap fun s => s).map fun d => if d.seq = seq then c else d := by
  induction slots with
  | nil => rfl
  | cons s slots ih =>
    rw [replaceAt] at ih ⊢
    cases s with
    | none => simpa using ih
    | some d =>
      by_cases h : d.seq = seq
      · simpa [h] using ih
      · simpa [h] using ih

/-- Where every client came as a number of its own, one of them is replaced. -/
theorem perm_map_replace (c : Client) {old : Client} {cs : List Client}
    (hn : (cs.map Client.seq).Nodup) (h : old ∈ cs) :
    (cs.map fun d => if d.seq = old.seq then c else d).Perm
      (c :: cs.filter fun d => d.seq ≠ old.seq) := by
  induction cs with
  | nil => cases h
  | cons d cs ih =>
    obtain ⟨hd, hn⟩ := List.nodup_cons.mp hn
    rcases List.mem_cons.mp h with rfl | h
    · have hother : ∀ x ∈ cs, x.seq ≠ old.seq := fun x hx hs => hd (hs ▸ List.mem_map_of_mem hx)
      rw [List.map_cons, if_pos rfl, List.filter_cons_of_neg (by simp),
        List.filter_eq_self.mpr fun x hx => by simpa using hother x hx,
        List.map_congr_left fun x hx => if_neg (hother x hx), List.map_id']
    · have hne : d.seq ≠ old.seq := fun hs => hd (hs ▸ List.mem_map_of_mem h)
      rw [List.map_cons, if_neg hne, List.filter_cons_of_pos (by simpa using hne)]
      exact ((ih hn h).cons d).trans (.swap c d _)

/-- **What an insertion does.** Where a slot is free the new client is one more; otherwise it stands
for the client that came first. -/
theorem insert_cases {t : ClientTable} (hpos : 0 < t.slots.length)
    (hn : (t.clients.map Client.seq).Nodup) (id : ClientId) (outbox : BoundedQueue Message) :
    (t.size < t.slots.length ∧ (t.insert id outbox).1 = none ∧
      (t.insert id outbox).2.clients.Perm (⟨id, t.nextSeq, .empty, outbox⟩ :: t.clients)) ∨
    (t.size = t.slots.length ∧ ∃ old, (t.insert id outbox).1 = some old ∧ old ∈ t.clients ∧
      (∀ c ∈ t.clients, old.seq ≤ c.seq) ∧
      (t.insert id outbox).2.clients.Perm
        (⟨id, t.nextSeq, .empty, outbox⟩ :: t.clients.filter fun c => c.seq ≠ old.seq)) := by
  unfold insert
  dsimp only
  cases hf : fillFree ⟨id, t.nextSeq, .empty, outbox⟩ t.slots with
  | some filled =>
    obtain ⟨hperm, hlt⟩ := clients_fillFree hf
    exact .inl ⟨hlt, rfl, hperm⟩
  | none =>
    have hsize : t.size = t.slots.length := length_of_fillFree_eq_none hf
    right
    cases ho : oldest? t.clients with
    | none =>
      rw [size, oldest?_eq_none_iff.mp ho] at hsize
      exact absurd hsize (Nat.ne_of_lt hpos)
    | some old =>
      obtain ⟨hold, hle⟩ := oldest?_spec ho
      refine ⟨hsize, old, rfl, hold, hle, ?_⟩
      have hclients : (replaceAt old.seq ⟨id, t.nextSeq, .empty, outbox⟩ t.slots).filterMap
          (fun s => s) = t.clients.map _ := filterMap_replaceAt _ _ _
      exact (List.Perm.of_eq hclients).trans (perm_map_replace _ hn hold)

/-- In any case the new client is the only one to come. -/
theorem tags_insert_subset (t : ClientTable) (id : ClientId) (outbox : BoundedQueue Message) :
    (t.insert id outbox).2.tags ⊆ (id, t.nextSeq) :: t.tags := by
  let new : Client := ⟨id, t.nextSeq, .empty, outbox⟩
  suffices h : (t.insert id outbox).2.clients ⊆ new :: t.clients from List.map_subset Client.tag h
  unfold insert
  dsimp only
  cases hf : fillFree new t.slots with
  | some filled => exact (clients_fillFree hf).1.subset
  | none =>
    cases oldest? t.clients with
    | none => exact List.subset_cons_self _ _
    | some old =>
      intro c hc
      have hclients : c ∈ t.clients.map fun d => if d.seq = old.seq then new else d :=
        filterMap_replaceAt old.seq new t.slots ▸ hc
      obtain ⟨d, hd, rfl⟩ := List.mem_map.mp hclients
      split
      · exact List.mem_cons_self
      · exact List.mem_cons_of_mem _ hd

theorem nextSeq_insert (t : ClientTable) (id : ClientId) (outbox : BoundedQueue Message) :
    (t.insert id outbox).2.nextSeq = t.nextSeq + 1 := by
  unfold insert
  dsimp only
  split
  · rfl
  · split <;> rfl

end ClientTable

end DeviceRelay
