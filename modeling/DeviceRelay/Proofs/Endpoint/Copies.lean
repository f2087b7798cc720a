import DeviceRelay.Endpoint.Publish
import DeviceRelay.Proofs.Endpoint.Table

/-!
# Copies of a message to many clients

A message to many clients goes to them one by one, and a client whose queue is closed is released
on the spot. With nothing else in between, that comes to the same as to queue all the copies first.

* `Endpoint.copyTo`: one copy, to a client that may have left since the first one went out.
* `Endpoint.fanOut_eq_copies`: all the copies in a row.
-/

namespace DeviceRelay

/-- The client after a message was put into its queue, if that was possible. -/
def Client.receive (m : Message) (c : Client) : Client := { c with outbox := (c.outbox.push m).2 }

theorem BoundedQueue.push_closed {α : Type} {q : BoundedQueue α} {a : α}
    (h : (q.push a).1 = .closed) : (q.push a).2 = q := by
  unfold push at h ⊢
  split
  · rfl
  · rename_i hopen
    rw [if_neg hopen] at h
    split at h <;> cases h

namespace ClientTable

theorem map_congr {t : ClientTable} {f g : Client → Client} (h : ∀ c ∈ t.clients, f c = g c) :
    t.map f = t.map g := by
  simp only [map, mk.injEq, and_true]
  refine List.map_congr_left fun slot hslot => ?_
  cases slot with
  | none => rfl
  | some c => exact congrArg some (h c (List.mem_filterMap.mpr ⟨some c, hslot, rfl⟩))

theorem map_map (t : ClientTable) (f g : Client → Client) :
    (t.map f).map g = t.map fun c => g (f c) := by
  simp [map, Function.comp_def]

theorem map_id (t : ClientTable) : (t.map fun c => c) = t := by
  simp [map]

theorem map_eq_self {t : ClientTable} {f : Client → Client} (h : ∀ c ∈ t.clients, f c = c) :
    t.map f = t :=
  (map_congr h).trans (map_id t)

theorem find?_map {f : Client → Client} (hf : ∀ c, (f c).id = c.id) (t : ClientTable)
    (id : ClientId) : (t.map f).find? id = (t.find? id).map f := by
  rw [find?, clients_map, List.find?_map, find?]
  refine congrArg (fun p => (t.clients.find? p).map f) (funext fun c => ?_)
  rw [Function.comp_apply, hf]

theorem ids_map {f : Client → Client} (hf : ∀ c, (f c).id = c.id) (t : ClientTable) :
    (t.map f).ids = t.ids := by
  rw [ids, clients_map, List.map_map, ids]
  exact List.map_congr_left fun c _ => hf c

theorem ids_remove {t : ClientTable} (hn : t.ids.Nodup) (id : ClientId) :
    (t.remove id).2.ids = t.ids.filter fun other => other ≠ id := by
  rw [ids, clients_remove hn, ids, List.filter_map]
  rfl

theorem remove_map {f : Client → Client} (hf : ∀ c, (f c).id = c.id) (t : ClientTable)
    (id : ClientId) : (t.map f).remove id = ((t.remove id).1.map f, (t.remove id).2.map f) := by
  have hfree (slots : List (Option Client)) : freeFirst id (slots.map (Option.map f)) =
      (freeFirst id slots).map (Option.map f) := by
    induction slots with
    | nil => rfl
    | cons slot slots ih =>
      cases slot with
      | none => simp [freeFirst, ih]
      | some c =>
        simp only [List.map_cons, Option.map_some, freeFirst, hf]
        split <;> simp [ih]
  unfold remove
  rw [find?_map hf]
  cases t.find? id with
  | none => rfl
  | some c => simp [map, hfree]

/-- With distinct ids the change of one client is a change of all those with its id. -/
theorem modify_eq_map {t : ClientTable} (hn : t.ids.Nodup) (id : ClientId) (f : Client → Client) :
    t.modify id f = t.map fun c => if c.id = id then f c else c := by
  obtain ⟨slots, nextSeq⟩ := t
  simp only [modify, map, mk.injEq, and_true]
  simp only [ids, clients] at hn
  induction slots with
  | nil => rfl
  | cons slot slots ih =>
    cases slot with
    | none => exact congrArg (none :: ·) (ih hn)
    | some c =>
      obtain ⟨hc, hrest⟩ := List.nodup_cons.mp hn
      rw [modifyFirst, List.map_cons, Option.map_some]
      by_cases h : c.id = id
      · have hsame : slots.map (Option.map fun d => if d.id = id then f d else d) = slots := by
          refine (List.map_congr_left fun slot hslot => ?_).trans (List.map_id' slots)
          cases slot with
          | none => rfl
          | some d =>
            have hd : d.id ∈ (slots.filterMap fun s => s).map Client.id :=
              List.mem_map_of_mem (List.mem_filterMap.mpr ⟨some d, hslot, rfl⟩)
            exact congrArg some (if_neg fun hid : d.id = id => hc (h.trans hid.symm ▸ hd))
        rw [if_pos h, if_pos h, hsame]
      · rw [if_neg h, if_neg h, ih hrest]

end ClientTable

namespace Endpoint

/-! ## Releases -/

theorem release_of_not_mem {e : Endpoint} {id : ClientId} (h : id ∉ e.clientIds) :
    e.release id = (false, e) := by
  unfold release ClientTable.remove
  rw [ClientTable.find?_eq_none_iff.mpr h]

theorem release_of_find? {e : Endpoint} {id : ClientId} {c : Client}
    (h : e.table.find? id = some c) :
    e.release id = (true,
      { e with
        table := (e.table.remove id).2
        departed := ⟨id, c.outbox, false⟩ :: e.departed
        events := e.events.notify (.disconnected id) }) := by
  obtain rfl : c.id = id := (ClientTable.mem_of_find? h).2
  unfold release ClientTable.remove
  rw [h]
  rfl

theorem releaseAll_snd (e : Endpoint) (ids : List ClientId) :
    (e.releaseAll ids).2 = ids.foldl (fun e id => (e.release id).2) e := by
  unfold releaseAll
  generalize 0 = n
  induction ids generalizing n e with
  | nil => rfl
  | cons id ids ih => exact ih _ _

/-- One copy of a message to many. Its client was tracked as the first copy went out, and may have
left since. -/
def copyTo (e : Endpoint) (id : ClientId) (m : Message) : Endpoint :=
  match e.connection? id with
  | none => e
  | some c =>
    if (c.outbox.push m).1 = .closed then (e.release id).2
    else e.setOutbox id fun q => (q.push m).2

/-- Whether the queue of a client turns out to be closed. -/
def isGone (e : Endpoint) (m : Message) (id : ClientId) : Bool :=
  (e.table.find? id).any fun c => (c.outbox.push m).1 = .closed

/-- The endpoint with a message in the queues of some clients, as far as they take it. -/
def queueTo (e : Endpoint) (ids : List ClientId) (m : Message) : Endpoint :=
  { e with table := e.table.map fun c => if c.id ∈ ids then c.receive m else c }

section Copies

variable {e : Endpoint} {m : Message} {id : ClientId} {ids : List ClientId}

theorem queueTo_cons (hid : id ∉ ids) (e : Endpoint) (m : Message) :
    e.queueTo (id :: ids) m = (e.queueTo [id] m).queueTo ids m := by
  have hmap : e.table.map (fun c => if c.id ∈ id :: ids then c.receive m else c) =
      (e.table.map fun c => if c.id ∈ [id] then c.receive m else c).map
        fun c => if c.id ∈ ids then c.receive m else c := by
    rw [ClientTable.map_map]
    refine ClientTable.map_congr fun c _ => ?_
    by_cases h : c.id = id
    · simp [h, hid, Client.receive]
    · simp [h]
  simp only [queueTo, hmap]

theorem clientIds_queueTo (e : Endpoint) (ids : List ClientId) (m : Message) :
    (e.queueTo ids m).clientIds = e.clientIds :=
  ClientTable.ids_map (fun c => by split <;> rfl) e.table

theorem isGone_queueTo {other : ClientId} (h : other ∉ ids) :
    (e.queueTo ids m).isGone m other = e.isGone m other := by
  have hid (c : Client) : (if c.id ∈ ids then c.receive m else c).id = c.id := by
    split <;> rfl
  rw [isGone, queueTo, ClientTable.find?_map hid, isGone]
  cases hf : e.table.find? other with
  | none => rfl
  | some c =>
    have hne : c.id ∉ ids := (ClientTable.mem_of_find? hf).2 ▸ h
    simp [hne]

theorem isGone_release (hn : e.clientIds.Nodup) (hmem : id ∈ e.clientIds) {other : ClientId}
    (h : other ≠ id) : (e.release id).2.isGone m other = e.isGone m other := by
  obtain ⟨c, hc⟩ := Option.isSome_iff_exists.mp (ClientTable.find?_isSome_iff.mpr hmem)
  rw [release_of_find? hc]
  have hfind : (e.table.remove id).2.find? other = e.table.find? other := by
    rw [ClientTable.find?, ClientTable.clients_remove hn, List.find?_filter, ClientTable.find?]
    refine congrArg (e.table.clients.find? ·) (funext fun d => ?_)
    by_cases hd : d.id = other <;> simp [hd, h]
  simp only [isGone, hfind]

/-- A client whose queue is closed is released as it was. -/
theorem release_queueTo (hn : e.clientIds.Nodup) (hmem : id ∈ e.clientIds)
    (hgone : e.isGone m id = true) :
    ((e.queueTo (id :: ids) m).release id).2 = (e.release id).2.queueTo ids m := by
  obtain ⟨c, hc⟩ := Option.isSome_iff_exists.mp (ClientTable.find?_isSome_iff.mpr hmem)
  have hid : c.id = id := (ClientTable.mem_of_find? hc).2
  have hclosed : (c.outbox.push m).1 = .closed := by simpa [isGone, hc] using hgone
  let f : Client → Client := fun d => if d.id ∈ id :: ids then d.receive m else d
  have hf (d : Client) : (f d).id = d.id := by
    dsimp only [f]
    split <;> rfl
  have hfind : (e.queueTo (id :: ids) m).table.find? id = some (f c) := by
    rw [queueTo, ClientTable.find?_map hf, hc, Option.map_some]
  have houtbox : (f c).outbox = c.outbox := by
    simp [f, hid, Client.receive, BoundedQueue.push_closed hclosed]
  have htable : ((e.queueTo (id :: ids) m).table.remove id).2 =
      ((e.release id).2.queueTo ids m).table := by
    rw [queueTo, ClientTable.remove_map hf, release_of_find? hc]
    refine ClientTable.map_congr fun d hd => ?_
    rw [ClientTable.clients_remove hn] at hd
    have hne : d.id ≠ id := by simpa using (List.mem_filter.mp hd).2
    simp [f, hne]
  rw [release_of_find? hfind, htable, houtbox, release_of_find? hc]
  rfl

/-- One copy to a client that is tracked. -/
theorem copyTo_of_find? (hn : e.clientIds.Nodup) {c : Client} (hc : e.table.find? id = some c) :
    e.copyTo id m =
      if (c.outbox.push m).1 = .closed then (e.release id).2 else e.queueTo [id] m := by
  have hqueue : (e.setOutbox id fun q => (q.push m).2) = e.queueTo [id] m := by
    rw [setOutbox, hc, if_pos Option.isSome_some, ClientTable.modify_eq_map hn, queueTo]
    simp only [List.mem_singleton, Client.receive]
  rw [copyTo, connection?, hc, hqueue]

/-- Copies that go out one by one. -/
theorem foldl_copyTo (m : Message) (hids : ids.Nodup) (hn : e.clientIds.Nodup)
    (hsub : ids ⊆ e.clientIds) :
    ids.foldl (fun e id => e.copyTo id m) e =
      ((e.queueTo ids m).releaseAll (ids.filter fun id => e.isGone m id)).2 := by
  rw [releaseAll_snd]
  induction ids generalizing e with
  | nil => simp [queueTo, ClientTable.map_id]
  | cons id ids ih =>
    obtain ⟨hid, hids⟩ := List.nodup_cons.mp hids
    obtain ⟨hmem, hsub⟩ := List.cons_subset.mp hsub
    have hother : ∀ other ∈ ids, other ≠ id := fun other ho heq => hid (heq ▸ ho)
    obtain ⟨c, hc⟩ := Option.isSome_iff_exists.mp (ClientTable.find?_isSome_iff.mpr hmem)
    rw [List.foldl_cons]
    by_cases hclosed : (c.outbox.push m).1 = .closed
    · have hgone : e.isGone m id = true := by simp [isGone, hc, hclosed]
      have hcopy := (copyTo_of_find? hn hc).trans (if_pos hclosed)
      have hleft : (e.release id).2.clientIds = e.clientIds.filter fun other => other ≠ id := by
        rw [release_of_find? hc]
        exact ClientTable.ids_remove hn id
      have hstay : ids ⊆ (e.release id).2.clientIds := fun other ho =>
        hleft ▸ List.mem_filter.mpr ⟨hsub ho, by simpa using hother other ho⟩
      have hrest : ids.filter (fun other => (e.release id).2.isGone m other) =
          ids.filter fun other => e.isGone m other :=
        List.filter_congr fun other ho => isGone_release hn hmem (hother other ho)
      rw [hcopy, ih hids (hleft ▸ hn.filter _) hstay, hrest, List.filter_cons_of_pos hgone,
        List.foldl_cons, release_queueTo hn hmem hgone]
    · have hgone : ¬ e.isGone m id = true := by simp [isGone, hc, hclosed]
      have hcopy := (copyTo_of_find? hn hc).trans (if_neg hclosed)
      have hsame := clientIds_queueTo e [id] m
      have hrest : ids.filter (fun other => (e.queueTo [id] m).isGone m other) =
          ids.filter fun other => e.isGone m other :=
        List.filter_congr fun other ho => isGone_queueTo (by simpa using hother other ho)
      rw [hcopy, ih hids (hsame ▸ hn) (hsame ▸ hsub), hrest, List.filter_cons_of_neg hgone,
        queueTo_cons hid]

/-- **A message to many is its copies in a row**, to the wanted clients in the order of their
slots. -/
theorem fanOut_eq_copies (hn : e.clientIds.Nodup) (wanted : Client → Bool) (m : Message) :
    (e.fanOut wanted m).2 = ((e.table.clients.filter wanted).map Client.id).foldl
      (fun e id => e.copyTo id m) e := by
  have hsub : ((e.table.clients.filter wanted).map Client.id).Sublist e.clientIds :=
    List.filter_sublist.map Client.id
  rw [foldl_copyTo m (hsub.nodup hn) hn hsub.subset]
  have htable : (e.table.map fun c =>
      if wanted c then { c with outbox := (c.outbox.push m).2 } else c) =
        (e.queueTo ((e.table.clients.filter wanted).map Client.id) m).table := by
    refine ClientTable.map_congr fun c hc => ?_
    have hiff : c.id ∈ (e.table.clients.filter wanted).map Client.id ↔ wanted c = true := by
      rw [List.mem_map]
      constructor
      · rintro ⟨d, hd, hid⟩
        obtain ⟨hd, hwanted⟩ := List.mem_filter.mp hd
        rwa [← List.inj_on_of_nodup_map hn hd hc hid]
      · exact fun hwanted => ⟨c, List.mem_filter.mpr ⟨hc, hwanted⟩, rfl⟩
    simp only [hiff, Client.receive]
  have hgone : ((e.table.clients.filter wanted).filter fun c =>
      (c.outbox.push m).1 = .closed).map Client.id =
        ((e.table.clients.filter wanted).map Client.id).filter fun id => e.isGone m id := by
    rw [List.filter_map]
    refine congrArg _ (List.filter_congr fun c hc => ?_)
    have hfind : e.table.find? c.id = some c :=
      ClientTable.find?_key hn (List.mem_filter.mp hc).1
    simp [isGone, hfind]
  unfold fanOut
  dsimp only
  rw [htable, hgone]
  rfl

end Copies

end Endpoint

end DeviceRelay
