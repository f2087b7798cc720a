import DeviceRelay.Proofs.Endpoint.Limits
import DeviceRelay.Proofs.Endpoint.Snapshots

/-!
# What a message to many does to each client

The copies go out one after the other, and a client whose queue turns out to be closed is released
on the way. With distinct ids none of this touches anybody else: what becomes of a client is a
function of that client alone, whoever the others are and in whatever order they stand.

* `Client.afterCopy`: what becomes of one client.
* `Endpoint.releaseAll_eq`: the endpoint after some clients were released.
* `Endpoint.fanOut_eq`: the endpoint after a message to many.
* `Endpoint.Spread`, `Endpoint.broadcast_isolates`: what a broadcast does and reports.
-/

namespace DeviceRelay

/-- What becomes of a client that a message is meant for. It is no longer tracked if its queue is
closed, it gets the message at the end of its queue if there is room, and stays as it is if not. -/
def Client.afterCopy (m : Message) (c : Client) : Option Client :=
  if !c.outbox.isOpen then none
  else if c.outbox.hasRoom then
    some { c with outbox := { c.outbox with waiting := c.outbox.waiting ++ [m] } }
  else some c

namespace BoundedQueue

variable {α : Type}

theorem push_eq_queued (q : BoundedQueue α) (a : α) :
    decide ((q.push a).1 = .queued) = (q.isOpen && q.hasRoom) := by
  unfold push
  cases q.isOpen <;> cases q.hasRoom <;> rfl

theorem push_eq_full (q : BoundedQueue α) (a : α) :
    decide ((q.push a).1 = .full) = (q.isOpen && !q.hasRoom) := by
  unfold push
  cases q.isOpen <;> cases q.hasRoom <;> rfl

theorem push_eq_closed (q : BoundedQueue α) (a : α) :
    decide ((q.push a).1 = .closed) = !q.isOpen := by
  unfold push
  cases q.isOpen <;> cases q.hasRoom <;> rfl

end BoundedQueue

theorem Client.afterCopy_eq (m : Message) (c : Client) :
    c.afterCopy m = if (c.outbox.push m).1 = .closed then none else some (c.receive m) := by
  unfold afterCopy receive BoundedQueue.push
  cases hopen : c.outbox.isOpen
  · rfl
  · cases c.outbox.hasRoom
    · rfl
    · simp [hopen]

/-! ## Removing from the slots -/

namespace ClientTable

section Slots

variable {t : ClientTable} {id : ClientId}

theorem map_filter_slots_of_not_mem (h : id ∉ t.ids) :
    t.slots.map (Option.filter fun c => c.id ≠ id) = t.slots := by
  refine (List.map_congr_left fun slot hslot => ?_).trans (List.map_id' t.slots)
  cases slot with
  | none => rfl
  | some c =>
    have hc : c.id ∈ t.ids := List.mem_map_of_mem (List.mem_filterMap.mpr ⟨some c, hslot, rfl⟩)
    have hne : c.id ≠ id := fun hid => h (hid ▸ hc)
    simp [Option.filter, hne]

theorem freeFirst_eq_map {slots : List (Option Client)}
    (hn : (⟨slots, 0⟩ : ClientTable).ids.Nodup) (id : ClientId) :
    freeFirst id slots = slots.map (Option.filter fun c => c.id ≠ id) := by
  induction slots with
  | nil => rfl
  | cons slot slots ih =>
    cases slot with
    | none => exact congrArg (none :: ·) (ih hn)
    | some c =>
      obtain ⟨hc, hrest⟩ := List.nodup_cons.mp hn
      rw [freeFirst, List.map_cons]
      by_cases h : c.id = id
      · have hsame := map_filter_slots_of_not_mem (t := ⟨slots, 0⟩) (h ▸ hc)
        rw [if_pos h, hsame]
        simp [Option.filter, h]
      · rw [if_neg h, ih hrest]
        simp [Option.filter, h]

/-- With distinct ids a removal frees the slot of the client with the id and no other. -/
theorem remove_snd (hn : t.ids.Nodup) (id : ClientId) :
    (t.remove id).2 = { t with slots := t.slots.map (Option.filter fun c => c.id ≠ id) } := by
  unfold remove
  cases hf : t.find? id with
  | some c => exact congrArg (ClientTable.mk · t.nextSeq) (freeFirst_eq_map hn id)
  | none => rw [map_filter_slots_of_not_mem (find?_eq_none_iff.mp hf)]

end Slots

end ClientTable

namespace Endpoint

/-! ## Releasing some clients -/

section Release

variable {e : Endpoint}

/-- The endpoint without some clients. Each has left as it was, and notice was given of each. -/
def without (e : Endpoint) (gone : List Client) : Endpoint :=
  { e with
    table := { e.table with
      slots := e.table.slots.map (Option.filter fun c => c.id ∉ gone.map Client.id) }
    departed := (gone.map fun c => ⟨c.id, c.outbox, false⟩).reverse ++ e.departed
    events := noticed e.events (gone.map Client.id) }

theorem without_nil (e : Endpoint) : e.without [] = e := by
  have hslots : e.table.slots.map (Option.filter fun c => c.id ∉ ([] : List Client).map Client.id) =
      e.table.slots :=
    (List.map_congr_left fun slot _ => by cases slot <;> rfl).trans (List.map_id' _)
  rw [without, hslots]
  rfl

theorem release_eq (hn : e.clientIds.Nodup) {c : Client} (hc : c ∈ e.table.clients) :
    e.release c.id = (true, e.without [c]) := by
  rw [release_of_find? (ClientTable.find?_key hn hc), ClientTable.remove_snd hn]
  simp [without, noticed]

theorem clients_without (e : Endpoint) (gone : List Client) :
    (e.without gone).table.clients =
      e.table.clients.filter fun c => c.id ∉ gone.map Client.id := by
  rw [without, ClientTable.clients, ClientTable.clients, List.filterMap_map, List.filter_filterMap]
  rfl

theorem without_without (e : Endpoint) (gone more : List Client) :
    (e.without gone).without more = e.without (gone ++ more) := by
  have hslots : (e.without gone).table.slots.map
        (Option.filter fun c => c.id ∉ more.map Client.id) =
      e.table.slots.map (Option.filter fun c => c.id ∉ (gone ++ more).map Client.id) := by
    rw [without, List.map_map]
    refine List.map_congr_left fun slot _ => ?_
    rw [Function.comp_apply, Option.filter_filter]
    refine congrArg (fun p => Option.filter p slot) (funext fun c => ?_)
    simp
  rw [without, hslots]
  simp [without, noticed]

/-- Clients that are released one after the other leave as they are, each with a notice. -/
theorem releaseAll_eq (hn : e.clientIds.Nodup) {gone : List Client}
    (hsub : gone.Sublist e.table.clients) :
    e.releaseAll (gone.map Client.id) = (gone.length, e.without gone) := by
  have hgone : (gone.map Client.id).Nodup := (hsub.map Client.id).nodup hn
  unfold releaseAll
  rw [← Nat.zero_add gone.length]
  generalize 0 = n
  induction gone generalizing n e with
  | nil => simp [without_nil]
  | cons c gone ih =>
    obtain ⟨hc, hgone⟩ := List.nodup_cons.mp hgone
    have hstay : (c :: gone).filter (fun d => d.id ∉ [c].map Client.id) = gone := by
      rw [List.filter_cons_of_neg (by simp), List.filter_eq_self]
      intro d hd
      have hne : d.id ≠ c.id := fun hid => hc (hid ▸ List.mem_map_of_mem hd)
      simpa using hne
    have hrest : gone.Sublist (e.without [c]).table.clients := by
      rw [clients_without, ← hstay]
      exact hsub.filter _
    have hids : (e.without [c]).clientIds.Nodup := by
      refine List.Sublist.nodup ?_ hn
      rw [clientIds, ClientTable.ids, clients_without]
      exact List.filter_sublist.map Client.id
    have hfirst := release_eq hn (hsub.subset List.mem_cons_self)
    simp only [List.map_cons, List.foldl_cons, hfirst, if_true]
    rw [ih hids hrest hgone, without_without, List.length_cons, Nat.add_right_comm]
    rfl

end Release

/-! ## A message to many -/

section FanOut

variable {e : Endpoint}

/-- The wanted clients whose queues are closed. -/
def closedOf (e : Endpoint) (wanted : Client → Bool) : List Client :=
  e.table.clients.filter fun c => wanted c && !c.outbox.isOpen

theorem closedIds_eq (e : Endpoint) (wanted : Client → Bool) (m : Message) :
    e.closedIds wanted m = (e.closedOf wanted).map Client.id := by
  rw [closedIds, List.filter_filter, closedOf]
  refine congrArg _ (List.filter_congr fun c _ => ?_)
  rw [BoundedQueue.push_eq_closed, Bool.and_comm]

/-- A client whose queue is closed is released as it was. -/
theorem closedOf_sublist_queueWanted (e : Endpoint) (wanted : Client → Bool) (m : Message) :
    (e.closedOf wanted).Sublist (e.queueWanted wanted m).table.clients := by
  have hsame : (e.closedOf wanted).map (fun c => if wanted c then c.receive m else c) =
      e.closedOf wanted := by
    refine (List.map_congr_left fun c hc => ?_).trans (List.map_id' _)
    have hwanted := Bool.and_eq_true_iff.mp (List.mem_filter.mp hc).2
    have hpush : (c.outbox.push m).1 = .closed := by
      simpa [hwanted.2] using BoundedQueue.push_eq_closed c.outbox m
    rw [Client.receive, BoundedQueue.push_closed hpush, ite_self]
  rw [queueWanted, ClientTable.clients_map, ← hsame]
  exact List.filter_sublist.map _

/-- What is in a slot after a message to many depends on what was in it alone. -/
theorem slots_queueWanted_without (hn : e.clientIds.Nodup) (wanted : Client → Bool) (m : Message) :
    ((e.queueWanted wanted m).without (e.closedOf wanted)).table.slots =
      e.table.slots.map (Option.bind · fun c => if wanted c then c.afterCopy m else some c) := by
  simp only [without, queueWanted, ClientTable.map, List.map_map]
  refine List.map_congr_left fun slot hslot => ?_
  cases slot with
  | none => rfl
  | some c =>
    have hmem : c ∈ e.table.clients := List.mem_filterMap.mpr ⟨some c, hslot, rfl⟩
    have hgone : c.id ∈ (e.closedOf wanted).map Client.id ↔
        wanted c = true ∧ (c.outbox.push m).1 = .closed :=
      closedIds_eq e wanted m ▸ mem_closedIds_iff hn hmem
    have hid : (if wanted c then c.receive m else c).id = c.id := by split <;> rfl
    simp only [Function.comp_apply, Option.map_some, Option.filter, Option.bind_some, hid, hgone,
      Client.afterCopy_eq]
    by_cases hw : wanted c = true
    · by_cases hc : (c.outbox.push m).1 = .closed <;> simp [hw, hc]
    · simp [hw]

/-- **What a message to many does.** Each wanted client fares on its own, and each of the others
stays as it is. -/
theorem fanOut_eq (hn : e.clientIds.Nodup) (wanted : Client → Bool) (m : Message) :
    e.fanOut wanted m =
      (⟨e.table.clients.countP fun c => c.outbox.isOpen && c.outbox.hasRoom && wanted c,
        e.table.clients.countP fun c => c.outbox.isOpen && !c.outbox.hasRoom && wanted c,
        (e.closedOf wanted).length⟩,
      { e with
        table := { e.table with
          slots := e.table.slots.map
            (Option.bind · fun c => if wanted c then c.afterCopy m else some c) }
        departed := ((e.closedOf wanted).map fun c => ⟨c.id, c.outbox, false⟩).reverse ++ e.departed
        events := noticed e.events ((e.closedOf wanted).map Client.id) }) := by
  have hreleased := releaseAll_eq ((clientIds_queueWanted e wanted m).symm ▸ hn)
    (closedOf_sublist_queueWanted e wanted m)
  rw [← closedIds_eq e wanted m] at hreleased
  rw [fanOut_def, hreleased, ← slots_queueWanted_without hn wanted m]
  simp only [List.countP_filter, BoundedQueue.push_eq_queued, BoundedQueue.push_eq_full]
  rfl

end FanOut

/-! ## Broadcasts -/

section Broadcast

variable {e : Endpoint}

/-- The events that have not been handled: those that have their place in the line, and the notices
that are still carried. -/
def pending (e : Endpoint) : List EndpointEvent := e.events.queued ++ e.events.carried

/-- The clients whose queues are closed. -/
def closedClients (e : Endpoint) : List Client := e.table.clients.filter fun c => !c.outbox.isOpen

/-- From one state of an endpoint to another a message went to every client, and to nobody else. -/
structure Spread (e : Endpoint) (m : Message) (report : Report) (e' : Endpoint) : Prop where
  /-- Each client fares on its own, and every slot stays that of the client it was. -/
  slots : e'.table.slots = e.table.slots.map (Option.bind · (Client.afterCopy m))
  /-- Clients whose queues are closed leave, and their connections can still drain what waits. -/
  departed : e'.departed =
    (e.closedClients.map fun c => ⟨c.id, c.outbox, false⟩).reverse ++ e.departed
  /-- The notices enter the line in the order of the slots, or are carried there. -/
  line : e'.events = noticed e.events (e.closedClients.map Client.id)
  /-- One notice of each client that leaves, and no other event. -/
  notices : e'.pending.Perm (e.pending ++ e.closedClients.map fun c => .disconnected c.id)
  /-- Nothing else changes. -/
  rest : e' = { e with
    table := { e.table with slots := e'.table.slots }
    departed := e'.departed
    events := e'.events }
  delivered : report.delivered =
    e.table.clients.countP fun c => c.outbox.isOpen && c.outbox.hasRoom
  dropped : report.dropped =
    e.table.clients.countP fun c => c.outbox.isOpen && !c.outbox.hasRoom
  removed : report.removed = e.table.clients.countP fun c => !c.outbox.isOpen
  /-- Nobody is missing in the report. -/
  total : report.total = e.clientCount

/-- A notice enters the line, or is carried. -/
theorem pending_notify_perm (l : EventLine) (event : EndpointEvent) :
    ((l.notify event).queued ++ (l.notify event).carried).Perm
      (l.queued ++ l.carried ++ [event]) := by
  rw [EventLine.queued_notify, EventLine.carried_notify]
  by_cases h : l.hasRoom = true
  · simp only [h, if_true, List.append_nil, List.append_assoc]
    exact List.perm_append_comm.append_left _
  · simp [h]

theorem pending_noticed_perm (l : EventLine) (gone : List Client) :
    ((noticed l (gone.map Client.id)).queued ++ (noticed l (gone.map Client.id)).carried).Perm
      (l.queued ++ l.carried ++ gone.map fun c => .disconnected c.id) := by
  induction gone generalizing l with
  | nil => simp [noticed]
  | cons c gone ih =>
    refine (ih (l.notify (.disconnected c.id))).trans ?_
    rw [List.map_cons, ← List.singleton_append, ← List.append_assoc]
    exact (pending_notify_perm l _).append_right _

/-- Every client is in one of the three groups. -/
theorem countP_groups (cs : List Client) :
    (cs.countP fun c => c.outbox.isOpen && c.outbox.hasRoom) +
        (cs.countP fun c => c.outbox.isOpen && !c.outbox.hasRoom) +
        (cs.countP fun c => !c.outbox.isOpen) = cs.length := by
  induction cs with
  | nil => rfl
  | cons c cs ih =>
    simp only [List.countP_cons, List.length_cons]
    cases c.outbox.isOpen <;> cases c.outbox.hasRoom <;> simp <;> omega

/-- Every wanted client is in one of the three groups of the report. -/
theorem total_fanOut (hn : e.clientIds.Nodup) (wanted : Client → Bool) (m : Message) :
    (e.fanOut wanted m).1.total = e.table.clients.countP wanted := by
  have hgroups := countP_groups (e.table.clients.filter wanted)
  rw [fanOut_eq hn, Report.total, closedOf, ← List.countP_eq_length_filter,
    List.countP_eq_length_filter (p := wanted), ← hgroups]
  simp only [List.countP_filter, Bool.and_comm]

theorem spread_fanOut (hn : e.clientIds.Nodup) (m : Message) :
    Spread e m (e.fanOut (fun _ => true) m).1 (e.fanOut (fun _ => true) m).2 := by
  have hclosed : e.closedOf (fun _ => true) = e.closedClients := rfl
  have hremoved : e.closedClients.length = e.table.clients.countP fun c => !c.outbox.isOpen :=
    List.countP_eq_length_filter.symm
  have hnotices := pending_noticed_perm e.events e.closedClients
  simp only [fanOut_eq hn, hclosed, hremoved, Bool.and_true, if_true]
  exact ⟨rfl, rfl, rfl, hnotices, rfl, rfl, rfl, rfl, countP_groups e.table.clients⟩

/-- **One client's failure is its own.** Where ids are distinct, a frame within the limit of the
endpoint goes to every client: what becomes of each depends on its own queue alone, the report
counts who got the frame, who lost it and who is gone, and together these are all the clients. A
frame over the limit is refused and changes nothing. -/
theorem broadcast_isolates (hn : e.clientIds.Nodup) (f : Frame) :
    (f.length ≤ e.limits.maxBroadcastLength → ∃ report e', e.broadcast f = (.ok report, e') ∧
      Spread e (.data f) report e') ∧
    (e.limits.maxBroadcastLength < f.length → e.broadcast f =
      (.error (.payloadTooLarge f.length e.limits.maxBroadcastLength), e)) := by
  constructor
  · intro hfits
    refine ⟨_, _, ?_, spread_fanOut hn (.data f)⟩
    rw [broadcast, checkLength_eq_ok_iff.mpr hfits]
  · intro hlong
    rw [broadcast, checkLength, if_pos hlong]

/-- A client whose queue is full, one whose queue is closed, and one whose queue takes the frame. -/
def mixedClients : Endpoint :=
  let e := ((new "/pier" ⟨3, 8, 8⟩ none).accept ⟨1, [.data (.text "old")], true⟩).2
  let e := (e.accept ⟨1, [.data (.text "old")], false⟩).2
  (e.accept (.new 4)).2

/-- The frame is put into one queue, lost to one and refused by one, and the report says so. -/
theorem broadcast_isolates_mixed :
    mixedClients.clientIds.Nodup ∧
      (Frame.text "hi").length ≤ mixedClients.limits.maxBroadcastLength ∧
      ∃ report e', mixedClients.broadcast (.text "hi") = (.ok report, e') ∧
        Spread mixedClients (.data (.text "hi")) report e' ∧ report = ⟨1, 1, 1⟩ ∧
        e'.table.slots = [
          some ⟨⟨1⟩, 0, .empty, ⟨1, [.data (.text "old")], true⟩⟩,
          none,
          some ⟨⟨3⟩, 2, .empty, ⟨4, [.data (.text "hi")], true⟩⟩] := by
  have hn : mixedClients.clientIds.Nodup := by decide
  have hfits : (Frame.text "hi").length ≤ mixedClients.limits.maxBroadcastLength := by decide
  obtain ⟨report, e', hsent, hspread⟩ := (broadcast_isolates hn (.text "hi")).1 hfits
  refine ⟨hn, hfits, report, e', hsent, hspread, ?_, ?_⟩
  · obtain ⟨delivered, dropped, removed⟩ := report
    exact congr (congr (congrArg Report.mk hspread.delivered) hspread.dropped) hspread.removed
  · rw [hspread.slots]
    rfl

end Broadcast

end Endpoint

end DeviceRelay
