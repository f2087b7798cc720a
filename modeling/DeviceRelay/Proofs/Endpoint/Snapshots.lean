import DeviceRelay.Proofs.Endpoint.Course
import DeviceRelay.Proofs.Endpoint.Limits
import DeviceRelay.Proofs.Outbound.Outbox

/-!
# Requests for a snapshot

A subscriber that waits for the next frame alone waits no longer once a frame went out to it. It
is taken off before the frame is sent, and sending may fail: a queue has no room, or the tunnel
does not take the frame at that moment. Then the request is gone and nothing came of it.

* `Tunnel.Takes`: what it takes for a frame to get into the queue of the tunnel.
* `Endpoint.SnapshotLost`: somebody waited for a frame, waits no longer, and has not got it.
* `Endpoint.slot_publishTopic`: what becomes of each client.
* `Endpoint.snapshotLost_publishTopic_iff`: when a request is lost.
-/

namespace DeviceRelay

/-! ## The queue of the tunnel -/

namespace Tunnel

/-- The messages that wait for the network, first come first. -/
def waiting (t : Tunnel) : List Message :=
  ((t.transport.bind fun tr => tr.client.outbox).map BoundedQueue.waiting).getD []

/-- A frame that is sent now gets into the queue of the tunnel: the tunnel is up and nobody holds
the lock of its transport, the frame is not too large, and the queue has room. -/
structure Takes (t : Tunnel) (f : Frame) : Prop where
  enabled : t.enabled = true
  connected : t.isConnected = true
  fits : f.length ≤ t.options.bufferSize
  unlocked : t.isLocked = false
  queue : ∃ tr q, t.transport = some tr ∧ tr.client.isConnected = true ∧
    f.length ≤ tr.client.bufferSize ∧ tr.client.outbox = some q ∧
    (q.push (.data f)).1 = .queued

section Takes

variable {t : Tunnel} {f : Frame}

theorem checkSendable_eq_ok_iff {length : Nat} : t.checkSendable length = .ok () ↔
    t.enabled = true ∧ t.isConnected = true ∧ length ≤ t.options.bufferSize := by
  unfold checkSendable
  cases t.enabled <;> cases t.isConnected <;> simp

/-- A frame that the tunnel takes is the newest in its queue. -/
theorem Takes.sendNow (h : t.Takes f) :
    (t.sendNow f).1 = .ok () ∧ (t.sendNow f).2.waiting = t.waiting ++ [.data f] := by
  obtain ⟨tr, q, ht, hc, hl, hq, hp⟩ := h.queue
  have hsub := OutboundClient.submit_of_outbox (m := .data f) hc hl hq
  have hpush := BoundedQueue.waiting_push q (.data f)
  rw [if_pos hp] at hpush
  have hcheck := checkSendable_eq_ok_iff.mpr ⟨h.enabled, h.connected, h.fits⟩
  unfold Tunnel.sendNow offer
  simp only [hcheck, h.unlocked, ht, hsub, Bool.false_eq_true, if_false]
  simp [offerResult, hp, waiting, ht, hq, hpush]

/-- A frame that the tunnel does not take is lost, and leaves no trace in its queue. -/
theorem sendNow_of_not_takes (h : ¬ t.Takes f) :
    (∃ err, (t.sendNow f).1 = .error err) ∧ (t.sendNow f).2.waiting = t.waiting := by
  unfold sendNow
  cases hs : t.checkSendable f.length with
  | error err => exact ⟨⟨err, rfl⟩, rfl⟩
  | ok u =>
    obtain ⟨he, hc, hf⟩ := checkSendable_eq_ok_iff.mp hs
    cases hl : t.isLocked with
    | true => exact ⟨⟨.timeout, rfl⟩, rfl⟩
    | false =>
      unfold offer
      cases ht : t.transport with
      | none => exact ⟨⟨.invalidState, rfl⟩, rfl⟩
      | some tr =>
        by_cases hopen : tr.client.isConnected = true ∧ f.length ≤ tr.client.bufferSize ∧
            tr.client.outbox.isSome = true
        · obtain ⟨hcc, hlc, hsome⟩ := hopen
          obtain ⟨q, hq⟩ := Option.isSome_iff_exists.mp hsome
          have hp : (q.push (.data f)).1 ≠ .queued := fun hp =>
            h ⟨he, hc, hf, hl, tr, q, ht, hcc, hlc, hq, hp⟩
          simp only [OutboundClient.submit_of_outbox hcc hlc hq,
            BoundedQueue.push_of_ne_queued hp]
          refine ⟨?_, by simp [waiting, ht, hq]⟩
          cases hpush : (q.push (.data f)).1 with
          | queued => exact absurd hpush hp
          | full => exact ⟨.timeout, rfl⟩
          | closed => exact ⟨.closed, rfl⟩
        · obtain ⟨err, hsub⟩ := OutboundClient.submit_refused (m := .data f) hopen
          simp only [hsub]
          exact ⟨⟨err.toTunnelError, rfl⟩, by simp [waiting, ht]⟩

end Takes

end Tunnel

/-! ## Slots of the table -/

namespace ClientTable

section Slots

variable {id : ClientId} {c : Client} {i : Nat}

theorem slot_of_freeFirst {slots : List (Option Client)}
    (h : (freeFirst id slots)[i]? = some (some c)) : slots[i]? = some (some c) := by
  induction slots generalizing i with
  | nil => exact h
  | cons slot slots ih =>
    cases slot with
    | none =>
      cases i with
      | zero => exact h
      | succ i => exact ih h
    | some d =>
      rw [freeFirst] at h
      split at h
      · cases i with
        | zero => cases h
        | succ i => exact h
      · cases i with
        | zero => exact h
        | succ i => exact ih h

/-- The slot that is freed is that of the client that is found. -/
theorem slot_freeFirst_or {slots : List (Option Client)} (h : slots[i]? = some (some c)) :
    (freeFirst id slots)[i]? = some (some c) ∨
      (slots.filterMap fun s => s).find? (fun d => d.id = id) = some c := by
  induction slots generalizing i with
  | nil => cases h
  | cons slot slots ih =>
    cases slot with
    | none =>
      cases i with
      | zero => cases h
      | succ i => exact ih h
    | some d =>
      rw [freeFirst]
      by_cases hd : d.id = id
      · rw [if_pos hd]
        cases i with
        | zero =>
          obtain rfl : d = c := Option.some.inj (Option.some.inj h)
          exact .inr (List.find?_cons_of_pos (decide_eq_true hd))
        | succ i => exact .inl h
      · rw [if_neg hd]
        cases i with
        | zero => exact .inl h
        | succ i =>
          refine (ih h).imp_right fun hfind => ?_
          exact (List.find?_cons_of_neg (by simpa using hd)).trans hfind

theorem slot_freeFirst_of_ne (hne : c.id ≠ id) {slots : List (Option Client)}
    (h : slots[i]? = some (some c)) : (freeFirst id slots)[i]? = some (some c) :=
  (slot_freeFirst_or h).resolve_right fun hfind => hne (by simpa using List.find?_some hfind)

/-- A client that is left after a removal was in the same slot before. -/
theorem slot_of_remove {t : ClientTable} (h : (t.remove id).2.slots[i]? = some (some c)) :
    t.slots[i]? = some (some c) := by
  unfold remove at h
  split at h
  · exact slot_of_freeFirst h
  · exact h

/-- A removal leaves the slots of others alone. -/
theorem slot_remove_of_ne (hne : c.id ≠ id) {t : ClientTable} (h : t.slots[i]? = some (some c)) :
    (t.remove id).2.slots[i]? = some (some c) := by
  unfold remove
  split
  · exact slot_freeFirst_of_ne hne h
  · exact h

end Slots

end ClientTable

namespace Endpoint

/-- The messages that wait for the far end of the tunnel. -/
def farWaiting (e : Endpoint) : List Message := (e.tunnel.map Tunnel.waiting).getD []

/-- From one state of an endpoint to another, somebody who waited for a snapshot waits no longer,
although the message did not get into the queue of that client. -/
inductive SnapshotLost (e e' : Endpoint) (m : Message) : Prop where
  /-- A local client, which is tracked in the same slot before and after. -/
  | near (i : Nat) (c c' : Client)
      (before : e.table.slots[i]? = some (some c)) (after : e'.table.slots[i]? = some (some c'))
      (asked : c.topics.snapshot = true) (cleared : c'.topics.snapshot = false)
      (missing : c'.outbox.waiting ≠ c.outbox.waiting ++ [m])
  /-- The far end of the tunnel. -/
  | far (asked : e.tunnelTopics.snapshot = true) (cleared : e'.tunnelTopics.snapshot = false)
      (missing : e'.farWaiting ≠ e.farWaiting ++ [m])

/-! ## Slots -/

section Slots

variable {e : Endpoint} {i : Nat} {c' : Client}

theorem table_release (e : Endpoint) (id : ClientId) :
    (e.release id).2.table = (e.table.remove id).2 := by
  unfold release ClientTable.remove
  cases e.table.find? id <;> rfl

/-- A client that is tracked after a release was in the same slot before. -/
theorem slot_release {id : ClientId} (h : (e.release id).2.table.slots[i]? = some (some c')) :
    e.table.slots[i]? = some (some c') :=
  ClientTable.slot_of_remove (table_release e id ▸ h)

/-- A release leaves the slots of others alone. -/
theorem slot_release_of_ne {id : ClientId} (hne : c'.id ≠ id)
    (h : e.table.slots[i]? = some (some c')) :
    (e.release id).2.table.slots[i]? = some (some c') := by
  rw [table_release]
  exact ClientTable.slot_remove_of_ne hne h

theorem slot_releaseAll {ids : List ClientId}
    (h : (e.releaseAll ids).2.table.slots[i]? = some (some c')) :
    e.table.slots[i]? = some (some c') := by
  rw [releaseAll_snd] at h
  induction ids generalizing e with
  | nil => exact h
  | cons id ids ih => exact slot_release (ih h)

/-- The endpoint with a message in the queues of the wanted clients, as far as they take it. -/
def queueWanted (e : Endpoint) (wanted : Client → Bool) (m : Message) : Endpoint :=
  { e with table := e.table.map fun c => if wanted c then c.receive m else c }

/-- The wanted clients whose queues turn out to be closed. -/
def closedIds (e : Endpoint) (wanted : Client → Bool) (m : Message) : List ClientId :=
  ((e.table.clients.filter wanted).filter fun c => (c.outbox.push m).1 = .closed).map Client.id

/-- The messages are queued first, and then the clients that turned out to be gone are released. -/
theorem fanOut_def (e : Endpoint) (wanted : Client → Bool) (m : Message) :
    e.fanOut wanted m =
      (⟨(e.table.clients.filter wanted).countP fun c => (c.outbox.push m).1 = .queued,
        (e.table.clients.filter wanted).countP fun c => (c.outbox.push m).1 = .full,
        ((e.queueWanted wanted m).releaseAll (e.closedIds wanted m)).1⟩,
      ((e.queueWanted wanted m).releaseAll (e.closedIds wanted m)).2) := rfl

theorem fanOut_snd (e : Endpoint) (wanted : Client → Bool) (m : Message) :
    (e.fanOut wanted m).2 = ((e.queueWanted wanted m).releaseAll (e.closedIds wanted m)).2 := rfl

theorem clientIds_queueWanted (e : Endpoint) (wanted : Client → Bool) (m : Message) :
    (e.queueWanted wanted m).clientIds = e.clientIds :=
  ClientTable.ids_map (fun c => by split <;> rfl) e.table

theorem mem_closedIds_iff (hn : e.clientIds.Nodup) {wanted : Client → Bool} {m : Message}
    {c : Client} (hmem : c ∈ e.table.clients) :
    c.id ∈ e.closedIds wanted m ↔ wanted c = true ∧ (c.outbox.push m).1 = .closed := by
  rw [closedIds, List.mem_map]
  constructor
  · rintro ⟨d, hd, hid⟩
    obtain ⟨hd, hclosed⟩ := List.mem_filter.mp hd
    obtain ⟨hd, hwanted⟩ := List.mem_filter.mp hd
    rw [List.inj_on_of_nodup_map hn hd hmem hid] at hclosed hwanted
    exact ⟨hwanted, of_decide_eq_true hclosed⟩
  · exact fun ⟨hwanted, hclosed⟩ =>
      ⟨c, List.mem_filter.mpr ⟨List.mem_filter.mpr ⟨hmem, hwanted⟩, decide_eq_true hclosed⟩, rfl⟩

/-- A client that is tracked after a message to many has got it as far as its queue took it. -/
theorem slot_fanOut {wanted : Client → Bool} {m : Message}
    (h : (e.fanOut wanted m).2.table.slots[i]? = some (some c')) :
    ∃ c, e.table.slots[i]? = some (some c) ∧ c' = if wanted c then c.receive m else c := by
  have hmap := slot_releaseAll h
  simp only [ClientTable.map, List.getElem?_map, Option.map_eq_some_iff] at hmap
  obtain ⟨_, hslot, c, rfl, rfl⟩ := hmap
  exact ⟨c, hslot, rfl⟩

end Slots

/-! ## The far end -/

section Far

variable {e : Endpoint} {f : Frame}

/-- A message to local clients does not concern the far end. -/
theorem far_releaseAll (e : Endpoint) (ids : List ClientId) :
    (e.releaseAll ids).2.tunnel = e.tunnel ∧
      (e.releaseAll ids).2.tunnelTopics = e.tunnelTopics := by
  rw [releaseAll_snd]
  induction ids generalizing e with
  | nil => exact ⟨rfl, rfl⟩
  | cons id ids ih =>
    have hrelease : (e.release id).2.tunnel = e.tunnel ∧
        (e.release id).2.tunnelTopics = e.tunnelTopics := by
      unfold release
      split <;> exact ⟨rfl, rfl⟩
    exact ⟨(ih _).1.trans hrelease.1, (ih _).2.trans hrelease.2⟩

/-- Whether a frame that is sent through the tunnel gets into its queue. -/
def farTakes (e : Endpoint) (f : Frame) : Bool := e.tunnel.any fun t => (t.sendNow f).1.isOk

theorem farTakes_iff : e.farTakes f = true ↔ ∃ t, e.tunnel = some t ∧ t.Takes f := by
  rw [farTakes, Option.any_eq_true]
  refine exists_congr fun t => and_congr_right fun _ => ?_
  by_cases htakes : t.Takes f
  · rw [htakes.sendNow.1]
    exact iff_of_true rfl htakes
  · obtain ⟨err, herr⟩ := (Tunnel.sendNow_of_not_takes htakes).1
    rw [herr]
    exact iff_of_false nofun htakes

/-- A tunnel that takes a frame is connected. -/
theorem tunnelConnected_of_farTakes (h : e.farTakes f = true) : e.tunnelConnected = true := by
  obtain ⟨t, ht, htakes⟩ := farTakes_iff.mp h
  rw [tunnelConnected, ht]
  exact htakes.connected

/-- A connected tunnel is asked once, and the report says what came of it. -/
theorem forwardToTunnel_eq (e : Endpoint) (f : Frame) :
    e.forwardToTunnel f =
      (⟨(e.farTakes f).toNat, (e.tunnelConnected && !e.farTakes f).toNat, 0⟩,
        { e with tunnel :=
          if e.tunnelConnected then e.tunnel.map fun t => (t.sendNow f).2 else e.tunnel }) := by
  have htakes := @tunnelConnected_of_farTakes e f
  obtain ⟨path, limits, token, table, departed, nextId, events, tunnel, topics⟩ := e
  cases tunnel with
  | none => rfl
  | some t =>
    simp only [forwardToTunnel, farTakes, tunnelConnected, Option.any_some] at htakes ⊢
    by_cases hc : t.isConnected = true
    · simp only [hc, if_true, Option.map_some]
      generalize t.sendNow f = sent
      obtain ⟨r, t'⟩ := sent
      cases r <;> rfl
    · have hlost : (t.sendNow f).1.isOk = false := eq_false_of_ne_true fun hsent => hc (htakes hsent)
      simp [hc, hlost, Report.zero]

/-- A frame gets into the queue of the tunnel, or leaves no trace in it. -/
theorem farWaiting_forwardToTunnel (e : Endpoint) (f : Frame) :
    (e.forwardToTunnel f).2.farWaiting =
      e.farWaiting ++ if e.farTakes f then [.data f] else [] := by
  rw [forwardToTunnel_eq]
  by_cases htakes : e.farTakes f = true
  · obtain ⟨t, ht, hqueued⟩ := farTakes_iff.mp htakes
    simp [farWaiting, tunnelConnected_of_farTakes htakes, htakes, ht, hqueued.sendNow.2]
  · cases ht : e.tunnel with
    | none => simp [farWaiting, ht, htakes]
    | some t =>
      have hnot : ¬ t.Takes f := fun h => htakes (farTakes_iff.mpr ⟨t, ht, h⟩)
      have hsame := (Tunnel.sendNow_of_not_takes hnot).2
      by_cases hc : e.tunnelConnected = true <;> simp [farWaiting, ht, htakes, hc, hsame]

theorem local_forwardToTunnel (e : Endpoint) (f : Frame) :
    (e.forwardToTunnel f).2.table = e.table ∧
      (e.forwardToTunnel f).2.tunnelTopics = e.tunnelTopics := by
  rw [forwardToTunnel_eq]
  exact ⟨rfl, rfl⟩

end Far

/-! ## One frame of a topic -/

section PublishTopic

variable {e : Endpoint} {topic : Topic} {bytes : List UInt8}

theorem publishTopic_of_limit_lt (h : e.limits.maxBroadcastLength < bytes.length) :
    e.publishTopic topic bytes =
      (.error (.payloadTooLarge bytes.length e.limits.maxBroadcastLength), e) := by
  have hcheck : e.checkLength (.binary bytes) =
      .error (.payloadTooLarge bytes.length e.limits.maxBroadcastLength) := if_pos h
  unfold publishTopic
  simp only [hcheck]

/-- The endpoint whose local clients were served. -/
def serveLocal (e : Endpoint) (topic : Topic) (bytes : List UInt8) : Endpoint :=
  { (e.fanOut (fun c => c.topics.wants topic) (.data (.binary bytes))).2.serveClients with
    tunnelTopics := e.tunnelTopics.served }

/-- A frame within the limit is sent to the local subscribers, and then through the tunnel if the
far end subscribed. -/
theorem publishTopic_of_le (h : bytes.length ≤ e.limits.maxBroadcastLength) :
    e.publishTopic topic bytes =
      let far :=
        if e.tunnelTopics.wants topic then
          (e.serveLocal topic bytes).forwardToTunnel (.binary bytes)
        else (.zero, e.serveLocal topic bytes)
      (.ok ((e.fanOut (fun c => c.topics.wants topic) (.data (.binary bytes))).1.add far.1),
        far.2) := by
  have hcheck : e.checkLength (.binary bytes) = .ok () := checkLength_eq_ok_iff.mpr h
  have hfar : (e.fanOut (fun c => c.topics.wants topic)
      (.data (.binary bytes))).2.serveClients.tunnelTopics = e.tunnelTopics :=
    (far_releaseAll _ _).2
  unfold publishTopic serveLocal
  simp only [hcheck, hfar]

/-- A request for a snapshot is served by the frames of either topic. -/
theorem wants_of_snapshot {s : TopicSet} (h : s.snapshot = true) (topic : Topic) :
    s.wants topic = true := by
  cases topic <;> simp [TopicSet.wants, h]

/-- The tunnel's copy does not concern the local clients. -/
theorem table_publishTopic (h : bytes.length ≤ e.limits.maxBroadcastLength) :
    (e.publishTopic topic bytes).2.table = (e.serveLocal topic bytes).table := by
  rw [publishTopic_of_le h]
  dsimp only
  split
  · exact (local_forwardToTunnel _ _).1
  · rfl

/-- **What becomes of each client.** Whoever is tracked after a frame of a topic has got it as far
as the queue took it, if subscribed, and waits for no snapshot. -/
theorem slot_publishTopic (h : bytes.length ≤ e.limits.maxBroadcastLength) {i : Nat} {c' : Client}
    (hslot : (e.publishTopic topic bytes).2.table.slots[i]? = some (some c')) :
    ∃ c, e.table.slots[i]? = some (some c) ∧ c'.topics = c.topics.served ∧
      c'.outbox = if c.topics.wants topic then (c.outbox.push (.data (.binary bytes))).2
        else c.outbox := by
  rw [table_publishTopic h] at hslot
  simp only [serveLocal, serveClients, ClientTable.map, List.getElem?_map,
    Option.map_eq_some_iff] at hslot
  obtain ⟨_, hslot, d, rfl, rfl⟩ := hslot
  obtain ⟨c, hc, rfl⟩ := slot_fanOut hslot
  refine ⟨c, hc, ?_, ?_⟩
  · split <;> rfl
  · split <;> rfl

/-- The far end waits for no snapshot afterwards. If it did before, the frame is in the queue of
the tunnel as far as the tunnel took it. -/
theorem far_publishTopic (h : bytes.length ≤ e.limits.maxBroadcastLength)
    (hasked : e.tunnelTopics.snapshot = true) (topic : Topic) :
    (e.publishTopic topic bytes).2.tunnelTopics.snapshot = false ∧
      ((e.publishTopic topic bytes).2.farWaiting = e.farWaiting ++ [.data (.binary bytes)] ↔
        ∃ t, e.tunnel = some t ∧ t.Takes (.binary bytes)) := by
  have htunnel : (e.serveLocal topic bytes).tunnel = e.tunnel := (far_releaseAll _ _).1
  have hwaiting : (e.serveLocal topic bytes).farWaiting = e.farWaiting := by
    rw [farWaiting, htunnel, farWaiting]
  rw [publishTopic_of_le h, if_pos (wants_of_snapshot hasked topic)]
  dsimp only
  refine ⟨by rw [(local_forwardToTunnel _ _).2]; rfl, ?_⟩
  have htakes : (e.serveLocal topic bytes).farTakes (.binary bytes) = e.farTakes (.binary bytes) := by
    rw [farTakes, htunnel, farTakes]
  rw [farWaiting_forwardToTunnel, hwaiting, htakes, ← farTakes_iff, List.append_cancel_left_eq]
  cases e.farTakes (.binary bytes) with
  | true => simp
  | false => simp

/-- **When a request for a snapshot is lost.** The frame is within the limit, and either a local
client that waits for a snapshot is still tracked although its queue did not take the frame, or the
far end waits for one and no tunnel takes the frame. -/
theorem snapshotLost_publishTopic_iff (e : Endpoint) (topic : Topic) (bytes : List UInt8) :
    SnapshotLost e (e.publishTopic topic bytes).2 (.data (.binary bytes)) ↔
      bytes.length ≤ e.limits.maxBroadcastLength ∧
        ((∃ (i : Nat) (c : Client), e.table.slots[i]? = some (some c) ∧
            c.topics.snapshot = true ∧ (c.outbox.push (.data (.binary bytes))).1 ≠ .queued ∧
            ∃ c', (e.publishTopic topic bytes).2.table.slots[i]? = some (some c')) ∨
          (e.tunnelTopics.snapshot = true ∧
            ¬ ∃ t, e.tunnel = some t ∧ t.Takes (.binary bytes))) := by
  by_cases hfits : bytes.length ≤ e.limits.maxBroadcastLength
  · constructor
    · rintro (⟨i, c, c', before, after, asked, cleared, missing⟩ | ⟨asked, cleared, missing⟩)
      · refine ⟨hfits, .inl ⟨i, c, before, asked, fun hq => missing ?_, c', after⟩⟩
        obtain ⟨d, hd, -, houtbox⟩ := slot_publishTopic hfits after
        cases before.symm.trans hd
        rw [houtbox, if_pos (wants_of_snapshot asked topic), BoundedQueue.waiting_push, if_pos hq]
      · exact ⟨hfits, .inr ⟨asked, fun htakes =>
          missing ((far_publishTopic hfits asked topic).2.mpr htakes)⟩⟩
    · rintro ⟨-, ⟨i, c, before, asked, hq, c', after⟩ | ⟨asked, hno⟩⟩
      · obtain ⟨d, hd, htopics, houtbox⟩ := slot_publishTopic hfits after
        cases before.symm.trans hd
        refine .near i c c' before after asked (by rw [htopics]; rfl) ?_
        rw [houtbox, if_pos (wants_of_snapshot asked topic), BoundedQueue.push_of_ne_queued hq]
        exact fun heq => by simpa using congrArg List.length heq
      · obtain ⟨cleared, hiff⟩ := far_publishTopic hfits asked topic
        exact .far asked cleared fun heq => hno (hiff.mp heq)
  · rw [publishTopic_of_limit_lt (Nat.lt_of_not_le hfits)]
    refine iff_of_false ?_ fun h => hfits h.1
    rintro (⟨i, c, c', before, after, asked, cleared, -⟩ | ⟨asked, cleared, -⟩)
    · cases before.symm.trans after
      rw [asked] at cleared
      cases cleared
    · rw [asked] at cleared
      cases cleared

/-- The queue of the only client is full when a frame goes out: the client is still tracked, waits
for no snapshot any more, and has only the message that filled the queue. -/
theorem snapshot_lost_to_full_queue :
    let e := (course (.new "/ws/test" ⟨2, 64, 32⟩ none)
      [.accept (.new 1), .setTopic ⟨1⟩ .snapshot true, .sendTo ⟨1⟩ (.text "x")]).endpoint
    let e' := (e.publishTopic .camera [0xab]).2
    e.hasTopic ⟨1⟩ .snapshot = true ∧ e'.hasTopic ⟨1⟩ .snapshot = false ∧
      e'.clientIds = [⟨1⟩] ∧
      (e'.connection? ⟨1⟩).map (fun c => c.outbox.waiting) = some [.data (.text "x")] ∧
      SnapshotLost e e' (.data (.binary [0xab])) := by
  refine ⟨by decide, by decide, by decide, by decide, ?_⟩
  exact .near 0 ⟨⟨1⟩, 0, ⟨false, true⟩, ⟨1, [.data (.text "x")], true⟩⟩
    ⟨⟨1⟩, 0, ⟨false, false⟩, ⟨1, [.data (.text "x")], true⟩⟩
    (by decide) (by decide) rfl rfl (by decide)

end PublishTopic

end Endpoint

end DeviceRelay
