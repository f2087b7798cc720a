import DeviceRelay.Proofs.Endpoint.Broadcast

/-!
# Frames of a topic

A frame of a topic goes to the local clients that are subscribed, and through the tunnel if the far
end is. Somebody who waits for the next frame alone is served by the frames of either topic, and
the request is taken back whether or not the copy got into a queue. Everybody else is left alone.

* `Topic.isFor`: whom a frame is for.
* `Client.afterFrame`: what becomes of one client.
* `Endpoint.farSent`: whether the copy for the far end gets into the queue of the tunnel.
* `Endpoint.Published`, `Endpoint.publishTopic_reaches`: what a frame of a topic does and reports.
-/

namespace DeviceRelay

theorem Report.total_add (a b : Report) : (a.add b).total = a.total + b.total := by
  simp only [total, add]
  omega

/-! ## One subscriber -/

/-- Whether a frame of a topic is for somebody with these subscriptions: to the topic, or to the
next frame alone. -/
def Topic.isFor (topic : Topic) (s : TopicSet) : Bool := s.contains topic || s.contains .snapshot

theorem TopicSet.wants_eq_isFor (s : TopicSet) (topic : Topic) :
    s.wants topic = topic.isFor s := by
  cases topic with
  | camera => rfl
  | snapshot => exact (Bool.or_self s.snapshot).symm

/-- What becomes of a client when a frame of a topic goes out. A subscriber gets one copy, and waits
for no snapshot afterwards. -/
def Client.afterFrame (topic : Topic) (m : Message) (c : Client) : Option Client :=
  if topic.isFor c.topics then
    (c.afterCopy m).map fun c => { c with topics := { c.topics with snapshot := false } }
  else some c

theorem Client.afterFrame_some {topic : Topic} {m : Message} {c c' : Client}
    (h : c.afterFrame topic m = some c') : c'.id = c.id ∧ c'.topics = c.topics.served := by
  unfold afterFrame at h
  cases hfor : topic.isFor c.topics with
  | true =>
    rw [hfor, if_pos rfl, afterCopy_eq] at h
    obtain ⟨d, hd, rfl⟩ := Option.map_eq_some_iff.mp h
    obtain ⟨-, hd⟩ := Option.ite_none_left_eq_some.mp hd
    cases hd
    exact ⟨rfl, rfl⟩
  | false =>
    rw [hfor] at h
    cases h
    rw [← TopicSet.wants_eq_isFor] at hfor
    exact ⟨rfl, (TopicSet.served_of_wants_eq_false hfor).symm⟩

/-! ## A table in which everybody fares alone -/

namespace ClientTable

section EachClient

variable {t : ClientTable} {g : Client → Option Client}

/-- The table after each client changed, or left, for reasons of its own. -/
def eachClient (t : ClientTable) (g : Client → Option Client) : ClientTable :=
  { t with slots := t.slots.map (Option.bind · g) }

theorem clients_eachClient (t : ClientTable) (g : Client → Option Client) :
    (t.eachClient g).clients = t.clients.filterMap g := by
  rw [clients, eachClient, List.filterMap_map, clients, List.filterMap_filterMap]
  rfl

theorem nodup_ids_eachClient (hn : t.ids.Nodup) (hg : ∀ c c', g c = some c' → c'.id = c.id) :
    (t.eachClient g).ids.Nodup := by
  rw [ids, clients_eachClient, List.Nodup, List.pairwise_map]
  refine List.Pairwise.filterMap g ?_ (List.pairwise_map.mp hn)
  intro c d hne c' hc' d' hd'
  rw [hg c c' hc', hg d d' hd']
  exact hne

/-- Where ids are distinct, a client is found as what has become of it. -/
theorem find?_eachClient (hn : t.ids.Nodup) (hg : ∀ c c', g c = some c' → c'.id = c.id)
    (id : ClientId) : (t.eachClient g).find? id = (t.find? id).bind g := by
  refine Option.ext fun c' => ?_
  rw [find?_eq_some_iff (nodup_ids_eachClient hn hg), clients_eachClient, List.mem_filterMap,
    Option.bind_eq_some_iff]
  simp only [find?_eq_some_iff hn]
  constructor
  · rintro ⟨⟨c, hc, hc'⟩, rfl⟩
    exact ⟨c, ⟨hc, (hg c c' hc').symm⟩, hc'⟩
  · rintro ⟨c, ⟨hc, rfl⟩, hc'⟩
    exact ⟨⟨c, hc, hc'⟩, hg c c' hc'⟩

end EachClient

end ClientTable

namespace Endpoint

/-! ## A frame of a topic -/

section Published

variable {e : Endpoint} {topic : Topic} {bytes : List UInt8}

/-- The local clients that a frame of a topic is for. -/
def subscribed (topic : Topic) (c : Client) : Bool := topic.isFor c.topics

theorem wants_eq_subscribed (topic : Topic) :
    (fun c : Client => c.topics.wants topic) = subscribed topic :=
  funext fun c => c.topics.wants_eq_isFor topic

/-- Whether a frame of a topic is sent through the tunnel: the tunnel is connected, and the far end
is subscribed. -/
def asksFar (e : Endpoint) (topic : Topic) : Bool := e.tunnelConnected && topic.isFor e.tunnelTopics

/-- Whether the copy for the far end gets into the queue of the tunnel. -/
def farSent (e : Endpoint) (topic : Topic) (f : Frame) : Bool :=
  topic.isFor e.tunnelTopics && e.farTakes f

/-- The part of the far end in a report: the copy that got into the queue of the tunnel or was lost,
if the tunnel was asked to send one. -/
def farReport (e : Endpoint) (topic : Topic) (f : Frame) : Report :=
  ⟨(e.farSent topic f).toNat, (e.asksFar topic && !e.farSent topic f).toNat, 0⟩

/-- From one state of an endpoint to another a frame of a topic went to the subscribers, and to
nobody else. -/
structure Published (e : Endpoint) (topic : Topic) (f : Frame) (report : Report) (e' : Endpoint) :
    Prop where
  /-- Each client fares on its own, and every slot stays that of the client it was. -/
  slots : e'.table.slots = e.table.slots.map (Option.bind · (Client.afterFrame topic (.data f)))
  /-- Subscribers whose queues are closed leave, and their connections can still drain what
  waits. -/
  departed : e'.departed =
    ((e.closedOf (subscribed topic)).map fun c => ⟨c.id, c.outbox, false⟩).reverse ++ e.departed
  /-- One notice of each client that leaves, and no other event. -/
  notices : e'.pending.Perm
    (e.pending ++ (e.closedOf (subscribed topic)).map fun c => .disconnected c.id)
  /-- The tunnel is asked to send one copy, or stays as it is. -/
  tunnel : e'.tunnel =
    if e.asksFar topic then e.tunnel.map fun t => (t.sendNow f).2 else e.tunnel
  /-- What waits for the far end is what waited before, and the copy if it was taken. -/
  far : e'.farWaiting = e.farWaiting ++ if e.farSent topic f then [.data f] else []
  /-- Who is subscribed to camera frames stays so, the far end included, and nobody else is. -/
  camera : ∀ id, id.isTunnel = true ∨ id ∈ e'.clientIds →
    e'.hasTopic id .camera = e.hasTopic id .camera
  /-- Nobody waits for a snapshot. -/
  snapshot : ∀ id, e'.hasTopic id .snapshot = false
  /-- Nothing else changes. -/
  rest : e' = { e with
    table := { e.table with slots := e'.table.slots }
    departed := e'.departed
    events := noticed e.events ((e.closedOf (subscribed topic)).map Client.id)
    tunnel := e'.tunnel
    tunnelTopics := { e.tunnelTopics with snapshot := false } }
  delivered : report.delivered =
    (e.table.clients.countP fun c => c.outbox.isOpen && c.outbox.hasRoom && subscribed topic c) +
      (e.farSent topic f).toNat
  dropped : report.dropped =
    (e.table.clients.countP fun c => c.outbox.isOpen && !c.outbox.hasRoom && subscribed topic c) +
      (e.asksFar topic && !e.farSent topic f).toNat
  removed : report.removed = e.table.clients.countP fun c => !c.outbox.isOpen && subscribed topic c
  /-- One attempt for each subscriber, and one for the far end. -/
  total : report.total = e.table.clients.countP (subscribed topic) + (e.asksFar topic).toNat

/-- The local clients after a frame of a topic. -/
theorem serveLocal_eq (hn : e.clientIds.Nodup) (topic : Topic) (bytes : List UInt8) :
    e.serveLocal topic bytes =
      { e with
        table := e.table.eachClient (Client.afterFrame topic (.data (.binary bytes)))
        departed := ((e.closedOf (subscribed topic)).map fun c => ⟨c.id, c.outbox, false⟩).reverse ++
          e.departed
        events := noticed e.events ((e.closedOf (subscribed topic)).map Client.id)
        tunnelTopics := e.tunnelTopics.served } := by
  have hslot (c : Client) : ((if subscribed topic c then c.afterCopy (.data (.binary bytes))
      else some c).map fun c => { c with topics := c.topics.served }) =
        c.afterFrame topic (.data (.binary bytes)) := by
    unfold Client.afterFrame subscribed
    cases hfor : topic.isFor c.topics with
    | true => rfl
    | false =>
      rw [← TopicSet.wants_eq_isFor] at hfor
      simp [TopicSet.served_of_wants_eq_false hfor]
  rw [serveLocal, wants_eq_subscribed, fanOut_eq hn, serveClients, ClientTable.map, List.map_map]
  have hslots : e.table.slots.map (Option.map (fun c => { c with topics := c.topics.served }) ∘
      (Option.bind · fun c => if subscribed topic c then c.afterCopy (.data (.binary bytes))
        else some c)) =
      (e.table.eachClient (Client.afterFrame topic (.data (.binary bytes)))).slots := by
    refine List.map_congr_left fun slot _ => ?_
    cases slot with
    | none => rfl
    | some c => exact hslot c
  rw [hslots]
  rfl

/-- **What a frame of a topic does.** -/
theorem publishTopic_eq (hfits : bytes.length ≤ e.limits.maxBroadcastLength) (topic : Topic) :
    e.publishTopic topic bytes =
      (.ok ((e.fanOut (subscribed topic) (.data (.binary bytes))).1.add
          (e.farReport topic (.binary bytes))),
        { e.serveLocal topic bytes with
          tunnel :=
            if e.asksFar topic then e.tunnel.map fun t => (t.sendNow (.binary bytes)).2
            else e.tunnel }) := by
  have htunnel : (e.serveLocal topic bytes).tunnel = e.tunnel := (far_releaseAll _ _).1
  rw [publishTopic_of_le hfits, wants_eq_subscribed, TopicSet.wants_eq_isFor]
  unfold farReport farSent asksFar
  cases topic.isFor e.tunnelTopics with
  | true =>
    simp only [if_true, forwardToTunnel_eq, farTakes, tunnelConnected, htunnel, Bool.true_and,
      Bool.and_true]
  | false =>
    simp [Report.zero, ← htunnel]

/-- Only a connected tunnel takes a copy. -/
theorem asksFar_of_farSent {f : Frame} (h : e.farSent topic f = true) : e.asksFar topic = true := by
  obtain ⟨hfor, htakes⟩ := Bool.and_eq_true_iff.mp h
  rw [asksFar, hfor, tunnelConnected_of_farTakes htakes]
  rfl

/-- The attempt for the far end is counted once. -/
theorem total_farReport (e : Endpoint) (topic : Topic) (f : Frame) :
    (e.farReport topic f).total = (e.asksFar topic).toNat := by
  have hasks := @asksFar_of_farSent e topic f
  unfold farReport Report.total
  cases hsent : e.farSent topic f with
  | true => simp [hasks hsent]
  | false => simp

theorem farWaiting_of_asksFar (e : Endpoint) (topic : Topic) (f : Frame) :
    (((if e.asksFar topic then e.tunnel.map fun t => (t.sendNow f).2
      else e.tunnel).map Tunnel.waiting).getD []) =
        e.farWaiting ++ if e.farSent topic f then [.data f] else [] := by
  unfold asksFar farSent
  cases topic.isFor e.tunnelTopics with
  | true =>
    have hsent := farWaiting_forwardToTunnel e f
    rw [forwardToTunnel_eq] at hsent
    simp only [Bool.and_true, Bool.true_and]
    exact hsent
  | false => simp [farWaiting]

/-- Whoever is tracked after a frame of a topic was tracked before, and waits for no snapshot. -/
theorem exists_find?_of_afterFrame (hn : e.clientIds.Nodup) {id : ClientId} {m : Message}
    {c' : Client} (h : (e.table.eachClient (Client.afterFrame topic m)).find? id = some c') :
    ∃ c, e.table.find? id = some c ∧ c'.topics = c.topics.served := by
  rw [ClientTable.find?_eachClient hn fun _ _ h => (Client.afterFrame_some h).1] at h
  obtain ⟨c, hc, hc'⟩ := Option.bind_eq_some_iff.mp h
  exact ⟨c, hc, (Client.afterFrame_some hc').2⟩

theorem published_publishTopic (hn : e.clientIds.Nodup)
    (hfits : bytes.length ≤ e.limits.maxBroadcastLength) (topic : Topic) :
    ∃ report e', e.publishTopic topic bytes = (.ok report, e') ∧
      Published e topic (.binary bytes) report e' := by
  have hnotices := pending_noticed_perm e.events (e.closedOf (subscribed topic))
  have htotal := total_fanOut hn (subscribed topic) (.data (.binary bytes))
  refine ⟨_, _, publishTopic_eq hfits topic, ?_⟩
  rw [serveLocal_eq hn, fanOut_eq hn]
  rw [fanOut_eq hn] at htotal
  refine ⟨rfl, rfl, hnotices, rfl, farWaiting_of_asksFar e topic _, fun id hid => ?_, fun id => ?_,
    rfl, rfl, rfl, ?_, ?_⟩
  · unfold hasTopic
    cases hfar : id.isTunnel with
    | true => rfl
    | false =>
      rw [hfar, or_iff_right Bool.false_ne_true] at hid
      obtain ⟨c', hc'⟩ := Option.isSome_iff_exists.mp (ClientTable.find?_isSome_iff.mpr hid)
      obtain ⟨c, hc, htopics⟩ := exists_find?_of_afterFrame hn hc'
      simp only [Bool.false_eq_true, if_false]
      rw [hc', hc, Option.any_some, htopics]
      rfl
  · unfold hasTopic
    cases hfar : id.isTunnel with
    | true => rfl
    | false =>
      simp only [Bool.false_eq_true, if_false, Option.any_eq_false]
      intro c' hc'
      obtain ⟨c, -, htopics⟩ := exists_find?_of_afterFrame hn hc'
      rw [htopics]
      rfl
  · rw [closedOf, ← List.countP_eq_length_filter]
    simp only [Report.add, farReport, Nat.add_zero, Bool.and_comm]
  · rw [Report.total_add, htotal, total_farReport]

/-- **A frame of a topic reaches the subscribers and nobody else.** Where ids are distinct, a frame
within the limit of the endpoint is sent once to each subscriber, and once through the tunnel if it
is connected and the far end is subscribed. The report counts these attempts and no others. A frame
over the limit is refused and changes nothing. -/
theorem publishTopic_reaches (hn : e.clientIds.Nodup) (topic : Topic) (bytes : List UInt8) :
    (bytes.length ≤ e.limits.maxBroadcastLength →
      ∃ report e', e.publishTopic topic bytes = (.ok report, e') ∧
        Published e topic (.binary bytes) report e') ∧
    (e.limits.maxBroadcastLength < bytes.length → e.publishTopic topic bytes =
      (.error (.payloadTooLarge bytes.length e.limits.maxBroadcastLength), e)) :=
  ⟨fun hfits => published_publishTopic hn hfits topic, publishTopic_of_limit_lt⟩

/-- A tunnel that is up, and whose queue is empty. -/
def linkedTunnel : Tunnel :=
  { Tunnel.new "/pier" .usual with
    enabled := true
    state := .registered
    generation := 1
    transport := some ⟨1, { OutboundClient.new with
      config := some { ClientConfig.ofUri "" with bufferSize := TunnelOptions.usual.bufferSize }
      isConnected := true
      outbox := some (.new OutboundClient.outboxDepth) }⟩ }

/-- Two clients are subscribed to all frames, and the queue of one is closed. A third waits for a
snapshot and has no room, and a fourth is not subscribed. The far end waits for a snapshot behind a
tunnel that is up. -/
def mixedSubscribers : Endpoint :=
  let e := ((new "/pier" ⟨4, 8, 8⟩ none).accept (.new 4)).2
  let e := (e.accept ⟨1, [.data (.text "old")], false⟩).2
  let e := (e.accept ⟨1, [.data (.text "old")], true⟩).2
  let e := ((e.accept (.new 4)).2).attachTunnel linkedTunnel
  let e := ((e.setTopic ⟨1⟩ .camera true).2.setTopic ⟨2⟩ .camera true).2
  ((e.setTopic ⟨3⟩ .snapshot true).2.setTopic .tunnel .snapshot true).2

/-- The frame is put into one queue of the local network and into that of the tunnel, lost to one
client and refused by one, and the last client hears nothing. A longer one is refused. -/
theorem publishTopic_reaches_mixed :
    mixedSubscribers.clientIds.Nodup ∧
      [0xab].length ≤ mixedSubscribers.limits.maxBroadcastLength ∧
      ∃ report e', mixedSubscribers.publishTopic .camera [0xab] = (.ok report, e') ∧
        Published mixedSubscribers .camera (.binary [0xab]) report e' ∧ report = ⟨2, 1, 1⟩ ∧
        e'.table.slots = [
          some ⟨⟨1⟩, 0, ⟨true, false⟩, ⟨4, [.data (.binary [0xab])], true⟩⟩,
          none,
          some ⟨⟨3⟩, 2, .empty, ⟨1, [.data (.text "old")], true⟩⟩,
          some ⟨⟨4⟩, 3, .empty, ⟨4, [], true⟩⟩] ∧
        e'.farWaiting = [.data (.binary [0xab])] ∧
        mixedSubscribers.publishTopic .camera (List.replicate 9 0xab) =
          (.error (.payloadTooLarge 9 8), mixedSubscribers) := by
  have hn : mixedSubscribers.clientIds.Nodup := by decide
  have hfits : [0xab].length ≤ mixedSubscribers.limits.maxBroadcastLength := by decide
  obtain ⟨report, e', hsent, hpublished⟩ := (publishTopic_reaches hn .camera [0xab]).1 hfits
  have hrefused := (publishTopic_reaches hn .camera (List.replicate 9 0xab)).2 (by decide)
  refine ⟨hn, hfits, report, e', hsent, hpublished, ?_, ?_, ?_, hrefused⟩
  · obtain ⟨delivered, dropped, removed⟩ := report
    exact congr (congr (congrArg Report.mk hpublished.delivered) hpublished.dropped)
      hpublished.removed
  · rw [hpublished.slots]
    rfl
  · rw [hpublished.far]
    rfl

end Published

end Endpoint

end DeviceRelay
