import DeviceRelay.Proofs.Endpoint.Copies
import DeviceRelay.Proofs.Endpoint.Line

/-!
# What can happen to an endpoint

Clients are admitted and released, frames are sent to one of them or to many, connections read and
hang up, tasks carry notices and the handler takes events, in any order. Whatever the call is, what
it does to the clients and to the line of events is told by who came and who left.

* `Endpoint.Call`, `Endpoint.apply`: what can happen, and the endpoint afterwards.
* `Endpoint.leavers`, `Endpoint.moves`: who is no longer tracked, and what the line is given.
* `Endpoint.Leaving`: what every call respects by which nobody comes.
* `Endpoint.Effect`, `Endpoint.effect_apply`: all that a call can do.
* `Endpoint.Course`, `Endpoint.course`: an endpoint with what happened to it.
-/

namespace DeviceRelay

namespace Endpoint

/-! ## Calls -/

/-- What can happen to an endpoint. A call is one step; the copies of a frame to many clients may
also go out one by one, with other calls in between. -/
inductive Call where
  | accept (outbox : BoundedQueue Message)
  | release (id : ClientId)
  | closeAll
  | sendTo (id : ClientId) (f : Frame)
  | broadcast (f : Frame)
  | publish (f : Frame)
  | publishTopic (topic : Topic) (bytes : List UInt8)
  | copyTo (id : ClientId) (m : Message)
  | setTopic (id : ClientId) (topic : Topic) (on : Bool)
  | deliver (id : ClientId) (f : Frame)
  | deliverFromTunnel (f : Frame)
  /-- A tunnel is attached, or the attached one has moved on. -/
  | attachTunnel (t : Tunnel)
  /-- A connection reads some messages of its queue. -/
  | read (id : ClientId) (count : Nat)
  | hangUp (id : ClientId)
  /-- The task that carries a notice runs. -/
  | carry (index : Nat)
  /-- The handler takes the next event. -/
  | handle
  deriving DecidableEq, Repr

/-- Whether a client that leaves is told to end its connection. -/
def Call.expels : Call → Bool
  | .accept _ | .closeAll => true
  | _ => false

def apply (e : Endpoint) : Call → Endpoint
  | .accept outbox => (e.accept outbox).2
  | .release id => (e.release id).2
  | .closeAll => e.closeAll.2
  | .sendTo id f => (e.sendTo id f).2
  | .broadcast f => (e.broadcast f).2
  | .publish f => (e.publish f).2
  | .publishTopic topic bytes => (e.publishTopic topic bytes).2
  | .copyTo id m => e.copyTo id m
  | .setTopic id topic on => (e.setTopic id topic on).2
  | .deliver id f => e.deliver id f
  | .deliverFromTunnel f => e.deliverFromTunnel f
  | .attachTunnel t => e.attachTunnel t
  | .read id count => e.setOutbox id fun q => { q with waiting := q.waiting.drop count }
  | .hangUp id => e.hangUp id
  | .carry index => { e with events := e.events.move (.carry index) }
  | .handle => { e with events := e.events.move .take }

/-- The client that a call admits. -/
def arrivals (e : Endpoint) : Call → List ClientId
  | .accept outbox => [(e.accept outbox).1]
  | _ => []

/-- The clients that are tracked before a call and not after it, in the order of their slots. -/
def leavers (e : Endpoint) (c : Call) : List ClientId :=
  e.clientIds.filter fun id => id ∉ (e.apply c).clientIds

/-- What a call does to the line of events, after the notices of those who leave. -/
def lineMoves (e : Endpoint) : Call → List EventLine.Move
  | .accept outbox => [.notify (.connected (e.accept outbox).1)]
  | .deliver id f =>
    if id.isTunnel = true ∨ id ∈ e.clientIds then [.enqueue (.frame id f)] else []
  | .deliverFromTunnel f => [.offer (.frame .tunnel f)]
  | .carry index => [.carry index]
  | .handle => [.take]
  | _ => []

/-- What a call does to the line of events: it gives notice of everybody who leaves, and then of
the client that comes, or hands on a frame. -/
def moves (e : Endpoint) (c : Call) : List EventLine.Move :=
  (e.leavers c).map (fun id => .notify (.disconnected id)) ++ e.lineMoves c

/-! ## Clients that leave -/

/-- What is remembered of a client that has left: whether it was told to end. -/
def mark (d : Departed) : ClientId × Bool := (d.id, d.shutOut)

/-- The line after notice was given of some clients that left. -/
def noticed (l : EventLine) (gone : List ClientId) : EventLine :=
  gone.foldl (fun l id => l.notify (.disconnected id)) l

/-- Some clients have left, one after the other, and nobody came. -/
structure Departs (expelled : Bool) (gone : List ClientId) (e e' : Endpoint) : Prop where
  nextId : e'.nextId = e.nextId
  nextSeq : e'.table.nextSeq = e.table.nextSeq
  slots : e'.table.slots.length = e.table.slots.length
  tags : e'.table.tags = e.table.tags.filter fun tag => tag.1 ∉ gone
  departed : e'.departed.map mark =
    (gone.map fun id => (id, expelled)).reverse ++ e.departed.map mark
  events : e'.events = noticed e.events gone

/-- The clients are the same as before, whatever became of their queues and subscriptions. -/
structure Keeps (e e' : Endpoint) : Prop where
  limits : e'.limits = e.limits
  nextId : e'.nextId = e.nextId
  nextSeq : e'.table.nextSeq = e.table.nextSeq
  slots : e'.table.slots.length = e.table.slots.length
  tags : e'.table.tags = e.table.tags
  departed : e'.departed.map mark = e.departed.map mark
  events : e'.events = e.events

section Departs

variable {expelled : Bool} {gone gone' : List ClientId} {e e' e'' : Endpoint}

theorem Keeps.refl (e : Endpoint) : Keeps e e := ⟨rfl, rfl, rfl, rfl, rfl, rfl, rfl⟩

theorem Keeps.trans (h : Keeps e e') (h' : Keeps e' e'') : Keeps e e'' :=
  ⟨h'.limits.trans h.limits, h'.nextId.trans h.nextId, h'.nextSeq.trans h.nextSeq,
    h'.slots.trans h.slots, h'.tags.trans h.tags, h'.departed.trans h.departed,
    h'.events.trans h.events⟩

theorem Keeps.departs (h : Keeps e e') : Departs expelled [] e e' where
  nextId := h.nextId
  nextSeq := h.nextSeq
  slots := h.slots
  tags := by simp [h.tags]
  departed := by simp [h.departed]
  events := h.events

theorem Departs.trans (h : Departs expelled gone e e') (h' : Departs expelled gone' e' e'') :
    Departs expelled (gone ++ gone') e e'' where
  nextId := h'.nextId.trans h.nextId
  nextSeq := h'.nextSeq.trans h.nextSeq
  slots := h'.slots.trans h.slots
  tags := by
    rw [h'.tags, h.tags, List.filter_filter]
    refine List.filter_congr fun tag _ => ?_
    simp [Bool.and_comm]
  departed := by
    rw [h'.departed, h.departed, List.map_append, List.reverse_append, List.append_assoc]
  events := by rw [h'.events, h.events, noticed, noticed, noticed, List.foldl_append]

theorem Departs.ids (h : Departs expelled gone e e') :
    e'.clientIds = e.clientIds.filter fun id => id ∉ gone := by
  simp only [clientIds, ClientTable.ids_eq_map_tags, h.tags, List.filter_map]
  rfl

end Departs

/-! ## Calls that keep everybody -/

theorem keeps_modify (e : Endpoint) (id : ClientId) {f : Client → Client}
    (hf : ∀ c, (f c).tag = c.tag) : Keeps e { e with table := e.table.modify id f } where
  limits := rfl
  nextId := rfl
  nextSeq := rfl
  slots := ClientTable.length_slots_modify e.table id f
  tags := ClientTable.tags_modify hf e.table id
  departed := rfl
  events := rfl

theorem keeps_map (e : Endpoint) {f : Client → Client} (hf : ∀ c, (f c).tag = c.tag) :
    Keeps e { e with table := e.table.map f } where
  limits := rfl
  nextId := rfl
  nextSeq := rfl
  slots := by simp [ClientTable.map]
  tags := ClientTable.tags_map hf e.table
  departed := rfl
  events := rfl

theorem keeps_setOutbox (e : Endpoint) (id : ClientId)
    (f : BoundedQueue Message → BoundedQueue Message) : Keeps e (e.setOutbox id f) := by
  unfold setOutbox
  split
  · exact keeps_modify e id fun _ => rfl
  · refine ⟨rfl, rfl, rfl, rfl, rfl, ?_, rfl⟩
    rw [List.map_map]
    refine List.map_congr_left fun d _ => ?_
    rw [Function.comp_apply]
    split <;> rfl

theorem keeps_setTopic (e : Endpoint) (id : ClientId) (topic : Topic) (on : Bool) :
    Keeps e (e.setTopic id topic on).2 := by
  unfold setTopic
  split
  · split
    · exact ⟨rfl, rfl, rfl, rfl, rfl, rfl, rfl⟩
    · exact .refl e
  · split
    · exact keeps_modify e id fun _ => rfl
    · exact .refl e

theorem keeps_forwardToTunnel (e : Endpoint) (f : Frame) : Keeps e (e.forwardToTunnel f).2 := by
  unfold forwardToTunnel
  split
  · exact .refl e
  · split
    · split <;> exact ⟨rfl, rfl, rfl, rfl, rfl, rfl, rfl⟩
    · exact .refl e

theorem keeps_sendToTunnel (e : Endpoint) (f : Frame) : Keeps e (e.sendToTunnel f).2 := by
  unfold sendToTunnel
  split
  · exact .refl e
  · exact ⟨rfl, rfl, rfl, rfl, rfl, rfl, rfl⟩

/-! ## Calls by which clients leave -/

theorem departs_release {e : Endpoint} (hn : e.clientIds.Nodup) {id : ClientId}
    (h : id ∈ e.clientIds) : Departs false [id] e (e.release id).2 := by
  obtain ⟨c, hc⟩ := Option.isSome_iff_exists.mp (ClientTable.find?_isSome_iff.mpr h)
  rw [release_of_find? hc]
  refine ⟨rfl, ClientTable.nextSeq_remove e.table id, ClientTable.length_slots_remove e.table id,
    ?_, by simp [mark], rfl⟩
  refine (congrArg (List.map Client.tag) (ClientTable.clients_remove hn id)).trans ?_
  simp only [ClientTable.tags, List.filter_map, List.mem_singleton]
  rfl

theorem departs_releaseAll {e : Endpoint} (hn : e.clientIds.Nodup) {ids : List ClientId}
    (h : ids.Sublist e.clientIds) : Departs false ids e (e.releaseAll ids).2 := by
  rw [releaseAll_snd]
  have hids : ids.Nodup := h.nodup hn
  have hmem := h.subset
  clear h
  induction ids generalizing e with
  | nil => exact (Keeps.refl e).departs
  | cons id ids ih =>
    obtain ⟨hid, hids⟩ := List.nodup_cons.mp hids
    have hfirst := departs_release hn (hmem List.mem_cons_self)
    have hrest : ids ⊆ (e.release id).2.clientIds := by
      intro other ho
      rw [hfirst.ids]
      refine List.mem_filter.mpr ⟨hmem (List.mem_cons_of_mem _ ho), ?_⟩
      have hne : other ≠ id := fun heq => hid (heq ▸ ho)
      simpa using hne
    exact hfirst.trans (ih (hfirst.ids ▸ hn.filter _) hids hrest)

/-- What closing some clients one after the other comes to. -/
theorem foldl_depart (last : Message) (cs : List Client) (e : Endpoint) :
    cs.foldl (fun e c =>
        { e with departed := depart c last :: e.departed }.notify (.disconnected c.id)) e =
      { e with
        departed := (cs.map fun c => depart c last).reverse ++ e.departed
        events := noticed e.events (cs.map Client.id) } := by
  induction cs generalizing e with
  | nil => rfl
  | cons c cs ih =>
    rw [List.foldl_cons, ih, List.map_cons, List.reverse_cons, List.append_assoc]
    rfl

theorem departs_closeAll (e : Endpoint) : Departs true e.clientIds e e.closeAll.2 := by
  unfold closeAll
  dsimp only
  rw [foldl_depart]
  refine ⟨rfl, rfl, by simp [ClientTable.cleared], ?_, ?_, rfl⟩
  · have hnone : ∀ tag ∈ e.table.tags, ¬ tag.1 ∉ e.clientIds := by
      intro tag h
      rw [clientIds, ClientTable.ids_eq_map_tags]
      exact not_not_intro (List.mem_map_of_mem h)
    rw [List.filter_eq_nil_iff.mpr fun tag h => by simpa using hnone tag h]
    exact congrArg (List.map Client.tag) (ClientTable.clients_cleared e.table)
  · rw [List.map_append, List.map_reverse, List.map_map, clientIds, ClientTable.ids, List.map_map]
    rfl

/-- A relation between an endpoint before and after that holds where clients may leave of their own
accord, whatever becomes of queues and subscriptions. -/
structure Leaving (R : Endpoint → Endpoint → Prop) (e : Endpoint) : Prop where
  keeps : ∀ {e'}, Keeps e e' → R e e'
  andKeeps : ∀ {e' e''}, R e e' → Keeps e' e'' → R e e''
  release : ∀ id, R e (e.release id).2
  fanOut : ∀ wanted m, R e (e.fanOut wanted m).2

namespace Leaving

variable {R : Endpoint → Endpoint → Prop} {e : Endpoint}

theorem refl (h : Leaving R e) : R e e := h.keeps (.refl e)

theorem broadcast (h : Leaving R e) (f : Frame) : R e (e.broadcast f).2 := by
  unfold Endpoint.broadcast
  split
  · exact h.refl
  · exact h.fanOut _ _

theorem publish (h : Leaving R e) (f : Frame) : R e (e.publish f).2 := by
  have hb := h.broadcast f
  unfold Endpoint.publish
  split
  · rename_i heq
    rw [heq] at hb
    exact hb
  · rename_i heq
    rw [heq] at hb
    exact h.andKeeps hb (keeps_forwardToTunnel _ f)

theorem publishTopic (h : Leaving R e) (topic : Topic) (bytes : List UInt8) :
    R e (e.publishTopic topic bytes).2 := by
  unfold Endpoint.publishTopic
  dsimp only
  split
  · exact h.refl
  · have hserved (e : Endpoint) :
        Keeps e { e.serveClients with tunnelTopics := e.serveClients.tunnelTopics.served } :=
      (keeps_map e (f := fun c => { c with topics := c.topics.served }) fun _ => rfl).trans
        ⟨rfl, rfl, rfl, rfl, rfl, rfl, rfl⟩
    have hout := h.andKeeps
      (h.fanOut (fun c => c.topics.wants topic) (.data (.binary bytes))) (hserved _)
    split
    · exact h.andKeeps hout (keeps_forwardToTunnel _ _)
    · exact hout

theorem startSendTo (h : Leaving R e) (id : ClientId) (f : Frame) :
    R e (e.startSendTo id f).2 := by
  unfold Endpoint.startSendTo
  split
  · exact h.refl
  · split
    · exact h.refl
    · split
      · exact h.refl
      · split
        · apply h.keeps
          exact keeps_modify e id fun _ => rfl
        · exact h.refl
        · exact h.release id

theorem sendTo (h : Leaving R e) (id : ClientId) (f : Frame) : R e (e.sendTo id f).2 := by
  have hstart := h.startSendTo id f
  unfold Endpoint.sendTo
  split
  · rename_i heq
    rw [heq] at hstart
    exact hstart
  · rename_i heq
    rw [heq] at hstart
    exact h.andKeeps hstart (keeps_sendToTunnel _ _)

theorem copyTo (h : Leaving R e) (id : ClientId) (m : Message) : R e (e.copyTo id m) := by
  unfold Endpoint.copyTo
  split
  · exact h.refl
  · split
    · exact h.release id
    · exact h.keeps (keeps_setOutbox e id _)

end Leaving

theorem deliver_eq (e : Endpoint) (id : ClientId) (f : Frame) :
    e.deliver id f =
      { e with events := (e.lineMoves (.deliver id f)).foldl EventLine.move e.events } := by
  unfold deliver
  rw [lineMoves]
  by_cases h : id.isTunnel = true ∨ id ∈ e.clientIds
  · rw [if_pos h, if_neg]
    · rfl
    · rcases h with h | h
      · simp [h]
      · rw [Option.isNone_eq_false_iff.mpr (ClientTable.find?_isSome_iff.mpr h)]
        simp
  · rw [if_neg h, if_pos]
    · rfl
    · rw [not_or] at h
      rw [ClientTable.find?_eq_none_iff.mpr h.2, eq_false_of_ne_true h.1]
      rfl

/-- But for an admission and for the end of all clients, nobody comes by a call and clients leave
of their own accord; then the call has its own effect on the line. -/
theorem Leaving.apply {R : Endpoint → Endpoint → Prop} {e : Endpoint} (h : Leaving R e) {c : Call}
    (hc : c.expels = false) :
    ∃ e', R e e' ∧
      e.apply c = { e' with events := (e.lineMoves c).foldl EventLine.move e'.events } := by
  cases c with
  | accept outbox => cases hc
  | closeAll => cases hc
  | release id => exact ⟨_, h.release id, rfl⟩
  | sendTo id f => exact ⟨_, h.sendTo id f, rfl⟩
  | broadcast f => exact ⟨_, h.broadcast f, rfl⟩
  | publish f => exact ⟨_, h.publish f, rfl⟩
  | publishTopic topic bytes => exact ⟨_, h.publishTopic topic bytes, rfl⟩
  | copyTo id m => exact ⟨_, h.copyTo id m, rfl⟩
  | setTopic id topic on => exact ⟨_, h.keeps (keeps_setTopic e id topic on), rfl⟩
  | deliver id f => exact ⟨e, h.refl, deliver_eq e id f⟩
  | deliverFromTunnel f => exact ⟨e, h.refl, rfl⟩
  | attachTunnel t => exact ⟨e.attachTunnel t, h.keeps ⟨rfl, rfl, rfl, rfl, rfl, rfl, rfl⟩, rfl⟩
  | read id count =>
    have hkeeps := keeps_setOutbox e id fun q => { q with waiting := q.waiting.drop count }
    exact ⟨_, h.keeps hkeeps, rfl⟩
  | hangUp id => exact ⟨_, h.keeps (keeps_setOutbox e id _), rfl⟩
  | carry index => exact ⟨e, h.refl, rfl⟩
  | handle => exact ⟨e, h.refl, rfl⟩

/-! ## Who leaves -/

/-- Some clients may have left of their own accord. -/
def Loses (e e' : Endpoint) : Prop :=
  ∃ gone, gone.Sublist e.clientIds ∧ Departs false gone e e'

section Loses

variable {e e' e'' : Endpoint}

theorem Keeps.loses (h : Keeps e e') : Loses e e' := ⟨[], List.nil_sublist _, h.departs⟩

theorem Loses.keeps (h : Loses e e') (h' : Keeps e' e'') : Loses e e'' := by
  obtain ⟨gone, hsub, hd⟩ := h
  exact ⟨gone, hsub, List.append_nil gone ▸ hd.trans h'.departs⟩

theorem loses_release (hn : e.clientIds.Nodup) (id : ClientId) : Loses e (e.release id).2 := by
  by_cases h : id ∈ e.clientIds
  · exact ⟨[id], List.singleton_sublist.mpr h, departs_release hn h⟩
  · rw [release_of_not_mem h]
    exact (Keeps.refl e).loses

/-- The clients whose queues turn out to be closed are the ones to leave. -/
theorem loses_fanOut (hn : e.clientIds.Nodup) (wanted : Client → Bool) (m : Message) :
    Loses e (e.fanOut wanted m).2 := by
  have hkeeps := keeps_map e (f := fun c =>
    if wanted c then { c with outbox := (c.outbox.push m).2 } else c) fun c => by split <;> rfl
  have hids := (hkeeps.departs : Departs false [] e _).ids
  rw [List.filter_eq_self.mpr (by simp)] at hids
  have hgone : (((e.table.clients.filter wanted).filter fun c =>
      (c.outbox.push m).1 = .closed).map Client.id).Sublist e.clientIds :=
    (List.filter_sublist.trans List.filter_sublist).map Client.id
  exact ⟨_, hgone, hkeeps.departs.trans (departs_releaseAll (hids ▸ hn) (hids ▸ hgone))⟩

/-- Where ids are distinct, it is told exactly who leaves. -/
theorem leaving_loses (hn : e.clientIds.Nodup) : Leaving Loses e where
  keeps := Keeps.loses
  andKeeps := Loses.keeps
  release := loses_release hn
  fanOut := loses_fanOut hn

end Loses

/-! ## Admissions -/

/-- The client that has to go for a new one. -/
def evicted (e : Endpoint) (outbox : BoundedQueue Message) : Option Client :=
  (e.table.insert (e.accept outbox).1 outbox).1

theorem accept_snd (e : Endpoint) (outbox : BoundedQueue Message) :
    (e.accept outbox).2 =
      { e with
        nextId := (allocateId e.nextId).2
        table := (e.table.insert (e.accept outbox).1 outbox).2
        departed :=
          ((e.evicted outbox).map fun c => depart c (evictionNotice e.limits)).toList ++ e.departed
        events := (noticed e.events ((e.evicted outbox).map Client.id).toList).notify
          (.connected (e.accept outbox).1) } := by
  have hid : (e.accept outbox).1 = (allocateId e.nextId).1 := rfl
  unfold evicted
  rw [hid]
  unfold accept
  dsimp only
  cases (e.table.insert (allocateId e.nextId).1 outbox).1 <;> rfl

/-- **Who goes for a new client.** Where a slot is free nobody does; otherwise the client that came
first. The new one has no subscriptions. -/
theorem accept_cases {e : Endpoint} (hpos : 0 < e.table.slots.length) (hn : e.clientIds.Nodup)
    (hseq : (e.table.clients.map Client.seq).Nodup) (outbox : BoundedQueue Message) :
    let new : Client := ⟨(e.accept outbox).1, e.table.nextSeq, .empty, outbox⟩
    (e.clientCount < e.table.slots.length ∧ e.evicted outbox = none ∧
      (e.accept outbox).2.table.clients.Perm (new :: e.table.clients)) ∨
    (e.clientCount = e.table.slots.length ∧ ∃ old, e.evicted outbox = some old ∧
      old ∈ e.table.clients ∧ (∀ c ∈ e.table.clients, old.seq ≤ c.seq) ∧
      (e.accept outbox).2.table.clients.Perm
        (new :: e.table.clients.filter fun c => c.id ≠ old.id)) := by
  have htable : (e.accept outbox).2.table = (e.table.insert (e.accept outbox).1 outbox).2 := by
    rw [accept_snd]
  rw [htable]
  rcases ClientTable.insert_cases hpos hseq (e.accept outbox).1 outbox with
    h | ⟨hsize, old, hold, hmem, hle, hperm⟩
  · exact .inl h
  · refine .inr ⟨hsize, old, hold, hmem, hle, hperm.trans (.of_eq ?_)⟩
    -- Among tracked clients, one number of arrival and one id are the same thing.
    refine congrArg _ (List.filter_congr fun c hc => ?_)
    have hiff : c.seq = old.seq ↔ c.id = old.id :=
      ⟨fun h => congrArg Client.id (List.inj_on_of_nodup_map hseq hc hmem h),
        fun h => congrArg Client.seq (List.inj_on_of_nodup_map hn hc hmem h)⟩
    simp [hiff]

/-! ## All that a call can do -/

private theorem filter_mem_eq {α : Type} [DecidableEq α] {l l' : List α} (h : l.Sublist l')
    (hn : l'.Nodup) : l'.filter (fun a => a ∈ l) = l := by
  induction h with
  | slnil => rfl
  | @cons l l' a h ih =>
    obtain ⟨ha, hn⟩ := List.nodup_cons.mp hn
    rw [List.filter_cons_of_neg (by simpa using fun hl => ha (h.subset hl)), ih hn]
  | @cons_cons l l' a h ih =>
    obtain ⟨ha, hn⟩ := List.nodup_cons.mp hn
    have hrest : l'.filter (fun x => x ∈ a :: l) = l'.filter fun x => x ∈ l := by
      refine List.filter_congr fun x hx => ?_
      have hne : x ≠ a := fun heq => ha (heq ▸ hx)
      simp [hne]
    rw [List.filter_cons_of_pos (by simp), hrest, ih hn]

theorem leavers_eq {e : Endpoint} (hn : e.clientIds.Nodup) {c : Call} {gone : List ClientId}
    (hsub : gone.Sublist e.clientIds)
    (h : ∀ id ∈ e.clientIds, id ∈ (e.apply c).clientIds ↔ id ∉ gone) : e.leavers c = gone := by
  refine Eq.trans (List.filter_congr fun id hid => ?_) (filter_mem_eq hsub hn)
  simp [h id hid]

theorem arrivals_eq_nil (e : Endpoint) {c : Call} (hc : c.expels = false) : e.arrivals c = [] := by
  cases c with
  | accept outbox => cases hc
  | _ => rfl

/-- What a call does to the clients and to the line of events. -/
structure Effect (e : Endpoint) (c : Call) : Prop where
  slots : (e.apply c).table.slots.length = e.table.slots.length
  nextId : (e.apply c).nextId =
    if (e.arrivals c).isEmpty then e.nextId else (allocateId e.nextId).2
  nextSeq : (e.apply c).table.nextSeq = e.table.nextSeq + (e.arrivals c).length
  tags : (e.apply c).table.tags.Perm
    ((e.arrivals c).map (fun id => (id, e.table.nextSeq)) ++
      e.table.tags.filter fun tag => tag.1 ∉ e.leavers c)
  departed : (e.apply c).departed.map mark =
    ((e.leavers c).map fun id => (id, c.expels)).reverse ++ e.departed.map mark
  events : (e.apply c).events = (e.moves c).foldl EventLine.move e.events

section Effect

variable {e : Endpoint} {c : Call}

theorem Effect.ids (h : Effect e c) : (e.apply c).clientIds.Perm
    (e.arrivals c ++ e.clientIds.filter fun id => id ∉ e.leavers c) := by
  have hperm := h.tags.map Prod.fst
  rw [List.map_append, List.map_map] at hperm
  rw [clientIds, clientIds, ClientTable.ids_eq_map_tags, ClientTable.ids_eq_map_tags,
    List.filter_map]
  refine hperm.trans (.of_eq (congrArg (· ++ _) ?_))
  exact List.map_id' (e.arrivals c)

theorem Effect.departed_ids (h : Effect e c) : (e.apply c).departed.map Departed.id =
    (e.leavers c).reverse ++ e.departed.map Departed.id := by
  have hids := congrArg (List.map Prod.fst) h.departed
  rw [List.map_append, List.map_reverse, List.map_map, List.map_map, List.map_map] at hids
  refine hids.trans (congrArg (fun l => List.reverse l ++ _) ?_)
  exact List.map_id' (e.leavers c)

/-- Those who stay and those who leave are all the clients. -/
theorem stay_append_leavers_perm (e : Endpoint) (c : Call) :
    ((e.clientIds.filter fun id => id ∉ e.leavers c) ++ e.leavers c).Perm e.clientIds := by
  have hstay : (e.clientIds.filter fun id => id ∉ e.leavers c) =
      e.clientIds.filter fun id => !decide (id ∉ (e.apply c).clientIds) := by
    refine List.filter_congr fun id hid => ?_
    simp [leavers, hid]
  rw [hstay]
  exact List.perm_append_comm.trans (List.filter_append_perm _ _)

end Effect

theorem noticed_eq (l : EventLine) (gone : List ClientId) :
    noticed l gone = (gone.map fun id => .notify (.disconnected id)).foldl EventLine.move l := by
  rw [noticed, List.foldl_map]
  rfl

/-- Clients that leave are all that a call has to tell about, besides its own event. -/
theorem effect_of_departs {e e' : Endpoint} (hn : e.clientIds.Nodup) {c : Call}
    {gone : List ClientId} (hsub : gone.Sublist e.clientIds) (hd : Departs c.expels gone e e')
    (harr : e.arrivals c = [])
    (heq : e.apply c = { e' with events := (e.lineMoves c).foldl EventLine.move e'.events }) :
    Effect e c := by
  have hids : (e.apply c).clientIds = e.clientIds.filter fun id => id ∉ gone := by
    rw [heq]
    exact hd.ids
  have hgone : e.leavers c = gone := by
    refine leavers_eq hn hsub fun id hid => ?_
    simp [hids, hid]
  have htags : (e.apply c).table.tags = e.table.tags.filter fun tag => tag.1 ∉ gone := by
    rw [heq]
    exact hd.tags
  refine ⟨?_, ?_, ?_, ?_, ?_, ?_⟩
  · rw [heq]
    exact hd.slots
  · rw [heq, harr]
    exact hd.nextId
  · rw [heq, harr]
    exact hd.nextSeq
  · rw [htags, harr, hgone]
    exact .refl _
  · rw [heq, hgone]
    exact hd.departed
  · rw [heq, moves, List.foldl_append, hgone, ← noticed_eq, ← hd.events]

/-- Where a client has to go for a new one, notice is given of both. -/
theorem effect_accept {e : Endpoint} (hpos : 0 < e.table.slots.length) (hn : e.clientIds.Nodup)
    (hseq : (e.table.clients.map Client.seq).Nodup) (outbox : BoundedQueue Message)
    (hfresh : (e.accept outbox).1 ∉ e.clientIds) :
    Effect e (.accept outbox) ∧
      e.leavers (.accept outbox) = ((e.evicted outbox).map Client.id).toList := by
  obtain ⟨gone, hgone⟩ : ∃ gone, gone = ((e.evicted outbox).map Client.id).toList := ⟨_, rfl⟩
  have hsub : gone.Sublist e.clientIds := by
    rcases accept_cases hpos hn hseq outbox with ⟨-, h, -⟩ | ⟨-, old, h, hmem, -, -⟩
    · simp [hgone, h]
    · have hid : old.id ∈ e.clientIds := List.mem_map_of_mem hmem
      simpa [hgone, h] using hid
  have hclients : (e.accept outbox).2.table.clients.Perm
      (⟨(e.accept outbox).1, e.table.nextSeq, .empty, outbox⟩ ::
        e.table.clients.filter fun c => c.id ∉ gone) := by
    rcases accept_cases hpos hn hseq outbox with ⟨-, h, hperm⟩ | ⟨-, old, h, -, -, hperm⟩
    · simpa [hgone, h] using hperm
    · simpa [hgone, h] using hperm
  have htags : (e.accept outbox).2.table.tags.Perm
      (((e.accept outbox).1, e.table.nextSeq) :: e.table.tags.filter fun tag => tag.1 ∉ gone) := by
    refine (hclients.map Client.tag).trans (.of_eq ?_)
    rw [List.map_cons, ClientTable.tags, List.filter_map]
    rfl
  have hids : ∀ id, id ∈ (e.accept outbox).2.clientIds ↔
      id = (e.accept outbox).1 ∨ id ∈ e.clientIds ∧ id ∉ gone := by
    intro id
    rw [clientIds, ClientTable.ids, (hclients.map Client.id).mem_iff, List.map_cons, List.mem_cons,
      clientIds, ClientTable.ids]
    simp only [List.mem_map, List.mem_filter, decide_eq_true_eq]
    grind
  have hleavers : e.leavers (.accept outbox) = gone := by
    refine leavers_eq hn hsub fun id hid => ?_
    have hne : id ≠ (e.accept outbox).1 := fun h => hfresh (h ▸ hid)
    simp [apply, hids, hid, hne]
  refine ⟨⟨?_, ?_, ?_, ?_, ?_, ?_⟩, hleavers.trans hgone⟩
  · rw [apply, accept_snd]
    exact ClientTable.length_slots_insert _ _ _
  · rw [apply, accept_snd]
    rfl
  · rw [apply, accept_snd]
    exact ClientTable.nextSeq_insert _ _ _
  · rw [hleavers]
    exact htags
  · rw [hleavers, hgone, apply, accept_snd]
    cases e.evicted outbox <;> rfl
  · rw [moves, List.foldl_append, hleavers, ← noticed_eq, hgone, apply, accept_snd]
    rfl

/-- **All that a call can do** is to let one client in and some out, to remember of those whether
they had to go, and to tell the line of it. -/
theorem effect_apply {e : Endpoint} (hpos : 0 < e.table.slots.length) (hn : e.clientIds.Nodup)
    (hseq : (e.table.clients.map Client.seq).Nodup) {c : Call}
    (hfresh : ∀ id ∈ e.arrivals c, id ∉ e.clientIds) : Effect e c := by
  cases hc : c.expels with
  | false =>
    obtain ⟨e', ⟨gone, hsub, hd⟩, heq⟩ := (leaving_loses hn).apply hc
    exact effect_of_departs hn hsub (hc ▸ hd) (arrivals_eq_nil e hc) heq
  | true =>
    cases c with
    | accept outbox => exact (effect_accept hpos hn hseq outbox (hfresh _ (by simp [arrivals]))).1
    | closeAll => exact effect_of_departs hn (.refl _) (departs_closeAll e) rfl rfl
    | _ => cases hc

/-! ## A course of calls -/

/-- An endpoint, and what has happened to it. -/
structure Course where
  endpoint : Endpoint
  /-- The clients that came, in the order of their admission. -/
  admitted : List ClientId
  /-- The clients that left because they had to, in the order of their leaving. -/
  expelled : List ClientId
  /-- The events that the handler took. -/
  handled : List EndpointEvent
  /-- What the line of events was given, in the order in which it was produced. -/
  moves : List EventLine.Move
  deriving DecidableEq, Repr

def Course.next (s : Course) (c : Call) : Course where
  endpoint := s.endpoint.apply c
  admitted := s.admitted ++ s.endpoint.arrivals c
  expelled := s.expelled ++ if c.expels then s.endpoint.leavers c else []
  handled := s.handled ++
    if c = .handle then (s.endpoint.events.pop.map Prod.fst).toList else []
  moves := s.moves ++ s.endpoint.moves c

/-- What comes of some calls. -/
def course (e : Endpoint) (calls : List Call) : Course :=
  calls.foldl Course.next ⟨e, [], [], [], []⟩

theorem course_append_singleton (e : Endpoint) (calls : List Call) (c : Call) :
    course e (calls ++ [c]) = (course e calls).next c := by
  rw [course, List.foldl_append]
  rfl

theorem length_admitted_le (e : Endpoint) (before after : List Call) :
    (course e before).admitted.length ≤ (course e (before ++ after)).admitted.length := by
  induction after using List.reverseRecOn with
  | nil => exact Nat.le_of_eq (by rw [List.append_nil])
  | append_singleton after c ih =>
    rw [← List.append_assoc, course_append_singleton, Course.next, List.length_append]
    exact Nat.le_add_right_of_le ih

end Endpoint

end DeviceRelay
