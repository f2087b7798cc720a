import DeviceRelay.Proofs.Endpoint.Broadcast

/-!
# What commands see of an endpoint

A command asks an endpoint who is tracked and who is subscribed. What waits for clients and for the
handler, who has left, and how the tunnel gets on do not count. Whatever happens to an endpoint,
what counts afterwards depends on what counted before, and not on the contents of a copy for a
client.

* `Endpoint.bare`: an endpoint without all that does not count.
* `Endpoint.bare_apply_congr`: what counts after a call.
-/

namespace DeviceRelay

/-- Whether a queue is closed, whatever waits in it. -/
theorem BoundedQueue.push_closed_iff {α : Type} {q : BoundedQueue α} {a : α} :
    (q.push a).1 = .closed ↔ q.isOpen = false := by
  unfold push
  cases q.isOpen with
  | false => exact iff_of_true rfl rfl
  | true =>
    refine iff_of_false ?_ nofun
    rw [if_neg (by decide)]
    split <;> nofun

theorem BoundedQueue.push_ne_closed {α : Type} {q : BoundedQueue α} (h : q.isOpen = true) (a : α) :
    (q.push a).1 ≠ .closed := by
  rw [ne_eq, push_closed_iff, h]
  decide

/-- The client with nothing waiting for it. -/
def Client.bare (c : Client) : Client := { c with outbox := { c.outbox with waiting := [] } }

theorem Client.bare_push (c : Client) (m : Message) :
    ({ c with outbox := (c.outbox.push m).2 } : Client).bare = c.bare := by
  obtain hpush | ⟨-, hpush⟩ := c.outbox.push_cases m
  · rw [hpush]
    rfl
  · rw [hpush]

/-! ## Tables -/

namespace ClientTable

/-- The table with nothing waiting for its clients. -/
def bare (t : ClientTable) : ClientTable := t.map Client.bare

theorem bare_find? (t : ClientTable) (id : ClientId) :
    t.bare.find? id = (t.find? id).map Client.bare :=
  find?_map (f := Client.bare) (fun _ => rfl) t id

theorem bare_remove (t : ClientTable) (id : ClientId) :
    (t.remove id).2.bare = (t.bare.remove id).2 := by
  rw [bare, bare, remove_map (f := Client.bare) (fun _ => rfl)]

theorem bare_cleared (t : ClientTable) : t.cleared.bare = t.bare.cleared := by
  simp only [bare, cleared, map, List.map_map, Function.comp_def, Option.map_none]

/-- A change of all clients that concerns only what waits. -/
theorem bare_map_self {f : Client → Client} (hf : ∀ c, (f c).bare = c.bare) (t : ClientTable) :
    (t.map f).bare = t.bare := by
  rw [bare, map_map]
  exact map_congr fun c _ => hf c

/-- A change of all clients that does not look at what waits. -/
theorem bare_map {f : Client → Client} (hf : ∀ c, (f c).bare = f c.bare) (t : ClientTable) :
    (t.map f).bare = t.bare.map f := by
  rw [bare, bare, map_map, map_map]
  exact map_congr fun c _ => hf c

/-- A change of one client that does not look at what waits. -/
theorem bare_modify {f : Client → Client} (hf : ∀ c, (f c).bare = f c.bare) (t : ClientTable)
    (id : ClientId) : (t.modify id f).bare = t.bare.modify id f := by
  obtain ⟨slots, nextSeq⟩ := t
  simp only [bare, modify, map, mk.injEq, and_true]
  induction slots with
  | nil => rfl
  | cons slot slots ih =>
    cases slot with
    | none => exact congrArg (none :: ·) ih
    | some c =>
      have hid : c.bare.id = c.id := rfl
      simp only [List.map_cons, Option.map_some, modifyFirst, hid]
      split
      · rw [List.map_cons, Option.map_some, hf]
      · rw [List.map_cons, Option.map_some, ih]

/-- A change of one client that concerns only what waits. -/
theorem bare_modify_self {f : Client → Client} (t : ClientTable) {id : ClientId}
    (hf : ∀ c, t.find? id = some c → (f c).bare = c.bare) : (t.modify id f).bare = t.bare := by
  obtain ⟨slots, nextSeq⟩ := t
  simp only [bare, modify, map, mk.injEq, and_true]
  simp only [find?, clients] at hf
  induction slots with
  | nil => rfl
  | cons slot slots ih =>
    cases slot with
    | none => exact congrArg (none :: ·) (ih hf)
    | some c =>
      rw [modifyFirst]
      by_cases h : c.id = id
      · rw [if_pos h, List.map_cons, List.map_cons, Option.map_some, Option.map_some,
          hf c (by simp [h])]
      · rw [if_neg h, List.map_cons, List.map_cons, ih fun d hd => hf d (by simpa [h] using hd)]

theorem bare_fillFree (c : Client) (slots : List (Option Client)) :
    (fillFree c slots).map (List.map (Option.map Client.bare)) =
      fillFree c.bare (slots.map (Option.map Client.bare)) := by
  induction slots with
  | nil => rfl
  | cons slot slots ih =>
    cases slot with
    | none => rfl
    | some d =>
      rw [fillFree, List.map_cons, Option.map_some, fillFree, ← ih, Option.map_map, Option.map_map]
      rfl

theorem bare_oldest? (cs : List Client) :
    oldest? (cs.map Client.bare) = (oldest? cs).map Client.bare := by
  induction cs with
  | nil => rfl
  | cons c cs ih =>
    rw [List.map_cons, oldest?, oldest?, ih]
    cases oldest? cs with
    | none => rfl
    | some d =>
      have hseq (c : Client) : c.bare.seq = c.seq := rfl
      simp only [Option.map_some, hseq]
      split <;> rfl

theorem bare_replaceAt (seq : Nat) (c : Client) (slots : List (Option Client)) :
    (replaceAt seq c slots).map (Option.map Client.bare) =
      replaceAt seq c.bare (slots.map (Option.map Client.bare)) := by
  rw [replaceAt, replaceAt, List.map_map, List.map_map]
  refine List.map_congr_left fun slot _ => ?_
  cases slot with
  | none => rfl
  | some d =>
    have hseq : d.bare.seq = d.seq := rfl
    simp only [Function.comp_apply, Option.map_some, Option.any_some, hseq]
    split <;> rfl

theorem bare_insert (t : ClientTable) (id : ClientId) (outbox : BoundedQueue Message) :
    (t.insert id outbox).2.bare =
      (t.bare.insert id { outbox with waiting := [] }).2 := by
  have hfill := bare_fillFree ⟨id, t.nextSeq, .empty, outbox⟩ t.slots
  have hclients : t.bare.clients = t.clients.map Client.bare := clients_map t Client.bare
  unfold insert
  rw [hclients, bare_oldest?]
  rw [show t.bare.slots = t.slots.map (Option.map Client.bare) from rfl,
    show t.bare.nextSeq = t.nextSeq from rfl]
  rw [show (⟨id, t.nextSeq, .empty, outbox⟩ : Client).bare =
    ⟨id, t.nextSeq, .empty, { outbox with waiting := [] }⟩ from rfl] at hfill
  dsimp only
  rw [← hfill]
  cases fillFree ⟨id, t.nextSeq, .empty, outbox⟩ t.slots with
  | some slots => rfl
  | none =>
    cases oldest? t.clients with
    | none => rfl
    | some old =>
      exact congrArg (ClientTable.mk · (t.nextSeq + 1)) (bare_replaceAt old.seq _ t.slots)

end ClientTable

/-! ## Endpoints -/

namespace Endpoint

/-- The endpoint without what waits in it, who has left, and how its tunnel gets on. -/
def bare (e : Endpoint) : Endpoint :=
  { e with
    table := e.table.bare
    departed := []
    events := .empty
    tunnel := e.tunnel.map fun _ => .new e.path .usual }

variable {e e' : Endpoint}

theorem bare_release (e : Endpoint) (id : ClientId) :
    (e.release id).2.bare = { e.bare with table := (e.bare.table.remove id).2 } := by
  have htable := e.table.bare_remove id
  rw [← table_release] at htable
  have hbare : e.bare.table = e.table.bare := rfl
  rw [hbare, ← htable]
  unfold release
  split <;> rfl

theorem bare_releaseAll (e : Endpoint) (ids : List ClientId) :
    (e.releaseAll ids).2.bare =
      { e.bare with table := ids.foldl (fun t id => (t.remove id).2) e.bare.table } := by
  rw [releaseAll_snd]
  induction ids generalizing e with
  | nil => rfl
  | cons id ids ih => rw [List.foldl_cons, ih, bare_release, List.foldl_cons]

theorem bare_queueWanted (e : Endpoint) (wanted : Client → Bool) (m : Message) :
    (e.queueWanted wanted m).bare = e.bare := by
  have htable : (e.queueWanted wanted m).table.bare = e.table.bare := by
    refine ClientTable.bare_map_self (fun c => ?_) e.table
    split
    · exact c.bare_push m
    · rfl
  rw [bare, htable]
  rfl

/-- Which queues are closed is seen without what waits in them. -/
theorem ids_closedOf_bare (e : Endpoint) {wanted : Client → Bool}
    (hwanted : ∀ c, wanted c.bare = wanted c) :
    (e.bare.closedOf wanted).map Client.id = (e.closedOf wanted).map Client.id := by
  have hclients : e.bare.table.clients = e.table.clients.map Client.bare :=
    ClientTable.clients_map e.table Client.bare
  rw [closedOf, hclients, List.filter_map, List.map_map, closedOf]
  refine congrArg (List.map Client.id) (List.filter_congr fun c _ => ?_)
  rw [Function.comp_apply, hwanted]
  rfl

/-- A message to many: those whose queues are closed are no longer tracked. -/
theorem bare_fanOut_congr (h : e.bare = e'.bare) (wanted : Client → Bool)
    (hwanted : ∀ c, wanted c.bare = wanted c) (m m' : Message) :
    (e.fanOut wanted m).2.bare = (e'.fanOut wanted m').2.bare := by
  rw [fanOut_snd, fanOut_snd, bare_releaseAll, bare_releaseAll, bare_queueWanted,
    bare_queueWanted, closedIds_eq, closedIds_eq, ← ids_closedOf_bare e hwanted,
    ← ids_closedOf_bare e' hwanted, h]

theorem bare_sendToTunnel (e : Endpoint) (f : Frame) : (e.sendToTunnel f).2.bare = e.bare := by
  unfold sendToTunnel
  cases ht : e.tunnel with
  | none => rfl
  | some t => rw [bare, bare, ht]; rfl

theorem bare_forwardToTunnel (e : Endpoint) (f : Frame) :
    (e.forwardToTunnel f).2.bare = e.bare := by
  unfold forwardToTunnel
  cases ht : e.tunnel with
  | none => rfl
  | some t =>
    dsimp only
    split
    · split <;> (rw [bare, bare, ht]; rfl)
    · rfl

theorem bare_setOutbox_self (e : Endpoint) (id : ClientId)
    {f : BoundedQueue Message → BoundedQueue Message}
    (hf : ∀ c : Client, ({ c with outbox := f c.outbox } : Client).bare = c.bare) :
    (e.setOutbox id f).bare = e.bare := by
  unfold setOutbox
  split
  · rw [bare, ClientTable.bare_modify_self e.table fun c _ => hf c]
    rfl
  · rfl

theorem find?_bare (e : Endpoint) (id : ClientId) :
    e.bare.table.find? id = (e.table.find? id).map Client.bare := e.table.bare_find? id

theorem isSome_find?_bare (e : Endpoint) (id : ClientId) :
    (e.bare.table.find? id).isSome = (e.table.find? id).isSome := by
  rw [find?_bare, Option.isSome_map]

theorem bare_hangUp (e : Endpoint) (id : ClientId) :
    (e.hangUp id).bare =
      if (e.bare.table.find? id).isSome then
        { e.bare with table :=
          e.bare.table.modify id fun c => { c with outbox := c.outbox.close } }
      else e.bare := by
  unfold hangUp setOutbox
  rw [isSome_find?_bare]
  split
  · have htable := ClientTable.bare_modify (f := fun c => { c with outbox := c.outbox.close })
      (fun _ => rfl) e.table id
    rw [bare, htable]
    rfl
  · rfl

/-- What a call of the media board does to an endpoint, and what it says. -/
theorem bare_setTopic (e : Endpoint) (id : ClientId) (topic : Topic) (on : Bool) :
    (e.bare.setTopic id topic on).1 = (e.setTopic id topic on).1 ∧
      (e.bare.setTopic id topic on).2 = (e.setTopic id topic on).2.bare := by
  have htunnel : e.bare.tunnel.isSome = e.tunnel.isSome := Option.isSome_map
  unfold setTopic
  rw [htunnel, isSome_find?_bare]
  split
  · split <;> exact ⟨rfl, rfl⟩
  · split
    · have htable := ClientTable.bare_modify
        (f := fun c => { c with topics := c.topics.set topic on }) (fun _ => rfl) e.table id
      refine ⟨rfl, ?_⟩
      rw [bare, bare, htable]
    · exact ⟨rfl, rfl⟩

theorem bare_hasTopic (e : Endpoint) (id : ClientId) (topic : Topic) :
    e.bare.hasTopic id topic = e.hasTopic id topic := by
  unfold hasTopic
  rw [find?_bare, Option.any_map]
  rfl

theorem bare_accept (e : Endpoint) (outbox : BoundedQueue Message) :
    (e.accept outbox).2.bare =
      { e.bare with
        nextId := (allocateId e.bare.nextId).2
        table := (e.bare.table.insert (allocateId e.bare.nextId).1
          { outbox with waiting := [] }).2 } := by
  have htable := e.table.bare_insert (allocateId e.nextId).1 outbox
  rw [accept_snd, bare]
  dsimp only
  rw [show (e.accept outbox).1 = (allocateId e.nextId).1 from rfl, htable]
  rfl

theorem bare_closeAll (e : Endpoint) :
    e.closeAll.2.bare = { e.bare with table := e.bare.table.cleared, tunnelTopics := .empty } := by
  unfold closeAll
  dsimp only
  rw [foldl_depart, bare]
  dsimp only
  rw [ClientTable.bare_cleared]
  rfl

/-- A client whose queue turns out to be closed is no longer tracked. -/
def dropGone (b : Endpoint) (id : ClientId) : Endpoint :=
  if (b.table.find? id).all (·.outbox.isOpen) then b
  else { b with table := (b.table.remove id).2 }

theorem dropGone_bare_of_none {id : ClientId} (h : e.table.find? id = none) :
    e.bare.dropGone id = e.bare := by
  rw [dropGone, find?_bare, h]
  rfl

theorem dropGone_bare_of_open {id : ClientId} {c : Client} (h : e.table.find? id = some c)
    (hopen : c.outbox.isOpen = true) : e.bare.dropGone id = e.bare := by
  rw [dropGone, find?_bare, h]
  exact if_pos hopen

theorem dropGone_bare_of_closed {id : ClientId} {c : Client} (h : e.table.find? id = some c)
    (hclosed : c.outbox.isOpen = false) :
    e.bare.dropGone id = (e.release id).2.bare := by
  rw [dropGone, find?_bare, h, bare_release]
  refine if_neg ?_
  rw [Option.map_some, Option.all_some, Bool.not_eq_true]
  exact hclosed

theorem bare_startSendTo (e : Endpoint) (id : ClientId) (f : Frame) :
    (e.startSendTo id f).2.bare =
      if e.bare.limits.maxBroadcastLength < f.length ∨ id.isTunnel = true then e.bare
      else e.bare.dropGone id := by
  have hlimits : e.bare.limits = e.limits := rfl
  rw [hlimits]
  by_cases hlong : e.limits.maxBroadcastLength < f.length
  · rw [if_pos (.inl hlong), startSendTo_of_limit_lt hlong]
  by_cases hfar : id.isTunnel = true
  · rw [if_pos (.inr hfar)]
    simp [startSendTo, checkLength, hlong, hfar]
  rw [if_neg (not_or.mpr ⟨hlong, hfar⟩)]
  unfold startSendTo checkLength
  rw [if_neg hlong]
  dsimp only
  rw [if_neg hfar]
  cases hfind : e.table.find? id with
  | none => exact (dropGone_bare_of_none hfind).symm
  | some c =>
    cases hopen : c.outbox.isOpen with
    | false =>
      have hclosed := (BoundedQueue.push_closed_iff (a := Message.data f)).mpr hopen
      have hpush : c.outbox.push (.data f) = (.closed, c.outbox) :=
        Prod.ext hclosed (BoundedQueue.push_closed hclosed)
      dsimp only
      rw [hpush]
      exact (dropGone_bare_of_closed hfind hopen).symm
    | true =>
      rw [dropGone_bare_of_open hfind hopen]
      dsimp only
      split
      · rename_i hpush
        have htable : (e.table.modify id fun d => { d with outbox := _ }).bare = e.table.bare :=
          ClientTable.bare_modify_self e.table fun d hd => by
            cases hfind.symm.trans hd
            exact (congrArg (fun p => ({ c with outbox := p.2 } : Client).bare) hpush).symm.trans
              (c.bare_push _)
        rw [bare, htable]
        rfl
      · rfl
      · rename_i hpush
        exact absurd (congrArg Prod.fst hpush) (BoundedQueue.push_ne_closed hopen _)

theorem bare_sendTo (e : Endpoint) (id : ClientId) (f : Frame) :
    (e.sendTo id f).2.bare = (e.startSendTo id f).2.bare := by
  unfold sendTo
  split
  · rename_i heq
    rw [heq]
  · rename_i heq
    rw [heq]
    exact bare_sendToTunnel _ _

theorem bare_copyTo (e : Endpoint) (id : ClientId) (m : Message) :
    (e.copyTo id m).bare = e.bare.dropGone id := by
  unfold copyTo connection?
  cases hfind : e.table.find? id with
  | none =>
    rw [dropGone_bare_of_none hfind]
    dsimp only
    split
    · rfl
    · split
      · rw [release_of_not_mem (ClientTable.find?_eq_none_iff.mp hfind)]
      · rw [setOutbox, hfind]
        rfl
  | some c =>
    dsimp only
    cases hopen : c.outbox.isOpen with
    | false =>
      rw [if_pos (BoundedQueue.push_closed_iff.mpr hopen), dropGone_bare_of_closed hfind hopen]
    | true =>
      rw [if_neg (BoundedQueue.push_ne_closed hopen m), dropGone_bare_of_open hfind hopen]
      exact bare_setOutbox_self e id (f := fun q => (q.push m).2) fun c => c.bare_push m

theorem limits_eq_of_bare (h : e.bare = e'.bare) : e.limits = e'.limits := by
  have hlimits (e : Endpoint) : e.bare.limits = e.limits := rfl
  rw [← hlimits, h, hlimits]

theorem bare_broadcast_congr (h : e.bare = e'.bare) (f : Frame) :
    (e.broadcast f).2.bare = (e'.broadcast f).2.bare := by
  unfold broadcast checkLength
  rw [limits_eq_of_bare h]
  split
  · exact h
  · exact bare_fanOut_congr h _ (fun _ => rfl) _ _

theorem bare_publish (e : Endpoint) (f : Frame) :
    (e.publish f).2.bare = (e.broadcast f).2.bare := by
  unfold publish
  split
  · rename_i heq
    rw [heq]
  · rename_i heq
    rw [heq]
    exact bare_forwardToTunnel _ _

/-- What counts of an endpoint once snapshots were served. -/
theorem bare_served (e : Endpoint) :
    ({ e.serveClients with tunnelTopics := e.serveClients.tunnelTopics.served } : Endpoint).bare =
      { e.bare with
        table := e.bare.table.map fun c => { c with topics := c.topics.served }
        tunnelTopics := e.bare.tunnelTopics.served } := by
  have htable := ClientTable.bare_map (f := fun c => { c with topics := c.topics.served })
    (fun _ => rfl) e.table
  unfold serveClients
  rw [bare]
  dsimp only
  rw [htable]
  rfl

theorem bare_publishTopic_congr (h : e.bare = e'.bare) (topic : Topic) (bytes : List UInt8) :
    (e.publishTopic topic bytes).2.bare = (e'.publishTopic topic bytes).2.bare := by
  have hout := bare_fanOut_congr h (fun c => c.topics.wants topic) (fun _ => rfl)
    (.data (.binary bytes)) (.data (.binary bytes))
  have hforward (b : Bool) (e : Endpoint) (f : Frame) :
      (if b = true then e.forwardToTunnel f else (Report.zero, e)).2.bare = e.bare := by
    split
    · exact bare_forwardToTunnel e f
    · rfl
  unfold publishTopic checkLength
  dsimp only
  rw [limits_eq_of_bare h]
  split
  · exact h
  · dsimp only
    rw [hforward, hforward, bare_served, bare_served, hout]

/-! ## Calls -/

/-- **What counts after a call** depends on what counted before. -/
theorem bare_apply_congr (h : e.bare = e'.bare) (c : Call) :
    (e.apply c).bare = (e'.apply c).bare := by
  cases c with
  | accept outbox => rw [apply, apply, bare_accept, bare_accept, h]
  | release id => rw [apply, apply, bare_release, bare_release, h]
  | closeAll => rw [apply, apply, bare_closeAll, bare_closeAll, h]
  | sendTo id f =>
    rw [apply, apply, bare_sendTo, bare_sendTo, bare_startSendTo, bare_startSendTo, h]
  | broadcast f => exact bare_broadcast_congr h f
  | publish f =>
    rw [apply, apply, bare_publish, bare_publish]
    exact bare_broadcast_congr h f
  | publishTopic topic bytes => exact bare_publishTopic_congr h topic bytes
  | copyTo id m => rw [apply, apply, bare_copyTo, bare_copyTo, h]
  | setTopic id topic on =>
    rw [apply, apply, ← (bare_setTopic e id topic on).2, ← (bare_setTopic e' id topic on).2, h]
  | deliver id f => rw [apply, apply, deliver_eq, deliver_eq]; exact h
  | deliverFromTunnel f => exact h
  | attachTunnel t =>
    have hbare (e : Endpoint) : (e.attachTunnel t).bare =
        { e.bare with tunnel := some (.new e.bare.path .usual) } := rfl
    rw [apply, apply, hbare, hbare, h]
  | read id count =>
    rw [apply, apply, bare_setOutbox_self e id fun _ => rfl,
      bare_setOutbox_self e' id fun _ => rfl, h]
  | hangUp id => rw [apply, apply, bare_hangUp, bare_hangUp, h]
  | carry index | handle => exact h

end Endpoint

end DeviceRelay
