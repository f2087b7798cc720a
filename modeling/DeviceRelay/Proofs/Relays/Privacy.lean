import DeviceRelay.Proofs.Endpoint.Broadcast
import DeviceRelay.Proofs.Relays.Answers
import DeviceRelay.Proofs.Tunnel.Texts

/-!
# Who gets to see a reply

The reply to a control command is for the client that sent it, and nothing that is done on the way
there, the command itself, a reply that is too large or a client that turns out to be gone, touches
a queue of anybody else. Only the report of the signal level goes to every local client. A reply for
the far end of the tunnel is left to a send of the tunnel, which may have to wait, and gets there if
the tunnel takes it before its waits are over.

* `Endpoint.SparesOthers`: nothing happens to the clients but one.
* `ControlRelay.AsksForSignal`: the texts whose reply is for everybody.
* `Endpoint.Told`: every local client has got a frame.
* `ControlRelay.replies_stay_private`: the theorem on control commands.
-/

namespace DeviceRelay

/-! ## Slots of other clients -/

namespace ClientTable

theorem slot_modifyFirst_iff {id : ClientId} {f : Client → Client} (hf : ∀ c, (f c).id = c.id)
    {c : Client} (hne : c.id ≠ id) {slots : List (Option Client)} {i : Nat} :
    (modifyFirst id f slots)[i]? = some (some c) ↔ slots[i]? = some (some c) := by
  induction slots generalizing i with
  | nil => rfl
  | cons slot slots ih =>
    cases slot with
    | none =>
      cases i with
      | zero => rfl
      | succ i => exact ih
    | some d =>
      rw [modifyFirst]
      by_cases hd : d.id = id
      · rw [if_pos hd]
        cases i with
        | zero =>
          have hleft : f d ≠ c := fun h => hne (h ▸ (hf d).trans hd)
          have hright : d ≠ c := fun h => hne (h ▸ hd)
          simp [hleft, hright]
        | succ i => rfl
      · rw [if_neg hd]
        cases i with
        | zero => rfl
        | succ i => exact ih

end ClientTable

namespace Endpoint

/-! ## What spares the others -/

/-- Whether a local client is not the one that has an id. The far end of the tunnel is none of
them. -/
def isOther (client id : ClientId) : Bool := client.isTunnel || id ≠ client

/-- From one state of an endpoint to another nothing happened to the clients but one, which may be
the far end of the tunnel, and nothing to the tunnel. -/
structure SparesOthers (client : ClientId) (e e' : Endpoint) : Prop where
  /-- The others are tracked in the same slots, each with the same messages in its queue. -/
  tracked : ∀ (i : Nat) (c : Client), isOther client c.id = true →
    (e'.table.slots[i]? = some (some c) ↔ e.table.slots[i]? = some (some c))
  /-- Those that have left are the same, with what is left in their queues. -/
  departed : e'.departed.filter (fun d => isOther client d.id) =
    e.departed.filter fun d => isOther client d.id
  tunnel : e'.tunnel = e.tunnel

section SparesOthers

variable {client : ClientId} {e e' e'' : Endpoint}

theorem SparesOthers.refl (client : ClientId) (e : Endpoint) : SparesOthers client e e :=
  ⟨fun _ _ _ => .rfl, rfl, rfl⟩

theorem SparesOthers.trans (h : SparesOthers client e e') (h' : SparesOthers client e' e'') :
    SparesOthers client e e'' where
  tracked i c hc := (h'.tracked i c hc).trans (h.tracked i c hc)
  departed := h'.departed.trans h.departed
  tunnel := h'.tunnel.trans h.tunnel

theorem ne_of_isOther (hlocal : client.isTunnel = false) {id : ClientId}
    (h : isOther client id = true) : id ≠ client := by
  simpa [isOther, hlocal] using h

theorem sparesOthers_modify (e : Endpoint) (hlocal : client.isTunnel = false) {f : Client → Client}
    (hf : ∀ c, (f c).id = c.id) :
    SparesOthers client e { e with table := e.table.modify client f } where
  tracked _ _ hc := ClientTable.slot_modifyFirst_iff hf (ne_of_isOther hlocal hc)
  departed := rfl
  tunnel := rfl

theorem sparesOthers_release (hlocal : client.isTunnel = false) (e : Endpoint) :
    SparesOthers client e (e.release client).2 where
  tracked _ _ hc := ⟨slot_release, slot_release_of_ne (ne_of_isOther hlocal hc)⟩
  departed := by
    cases hfind : e.table.find? client with
    | none => rw [release_of_not_mem (ClientTable.find?_eq_none_iff.mp hfind)]
    | some c =>
      rw [release_of_find? hfind]
      exact List.filter_cons_of_neg (by simp [isOther, hlocal])
  tunnel := by
    unfold release
    split <;> rfl

theorem sparesOthers_setTopic (client : ClientId) (topic : Topic) (on : Bool) (e : Endpoint) :
    SparesOthers client e (e.setTopic client topic on).2 := by
  unfold setTopic
  split
  · split
    · exact ⟨fun _ _ _ => .rfl, rfl, rfl⟩
    · exact .refl client e
  · rename_i hlocal
    split
    · exact sparesOthers_modify e (eq_false_of_ne_true hlocal) fun _ => rfl
    · exact .refl client e

theorem sparesOthers_startSendTo (client : ClientId) (f : Frame) (e : Endpoint) :
    SparesOthers client e (e.startSendTo client f).2 := by
  unfold startSendTo
  split
  · exact .refl client e
  · split
    · exact .refl client e
    · rename_i hlocal
      split
      · exact .refl client e
      · split
        · exact sparesOthers_modify e (eq_false_of_ne_true hlocal) fun _ => rfl
        · exact .refl client e
        · exact sparesOthers_release (eq_false_of_ne_true hlocal) e

theorem sparesOthers_startReply (client : ClientId) (reply : Reply) (e : Endpoint) :
    SparesOthers client e (startReply e client reply).2 := by
  have hfirst := sparesOthers_startSendTo client (.text reply.render) e
  unfold startReply
  split
  · rename_i length limit e' h
    rw [h] at hfirst
    exact hfirst.trans (sparesOthers_startSendTo client _ e')
  · rename_i h
    rw [h] at hfirst
    exact hfirst

end SparesOthers

/-! ## What everybody is told -/

/-- A client is in its slot, or was taken off the table as it was. -/
def Holds (e : Endpoint) (i : Nat) (c : Client) : Prop :=
  e.table.slots[i]? = some (some c) ∨ ⟨c.id, c.outbox, false⟩ ∈ e.departed

theorem holds_release {e : Endpoint} {i : Nat} {c : Client} (h : Holds e i c) (id : ClientId) :
    Holds (e.release id).2 i c := by
  cases hfind : e.table.find? id with
  | none =>
    rw [release_of_not_mem (ClientTable.find?_eq_none_iff.mp hfind)]
    exact h
  | some d =>
    have hremove : (e.table.remove id).2.slots = ClientTable.freeFirst id e.table.slots := by
      rw [ClientTable.remove, hfind]
    obtain rfl : d.id = id := (ClientTable.mem_of_find? hfind).2
    rw [release_of_find? hfind]
    obtain hslot | hleft := h
    · have hcases : (ClientTable.freeFirst d.id e.table.slots)[i]? = some (some c) ∨
          e.table.find? d.id = some c := ClientTable.slot_freeFirst_or hslot
      obtain hstays | hfound := hcases
      · exact .inl (hremove ▸ hstays)
      · cases hfind.symm.trans hfound
        exact .inr List.mem_cons_self
    · exact .inr (List.mem_cons_of_mem _ hleft)

theorem holds_releaseAll {e : Endpoint} {i : Nat} {c : Client} (h : Holds e i c)
    (ids : List ClientId) : Holds (e.releaseAll ids).2 i c := by
  rw [releaseAll_snd]
  induction ids generalizing e with
  | nil => exact h
  | cons id ids ih => exact ih (holds_release h id)

/-- From one state of an endpoint to another every local client has got a copy of a frame, and
nothing happened to the tunnel. -/
structure Told (f : Frame) (e e' : Endpoint) : Prop where
  /-- A client whose queue is open and has room gets one copy, behind what waits there, and stays
  in its slot. Only where ids are not distinct may it be taken off, with the copy in its queue. -/
  near : ∀ (i : Nat) (c : Client), e.table.slots[i]? = some (some c) →
    c.outbox.isOpen = true → c.outbox.hasRoom = true →
    let q := { c.outbox with waiting := c.outbox.waiting ++ [.data f] }
    e'.table.slots[i]? = some (some { c with outbox := q }) ∨
      (¬ e.clientIds.Nodup ∧ ⟨c.id, q, false⟩ ∈ e'.departed)
  tunnel : e'.tunnel = e.tunnel

section Told

variable {e : Endpoint} {f : Frame}

/-- A client whose queue is open and has room gets one copy of a broadcast. -/
theorem near_broadcast (hfits : f.length ≤ e.limits.maxBroadcastLength) {i : Nat} {c : Client}
    (hslot : e.table.slots[i]? = some (some c)) (hopen : c.outbox.isOpen = true)
    (hroom : c.outbox.hasRoom = true) :
    let q := { c.outbox with waiting := c.outbox.waiting ++ [.data f] }
    (e.broadcast f).2.table.slots[i]? = some (some { c with outbox := q }) ∨
      (¬ e.clientIds.Nodup ∧ ⟨c.id, q, false⟩ ∈ (e.broadcast f).2.departed) := by
  intro q
  have hfan : (e.broadcast f).2 = (e.fanOut (fun _ => true) (.data f)).2 := by
    rw [broadcast, checkLength_eq_ok_iff.mpr hfits]
  rw [hfan]
  by_cases hn : e.clientIds.Nodup
  · left
    rw [(spread_fanOut hn (.data f)).slots, List.getElem?_map, hslot]
    simp [Client.afterCopy, hopen, hroom, q]
  · have hqueued : (e.queueWanted (fun _ => true) (.data f)).table.slots[i]? =
        some (some { c with outbox := q }) := by
      simp [queueWanted, ClientTable.map, hslot, Client.receive, BoundedQueue.push, hopen, hroom, q]
    rw [fanOut_snd]
    exact (holds_releaseAll (.inl hqueued) _).imp_right fun hleft => ⟨hn, hleft⟩

theorem tunnel_broadcast (e : Endpoint) (f : Frame) : (e.broadcast f).2.tunnel = e.tunnel := by
  unfold broadcast
  split
  · rfl
  · exact (far_releaseAll _ _).1

theorem told_broadcast (hfits : f.length ≤ e.limits.maxBroadcastLength) :
    Told f e (e.broadcast f).2 where
  near _ _ := near_broadcast hfits
  tunnel := tunnel_broadcast e f

end Told

end Endpoint

/-! ## What is left to the tunnel -/

namespace Endpoint

/-- A frame that is left to the tunnel is one for its far end. -/
theorem left_startSendTo {e : Endpoint} {id : ClientId} {f g : Frame}
    (h : (e.startSendTo id f).1.left? = some g) : id.isTunnel = true ∧ g = f := by
  unfold startSendTo at h
  split at h
  · cases h
  · split at h
    · rename_i hfar
      dsimp only at h
      split at h
      · cases h
        exact ⟨hfar, rfl⟩
      · cases h
    · split at h
      · cases h
      · split at h <;> cases h

/-- A frame within the limit for the far end is left to the tunnel, if one is attached. -/
theorem startSendTo_far {e : Endpoint} {id : ClientId} {f : Frame} (hfar : id.isTunnel = true)
    (hfits : f.length ≤ e.limits.maxBroadcastLength) :
    e.startSendTo id f =
      (if e.tunnel.isSome then .leftToTunnel f else .over (.error .tunnelNotAttached), e) := by
  unfold startSendTo
  rw [checkLength_eq_ok_iff.mpr hfits]
  simp only [hfar, if_true]

end Endpoint

theorem left_startReply {e : Endpoint} {id : ClientId} {reply : Reply} {f : Frame}
    (h : (startReply e id reply).1 = some f) : id.isTunnel = true ∧ ∃ body, f = .text body := by
  unfold startReply at h
  split at h
  · exact (Endpoint.left_startSendTo h).imp_right fun hf => ⟨_, hf⟩
  · rename_i heq
    have hleft : (e.startSendTo id (.text reply.render)).1.left? = some f → _ :=
      Endpoint.left_startSendTo
    rw [heq] at hleft
    exact (hleft h).imp_right fun hf => ⟨_, hf⟩

theorem startReply_far {e : Endpoint} {id : ClientId} {reply : Reply} (hfar : id.isTunnel = true)
    (hfits : reply.size ≤ e.limits.maxBroadcastLength) :
    startReply e id reply = (if e.tunnel.isSome then some (.text reply.render) else none, e) := by
  unfold startReply
  rw [Endpoint.startSendTo_far (f := .text reply.render) hfar hfits]
  cases e.tunnel <;> rfl

/-! ## Commands -/

namespace ControlRelay

/-- The command of a text asks for the signal level. -/
def AsksForSignal (text : String) : Prop :=
  ∃ request, Json.parse text = .ok request ∧ Command.nameIn request = Command.getRssi.name

section Commands

variable {ctx : ControlContext} {client : ClientId} {text : String} {e : Endpoint}
  {state : ControlState}

variable (ctx client e state) in
/-- The reply to a text that does not ask for the signal level is for the client alone. -/
theorem startText_of_not_asksForSignal (h : ¬ AsksForSignal text) :
    ∃ reply, (startText ctx client text e state).1 =
        (startReply (executed ctx client text e state) client reply).1 ∧
      (startText ctx client text e state).2.1 =
        (startReply (executed ctx client text e state) client reply).2 := by
  have hroute : (ControlProtocol.dispatch Endpoint.mediaBoard ctx client text state e).1.route =
      .requester := by
    cases hparse : Json.parse text with
    | error err => rw [ControlProtocol.dispatch_of_error hparse]
    | ok request =>
      cases hname : Command.ofName? (Command.nameIn request) with
      | none => rw [ControlProtocol.dispatch_of_unknown hparse hname]
      | some cmd =>
        rw [ControlProtocol.dispatch_of_known hparse hname]
        cases cmd with
        | getRssi => exact absurd ⟨request, hparse, Command.ofName?_eq_some_iff.mp hname⟩ h
        | _ => rfl
  unfold startText executed
  generalize ControlProtocol.dispatch Endpoint.mediaBoard ctx client text state e = d at hroute ⊢
  obtain ⟨⟨reply, route⟩, state', e'⟩ := d
  obtain rfl : route = .requester := hroute
  exact ⟨reply, rfl, rfl⟩

/-- The report of the signal level goes to every local client, and then to the far end of the tunnel
if that asked. -/
theorem startText_of_asksForSignal (h : AsksForSignal text) :
    let report := ControlProtocol.rssiReply ctx.facts.link
    let told := (e.broadcast (.text report.render)).2
    startText ctx client text e state =
      if client.isTunnel then ((startReply told client report).1, (startReply told client report).2,
        state)
      else (none, told, state) := by
  obtain ⟨request, hparse, hname⟩ := h
  unfold startText ControlProtocol.dispatch
  rw [hparse]
  dsimp only
  rw [Command.ofName?_eq_some_iff.mpr hname]
  dsimp only [ControlProtocol.execute, ControlProtocol.routeOf]
  cases client.isTunnel <;> rfl

/-- Nothing happens to anybody else where the reply is for the client alone. -/
theorem sparesOthers_startText (h : ¬ AsksForSignal text) :
    Endpoint.SparesOthers client e (startText ctx client text e state).2.1 := by
  have hexecuted : Endpoint.SparesOthers client e (executed ctx client text e state) := by
    obtain heq | ⟨topic, on, heq⟩ := executed_cases ctx client text e state
    · rw [heq]
      exact .refl client e
    · rw [heq]
      exact Endpoint.sparesOthers_setTopic client topic on e
  obtain ⟨reply, -, hstart⟩ := startText_of_not_asksForSignal ctx client e state h
  rw [hstart]
  exact hexecuted.trans (Endpoint.sparesOthers_startReply client reply _)

/-- Everybody is told where the reply is a report of the signal level that fits, and the report is
left to the tunnel if its far end asked. -/
theorem told_startText (h : AsksForSignal text)
    (hfits : (ControlProtocol.rssiReply ctx.facts.link).size ≤ e.limits.maxBroadcastLength) :
    let report : Frame := .text (ControlProtocol.rssiReply ctx.facts.link).render
    Endpoint.Told report e (startText ctx client text e state).2.1 ∧
      (startText ctx client text e state).1 =
        if client.isTunnel && e.tunnel.isSome then some report else none := by
  intro report
  have hlength : report.length ≤ e.limits.maxBroadcastLength := hfits
  rw [startText_of_asksForSignal h]
  by_cases hfar : client.isTunnel = true
  · have hfits' : (ControlProtocol.rssiReply ctx.facts.link).size ≤
        (e.broadcast report).2.limits.maxBroadcastLength := by
      rw [Endpoint.limits_broadcast]
      exact hfits
    rw [if_pos hfar, startReply_far hfar hfits', hfar, Endpoint.tunnel_broadcast, Bool.true_and]
    exact ⟨Endpoint.told_broadcast hlength, rfl⟩
  · rw [if_neg hfar, eq_false_of_ne_true hfar]
    exact ⟨Endpoint.told_broadcast hlength, rfl⟩

/-- What is left to the tunnel is a text for its far end. -/
theorem left_startText {f : Frame} (h : (startText ctx client text e state).1 = some f) :
    client.isTunnel = true ∧ ∃ body, f = .text body := by
  by_cases hasks : AsksForSignal text
  · rw [startText_of_asksForSignal hasks] at h
    by_cases hfar : client.isTunnel = true
    · rw [if_pos hfar] at h
      exact left_startReply h
    · rw [if_neg hfar] at h
      cases h
  · obtain ⟨reply, hstart, -⟩ := startText_of_not_asksForSignal ctx client e state hasks
    exact left_startReply (hstart.symm.trans h)

/-- Before the tunnel is waited for nothing happens to it. -/
theorem tunnel_startText : (startText ctx client text e state).2.1.tunnel = e.tunnel := by
  by_cases hasks : AsksForSignal text
  · rw [startText_of_asksForSignal hasks]
    split
    · exact (Endpoint.sparesOthers_startReply client _ _).tunnel.trans
        (Endpoint.tunnel_broadcast e _)
    · exact Endpoint.tunnel_broadcast e _
  · exact (sparesOthers_startText hasks).tunnel

end Commands

/-! ## The theorem on control commands -/

/-- **Replies stay private.** Unless a text asks for the signal level, whatever it is, nothing
happens to any client but the one that sent it. A report of the signal level that fits goes to every
local client whose queue takes it, and is left to the tunnel if its far end asked. What is left to
the tunnel is for its far end, and of it the tunnel gets one copy or none: one where the installed
transport takes it at one of the tries of its send, before the waits of the send are over, whatever
else happens meanwhile. What `handle` does is such a send, with nothing else during its waits. -/
theorem replies_stay_private (ctx : ControlContext) (client : ClientId) (text : String)
    (e : Endpoint) (state : ControlState) :
    let started := start ctx (.frame client (.text text)) e state
    let report : Frame := .text (ControlProtocol.rssiReply ctx.facts.link).render
    (¬ AsksForSignal text → Endpoint.SparesOthers client e started.2.1) ∧
    (AsksForSignal text → report.length ≤ e.limits.maxBroadcastLength →
      Endpoint.Told report e started.2.1 ∧
        started.1 = if client.isTunnel && e.tunnel.isSome then some report else none) ∧
    (∀ f, started.1 = some f → client.isTunnel = true ∧ ∃ body, f = .text body) ∧
    ∀ body, started.1 = some (.text body) → ∀ label options before,
      let w := (Watched.new label options).run before
      e.tunnel = some w.tunnel → ∀ ticket now, (∀ s ∈ w.tunnel.sends, s.ticket ≠ ticket) →
        (∀ moves, (∀ now f, .event now (.send ticket f) ∉ moves) →
          w.TextOutcome ticket (.text body) (.locking (now.add (Tunnel.lockWait (.text body))))
            (.event now (.send ticket (.text body)) :: moves)) ∧
        ∃ steps : List (Duration × Tunnel.SendStep), ∃ t seen,
          w.tunnel.run ((now, .send ticket (.text body)) ::
            steps.map fun x => (x.1, .sending ticket x.2)) = some (t, seen) ∧
          (handle ctx (.frame client (.text text)) e state).1 =
            { started.2.1 with tunnel := some t } := by
  refine ⟨sparesOthers_startText, told_startText, fun f => left_startText, ?_⟩
  intro body hleft label options before w hattached ticket now hfresh
  have hsound : w.Sound := (Watched.sound_new label options).run before
  refine ⟨fun moves hmoves => hsound.text_outcome hfresh now body hmoves, ?_⟩
  obtain ⟨steps, hrun⟩ := Tunnel.sendNow_run hfresh (.text body) now
  refine ⟨steps, _, _, hrun, ?_⟩
  have htunnel : (startText ctx client text e state).2.1.tunnel = some w.tunnel :=
    tunnel_startText.trans hattached
  have hhandle : (handle ctx (.frame client (.text text)) e state).1 =
      (startText ctx client text e state).2.1.finishSend
        (startText ctx client text e state).1 := rfl
  have hstart : (startText ctx client text e state).1 = some (.text body) := hleft
  rw [hhandle, hstart, Endpoint.finishSend, Endpoint.sendToTunnel, htunnel]
  rfl

/-- The moves by which a tunnel connects. -/
def connecting : List Watched.Move :=
  [.event .zero (.configure "wss://broker.example" "pier-1" "" "ws_control"),
   .event .zero (.setEnabled true), .event .zero (.worker .look),
   .event .zero (.worker (.passed true)), .event .zero (.worker .locked),
   .event .zero (.network 1 0 .start), .event .zero (.network 1 0 .dialed), .callback .zero 1]

/-- A tunnel that has just connected. -/
def connectedTunnel : Watched := (Watched.new controlPath .usual).run connecting

/-- The control endpoint with a local client and a tunnel that is connected. -/
def linkedControl : Endpoint := oneClient.attachTunnel connectedTunnel.tunnel

/-- The report of the signal level in a network with a short name. -/
abbrev harborReport : String := (ControlProtocol.rssiReply (deviceIn "harbor").facts.link).render

/-- The reply to an empty text from the far end is for the far end alone. A report that the far end
asked for goes to the local client and, though the lock is free only ten milliseconds later, into
the queue of the tunnel. -/
theorem replies_stay_private_linked :
    ¬ AsksForSignal "" ∧ AsksForSignal signalRequest ∧
      (Frame.text harborReport).length ≤ linkedControl.limits.maxBroadcastLength ∧
      Endpoint.SparesOthers .tunnel linkedControl
        (start (deviceIn "harbor") (.frame .tunnel (.text "")) linkedControl noChanges).2.1 ∧
      Endpoint.Told (.text harborReport) linkedControl
        (start (deviceIn "harbor") (.frame .tunnel (.text signalRequest)) linkedControl
          noChanges).2.1 ∧
      (start (deviceIn "harbor") (.frame .tunnel (.text signalRequest)) linkedControl
        noChanges).1 = some (.text harborReport) ∧
      (∀ s ∈ connectedTunnel.tunnel.sends, s.ticket ≠ 7) ∧
      connectedTunnel.TextOutcome 7 (.text harborReport)
        (.locking (Duration.zero.add (Tunnel.lockWait (.text harborReport))))
        [.event .zero (.send 7 (.text harborReport)),
          .event (.ofMillis 10) (.sending 7 .locked)] ∧
      connectedTunnel.putsBy 7
        [.event .zero (.send 7 (.text harborReport)),
          .event (.ofMillis 10) (.sending 7 .locked)] 1 = [.data (.text harborReport)] := by
  have hother : ¬ AsksForSignal "" := by
    rintro ⟨request, hparse, -⟩
    cases hparse
  have hasks : AsksForSignal signalRequest := ⟨_, parse_signalRequest, rfl⟩
  have hfits : (Frame.text harborReport).length ≤ linkedControl.limits.maxBroadcastLength := by
    decide
  have hfresh : ∀ s ∈ connectedTunnel.tunnel.sends, s.ticket ≠ 7 := by decide +kernel
  obtain ⟨-, htold, -, houtcome⟩ :=
    replies_stay_private (deviceIn "harbor") .tunnel signalRequest linkedControl noChanges
  obtain ⟨htold, hleft⟩ := htold hasks hfits
  have hsend := houtcome _ hleft controlPath .usual connecting rfl 7 .zero hfresh
  exact ⟨hother, hasks, hfits,
    (replies_stay_private (deviceIn "harbor") .tunnel "" linkedControl noChanges).1 hother,
    htold, hleft, hfresh, hsend.1 [.event (.ofMillis 10) (.sending 7 .locked)] (by simp),
    by decide +kernel⟩

/-- The control endpoint as it is started, with a tunnel that is disabled. -/
def startedControl : Endpoint :=
  (Endpoint.new controlPath controlLimits none).attachTunnel (.new controlPath .usual)

/-- The far end may ask and get nothing, whatever happens from then on: the tunnel may be down by
the time the report is made. -/
theorem report_lost_to_tunnel :
    AsksForSignal signalRequest ∧
      (Frame.text harborReport).length ≤ startedControl.limits.maxBroadcastLength ∧
      startedControl.tunnel = some (Watched.new controlPath .usual).tunnel ∧
      (start (deviceIn "harbor") (.frame .tunnel (.text signalRequest)) startedControl
        noChanges).1 = some (.text harborReport) ∧
      ∀ now moves, (∀ now f, .event now (.send 7 f) ∉ moves) →
        (Watched.new controlPath .usual).putsBy 7
          (.event now (.send 7 (.text harborReport)) :: moves) = fun _ => [] := by
  have hasks : AsksForSignal signalRequest := ⟨_, parse_signalRequest, rfl⟩
  have hfits : (Frame.text harborReport).length ≤ startedControl.limits.maxBroadcastLength := by
    decide
  have hleft : (startText (deviceIn "harbor") .tunnel signalRequest startedControl noChanges).1 =
      some (.text harborReport) := (told_startText hasks hfits).2.trans (if_pos rfl)
  refine ⟨hasks, hfits, rfl, hleft, fun now moves hmoves => ?_⟩
  have hidle : Watched.Idle (Watched.new controlPath .usual).tunnel 7 := List.forall_mem_nil _
  have hstep (f : Frame) : (Watched.new controlPath .usual).tunnel.step now (.send 7 f) =
      some ((Watched.new controlPath .usual).tunnel, [.sent 7 (.error .invalidState)]) := rfl
  rw [Watched.putsBy_cons_of_nil fun _ => Watched.puts_send _ now 7 _,
    Watched.next_of_step (fun _ _ _ => by simp) (hstep _)]
  exact ((Watched.sound_new controlPath .usual).results_of_idle hidle hmoves).2

end ControlRelay

end DeviceRelay
