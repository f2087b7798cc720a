import DeviceRelay.Proofs.ClaimCode
import DeviceRelay.Proofs.Control.Outcomes
import DeviceRelay.Proofs.Endpoint.Table
import DeviceRelay.Proofs.Relays.Answers
import DeviceRelay.Service

/-!
# What a command changes

A command that fails leaves the device as it was, however far it got. One that succeeds changes
its own part and nothing else: a camera command the switches of the client that sent it, a new
configuration the queue of updates, and the commands that show the claim code the code, where one is
due. The document is left to the updates that wait.

* `Service.command`: a device that executes a text of a client, up to the reply.
* `Service.Does`: what a command does where it succeeds.
* `Service.commands_change_their_own`: a text does that, or nothing.
-/

namespace DeviceRelay

/-! ## Subscriptions of one client -/

namespace Endpoint

/-- The endpoint with other subscriptions for one client, which may be the far end. -/
def resubscribe (e : Endpoint) (client : ClientId) (f : TopicSet → TopicSet) : Endpoint :=
  if client.isTunnel then { e with tunnelTopics := f e.tunnelTopics }
  else { e with table := e.table.modify client fun c => { c with topics := f c.topics } }

theorem setTopic_cases (e : Endpoint) (client : ClientId) (topic : Topic) (on : Bool) :
    e.setTopic client topic on = (true, e.resubscribe client fun s => s.set topic on) ∨
      e.setTopic client topic on = (false, e) := by
  unfold setTopic resubscribe
  split
  · split
    · exact .inl rfl
    · exact .inr rfl
  · split
    · exact .inl rfl
    · exact .inr rfl

theorem hasTopic_resubscribe_of_ne (e : Endpoint) {client id : ClientId} (h : id ≠ client)
    (f : TopicSet → TopicSet) (topic : Topic) :
    (e.resubscribe client f).hasTopic id topic = e.hasTopic id topic := by
  unfold resubscribe
  by_cases hfar : client.isTunnel = true
  · have hnear : ¬ id.isTunnel = true := fun hid =>
      h ((of_decide_eq_true hid).trans (of_decide_eq_true hfar).symm)
    rw [if_pos hfar, hasTopic, hasTopic, if_neg hnear, if_neg hnear]
  · have hfind : (e.table.modify client fun c => { c with topics := f c.topics }).find? id =
        e.table.find? id := ClientTable.find?_modify_of_ne (by intro; rfl) e.table h
    rw [if_neg hfar, hasTopic, hasTopic, hfind]

end Endpoint

namespace Service

/-! ## Commands -/

/-- The device with this state of its control relay. -/
def withControl (s : Service) (state : ControlState) (control : Endpoint) : Service :=
  { s with relays := { s.relays with control := control, state := state } }

/-- A device that executes a text of a control client: the reply, and the device before the reply
goes out. -/
def command (s : Service) (ctx : ControlContext) (client : ClientId) (text : String) :
    ControlReply × Service :=
  let (reply, state, control) :=
    ControlProtocol.dispatch Endpoint.mediaBoard ctx client text s.relays.state s.relays.control
  (reply, s.withControl state control)

theorem command_snd (s : Service) (ctx : ControlContext) (client : ClientId) (text : String) :
    (s.command ctx client text).2 =
      let after := (ControlProtocol.dispatch Endpoint.mediaBoard ctx client text s.relays.state
        s.relays.control).2
      s.withControl after.1 after.2 := rfl

/-- A text that names a command executes it. -/
theorem command_eq (s : Service) (ctx : ControlContext) (client : ClientId) {text : String}
    {request : Json} {cmd : Command} (hparse : Json.parse text = .ok request)
    (hname : Command.nameIn request = cmd.name) :
    s.command ctx client text =
      let (reply, state, control) := ControlProtocol.execute Endpoint.mediaBoard ctx client cmd
        request s.relays.state s.relays.control
      (⟨reply, ControlProtocol.routeOf cmd⟩, s.withControl state control) := by
  unfold command ControlProtocol.dispatch
  rw [hparse]
  dsimp only
  rw [Command.ofName?_eq_some_iff.mpr hname]

/-- What the control relay does with a text is to execute it, and then to send the reply. -/
theorem onText_eq_command (s : Service) (ctx : ControlContext) (client : ClientId)
    (text : String) :
    ControlRelay.onText ctx client text s.relays.control s.relays.state =
      ((ControlRelay.offers ctx client text s.relays.control s.relays.state).foldl
          (fun e o => o.apply e) (s.command ctx client text).2.relays.control,
        (s.command ctx client text).2.relays.state) := by
  refine Prod.ext (ControlRelay.onText_eq _ _ _ _ _) ?_
  unfold ControlRelay.onText ControlRelay.startText command
  dsimp only
  split <;> rfl

section Does

variable (ctx : ControlContext) (client : ClientId) (request : Json) (s : Service)

/-- What a command does to a device where it succeeds. -/
inductive Does : Command → Service → Prop where
  /-- A command that only reports changes nothing. -/
  | nothing {cmd : Command} (h : cmd ∉
      [.cameraSubscribe, .cameraSnapshot, .getInfo, .getClaim, .setConfig]) : Does cmd s
  /-- The client gets camera frames from now on, or no more. -/
  | subscribed : Does .cameraSubscribe (s.withControl s.relays.state
      (s.relays.control.resubscribe client fun t => t.set .camera (request.flag "enable" true)))
  /-- The client waits for the next camera frame. -/
  | requested : Does .cameraSnapshot (s.withControl s.relays.state
      (s.relays.control.resubscribe client fun t => t.set .snapshot true))
  /-- The code that is shown is still live. -/
  | shown {cmd : Command} (hr : ControlProtocol.rotation? request cmd = some false)
      (hlive : s.relays.state.claims.stale ctx.now = false) : Does cmd s
  /-- A new code is drawn, since one was asked for or the last one is dead. -/
  | drawn {cmd : Command} {rotate : Bool} (hr : ControlProtocol.rotation? request cmd = some rotate)
      (hdue : rotate = true ∨ s.relays.state.claims.stale ctx.now = true) :
      Does cmd (s.withControl
        { s.relays.state with
          claims := { s.relays.state.claims with last := some (.draw ctx.seed ctx.now) } }
        s.relays.control)
  /-- The update of the request waits behind the others, within the depth of the queue. -/
  | queued {update : Json} (hu : request.get? "config" = some update)
      (hopen : s.relays.state.updates.isOpen = true)
      (hroom : s.relays.state.updates.waiting.length < s.relays.state.updates.capacity) :
      Does .setConfig (s.withControl
        { s.relays.state with
          updates := { s.relays.state.updates with
            waiting := s.relays.state.updates.waiting ++ [update] } }
        s.relays.control)

variable {ctx client request s}

theorem does_of_outcome {cmd : Command} {failure : Option String} {state : ControlState}
    {control : Endpoint} (h : ControlProtocol.Outcome Endpoint.mediaBoard ctx client request
      s.relays.state s.relays.control cmd failure state control) :
    ((∃ code, failure = some code) ∧ s.withControl state control = s) ∨
      (failure = none ∧ Does ctx client request s cmd (s.withControl state control)) := by
  cases h with
  | told hs hr hc =>
    refine .inr ⟨rfl, .nothing ?_⟩
    cases cmd <;> simp_all [ControlProtocol.switch?, ControlProtocol.rotation?]
  | refused => exact .inl ⟨⟨_, rfl⟩, rfl⟩
  | asked hs =>
    cases cmd with
    | cameraSubscribe =>
      cases hs
      obtain happly | happly := s.relays.control.setTopic_cases client .camera
        (request.flag "enable" true)
      all_goals simp only [Endpoint.mediaBoard, happly]
      · exact .inr ⟨rfl, .subscribed⟩
      · exact .inl ⟨⟨_, rfl⟩, rfl⟩
    | cameraSnapshot =>
      cases hs
      obtain happly | happly := s.relays.control.setTopic_cases client .snapshot true
      all_goals simp only [Endpoint.mediaBoard, happly]
      · exact .inr ⟨rfl, .requested⟩
      · exact .inl ⟨⟨_, rfl⟩, rfl⟩
    | _ => cases hs
  | @claimed _ rotate hr =>
    refine .inr ⟨rfl, ?_⟩
    obtain ⟨rfl, hlive, _, -, hshown⟩ | ⟨hdue, hdrawn⟩ :=
      s.relays.state.claims.current_cases rotate ctx.now ctx.seed
    · rw [hshown]
      exact .shown hr hlive
    · rw [hdrawn]
      exact .drawn hr hdue
  | queued hu hopen hroom => exact .inr ⟨rfl, .queued hu hopen hroom⟩

theorem Does.spares {cmd : Command} {s' : Service} (h : Does ctx client request s cmd s') :
    s'.host = s.host ∧ ∀ id topic, id ≠ client →
      s'.relays.control.hasTopic id topic = s.relays.control.hasTopic id topic := by
  cases h with
  | subscribed | requested =>
    exact ⟨rfl, fun _ topic hne => Endpoint.hasTopic_resubscribe_of_ne _ hne _ topic⟩
  | nothing | shown | drawn | queued => exact ⟨rfl, fun _ _ _ => rfl⟩

end Does

/-- A text fails and leaves the device as it was, or it is a request for a command that does what
it is for. Its reply says which. -/
theorem command_cases (s : Service) (ctx : ControlContext) (client : ClientId) (text : String) :
    (∃ code, (s.command ctx client text).1.reply.Envelope (some code) ∧
      (s.command ctx client text).2 = s) ∨
    ((s.command ctx client text).1.reply.Envelope none ∧
      ∃ request cmd, Json.parse text = .ok request ∧ Command.nameIn request = cmd.name ∧
        Does ctx client request s cmd (s.command ctx client text).2) := by
  obtain ⟨code, henvelope, heq⟩ | ⟨request, cmd, failure, hparse, hname, henvelope, houtcome⟩ :=
    ControlProtocol.dispatch_outcome Endpoint.mediaBoard ctx client s.relays.state s.relays.control
      text
  · refine .inl ⟨code, henvelope, ?_⟩
    rw [command_snd, heq]
    rfl
  · obtain ⟨⟨code, rfl⟩, hsame⟩ | ⟨rfl, hdoes⟩ := does_of_outcome houtcome
    · exact .inl ⟨code, henvelope, hsame⟩
    · exact .inr ⟨henvelope, request, cmd, hparse, hname, hdoes⟩

/-- **A command changes its own, or nothing.** A text that is answered with a failure leaves the
device as it was. One that is answered with success does what its command is for; no text touches
the document, nor the subscriptions of another client. -/
theorem commands_change_their_own (s : Service) (ctx : ControlContext) (client : ClientId)
    (text : String) :
    let r := (s.command ctx client text).1.reply
    let s' := (s.command ctx client text).2
    (r.isOk = false → s' = s) ∧
    (r.isOk = true → ∃ request cmd, Json.parse text = .ok request ∧
      Command.nameIn request = cmd.name ∧ Does ctx client request s cmd s') ∧
    s'.host = s.host ∧
    ∀ id topic, id ≠ client →
      s'.relays.control.hasTopic id topic = s.relays.control.hasTopic id topic := by
  intro r s'
  obtain ⟨code, henvelope, hsame⟩ | ⟨henvelope, request, cmd, hparse, hname, hdoes⟩ :=
    s.command_cases ctx client text
  · have hsame : s' = s := hsame
    rw [show r.isOk = false from henvelope.isOk_eq, hsame]
    exact ⟨fun _ => rfl, nofun, rfl, fun _ _ _ => rfl⟩
  · rw [show r.isOk = true from henvelope.isOk_eq]
    exact ⟨nofun, fun _ => ⟨request, cmd, hparse, hname, hdoes⟩, hdoes.spares⟩

end Service

end DeviceRelay
