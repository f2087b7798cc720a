import DeviceRelay.Proofs.Control.Effects

/-!
# What the replies to camera commands say

A client subscribes to camera frames, or asks for the next one, and the reply tells it what it asked
for. That is what the client has got where the command succeeded. The field is there also where the
command failed, and then it is true only by chance: if the client had that subscription before.

* `Endpoint.knows`: the clients whose subscriptions can be changed.
* `ControlRelay.asked?`: the subscription that a command asks for.
* `ControlRelay.Truthful`: a reply whose fields agree with the subscriptions of its client.
* `ControlRelay.truthful_iff`: which replies to camera commands do.
-/

namespace DeviceRelay

namespace Endpoint

/-! ## Subscriptions of the client itself -/

/-- Whether a client is tracked, or is the far end of a tunnel that is attached. -/
def knows (e : Endpoint) (client : ClientId) : Bool :=
  if client.isTunnel then e.tunnel.isSome else client ∈ e.clientIds

section Knows

variable {e : Endpoint} {client : ClientId} {topic : Topic} {on : Bool}

theorem setTopic_eq (e : Endpoint) (client : ClientId) (topic : Topic) (on : Bool) :
    e.setTopic client topic on =
      if e.knows client then (true, e.resubscribe client fun s => s.set topic on)
      else (false, e) := by
  unfold setTopic knows resubscribe
  by_cases hfar : client.isTunnel = true
  · simp only [hfar, if_true]
  · have hfind : (e.table.find? client).isSome = true ↔ client ∈ e.clientIds :=
      ClientTable.find?_isSome_iff
    simp only [hfar, Bool.false_eq_true, if_false, hfind, decide_eq_true_eq]

/-- A client that is known has the subscription that was set. -/
theorem hasTopic_resubscribe_self (h : e.knows client = true) :
    (e.resubscribe client fun s => s.set topic on).hasTopic client topic = on := by
  have hset (s : TopicSet) : (s.set topic on).contains topic = on := by
    cases topic <;> rfl
  unfold resubscribe hasTopic
  unfold knows at h
  by_cases hfar : client.isTunnel = true
  · rw [if_pos hfar, if_pos hfar]
    exact hset _
  · rw [if_neg hfar] at h
    rw [if_neg hfar, if_neg hfar]
    have hmem : client ∈ e.table.ids := of_decide_eq_true h
    obtain ⟨c, hc⟩ := Option.isSome_iff_exists.mp (ClientTable.find?_isSome_iff.mpr hmem)
    have hfind := ClientTable.find?_modify_self
      (f := fun c => { c with topics := c.topics.set topic on }) (fun _ => rfl) e.table client
    simp only [hfind, hc]
    exact hset _

end Knows

end Endpoint

namespace ControlRelay

/-! ## Replies -/

/-- The subscription that a camera command asks for: its topic, and whether it is to be on. -/
def asked? (request : Json) : Command → Option (Topic × Bool)
  | .cameraSubscribe => some (.camera, request.flag "enable" true)
  | .cameraSnapshot => some (.snapshot, true)
  | _ => none

/-- What a reply says of camera frames is so: `subscribed` is whether its client gets every frame,
and a snapshot that is `queued` is one that the client waits for. -/
structure Truthful (client : ClientId) (reply : Reply) (e : Endpoint) : Prop where
  subscribed : ∀ v, reply.get? "subscribed" = some v → v = .bool (e.hasTopic client .camera)
  queued : reply.get? "queued" = some (.bool true) → e.hasTopic client .snapshot = true

section Truthful

variable {ctx : ControlContext} {client : ClientId} {request : Json} {cmd : Command}
  {topic : Topic} {on : Bool}

/-- The field that tells a client what it asked for. -/
def field : Topic → String
  | .camera => "subscribed"
  | .snapshot => "queued"

/-- A reply that says nothing of camera frames yet. -/
def Quiet (reply : Reply) : Prop :=
  reply.get? "subscribed" = none ∧ reply.get? "queued" = none

theorem truthful_set_iff {reply : Reply} {e : Endpoint} (hquiet : Quiet reply)
    (hon : topic = .snapshot → on = true) :
    Truthful client (reply.set (field topic) (.bool on)) e ↔ e.hasTopic client topic = on := by
  cases topic with
  | camera =>
    have hsaid : (reply.set (field .camera) (.bool on)).get? "subscribed" = some (.bool on) :=
      (Reply.get?_set _ _ _ _).trans (if_pos rfl)
    have hother : (reply.set (field .camera) (.bool on)).get? "queued" = none :=
      (Reply.get?_set_of_ne (by decide) _ _).trans hquiet.2
    refine ⟨fun h => ?_, fun h => ⟨fun v hv => ?_, fun hv => ?_⟩⟩
    · exact (Json.bool.inj (h.subscribed _ hsaid)).symm
    · rw [h]
      exact Option.some.inj (hv.symm.trans hsaid)
    · rw [hother] at hv
      cases hv
  | snapshot =>
    obtain rfl := hon rfl
    have hsaid : (reply.set (field .snapshot) (.bool true)).get? "queued" = some (.bool true) :=
      (Reply.get?_set _ _ _ _).trans (if_pos rfl)
    have hother : (reply.set (field .snapshot) (.bool true)).get? "subscribed" = none :=
      (Reply.get?_set_of_ne (by decide) _ _).trans hquiet.1
    refine ⟨fun h => h.queued hsaid, fun h => ⟨fun v hv => ?_, fun _ => h⟩⟩
    rw [hother] at hv
    cases hv

/-- The subscription is changed where there is a camera and the client is known. -/
theorem cameraReply_setTopic (cmd : Command) (ctx : ControlContext) (client : ClientId)
    (topic : Topic) (on : Bool) (e : Endpoint) :
    ∃ reply, Quiet reply ∧
      ControlProtocol.cameraReply cmd ctx.facts (fun e => e.setTopic client topic on) e =
        (reply, if ctx.facts.camera = true ∧ e.knows client = true then
          e.resubscribe client fun s => s.set topic on else e) := by
  have hfailed (code : String) : Quiet (.error (some cmd.name) code) :=
    ⟨Reply.get?_error_of_ne (by decide) (by decide) _ _,
      Reply.get?_error_of_ne (by decide) (by decide) _ _⟩
  have hdone : Quiet (.ok cmd.name) :=
    ⟨Reply.get?_ok_of_ne (by decide) _, Reply.get?_ok_of_ne (by decide) _⟩
  unfold ControlProtocol.cameraReply
  dsimp only
  rw [Endpoint.setTopic_eq]
  cases ctx.facts.camera with
  | false => exact ⟨_, hfailed "camera_unavailable", by simp⟩
  | true =>
    cases e.knows client with
    | false => exact ⟨_, hfailed "unknown_client", by simp⟩
    | true => exact ⟨_, hdone, by simp⟩

/-- What a camera command does and says. -/
theorem dispatch_camera {text : String} (hparse : Json.parse text = .ok request)
    (hname : Command.nameIn request = cmd.name) (hasks : asked? request cmd = some (topic, on))
    (ctx : ControlContext) (client : ClientId) (state : ControlState) (e : Endpoint) :
    ∃ reply, Quiet reply ∧
      (ControlProtocol.dispatch Endpoint.mediaBoard ctx client text state e).1.reply =
        reply.set (field topic) (.bool on) ∧
      executed ctx client text e state =
        if ctx.facts.camera = true ∧ e.knows client = true then
          e.resubscribe client fun s => s.set topic on else e := by
  have hknown := Command.ofName?_eq_some_iff.mpr hname
  have hexecuted : executed ctx client text e state =
      (ControlProtocol.execute Endpoint.mediaBoard ctx client cmd request state e).2.2 := by
    unfold executed ControlProtocol.dispatch
    rw [hparse]
    dsimp only
    rw [hknown]
  rw [ControlProtocol.dispatch_of_known hparse hknown, hexecuted]
  obtain ⟨reply, hquiet, heq⟩ := cameraReply_setTopic cmd ctx client topic on e
  cases cmd with
  | cameraSubscribe =>
    cases hasks
    refine ⟨reply, hquiet, ?_⟩
    unfold ControlProtocol.execute
    dsimp only [Endpoint.mediaBoard]
    rw [heq]
    exact ⟨rfl, rfl⟩
  | cameraSnapshot =>
    cases hasks
    refine ⟨reply, hquiet, ?_⟩
    unfold ControlProtocol.execute
    dsimp only [Endpoint.mediaBoard]
    rw [heq]
    exact ⟨rfl, rfl⟩
  | _ => cases hasks

/-- **When a reply to a camera command is true.** The command succeeded, since there is a camera and
the client is known, or the client had before what the reply says. -/
theorem truthful_iff {text : String} (hparse : Json.parse text = .ok request)
    (hname : Command.nameIn request = cmd.name) (hasks : asked? request cmd = some (topic, on))
    (ctx : ControlContext) (client : ClientId) (state : ControlState) (e : Endpoint) :
    Truthful client (ControlProtocol.dispatch Endpoint.mediaBoard ctx client text state e).1.reply
        (executed ctx client text e state) ↔
      (ctx.facts.camera = true ∧ e.knows client = true) ∨ e.hasTopic client topic = on := by
  have hon : topic = .snapshot → on = true := by
    rintro rfl
    cases cmd <;> cases hasks
    rfl
  obtain ⟨reply, hquiet, hreply, hafter⟩ := dispatch_camera hparse hname hasks ctx client state e
  rw [hreply, truthful_set_iff hquiet hon, hafter]
  by_cases hdone : ctx.facts.camera = true ∧ e.knows client = true
  · rw [if_pos hdone]
    exact iff_of_true (Endpoint.hasTopic_resubscribe_self hdone.2) (.inl hdone)
  · rw [if_neg hdone]
    exact (or_iff_right hdone).symm

end Truthful

/-! ## With and without a camera -/

def subscribeRequest : String := "\x7b\"cmd\":\"camera_subscribe\"\x7d"

theorem parse_subscribeRequest :
    Json.parse subscribeRequest = .ok (.object [("cmd", .string Command.cameraSubscribe.name)]) :=
  ControlProtocol.parse_bareRequest (by decide)

/-- The device with a camera. -/
def withCamera (ctx : ControlContext) : ControlContext :=
  { ctx with facts := { ctx.facts with camera := true } }

/-- With a camera a tracked client is told the truth. -/
theorem truthful_iff_with_camera :
    Json.parse subscribeRequest = .ok (.object [("cmd", .string Command.cameraSubscribe.name)]) ∧
      Command.nameIn (.object [("cmd", .string Command.cameraSubscribe.name)]) =
        Command.cameraSubscribe.name ∧
      asked? (.object [("cmd", .string Command.cameraSubscribe.name)]) .cameraSubscribe =
        some (.camera, true) ∧
      Truthful ⟨1⟩
        (ControlProtocol.dispatch Endpoint.mediaBoard (withCamera (deviceIn "harbor")) ⟨1⟩
          subscribeRequest noChanges oneClient).1.reply
        (executed (withCamera (deviceIn "harbor")) ⟨1⟩ subscribeRequest oneClient noChanges) := by
  have hname : Command.nameIn (.object [("cmd", .string Command.cameraSubscribe.name)]) =
      Command.cameraSubscribe.name := rfl
  have hasks : asked? (.object [("cmd", .string Command.cameraSubscribe.name)]) .cameraSubscribe =
      some (.camera, true) := rfl
  exact ⟨parse_subscribeRequest, hname, hasks,
    (truthful_iff parse_subscribeRequest hname hasks _ _ _ _).mpr (.inl ⟨rfl, by decide⟩)⟩

/-- Without one it is told that the command failed, and still that it is subscribed. -/
theorem untrue_without_camera :
    let reply := (ControlProtocol.dispatch Endpoint.mediaBoard (deviceIn "harbor") ⟨1⟩
      subscribeRequest noChanges oneClient).1.reply
    let after := executed (deviceIn "harbor") ⟨1⟩ subscribeRequest oneClient noChanges
    oneClient.clientIds = [⟨1⟩] ∧
      reply.get? "error" = some (.string "camera_unavailable") ∧
      reply.get? "subscribed" = some (.bool true) ∧
      after.hasTopic ⟨1⟩ .camera = false ∧ ¬ Truthful ⟨1⟩ reply after := by
  have hreply : (ControlProtocol.dispatch Endpoint.mediaBoard (deviceIn "harbor") ⟨1⟩
      subscribeRequest noChanges oneClient).1.reply =
        (Reply.error (some Command.cameraSubscribe.name) "camera_unavailable").set "subscribed"
          (.bool true) := by
    rw [ControlProtocol.dispatch_of_known parse_subscribeRequest rfl]
    rfl
  have hafter : executed (deviceIn "harbor") ⟨1⟩ subscribeRequest oneClient noChanges =
      oneClient := by
    unfold executed ControlProtocol.dispatch
    rw [parse_subscribeRequest]
    rfl
  have hnot : oneClient.hasTopic ⟨1⟩ .camera = false := by decide
  dsimp only
  rw [hreply, hafter]
  refine ⟨rfl, by decide, by decide, hnot, fun h => ?_⟩
  have hsaid := h.subscribed (.bool true) (by decide)
  rw [hnot] at hsaid
  cases hsaid

end ControlRelay

end DeviceRelay
