import DeviceRelay.Proofs.Control.Replies
import DeviceRelay.Proofs.Endpoint.Limits
import DeviceRelay.Relays.Basic

/-!
# Answers that are small enough

The relay of control commands offers a reply to the client that asked, and a short one where the
reply is too large for the endpoint. Every command is answered so, with two exceptions: a name that
fills the short reply too, and a report of the signal level to everybody, which has no short form.

* `ControlRelay.Offer`: a frame on its way to one client or to all of them.
* `ControlRelay.onText_eq`: what a text does is the offers that it leads to.
* `ControlRelay.Unanswerable`: the texts that are left without an answer.
* `ControlRelay.answered_iff`: there are no others.
-/

namespace DeviceRelay

open Json

/-! ## The short reply -/

/-- The fields of a short reply apart from the name. -/
def tooLargeFields (length limit : Nat) : List (String × Json) :=
  [("error", .string "response_too_large"), ("max", .ofNat limit), ("ok", .bool false),
   ("size", .ofNat length)]

theorem fields_tooLargeReply {reply : Reply} {cmd : String}
    (h : reply.get? "cmd" = some (.string cmd)) (hn : cmd.isEmpty = false) (length limit : Nat) :
    (tooLargeReply reply length limit).fields =
      ("cmd", .string cmd) :: tooLargeFields length limit := by
  have hc : (reply.get? "cmd").bind string? = some cmd := by
    rw [h]
    rfl
  unfold tooLargeReply Reply.error
  rw [hc]
  simp only [hn]
  rfl

theorem fields_tooLargeReply_of_none {reply : Reply} (h : reply.get? "cmd" = none)
    (length limit : Nat) :
    (tooLargeReply reply length limit).fields = tooLargeFields length limit := by
  unfold tooLargeReply Reply.error
  rw [h]
  rfl

theorem size_tooLargeFields (length limit : Nat) :
    textSize (chars (.object (tooLargeFields length limit))) =
      56 + textSize (chars (.ofNat limit)) + textSize (chars (.ofNat length)) := by
  have h1 : escapedSize "error" = 5 := by decide
  have h2 : escapedSize "max" = 3 := by decide
  have h3 : escapedSize "ok" = 2 := by decide
  have h4 : escapedSize "size" = 4 := by decide
  have h5 : textSize (chars (.string "response_too_large")) = 20 := by decide
  have h6 : textSize (chars (.bool false)) = 5 := by decide
  rw [tooLargeFields, textSize_object]
  simp only [memberChars, followingSize, textSize_member, h1, h2, h3, h4, h5, h6]
  omega

/-- Without a name a short reply is short. -/
theorem size_tooLargeFields_le (length limit : Nat) :
    textSize (chars (.object (tooLargeFields length limit))) ≤ 96 := by
  have h1 := textSize_ofNat_le limit
  have h2 := textSize_ofNat_le length
  rw [size_tooLargeFields]
  omega

theorem size_tooLargeReply {reply : Reply} {cmd : String}
    (h : reply.get? "cmd" = some (.string cmd)) (hn : cmd.isEmpty = false) (length limit : Nat) :
    (tooLargeReply reply length limit).size =
      9 + escapedSize cmd + textSize (chars (.object (tooLargeFields length limit))) := by
  have hcmd : escapedSize "cmd" = 3 := by decide
  rw [Reply.size_eq, fields_tooLargeReply h hn, tooLargeFields,
    textSize_object_cons, textSize_member, hcmd, chars, textSize_stringChars]
  omega

theorem size_tooLargeReply_of_none {reply : Reply} (h : reply.get? "cmd" = none)
    (length limit : Nat) : (tooLargeReply reply length limit).size ≤ 96 := by
  rw [Reply.size_eq, fields_tooLargeReply_of_none h]
  exact size_tooLargeFields_le length limit

/-! ## The frames of a reply -/

/-- The reply that stands for one where it is too large. -/
def shortReply (limit : Nat) (reply : Reply) : Reply := tooLargeReply reply reply.size limit

/-- The frames of a reply to one client: where the reply is too large, the short one follows. -/
def replyFrames (limit : Nat) (reply : Reply) : List Frame :=
  if limit < reply.size then [.text reply.render, .text (shortReply limit reply).render]
  else [.text reply.render]

/-- A frame is sent to one client where its send is begun and what is left to the tunnel is sent. -/
theorem finishSend_startSendTo (e : Endpoint) (id : ClientId) (f : Frame) :
    (e.startSendTo id f).2.finishSend (e.startSendTo id f).1.left? = (e.sendTo id f).2 := by
  unfold Endpoint.sendTo
  split <;> (rename_i h; rw [h]; rfl)

theorem finishSend_startReply (e : Endpoint) (id : ClientId) (reply : Reply) :
    (startReply e id reply).2.finishSend (startReply e id reply).1 =
      (replyFrames e.limits.maxBroadcastLength reply).foldl (fun e f => (e.sendTo id f).2) e := by
  unfold startReply replyFrames
  by_cases hlt : e.limits.maxBroadcastLength < reply.size
  · have hlength : e.limits.maxBroadcastLength < (Frame.text reply.render).length := hlt
    have hshort : (e.sendTo id (.text reply.render)).2 = e := by
      unfold Endpoint.sendTo
      rw [Endpoint.startSendTo_of_limit_lt hlength]
    rw [if_pos hlt, List.foldl_cons, List.foldl_cons, List.foldl_nil, hshort,
      ← finishSend_startSendTo, Endpoint.startSendTo_of_limit_lt hlength]
    rfl
  · rw [if_neg hlt, List.foldl_cons, List.foldl_nil, ← finishSend_startSendTo]
    split
    · rename_i length limit e' h
      have hne := Endpoint.startSendTo_ne_payloadTooLarge (e := e) (f := .text reply.render)
        (Nat.not_lt.mp hlt) id length limit
      rw [h] at hne
      exact absurd rfl hne
    · rename_i h
      rw [h]

namespace ControlRelay

/-! ## Offers -/

/-- A frame that is offered to whoever a reply is for. -/
inductive Offer where
  /-- To one client, the far end of the tunnel included. -/
  | direct (id : ClientId) (f : Frame)
  /-- To every local client. -/
  | everyone (f : Frame)

namespace Offer

def frame : Offer → Frame
  | direct _ f => f
  | everyone f => f

/-- Whether an offer is made to a client. -/
def reaches (client : ClientId) : Offer → Prop
  | direct id _ => id = client
  | everyone _ => client.isTunnel = false

/-- The endpoint after an offer: one that fails the check of its length changes nothing. -/
def apply (o : Offer) (e : Endpoint) : Endpoint :=
  match o with
  | direct id f => (e.sendTo id f).2
  | everyone f => (e.broadcast f).2

end Offer

/-- The offers of a reply, in their order. -/
def replyOffers (limit : Nat) (client : ClientId) (r : ControlReply) : List Offer :=
  let direct := (replyFrames limit r.reply).map (Offer.direct client)
  match r.route with
  | .requester => direct
  | .broadcast => .everyone (.text r.reply.render) :: if client.isTunnel then direct else []

/-- The offers that a text of a client leads to. -/
def offers (ctx : ControlContext) (client : ClientId) (text : String) (e : Endpoint)
    (state : ControlState) : List Offer :=
  replyOffers e.limits.maxBroadcastLength client
    (ControlProtocol.dispatch Endpoint.mediaBoard ctx client text state e).1

/-- The endpoint after a command was executed, before its reply is offered. -/
def executed (ctx : ControlContext) (client : ClientId) (text : String) (e : Endpoint)
    (state : ControlState) : Endpoint :=
  (ControlProtocol.dispatch Endpoint.mediaBoard ctx client text state e).2.2

theorem cameraReply_snd (cmd : Command) (facts : DeviceFacts) (apply : Endpoint → Bool × Endpoint)
    (e : Endpoint) :
    (ControlProtocol.cameraReply cmd facts apply e).2 = e ∨
      (ControlProtocol.cameraReply cmd facts apply e).2 = (apply e).2 := by
  unfold ControlProtocol.cameraReply
  split
  · exact .inl rfl
  · right
    split <;> (rename_i heq; rw [heq])

/-- A command changes the subscriptions of the client, or nothing. -/
theorem executed_cases (ctx : ControlContext) (client : ClientId) (text : String) (e : Endpoint)
    (state : ControlState) :
    executed ctx client text e state = e ∨
      ∃ topic on, executed ctx client text e state = (e.setTopic client topic on).2 := by
  unfold executed ControlProtocol.dispatch
  split
  · exact .inl rfl
  · dsimp only
    split
    · exact .inl rfl
    · rename_i cmd _
      cases cmd with
      | cameraSubscribe =>
        exact (cameraReply_snd .cameraSubscribe ctx.facts (fun e => e.setTopic client .camera _)
          e).imp_right fun h => ⟨_, _, h⟩
      | cameraSnapshot =>
        exact (cameraReply_snd .cameraSnapshot ctx.facts (fun e => e.setTopic client .snapshot true)
          e).imp_right fun h => ⟨_, _, h⟩
      | _ => exact .inl rfl

theorem limits_executed (ctx : ControlContext) (client : ClientId) (text : String) (e : Endpoint)
    (state : ControlState) : (executed ctx client text e state).limits = e.limits := by
  obtain heq | ⟨topic, on, heq⟩ := executed_cases ctx client text e state
  · rw [heq]
  · rw [heq, Endpoint.limits_setTopic]

theorem foldl_apply_direct (client : ClientId) (fs : List Frame) (e : Endpoint) :
    (fs.map (Offer.direct client)).foldl (fun e o => o.apply e) e =
      fs.foldl (fun e f => (e.sendTo client f).2) e := by
  rw [List.foldl_map]
  rfl

/-- What a text does to the endpoint is to make its offers, once the command was executed. -/
theorem onText_eq (ctx : ControlContext) (client : ClientId) (text : String) (e : Endpoint)
    (state : ControlState) :
    (onText ctx client text e state).1 =
      (offers ctx client text e state).foldl (fun e o => o.apply e)
        (executed ctx client text e state) := by
  have hl := limits_executed ctx client text e state
  unfold onText startText offers replyOffers
  unfold executed at hl ⊢
  generalize ControlProtocol.dispatch Endpoint.mediaBoard ctx client text state e = d at hl ⊢
  obtain ⟨⟨reply, route⟩, state', e'⟩ := d
  dsimp only at hl ⊢
  rw [← hl]
  cases route with
  | requester =>
    dsimp only
    rw [finishSend_startReply, foldl_apply_direct]
  | broadcast =>
    dsimp only
    rw [List.foldl_cons]
    by_cases ht : client.isTunnel = true
    · rw [if_pos ht, if_pos ht, finishSend_startReply, foldl_apply_direct,
        Endpoint.limits_broadcast]
      rfl
    · rw [if_neg ht, if_neg ht]
      rfl

/-! ## Answers -/

/-- A client is offered a frame that passes the check of its length: the reply, or the short one
where the reply is too large. -/
def Answered (e : Endpoint) (client : ClientId) (os : List Offer) : Prop :=
  ∃ o ∈ os, o.reaches client ∧ e.checkLength o.frame = .ok ()

theorem answered_direct_iff {e : Endpoint} {client : ClientId} {reply : Reply} :
    Answered e client
        ((replyFrames e.limits.maxBroadcastLength reply).map (Offer.direct client)) ↔
      reply.size ≤ e.limits.maxBroadcastLength ∨
        (shortReply e.limits.maxBroadcastLength reply).size ≤ e.limits.maxBroadcastLength := by
  unfold Answered replyFrames
  simp only [Endpoint.checkLength_eq_ok_iff]
  constructor
  · rintro ⟨o, ho, -, hle⟩
    obtain ⟨f, hf, rfl⟩ := List.mem_map.mp ho
    split at hf
    · rcases List.mem_cons.mp hf with rfl | hf
      · exact .inl hle
      · cases List.mem_singleton.mp hf
        exact .inr hle
    · cases List.mem_singleton.mp hf
      exact .inl hle
  · intro h
    by_cases hlt : e.limits.maxBroadcastLength < reply.size
    · rw [if_pos hlt]
      exact ⟨.direct client (.text (shortReply e.limits.maxBroadcastLength reply).render),
        by simp, rfl, h.resolve_left (Nat.not_le.mpr hlt)⟩
    · rw [if_neg hlt]
      exact ⟨.direct client (.text reply.render), by simp, rfl, Nat.not_lt.mp hlt⟩

theorem answered_everyone_iff {e : Endpoint} {client : ClientId} {f : Frame}
    (hc : client.isTunnel = false) :
    Answered e client [.everyone f] ↔ f.length ≤ e.limits.maxBroadcastLength := by
  unfold Answered
  simp only [Endpoint.checkLength_eq_ok_iff, List.mem_singleton, exists_eq_left]
  exact and_iff_right hc

/-- The texts that are left without an answer by their size. -/
inductive Unanswerable (ctx : ControlContext) (client : ClientId) (text : String) : Prop where
  /-- Through the tunnel, a name that no command has and that is too long to be repeated: it is
  repeated in the short reply too. -/
  | echoed {request : Json} (hc : client.isTunnel = true) (hp : Json.parse text = .ok request)
      (hn : Command.ofName? (Command.nameIn request) = none)
      (hlong : controlLimits.maxBroadcastLength <
        (Reply.error (some (Command.nameIn request)) "unknown_cmd").size)
  /-- From a local client, the signal level with a network name that is too long: the report goes
  to everybody, and no short reply follows. -/
  | report {request : Json} (hc : client.isTunnel = false) (hp : Json.parse text = .ok request)
      (hn : Command.ofName? (Command.nameIn request) = some .getRssi)
      (hlong : controlLimits.maxBroadcastLength <
        (ControlProtocol.rssiReply ctx.facts.link).size)

theorem unanswerable_iff {ctx : ControlContext} {client : ClientId} {text : String}
    {request : Json} (hp : Json.parse text = .ok request) :
    Unanswerable ctx client text ↔
      (client.isTunnel = true ∧ Command.ofName? (Command.nameIn request) = none ∧
        controlLimits.maxBroadcastLength <
          (Reply.error (some (Command.nameIn request)) "unknown_cmd").size) ∨
      (client.isTunnel = false ∧ Command.ofName? (Command.nameIn request) = some .getRssi ∧
        controlLimits.maxBroadcastLength < (ControlProtocol.rssiReply ctx.facts.link).size) := by
  constructor
  · rintro (⟨hc, hp', hn, hlong⟩ | ⟨hc, hp', hn, hlong⟩)
    · cases hp.symm.trans hp'
      exact .inl ⟨hc, hn, hlong⟩
    · cases hp.symm.trans hp'
      exact .inr ⟨hc, hn, hlong⟩
  · rintro (⟨hc, hn, hlong⟩ | ⟨hc, hn, hlong⟩)
    · exact .echoed hc hp hn hlong
    · exact .report hc hp hn hlong

theorem length_nameIn_le {text : String} {request : Json} (hp : Json.parse text = .ok request) :
    (Command.nameIn request).length ≤ text.utf8ByteSize := by
  unfold Command.nameIn Json.text
  cases h : request.text? "cmd" with
  | none => exact Nat.zero_le _
  | some name =>
    rw [Option.getD_some]
    have hle := length_text?_le hp h
    have hsize := length_le_textSize text.toList
    rw [← size_ofList, String.ofList_toList, String.length_toList] at hsize
    exact Nat.le_trans hle hsize

/-- A refusal is offered whole or not at all: the short reply repeats the name and says more. -/
theorem answered_refusal_iff {e : Endpoint} {client : ClientId} {name : String}
    (hl : e.limits = controlLimits) :
    Answered e client ((replyFrames e.limits.maxBroadcastLength
        (.error (some name) "unknown_cmd")).map (Offer.direct client)) ↔
      (Reply.error (some name) "unknown_cmd").size ≤ controlLimits.maxBroadcastLength := by
  rw [answered_direct_iff, hl]
  refine or_iff_left_of_imp fun hshort => ?_
  by_cases hn : name.isEmpty = true
  · rw [String.isEmpty_iff.mp hn]
    decide
  · have hn := eq_false_of_ne_true hn
    unfold shortReply at hshort
    rw [size_tooLargeReply (Reply.get?_error hn _) hn, size_tooLargeFields] at hshort
    have hcode : escapedSize "unknown_cmd" = 11 := by decide
    rw [Reply.size_error hn, hcode]
    omega

theorem size_refusal_le (name : String) :
    (Reply.error (some name) "unknown_cmd").size ≤ 43 + 6 * name.length := by
  by_cases hn : name.isEmpty = true
  · rw [String.isEmpty_iff.mp hn]
    decide
  · have hcode : escapedSize "unknown_cmd" = 11 := by decide
    have hname := escapedSize_le name
    rw [Reply.size_error (eq_false_of_ne_true hn), hcode]
    omega

/-- A text that a local client may send is too short for a refusal that is too large. -/
theorem size_refusal_le_of_local {text : String} {request : Json}
    (hp : Json.parse text = .ok request) (hs : text.utf8ByteSize ≤ controlLimits.maxMessageLength) :
    (Reply.error (some (Command.nameIn request)) "unknown_cmd").size ≤
      controlLimits.maxBroadcastLength := by
  have hlen : controlLimits.maxMessageLength = 2048 := rfl
  have hmax : controlLimits.maxBroadcastLength = 163840 := rfl
  have hname := length_nameIn_le hp
  have hsize := size_refusal_le (Command.nameIn request)
  omega

/-- A reply that names a command of the table, or none, has a short reply that fits. -/
theorem answered_direct {e : Endpoint} {client : ClientId} {reply : Reply}
    (hl : e.limits = controlLimits)
    (h : reply.get? "cmd" = none ∨ ∃ cmd : Command, reply.get? "cmd" = some (.string cmd.name)) :
    Answered e client
      ((replyFrames e.limits.maxBroadcastLength reply).map (Offer.direct client)) := by
  have hmax : controlLimits.maxBroadcastLength = 163840 := rfl
  rw [answered_direct_iff, hl, hmax]
  right
  unfold shortReply
  rcases h with h | ⟨cmd, h⟩
  · exact Nat.le_trans (size_tooLargeReply_of_none h _ _) (by decide)
  · have hname := ControlProtocol.escapedSize_name_le cmd
    have hrest := size_tooLargeFields_le reply.size 163840
    rw [size_tooLargeReply h (ControlProtocol.isEmpty_name cmd)]
    omega

/-- A known command: only a report to everybody can be too large. -/
theorem answered_known_iff {e : Endpoint} {client : ClientId} {cmd : Command} {reply : Reply}
    (hl : e.limits = controlLimits) (h : reply.get? "cmd" = some (.string cmd.name)) :
    Answered e client (replyOffers e.limits.maxBroadcastLength client
        ⟨reply, ControlProtocol.routeOf cmd⟩) ↔
      ¬ (client.isTunnel = false ∧ cmd = .getRssi ∧
        controlLimits.maxBroadcastLength < reply.size) := by
  have hdirect : Answered e client
      ((replyFrames e.limits.maxBroadcastLength reply).map (Offer.direct client)) :=
    answered_direct hl (.inr ⟨cmd, h⟩)
  by_cases hcmd : cmd = .getRssi
  · subst hcmd
    by_cases hc : client.isTunnel = true
    · simp only [replyOffers, ControlProtocol.routeOf, hc]
      obtain ⟨o, ho, hr⟩ := hdirect
      exact iff_of_true ⟨o, List.mem_cons_of_mem _ ho, hr⟩ (by nofun)
    · simp only [replyOffers, ControlProtocol.routeOf, if_neg hc]
      rw [answered_everyone_iff (eq_false_of_ne_true hc), hl]
      simp only [eq_false_of_ne_true hc, true_and, Nat.not_lt]
      rfl
  · have hroute : ControlProtocol.routeOf cmd = .requester := by
      cases cmd with
      | getRssi => exact absurd rfl hcmd
      | _ => rfl
    rw [hroute]
    exact iff_of_true hdirect fun hr => hcmd hr.2.1

/-! ## A request for the signal level -/

theorem escapedSize_replicate (n : Nat) :
    escapedSize (String.ofList (List.replicate n 'a')) = n := by
  have ha : textSize (escapeChar 'a') = 1 := by decide
  unfold escapedSize
  rw [String.toList_ofList]
  induction n with
  | zero => rfl
  | succ n ih => rw [List.replicate_succ, List.flatMap_cons, textSize_append, ih, ha, Nat.add_comm]

/-- A report of the signal level holds the name of the network. -/
theorem escapedSize_ssid_lt (l : LinkStatus) :
    escapedSize l.ssid < (ControlProtocol.rssiReply (some l)).size := by
  have hf : (ControlProtocol.rssiReply (some l)).fields =
      [("cmd", .string Command.getRssi.name), ("connected", .bool true), ("ok", .bool true),
       ("rssi", .ofInt l.rssi), ("ssid", .string l.ssid)] := rfl
  have hs : textSize (chars (.string l.ssid)) = escapedSize l.ssid + 2 := by
    rw [chars, textSize_stringChars]
  rw [Reply.size_eq, hf, textSize_object]
  simp only [memberChars, followingSize, textSize_member, hs]
  omega

/-- A device in a network of some name. -/
def deviceIn (ssid : String) : ControlContext where
  facts :=
    { hostname := "pier", ipAddress := "10.0.0.2", wifiMode := "sta", config := .object []
      info := [], link := some ⟨ssid, -50⟩, camera := false }
  log := none
  tunnels := []
  now := .ofSeconds 0
  seed := 0

/-- The control endpoint with one local client. -/
def oneClient : Endpoint := ((Endpoint.new controlPath controlLimits none).accept (.new 16)).2

def noChanges : ControlState := ⟨.ofDepth 4, .new (.ofSeconds 0)⟩

def signalRequest : String := "\x7b\"cmd\":\"get_rssi\"\x7d"

theorem parse_signalRequest :
    Json.parse signalRequest = .ok (.object [("cmd", .string Command.getRssi.name)]) :=
  ControlProtocol.parse_bareRequest (by decide)

theorem offers_signalRequest (ssid : String) :
    offers (deviceIn ssid) ⟨1⟩ signalRequest oneClient noChanges =
      [.everyone (.text (ControlProtocol.rssiReply (some ⟨ssid, -50⟩)).render)] := by
  unfold offers
  rw [ControlProtocol.dispatch_of_known parse_signalRequest rfl]
  rfl

theorem executed_signalRequest (ssid : String) :
    executed (deviceIn ssid) ⟨1⟩ signalRequest oneClient noChanges = oneClient := by
  unfold executed ControlProtocol.dispatch
  rw [parse_signalRequest]
  rfl

theorem unanswered_of_long {ssid : String} (h : 163840 < escapedSize ssid) :
    ¬ Answered oneClient ⟨1⟩ (offers (deviceIn ssid) ⟨1⟩ signalRequest oneClient noChanges) ∧
      (onText (deviceIn ssid) ⟨1⟩ signalRequest oneClient noChanges).1 = oneClient := by
  have hlong : oneClient.limits.maxBroadcastLength <
      (ControlProtocol.rssiReply (some ⟨ssid, -50⟩)).size :=
    Nat.lt_trans h (escapedSize_ssid_lt ⟨ssid, -50⟩)
  rw [onText_eq, offers_signalRequest, executed_signalRequest]
  constructor
  · rw [answered_everyone_iff rfl]
    exact Nat.not_le.mpr hlong
  · exact Endpoint.broadcast_of_limit_lt hlong

/-! ## Which texts are answered -/

/-- What a text of a client does to the endpoint is to offer frames, and the client is offered one
that is small enough, unless the text is one of those that are left without an answer. -/
theorem answered_iff (ctx : ControlContext) (client : ClientId) (text : String) (e : Endpoint)
    (state : ControlState) (hl : e.limits = controlLimits)
    (hs : client.isTunnel = false → text.utf8ByteSize ≤ controlLimits.maxMessageLength) :
    (onText ctx client text e state).1 =
        (offers ctx client text e state).foldl (fun e o => o.apply e)
          (executed ctx client text e state) ∧
      (Answered e client (offers ctx client text e state) ↔ ¬ Unanswerable ctx client text) := by
  refine ⟨onText_eq ctx client text e state, ?_⟩
  unfold offers
  cases hp : Json.parse text with
  | error err =>
    rw [ControlProtocol.dispatch_of_error hp]
    refine iff_of_true (answered_direct hl (.inl ?_)) ?_
    · rw [Reply.detail, Reply.get?_set_of_ne (by decide)]
      rfl
    · rintro (⟨-, hp', -, -⟩ | ⟨-, hp', -, -⟩) <;> cases hp.symm.trans hp'
  | ok request =>
    rw [unanswerable_iff hp]
    cases hn : Command.ofName? (Command.nameIn request) with
    | none =>
      rw [ControlProtocol.dispatch_of_unknown hp hn]
      refine (answered_refusal_iff hl).trans ?_
      simp only [reduceCtorEq, false_and, and_false, or_false, true_and, not_and, Nat.not_lt]
      refine ⟨fun hle _ => hle, fun hle => ?_⟩
      by_cases hc : client.isTunnel = true
      · exact hle hc
      · exact size_refusal_le_of_local hp (hs (eq_false_of_ne_true hc))
    | some cmd =>
      rw [ControlProtocol.dispatch_of_known hp hn,
        answered_known_iff hl (ControlProtocol.cmd_execute _ _ _ _ _ _ _)]
      simp only [reduceCtorEq, false_and, and_false, false_or, Option.some.injEq]
      refine not_congr (and_congr_right fun _ => and_congr_right fun hcmd => ?_)
      rw [hcmd]
      rfl

/-- In a network with a short name the report is offered. -/
theorem answered_short_name :
    oneClient.limits = controlLimits ∧
      signalRequest.utf8ByteSize ≤ controlLimits.maxMessageLength ∧
      Answered oneClient ⟨1⟩
        (offers (deviceIn "harbor") ⟨1⟩ signalRequest oneClient noChanges) := by
  have hl : oneClient.limits = controlLimits := rfl
  have hs : signalRequest.utf8ByteSize ≤ controlLimits.maxMessageLength := by decide
  have hiff := (answered_iff (deviceIn "harbor") ⟨1⟩ signalRequest oneClient noChanges hl
    fun _ => hs).2
  refine ⟨hl, hs, hiff.mpr ?_⟩
  rw [unanswerable_iff parse_signalRequest]
  decide

/-- In a network with a long name a local client that asks for the signal level gets nothing, and
the endpoint stays as it was. -/
theorem unanswered_long_name :
    signalRequest.utf8ByteSize ≤ controlLimits.maxMessageLength ∧
      ¬ Answered oneClient ⟨1⟩ (offers (deviceIn (String.ofList (List.replicate 200000 'a'))) ⟨1⟩
        signalRequest oneClient noChanges) ∧
      (onText (deviceIn (String.ofList (List.replicate 200000 'a'))) ⟨1⟩ signalRequest oneClient
        noChanges).1 = oneClient := by
  have hlong : 163840 < escapedSize (String.ofList (List.replicate 200000 'a')) := by
    rw [escapedSize_replicate]
    decide
  exact ⟨by decide, unanswered_of_long hlong⟩

end ControlRelay

end DeviceRelay
