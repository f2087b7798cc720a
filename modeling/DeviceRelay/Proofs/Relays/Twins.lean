import DeviceRelay.Proofs.Control.Effects
import DeviceRelay.Proofs.Document.Alike
import DeviceRelay.Proofs.Endpoint.Bare
import DeviceRelay.Proofs.Relays.Following

/-!
# Two devices side by side

Two devices are twins if they differ only in credentials, in how their tunnels get on, and in what
waits at their endpoints. They stay twins whatever happens to both of them, and whatever their
tunnels do, each by itself. An update that names the cloud section may start a tunnel of one device
over and leave that of the other alone, but the path and the switch of each tunnel stay the same.

* `Service.Happening`, `Service.live`: what happens to a device.
* `Service.Abreast`: two courses that are the same but for what tunnels do by themselves.
* `Service.Twins`: what two such courses keep.
-/

namespace DeviceRelay

open Json

/-! ## What the owner of a tunnel has set -/

namespace Tunnel

/-- What the owner of a tunnel has set, and the call that is under way. -/
def owned (t : Tunnel) : TunnelSettings × Option ControlTask := (t.settings, t.control)

/-- A send is no call of the owner. -/
theorem owned_sendNow (t : Tunnel) (f : Frame) : (t.sendNow f).2.owned = t.owned := by
  unfold sendNow
  split
  · rfl
  · split
    · rfl
    · unfold offer
      dsimp only
      split <;> rfl

end Tunnel

namespace Endpoint

/-- What the owner of the tunnel has set. -/
def owned (e : Endpoint) : Option (TunnelSettings × Option ControlTask) :=
  e.tunnel.map Tunnel.owned

/-- Whether a call puts another tunnel in the place of the one that is attached. -/
def Call.attaches : Call → Bool
  | .attachTunnel _ => true
  | _ => false

variable (e : Endpoint)

theorem owned_release (id : ClientId) : (e.release id).2.owned = e.owned := by
  unfold release
  split <;> rfl

theorem owned_fanOut (wanted : Client → Bool) (m : Message) :
    (e.fanOut wanted m).2.owned = e.owned :=
  congrArg (Option.map Tunnel.owned) (far_releaseAll (e.queueWanted wanted m) _).1

theorem owned_sendToTunnel (f : Frame) : (e.sendToTunnel f).2.owned = e.owned := by
  unfold sendToTunnel owned
  cases ht : e.tunnel with
  | none => exact congrArg (Option.map Tunnel.owned) ht
  | some t => exact congrArg some (t.owned_sendNow f)

theorem owned_forwardToTunnel (f : Frame) : (e.forwardToTunnel f).2.owned = e.owned := by
  rw [forwardToTunnel_eq]
  unfold owned
  dsimp only
  split
  · cases e.tunnel with
    | none => rfl
    | some t => exact congrArg some (t.owned_sendNow f)
  · rfl

theorem owned_startSendTo (id : ClientId) (f : Frame) :
    (e.startSendTo id f).2.owned = e.owned := by
  unfold startSendTo
  split
  · rfl
  · split
    · rfl
    · split
      · rfl
      · split
        · rfl
        · rfl
        · exact owned_release e id

theorem owned_broadcast (f : Frame) : (e.broadcast f).2.owned = e.owned := by
  unfold broadcast
  split
  · rfl
  · exact owned_fanOut e _ _

theorem owned_setTopic (id : ClientId) (topic : Topic) (on : Bool) :
    (e.setTopic id topic on).2.owned = e.owned := by
  unfold setTopic
  split <;> split <;> rfl

theorem owned_setOutbox (id : ClientId) (f : BoundedQueue Message → BoundedQueue Message) :
    (e.setOutbox id f).owned = e.owned := by
  unfold setOutbox
  split <;> rfl

theorem owned_publishTopic (topic : Topic) (bytes : List UInt8) :
    (e.publishTopic topic bytes).2.owned = e.owned := by
  have hout := owned_fanOut e (fun c => c.topics.wants topic) (.data (.binary bytes))
  unfold publishTopic
  dsimp only
  split
  · rfl
  · dsimp only
    split
    · rw [owned_forwardToTunnel]
      exact hout
    · exact hout

/-- **What an owner has set** stays as it is, whatever else happens to the endpoint. -/
theorem owned_apply {c : Call} (h : c.attaches = false) : (e.apply c).owned = e.owned := by
  cases c with
  | accept outbox => rw [apply, accept_snd]; rfl
  | release id => exact owned_release e id
  | closeAll =>
    rw [apply, closeAll]
    dsimp only
    rw [foldl_depart]
    rfl
  | sendTo id f =>
    have hstart := owned_startSendTo e id f
    rw [apply, sendTo]
    split
    · rename_i heq
      rw [heq] at hstart
      exact hstart
    · rename_i heq
      rw [heq] at hstart
      rw [owned_sendToTunnel]
      exact hstart
  | broadcast f => exact owned_broadcast e f
  | publish f =>
    have hout := owned_broadcast e f
    rw [apply, publish]
    split
    · rename_i heq
      rw [heq] at hout
      exact hout
    · rename_i heq
      rw [heq] at hout
      rw [owned_forwardToTunnel]
      exact hout
  | publishTopic topic bytes => exact owned_publishTopic e topic bytes
  | copyTo id m =>
    rw [apply, copyTo]
    split
    · rfl
    · split
      · exact owned_release e id
      · exact owned_setOutbox e id _
  | setTopic id topic on => exact owned_setTopic e id topic on
  | deliver id f => rw [apply, deliver_eq]; rfl
  | attachTunnel t => cases h
  | read id count | hangUp id => exact owned_setOutbox e id _
  | deliverFromTunnel | carry | handle => rfl

end Endpoint

/-! ## The relays -/

/-- The path of a tunnel's endpoint and whether the tunnel is enabled. -/
def TunnelSettings.switch (s : TunnelSettings) : String × Bool := (s.label, s.enabled)

namespace DeviceRelays

/-- The paths of all tunnels, and whether they are enabled. -/
def switches (r : DeviceRelays) : List (String × Bool) :=
  r.fleet.settings.map TunnelSettings.switch

variable {r : DeviceRelays}

theorem owned_withControl {control : Endpoint} (h : control.owned = r.control.owned) :
    ({ r with control := control } : DeviceRelays).tunnels.map Tunnel.owned =
      r.tunnels.map Tunnel.owned := by
  have hlist : control.tunnel.toList.map Tunnel.owned =
      r.control.tunnel.toList.map Tunnel.owned := by
    rw [← Option.toList_map, ← Option.toList_map]
    exact congrArg Option.toList h
  simp only [tunnels_eq, List.map_append, hlist]

theorem switches_eq (r : DeviceRelays) :
    r.switches = (r.tunnels.map Tunnel.owned).map fun o => o.1.switch := by
  rw [switches, Fleet.settings, List.map_map, List.map_map]
  rfl

theorem quiet_iff (r : DeviceRelays) :
    r.fleet.Quiet ↔ ∀ o ∈ r.tunnels.map Tunnel.owned, o.2 = none := by
  rw [List.forall_mem_map]
  rfl

theorem switches_withControl {control : Endpoint} (h : control.owned = r.control.owned) :
    ({ r with control := control } : DeviceRelays).switches = r.switches := by
  rw [switches_eq, owned_withControl h, ← switches_eq]

theorem quiet_withControl {control : Endpoint} (h : control.owned = r.control.owned)
    (hquiet : r.fleet.Quiet) : ({ r with control := control } : DeviceRelays).fleet.Quiet := by
  rw [quiet_iff] at hquiet ⊢
  rw [owned_withControl h]
  exact hquiet

theorem bare_takeTunnel (e : Endpoint) (tunnels : List Tunnel) :
    (takeTunnel e tunnels).1.bare = e.bare := by
  cases tunnels with
  | nil => rfl
  | cons t tunnels =>
    rw [takeTunnel]
    split
    · rename_i hsome
      obtain ⟨old, hold⟩ := Option.isSome_iff_exists.mp hsome
      rw [Endpoint.bare, Endpoint.bare, hold]
      rfl
    · rfl

/-- What tunnels do by themselves does not count for commands. -/
theorem bare_handOn (r : DeviceRelays) (f : Fleet) (seen : List Fleet.Seen) :
    (seen.foldl deliverSeen (r.putFleet f)).control.bare = r.control.bare := by
  have hput : (r.putFleet f).control.bare = r.control.bare := bare_takeTunnel r.control f.tunnels
  rw [← hput]
  generalize r.putFleet f = r
  induction seen generalizing r with
  | nil => rfl
  | cons s seen ih =>
    rw [List.foldl_cons, ih]
    obtain ⟨index, _ | _ | f⟩ := s
    · rfl
    · rfl
    · unfold deliverSeen
      dsimp only
      split <;> rfl

theorem bare_applyCloud (r : DeviceRelays) (network : Network) (s : CloudSettings)
    (now : Duration) : (r.applyCloud network s now).control.bare = r.control.bare := by
  have hcall (r : DeviceRelays) (index : Nat) (e : TunnelEvent) :
      (r.callTunnel network index now e).control.bare = r.control.bare := bare_handOn r _ _
  unfold applyCloud
  generalize List.range r.tunnels.length = indices
  induction indices generalizing r with
  | nil => rfl
  | cons index indices ih => rw [List.foldl_cons, ih, applyTo, hcall, hcall, hcall]

theorem switches_applyCloud (network : Network) (s : CloudSettings) (now : Duration)
    (hq : r.fleet.Quiet) :
    (r.applyCloud network s now).switches = r.switches.map fun t => (t.1, s.isReady) := by
  rw [switches, (applyCloud_spec network s now hq).1, switches, List.map_map, List.map_map]
  rfl

end DeviceRelays

namespace CloudSettings

/-- Credentials do not decide whether tunnels are enabled. -/
theorem isReady_ofConfig {config config' : Json} (h : SameBut isText config config')
    (deviceId : String) :
    (ofConfig config' deviceId).isReady = (ofConfig config deviceId).isReady := by
  have hsection : SameBut isText (sectionOf config) (sectionOf config') := h.field (by decide)
  have henabled : boolField config' "enabled" false = boolField config "enabled" false := by
    unfold boolField
    rw [hsection.flag_eq (by decide)]
  have htext (name : String) (hname : secretKeys.contains name = false) :
      textField config' name = textField config name := by
    unfold textField Json.text
    rw [hsection.text?_eq hname]
  have hbase := htext "baseUrl" (by decide)
  have hid := htext "deviceId" (by decide)
  simp only [isReady, ofConfig, henabled, hbase, hid]

end CloudSettings

theorem HostDevice.config_refreshLink (d : HostDevice) (stats : Option (List UInt8)) :
    (d.refreshLink stats).config = d.config := by
  unfold refreshLink
  split <;> rfl

/-! ## What happens to a device -/

/-- What surrounds a device: what its log holds at an instant, and how its dials then end. -/
structure Surroundings where
  log : Duration → Option LogSource
  network : Duration → Network

namespace Service

/-- What happens to a device. -/
inductive Happening where
  /-- A new client is greeted. -/
  | greeted (now : Duration)
  /-- A client sends a text, which is executed. The reply goes out afterwards, by calls or by the
  steps of a tunnel. -/
  | sent (client : ClientId) (text : String) (now : Duration) (seed : Nat)
  /-- The device takes the next update, if one waits, and applies it. -/
  | applied (now : Duration)
  /-- The wireless statistics are read again. -/
  | measured (stats : Option (List UInt8))
  /-- A camera is attached, or it is gone. -/
  | camera (attached : Bool)
  /-- Anything else happens to the control endpoint, which keeps its tunnel. -/
  | called (c : Endpoint.Call) (keeps : c.attaches = false)
  /-- A tunnel gets on by itself. -/
  | tunnel (index : Nat) (now : Duration) (e : TunnelEvent) (own : e.isCall = false)

/-- What a client gets, and the device afterwards. -/
def live (w : Surroundings) (s : Service) : Happening → Option ControlReply × Service
  | .greeted now => (some ⟨ControlProtocol.hello (s.host.facts now), .requester⟩, s)
  | .sent client text now seed =>
    let executed := s.command (s.relays.context (s.host.facts now) (w.log now) now seed) client text
    (some executed.1, executed.2)
  | .applied now => (none, s.next (.applied (w.network now) now))
  | .measured stats => (none, { s with host := s.host.refreshLink stats })
  | .camera attached => (none, { s with host := { s.host with camera := attached } })
  | .called c _ => (none, s.withControl s.relays.state (s.relays.control.apply c))
  | .tunnel index now e _ => (none, s.next (.tunnel index now e))

/-- Two happenings that are the same from outside. What is copied to a client, a reply perhaps, may
differ. -/
inductive Happening.Like : Happening → Happening → Prop where
  | same (h : Happening) : Like h h
  | copied (id : ClientId) (m m' : Message) :
      Like (.called (.copyTo id m) rfl) (.called (.copyTo id m') rfl)

/-- Two courses that are the same but for what tunnels do by themselves, and when. -/
inductive Abreast : List Happening → List Happening → Prop where
  | nil : Abreast [] []
  | left {index : Nat} {now : Duration} {e : TunnelEvent} {own : e.isCall = false}
      {events events' : List Happening} (rest : Abreast events events') :
      Abreast (.tunnel index now e own :: events) events'
  | right {index : Nat} {now : Duration} {e : TunnelEvent} {own : e.isCall = false}
      {events events' : List Happening} (rest : Abreast events events') :
      Abreast events (.tunnel index now e own :: events')
  | both {h h' : Happening} {events events' : List Happening} (like : h.Like h')
      (rest : Abreast events events') : Abreast (h :: events) (h' :: events')

/-! ## Twins -/

/-- Two devices that may differ in their documents, in how their tunnels get on, and in what waits
at their control endpoints. No call is under way at any of their tunnels. -/
structure Beside (s s' : Service) : Prop where
  named : s'.deviceId = s.deviceId
  host : { s'.host with config := s.host.config } = s.host
  state : s'.relays.state = s.relays.state
  control : s'.relays.control.bare = s.relays.control.bare
  switches : s'.relays.switches = s.relays.switches
  quiet : s.relays.fleet.Quiet
  quiet' : s'.relays.fleet.Quiet

/-- Two such devices whose documents differ only in text under the keys of credentials. -/
structure Twins (s s' : Service) : Prop extends Beside s s' where
  document : SameBut isText s.host.config s'.host.config

variable {s s' : Service}

/-- A device and the same one with another document. -/
theorem Beside.withConfig (hquiet : s.relays.fleet.Quiet) (config : Json) :
    Beside s { s with host := { s.host with config := config } } :=
  ⟨rfl, rfl, rfl, rfl, rfl, hquiet, hquiet⟩

theorem Beside.symm (h : Beside s s') : Beside s' s where
  named := h.named.symm
  host := congrArg (fun d : HostDevice => { d with config := s'.host.config }) h.host.symm
  state := h.state.symm
  control := h.control.symm
  switches := h.switches.symm
  quiet := h.quiet'
  quiet' := h.quiet

theorem Twins.symm (h : Twins s s') : Twins s' s where
  toBeside := h.toBeside.symm
  document := redact_eq_redact_iff.mp h.document.redact_eq.symm

/-- What a tunnel does by itself. -/
theorem Twins.tunnel (h : Twins s s') (index : Nat) (now : Duration) {e : TunnelEvent}
    (he : e.isCall = false) : Twins (s.next (.tunnel index now e)) s' := by
  unfold next
  dsimp only
  split
  case h_1 => exact h
  case h_2 f effects hstep =>
    have hsettings := Fleet.settings_step_of_not_call he hstep
    have hlen : f.tunnels.length = s.relays.tunnels.length := by
      have hlen := congrArg List.length hsettings
      rwa [Fleet.settings, Fleet.settings, List.length_map, List.length_map] at hlen
    have hcontrol := DeviceRelays.bare_handOn s.relays f (effects.map fun effect => (index, effect))
    obtain ⟨hfleet, hstate⟩ :=
      DeviceRelays.fleet_handOn hlen (effects.map fun effect => (index, effect))
    generalize (effects.map fun effect => (index, effect)).foldl DeviceRelays.deliverSeen
      (s.relays.putFleet f) = relays at hfleet hstate hcontrol ⊢
    subst hfleet
    exact {
      named := h.named
      host := h.host
      state := h.state.trans hstate.symm
      control := h.control.trans hcontrol.symm
      switches := h.switches.trans (congrArg (List.map TunnelSettings.switch) hsettings).symm
      quiet := h.quiet.step he hstep
      quiet' := h.quiet'
      document := h.document }

/-- The cloud settings of both documents enable the same tunnels. -/
theorem Twins.applyCloud (h : Twins s s') (network network' : Network) (now : Duration) :
    Twins { s with relays := s.relays.applyCloud network s.cloudSettings now }
      { s' with relays := s'.relays.applyCloud network' s'.cloudSettings now } := by
  obtain ⟨-, hquiet, hstate⟩ := DeviceRelays.applyCloud_spec network s.cloudSettings now h.quiet
  obtain ⟨-, hquiet', hstate'⟩ :=
    DeviceRelays.applyCloud_spec network' s'.cloudSettings now h.quiet'
  have hready : s'.cloudSettings.isReady = s.cloudSettings.isReady := by
    rw [cloudSettings, cloudSettings, h.named, CloudSettings.isReady_ofConfig h.document]
  exact {
    named := h.named
    host := h.host
    state := hstate'.trans (h.state.trans hstate.symm)
    control := by
      rw [DeviceRelays.bare_applyCloud, DeviceRelays.bare_applyCloud]
      exact h.control
    switches := by
      rw [DeviceRelays.switches_applyCloud network' _ now h.quiet',
        DeviceRelays.switches_applyCloud network _ now h.quiet, h.switches, hready]
    quiet := hquiet
    quiet' := hquiet'
    document := h.document }

/-- **An update** makes the same of both documents, and sets the tunnels of both alike. A tunnel of
one device may have to start over for it, and that of the other may not. -/
theorem Twins.applyUpdate (h : Twins s s') (network network' : Network) (now : Duration)
    (update : Json) :
    Twins (s.applyUpdate network now update) (s'.applyUpdate network' now update) := by
  have hmerged : Twins { s with host := s.host.applyUpdate update }
      { s' with host := s'.host.applyUpdate update } := {
    named := h.named
    host :=
      congrArg (fun d : HostDevice => { d with config := s.host.config.update update }) h.host
    state := h.state
    control := h.control
    switches := h.switches
    quiet := h.quiet
    quiet' := h.quiet'
    document := h.document.update update }
  unfold Service.applyUpdate
  dsimp only
  split
  · exact hmerged.applyCloud network network' now
  · exact hmerged

theorem Twins.applied (h : Twins s s') (network network' : Network) (now : Duration) :
    Twins (s.next (.applied network now)) (s'.next (.applied network' now)) := by
  unfold next applyNext?
  dsimp only
  rw [h.state]
  cases hpop : s.relays.state.updates.pop with
  | mk popped updates =>
    cases popped with
    | empty | disconnected => exact h
    | item update =>
      refine Twins.applyUpdate ?_ network network' now update
      exact {
        named := h.named
        host := h.host
        state := rfl
        control := h.control
        switches := h.switches
        quiet := h.quiet
        quiet' := h.quiet'
        document := h.document }

/-- Other control endpoints, with what the owners of the tunnels have set. -/
theorem Twins.withControl (h : Twins s s') (state : ControlState) {control control' : Endpoint}
    (hcontrol : control'.bare = control.bare) (howned : control.owned = s.relays.control.owned)
    (howned' : control'.owned = s'.relays.control.owned) :
    Twins (s.withControl state control) (s'.withControl state control') where
  named := h.named
  host := h.host
  state := rfl
  control := hcontrol
  switches := (DeviceRelays.switches_withControl howned').trans
    (h.switches.trans (DeviceRelays.switches_withControl howned).symm)
  quiet := DeviceRelays.quiet_withControl howned h.quiet
  quiet' := DeviceRelays.quiet_withControl howned' h.quiet'
  document := h.document

/-- **What happens at the control endpoints.** -/
theorem Twins.called (h : Twins s s') {c c' : Endpoint.Call} (keeps : c.attaches = false)
    (keeps' : c'.attaches = false)
    (hlike : (Happening.called c keeps).Like (.called c' keeps')) :
    Twins (s.withControl s.relays.state (s.relays.control.apply c))
      (s'.withControl s'.relays.state (s'.relays.control.apply c')) := by
  have hbare : (s'.relays.control.apply c').bare = (s.relays.control.apply c).bare := by
    cases hlike with
    | same => exact Endpoint.bare_apply_congr h.control c
    | copied id m m' =>
      rw [Endpoint.apply, Endpoint.apply, Endpoint.bare_copyTo, Endpoint.bare_copyTo, h.control]
  rw [h.state]
  exact h.withControl s.relays.state hbare (Endpoint.owned_apply _ keeps)
    (Endpoint.owned_apply _ keeps')

theorem Twins.measured (h : Twins s s') (stats : Option (List UInt8)) :
    Twins { s with host := s.host.refreshLink stats }
      { s' with host := s'.host.refreshLink stats } where
  named := h.named
  host := by
    have hlink (d : HostDevice) (config : Json) :
        { d.refreshLink stats with config := config } =
          { d with config := config }.refreshLink stats := by
      unfold HostDevice.refreshLink
      dsimp only
      split <;> rfl
    rw [HostDevice.config_refreshLink, hlink, h.host]
  state := h.state
  control := h.control
  switches := h.switches
  quiet := h.quiet
  quiet' := h.quiet'
  document := by
    dsimp only
    rw [HostDevice.config_refreshLink, HostDevice.config_refreshLink]
    exact h.document

theorem Twins.camera (h : Twins s s') (attached : Bool) :
    Twins { s with host := { s.host with camera := attached } }
      { s' with host := { s'.host with camera := attached } } where
  named := h.named
  host := congrArg (fun d : HostDevice => { d with camera := attached }) h.host
  state := h.state
  control := h.control
  switches := h.switches
  quiet := h.quiet
  quiet' := h.quiet'
  document := h.document

end Service

end DeviceRelay
