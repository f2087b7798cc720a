import DeviceRelay.Proofs.Relays.Cloud
import DeviceRelay.Service

/-!
# Tunnels follow the document

The device applies its cloud settings at its start, and later only where an update names the cloud
section. Between updates the tunnels get on by themselves, and more updates are accepted. At every
point of such a course each tunnel has just the settings that the document asks for.

* `ServiceMove`, `Service.run`: the courses of a device, as far as its tunnels are concerned.
* `Service.Follows`: what holds at every point of a course.
* `Service.tunnels_follow_document`: the settings of the tunnels along a course.
-/

namespace DeviceRelay

theorem BoundedQueue.waiting_of_pop {α : Type} {q q' : BoundedQueue α} {a : α}
    (h : q.pop = (.item a, q')) : q.waiting = a :: q'.waiting := by
  unfold pop at h
  split at h
  · rename_i hwaiting
    cases h
    exact hwaiting
  · split at h <;> cases h

/-- The endpoints that have a tunnel. -/
def tunnelPaths (all : Bool) : List String :=
  if all then [controlPath, cameraPath, rssiPath] else [controlPath]

/-- What happens at a device, as far as its tunnels are concerned. -/
inductive ServiceMove where
  /-- An update of the configuration is accepted. -/
  | queued (update : Json)
  /-- The device takes the next update. -/
  | applied (network : Network) (now : Duration)
  /-- A tunnel gets on by itself. -/
  | tunnel (index : Nat) (now : Duration) (e : TunnelEvent)

/-- Updates are objects or arrays of objects, and tunnels are left to the device. -/
def ServiceMove.IsUsual : ServiceMove → Prop
  | .queued update => update.patches.all Json.isObject = true
  | .applied _ _ => True
  | .tunnel _ _ e => e.isCall = false

namespace Service

/-- The device after one move; what cannot happen changes nothing. -/
def next (s : Service) : ServiceMove → Service
  | .queued update =>
    let updates := (s.relays.state.updates.push update).2
    { s with relays := { s.relays with state := { s.relays.state with updates := updates } } }
  | .applied network now => (s.applyNext? network now).getD s
  | .tunnel index now e =>
    match s.relays.fleet.step index now e with
    | none => s
    | some (f, effects) =>
      let seen := effects.map fun effect => (index, effect)
      { s with relays := seen.foldl DeviceRelays.deliverSeen (s.relays.putFleet f) }

def run (s : Service) (moves : List ServiceMove) : Service := moves.foldl next s

/-- A device that was started so: every tunnel has the settings that the document asks for, no call
is under way at any of them, and what waits are updates of objects. -/
structure Follows (s : Service) (u : Startup) : Prop where
  named : s.deviceId = u.deviceId
  document : s.host.config.isObject = true
  updates : ∀ update ∈ s.relays.state.updates.waiting, update.patches.all Json.isObject = true
  quiet : s.relays.fleet.Quiet
  settings : s.relays.fleet.settings =
    (tunnelPaths u.tunnelAll).map s.cloudSettings.forTunnel

variable {s : Service} {u : Startup}

/-! ## One move -/

theorem Follows.queued (h : s.Follows u) {update : Json}
    (hu : update.patches.all Json.isObject = true) : (s.next (.queued update)).Follows u where
  named := h.named
  document := h.document
  updates := by
    intro v hmem
    have hwaiting := BoundedQueue.waiting_push s.relays.state.updates update
    rw [show (s.next (.queued update)).relays.state.updates.waiting = _ from hwaiting] at hmem
    split at hmem
    · rcases List.mem_append.mp hmem with hmem | hmem
      · exact h.updates v hmem
      · exact List.mem_singleton.mp hmem ▸ hu
    · exact h.updates v hmem
  quiet := h.quiet
  settings := h.settings

theorem Follows.tunnel (h : s.Follows u) (index : Nat) (now : Duration) {e : TunnelEvent}
    (he : e.isCall = false) : (s.next (.tunnel index now e)).Follows u := by
  unfold next
  dsimp only
  split
  case h_1 => exact h
  case h_2 f effects hstep =>
    have hsettings := Fleet.settings_step_of_not_call he hstep
    have hlen : f.tunnels.length = s.relays.tunnels.length := by
      have hlen := congrArg List.length hsettings
      rwa [Fleet.settings, Fleet.settings, List.length_map, List.length_map] at hlen
    obtain ⟨hfleet, hstate⟩ :=
      DeviceRelays.fleet_handOn hlen (effects.map fun effect => (index, effect))
    generalize (effects.map fun effect => (index, effect)).foldl DeviceRelays.deliverSeen
      (s.relays.putFleet f) = relays at hfleet hstate ⊢
    subst hfleet
    exact {
      named := h.named
      document := h.document
      updates := by rw [hstate]; exact h.updates
      quiet := h.quiet.step he hstep
      settings := hsettings.trans h.settings }

/-- **An update** is merged into the document. Where it does not name the cloud section, the
settings that the document asks for are those that the tunnels have already. -/
theorem Follows.applyUpdate (h : s.Follows u) (network : Network) (now : Duration)
    {update : Json} (hu : update.patches.all Json.isObject = true) :
    (s.applyUpdate network now update).Follows u := by
  have hdocument : (s.host.config.update update).isObject = true := by
    rw [Json.isObject_update h.document, Json.endsInObject]
    cases hlast : update.patches.getLast? with
    | none => rfl
    | some patch => exact List.all_eq_true.mp hu patch (List.mem_of_getLast? hlast)
  unfold Service.applyUpdate
  dsimp only
  split
  case isTrue =>
    generalize hcloud : ({ s with host := s.host.applyUpdate update } : Service).cloudSettings =
      cloud
    obtain ⟨hsettings, hquiet, hstate⟩ :=
      DeviceRelays.applyCloud_spec network cloud now h.quiet
    exact {
      named := h.named
      document := hdocument
      updates := by rw [hstate]; exact h.updates
      quiet := hquiet
      settings := by
        rw [hsettings, h.settings, List.map_map, ← hcloud]
        rfl }
  case isFalse htouches =>
    have hcloud : ({ s with host := s.host.applyUpdate update } : Service).cloudSettings =
        s.cloudSettings :=
      CloudSettings.ofConfig_update h.document hu (by simpa using htouches) s.deviceId
    exact {
      named := h.named
      document := hdocument
      updates := h.updates
      quiet := h.quiet
      settings := by rw [hcloud]; exact h.settings }

theorem Follows.applied (h : s.Follows u) (network : Network) (now : Duration) :
    (s.next (.applied network now)).Follows u := by
  unfold next applyNext?
  dsimp only
  cases hpop : s.relays.state.updates.pop with
  | mk popped updates =>
    cases popped with
    | item update =>
      have hwaiting := BoundedQueue.waiting_of_pop hpop
      have hu := h.updates update (hwaiting ▸ List.mem_cons_self)
      refine Follows.applyUpdate ?_ network now hu
      exact {
        named := h.named
        document := h.document
        updates := fun u hmem => h.updates u (hwaiting ▸ List.mem_cons_of_mem _ hmem)
        quiet := h.quiet
        settings := h.settings }
    | empty => exact h
    | disconnected => exact h

theorem Follows.next (h : s.Follows u) {m : ServiceMove} (hm : m.IsUsual) :
    (s.next m).Follows u := by
  cases m with
  | queued update => exact h.queued hm
  | applied network now => exact h.applied network now
  | tunnel index now e => exact h.tunnel index now hm

theorem Follows.run (h : s.Follows u) {moves : List ServiceMove}
    (hm : ∀ m ∈ moves, m.IsUsual) : (s.run moves).Follows u := by
  unfold Service.run
  induction moves generalizing s with
  | nil => exact h
  | cons m moves ih =>
    rw [List.foldl_cons]
    exact ih (h.next (hm m List.mem_cons_self)) fun m' h' => hm m' (List.mem_cons_of_mem _ h')

/-! ## The start -/

/-- Relays start with tunnels that were never called. -/
theorem start_relays (settings : RelaySettings) (state : ControlState) (now : Duration) :
    ∃ relays server, DeviceRelays.start .empty settings state now = .ok (relays, server) ∧
      relays.tunnels =
        (tunnelPaths settings.tunnelAll).map (Tunnel.new · settings.tunnelOptions) ∧
      relays.state = state := by
  obtain ⟨token, all, options, period⟩ := settings
  refine ⟨_, _, rfl, ?_, rfl⟩
  cases all <;> rfl

/-- **The start of a device** with an object for its document. -/
theorem start_follows (hu : u.document.isObject = true) (localAddress : String)
    (network : Network) (now : Duration) :
    ∃ s, start u localAddress network now = .ok s ∧ s.Follows u := by
  obtain ⟨relays, server, hstart, htunnels, hstate⟩ :=
    start_relays (relaySettings u) ⟨.ofDepth updateDepth, .new claimLifetime⟩ now
  have hquiet : relays.fleet.Quiet := by
    intro t ht
    rw [DeviceRelays.fleet, htunnels] at ht
    obtain ⟨path, -, rfl⟩ := List.mem_map.mp ht
    rfl
  have hlabels : relays.fleet.settings.map TunnelSettings.label = tunnelPaths u.tunnelAll := by
    rw [Fleet.settings, DeviceRelays.fleet, htunnels, List.map_map, List.map_map]
    exact List.map_id _
  obtain ⟨hsettings, hquiet, hstate'⟩ := DeviceRelays.applyCloud_spec network
    (CloudSettings.ofConfig u.document u.deviceId) now hquiet
  have hconfig : (if u.document.isObject then u.document else .object []) = u.document :=
    if_pos hu
  refine ⟨_, by rw [start, hstart]; rfl, ?_⟩
  exact {
    named := rfl
    document := by rw [HostDevice.new]; simpa only [hconfig] using hu
    updates := by
      rw [hstate', hstate]
      intro update hmem
      cases hmem
    quiet := hquiet
    settings := by
      rw [hsettings, ← hlabels, List.map_map, cloudSettings, HostDevice.new]
      simp only [hconfig]
      rfl }

/-- **Tunnels follow the document.** A device that starts with an object for its document takes
updates, each an object or an array of objects, while its tunnels get on by themselves. At every
point each tunnel has the endpoint's name, the configuration and the switch that the cloud section
of the stored document asks for: leaving the tunnels alone where an update does not name that
section never leaves one behind. -/
theorem tunnels_follow_document {u : Startup} (hu : u.document.isObject = true)
    (localAddress : String) (network : Network) (now : Duration) {moves : List ServiceMove}
    (hm : ∀ m ∈ moves, m.IsUsual) :
    ∃ s, start u localAddress network now = .ok s ∧
      (s.run moves).relays.tunnels.map Tunnel.settings = (tunnelPaths u.tunnelAll).map
        (CloudSettings.ofConfig (s.run moves).host.config u.deviceId).forTunnel := by
  obtain ⟨s, hstart, hfollows⟩ := start_follows hu localAddress network now
  have hrun := hfollows.run hm
  refine ⟨s, hstart, hrun.settings.trans ?_⟩
  rw [cloudSettings, hrun.named]

/-- An update of something else, and then one that switches the tunnels off. -/
theorem tunnels_follow_document_switched_off :
    let u : Startup :=
      { listenAddress := .v4 ⟨10, 0, 0, 2⟩ 8080
        hostname := "pier"
        deviceId := "pier-1"
        authToken := none
        logFile := none
        document := .object [("cloudTunnel",
          .object [("baseUrl", .string "broker.example"), ("enabled", .bool true)])]
        tunnelAll := true
        certificate := none
        cameraFrames := none
        cameraFps := 10
        wirelessStats := "/proc/net/wireless"
        shutdownGrace := .zero }
    let moves : List ServiceMove :=
      [.queued (.object [("wifi", .object [("ssid", .string "dock")])]),
       .applied .unreachable .zero,
       .tunnel 0 .zero (.worker .look),
       .queued (.array [.object [("cloudTunnel", .object [("enabled", .bool false)])]]),
       .applied .unreachable .zero]
    u.document.isObject = true ∧ (∀ m ∈ moves, m.IsUsual) ∧
      ∃ s, start u "10.0.0.2" .unreachable .zero = .ok s ∧
        (s.run moves).relays.tunnels.map Tunnel.settings = [controlPath, cameraPath, rssiPath].map
          (CloudSettings.ofConfig (s.run moves).host.config "pier-1").forTunnel := by
  intro u moves
  have hu : u.document.isObject = true := rfl
  have hm : ∀ m ∈ moves, m.IsUsual := by
    simp only [moves, List.forall_mem_cons, ServiceMove.IsUsual]
    exact ⟨rfl, trivial, rfl, rfl, trivial, nofun⟩
  exact ⟨hu, hm, tunnels_follow_document hu "10.0.0.2" .unreachable .zero hm⟩

end Service

end DeviceRelay
