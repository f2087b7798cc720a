import DeviceRelay.Proofs.Document.Overlay
import DeviceRelay.Proofs.Tunnel.Settings
import DeviceRelay.Relays.Cloud

/-!
# Cloud settings and tunnels

Applying cloud settings calls every tunnel three times, one tunnel after the other. Since each call
is taken, every tunnel then has just those settings. An update that does not name the cloud section
leaves the section of the document as it is.

* `CloudSettings.forTunnel`: what settings mean for the tunnel of an endpoint.
* `DeviceRelays.applyCloud_spec`: the settings of all tunnels once cloud settings were applied.
* `CloudSettings.ofConfig_update`: when an update keeps the cloud settings.
-/

namespace DeviceRelay

theorem touchesCloud_eq (update : Json) :
    touchesCloud update =
      update.patches.any fun patch => (patch.get? CloudSettings.sectionKey).isSome := by
  cases update <;> simp [touchesCloud, Json.patches]

namespace CloudSettings

/-- The settings depend on the cloud section alone. -/
theorem ofConfig_congr {a b : Json} (h : a.get? sectionKey = b.get? sectionKey)
    (deviceId : String) : ofConfig a deviceId = ofConfig b deviceId := by
  have hsection : sectionOf a = sectionOf b := by rw [sectionOf, Json.field, h]; rfl
  unfold ofConfig boolField textField millisField?
  rw [hsection]

/-- **An update that does not name the cloud section** keeps the cloud settings. -/
theorem ofConfig_update {config update : Json} (hc : config.isObject = true)
    (hu : update.patches.all Json.isObject = true) (h : touchesCloud update = false)
    (deviceId : String) :
    ofConfig (config.update update) deviceId = ofConfig config deviceId := by
  rw [touchesCloud_eq, List.any_eq_false] at h
  refine ofConfig_congr (Json.get?_update hc fun patch hp => ⟨?_, ?_⟩) deviceId
  · exact List.all_eq_true.mp hu patch hp
  · simpa using h patch hp

/-- What settings mean for the tunnel of an endpoint. -/
def forTunnel (s : CloudSettings) (label : String) : TunnelSettings where
  label := label
  config :=
    { baseUrl := s.baseUrl
      deviceId := s.deviceId
      authToken := s.authToken
      tunnelKey := tunnelKey label
      autoReconnect := s.autoReconnect
      reconnectDelay := s.reconnectDelay
      pingInterval := s.pingInterval }
  enabled := s.isReady

end CloudSettings

/-! ## The relays -/

namespace DeviceRelays

variable {r : DeviceRelays}

theorem tunnels_eq (r : DeviceRelays) :
    r.tunnels = r.control.tunnel.toList ++ (r.camera.tunnel.toList ++ r.rssi.tunnel.toList) := by
  cases hc : r.control.tunnel <;> cases hm : r.camera.tunnel <;> cases hs : r.rssi.tunnel <;>
    simp [DeviceRelays.tunnels, endpoints, hc, hm, hs]

/-- An endpoint takes as many tunnels as it has. -/
theorem takeTunnel_spec (e : Endpoint) (tunnels : List Tunnel)
    (h : e.tunnel.toList.length ≤ tunnels.length) :
    ∃ e' rest, takeTunnel e tunnels = (e', rest) ∧ e'.tunnel.toList ++ rest = tunnels ∧
      rest.length = tunnels.length - e.tunnel.toList.length := by
  refine ⟨(takeTunnel e tunnels).1, (takeTunnel e tunnels).2, rfl, ?_⟩
  cases tunnels with
  | nil =>
    have hnone : e.tunnel = none := by simpa using h
    simp [takeTunnel, hnone]
  | cons t tunnels => cases ht : e.tunnel <;> simp [takeTunnel, ht]

/-- Tunnels are put back where they were taken from. -/
theorem tunnels_putFleet {f : Fleet} (h : f.tunnels.length = r.tunnels.length) :
    (r.putFleet f).tunnels = f.tunnels := by
  rw [tunnels_eq, List.length_append, List.length_append] at h
  obtain ⟨control, afterControl, heq, hcontrol, hlen⟩ :=
    takeTunnel_spec r.control f.tunnels (by omega)
  obtain ⟨camera, afterCamera, heq', hcamera, hlen'⟩ :=
    takeTunnel_spec r.camera afterControl (by omega)
  obtain ⟨rssi, afterRssi, heq'', hrssi, hlen''⟩ :=
    takeTunnel_spec r.rssi afterCamera (by omega)
  have hnil : afterRssi = [] := List.eq_nil_of_length_eq_zero (by omega)
  rw [tunnels_eq, putFleet, heq]
  dsimp only
  rw [heq']
  dsimp only
  rw [heq'']
  rw [← hcontrol, ← hcamera, ← hrssi, hnil, List.append_nil]

theorem fleet_deliverSeen (r : DeviceRelays) (seen : Fleet.Seen) :
    (r.deliverSeen seen).fleet = r.fleet ∧ (r.deliverSeen seen).state = r.state := by
  obtain ⟨index, _ | _ | f⟩ := seen
  · exact ⟨rfl, rfl⟩
  · exact ⟨rfl, rfl⟩
  · have give (e : Endpoint) :
        (if e.path = r.labelAt index then e.deliverFromTunnel f else e).tunnel = e.tunnel := by
      split <;> rfl
    refine ⟨?_, rfl⟩
    simp only [deliverSeen, fleet, DeviceRelays.tunnels, endpoints, List.filterMap_cons,
      List.filterMap_nil, give]

theorem fleet_foldl_deliverSeen (r : DeviceRelays) (seen : List Fleet.Seen) :
    (seen.foldl deliverSeen r).fleet = r.fleet ∧ (seen.foldl deliverSeen r).state = r.state := by
  induction seen generalizing r with
  | nil => exact ⟨rfl, rfl⟩
  | cons s seen ih =>
    obtain ⟨hfleet, hstate⟩ := fleet_deliverSeen r s
    rw [List.foldl_cons, ← hfleet, ← hstate]
    exact ih _

/-- The tunnels of a fleet are put back, and what was seen of them is handed on. -/
theorem fleet_handOn {f : Fleet} (h : f.tunnels.length = r.tunnels.length)
    (seen : List Fleet.Seen) :
    (seen.foldl deliverSeen (r.putFleet f)).fleet = f ∧
      (seen.foldl deliverSeen (r.putFleet f)).state = r.state := by
  obtain ⟨hfleet, hstate⟩ := fleet_foldl_deliverSeen (r.putFleet f) seen
  refine ⟨hfleet.trans ?_, hstate⟩
  rw [fleet, tunnels_putFleet h]
  rfl

/-- What calls of the owner of one tunnel come to: they change the settings of that tunnel, and
all of them have returned. -/
structure Called (r r' : DeviceRelays) (index : Nat) (change : TunnelSettings → TunnelSettings) :
    Prop where
  settings : r'.fleet.settings = r.fleet.settings.modify index change
  quiet : r'.fleet.Quiet
  state : r'.state = r.state

theorem Called.length_settings {r' : DeviceRelays} {index : Nat}
    {change : TunnelSettings → TunnelSettings} (h : Called r r' index change) :
    r'.fleet.settings.length = r.fleet.settings.length := by
  rw [h.settings, List.length_modify]

theorem Called.trans {r' r'' : DeviceRelays} {index : Nat}
    {change change' : TunnelSettings → TunnelSettings} (h : Called r r' index change)
    (h' : Called r' r'' index change') : Called r r'' index (change' ∘ change) where
  settings := by rw [h'.settings, h.settings, List.modify_modify_eq]
  quiet := h'.quiet
  state := h'.state.trans h.state

/-- Only what is changed in the settings that are there counts. -/
theorem Called.congr {r' : DeviceRelays} {index : Nat}
    {change change' : TunnelSettings → TunnelSettings} (h : Called r r' index change)
    (heq : ∀ old, r.fleet.settings[index]? = some old → change old = change' old) :
    Called r r' index change' where
  settings := by
    rw [h.settings]
    refine List.ext_getElem? fun i => ?_
    rw [List.getElem?_modify, List.getElem?_modify]
    by_cases hi : index = i
    · subst hi
      cases hold : r.fleet.settings[index]? with
      | none => rfl
      | some old => simp [heq old hold]
    · simp [hi]
  quiet := h.quiet
  state := h.state

variable {index : Nat}

/-- **A call of a tunnel's owner** at the relays is one at their tunnels. -/
theorem callTunnel_spec {e : TunnelEvent} (network : Network) (now : Duration)
    (he : e.isCall = true) (hq : r.fleet.Quiet) (hi : index < r.fleet.settings.length) :
    Called r (r.callTunnel network index now e) index (·.after e) := by
  rw [Fleet.settings, List.length_map] at hi
  obtain ⟨hsettings, hquiet⟩ := Fleet.call_spec network now he hq hi
  have hlen : (r.fleet.call network index now e).1.tunnels.length = r.tunnels.length := by
    have h := congrArg List.length hsettings
    rwa [List.length_modify, Fleet.settings, Fleet.settings, List.length_map,
      List.length_map] at h
  obtain ⟨hfleet, hstate⟩ := fleet_handOn hlen (r.fleet.call network index now e).2
  have hfleet : (r.callTunnel network index now e).fleet =
      (r.fleet.call network index now e).1 := hfleet
  exact ⟨hfleet ▸ hsettings, hfleet ▸ hquiet, hstate⟩

theorem labelAt_eq (r : DeviceRelays) (index : Nat) :
    r.labelAt index = ((r.fleet.settings[index]?).map TunnelSettings.label).getD "" := by
  rw [Fleet.settings, List.getElem?_map, Option.map_map]
  rfl

/-- **Settings for one tunnel** leave it with just these settings. -/
theorem applyTo_spec (network : Network) (s : CloudSettings) (now : Duration)
    (hq : r.fleet.Quiet) (hi : index < r.fleet.settings.length) :
    Called r (r.applyTo network s now index) index fun old => s.forTunnel old.label := by
  have htimed := callTunnel_spec
    (e := .setTiming s.autoReconnect s.reconnectDelay s.pingInterval) network now rfl hq hi
  unfold applyTo
  dsimp only
  generalize r.callTunnel network index now
    (.setTiming s.autoReconnect s.reconnectDelay s.pingInterval) = timed at htimed ⊢
  have hi' : index < timed.fleet.settings.length := htimed.length_settings ▸ hi
  have hconfigured := callTunnel_spec
    (e := .configure s.baseUrl s.deviceId s.authToken (tunnelKey (timed.labelAt index)))
    network now rfl htimed.quiet hi'
  have hi'' := hconfigured.length_settings ▸ hi'
  have henabled := callTunnel_spec (e := .setEnabled s.isReady) network now rfl
    hconfigured.quiet hi''
  refine ((htimed.trans hconfigured).trans henabled).congr fun old hold => ?_
  have hlabel : timed.labelAt index = old.label := by
    rw [labelAt_eq, htimed.settings, List.getElem?_modify, hold]
    simp [TunnelSettings.after]
  simp [CloudSettings.forTunnel, TunnelSettings.after, TunnelEvent.configured,
    TunnelEvent.enables, hlabel]

/-- Settings for the tunnels in front of an index. -/
theorem foldl_applyTo_spec (network : Network) (s : CloudSettings) (now : Duration)
    (hq : r.fleet.Quiet) (n : Nat) (hn : n ≤ r.fleet.settings.length) :
    let r' := (List.range n).foldl (fun r index => r.applyTo network s now index) r
    (∀ i, r'.fleet.settings[i]? =
        (r.fleet.settings[i]?).map fun old => if i < n then s.forTunnel old.label else old) ∧
      r'.fleet.Quiet ∧ r'.state = r.state := by
  induction n with
  | zero => exact ⟨fun i => by simp, hq, rfl⟩
  | succ n ih =>
    obtain ⟨hsettings, hquiet, hstate⟩ := ih (by omega)
    rw [List.range_succ, List.foldl_append, List.foldl_cons, List.foldl_nil]
    generalize (List.range n).foldl (fun r index => r.applyTo network s now index) r = r'
      at hsettings hquiet hstate ⊢
    have hlt : n < r'.fleet.settings.length := by
      have hold : r.fleet.settings[n]? = some r.fleet.settings[n] := List.getElem?_eq_getElem hn
      have hnew := hsettings n
      rw [hold, Option.map_some] at hnew
      exact (List.getElem?_eq_some_iff.mp hnew).1
    have hcalled := applyTo_spec network s now hquiet hlt
    refine ⟨fun i => ?_, hcalled.quiet, hcalled.state.trans hstate⟩
    rw [hcalled.settings, List.getElem?_modify, hsettings]
    cases r.fleet.settings[i]? with
    | none => rfl
    | some old =>
      obtain hi | rfl | hi := Nat.lt_trichotomy i n
      · have hne : n ≠ i := by omega
        have hlt : i < n + 1 := by omega
        simp [hi, hne, hlt]
      · simp
      · have hne : n ≠ i := by omega
        have hle : ¬i < n := by omega
        have hle' : ¬i < n + 1 := by omega
        simp [hne, hle, hle']

/-- **Settings for all tunnels.** Whatever the tunnels were set to before, each of them then has
just these settings. -/
theorem applyCloud_spec (network : Network) (s : CloudSettings) (now : Duration)
    (hq : r.fleet.Quiet) :
    (r.applyCloud network s now).fleet.settings =
        r.fleet.settings.map (fun old => s.forTunnel old.label) ∧
      (r.applyCloud network s now).fleet.Quiet ∧
      (r.applyCloud network s now).state = r.state := by
  have hlen : r.tunnels.length = r.fleet.settings.length := (List.length_map _).symm
  obtain ⟨hsettings, hquiet, hstate⟩ :=
    foldl_applyTo_spec network s now hq r.tunnels.length (Nat.le_of_eq hlen)
  refine ⟨List.ext_getElem? fun i => ?_, hquiet, hstate⟩
  rw [applyCloud, hsettings, List.getElem?_map]
  cases hold : r.fleet.settings[i]? with
  | none => rfl
  | some old =>
    have hlt : i < r.tunnels.length := hlen ▸ (List.getElem?_eq_some_iff.mp hold).1
    simp [hlt]

end DeviceRelays

end DeviceRelay
