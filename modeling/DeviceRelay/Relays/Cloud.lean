import DeviceRelay.Document.Merge
import DeviceRelay.Relays.Basic
import DeviceRelay.Relays.Settings

/-!
# Tunnels follow the configuration

The cloud settings go into every tunnel, one after the other: its timing, what it dials with, and
whether it is enabled. A tunnel that finds its settings unchanged keeps its connection.

* `DeviceRelays.applyCloud`: the relays after settings were applied.
* `DeviceRelays.shutdown`: the relays with every tunnel disabled.
* `touchesCloud`: whether an update of the configuration concerns the tunnels.
-/

namespace DeviceRelay

namespace DeviceRelays

/-- Applies settings to the tunnel at an index. -/
def applyTo (r : DeviceRelays) (network : Network) (s : CloudSettings) (now : Duration)
    (index : Nat) : DeviceRelays :=
  let call (r : DeviceRelays) (e : TunnelEvent) : DeviceRelays := r.callTunnel network index now e
  let r := call r (.setTiming s.autoReconnect s.reconnectDelay s.pingInterval)
  let r := call r (.configure s.baseUrl s.deviceId s.authToken (tunnelKey (r.labelAt index)))
  call r (.setEnabled s.isReady)

/-- Applies settings to every tunnel. -/
def applyCloud (r : DeviceRelays) (network : Network) (s : CloudSettings) (now : Duration) :
    DeviceRelays :=
  (List.range r.tunnels.length).foldl (fun r index => r.applyTo network s now index) r

/-- Disables every tunnel, and stops the signal ticker. -/
def shutdown (r : DeviceRelays) (network : Network) (now : Duration) : DeviceRelays :=
  (List.range r.tunnels.length).foldl
    (fun r index => r.callTunnel network index now (.setEnabled false))
    { r with ticker := none }

end DeviceRelays

/-- Whether an update, or one of its parts, has a cloud section. -/
def touchesCloud : (update : Json) → Bool
  | .array patches => patches.any fun patch => (patch.get? CloudSettings.sectionKey).isSome
  | patch => (patch.get? CloudSettings.sectionKey).isSome

end DeviceRelay
