import DeviceRelay.Json.Member
import DeviceRelay.Tunnel.Dial

/-!
# Settings of the cloud tunnels

The section `cloudTunnel` of the device configuration says whether and how the device is reached
through a broker.

* `CloudSettings.ofConfig`: the settings that a configuration holds.
* `CloudSettings.isReady`: whether tunnels with these settings are enabled.
* `tunnelKey`: the name of an endpoint's tunnel at the broker.
-/

namespace DeviceRelay

/-- The name of the tunnel for a path: its slashes in front are left out, the others become
underscores. -/
def tunnelKey (path : String) : String :=
  String.ofList ((path.toList.dropWhile (· = '/')).map fun c => if c = '/' then '_' else c)

structure CloudSettings where
  enabled : Bool
  baseUrl : String
  deviceId : String
  authToken : String
  autoReconnect : Bool
  reconnectDelay : Duration
  pingInterval : Duration
  deriving DecidableEq, Repr

namespace CloudSettings

/-- The name of the section. -/
def sectionKey : String := "cloudTunnel"

/-- The section of a configuration. -/
def sectionOf (config : Json) : Json := config.field sectionKey

/-- A text of the section without blanks around it; anything else counts as empty. -/
def textField (config : Json) (name : String) : String :=
  Text.trim ((sectionOf config).text name)

/-- A positive number of milliseconds. -/
def millisField? (config : Json) (name : String) : Option Duration :=
  (((sectionOf config).nat? name).filter (0 < ·)).map .ofMillis

def boolField (config : Json) (name : String) (usual : Bool) : Bool :=
  (sectionOf config).flag name usual

/-- The settings that a configuration holds. A device without an id in the section has the default
one. -/
def ofConfig (config : Json) (defaultDeviceId : String) : CloudSettings where
  enabled := boolField config "enabled" false
  baseUrl := textField config "baseUrl"
  deviceId :=
    let id := textField config "deviceId"
    if id.isEmpty then defaultDeviceId else id
  authToken := textField config "authToken"
  autoReconnect := boolField config "autoReconnect" TunnelConfig.blank.autoReconnect
  reconnectDelay := (millisField? config "reconnectDelay").getD TunnelConfig.blank.reconnectDelay
  pingInterval := (millisField? config "pingInterval").getD TunnelConfig.blank.pingInterval

/-- Whether tunnels with these settings are enabled: they are meant to be, and a broker and a
device are named. -/
def isReady (s : CloudSettings) : Bool :=
  s.enabled && !s.baseUrl.isEmpty && !s.deviceId.isEmpty

end CloudSettings

end DeviceRelay
