import DeviceRelay.Device.Wireless
import DeviceRelay.Document.Merge
import DeviceRelay.Document.Redact
import DeviceRelay.Duration
import DeviceRelay.Json.Member
import DeviceRelay.Text.Utf8

/-!
# The device

`DeviceFacts` is what the control protocol reads of a device. `HostDevice` is a device on a host:
its configuration document, which is always an object, the wireless link last read, and whether a
camera is attached.

* `HostDevice.applyUpdate`: the device after a configuration update.
* `HostDevice.refreshLink`: the device after its wireless statistics were read again.
* `HostDevice.facts`: what the control protocol sees at an instant.
-/

namespace DeviceRelay

/-- The network a device is associated with, and the signal level. -/
structure LinkStatus where
  ssid : String
  rssi : Int
  deriving DecidableEq, Repr

structure DeviceFacts where
  hostname : String
  ipAddress : String
  wifiMode : String
  /-- The whole configuration, credentials included. -/
  config : Json
  /-- The fields that identify the device. -/
  info : List (String × Json)
  link : Option LinkStatus
  camera : Bool
  deriving DecidableEq, Repr

structure HostDevice where
  hostname : String
  ipAddress : String
  config : Json
  /-- Whether the device has wireless statistics at all. -/
  hasStats : Bool
  /-- The interface and level of the last reading. -/
  signal : Option (String × Int)
  camera : Bool
  startedAt : Duration
  deriving DecidableEq, Repr

namespace HostDevice

/-- A device with this configuration; anything but an object counts as an empty one. -/
def new (hostname ipAddress : String) (config : Json) (hasStats : Bool) (now : Duration) :
    HostDevice where
  hostname := hostname
  ipAddress := ipAddress
  config := if config.isObject then config else .object []
  hasStats := hasStats
  signal := none
  camera := false
  startedAt := now

/-- The device with an update in its configuration. -/
def applyUpdate (d : HostDevice) (change : Json) : HostDevice :=
  { d with config := d.config.update change }

/-- The device after a reading of its statistics, none where they cannot be read. A text that is
not UTF-8 cannot be read. -/
def refreshLink (d : HostDevice) (stats : Option (List UInt8)) : HostDevice :=
  if d.hasStats then
    { d with signal := (stats.bind Text.decode?).bind Wireless.firstLink? }
  else d

/-- The name of this release. -/
def version : String := "0.1.0"

/-- The kind of system that devices run on. -/
def platform : String := "linux"

/-- The document names the network mode and the network; without them the mode is that of a
station and the interface stands for the network. -/
def facts (d : HostDevice) (now : Duration) : DeviceFacts where
  hostname := d.hostname
  ipAddress := d.ipAddress
  wifiMode := ((d.config.field "wifi").text? "mode").getD "sta"
  config := d.config
  info :=
    [("platform", .string platform), ("uptime_ms", .ofNat (now.sub d.startedAt).millis),
     ("version", .string version)]
  link := d.signal.map fun (interface, rssi) =>
    ⟨((d.config.field "wifi").text? "ssid").getD interface, rssi⟩
  camera := d.camera

end HostDevice

end DeviceRelay
