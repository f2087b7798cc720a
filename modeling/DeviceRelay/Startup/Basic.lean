import DeviceRelay.Address.Parser
import DeviceRelay.CommandLine.Options
import DeviceRelay.Duration
import DeviceRelay.Json.Parser
import DeviceRelay.Startup.Error
import DeviceRelay.Startup.Overrides
import DeviceRelay.Text.Blank
import DeviceRelay.Text.Utf8

/-!
# What a device starts with

The settings of the command line, checked, and the files that they name, read: the address, the
configuration document with the overrides in it, the trusted certificates.

* `Startup.ofOptions`: what a device starts with, or the first thing that is wrong.
-/

namespace DeviceRelay

/-- The files of the host: what a path holds. -/
abbrev FileReader := String → Except FileError (List UInt8)

structure Startup where
  listenAddress : SocketAddress
  hostname : String
  deviceId : String
  /-- The token that local clients must show. -/
  authToken : Option String
  logFile : Option String
  document : Json
  tunnelAll : Bool
  /-- The bytes of the trusted certificates. -/
  certificate : Option (List UInt8)
  cameraFrames : Option String
  cameraFps : UInt32
  wirelessStats : String
  shutdownGrace : Duration
  deriving DecidableEq, Repr

namespace Startup

def isNamed (name : String) : Bool := !(Text.trim name).isEmpty

/-- The name of a device that nothing names. -/
def usualHostname : String := "beach-pier"

/-- The given name, else the name of the host. A blank name counts as none. -/
def hostnameOf (given host : Option String) : String :=
  ((given <|> host).filter isNamed).getD usualHostname

/-- The document at a path; without a path an empty one. It must be an object. -/
def loadDocument (read : FileReader) : Option String → Except StartupError Json
  | none => .ok (.object [])
  | some path => do
    let bytes ← (read path).mapError (.unreadableConfig path)
    let text ← match Text.decode? bytes with
      | some text => .ok text
      | none => .error (.unreadableConfig path .notText)
    let document ← (Json.parse text).mapError (.malformedConfig path)
    if document.isObject then .ok document else .error .configNotObject

/-- The bytes at a path, as they are. -/
def loadCertificate (read : FileReader) (path : String) : Except StartupError (List UInt8) :=
  (read path).mapError (.unreadableCertificate path)

def overridesOf (o : Options) : CloudOverrides := ⟨o.cloudEnabled, o.cloudUrl, o.cloudToken⟩

/-- What a device starts with. The address is looked at first, then the document, then the
certificates. -/
def ofOptions (o : Options) (host : Option String) (read : FileReader) :
    Except StartupError Startup := do
  let address ← match SocketAddress.parse? o.listenAddress with
    | some address => .ok address
    | none => .error (.listenAddress o.listenAddress)
  let hostname := hostnameOf o.hostname host
  let document ← loadDocument read o.configFile
  let certificate ← o.caCertificate.mapM (loadCertificate read)
  return {
    listenAddress := address
    hostname := hostname
    deviceId := (o.deviceId.filter isNamed).getD hostname
    authToken := o.authToken.filter (!·.isEmpty)
    logFile := o.logFile
    document := (overridesOf o).apply document
    tunnelAll := o.tunnelAll
    certificate := certificate
    cameraFrames := o.cameraFrames
    cameraFps := o.cameraFps
    wirelessStats := o.wirelessStats
    shutdownGrace := .ofSeconds o.shutdownGrace.toNat }

end Startup

end DeviceRelay
