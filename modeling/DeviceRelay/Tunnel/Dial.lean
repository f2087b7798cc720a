import DeviceRelay.Duration
import DeviceRelay.Text.Blank
import DeviceRelay.Text.Percent

/-!
# Dialing a broker

The parameters of one dial, and the URL that announces the device to the broker. The URL carries
the device id as its last path segment and the tunnel key and token as query fields, each percent
encoded.

* `dialUrl`: the URL of a dial, or what is missing.
* `TunnelConfig.isReady`: whether a broker and a device are named at all.
* `withoutQuery`: the part of a URL that may be logged.
-/

namespace DeviceRelay

structure TunnelConfig where
  baseUrl : String
  deviceId : String
  authToken : String
  tunnelKey : String
  autoReconnect : Bool
  reconnectDelay : Duration
  pingInterval : Duration
  deriving DecidableEq, Repr

namespace TunnelConfig

/-- No broker, and the default timing. -/
def blank : TunnelConfig := ⟨"", "", "", "", true, .ofSeconds 1, .ofSeconds 10⟩

/-- A dial needs at least a broker and a device. -/
def isReady (c : TunnelConfig) : Bool :=
  !(Text.trim c.baseUrl).isEmpty && !(Text.trim c.deviceId).isEmpty

/-- Whether the fields that shape the URL differ. -/
def dialDiffers (a b : TunnelConfig) : Bool :=
  a.baseUrl != b.baseUrl || a.deviceId != b.deviceId || a.authToken != b.authToken ||
    a.tunnelKey != b.tunnelKey

end TunnelConfig

/-- Why a configuration has no URL. -/
inductive DialError where
  | missingBaseUrl
  | missingDeviceId
  deriving DecidableEq, Repr

def DialError.message : DialError → String
  | .missingBaseUrl => "broker base url is empty"
  | .missingDeviceId => "device id is empty"

/-- A base with a WebSocket scheme: a web address keeps its security, and a base without a scheme
is taken to be secure. -/
def websocketBase (base : List Char) : List Char :=
  match Text.after? "https://".toList base with
  | some rest => "wss://".toList ++ rest
  | none =>
    match Text.after? "http://".toList base with
    | some rest => "ws://".toList ++ rest
    | none =>
      if "wss://".toList.isPrefixOf base || "ws://".toList.isPrefixOf base then base
      else "wss://".toList ++ base

/-- A base without blanks around it and without slashes at its end. -/
def trimBase (base : String) : List Char :=
  ((Text.trim base).toList.reverse.dropWhile (· = '/')).reverse

/-- A query field that is left out where it is empty. -/
def optionalField (key value : String) : String :=
  if value.isEmpty then "" else "&" ++ key ++ "=" ++ Text.percentEncode value

/-- The URL that a device dials. -/
def dialUrl (c : TunnelConfig) : Except DialError String :=
  let base := trimBase c.baseUrl
  let device := Text.trim c.deviceId
  if base.isEmpty then .error .missingBaseUrl
  else if device.isEmpty then .error .missingDeviceId
  else .ok <| String.ofList (websocketBase base) ++ "/ws/device/" ++ Text.percentEncode device ++
    "?announce=1" ++ optionalField "tunnel" c.tunnelKey ++ optionalField "token" c.authToken

/-- A URL up to its first question mark: the query holds credentials. -/
def withoutQuery (url : String) : String :=
  String.ofList (url.toList.takeWhile (· ≠ '?'))

end DeviceRelay
