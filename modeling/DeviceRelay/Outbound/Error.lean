/-!
# Failures of connections

`ClientError` is what an outbound client reports, and `TunnelError` what a send through a tunnel
reports. A failure of the client becomes one of the tunnel: what says that there is no connection
is a matter of state, a wait that ran out and a payload over the limit stay what they are, and
everything else means that the connection is gone.

* `ClientError.toTunnelError`: the failure of the tunnel.
* `ClientError.message`, `TunnelError.message`: their texts.
-/

namespace DeviceRelay

inductive ClientError where
  | invalidUri (reason : String)
  | tls (reason : String)
  | notStarted
  | notConnected
  | timeout
  | closed
  | payloadTooLarge (length limit : Nat)
  | transport (reason : String)
  | exhausted (attempts : Nat)
  deriving DecidableEq, Repr

inductive TunnelError where
  | invalidState
  | timeout
  | closed
  | payloadTooLarge (length limit : Nat)
  deriving DecidableEq, Repr

def ClientError.message : ClientError → String
  | .invalidUri reason => "invalid websocket uri: " ++ reason
  | .tls reason => "tls setup failed: " ++ reason
  | .notStarted => "client has not been configured"
  | .notConnected => "not connected"
  | .timeout => "timed out"
  | .closed => "connection closed"
  | .payloadTooLarge length limit => s!"payload of {length} bytes exceeds the {limit} byte buffer"
  | .transport reason => "transport error: " ++ reason
  | .exhausted attempts => s!"gave up after {attempts} reconnect attempts"

def TunnelError.message : TunnelError → String
  | .invalidState => "tunnel is not connected"
  | .timeout => "tunnel send timed out"
  | .closed => "tunnel connection closed"
  | .payloadTooLarge length limit =>
    s!"payload of {length} bytes exceeds the {limit} byte tunnel buffer"

def ClientError.toTunnelError : ClientError → TunnelError
  | .notConnected | .notStarted => .invalidState
  | .timeout => .timeout
  | .payloadTooLarge length limit => .payloadTooLarge length limit
  | .closed | .transport _ | .exhausted _ | .invalidUri _ | .tls _ => .closed

end DeviceRelay
