import DeviceRelay.Endpoint.Access
import DeviceRelay.Endpoint.Publish

/-!
# The local server

The server keeps an endpoint for each path. Paths are registered while it runs; once it has been
shut down it takes no more.

* `LocalServer.start`: registers a path.
* `LocalServer.shutdown`: closes every client and registers no more paths.
* `LocalServer.answer`: what a request for a path meets.
-/

namespace DeviceRelay

structure LocalServer where
  /-- The endpoints in the order of their registration. -/
  endpoints : List Endpoint
  stopped : Bool
  deriving DecidableEq, Repr

namespace LocalServer

def empty : LocalServer := ⟨[], false⟩

def find? (s : LocalServer) (path : String) : Option Endpoint :=
  s.endpoints.find? fun e => e.path = path

/-- Registers a path with a fresh endpoint. -/
def start (s : LocalServer) (path : String) (limits : EndpointLimits) (token : Option String) :
    Except EndpointError LocalServer :=
  if s.stopped then .error .serverUnavailable
  else if (s.find? path).isSome then .error (.pathInUse path)
  else .ok { s with endpoints := s.endpoints ++ [Endpoint.new path limits token] }

/-- The server with another state of the endpoint of the same path. -/
def put (s : LocalServer) (e : Endpoint) : LocalServer :=
  { s with endpoints := s.endpoints.map fun old => if old.path = e.path then e else old }

/-- Closes every client, and takes no more paths. -/
def shutdown (s : LocalServer) : LocalServer :=
  ⟨s.endpoints.map fun e => e.closeAll.2, true⟩

/-- What a request meets. -/
inductive Answer where
  | notFound
  | upgradeRequired
  /-- The connection is upgraded and closed, so that a refusal can be told from a failure. -/
  | refused (last : Message)
  | accepted (path : String)
  deriving DecidableEq, Repr

/-- What a request meets: its path must be registered, it must ask for an upgrade, and it must show
the endpoint's token. -/
def answer (s : LocalServer) (r : UpgradeRequest) (wantsUpgrade : Bool) : Answer :=
  match s.find? r.path with
  | none => .notFound
  | some e =>
    if !wantsUpgrade then .upgradeRequired
    else if e.token.all r.shows then .accepted e.path
    else .refused (Endpoint.closing 1008 "unauthorized")

end LocalServer

end DeviceRelay
