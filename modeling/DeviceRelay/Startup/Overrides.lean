import DeviceRelay.Document.Merge
import DeviceRelay.Relays.Settings

/-!
# Cloud settings of the command line

What the command line says about the cloud tunnel goes over the section of the configuration
document that was loaded. What it leaves out stays as the document has it.

* `CloudOverrides.apply`: a document with the overrides in it.
-/

namespace DeviceRelay

structure CloudOverrides where
  /-- Whether the tunnel is switched on. It is never switched off. -/
  enabled : Bool
  baseUrl : Option String
  authToken : Option String
  deriving DecidableEq, Repr

namespace CloudOverrides

/-- The members that are given. -/
def members (o : CloudOverrides) : List (String × Json) :=
  (if o.enabled then [("enabled", .bool true)] else [])
    ++ (o.baseUrl.map fun url => ("baseUrl", .string url)).toList
    ++ (o.authToken.map fun token => ("authToken", .string token)).toList

/-- A document with the overrides in its cloud section. Without any it stays as it is. -/
def apply (o : CloudOverrides) (document : Json) : Json :=
  if o.members.isEmpty then document
  else document.merge (.object [(CloudSettings.sectionKey, Json.ofMembers o.members)])

end CloudOverrides

end DeviceRelay
