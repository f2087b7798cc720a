import DeviceRelay.Text.Blank
import DeviceRelay.Text.Percent

/-!
# Access to an endpoint

A request to upgrade a connection may have to show a token, either in its authorization header or
in its query. The first header with that name and the first field of the query with a name count.

* `UpgradeRequest.queryParam`: the value of a query field.
* `UpgradeRequest.bearerToken`: the token of the authorization header.
* `UpgradeRequest.shows`: whether the request shows a token.
-/

namespace DeviceRelay

structure UpgradeRequest where
  path : String
  query : Option String
  /-- The headers in their order, with the bytes of their values. -/
  headers : List (String × List UInt8)
  deriving DecidableEq, Repr

namespace UpgradeRequest

/-- A query field as its name and its value; a field without an equals sign has an empty value. -/
def splitField (field : List Char) : List Char × List Char :=
  (field.takeWhile (· ≠ '='), (field.dropWhile (· ≠ '=')).drop 1)

/-- The text that a query value stands for: a plus sign is a blank, and escapes are decoded. -/
def decodeValue (value : List Char) : String :=
  let spaced := value.map fun c => if c = '+' then ' ' else c
  Text.decodeLossy (Text.percentDecode (Text.bytesOf spaced))

/-- The value of the first query field with this name. -/
def queryParam (r : UpgradeRequest) (name : String) : Option String :=
  r.query.bind fun query =>
    (query.toList.splitOn '&').findSome? fun field =>
      let (key, value) := splitField field
      if key = name.toList then some (decodeValue value) else none

/-- Whether a byte is visible in ASCII, or a blank of a header. -/
def isVisible (b : UInt8) : Bool := (0x20 ≤ b && b < 0x7f) || b = 9

/-- The value of the first header with this name; names do not tell case apart. -/
def header? (r : UpgradeRequest) (name : String) : Option (List UInt8) :=
  (r.headers.find? fun h => h.1.toLower = name.toLower).map Prod.snd

/-- The token of the authorization header, which must be plain text. -/
def bearerToken (r : UpgradeRequest) : Option String := do
  let value ← r.header? "authorization"
  if value.all isVisible then
    let text := value.map fun b => Char.ofNat b.toNat
    (Text.after? "Bearer ".toList text).map fun rest => Text.trim (String.ofList rest)
  else none

/-- Whether the request shows a token. Nothing shows an empty one. -/
def shows (r : UpgradeRequest) (token : String) : Bool :=
  !token.isEmpty && (r.bearerToken = some token || r.queryParam "token" = some token)

/-! ## Well-formed headers -/

/-- Whether a name may name a header. -/
def isHeaderName (name : List UInt8) : Bool :=
  !name.isEmpty && name.all fun b =>
    Text.isUnreserved b || "!#$%&'*+^`|".toList.any fun c => c.toNat = b.toNat

/-- Whether a header value has no control character but the tab. -/
def isHeaderValue (value : List UInt8) : Bool :=
  value.all fun b => (32 ≤ b && b ≠ 127) || b = 9

end UpgradeRequest

end DeviceRelay
