import DeviceRelay.Json.Basic

/-!
# Members of a known kind

A reader of a document mostly asks for a member of one kind, and treats a member of any other kind
as one that is missing.

* `Json.text?`, `Json.nat?`, `Json.int?`: a member of this kind.
* `Json.text`, `Json.nat`, `Json.flag`, `Json.list`: the same with a value for a missing member.
-/

namespace DeviceRelay.Json

/-- A member, null where it is missing. -/
def field (j : Json) (key : String) : Json := (j.get? key).getD .null

/-- The items of an array; any other value has none. -/
def items : Json → List Json
  | .array items => items
  | _ => []

def text? (j : Json) (key : String) : Option String := (j.get? key).bind string?

def text (j : Json) (key : String) : String := (j.text? key).getD ""

def nat? (j : Json) (key : String) : Option Nat := ((j.get? key).bind natural?).map UInt64.toNat

def nat (j : Json) (key : String) (usual : Nat := 0) : Nat := (j.nat? key).getD usual

def int? (j : Json) (key : String) : Option Int := (j.get? key).bind integer?

def flag (j : Json) (key : String) (usual : Bool := false) : Bool :=
  ((j.get? key).bind bool?).getD usual

/-- The items of an array member. -/
def list (j : Json) (key : String) : List Json := (j.field key).items

/-- The strings among the items of an array member. -/
def texts (j : Json) (key : String) : List String := (j.list key).filterMap string?

end DeviceRelay.Json
