import DeviceRelay.Json.Printer

/-!
# Replies

The envelope of every answer to a command: an object with `ok`, the name of the command where the
request gave one, `error` in a failed answer, and further fields. A field that is set again
replaces the earlier one.
-/

namespace DeviceRelay

structure Reply where
  fields : List (String × Json)
  deriving DecidableEq, Repr

namespace Reply

/-- Sets a field. -/
def set (r : Reply) (key : String) (value : Json) : Reply := ⟨Json.insertMember key value r.fields⟩

/-- A successful answer to a command. -/
def ok (cmd : String) : Reply := (Reply.mk []).set "ok" (.bool true) |>.set "cmd" (.string cmd)

/-- A failed answer; a request without a name gives an answer without one. -/
def error (cmd : Option String) (code : String) : Reply :=
  let base := (Reply.mk []).set "ok" (.bool false)
  let named :=
    match cmd with
    | some name => if name.isEmpty then base else base.set "cmd" (.string name)
    | none => base
  named.set "error" (.string code)

/-- Explains a failure. -/
def detail (r : Reply) (text : String) : Reply := r.set "detail" (.string text)

def get? (r : Reply) (key : String) : Option Json := Json.lookup key r.fields

def isOk (r : Reply) : Bool := r.get? "ok" = some (.bool true)

def toJson (r : Reply) : Json := .object r.fields

/-- The text that is sent. -/
def render (r : Reply) : String := r.toJson.render

end Reply

end DeviceRelay
