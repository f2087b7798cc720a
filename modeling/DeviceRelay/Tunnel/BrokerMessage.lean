import DeviceRelay.Json.Parser
import DeviceRelay.Text.Blank

/-!
# Messages of the broker

Control messages of the broker share the text channel with application payloads.
`Inbound.classify` tells them apart. A control message is a JSON text with three fields, written
as an object or as an array of the fields in their order: the kind, and two URLs that may be
missing. A field that is present twice is a fault, other fields are skipped, and any fault makes
the text a payload.

* `Inbound.classify`: what a text is.
* `BrokerFields.read`: the three fields of a text.
-/

namespace DeviceRelay

/-- What the broker hands back once it knows the device. -/
structure Registration where
  uiUrl : Option String
  deviceUrl : Option String
  deriving DecidableEq, Repr, Inhabited

inductive BrokerControl where
  | registered (r : Registration)
  | uiConnected
  | uiDisconnected
  deriving DecidableEq, Repr

/-- What a text from the broker is. -/
inductive Inbound where
  | control (c : BrokerControl)
  | payload
  deriving DecidableEq, Repr

/-- The fields read so far. -/
structure BrokerFields where
  kind : Option String
  uiUrl : Option Json
  deviceUrl : Option Json
  deriving Repr

namespace BrokerFields

open Json

def none : BrokerFields := ⟨Option.none, Option.none, Option.none⟩

/-- The nesting left inside the outer bracket. -/
def fieldDepth : Nat := maxDepth - 1

/-- A kind is a string. -/
def readKind (s : List Char) : Option (String × Rest s) :=
  match h : skipBlanks s with
  | [] => Option.none
  | c :: r =>
    if c = '"' then
      match readString r with
      | .ok (kind, t) => some (kind, ⟨t.1, Nat.lt_trans t.2 (length_of_skipBlanks h)⟩)
      | .error _ => Option.none
    else Option.none

/-- A URL is any value, and is looked at later. -/
def readUrl (s : List Char) : Option (Json × Rest s) := (readValue fieldDepth s).toOption

/-- The value of the field `key`, added to the fields. -/
def readField (fields : BrokerFields) (key : String) (s : List Char) :
    Option (BrokerFields × Rest s) :=
  if key = "type" then
    if fields.kind.isSome then Option.none
    else (readKind s).map fun (v, r) => ({ fields with kind := some v }, r)
  else if key = "ui_ws_url" then
    if fields.uiUrl.isSome then Option.none
    else (readUrl s).map fun (v, r) => ({ fields with uiUrl := some v }, r)
  else if key = "device_ws_url" then
    if fields.deviceUrl.isSome then Option.none
    else (readUrl s).map fun (v, r) => ({ fields with deviceUrl := some v }, r)
  else (skipValue s).map fun r => (fields, r)

/-- One member, from after the opening quote of its key. -/
def readMember (fields : BrokerFields) (s : List Char) : Option (BrokerFields × Rest s) :=
  match readString s with
  | .error _ => Option.none
  | .ok (key, r) =>
    match readColon r.1 with
    | .error _ => Option.none
    | .ok (_, t) =>
      (readField fields key t.1).map fun (fields, u) =>
        (fields, r.after (t.after u))

/-- Members up to the closing brace, from after the opening quote of a key. -/
def readMembers (fields : BrokerFields) (s : List Char) : Option (BrokerFields × List Char) :=
  match readMember fields s with
  | Option.none => Option.none
  | some (fields, r) =>
    match h : skipBlanks r.1 with
    | '}' :: t => some (fields, t)
    | ',' :: t =>
      match h' : skipBlanks t with
      | '"' :: u =>
        have : u.length < s.length :=
          Nat.lt_trans (length_of_skipBlanks h') (Nat.lt_trans (length_of_skipBlanks h) r.2)
        readMembers fields u
      | _ => Option.none
    | _ => Option.none
termination_by s.length

/-- Further elements of an array: each is the value of the next field of `keys`. -/
def readElements (fields : BrokerFields) :
    (keys : List String) → List Char → Option (BrokerFields × List Char)
  | keys, s =>
    match skipBlanks s with
    | ']' :: t => some (fields, t)
    | ',' :: t =>
      match keys with
      | [] => Option.none
      | key :: keys =>
        match readField fields key t with
        | some (fields, r) => readElements fields keys r.1
        | Option.none => Option.none
    | _ => Option.none

/-- The fields of an object, or of an array whose elements are the fields in their order. -/
def readBody (s : List Char) : Option (BrokerFields × List Char) :=
  match skipBlanks s with
  | '{' :: r =>
    match skipBlanks r with
    | '}' :: t => some (none, t)
    | '"' :: t => readMembers none t
    | _ => Option.none
  | '[' :: r =>
    match readField none "type" r with
    | some (fields, t) => readElements fields ["ui_ws_url", "device_ws_url"] t.1
    | Option.none => Option.none
  | _ => Option.none

/-- The fields of a whole text. -/
def read (text : String) : Option BrokerFields := do
  let (fields, rest) ← readBody text.toList
  if (skipBlanks rest).isEmpty then some fields else Option.none

end BrokerFields

/-- A URL counts where it is a string that is not empty. -/
def Registration.url? (field : Option Json) : Option String :=
  (field.bind Json.string?).filter fun url => !url.isEmpty

/-- What a text is. A text in which `"type"` does not occur as written is a payload at once. -/
def Inbound.classify (text : String) : Inbound :=
  if !(Text.occurs "\"type\"".toList text.toList) then .payload
  else
    match BrokerFields.read text with
    | none => .payload
    | some fields =>
      match fields.kind with
      | some "registered" =>
        .control (.registered ⟨Registration.url? fields.uiUrl, Registration.url? fields.deviceUrl⟩)
      | some "ui_connected" => .control .uiConnected
      | some "ui_disconnected" => .control .uiDisconnected
      | _ => .payload

end DeviceRelay
