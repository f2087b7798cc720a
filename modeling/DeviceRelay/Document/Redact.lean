import DeviceRelay.Json.Basic

/-!
# Masked documents

The copy of a document that may be shown: a string that is not empty and stands under the key of a
credential is replaced by a mask, at any depth. Everything else is kept.
-/

namespace DeviceRelay.Json

/-- What stands in the place of a credential. -/
def mask : String := "********"

/-- The keys of credentials. -/
def secretKeys : List String := ["token", "authToken", "password", "psk"]

/-- Whether a value under a key is a credential that must be masked. -/
def isSecret (key : String) (value : Json) : Bool :=
  secretKeys.contains key && value.string?.any fun s => !s.isEmpty

mutual

/-- The document with its credentials masked. -/
def redact : Json → Json
  | .array items => .array (redactItems items)
  | .object members => .object (redactMembers members)
  | scalar => scalar
termination_by structural j => j

def redactItems : List Json → List Json
  | [] => []
  | item :: items => redact item :: redactItems items
termination_by structural j => j

def redactMembers : List (String × Json) → List (String × Json)
  | [] => []
  | m :: ms => redactMember m :: redactMembers ms
termination_by structural j => j

def redactMember : String × Json → String × Json
  | (key, value) => (key, if isSecret key value then .string mask else redact value)
termination_by structural j => j

end

end DeviceRelay.Json
