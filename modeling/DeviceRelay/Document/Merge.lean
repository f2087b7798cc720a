import DeviceRelay.Json.Basic

/-!
# Partial documents

A partial document is laid over a document: objects are merged member by member at every depth,
and any other value takes the place of what was there. An update of the device configuration is
one partial document or an array of them, laid over in order.

* `Json.merge`: one partial document.
* `Json.update`: one update.
-/

namespace DeviceRelay.Json

mutual

/-- The document with a partial one laid over it. -/
def merge (target : Json) : (patch : Json) → Json
  | .object patch =>
    match target with
    | .object members => .object (mergeMembers members patch)
    | _ => .object patch
  | patch => patch
termination_by structural patch => patch

/-- Members with those of a partial object laid over them, one after the other. -/
def mergeMembers (members : List (String × Json)) :
    (patch : List (String × Json)) → List (String × Json)
  | [] => members
  | m :: patch => mergeMembers (mergeMember members m) patch
termination_by structural patch => patch

/-- Members with one more laid over them. A key that was missing counts as null. -/
def mergeMember (members : List (String × Json)) : (m : String × Json) → List (String × Json)
  | (key, value) => insertMember key (merge ((lookup key members).getD .null) value) members
termination_by structural m => m

end

/-- The document after an update. -/
def update (config : Json) : (change : Json) → Json
  | .array patches => patches.foldl merge config
  | patch => merge config patch

end DeviceRelay.Json
