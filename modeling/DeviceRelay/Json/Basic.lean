import DeviceRelay.Number.Binary

/-!
# JSON values

The dynamic value that requests, replies and the device configuration are made of. An object is a
list of members whose keys strictly increase; `insertMember` keeps that order, so two objects with
the same members are equal. Keys compare by code point, which is the order of their UTF-8 bytes.

* `Json.lookup`, `Json.insertMember`: reading and writing one member.
* `Json.Ordered`: every object inside a value has its keys in order.
* `Json.get?`, `Json.at?`: members of an object, and of nested objects along a path.
-/

namespace DeviceRelay

/-- A JSON number: a 64-bit natural, a 64-bit integer below zero, or a finite double. -/
inductive Number where
  | natural (n : UInt64)
  | negative (n : Int64)
  | real (x : Double)
  deriving DecidableEq, Repr

inductive Json where
  | null
  | bool (b : Bool)
  | number (n : Number)
  | string (s : String)
  | array (items : List Json)
  | object (members : List (String × Json))
  deriving Repr, Inhabited

namespace Number

/-- The value as a 64-bit natural; a double has none, even where it is whole. -/
def natural? : Number → Option UInt64
  | .natural n => some n
  | _ => none

/-- The value as a signed 64-bit integer. -/
def integer? : Number → Option Int
  | .natural n => if n.toNat < UInt64.size / 2 then some n.toNat else none
  | .negative n => some n.toInt
  | .real _ => none

/-- The number that holds an integer of at most 63 bits. -/
def ofInt (i : Int) : Number :=
  if i < 0 then .negative (Int64.ofInt i) else .natural (UInt64.ofNat i.toNat)

end Number

namespace Json

/-! ## Equality -/

mutual

def decEq : (a b : Json) → Decidable (a = b)
  | .null, .null => isTrue rfl
  | .bool a, .bool b =>
    if h : a = b then isTrue (by rw [h]) else isFalse (by simp [h])
  | .number a, .number b =>
    if h : a = b then isTrue (by rw [h]) else isFalse (by simp [h])
  | .string a, .string b =>
    if h : a = b then isTrue (by rw [h]) else isFalse (by simp [h])
  | .array a, .array b =>
    match decEqItems a b with
    | isTrue h => isTrue (by rw [h])
    | isFalse h => isFalse (by simp [h])
  | .object a, .object b =>
    match decEqMembers a b with
    | isTrue h => isTrue (by rw [h])
    | isFalse h => isFalse (by simp [h])
  | .null, .bool _ | .null, .number _ | .null, .string _ | .null, .array _ | .null, .object _
  | .bool _, .null | .bool _, .number _ | .bool _, .string _ | .bool _, .array _
  | .bool _, .object _ | .number _, .null | .number _, .bool _ | .number _, .string _
  | .number _, .array _ | .number _, .object _ | .string _, .null | .string _, .bool _
  | .string _, .number _ | .string _, .array _ | .string _, .object _ | .array _, .null
  | .array _, .bool _ | .array _, .number _ | .array _, .string _ | .array _, .object _
  | .object _, .null | .object _, .bool _ | .object _, .number _ | .object _, .string _
  | .object _, .array _ => isFalse (by simp)
termination_by structural a => a

def decEqItems : (a b : List Json) → Decidable (a = b)
  | [], [] => isTrue rfl
  | [], _ :: _ => isFalse (by simp)
  | _ :: _, [] => isFalse (by simp)
  | x :: xs, y :: ys =>
    match decEq x y, decEqItems xs ys with
    | isTrue h, isTrue h' => isTrue (by rw [h, h'])
    | isFalse h, _ => isFalse (by simp [h])
    | _, isFalse h => isFalse (by simp [h])
termination_by structural a => a

def decEqMembers : (a b : List (String × Json)) → Decidable (a = b)
  | [], [] => isTrue rfl
  | [], _ :: _ => isFalse (by simp)
  | _ :: _, [] => isFalse (by simp)
  | x :: xs, y :: ys =>
    match decEqMember x y, decEqMembers xs ys with
    | isTrue h, isTrue h' => isTrue (by rw [h, h'])
    | isFalse h, _ => isFalse (by simp [h])
    | _, isFalse h => isFalse (by simp [h])
termination_by structural a => a

def decEqMember : (a b : String × Json) → Decidable (a = b)
  | (k, v), (l, w) =>
    match decEq v w with
    | isTrue h' => if h : k = l then isTrue (by rw [h, h']) else isFalse (by simp [h])
    | isFalse h => isFalse (by simp [h])
termination_by structural a => a

end

instance : DecidableEq Json := decEq

/-! ## Members -/

/-- The value of the first member with this key. -/
def lookup (key : String) (members : List (String × Json)) : Option Json :=
  (members.find? fun m => m.1 = key).map Prod.snd

/-- Puts a member in its place by key, over a member that has the key already. -/
def insertMember (key : String) (value : Json) :
    List (String × Json) → List (String × Json)
  | [] => [(key, value)]
  | (k, v) :: rest =>
    if k = key then (key, value) :: rest
    else if key < k then (key, value) :: (k, v) :: rest
    else (k, v) :: insertMember key value rest

/-- The object with these members; a later one wins over an earlier one with the same key. -/
def ofMembers (members : List (String × Json)) : Json :=
  .object (members.foldl (fun acc m => insertMember m.1 m.2 acc) [])

def isObject : Json → Bool
  | .object _ => true
  | _ => false

/-- The members of an object; any other value has none. -/
def members : Json → List (String × Json)
  | .object ms => ms
  | _ => []

/-- A member of an object; no other value has any. -/
def get? (j : Json) (key : String) : Option Json := lookup key j.members

/-! ## Scalars -/

def string? : Json → Option String
  | .string s => some s
  | _ => none

def bool? : Json → Option Bool
  | .bool b => some b
  | _ => none

def natural? : Json → Option UInt64
  | .number n => n.natural?
  | _ => none

def integer? : Json → Option Int
  | .number n => n.integer?
  | _ => none

/-- A count as a JSON number. -/
def ofNat (n : Nat) : Json := .number (.natural (UInt64.ofNat n))

/-- A signed integer as a JSON number. -/
def ofInt (i : Int) : Json := .number (Number.ofInt i)

/-- A string, or null where there is none. -/
def ofString? (s : Option String) : Json := (s.map Json.string).getD .null

/-! ## Order of keys -/

/-- Keys strictly increase from member to member. -/
def KeysIncrease (members : List (String × Json)) : Prop :=
  members.Pairwise fun a b => a.1 < b.1

instance (members : List (String × Json)) : Decidable (KeysIncrease members) :=
  inferInstanceAs (Decidable (members.Pairwise fun a b => a.1 < b.1))

/-- Every object inside the value has its keys in order. -/
inductive Ordered : Json → Prop where
  | null : Ordered .null
  | bool (b : Bool) : Ordered (.bool b)
  | number (n : Number) : Ordered (.number n)
  | string (s : String) : Ordered (.string s)
  | array {items : List Json} (each : ∀ v ∈ items, Ordered v) : Ordered (.array items)
  | object {members : List (String × Json)} (keys : KeysIncrease members)
      (each : ∀ m ∈ members, Ordered m.2) : Ordered (.object members)

end Json

end DeviceRelay
