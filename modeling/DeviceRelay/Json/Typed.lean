import DeviceRelay.Json.Parser
import DeviceRelay.Json.Printer

/-!
# Reading values of one kind

Readers for a text that must hold a value of a known kind. A value of another kind is described in
the failure; scalars are read to their end first, so the failure lies after them, and an array or
object is refused where it starts.

* `Json.readWord32`: a natural number of 32 bits.
* `Json.readVariant`: one of a list of names, alone or as the only key of an object whose value
  is null.
-/

namespace DeviceRelay.Json

/-- How a number appears in a failure. -/
def Found.ofNumber : Number → Found
  | .natural n => .integer n.toNat
  | .negative n => .integer n.toInt
  | .real x => .float (String.ofList (doubleChars x))

/-- The failure for a value at the front of a text that is not of the wanted kind. -/
def refuse (wanted : String) (s : List Char) : Failure :=
  let scalar (found : Found) (rest : List Char) : Failure :=
    ⟨.invalidType found wanted, textSize rest⟩
  let read : Except Failure Failure :=
    match s with
    | [] => failPast .expectedValue []
    | c :: r =>
      if c = 'n' then do .ok (scalar .unit (← readWord ['u', 'l', 'l'] r).1)
      else if c = 't' then do .ok (scalar (.bool true) (← readWord ['r', 'u', 'e'] r).1)
      else if c = 'f' then do .ok (scalar (.bool false) (← readWord ['a', 'l', 's', 'e'] r).1)
      else if c = '-' then do
        let (n, t) ← readNumber true r
        .ok (scalar (.ofNumber n) t.1)
      else if c.isDigit then do
        let (n, t) ← readNumber false (c :: r)
        .ok (scalar (.ofNumber n) t.1)
      else if c = '"' then do
        let (str, t) ← readString r
        .ok (scalar (.string str) t.1)
      else if c = '[' then .ok (scalar .sequence s)
      else if c = '{' then .ok (scalar .map s)
      else failPast .expectedValue s
  match read with
  | .ok failure => failure
  | .error failure => failure

/-- Reads the whole text with a reader, which must leave only blanks. -/
def readWhole {α : Type} (read : List Char → Except Failure (α × List Char)) (text : String) :
    Except ReadError α :=
  let chars := text.toList
  let result : Except Failure α := do
    let (a, rest) ← read chars
    finish rest
    .ok a
  result.mapError (Failure.locate chars)

/-- A natural number of 32 bits. -/
def readWord32 (s : List Char) : Except Failure (UInt32 × List Char) :=
  let wanted := "u32"
  let fit (n : Number) (rest : List Char) : Except Failure (UInt32 × List Char) :=
    match n with
    | .natural v =>
      if v.toNat < UInt32.size then .ok (v.toUInt32, rest)
      else failAt (.invalidValue (.ofNumber n) wanted) rest
    | .negative _ => failAt (.invalidValue (.ofNumber n) wanted) rest
    | .real _ => failAt (.invalidType (.ofNumber n) wanted) rest
  match skipBlanks s with
  | [] => failAt .endInValue []
  | c :: r =>
    if c = '-' then do
      let (n, t) ← readNumber true r
      fit n t.1
    else if c.isDigit then do
      let (n, t) ← readNumber false (c :: r)
      fit n t.1
    else .error (refuse wanted (c :: r))

/-- A name from a list, as a string. -/
def readName (known : List String) (s : List Char) : Except Failure (String × List Char) :=
  match skipBlanks s with
  | [] => failAt .endInValue []
  | c :: r =>
    if c = '"' then do
      let (name, t) ← readString r
      if known.contains name then .ok (name, t.1) else failAt (.unknownVariant name known) t.1
    else .error (refuse "variant identifier" (c :: r))

/-- A null. -/
def readUnit (s : List Char) : Except Failure (List Char) :=
  match skipBlanks s with
  | [] => failAt .endInValue []
  | c :: r =>
    if c = 'n' then do
      let t ← readWord ['u', 'l', 'l'] r
      .ok t.1
    else .error (refuse "unit" (c :: r))

/-- One of a list of names. -/
def readVariant (known : List String) (s : List Char) : Except Failure (String × List Char) :=
  match skipBlanks s with
  | [] => failAt .endInValue []
  | c :: r =>
    if c = '{' then do
      let (name, t) ← readName known r
      let (_, u) ← readColon t
      let rest ← readUnit u.1
      match skipBlanks rest with
      | [] => failAt .endInObject []
      | d :: v => if d = '}' then .ok (name, v) else failAt .expectedValue (d :: v)
    else if c = '"' then readName known (c :: r)
    else failPast .expectedValue (c :: r)

end DeviceRelay.Json
