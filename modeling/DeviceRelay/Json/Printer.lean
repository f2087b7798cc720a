import DeviceRelay.Json.Basic
import DeviceRelay.Number.Shortest

/-!
# Writing JSON

The compact text of a value: no blanks, members in the order of the object. In a string a quote, a
backslash and the control characters are escaped, and every other character stands for itself. A
double has the fewest digits that read back, always with a point or an exponent, so that it reads
back as a double.

* `Json.render`: the text of a value.
* `Json.escapeChar`: one character of a string; at most six bytes stand for one.
-/

namespace DeviceRelay.Json

/-! ## Numbers -/

/-- The decimal digits of a natural number. -/
def naturalChars (n : Nat) : List Char := Nat.toDigits 10 n

def integerChars (i : Int) : List Char :=
  if i < 0 then '-' :: naturalChars i.natAbs else naturalChars i.natAbs

/-- Digits are written out from `10 ^ -5` up to below `10 ^ 16`; elsewhere an exponent with a sign
follows the first digit and the fraction. -/
def decimalChars (d : Decimal) : List Char :=
  let ds := naturalChars d.digits
  let point : Int := (ds.length : Int) + d.exponent
  if 0 ≤ d.exponent ∧ point ≤ 16 then ds ++ List.replicate d.exponent.toNat '0' ++ ['.', '0']
  else if 0 < point ∧ point ≤ 16 then ds.take point.toNat ++ '.' :: ds.drop point.toNat
  else if -5 < point ∧ point ≤ 0 then '0' :: '.' :: List.replicate (-point).toNat '0' ++ ds
  else
    let exponent := point - 1
    let mark := if exponent < 0 then ['e', '-'] else ['e', '+']
    let mantissa := if ds.length ≤ 1 then ds else ds.take 1 ++ '.' :: ds.drop 1
    mantissa ++ mark ++ naturalChars exponent.natAbs

def doubleChars (x : Double) : List Char :=
  let size :=
    if x.magnitude.mantissa = 0 then ['0', '.', '0'] else decimalChars x.magnitude.shortest
  if x.negative then '-' :: size else size

def numberChars : Number → List Char
  | .natural n => naturalChars n.toNat
  | .negative n => integerChars n.toInt
  | .real x => doubleChars x

/-! ## Strings -/

/-- One lower-case hexadecimal digit. -/
def hexDigit (n : Nat) : Char := if n < 10 then Char.ofNat (48 + n) else Char.ofNat (87 + n)

/-- One character of a string. -/
def escapeChar (c : Char) : List Char :=
  if c = '"' then ['\\', '"']
  else if c = '\\' then ['\\', '\\']
  else if c = '\x08' then ['\\', 'b']
  else if c = '\t' then ['\\', 't']
  else if c = '\n' then ['\\', 'n']
  else if c = '\x0c' then ['\\', 'f']
  else if c = '\r' then ['\\', 'r']
  else if c.toNat < 0x20 then
    ['\\', 'u', '0', '0', hexDigit (c.toNat / 16), hexDigit (c.toNat % 16)]
  else [c]

def stringChars (s : String) : List Char := '"' :: s.toList.flatMap escapeChar ++ ['"']

/-! ## Values -/

/-- Parts with a comma between neighbours. -/
def commaSeparated : List (List Char) → List Char
  | [] => []
  | [part] => part
  | part :: parts => part ++ ',' :: commaSeparated parts

mutual

/-- The characters of a value. -/
def chars : Json → List Char
  | .null => ['n', 'u', 'l', 'l']
  | .bool true => ['t', 'r', 'u', 'e']
  | .bool false => ['f', 'a', 'l', 's', 'e']
  | .number n => numberChars n
  | .string s => stringChars s
  | .array items => '[' :: commaSeparated (itemChars items) ++ [']']
  | .object members => '{' :: commaSeparated (memberChars members) ++ ['}']
termination_by structural j => j

def itemChars : List Json → List (List Char)
  | [] => []
  | item :: items => chars item :: itemChars items
termination_by structural j => j

def memberChars : List (String × Json) → List (List Char)
  | [] => []
  | m :: ms => oneMemberChars m :: memberChars ms
termination_by structural j => j

def oneMemberChars : String × Json → List Char
  | (key, value) => stringChars key ++ ':' :: chars value
termination_by structural j => j

end

/-- The text of a value. -/
def render (j : Json) : String := String.ofList j.chars

end DeviceRelay.Json
