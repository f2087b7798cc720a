import DeviceRelay.Number.Binary
import DeviceRelay.Text.Blank

/-!
# Wireless statistics

The table of wireless interfaces that the kernel keeps has two header lines and a line per
interface: its name, a colon, and columns of which the third is the signal level. The level may
end in points and is read as a 32-bit float, whose integer part counts.

* `Wireless.firstLink?`: the first interface with a level, and the level.
-/

namespace DeviceRelay.Wireless

/-- A level as it is read. -/
inductive Level where
  | finite (negative : Bool) (size : Magnitude)
  | infinite (negative : Bool)
  | undefined
  deriving DecidableEq, Repr

/-- The digits at the front of a text as a number, with their count, and what follows. -/
def takeDigits (s : List Char) : List Nat × List Char :=
  ((s.takeWhile Char.isDigit).map fun c => c.toNat - '0'.toNat, s.dropWhile Char.isDigit)

/-- The number that some digits spell. -/
def digitsValue (ds : List Nat) : Nat := ds.foldl (fun n d => n * 10 + d) 0

/-- An exponent part up to the end of the text; a text without one has exponent zero. -/
def exponent? (s : List Char) : Option Int :=
  match s with
  | [] => some 0
  | c :: r =>
    if c = 'e' ∨ c = 'E' then
      let (negative, r) :=
        match r with
        | '-' :: t => (true, t)
        | '+' :: t => (false, t)
        | t => (false, t)
      let (ds, rest) := takeDigits r
      if ds.isEmpty || !rest.isEmpty then none
      else some (if negative then -(digitsValue ds : Int) else digitsValue ds)
    else none

/-- `digits * 10 ^ exponent` rounded to 32 bits. A value with more than sixty digits before the
point, or as many zeros after it, lies far outside the format and is not computed. -/
def scaled (negative : Bool) (digits : List Nat) (exponent : Int) : Level :=
  let digits := digits.dropWhile (· = 0)
  let point := (digits.length : Int) + exponent
  if digits.isEmpty ∨ point < -60 then .finite negative ⟨0, 0⟩
  else if 60 < point then .infinite negative
  else
    match BinaryFormat.binary32.nearest (digitsValue digits * tenTo exponent.toNat)
        (tenTo (-exponent).toNat) with
    | some x => .finite negative x
    | none => .infinite negative

/-- A level without its sign: digits with at most one point, and an exponent part. -/
def unsigned? (negative : Bool) (s : List Char) : Option Level :=
  let lower := s.map Char.toLower
  if lower = "inf".toList ∨ lower = "infinity".toList then some (.infinite negative)
  else if lower = "nan".toList then some .undefined
  else
    let (whole, rest) := takeDigits s
    let (fraction, rest) :=
      match rest with
      | '.' :: t => takeDigits t
      | t => ([], t)
    if whole.isEmpty && fraction.isEmpty then none
    else (exponent? rest).map fun e => scaled negative (whole ++ fraction) (e - fraction.length)

/-- A level with or without a sign. -/
def Level.parse? (s : List Char) : Option Level :=
  match s with
  | '-' :: r => unsigned? true r
  | '+' :: r => unsigned? false r
  | r => unsigned? false r

/-- The largest signal level. -/
def highest : Int := 2147483647

/-- The smallest signal level. -/
def lowest : Int := -2147483648

/-- The integer part of a level, brought into the range of 32 bits; an undefined level is zero. -/
def Level.toInt : Level → Int
  | .finite negative x =>
    let n : Int := if negative then -(x.truncate : Int) else x.truncate
    max lowest (min highest n)
  | .infinite negative => if negative then lowest else highest
  | .undefined => 0

/-- The interface and the level of one line. -/
def link? (line : List Char) : Option (String × Int) := do
  let rest ← (line.dropWhile (· ≠ ':')).tail?
  let column ← (Text.words rest)[2]?
  let level ← Level.parse? (column.reverse.dropWhile (· = '.')).reverse
  some (Text.trim (String.ofList (line.takeWhile (· ≠ ':'))), level.toInt)

/-- The first interface that has a level, and the level. -/
def firstLink? (table : String) : Option (String × Int) :=
  ((table.toList.splitOn '\n').drop 2).findSome? link?

end DeviceRelay.Wireless
