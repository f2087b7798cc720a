import DeviceRelay.Json.Basic
import DeviceRelay.Json.Failure
import DeviceRelay.Json.Rest

/-!
# Numerals

A numeral is scanned into its digits first and given a value afterwards. The value keeps the
leading digits that fit 64 bits, takes them as a double where the numeral has a fraction, an
exponent or more digits, and scales that double by one rounded multiplication or division with a
power of ten. A double that would be infinite is out of range.

* `Numeral.scan`: the digits of a numeral at the start of a text.
* `Numeral.value`: the number that a numeral denotes.
-/

namespace DeviceRelay.Json

/-- What a reader gives on the text `s`. -/
abbrev Reading (α : Type) (s : List Char) := Except Failure (α × Rest s)

/-- Gives up before the text `s`. -/
def failAt {α : Type} (cause : Fault) (s : List Char) : Except Failure α :=
  .error ⟨cause, textSize s⟩

/-- Gives up just past the first byte of `s`, or at its end where `s` is empty. -/
def failPast {α : Type} (cause : Fault) (s : List Char) : Except Failure α :=
  .error ⟨cause, textSize s - 1⟩

/-- The digits of a numeral: the sign, the whole part, the part after the point, and the sign and
digits of the exponent. A numeral without point or exponent has no digits there. -/
structure Numeral where
  negative : Bool
  whole : List Nat
  fraction : List Nat
  exponentNegative : Bool
  exponent : List Nat
  deriving DecidableEq, Repr

def digit? (c : Char) : Option Nat := if c.isDigit then some (c.toNat - '0'.toNat) else none

/-- The digits at the front of a text, and what follows them. -/
def spanDigits (s : List Char) : List Nat × Remainder s :=
  ((s.takeWhile Char.isDigit).map fun c => c.toNat - '0'.toNat,
    ⟨s.dropWhile Char.isDigit, (List.dropWhile_sublist _).length_le⟩)

namespace Numeral

/-- The part of a numeral from its exponent mark on. -/
def scanExponent (s : List Char) :
    Except Failure ((Bool × List Nat) × Remainder s) :=
  match s with
  | [] => .ok ((false, []), .whole [])
  | c :: r =>
    if c = 'e' ∨ c = 'E' then
      let signed : Bool × Remainder r :=
        match r with
        | '+' :: t => (false, ⟨t, length_le_cons '+' t⟩)
        | '-' :: t => (true, ⟨t, length_le_cons '-' t⟩)
        | t => (false, .whole t)
      match spanDigits signed.2.1 with
      | ([], _) =>
        if signed.2.1.isEmpty then failAt .endInValue [] else failPast .invalidNumber signed.2.1
      | (ds, t) =>
        .ok ((signed.1, ds), ⟨t.1, by
          have h1 := t.2
          have h2 := signed.2.2
          simp only [List.length_cons]
          omega⟩)
    else .ok ((false, []), .whole (c :: r))

/-- The part of a numeral from its point on. -/
def scanFraction (s : List Char) :
    Except Failure (List Nat × Remainder s) :=
  match s with
  | '.' :: r =>
    match spanDigits r with
    | ([], _) => if r.isEmpty then failAt .endInValue [] else failPast .invalidNumber r
    | (ds, t) => .ok (ds, ⟨t.1, by have h := t.2; simp only [List.length_cons]; omega⟩)
  | s => .ok ([], .whole s)

/-- The whole part: a zero alone, or digits that do not start with one. -/
def scanWhole (s : List Char) : Reading (List Nat) s :=
  match s with
  | [] => failAt .endInValue []
  | c :: r =>
    match digit? c with
    | some 0 =>
      if r.head?.any Char.isDigit then failPast .invalidNumber r
      else .ok ([0], .tail c r)
    | some d =>
      let (ds, t) := spanDigits r
      .ok (d :: ds, t.past c)
    | none => failPast .invalidNumber (c :: r)

/-- The numeral at the front of a text, after its sign. -/
def scan (negative : Bool) (s : List Char) : Reading Numeral s := do
  let (whole, r) ← scanWhole s
  let (fraction, t) ← scanFraction r.1
  let ((exponentNegative, exponent), u) ← scanExponent t.1
  .ok (⟨negative, whole, fraction, exponentNegative, exponent⟩, ⟨u.1, by
    have h1 := r.2
    have h2 := t.2
    have h3 := u.2
    omega⟩)

/-! ## Value -/

/-- The largest 64-bit natural. -/
def largest : Nat := UInt64.size - 1

/-- Appends digits to `n` for as long as the result fits 64 bits; also gives how many digits were
left over. -/
def absorb (n : Nat) : List Nat → Nat × Nat
  | [] => (n, 0)
  | d :: ds => if n * 10 + d ≤ largest then absorb (n * 10 + d) ds else (n, ds.length + 1)

/-- The size of an exponent, or how many of its digits were left when it passed 31 bits. -/
def exponentSize (n : Nat) : List Nat → Except Nat Nat
  | [] => .ok n
  | d :: ds =>
    if n * 10 + d < UInt32.size / 2 then exponentSize (n * 10 + d) ds else .error ds.length

/-- The power of ten as a double. -/
def powerOfTen (k : Nat) : Magnitude :=
  (BinaryFormat.binary64.nearest (tenTo k) 1).getD ⟨0, 0⟩

/-- Divides by a power of ten. Powers that no double holds are taken in steps of the largest one,
until nothing is left of the magnitude. -/
def scaleDown (x : Magnitude) (k : Nat) : Magnitude :=
  if k ≤ 308 then (BinaryFormat.binary64.div x (powerOfTen k)).getD ⟨0, 0⟩
  else if x.mantissa = 0 then x
  else scaleDown ((BinaryFormat.binary64.div x (powerOfTen 308)).getD ⟨0, 0⟩) (k - 308)
termination_by k

/-- `significand * 10 ^ exponent` as a double, none where that is infinite. -/
def scaled (significand : Nat) (exponent : Int) : Option Magnitude := do
  let x ← BinaryFormat.binary64.nearest significand 1
  if exponent < 0 then some (scaleDown x (-exponent).toNat)
  else if exponent ≤ 308 then BinaryFormat.binary64.mul x (powerOfTen exponent.toNat)
  else if significand = 0 then some x
  else none

/-- The number a numeral denotes. Where it is out of range, how many digits of the exponent were
still to come when that was found. -/
def value (n : Numeral) : Except Nat Number :=
  let (whole, dropped) := absorb 0 n.whole
  let real (x : Magnitude) : Number := .real (Double.ofMagnitude n.negative x)
  if n.fraction.isEmpty ∧ n.exponent.isEmpty ∧ dropped = 0 then
    if n.negative = false then .ok (.natural (UInt64.ofNat whole))
    else if 0 < whole ∧ whole ≤ UInt64.size / 2 then .ok (.negative (Int64.ofInt (-(whole : Int))))
    else .ok (real ((BinaryFormat.binary64.nearest whole 1).getD ⟨0, 0⟩))
  else
    let (significand, unused) := absorb whole n.fraction
    let places : Int := (dropped : Int) - ((n.fraction.length - unused : Nat) : Int)
    match exponentSize 0 n.exponent with
    | .error left =>
      if significand ≠ 0 ∧ n.exponentNegative = false then .error left else .ok (real ⟨0, -1074⟩)
    | .ok size =>
      let exponent := if n.exponentNegative then places - size else places + size
      match scaled significand exponent with
      | some x => .ok (real x)
      | none => .error 0

end Numeral

/-- A number at the front of a text, after its sign. -/
def readNumber (negative : Bool) (s : List Char) : Reading Number s := do
  let (numeral, r) ← Numeral.scan negative s
  match numeral.value with
  | .ok n => .ok (n, r)
  | .error left => .error ⟨.numberOutOfRange, textSize r.1 + left⟩

end DeviceRelay.Json
