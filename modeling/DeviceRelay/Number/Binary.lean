/-!
# Rounding to a binary floating-point format

A finite value of a format is a mantissa times a power of two. `BinaryFormat.nearest` rounds an
exact fraction to the closest such value, a tie going to the even mantissa, and answers nothing
where the fraction is too large for the format. All arithmetic is on natural numbers, so a value
read from text is the same wherever it is computed.

* `BinaryFormat.nearest`: the closest value of the format to a fraction.
* `Magnitude.mul`, `Magnitude.div`: one rounded product or quotient.
* `Magnitude.truncate`: the integer part.
-/

namespace DeviceRelay

/-- Two to the power `n`. -/
def twoTo (n : Nat) : Nat := Nat.pow 2 n

/-- Ten to the power `n`. -/
def tenTo (n : Nat) : Nat := Nat.pow 10 n

/-- A binary format: its finite magnitudes are `m * 2 ^ e` with `m < 2 ^ precision` and
`minExponent ≤ e ≤ maxExponent`. -/
structure BinaryFormat where
  precision : Nat
  minExponent : Int
  maxExponent : Int
  deriving DecidableEq, Repr

/-- The 64-bit format. -/
def BinaryFormat.binary64 : BinaryFormat := ⟨53, -1074, 971⟩

/-- The 32-bit format. -/
def BinaryFormat.binary32 : BinaryFormat := ⟨24, -149, 104⟩

/-- The size of a number, `mantissa * 2 ^ exponent`. -/
structure Magnitude where
  mantissa : Nat
  exponent : Int
  deriving DecidableEq, Repr

/-- The whole number closest to `num / den`; a half goes to the even neighbour. -/
def roundHalfEven (num den : Nat) : Nat :=
  let quotient := num / den
  let twice := 2 * (num % den)
  if twice < den then quotient
  else if den < twice then quotient + 1
  else quotient + quotient % 2

namespace Magnitude

/-- The magnitude as an exact fraction: a power of two above or below the line. -/
def numerator (x : Magnitude) : Nat := x.mantissa * twoTo x.exponent.toNat

/-- The line below `numerator`. -/
def denominator (x : Magnitude) : Nat := twoTo (-x.exponent).toNat

/-- The integer part. -/
def truncate (x : Magnitude) : Nat := x.numerator / x.denominator

end Magnitude

namespace BinaryFormat

/-- The exponent whose step gives `num / den` exactly `precision` bits before rounding, or the
finest step of the format where that is coarser. -/
def stepExponent (fmt : BinaryFormat) (num den : Nat) : Int :=
  let scale : Int := (num.log2 : Int) - (den.log2 : Int)
  let below : Bool := num * twoTo (-scale).toNat < den * twoTo scale.toNat
  max fmt.minExponent ((if below then scale else scale + 1) - (fmt.precision : Int))

/-- The closest magnitude of the format to `num / den`, ties to the even mantissa; none where it
exceeds the format. -/
def nearest (fmt : BinaryFormat) (num den : Nat) : Option Magnitude :=
  if num = 0 then some ⟨0, fmt.minExponent⟩
  else
    let e := fmt.stepExponent num den
    let m := roundHalfEven (num * twoTo (-e).toNat) (den * twoTo e.toNat)
    let x : Magnitude :=
      if m = twoTo fmt.precision then ⟨twoTo (fmt.precision - 1), e + 1⟩ else ⟨m, e⟩
    if x.exponent ≤ fmt.maxExponent then some x else none

/-- The rounded product. -/
def mul (fmt : BinaryFormat) (x y : Magnitude) : Option Magnitude :=
  fmt.nearest (x.numerator * y.numerator) (x.denominator * y.denominator)

/-- The rounded quotient by a magnitude above zero. -/
def div (fmt : BinaryFormat) (x y : Magnitude) : Option Magnitude :=
  fmt.nearest (x.numerator * y.denominator) (x.denominator * y.numerator)

end BinaryFormat

/-- A finite number of the 64-bit format, by its bit pattern, so that equality is equality of the
stored number and the two zeros stay apart. -/
structure Double where
  bits : UInt64
  deriving DecidableEq, Repr

namespace Double

/-- The number with this sign and magnitude; the exponent field counts the steps above the finest
one, and the hidden bit of the mantissa carries into it. -/
def ofMagnitude (negative : Bool) (x : Magnitude) : Double :=
  let field := (x.exponent - BinaryFormat.binary64.minExponent).toNat * twoTo 52 + x.mantissa
  ⟨UInt64.ofNat (if negative then twoTo 63 + field else field)⟩

def negative (x : Double) : Bool := twoTo 63 ≤ x.bits.toNat

def magnitude (x : Double) : Magnitude :=
  let field : Nat := x.bits.toNat % twoTo 63
  let biased : Nat := field / twoTo 52
  let fraction : Nat := field % twoTo 52
  if biased = 0 then ⟨fraction, BinaryFormat.binary64.minExponent⟩
  else ⟨twoTo 52 + fraction, (biased : Int) - 1075⟩

end Double

end DeviceRelay
