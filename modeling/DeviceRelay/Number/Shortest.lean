import DeviceRelay.Number.Binary

/-!
# Shortest decimal digits

`Magnitude.shortest` gives the decimal with the fewest digits that rounds back to a 64-bit
magnitude, and among those the closest. A decimal `c * 10 ^ k` rounds back exactly when it lies
between the midpoints to the two neighbours of the magnitude, the midpoints included when the
mantissa is even. The search goes from coarse decimal grids to fine ones, so the first grid with
a hit has the fewest digits.
-/

namespace DeviceRelay

/-- A decimal `digits * 10 ^ exponent`. -/
structure Decimal where
  digits : Nat
  exponent : Int
  deriving DecidableEq, Repr

namespace Magnitude

/-- The distance to the lower midpoint, in quarters of a step: one where the step below is half
as wide, two elsewhere. -/
def lowerQuarters (x : Magnitude) : Nat :=
  if x.mantissa = twoTo 52 ∧ BinaryFormat.binary64.minExponent < x.exponent then 1 else 2

/-- Whether `c * 10 ^ k` rounds to `x`, all in units of `2 ^ (e - 2) / 10 ^ k` brought over a
common denominator: `unit` is a quarter step and `grid` the decimal step. -/
def admits (x : Magnitude) (unit grid c : Nat) : Bool :=
  let low := (4 * x.mantissa - x.lowerQuarters) * unit
  let high := (4 * x.mantissa + 2) * unit
  if x.mantissa % 2 = 0 then low ≤ c * grid && c * grid ≤ high
  else low < c * grid && c * grid < high

/-- The multiple of `10 ^ k` next to `x` that rounds back to it, the closer one of two. -/
def onGrid? (x : Magnitude) (k : Int) : Option Decimal :=
  let quarter := x.exponent - 2
  let unit := twoTo quarter.toNat * tenTo (-k).toNat
  let grid := tenTo k.toNat * twoTo (-quarter).toNat
  let exact := 4 * x.mantissa * unit
  let c := exact / grid
  let below := exact - c * grid
  let above := (c + 1) * grid - exact
  let preferUpper := above < below || (above = below && c % 2 = 1)
  match x.admits unit grid c, x.admits unit grid (c + 1) with
  | true, true => some ⟨if preferUpper then c + 1 else c, k⟩
  | true, false => some ⟨c, k⟩
  | false, true => some ⟨c + 1, k⟩
  | false, false => none

/-- The first hit on the grids `10 ^ k`, `10 ^ (k - 1)`, and so on, `count` grids in all. -/
def firstOnGrid? (x : Magnitude) : (count : Nat) → (k : Int) → Option Decimal
  | 0, _ => none
  | count + 1, k =>
    match x.onGrid? k with
    | some d => some d
    | none => x.firstOnGrid? count (k - 1)

/-- The shortest decimal that rounds back to `x`, and the closest of these. The search starts at a
power of ten above `x`: the decimal logarithm of two lies between 0.30 and 0.31. Seventeen digits
always suffice. -/
def shortest (x : Magnitude) : Decimal :=
  let width : Int := x.exponent + (x.mantissa.log2 : Int) + 1
  let top : Int := max (width * 30 / 100) (width * 31 / 100) + 1
  (x.firstOnGrid? 40 top).getD ⟨0, 0⟩

end Magnitude

end DeviceRelay
