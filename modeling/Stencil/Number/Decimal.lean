import Stencil.Number.Binary64
import Stencil.Text.Basic

namespace Stencil

/-- The positive number `0.d₁d₂… * 10 ^ point`, whose last digit is not zero. -/
structure Decimal where
  digits : Text
  point : Int
deriving DecidableEq, Repr

namespace Decimal

/-- The decimal `digits * 10 ^ e`, without zeros at its end. -/
def ofScaled (digits : Nat) (e : Int) : Decimal :=
  let text := Nat.toDigits 10 digits
  ⟨(text.reverse.dropWhile (· == '0')).reverse, text.length + e⟩

/-- The nearest decimal of the given count of digits that reads back as the finite number `x`. -/
def withDigits? (x : Binary64) (count : Nat) : Option Decimal :=
  let m := x.significand
  let below := if m = Binary64.hiddenBit ∧ 1 < x.exponentField then 1 else 2
  -- sizes are counted in quarters of the last place of `x`
  let (num, den) := Binary64.scale 2 (4 * m) 1 (x.exponent - 2)
  let unit := decimalSize num den - count
  let (n, d) := Binary64.scale 10 num den (-unit)
  let (low, _) := Binary64.scale 2 (4 * m - below) 1 (x.exponent - 2)
  let (low, _) := Binary64.scale 10 low den (-unit)
  let (high, _) := Binary64.scale 2 (4 * m + 2) 1 (x.exponent - 2)
  let (high, _) := Binary64.scale 10 high den (-unit)
  let reads (q : Nat) : Bool :=
    if m % 2 = 0 then low ≤ q * d && q * d ≤ high else low < q * d && q * d < high
  let nearest := roundHalfEven n d
  let other := if nearest * d ≤ n then nearest + 1 else nearest - 1
  ([nearest, other].find? reads).map fun q => ofScaled q unit

/-- The fewest digits that read back as the finite number `x`, nearest to it among those. -/
def shortest (x : Binary64) : Decimal :=
  ((List.range 17).findSome? fun n => withDigits? x (n + 1)).getD ⟨[], 0⟩

/-- The number nearest to the finite number `x` rounded to a count of significant digits. -/
def roundSignificant (count : Nat) (x : Binary64) : Binary64 :=
  if x.isFinite && !x.isZero then
    let (num, den) := x.ratio
    let unit := decimalSize num den - count
    let (n, d) := Binary64.scale 10 num den (-unit)
    Binary64.ofDecimal x.isNegative (roundHalfEven n d) unit
  else
    x

/-- The digits before and behind the point. -/
def positional (d : Decimal) : Text × Text :=
  if d.point ≤ 0 then
    (['0'], List.replicate (-d.point).toNat '0' ++ d.digits)
  else
    let point := d.point.toNat
    (d.digits.take point ++ List.replicate (point - d.digits.length) '0', d.digits.drop point)

end Decimal

end Stencil
