import Stencil.Number.Decimal
import Stencil.Number.Integer

namespace Stencil.Binary64

def signText (x : Binary64) : Text :=
  if x.isNegative then ['-'] else []

/-- As many significant digits as a template shows of a number. -/
def shownDigits : Nat := 14

/-- The text of a number in a template: rounded to `shownDigits`, then the fewest digits, without
exponent and without a fraction of zero. -/
def shown (x : Binary64) : Text :=
  let y := Decimal.roundSignificant shownDigits x
  if y.isNaN then
    "NaN".toList
  else if y.isInfinite then
    y.signText ++ "inf".toList
  else if y.isZero then
    y.signText ++ ['0']
  else
    let (whole, fraction) := (Decimal.shortest y).positional
    y.signText ++ whole ++ if fraction.isEmpty then [] else '.' :: fraction

def signedText (n : Int) : Text :=
  if n < 0 then integerText n else '+' :: integerText n

/-- The text of a number in a JSON document: the fewest digits that read back, positional with at
least one digit behind the point from `1e-5` to below `1e16`, and with an exponent elsewhere. -/
def json (x : Binary64) : Text :=
  if !x.isFinite then
    "null".toList
  else if x.isZero then
    x.signText ++ "0.0".toList
  else
    let d := Decimal.shortest x
    if -5 < d.point ∧ d.point ≤ 16 then
      let (whole, fraction) := d.positional
      x.signText ++ whole ++ '.' :: if fraction.isEmpty then ['0'] else fraction
    else
      let fraction := d.digits.drop 1
      x.signText ++ d.digits.take 1 ++ (if fraction.isEmpty then [] else '.' :: fraction) ++
        'e' :: signedText (d.point - 1)

end Stencil.Binary64
