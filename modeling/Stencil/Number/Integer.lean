import Stencil.Text.Basic

namespace Stencil

/-- The decimal digits of a number behind its sign, if it is negative. -/
def integerText : Int → Text
  | .ofNat n => Nat.toDigits 10 n
  | .negSucc n => '-' :: Nat.toDigits 10 (n + 1)

/-- The number that a text of digits, one at least, spells. -/
def readDigits? (t : Text) : Option Nat :=
  if t ≠ [] ∧ t.all Char.isDigit then some (Nat.ofDigitChars 10 t 0) else none

/-- The number, if 64 bits in two's complement can hold it. -/
def toInt64? (n : Int) : Option Int64 :=
  if Int64.minValue.toInt ≤ n ∧ n ≤ Int64.maxValue.toInt then some (Int64.ofInt n) else none

/-- The 64-bit number that a text spells: digits after at most one sign. -/
def readInteger? : Text → Option Int64
  | '-' :: t => (readDigits? t).bind fun n => toInt64? (-n)
  | '+' :: t => (readDigits? t).bind fun n => toInt64? n
  | t => (readDigits? t).bind fun n => toInt64? n

theorem toInt64?_toInt (n : Int64) : toInt64? n.toInt = some n := by
  rw [toInt64?, if_pos ⟨Int64.minValue_le_toInt n, Int64.toInt_le n⟩, Int64.ofInt_toInt]

end Stencil
