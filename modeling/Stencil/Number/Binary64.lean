import Stencil.Number.Rounding

namespace Stencil

/-- A double precision number in the interchange format: sign, eleven bits of exponent, 52 of
fraction. -/
structure Binary64 where
  bits : UInt64
deriving DecidableEq, Repr

namespace Binary64

def signBit : Nat :=
  0x8000000000000000

/-- The bit of a significand that is not stored, just above the 52 that are. -/
def hiddenBit : Nat :=
  0x10000000000000

def isNegative (x : Binary64) : Bool :=
  signBit ≤ x.bits.toNat

/-- The bits of a number but that of its sign. -/
def magnitude (x : Binary64) : Nat :=
  x.bits.toNat % signBit

/-- The bits of positive infinity: all exponents bits and no other. -/
def infinityBits : Nat :=
  2047 * hiddenBit

def isNaN (x : Binary64) : Bool :=
  infinityBits < x.magnitude

def isInfinite (x : Binary64) : Bool :=
  x.magnitude == infinityBits

def isFinite (x : Binary64) : Bool :=
  x.magnitude < infinityBits

def isZero (x : Binary64) : Bool :=
  x.magnitude == 0

/-- The bits of the exponent. -/
def exponentField (x : Binary64) : Nat :=
  x.magnitude / hiddenBit

/-- The significand `m` of a finite number of size `m * 2 ^ e`. -/
def significand (x : Binary64) : Nat :=
  if x.exponentField = 0 then x.magnitude else x.magnitude % hiddenBit + hiddenBit

/-- The exponent `e` of a finite number of size `m * 2 ^ e`. -/
def exponent (x : Binary64) : Int :=
  max x.exponentField 1 - 1075

/-- The number of a sign and the bits behind it. -/
def ofMagnitude (negative : Bool) (magnitude : Nat) : Binary64 :=
  ⟨UInt64.ofNat (if negative then magnitude + signBit else magnitude)⟩

/-- The numerator and denominator of `num / den * base ^ e`. -/
def scale (base num den : Nat) : Int → Nat × Nat
  | .ofNat e => (num * base.pow e, den)
  | .negSucc e => (num, den * base.pow (e + 1))

/-- The size of a finite number, as a numerator and a denominator. -/
def ratio (x : Binary64) : Nat × Nat :=
  scale 2 x.significand 1 x.exponent

/-- The number nearest to a quotient, of two equally near the one with an even significand; infinity
beyond the largest finite one. -/
def ofRatio (negative : Bool) (num den : Nat) : Binary64 :=
  if num = 0 then
    ofMagnitude negative 0
  else
    let least := max ((num.log2 : Int) - den.log2 - 53) (-1074)
    let (n, d) := scale 2 num den (-least)
    let e := if 2 * hiddenBit ≤ n / d then least + 1 else least
    let (n, d) := scale 2 num den (-e)
    ofMagnitude negative (min (roundHalfEven n d + (e + 1074).toNat * hiddenBit) infinityBits)

/-- The number nearest to `digits * 10 ^ e`.  Sizes far outside the range of finite numbers are
told by their count of digits alone. -/
def ofDecimal (negative : Bool) (digits : Nat) (e : Int) : Binary64 :=
  if digits = 0 ∨ digitCount digits + e < -330 then
    ofMagnitude negative 0
  else if 310 < digitCount digits + e then
    ofMagnitude negative infinityBits
  else
    let (num, den) := scale 10 digits 1 e
    ofRatio negative num den

/-- Numeric equality: both zeros are equal, and a NaN equals nothing. -/
def same (x y : Binary64) : Bool :=
  !x.isNaN && !y.isNaN && (x == y || (x.isZero && y.isZero))

end Binary64

end Stencil
