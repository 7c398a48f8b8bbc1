namespace Stencil

/-- The whole number nearest to a quotient; of two equally near the even one. -/
def roundHalfEven (num den : Nat) : Nat :=
  let q := num / den
  let r := num % den
  if 2 * r < den ∨ (2 * r = den ∧ q % 2 = 0) then q else q + 1

theorem roundHalfEven_mul (q den : Nat) (h : 0 < den) : roundHalfEven (q * den) den = q := by
  simp [roundHalfEven, Nat.mul_div_cancel q h, h]

theorem two_mul_sub_roundHalfEven_le (num den : Nat) (h : 0 < den) :
    2 * (num - roundHalfEven num den * den) ≤ den ∧
      2 * (roundHalfEven num den * den - num) ≤ den := by
  have hdiv := Nat.div_add_mod num den
  have hmod := Nat.mod_lt num h
  have hcomm := Nat.mul_comm den (num / den)
  simp only [roundHalfEven]
  split
  next => omega
  next => rw [Nat.add_mul, Nat.one_mul]; omega

/-- The number of decimal digits of a natural number; zero has one. -/
def digitCount (n : Nat) : Nat :=
  (Nat.toDigits 10 n).length

/-- The `k` for which a positive quotient is below `10 ^ k` and not below `10 ^ (k - 1)`. -/
def decimalSize (num den : Nat) : Int :=
  if den ≤ num then digitCount (num / den) else 1 - digitCount ((den - 1) / num)

end Stencil
