import Mathlib.Data.Rat.Floor

/-!
# Double precision

Numbers of double precision are rational numbers, and the result of an operation on them is the nearest one to the exact
result.  Comparisons, minima, maxima and absolute values are exact, and so are not rounded.  There is no largest exponent
here: the format is that of results that do not overflow.
-/

namespace ArdOssie

/-- `2 ^ e` -/
def twoPow : ℤ → ℚ
  | .ofNat n => (2 ^ n : ℕ)
  | .negSucc n => 1 / (2 ^ (n + 1) : ℕ)

/-- The exponent of the first binary digit. -/
def binaryExponent (x : ℚ) : ℤ :=
  let e := (Nat.log2 x.num.natAbs : ℤ) - Nat.log2 x.den
  if twoPow e ≤ |x| then e else e - 1

/-- The nearest integer, and the even one of two that are as near. -/
def nearestEven (x : ℚ) : ℤ :=
  if x - ⌊x⌋ < 1 / 2 ∨ x - ⌊x⌋ = 1 / 2 ∧ ⌊x⌋ % 2 = 0 then ⌊x⌋ else ⌊x⌋ + 1

/-- The nearest number of 53 binary digits, none of them behind the 1074th place. -/
def binary64 (x : ℚ) : ℚ :=
  let unit := twoPow (max (binaryExponent x - 52) (-1074))
  nearestEven (x / unit) * unit

-- a tenth is not a number of double precision
example : binary64 (1 / 10) = 3602879701896397 / 36028797018963968 := by decide +kernel

end ArdOssie
