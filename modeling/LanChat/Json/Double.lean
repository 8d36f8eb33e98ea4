import Mathlib.Algebra.GroupWithZero.Nat
import Mathlib.Tactic.Common

/-!
# Doubles, as far as the JSON code uses them

The server reads a number with a decimal point by `std::stod` and prints a
double by `std::to_string` (`%f`, six decimals). A finite double is kept as
sign, mantissa and binary exponent.
-/

namespace LanChat.Json

/-- The double `± mant * 2 ^ exp`. -/
structure Double where
  neg : Bool
  mant : Nat
  exp : Int
deriving DecidableEq, Repr

/-- The quotient `n / d` rounded to the nearest integer, a tie to the even one. -/
def roundHalfEven (n d : Nat) : Nat :=
  let q := n / d
  let r := n % d
  if 2 * r < d then q
  else if d < 2 * r then q + 1
  else if q % 2 = 0 then q
  else q + 1

/-- `n / d * 2 ^ (-e)` as a fraction. -/
def scaled (n d : Nat) (e : Int) : Nat × Nat :=
  if 0 ≤ e then (n, d * 2 ^ e.toNat) else (n * 2 ^ (-e).toNat, d)

/-- The exponent of the last mantissa bit of the double next to `n / d`: 53
significant bits, and no bit below `2 ^ (-1074)`. -/
def lastBit (n d : Nat) : Int :=
  let e : Int := (Nat.log2 n : Int) - Nat.log2 d - 53
  let (a, b) := scaled n d e
  max (-1074) (if b * 2 ^ 53 ≤ a then e + 1 else e)

/-- `std::stod` on the decimal `n / 10 ^ k`: the nearest double, or no result
(`std::out_of_range`) when it overflows, or when it is below the normal range
and not exact. -/
def stod (neg : Bool) (n k : Nat) : Option Double :=
  if n = 0 then some ⟨neg, 0, 0⟩
  else
    let e := lastBit n (10 ^ k)
    let (a, b) := scaled n (10 ^ k) e
    let m := roundHalfEven a b
    if m * 2 ^ (e + 1074).toNat ≥ 2 ^ (1024 + 1074) then none
    else if m < 2 ^ 52 ∧ m * b ≠ a then none
    else some ⟨neg, m, e⟩

/-- The absolute value in millionths, rounded as `%f` does. -/
def Double.micros (d : Double) : Nat :=
  if 0 ≤ d.exp then d.mant * 2 ^ d.exp.toNat * 10 ^ 6
  else roundHalfEven (d.mant * 10 ^ 6) (2 ^ (-d.exp).toNat)

example : (stod false 15 1).map Double.micros = some 1500000 := by decide +kernel

end LanChat.Json
