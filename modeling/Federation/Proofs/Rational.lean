import Mathlib.Data.Nat.Sqrt
import Mathlib.Data.Rat.Floor
import Federation.Scalar
/-!
# Exact scalars

Over the rational numbers the rules compute without rounding, so their results can be read off.
-/

namespace Federation

/-- A whole number in the range of signed 64 bit words. -/
def clampWord (i : Int) : Int := max (-2 ^ 63) (min (2 ^ 63 - 1) i)

/-- Rational numbers. Every one of them is finite, and a root is exact if there is one. -/
instance : RootScalar ℚ where
  decLt := inferInstance
  ofInt i := i
  isFinite _ := true
  round x := clampWord (if x < 0 then ⌈x - 1 / 2⌉ else ⌊x + 1 / 2⌋)
  ceil x := min (2 ^ 64 - 1) ⌈x⌉.toNat
  sqrt x := (Nat.sqrt x.num.toNat : ℚ) / Nat.sqrt x.den
  power x n := x ^ n.toNat

end Federation
