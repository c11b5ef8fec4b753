import Federation.Binary64.Rounding
/-!
# Whole numbers near doubles

Doubles are rounded to whole numbers exactly, on their significands and exponents, and what exceeds the
range of a word is cut off. The magnitude of an infinite double exceeds it by far, so that infinity needs
no case of its own.
-/

namespace Federation.Binary64

/-- The nearest whole number, halves up. -/
def Magnitude.nearestWhole (x : Magnitude) : Nat :=
  if 0 ≤ x.q then x.m * Nat.pow 2 x.q.natAbs
  else (2 * x.m + Nat.pow 2 x.q.natAbs) / (2 * Nat.pow 2 x.q.natAbs)

/-- The least whole number that is not below. -/
def Magnitude.leastWhole (x : Magnitude) : Nat :=
  if 0 ≤ x.q then x.m * Nat.pow 2 x.q.natAbs
  else (x.m + (Nat.pow 2 x.q.natAbs - 1)) / Nat.pow 2 x.q.natAbs

/-- The nearest whole number with sign, halves away from zero. -/
def roundToWord (x : Float) : Int :=
  let whole := (magnitude x).nearestWhole
  if x.isNaN then 0
  else if isNegative x then -(min Word.signBit whole : Nat)
  else (min (Word.signBit - 1) whole : Nat)

/-- The least whole number that is not below, and not negative. -/
def ceilToWord (x : Float) : Nat :=
  if x.isNaN || isNegative x then 0 else min (UInt64.size - 1) (magnitude x).leastWhole

end Federation.Binary64
