import Federation.Binary64.Whole
/-!
# Numbers that parameters are made of

The aggregation rules, the server optimizers and the fixed point encoding are written once, over any
type with the operations of `Scalar`. A controller runs them on double precision floats; read over an
exact field the same definitions are the formulas themselves.

`Scalar` asks for no laws, since the operations on floats have few.
-/

namespace Federation

class Scalar (R : Type) extends Zero R, One R, Add R, Sub R, Mul R, Div R, Neg R, LT R, BEq R where
  -- Whether one number is below another.
  decLt : DecidableLT R
  -- The number nearest to a whole number.
  ofInt : Int → R
  -- Whether the number is neither infinite nor undefined.
  isFinite : R → Bool
  -- The nearest whole number between `-2^63` and `2^63 - 1`, halves away from zero. An undefined
  -- number gives zero.
  round : R → Int
  -- The least whole number not below a number, up to `2^64 - 1`. Below zero it is zero.
  ceil : R → Nat

/-- Numbers with roots and powers, which the adaptive optimizers need as well. -/
class RootScalar (R : Type) extends Scalar R where
  sqrt : R → R
  -- The power of a number to a natural exponent.
  power : R → UInt64 → R

namespace Scalar

variable {R : Type} [Scalar R]

instance : DecidableLT R := Scalar.decLt

def ofCount (n : UInt64) : R := ofInt n.toNat

/-- Whether a number is undefined, that is different from itself. -/
def isUndefined (x : R) : Bool := !(x == x)

/-- The greater of two numbers, or the defined one if only one is. -/
def greater (x y : R) : R :=
  if isUndefined x then y else if isUndefined y then x else if x < y then y else x

/-- The smaller of two numbers, or the defined one if only one is. -/
def smaller (x y : R) : R :=
  if isUndefined x then y else if isUndefined y then x else if y < x then y else x

def magnitude (x : R) : R := if x < 0 then -x else x

def isPositive (x : R) : Bool := isFinite x && decide (0 < x)

end Scalar

/-- The double nearest to a whole number in the range of 64 bit words. -/
def nearestDouble (i : Int) : Float :=
  if i < 0 then -(UInt64.ofNat i.natAbs).toFloat else (UInt64.ofNat i.natAbs).toFloat

instance : RootScalar Float where
  zero := 0.0
  one := 1.0
  decLt := inferInstance
  ofInt := nearestDouble
  isFinite := Float.isFinite
  round := Binary64.roundToWord
  ceil := Binary64.ceilToWord
  sqrt := Float.sqrt
  power x n := Float.pow x n.toFloat

end Federation
