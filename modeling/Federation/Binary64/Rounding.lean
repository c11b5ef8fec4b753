import Federation.Word
/-!
# Doubles nearest to exact numbers

A finite double is a sign and a whole number `m` times a power of two. `Binary64.ofRatio` gives the
double nearest to a quotient of whole numbers, the one with the even `m` at a tie, and
`Binary64.ofDecimal` the double nearest to a decimal number. Both work on exact whole numbers, so no
intermediate rounding can move the result.
-/

namespace Federation.Binary64

/-- A finite double as `m * 2^q`, without its sign. -/
structure Magnitude where
  m : Nat
  q : Int
  deriving DecidableEq, Repr

def minExponent : Int := -1074

/-- The least significand of a normal double, `2^52`. -/
def hiddenBit : Nat := 4503599627370496

def magnitude (x : Float) : Magnitude :=
  let bits := x.toBits.toNat
  let biased : Nat := bits / hiddenBit % 2048
  let fraction : Nat := bits % hiddenBit
  if biased = 0 then ⟨fraction, minExponent⟩ else ⟨hiddenBit + fraction, (biased : Int) - 1075⟩

/-- Whether the sign bit is set, of `-0.0` as well. -/
def isNegative (x : Float) : Bool := Word.signBit ≤ x.toBits.toNat

/-- The quotient rounded to the nearest whole number, a half to the even one. -/
def roundDiv (num den : Nat) : Nat :=
  let low := num / den
  let rest := 2 * (num % den)
  if rest < den ∨ (rest = den ∧ low % 2 = 0) then low else low + 1

/-- The bits of `m * 2^q` for `m ≤ 2^53` and `q ≥ minExponent`, where `m < 2^52` only at the least
exponent. What exceeds the greatest double gives infinity. -/
def pack (m : Nat) (q : Int) : UInt64 :=
  let bits := if m < hiddenBit then m else (q + 1074).toNat * hiddenBit + m
  UInt64.ofNat (min bits (2047 * hiddenBit))

/-- `num * 2^k / den`, rounded. -/
def scaledDiv (num den : Nat) (k : Int) : Nat :=
  if k < 0 then roundDiv num (den * Nat.pow 2 k.natAbs) else roundDiv (num * Nat.pow 2 k.natAbs) den

/-- The double nearest to `num / den`, of two equally near the even one. -/
def ofRatio (num den : Nat) : Float :=
  if num = 0 then 0.0
  else
    let estimate : Int := (num.log2 : Int) - den.log2
    -- the quotient is at least `2^(estimate - 1)` and below `2^(estimate + 1)`
    let atLeast : Bool :=
      if estimate < 0 then den ≤ num * Nat.pow 2 estimate.natAbs else den * Nat.pow 2 estimate.natAbs ≤ num
    let exponent := if atLeast then estimate else estimate - 1
    let q := max minExponent (exponent - 52)
    Float.ofBits (pack (scaledDiv num den (-q)) q)

def digitCount (n : Nat) : Nat := (Nat.toDigits 10 n).length

/-- The double nearest to `n * 10^e`, with the given sign. Far beyond the range of doubles the power
of ten is not formed. -/
def ofDecimal (negative : Bool) (n : Nat) (e : Int) : Float :=
  let top := e + digitCount n
  let x :=
    if n = 0 ∨ top < -330 then 0.0
    else if top > 310 then Float.ofBits 0x7ff0000000000000
    else if e < 0 then ofRatio n (Nat.pow 10 e.natAbs) else ofRatio (n * Nat.pow 10 e.natAbs) 1
  if negative then -x else x

end Federation.Binary64
