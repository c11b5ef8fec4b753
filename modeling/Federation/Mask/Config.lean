import Federation.Failure
import Federation.Scalar
import Federation.Binary64.Text
/-!
# Fixed point encoding

Masked values are elements of the group of words modulo `2^64`. A value is clipped to a range, scaled
by the weight of its node and by a power of two, rounded, and read as a two's complement word. The
sum of such words can be decoded as long as the total weight is at most `maxTotalWeight`.
-/

namespace Federation

/-- How values are encoded before they are masked. -/
structure MaskConfig (R : Type) where
  -- The bound on the absolute value of every number.
  clippingRange : R
  -- The number of fractional bits.
  fixedPointBits : UInt8

inductive MaskConfigError (R : Type) where
  | clippingRange (x : R)
  | fixedPointBits (bits : UInt8)

namespace MaskConfig

def maxFixedPointBits : UInt8 := 40

variable {R : Type} [Scalar R]

/-- Refuses a clipping range which is not positive and finite, and a number of bits outside of
`1` to `maxFixedPointBits`. -/
def validate (c : MaskConfig R) : Except (MaskConfigError R) Unit :=
  if !Scalar.isPositive c.clippingRange then .error (.clippingRange c.clippingRange)
  else if c.fixedPointBits = 0 ∨ maxFixedPointBits < c.fixedPointBits then
    .error (.fixedPointBits c.fixedPointBits)
  else .ok ()

/-- The power of two by which values are scaled, a one that is shifted in a word. A shift by 64 bits or
more is not supported; where it is not refused it goes round, so that the number counts modulo 64. -/
def scale (c : MaskConfig R) : R := Scalar.ofInt (Nat.pow 2 (c.fixedPointBits.toNat % 64))

/-- The greatest absolute value of an element before it is weighted. The verification element is at
most one. -/
def elementBound (c : MaskConfig R) : R := Scalar.greater c.clippingRange 1

/-- The greatest total weight whose sums stay in the range of two's complement words. -/
def maxTotalWeight (c : MaskConfig R) : UInt64 :=
  let bound := Scalar.ceil (c.elementBound * c.scale)
  UInt64.ofNat ((Word.signBit - 1) / max bound 1)

/-- Encodes a weighted value which is known to be small. -/
def encodeUnclipped (c : MaskConfig R) (weight : UInt64) (x : R) : UInt64 :=
  Word.ofInt (Scalar.round (Scalar.ofCount weight * x * c.scale))

/-- The value within the clipping range that is nearest, zero for an undefined one. -/
def clip (c : MaskConfig R) (x : R) : R :=
  if Scalar.isUndefined x then 0
  else Scalar.smaller (Scalar.greater x (-c.clippingRange)) c.clippingRange

def encode (c : MaskConfig R) (weight : UInt64) (x : R) : UInt64 := c.encodeUnclipped weight (c.clip x)

def decode (c : MaskConfig R) (w : UInt64) : R := Scalar.ofInt (Word.toInt w) / c.scale

def resolution (c : MaskConfig R) : R := 1 / c.scale

end MaskConfig

/-- The configuration that is used unless another one is given. -/
def MaskConfig.standard : MaskConfig Float := ⟨3.0, 20⟩

instance : Failure (MaskConfigError Float) where
  kind
    | .clippingRange _ => "ClippingRange"
    | .fixedPointBits _ => "FixedPointBits"
  message?
    | .clippingRange x =>
      "the clipping range must be positive and finite, got " ++ Binary64.text .plain x
    | .fixedPointBits bits =>
      s!"the number of fixed point bits must be between 1 and {MaskConfig.maxFixedPointBits}, got {bits}"

end Federation
