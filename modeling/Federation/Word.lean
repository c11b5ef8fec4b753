/-!
# Words in two's complement

A word of 64 bits also stands for a whole number with sign: from `Word.signBit` on it stands for the
number that is `UInt64.size` less.
-/

namespace Federation.Word

/-- The smallest word with the sign bit, `2^63`. -/
def signBit : Nat := 9223372036854775808

def represents (i : Int) : Bool := decide (-(signBit : Int) ≤ i ∧ i < signBit)

/-- The word that stands for a whole number, taken modulo the number of words. -/
def ofInt (i : Int) : UInt64 := UInt64.ofNat (i % (UInt64.size : Int)).toNat

def toInt (w : UInt64) : Int :=
  if w.toNat < signBit then w.toNat else (w.toNat : Int) - (UInt64.size : Int)

end Federation.Word
