import Federation.Text.Digits
/-!
# Bytes and words

Little endian reading and writing of words, and the keys of 32 bytes on which the ciphers work.
-/

namespace Federation.Crypto

/-- The number that bytes stand for, the least significant byte first. -/
def ofLittleEndian : List UInt8 → Nat
  | [] => 0
  | b :: rest => b.toNat + 256 * ofLittleEndian rest

/-- The lowest `n` bytes of a number, the least significant one first. -/
def littleEndian : Nat → Nat → List UInt8
  | 0, _ => []
  | n + 1, x => UInt8.ofNat (x % 256) :: littleEndian n (x / 256)

theorem length_littleEndian (n x : Nat) : (littleEndian n x).length = n := by
  induction n generalizing x with
  | zero => rfl
  | succ n ih => simp [littleEndian, ih]

/-- The words of `n` bytes each that a list of bytes holds. -/
def wordsOf (n : Nat) : Nat → List UInt8 → List Nat
  | 0, _ => []
  | count + 1, bytes => ofLittleEndian (bytes.take n) :: wordsOf n count (bytes.drop n)

/-- A key of 32 bytes. -/
structure Key where
  bytes : List UInt8
  length_eq : bytes.length = 32
  deriving DecidableEq

namespace Key

/-- The key of 32 given bytes. -/
def ofBytes? (bytes : List UInt8) : Option Key :=
  if h : bytes.length = 32 then some ⟨bytes, h⟩ else none

/-- The key with the given number, taken modulo `2^256`. -/
def ofNat (x : Nat) : Key := ⟨littleEndian 32 x, length_littleEndian 32 x⟩

/-- The number whose little endian bytes are the key. -/
def toNat (k : Key) : Nat := ofLittleEndian k.bytes

/-- The key of at most 32 bytes, filled up with zeros. -/
def ofLeading? (bytes : List UInt8) : Option Key :=
  if h : bytes.length ≤ 32 then
    some ⟨bytes ++ List.replicate (32 - bytes.length) 0, by simp; omega⟩
  else none

end Key

def hexText (bytes : List UInt8) : String :=
  String.join (bytes.map fun b => Text.hex 2 b.toNat)

def readHex : List Char → Option (List UInt8)
  | [] => some []
  | a :: b :: rest => do
    let n ← Text.readBase 16 [a, b]
    let bytes ← readHex rest
    return UInt8.ofNat n :: bytes
  | [_] => none

end Federation.Crypto
