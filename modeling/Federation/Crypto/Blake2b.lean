import Federation.Crypto.Block
import Federation.Crypto.Bytes
/-!
# BLAKE2b

The hash function with a digest of 64 bytes and without key.
-/

namespace Federation.Crypto.Blake2b

abbrev State := Block UInt64

def iv : Vector UInt64 8 := #v[
  0x6a09e667f3bcc908, 0xbb67ae8584caa73b, 0x3c6ef372fe94f82b, 0xa54ff53a5f1d36f1,
  0x510e527fade682d1, 0x9b05688c2b3e6c1f, 0x1f83d9abfb41bd6b, 0x5be0cd19137e2179]

/-- The words of the message that each round mixes into the lanes, two into each. -/
def sigma : List (List (Nat × Nat)) := [
  [(0, 1), (2, 3), (4, 5), (6, 7), (8, 9), (10, 11), (12, 13), (14, 15)],
  [(14, 10), (4, 8), (9, 15), (13, 6), (1, 12), (0, 2), (11, 7), (5, 3)],
  [(11, 8), (12, 0), (5, 2), (15, 13), (10, 14), (3, 6), (7, 1), (9, 4)],
  [(7, 9), (3, 1), (13, 12), (11, 14), (2, 6), (5, 10), (4, 0), (15, 8)],
  [(9, 0), (5, 7), (2, 4), (10, 15), (14, 1), (11, 12), (6, 8), (3, 13)],
  [(2, 12), (6, 10), (0, 11), (8, 3), (4, 13), (7, 5), (15, 14), (1, 9)],
  [(12, 5), (1, 15), (14, 13), (4, 10), (0, 7), (6, 3), (9, 2), (8, 11)],
  [(13, 11), (7, 14), (12, 1), (3, 9), (5, 0), (15, 4), (8, 6), (2, 10)],
  [(6, 15), (14, 9), (11, 3), (0, 8), (12, 2), (13, 7), (1, 4), (10, 5)],
  [(10, 2), (8, 4), (7, 6), (1, 5), (15, 11), (9, 14), (3, 12), (13, 0)]]

def rotate (x n : UInt64) : UInt64 := (x >>> n) ||| (x <<< (64 - n))

/-- Mixes two words of the message into four words of the state. -/
def mix (s : State) (a b c d : Nat) (x y : UInt64) : State :=
  let s := s.put a (s.word a + s.word b + x)
  let s := s.put d (rotate (s.word d ^^^ s.word a) 32)
  let s := s.put c (s.word c + s.word d)
  let s := s.put b (rotate (s.word b ^^^ s.word c) 24)
  let s := s.put a (s.word a + s.word b + y)
  let s := s.put d (rotate (s.word d ^^^ s.word a) 16)
  let s := s.put c (s.word c + s.word d)
  s.put b (rotate (s.word b ^^^ s.word c) 63)

/-- One round, which takes the message words in the given order. -/
def round (m s : State) (order : List (Nat × Nat)) : State :=
  (Block.lanes.zip order).foldl
    (fun s ((a, b, c, d), (x, y)) => mix s a b c d (m.word x) (m.word y)) s

/-- Compresses a block of 128 bytes into the chaining value. `total` counts the bytes up to the end
of the block. -/
def compress (h : Vector UInt64 8) (bytes : List UInt8) (total : Nat) (final : Bool) :
    Vector UInt64 8 :=
  let words := wordsOf 8 16 (bytes ++ List.replicate (128 - bytes.length) 0)
  let m : State := Vector.ofFn fun i => UInt64.ofNat (words.getD i 0)
  let s : State := h ++ iv
  let s := s.put 12 (s.word 12 ^^^ UInt64.ofNat (total % UInt64.size))
  let s := s.put 13 (s.word 13 ^^^ UInt64.ofNat (total / UInt64.size))
  let s := if final then s.put 14 (~~~s.word 14) else s
  let s := (sigma ++ sigma.take 2).foldl (round m) s
  Vector.ofFn fun i => h.get i ^^^ s.word i ^^^ s.word (i + 8)

/-- Compresses a message of at most `n + 1` blocks. -/
def absorb : Nat → Vector UInt64 8 → List UInt8 → Nat → Vector UInt64 8
  | 0, h, bytes, done => compress h bytes (done + bytes.length) true
  | n + 1, h, bytes, done =>
    if bytes.length ≤ 128 then compress h bytes (done + bytes.length) true
    else absorb n (compress h (bytes.take 128) (done + 128) false) (bytes.drop 128) (done + 128)

def hash (bytes : List UInt8) : List UInt8 :=
  let start := iv.set 0 (iv[0] ^^^ 0x01010040)
  (absorb (bytes.length / 128) start bytes 0).toList.flatMap fun w => littleEndian 8 w.toNat

end Federation.Crypto.Blake2b
