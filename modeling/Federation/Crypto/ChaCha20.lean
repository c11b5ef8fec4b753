import Federation.Crypto.Block
import Federation.Crypto.Bytes
/-!
# ChaCha20

The stream cipher with a block counter of 64 bits and a stream number of 64 bits. `ChaCha20.words`
reads the stream of a key as 64 bit words, the lower half first.
-/

namespace Federation.Crypto.ChaCha20

abbrev State := Block UInt32

def rotate (x n : UInt32) : UInt32 := (x <<< n) ||| (x >>> (32 - n))

def quarterRound (s : State) (a b c d : Nat) : State :=
  let s := s.put a (s.word a + s.word b)
  let s := s.put d (rotate (s.word d ^^^ s.word a) 16)
  let s := s.put c (s.word c + s.word d)
  let s := s.put b (rotate (s.word b ^^^ s.word c) 12)
  let s := s.put a (s.word a + s.word b)
  let s := s.put d (rotate (s.word d ^^^ s.word a) 8)
  let s := s.put c (s.word c + s.word d)
  s.put b (rotate (s.word b ^^^ s.word c) 7)

/-- Mixes every lane. -/
def doubleRound (s : State) : State :=
  Block.lanes.foldl (fun s (a, b, c, d) => quarterRound s a b c d) s

/-- The state before the rounds: four constants, the key, the counter and the stream number. -/
def initial (key : Key) (counter stream : Nat) : State :=
  let k := wordsOf 4 8 key.bytes
  let input := [0x61707865, 0x3320646e, 0x79622d32, 0x6b206574] ++ k ++
    [counter % UInt32.size, counter / UInt32.size, stream % UInt32.size, stream / UInt32.size]
  Vector.ofFn fun i => UInt32.ofNat (input.getD i 0)

def block (key : Key) (counter stream : Nat) : State :=
  let start := initial key counter stream
  let mixed := (List.range 10).foldl (fun s _ => doubleRound s) start
  mixed.zipWith (· + ·) start

/-- Pairs of words as words of twice the size, the lower half first. -/
def join : List UInt32 → List UInt64
  | low :: high :: rest => (low.toUInt64 ||| (high.toUInt64 <<< 32)) :: join rest
  | _ => []

/-- The first `n` words of 64 bits of a stream. -/
def words (key : Key) (stream : UInt64) (n : Nat) : List UInt64 :=
  ((List.range ((n + 7) / 8)).flatMap fun i => join (block key i stream.toNat).toList).take n

end Federation.Crypto.ChaCha20
