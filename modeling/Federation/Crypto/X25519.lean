import Federation.Crypto.Bytes
/-!
# X25519

Multiplication on the curve `y^2 = x^3 + 486662 x^2 + x` over the field of `2^255 - 19` elements, with
points given by their first coordinate. The ladder keeps the multiples `n` and `n + 1` of the point
as fractions and walks down the bits of the scalar.
-/

namespace Federation.Crypto.X25519

def p : Nat := Nat.pow 2 255 - 19

def sub (a b : Nat) : Nat := (a + p - b) % p

/-- The power of a field element; the exponent has at most `bits` bits. -/
def power (x : Nat) : Nat → Nat → Nat
  | 0, _ => 1
  | bits + 1, e =>
    let half := power x bits (e / 2)
    let square := half * half % p
    if e % 2 = 1 then square * x % p else square

/-- Two points as fractions `x / z`. -/
structure Ladder where
  x2 : Nat
  z2 : Nat
  x3 : Nat
  z3 : Nat

/-- Doubles the first point and adds the second one to it; `u` is their difference. -/
def Ladder.step (l : Ladder) (u : Nat) : Ladder :=
  let a := (l.x2 + l.z2) % p
  let aa := a * a % p
  let b := sub l.x2 l.z2
  let bb := b * b % p
  let e := sub aa bb
  let c := (l.x3 + l.z3) % p
  let d := sub l.x3 l.z3
  let da := d * a % p
  let cb := c * b % p
  let plus := (da + cb) % p
  let minus := sub da cb
  { x2 := aa * bb % p
    z2 := e * ((aa + 121665 * e) % p) % p
    x3 := plus * plus % p
    z3 := u * (minus * minus % p) % p }

def Ladder.swap (l : Ladder) : Ladder := ⟨l.x3, l.z3, l.x2, l.z2⟩

/-- The scalar of a secret key: a multiple of eight with the bit 254 as its highest. -/
def clamp (secret : Nat) : Nat :=
  let top := Nat.pow 2 254
  let low := secret % top
  low - low % 8 + top

def multiply (secret point : Key) : Key :=
  let k := clamp secret.toNat
  let u := point.toNat % Nat.pow 2 255 % p
  let result : Ladder := (List.range 255).reverse.foldl (fun (l : Ladder) (i : Nat) =>
    if k.testBit i then (l.swap.step u).swap else l.step u) ⟨1, 0, u, 1⟩
  .ofNat (result.x2 * power result.z2 255 (p - 2) % p)

def publicKey (secret : Key) : Key := multiply secret (.ofNat 9)

end Federation.Crypto.X25519
