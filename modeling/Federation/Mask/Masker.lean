import Federation.Mask.Config
import Federation.SortedMap
/-!
# Masking

Every pair of parties of a session shares a key and derives the same stream of words from it. Of the
two, the one whose name comes first adds the stream to its encoded vector and the other one subtracts
it, so all streams cancel in the sum over all parties. A `Masker` is what one party needs to mask its
vectors; how a key yields a stream is a parameter of `Masker.mask`.

`MaskedSum` adds masked vectors up and decodes the total.
-/

namespace Federation

inductive KeyAgreementError where
  | missingPublicKey (node : NodeId)
  | invalidPublicKey (node : NodeId)
  deriving DecidableEq

instance : Failure KeyAgreementError where
  kind
    | .missingPublicKey _ => "MissingPublicKey"
    | .invalidPublicKey _ => "InvalidPublicKey"
  message?
    | .missingPublicKey node => s!"there is no public key of {node}"
    | .invalidPublicKey node => s!"the public key of {node} is invalid"

inductive MaskingError where
  | unknownParty (node : NodeId)
  | missingPeerKey (node : NodeId)
  | keyAgreement (e : KeyAgreementError)
  deriving DecidableEq

instance : Failure MaskingError where
  kind
    | .unknownParty _ => "UnknownParty"
    | .missingPeerKey _ => "MissingPeerKey"
    | .keyAgreement _ => "KeyExchange"
  message?
    | .unknownParty node => s!"{node} is not a party of the session"
    | .missingPeerKey node => s!"there is no session key shared with {node}"
    | .keyAgreement e => "the key agreement failed: " ++ Failure.message e

/-- A masked vector. Its last element is the verification element. -/
structure MaskedVector where
  data : List UInt64
  deriving DecidableEq

/-- The number of values, without the verification element. -/
def MaskedVector.valueCount (v : MaskedVector) : Nat := v.data.length - 1

structure Masker (R κ : Type) where
  config : MaskConfig R
  -- The keys shared with later parties, whose streams are added.
  add : List κ
  -- The keys shared with earlier parties, whose streams are subtracted.
  sub : List κ

namespace Masker

variable {R κ : Type}

/-- The key shared with each of the peers, unless one is missing. -/
def peerKeys (keys : NameMap κ) : List NodeId → Except MaskingError (List (NodeId × κ))
  | [] => .ok []
  | peer :: rest =>
    match keys.find? peer with
    | none => .error (.missingPeerKey peer)
    | some key => (peerKeys keys rest).map ((peer, key) :: ·)

/-- The masker of a party, from the keys it shares with every other one. The order in which the
parties are listed and repetitions do not matter. -/
def create (config : MaskConfig R) (me : NodeId) (parties : List NodeId) (keys : NameMap κ) :
    Except MaskingError (Masker R κ) :=
  if !parties.contains me then .error (.unknownParty me)
  else
    (peerKeys keys ((SortedMap.setOf parties).keys.filter (· != me))).map fun shared =>
      { config
        add := (shared.filter fun e => decide (me < e.1)).map Prod.snd
        sub := (shared.filter fun e => !decide (me < e.1)).map Prod.snd }

def encode [Scalar R] (config : MaskConfig R) (weight : UInt64) (values : List R) (verification : R) :
    List UInt64 :=
  values.map (config.encode weight) ++ [config.encodeUnclipped weight verification]

def blind (stream : κ → Nat → List UInt64) (m : Masker R κ) (data : List UInt64) : List UInt64 :=
  let added := m.add.foldl (fun acc key => acc.zipWith (· + ·) (stream key data.length)) data
  m.sub.foldl (fun acc key => acc.zipWith (· - ·) (stream key data.length)) added

/-- Masks the weighted values of a party. All parties of a round use one nonce, and no nonce serves
for two rounds of a session. -/
def mask [Scalar R] (stream : κ → UInt64 → Nat → List UInt64) (m : Masker R κ) (nonce weight : UInt64)
    (values : List R) (verification : R) : MaskedVector :=
  ⟨m.blind (fun key n => stream key nonce n) (encode m.config weight values verification)⟩

end Masker

/-! ## Sums of masked vectors -/

structure MaskLengthError where
  expected : Nat
  actual : Nat
  deriving DecidableEq

instance : Failure MaskLengthError where
  kind _ := "LengthMismatch"
  message? e := s!"the masked vector has length {e.actual}, expected {e.expected}"

inductive UnmaskingError where
  | noVector
  | zeroWeight
  | tooMuchWeight (total : UInt64)
  deriving DecidableEq

instance : Failure UnmaskingError where
  kind
    | .noVector => "NoModel"
    | .zeroWeight => "ZeroWeight"
    | .tooMuchWeight _ => "TooMuchWeight"
  message?
    | .noVector => "there is no masked vector to unmask"
    | .zeroWeight => "the total weight is zero"
    | .tooMuchWeight total =>
      s!"the total weight {total} exceeds what the masking configuration can represent"

structure Unmasked (R : Type) where
  values : List R
  verification : R

structure MaskedSum where
  -- The number of vectors added.
  count : Nat
  sum : List UInt64

namespace MaskedSum

def zero (values : Nat) : MaskedSum := ⟨0, List.replicate (values + 1) 0⟩

def check (s : MaskedSum) (v : MaskedVector) : Except MaskLengthError Unit :=
  if v.data.length = s.sum.length then .ok () else .error ⟨s.sum.length, v.data.length⟩

/-- Adds a vector, element by element modulo `2^64`. -/
def add (s : MaskedSum) (v : MaskedVector) : Except MaskLengthError MaskedSum := do
  s.check v
  return ⟨s.count + 1, s.sum.zipWith (· + ·) v.data⟩

def unmask {R : Type} [Scalar R] (s : MaskedSum) (config : MaskConfig R) (total : UInt64) :
    Except UnmaskingError (Unmasked R) :=
  if s.count = 0 then .error .noVector
  else if total = 0 then .error .zeroWeight
  else if config.maxTotalWeight < total then .error (.tooMuchWeight total)
  else
    let mean (w : UInt64) : R := config.decode w / Scalar.ofCount total
    .ok ⟨s.sum.dropLast.map mean, mean (s.sum.getLastD 0)⟩

end MaskedSum

end Federation
