import Federation.Crypto.Blake2b
import Federation.Crypto.ChaCha20
import Federation.Crypto.X25519
import Federation.Mask.Masker
/-!
# Key agreement

Each party of a session has a key pair and learns the public keys of its peers. Two parties derive
the key they share from the product of their keys and from both public keys. The one whose name comes
first hashes its own public key first, so both hash the same bytes.
-/

namespace Federation

/-- The key pair of a party, for one session. -/
structure KeyPair where
  secret : Crypto.Key
  publicKey : Crypto.Key
  deriving DecidableEq

namespace KeyPair

def ofSecret (secret : Crypto.Key) : KeyPair := ⟨secret, Crypto.X25519.publicKey secret⟩

/-- The key that the party `me` shares with a peer. Both derive it from the second half of the hash
of their product followed by the public keys in the order of their names: the first party sends with
it and the second one receives. A peer whose key gives the product zero is refused. -/
def agree (pair : KeyPair) (me peer : NodeId) (peerKey : Crypto.Key) :
    Except KeyAgreementError Crypto.Key :=
  let q := Crypto.X25519.multiply pair.secret peerKey
  if q.bytes.all (· == 0) then .error (.invalidPublicKey peer)
  else
    let keys :=
      if me < peer then pair.publicKey.bytes ++ peerKey.bytes
      else peerKey.bytes ++ pair.publicKey.bytes
    let digest := Crypto.Blake2b.hash (q.bytes ++ keys)
    .ok (.ofNat (Crypto.ofLittleEndian (digest.drop 32)))

/-- The keys that the party `me` shares with the others, unless a public key is missing or
invalid. -/
def sessionKeys (pair : KeyPair) (me : NodeId) (parties : List NodeId) (publicKeys : NameMap Crypto.Key) :
    Except KeyAgreementError (NameMap Crypto.Key) :=
  (go (parties.filter (· != me))).map SortedMap.ofList
where
  -- The keys shared with the peers of a list.
  go : List NodeId → Except KeyAgreementError (List (NodeId × Crypto.Key))
    | [] => .ok []
    | peer :: rest => do
      let some key := publicKeys.find? peer | throw (.missingPublicKey peer)
      let shared ← pair.agree me peer key
      return (peer, shared) :: (← go rest)

end KeyPair

end Federation
