import Federation.Crypto.KeyAgreement
import Federation.Proofs.Except
import Federation.Proofs.Mask.Cancellation
/-!
# Agreement on keys

The two members of a pair hash the same bytes, whichever of them comes first, so they derive the same
key as soon as the product of either secret key with the other public key is the same. All parties
with such key pairs then belong to one session.
-/

open Finset

namespace Federation

namespace KeyPair

/-- What the two members of a pair need of the curve: one product, which is not zero. -/
structure Matches (p q : KeyPair) : Prop where
  product_eq : Crypto.X25519.multiply p.secret q.publicKey = Crypto.X25519.multiply q.secret p.publicKey
  product_ne : (Crypto.X25519.multiply p.secret q.publicKey).bytes.all (· == 0) = false

/-- The key of a pair, derived from the product and from the public keys in the order of the names. -/
def sharedKey (p q : KeyPair) (i j : NodeId) : Crypto.Key :=
  let keys :=
    if i < j then p.publicKey.bytes ++ q.publicKey.bytes else q.publicKey.bytes ++ p.publicKey.bytes
  let product := Crypto.X25519.multiply p.secret q.publicKey
  .ofNat (Crypto.ofLittleEndian ((Crypto.Blake2b.hash (product.bytes ++ keys)).drop 32))

theorem sharedKey_comm {p q : KeyPair} (h : Matches p q) {i j : NodeId} (hne : i ≠ j) :
    sharedKey p q i j = sharedKey q p j i := by
  rcases lt_or_gt_of_ne hne with hlt | hlt
  · rw [sharedKey, sharedKey, h.product_eq, if_pos hlt, if_neg (lt_asymm hlt)]
  · rw [sharedKey, sharedKey, h.product_eq, if_pos hlt, if_neg (lt_asymm hlt)]

theorem agree_eq_ok {p q : KeyPair} (h : Matches p q) (i j : NodeId) :
    p.agree i j q.publicKey = .ok (sharedKey p q i j) := by
  rw [agree, h.product_ne]
  rfl

theorem go_eq_ok {p : KeyPair} {me : NodeId} {publicKeys : NameMap Crypto.Key} {peers : List NodeId}
    (pair : NodeId → KeyPair) (hpub : ∀ j ∈ peers, publicKeys.find? j = some (pair j).publicKey)
    (h : ∀ j ∈ peers, Matches p (pair j)) :
    sessionKeys.go p me publicKeys peers =
      .ok (peers.map fun j => (j, sharedKey p (pair j) me j)) := by
  induction peers with
  | nil => rfl
  | cons j peers ih =>
    have hrest := ih (fun k hk => hpub k (List.mem_cons_of_mem _ hk))
      fun k hk => h k (List.mem_cons_of_mem _ hk)
    rw [sessionKeys.go, hpub j List.mem_cons_self]
    simp only [agree_eq_ok (h j List.mem_cons_self), hrest]
    rfl

/-- A party that derives its keys gets a product that is not zero with every peer. -/
theorem product_ne_of_go {p : KeyPair} {me j : NodeId} {publicKeys : NameMap Crypto.Key}
    {peers : List NodeId} {l : List (NodeId × Crypto.Key)}
    (h : sessionKeys.go p me publicKeys peers = .ok l) (hj : j ∈ peers) {key : Crypto.Key}
    (hpub : publicKeys.find? j = some key) :
    (Crypto.X25519.multiply p.secret key).bytes.all (· == 0) = false := by
  induction peers generalizing l with
  | nil => exact absurd hj List.not_mem_nil
  | cons peer peers ih =>
    rw [sessionKeys.go] at h
    cases hfound : publicKeys.find? peer with
    | none =>
      rw [hfound] at h
      contradiction
    | some other =>
      rw [hfound] at h
      simp only [bind_eq_ok] at h
      obtain ⟨shared, hshared, rest, hrest, -⟩ := h
      rcases List.mem_cons.1 hj with rfl | hj
      · obtain rfl : other = key := Option.some.inj (hfound.symm.trans hpub)
        cases hall : (Crypto.X25519.multiply p.secret other).bytes.all (· == 0) with
        | false => rfl
        | true =>
          rw [agree, hall] at hshared
          contradiction
      · exact ih hrest hj

/-- Parties whose key pairs match and who know the public keys of all others belong to one session,
in whatever order each of them lists the parties. -/
theorem sameSession_of_matches {parties : Finset NodeId} {pair : NodeId → KeyPair}
    {publicKeys : NameMap Crypto.Key} {listed : NodeId → List NodeId}
    (hlisted : ∀ i ∈ parties, ∀ j, j ∈ listed i ↔ j ∈ parties)
    (hpub : ∀ i ∈ parties, publicKeys.find? i = some (pair i).publicKey)
    (h : ∀ i ∈ parties, ∀ j ∈ parties, i ≠ j → Matches (pair i) (pair j)) :
    ∃ keys : NodeId → NameMap Crypto.Key,
      (∀ i ∈ parties, (pair i).sessionKeys i (listed i) publicKeys = .ok (keys i)) ∧
      SameSession parties (fun i j => sharedKey (pair i) (pair j) i j)
        fun i => ⟨listed i, keys i⟩ := by
  let keys (i : NodeId) : NameMap Crypto.Key :=
    .ofList (((listed i).filter (· != i)).map fun j => (j, sharedKey (pair i) (pair j) i j))
  have hpeer : ∀ i ∈ parties, ∀ j ∈ (listed i).filter (· != i), j ∈ parties ∧ i ≠ j := by
    intro i hi j hj
    rw [List.mem_filter, bne_iff_ne] at hj
    exact ⟨(hlisted i hi j).1 hj.1, hj.2.symm⟩
  refine ⟨keys, fun i hi => ?_, ?_, hlisted, ?_⟩
  · rw [sessionKeys, go_eq_ok pair (fun j hj => hpub j (hpeer i hi j hj).1)
      fun j hj => h i hi j (hpeer i hi j hj).1 (hpeer i hi j hj).2]
    rfl
  · -- a party shares no key with itself, but the law is stated for all pairs
    intro i hi j hj
    by_cases hij : i = j
    · rw [hij]
    · exact sharedKey_comm (h i hi j hj hij) hij
  · intro i hi j hj hne
    have hmem : j ∈ (listed i).filter (· != i) :=
      List.mem_filter.2 ⟨(hlisted i hi j).2 hj, bne_iff_ne.2 hne⟩
    exact SortedMap.find?_ofList_map _ hmem

end KeyPair

end Federation
