import Federation.Crypto.ChaCha20
import Federation.Mask.Masker
import Federation.Proofs.SortedMap
import Mathlib.Algebra.BigOperators.Group.Finset.Basic
import Mathlib.Data.String.Basic
import Mathlib.Data.UInt
import Mathlib.Tactic.Abel
/-!
# Cancellation of masks

Vectors are added word by word modulo `2^64`. A masked vector is its encoding plus one stream for
every peer, with the sign that the order of the two names gives. In the sum over a subset of the
parties the streams between two members of the subset cancel, and those that cross its border stay;
in the sum over all parties nothing stays.
-/

open Finset

namespace Federation

/-! ## 1. Streams added to a vector -/

/-- The stream of a pair as one of its members adds it: as it is towards a later party, negated
towards an earlier one. -/
def signed (me peer : NodeId) (w : UInt64) : UInt64 := if me < peer then w else -w

theorem signed_swap {i j : NodeId} (h : i ≠ j) (w : UInt64) : signed j i w = -signed i j w := by
  rcases lt_or_gt_of_ne h with hlt | hlt
  · rw [signed, signed, if_pos hlt, if_neg (lt_asymm hlt)]
  · rw [signed, signed, if_pos hlt, if_neg (lt_asymm hlt), neg_neg]

/-- Streams combined with a vector one after the other, by an operation that adds `c` of each
word. -/
theorem foldl_zipWith {κ : Type} {g : UInt64 → UInt64 → UInt64} {c : UInt64 → UInt64}
    (hg : ∀ x y, g x y = x + c y) (hzero : c 0 = 0) {f : κ → List UInt64} {n : Nat}
    (hf : ∀ key, (f key).length = n) (keys : List κ) {data : List UInt64} (hdata : data.length = n) :
    (keys.foldl (fun acc key => acc.zipWith g (f key)) data).length = n ∧
      ∀ k, (keys.foldl (fun acc key => acc.zipWith g (f key)) data).getD k 0 =
        data.getD k 0 + (keys.map fun key => c ((f key).getD k 0)).sum := by
  induction keys generalizing data with
  | nil => exact ⟨hdata, fun k => by simp⟩
  | cons key keys ih =>
    have hlen : (data.zipWith g (f key)).length = n := by
      rw [List.length_zipWith, hdata, hf, Nat.min_self]
    obtain ⟨hl, hk⟩ := ih hlen
    refine ⟨hl, fun k => ?_⟩
    have hword : (data.zipWith g (f key)).getD k 0 = data.getD k 0 + c ((f key).getD k 0) := by
      by_cases hlt : k < n
      · have hd : k < data.length := hdata ▸ hlt
        have hs : k < (f key).length := (hf key) ▸ hlt
        simp [List.getD_eq_getElem?_getD, hd, hs, hg]
      · have hd : data.length ≤ k := hdata ▸ Nat.le_of_not_lt hlt
        have hs : (f key).length ≤ k := (hf key) ▸ Nat.le_of_not_lt hlt
        simp [List.getD_eq_getElem?_getD, hd, hs, hzero]
    rw [List.foldl_cons, hk, hword, List.map_cons, List.sum_cons, add_assoc]

namespace Crypto.ChaCha20

theorem length_join (l : List UInt32) : (join l).length = l.length / 2 := by
  fun_induction join l with
  | case1 low high rest ih =>
    rw [List.length_cons, ih, List.length_cons, List.length_cons]
    omega
  | case2 l h =>
    match l with
    | [] => rfl
    | [_] => simp
    | low :: high :: rest => exact absurd rfl (h low high rest)

/-- The stream of a key has as many words as it is asked for. -/
theorem length_words (key : Key) (stream : UInt64) (n : Nat) : (words key stream n).length = n := by
  have hblock : ∀ i, (join (block key i stream.toNat).toList).length = 8 := by
    intro i
    rw [length_join, Vector.length_toList]
  rw [words, List.length_take, List.length_flatMap]
  simp only [hblock, List.map_const', List.sum_replicate_nat, List.length_range]
  omega

end Crypto.ChaCha20

namespace Masker

variable {R κ : Type}

/-- Blinding adds the streams of one half of the keys and subtracts those of the other half. -/
theorem blind_eq {s : κ → Nat → List UInt64} (hs : ∀ key n, (s key n).length = n) (m : Masker R κ)
    (data : List UInt64) :
    (m.blind s data).length = data.length ∧
      ∀ k, (m.blind s data).getD k 0 = data.getD k 0 +
        (m.add.map fun key => (s key data.length).getD k 0).sum +
        (m.sub.map fun key => -(s key data.length).getD k 0).sum := by
  obtain ⟨hadd, hk⟩ := foldl_zipWith (g := (· + ·)) (c := id) (fun _ _ => rfl) rfl
    (f := fun key => s key data.length) (fun key => hs key _) m.add rfl
  obtain ⟨hsub, hk'⟩ := foldl_zipWith (g := (· - ·)) (c := Neg.neg) (fun x y => sub_eq_add_neg x y)
    neg_zero (f := fun key => s key data.length) (fun key => hs key _) m.sub hadd
  refine ⟨hsub, fun k => ?_⟩
  rw [blind, hk', hk]
  rfl

/-! ## 2. The peers of a party -/

theorem peerKeys_eq_ok {keys : NameMap κ} {shared : NodeId → κ} {peers : List NodeId}
    (h : ∀ peer ∈ peers, keys.find? peer = some (shared peer)) :
    peerKeys keys peers = .ok (peers.map fun peer => (peer, shared peer)) := by
  induction peers with
  | nil => rfl
  | cons peer peers ih =>
    have hrest := ih fun p hp => h p (List.mem_cons_of_mem _ hp)
    rw [peerKeys, h peer List.mem_cons_self, hrest]
    rfl

/-- The peers of a party, each once and in ascending order. -/
def peers (me : NodeId) (parties : List NodeId) : List NodeId :=
  (SortedMap.setOf parties).keys.filter (· != me)

theorem nodup_peers (me : NodeId) (parties : List NodeId) : (peers me parties).Nodup :=
  (SortedMap.nodup_keys _).filter _

theorem mem_peers {me peer : NodeId} {parties : List NodeId} :
    peer ∈ peers me parties ↔ peer ∈ parties ∧ peer ≠ me := by
  simp [peers, SortedMap.mem_keys_setOf]

/-- A party that lists itself and holds the keys shared with its peers has a masker. -/
theorem create_eq_ok (config : MaskConfig R) {me : NodeId} {parties : List NodeId} {keys : NameMap κ}
    {shared : NodeId → κ} (hme : me ∈ parties)
    (h : ∀ peer ∈ parties, peer ≠ me → keys.find? peer = some (shared peer)) :
    create config me parties keys = .ok
      { config
        add := ((peers me parties).filter fun peer => decide (me < peer)).map shared
        sub := ((peers me parties).filter fun peer => !decide (me < peer)).map shared } := by
  have hkeys : peerKeys keys (peers me parties) =
      .ok ((peers me parties).map fun peer => (peer, shared peer)) :=
    peerKeys_eq_ok fun peer hp => h peer (mem_peers.1 hp).1 (mem_peers.1 hp).2
  rw [create, if_neg (by simpa using hme)]
  rw [peers] at hkeys
  rw [hkeys]
  simp only [Except.map, List.filter_map, List.map_map]
  rfl

/-- The streams of all peers with their signs, summed as a masker holds them. -/
theorem sum_streams (me : NodeId) (parties : List NodeId) (w : NodeId → UInt64) :
    (((peers me parties).filter fun peer => decide (me < peer)).map w).sum +
      (((peers me parties).filter fun peer => !decide (me < peer)).map fun peer => -w peer).sum =
    ∑ peer ∈ parties.toFinset.erase me, signed me peer (w peer) := by
  -- a party may be listed twice, but the peers are told apart
  have hset : parties.toFinset.erase me = (peers me parties).toFinset := by
    ext peer
    simp [mem_peers, and_comm]
  rw [hset, List.sum_toFinset _ (nodup_peers me parties)]
  generalize peers me parties = l
  induction l with
  | nil => simp
  | cons peer l ih =>
    rw [List.map_cons, List.sum_cons, ← ih]
    by_cases hlt : me < peer
    · simp only [List.filter_cons, hlt, decide_true, Bool.not_true, if_true, Bool.false_eq_true,
        if_false, List.map_cons, List.sum_cons, signed]
      abel
    · simp only [List.filter_cons, hlt, decide_false, Bool.not_false, if_true, Bool.false_eq_true,
        if_false, List.map_cons, List.sum_cons, signed]
      abel

end Masker

/-! ## 3. The masked vector of a party -/

/-- What a party holds of a session: the parties in the order in which it lists them, and keys. -/
structure PartyView (κ : Type) where
  listed : List NodeId
  keys : NameMap κ

/-- What a party puts into a round. -/
structure Contribution (R : Type) where
  weight : UInt64
  values : List R
  verification : R

/-- The views of the parties belong to one session. Each party lists exactly the parties, in an order
of its own and perhaps some of them twice, and the two members of a pair hold the same key. -/
structure SameSession {κ : Type} (parties : Finset NodeId) (key : NodeId → NodeId → κ)
    (view : NodeId → PartyView κ) : Prop where
  symm : ∀ i ∈ parties, ∀ j ∈ parties, key i j = key j i
  listed : ∀ i ∈ parties, ∀ j, j ∈ (view i).listed ↔ j ∈ parties
  held : ∀ i ∈ parties, ∀ j ∈ parties, j ≠ i → (view i).keys.find? j = some (key i j)

section

variable {R κ : Type} {parties : Finset NodeId} {key : NodeId → NodeId → κ}
  {view : NodeId → PartyView κ} {stream : κ → UInt64 → Nat → List UInt64} {nonce : UInt64}

/-- The vector that a party computes from its view of a session and the words that it masks. -/
def PartyView.blind (config : MaskConfig R) (stream : κ → UInt64 → Nat → List UInt64)
    (nonce : UInt64) (me : NodeId) (view : PartyView κ) (words : List UInt64) :
    Except MaskingError MaskedVector :=
  (Masker.create config me view.listed view.keys).map fun m =>
    ⟨m.blind (fun key n => stream key nonce n) words⟩

/-- Every party can mask its words: it adds the signed streams of all its peers to them. -/
theorem blind_view_eq (config : MaskConfig R) (hs : SameSession parties key view)
    (hstream : ∀ key n, (stream key nonce n).length = n) {i : NodeId} (hi : i ∈ parties)
    (words : List UInt64) :
    ∃ v, (view i).blind config stream nonce i words = .ok v ∧ v.data.length = words.length ∧
      ∀ k, v.data.getD k 0 = words.getD k 0 +
        ∑ j ∈ parties.erase i, signed i j ((stream (key i j) nonce words.length).getD k 0) := by
  have hparties : (view i).listed.toFinset = parties := by
    ext j
    rw [List.mem_toFinset, hs.listed i hi]
  have hcreate := Masker.create_eq_ok config ((hs.listed i hi i).2 hi)
    fun j hj hne => hs.held i hi j ((hs.listed i hi j).1 hj) hne
  refine ⟨_, by rw [PartyView.blind, hcreate]; rfl, ?_⟩
  obtain ⟨hlen, hk⟩ := Masker.blind_eq (s := fun key n => stream key nonce n)
    (fun key n => hstream key n)
    { config
      add := ((Masker.peers i (view i).listed).filter fun j => decide (i < j)).map (key i)
      sub := ((Masker.peers i (view i).listed).filter fun j => !decide (i < j)).map (key i) }
    words
  refine ⟨hlen, fun k => (hk k).trans ?_⟩
  rw [List.map_map, List.map_map, add_assoc, ← hparties]
  congr 1
  exact Masker.sum_streams i (view i).listed fun j => (stream (key i j) nonce words.length).getD k 0

variable [Scalar R]

/-- The values in fixed point after clipping, followed by the verification element. -/
def Contribution.encoded (config : MaskConfig R) (x : Contribution R) : List UInt64 :=
  x.values.map (config.encode x.weight) ++ [config.encodeUnclipped x.weight x.verification]

/-- The masked vector that a party computes from its view of a session. -/
def Contribution.masked (config : MaskConfig R) (stream : κ → UInt64 → Nat → List UInt64)
    (nonce : UInt64) (me : NodeId) (view : PartyView κ) (x : Contribution R) :
    Except MaskingError MaskedVector :=
  (Masker.create config me view.listed view.keys).map fun m =>
    m.mask stream nonce x.weight x.values x.verification

/-- What a party masks is its encoding. -/
theorem Contribution.masked_eq_blind (config : MaskConfig R) (stream : κ → UInt64 → Nat → List UInt64)
    (nonce : UInt64) (me : NodeId) (view : PartyView κ) (x : Contribution R) :
    x.masked config stream nonce me view =
      view.blind config stream nonce me (x.encoded config) := by
  -- a masker encodes by the configuration that it was created with
  rw [masked, PartyView.blind, Masker.create]
  split
  next => rfl
  next =>
    cases Masker.peerKeys view.keys _ with
    | error e => rfl
    | ok shared => rfl

/-- Every party has a masked vector: its encoding and the signed streams of all its peers. -/
theorem masked_eq (config : MaskConfig R) (hs : SameSession parties key view)
    (hstream : ∀ key n, (stream key nonce n).length = n) {i : NodeId} (hi : i ∈ parties)
    (x : Contribution R) :
    ∃ v, x.masked config stream nonce i (view i) = .ok v ∧ v.data.length = x.values.length + 1 ∧
      ∀ k, v.data.getD k 0 = (x.encoded config).getD k 0 +
        ∑ j ∈ parties.erase i, signed i j ((stream (key i j) nonce (x.values.length + 1)).getD k 0) := by
  have hlength : (x.encoded config).length = x.values.length + 1 := by simp [Contribution.encoded]
  rw [← hlength, Contribution.masked_eq_blind]
  exact blind_view_eq config hs hstream hi (x.encoded config)

/-- Every party of a session has a masked vector. -/
theorem exists_masked (config : MaskConfig R) (hs : SameSession parties key view)
    (hstream : ∀ key n, (stream key nonce n).length = n) {x : NodeId → Contribution R} {n : Nat}
    (hx : ∀ i ∈ parties, (x i).values.length = n) :
    ∃ v : NodeId → MaskedVector, ∀ i ∈ parties,
      (x i).masked config stream nonce i (view i) = .ok (v i) ∧ (v i).data.length = n + 1 ∧
      ∀ k, (v i).data.getD k 0 = ((x i).encoded config).getD k 0 +
        ∑ j ∈ parties.erase i, signed i j ((stream (key i j) nonce (n + 1)).getD k 0) := by
  have hv : ∀ i, ∃ v : MaskedVector, i ∈ parties →
      (x i).masked config stream nonce i (view i) = .ok v ∧ v.data.length = n + 1 ∧
      ∀ k, v.data.getD k 0 = ((x i).encoded config).getD k 0 +
        ∑ j ∈ parties.erase i, signed i j ((stream (key i j) nonce (n + 1)).getD k 0) := by
    intro i
    by_cases hi : i ∈ parties
    · obtain ⟨v, hok, hlen, hk⟩ := masked_eq config hs hstream hi (x i)
      rw [hx i hi] at hlen hk
      exact ⟨v, fun _ => ⟨hok, hlen, hk⟩⟩
    · exact ⟨⟨[]⟩, fun h => absurd h hi⟩
  -- outside of the parties the choice of a vector is of no account
  choose v hv using hv
  exact ⟨v, hv⟩

end

/-! ## 4. Sums over parties -/

/-- Streams within a set of parties cancel: each pair occurs twice, with opposite signs. -/
theorem sum_signed_within (S : Finset NodeId) {w : NodeId → NodeId → UInt64}
    (hw : ∀ i ∈ S, ∀ j ∈ S, w i j = w j i) :
    ∑ i ∈ S, ∑ j ∈ S.erase i, signed i j (w i j) = 0 := by
  induction S using Finset.induction_on with
  | empty => simp
  | insert a S ha ih =>
    have hS := ih fun i hi j hj => hw i (mem_insert_of_mem hi) j (mem_insert_of_mem hj)
    -- the new party adds a row and, to every other row, one stream
    have hrest : ∀ i ∈ S, ∑ j ∈ (insert a S).erase i, signed i j (w i j) =
        signed i a (w i a) + ∑ j ∈ S.erase i, signed i j (w i j) := by
      intro i hi
      have hne : a ≠ i := fun h => ha (h ▸ hi)
      rw [erase_insert_of_ne hne, sum_insert (fun h => ha (mem_of_mem_erase h))]
    have hpair : ∀ i ∈ S, signed a i (w a i) + signed i a (w i a) = 0 := by
      intro i hi
      have hne : a ≠ i := fun h => ha (h ▸ hi)
      rw [signed_swap hne, hw i (mem_insert_of_mem hi) a (mem_insert_self a S), add_neg_cancel]
    rw [sum_insert ha, erase_insert ha, sum_congr rfl hrest, sum_add_distrib, hS, add_zero,
      ← sum_add_distrib]
    exact sum_eq_zero hpair

/-- Of the streams of a subset of the parties those remain that cross its border. -/
theorem sum_signed_subset {parties S : Finset NodeId} (hS : S ⊆ parties)
    {w : NodeId → NodeId → UInt64} (hw : ∀ i ∈ S, ∀ j ∈ S, w i j = w j i) :
    ∑ i ∈ S, ∑ j ∈ parties.erase i, signed i j (w i j) =
      ∑ i ∈ S, ∑ j ∈ parties \ S, signed i j (w i j) := by
  have hsplit : ∀ i ∈ S, ∑ j ∈ parties.erase i, signed i j (w i j) =
      ∑ j ∈ S.erase i, signed i j (w i j) + ∑ j ∈ parties \ S, signed i j (w i j) := by
    intro i hi
    -- the peers of a member are the other members and the parties outside
    have hunion : parties.erase i = S.erase i ∪ parties \ S := by
      ext j
      simp only [mem_erase, mem_union, mem_sdiff]
      constructor
      · rintro ⟨hne, hj⟩
        by_cases hjS : j ∈ S
        · exact Or.inl ⟨hne, hjS⟩
        · exact Or.inr ⟨hj, hjS⟩
      · rintro (⟨hne, hj⟩ | ⟨hj, hjS⟩)
        · exact ⟨hne, hS hj⟩
        · exact ⟨fun h => hjS (h ▸ hi), hj⟩
    have hdisjoint : Disjoint (S.erase i) (parties \ S) :=
      disjoint_sdiff.mono_left (erase_subset i S)
    rw [hunion, sum_union hdisjoint]
  rw [sum_congr rfl hsplit, sum_add_distrib, sum_signed_within S hw, zero_add]

/-! ## 5. Running sums -/

namespace MaskedSum

theorem add_eq_ok {s : MaskedSum} {v : MaskedVector} (h : v.data.length = s.sum.length) :
    s.add v = .ok ⟨s.count + 1, s.sum.zipWith (· + ·) v.data⟩ := by
  rw [add, check, if_pos h]
  rfl

/-- Vectors of the right length are all added, whatever their order. -/
theorem foldlM_add {ι : Type} {n : Nat} {v : ι → MaskedVector} {order : List ι} {s : MaskedSum}
    (hs : s.sum.length = n) (h : ∀ i ∈ order, (v i).data.length = n) :
    ∃ total, order.foldlM (fun acc i => acc.add (v i)) s = .ok total ∧
      total.count = s.count + order.length ∧ total.sum.length = n ∧
      ∀ k, total.sum.getD k 0 =
        s.sum.getD k 0 + (order.map fun i => (v i).data.getD k 0).sum := by
  induction order generalizing s with
  | nil => exact ⟨s, rfl, rfl, hs, fun k => by simp⟩
  | cons i order ih =>
    have hi := h i List.mem_cons_self
    obtain ⟨hlen, hword⟩ := foldl_zipWith (g := (· + ·)) (c := id) (fun _ _ => rfl) rfl
      (f := fun _ : Unit => (v i).data) (fun _ => hi) [()] hs
    obtain ⟨total, hok, hcount, hl, hk⟩ := ih (s := ⟨s.count + 1, s.sum.zipWith (· + ·) (v i).data⟩)
      hlen fun j hj => h j (List.mem_cons_of_mem _ hj)
    refine ⟨total, ?_, ?_, hl, fun k => ?_⟩
    · rw [List.foldlM_cons, add_eq_ok (hi.trans hs.symm)]
      exact hok
    · rw [hcount, List.length_cons]
      show s.count + 1 + order.length = s.count + (order.length + 1)
      omega
    · have hfirst : (s.sum.zipWith (· + ·) (v i).data).getD k 0 =
          s.sum.getD k 0 + (v i).data.getD k 0 := by
        simpa using hword k
      rw [hk, hfirst, List.map_cons, List.sum_cons, add_assoc]

end MaskedSum

/-! ## 6. The residue of a subset -/

section

variable {R κ : Type} [Scalar R]

/-- Every party of a session has a masked vector. The sum over a subset of the parties is the sum of
their encodings and of the streams that cross the border of the subset. The running sum over all
parties takes every vector, in any order, and holds no stream. -/
theorem masked_sum_residue {parties : Finset NodeId} {key : NodeId → NodeId → κ}
    {view : NodeId → PartyView κ} (hs : SameSession parties key view) (config : MaskConfig R)
    {stream : κ → UInt64 → Nat → List UInt64} (nonce : UInt64)
    (hstream : ∀ key n, (stream key nonce n).length = n)
    {x : NodeId → Contribution R} {n : Nat} (hx : ∀ i ∈ parties, (x i).values.length = n) :
    ∃ v : NodeId → MaskedVector,
      (∀ i ∈ parties, (x i).masked config stream nonce i (view i) = .ok (v i) ∧
        (v i).data.length = n + 1) ∧
      (∀ S ⊆ parties, ∀ k, ∑ i ∈ S, (v i).data.getD k 0 =
        ∑ i ∈ S, ((x i).encoded config).getD k 0 +
          ∑ i ∈ S, ∑ j ∈ parties \ S, signed i j ((stream (key i j) nonce (n + 1)).getD k 0)) ∧
      ∀ order : List NodeId, order.Nodup → order.toFinset = parties →
        ∃ total, order.foldlM (fun acc i => acc.add (v i)) (MaskedSum.zero n) = .ok total ∧
          total.count = parties.card ∧ total.sum.length = n + 1 ∧
          ∀ k, total.sum.getD k 0 = ∑ i ∈ parties, ((x i).encoded config).getD k 0 := by
  obtain ⟨v, hv⟩ := exists_masked config hs hstream hx
  have hsubset : ∀ S ⊆ parties, ∀ k, ∑ i ∈ S, (v i).data.getD k 0 =
      ∑ i ∈ S, ((x i).encoded config).getD k 0 +
        ∑ i ∈ S, ∑ j ∈ parties \ S, signed i j ((stream (key i j) nonce (n + 1)).getD k 0) := by
    intro S hS k
    rw [sum_congr rfl fun i hi => (hv i (hS hi)).2.2 k, sum_add_distrib]
    rw [sum_signed_subset hS fun i hi j hj => by rw [hs.symm i (hS hi) j (hS hj)]]
  refine ⟨v, fun i hi => ⟨(hv i hi).1, (hv i hi).2.1⟩, hsubset, ?_⟩
  intro order hnodup horder
  have hmem : ∀ i ∈ order, i ∈ parties := fun i hi => horder ▸ List.mem_toFinset.2 hi
  obtain ⟨total, hok, hcount, hlen, hk⟩ := MaskedSum.foldlM_add (n := n + 1) (s := MaskedSum.zero n)
    (by simp [MaskedSum.zero]) fun i hi => (hv i (hmem i hi)).2.1
  refine ⟨total, hok, ?_, hlen, fun k => ?_⟩
  · rw [hcount, ← horder, List.toFinset_card_of_nodup hnodup]
    simp [MaskedSum.zero]
  · have hzero : (MaskedSum.zero n).sum.getD k 0 = 0 := by
      simp only [MaskedSum.zero, List.getD_eq_getElem?_getD, List.getElem?_replicate]
      split <;> rfl
    -- all parties are a subset whose border no stream crosses
    rw [hk, hzero, zero_add, ← List.sum_toFinset _ hnodup, horder, hsubset parties subset_rfl k,
      Finset.sdiff_self]
    simp

/-- Names of three lengths, so that the sum of two lengths tells the pairs apart. -/
def threeParties : Finset NodeId := {"a", "bb", "ccc"}

/-- The key of a pair among `threeParties`. -/
def pairKey (i j : NodeId) : Crypto.Key := .ofNat (i.length + j.length)

/-- The party `bb` lists the parties in another order and twice. -/
def threeViews (i : NodeId) : PartyView Crypto.Key where
  listed := if i = "bb" then ["ccc", "bb", "a", "ccc"] else ["a", "bb", "ccc"]
  keys := .ofList (["a", "bb", "ccc"].map fun j => (j, pairKey i j))

theorem sameSession_three : SameSession threeParties pairKey threeViews where
  symm i _ j _ := by rw [pairKey, pairKey, Nat.add_comm]
  listed i _ j := by
    by_cases hi : i = "bb"
    · simp only [threeViews, threeParties, hi, if_true, List.mem_cons, mem_insert, mem_singleton]
      tauto
    · simp [threeViews, threeParties, hi]
  held i _ j hj _ := by
    rw [threeViews, SortedMap.find?_ofList]
    simp only [threeParties, mem_insert, mem_singleton] at hj
    rcases hj with rfl | rfl | rfl <;> rfl

/-- What each of `threeParties` puts into a round. -/
def threeContributions (i : NodeId) : Contribution Float :=
  ⟨UInt64.ofNat i.length, [0.5, -7.25], 0.75⟩

/-- Three parties mask doubles with the streams of ChaCha20. The sum of their vectors, taken in an
order that is not that of the names, holds no stream. -/
theorem masked_sum_residue_three :
    SameSession threeParties pairKey threeViews ∧
      ∃ (v : NodeId → MaskedVector) (total : MaskedSum),
        (∀ i ∈ threeParties, (threeContributions i).masked .standard Crypto.ChaCha20.words 7 i
          (threeViews i) = .ok (v i)) ∧
        ["ccc", "a", "bb"].foldlM (fun acc i => acc.add (v i)) (MaskedSum.zero 2) = .ok total ∧
        ∀ k, total.sum.getD k 0 =
          ∑ i ∈ threeParties, ((threeContributions i).encoded .standard).getD k 0 := by
  refine ⟨sameSession_three, ?_⟩
  obtain ⟨v, hv, -, horder⟩ := masked_sum_residue sameSession_three MaskConfig.standard 7
    (fun key n => Crypto.ChaCha20.length_words key 7 n) (x := threeContributions) (n := 2)
    fun _ _ => rfl
  obtain ⟨total, hok, -, -, hk⟩ := horder ["ccc", "a", "bb"] (by decide) (by decide)
  exact ⟨v, total, fun i hi => (hv i hi).1, hok, hk⟩

end

end Federation
