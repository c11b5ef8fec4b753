import Federation.Proofs.Aggregation.Mean
import Federation.Proofs.Mask.Agreement
import Federation.Proofs.Mask.FixedPoint
import Federation.Secagg.Basic
/-!
# The mean of a secure round

The vectors that the parties of a session mask for a round sum up to the encodings of their values. So
the controller decodes the weighted mean of the clipped values, up to what the parties rounded, and the
verification element tells it no mismatch.
-/

open Finset

namespace Federation

/-! ## 1. What the parties send -/

/-- Over all parties of a session the masks cancel. -/
theorem masked_sum_eq {R κ : Type} [Scalar R] {parties : Finset NodeId} {key : NodeId → NodeId → κ}
    {view : NodeId → PartyView κ} (hs : SameSession parties key view) (config : MaskConfig R)
    {stream : κ → UInt64 → Nat → List UInt64} (nonce : UInt64)
    (hstream : ∀ key n, (stream key nonce n).length = n) {x : NodeId → Contribution R} {n : Nat}
    (hx : ∀ i ∈ parties, (x i).values.length = n) :
    ∃ v : NodeId → MaskedVector,
      (∀ i ∈ parties, (x i).masked config stream nonce i (view i) = .ok (v i) ∧
        (v i).data.length = n + 1) ∧
      ∀ k, ∑ i ∈ parties, (v i).data.getD k 0 = ∑ i ∈ parties, ((x i).encoded config).getD k 0 := by
  obtain ⟨v, hv⟩ := exists_masked config hs hstream hx
  refine ⟨v, fun i hi => ⟨(hv i hi).1, (hv i hi).2.1⟩, fun k => ?_⟩
  rw [sum_congr rfl fun i hi => (hv i hi).2.2 k, sum_add_distrib,
    sum_signed_within parties fun i hi j hj => by rw [hs.symm i hi j hj], add_zero]

/-- A party masks with the keys that it agrees on with its peers. -/
theorem mask_eq_masked {R : Type} [Scalar R] {a : SecaggArguments R} {me : NodeId} {pair : KeyPair}
    {keys : NameMap Crypto.Key} (h : pair.sessionKeys me a.parties a.publicKeys = .ok keys)
    (weight : UInt64) (values : List R) :
    a.mask me pair weight values =
      Contribution.masked a.maskConfig Crypto.ChaCha20.words a.nonce me ⟨a.parties, keys⟩
        ⟨weight, values, a.random⟩ := by
  rw [SecaggArguments.mask, SecaggArguments.masker, h, Contribution.masked]
  rfl

/-! ## 2. What the controller adds up -/

theorem MaskedSum.unmask_eq_ok {R : Type} [Scalar R] (s : MaskedSum) {config : MaskConfig R}
    {total : UInt64} (hcount : s.count ≠ 0) (hzero : total ≠ 0) (hmax : ¬config.maxTotalWeight < total) :
    s.unmask config total = .ok
      ⟨s.sum.dropLast.map fun w => config.decode w / Scalar.ofCount total,
        config.decode (s.sum.getLastD 0) / Scalar.ofCount total⟩ := by
  rw [unmask, if_neg hcount, if_neg hzero, if_neg hmax]

theorem getLastD_of_length {l : List UInt64} {n : ℕ} (h : l.length = n + 1) :
    l.getLastD 0 = l.getD n 0 := by
  rw [List.getD_eq_getElem?_getD, List.getLastD_eq_getLast?, List.getLast?_eq_getElem?, h]
  rfl

theorem getElem?_dropLast_of_length {l : List UInt64} {n k : ℕ} (h : l.length = n + 1) (hk : k < n) :
    l.dropLast[k]? = some (l.getD k 0) := by
  have hlt : k < l.length := by omega
  rw [List.getElem?_dropLast, h, if_pos (by omega), List.getD_eq_getElem?_getD,
    List.getElem?_eq_getElem hlt]
  rfl

namespace SecaggRound

/-- Vectors of one length are all added, as long as their weights sum up to a word. -/
theorem total_eq_ok {R : Type} {l : List (NodeId × MaskedVector × UInt64)} {n : Nat}
    {s : MaskedSum} {c : UInt64} (hs : s.sum.length = n) (hv : ∀ e ∈ l, e.2.1.data.length = n)
    (hw : c.toNat + (l.map fun e => e.2.2.toNat).sum < 2 ^ 64) :
    ∃ t W, total (R := R) l s c = .ok (t, W) ∧
      l.foldlM (fun acc e => acc.add e.2.1) s = .ok t ∧
      W.toNat = c.toNat + (l.map fun e => e.2.2.toNat).sum := by
  induction l generalizing s c with
  | nil => exact ⟨s, c, rfl, rfl, rfl⟩
  | cons e l ih =>
    obtain ⟨i, v, w⟩ := e
    rw [List.map_cons, List.sum_cons] at hw
    dsimp only at hw
    have hi : v.data.length = n := hv _ List.mem_cons_self
    have hfits : ¬UInt64.size ≤ c.toNat + w.toNat := by
      show ¬2 ^ 64 ≤ c.toNat + w.toNat
      omega
    have hadd : (c + w).toNat = c.toNat + w.toNat := by
      rw [UInt64.toNat_add]
      exact Nat.mod_eq_of_lt (by omega)
    have hnext : (s.sum.zipWith (· + ·) v.data).length = n := by
      rw [List.length_zipWith, hs, hi, Nat.min_self]
    obtain ⟨t, W, ht, hfold, hW⟩ := ih (s := ⟨s.count + 1, s.sum.zipWith (· + ·) v.data⟩)
      (c := c + w) hnext (fun e he => hv e (List.mem_cons_of_mem _ he))
      (by rw [hadd]; omega)
    refine ⟨t, W, ?_, ?_, ?_⟩
    · rw [total, MaskedSum.add_eq_ok (hi.trans hs.symm)]
      simp only [if_neg hfits, ht]
    · rw [List.foldlM_cons, MaskedSum.add_eq_ok (hi.trans hs.symm)]
      exact hfold
    · rw [hW, hadd, List.map_cons, List.sum_cons, Nat.add_assoc]

/-- What is received of a node: a masked vector and its weight. -/
abbrev Entry := NodeId × MaskedVector × UInt64

def weightOf (l : List Entry) : Nat := (l.map fun e => e.2.2.toNat).sum

/-- The sum of all words at a position, modulo `2^64`. -/
def wordOf (l : List Entry) (k : Nat) : UInt64 := (l.map fun e => e.2.1.data.getD k 0).sum

/-- The vectors have room for a number of values and the verification element, and the weights sum up to a
word. -/
structure Addable (values : Nat) (l : List Entry) : Prop where
  lengths : ∀ e ∈ l, e.2.1.data.length = values + 1
  weight : weightOf l < 2 ^ 64

theorem total_of_addable (R : Type) {values : Nat} {l : List Entry} (h : Addable values l) :
    ∃ t W, total (R := R) l (.zero values) 0 = .ok (t, W) ∧ W.toNat = weightOf l ∧
      t.count = l.length ∧ t.sum.length = values + 1 ∧ ∀ k, t.sum.getD k 0 = wordOf l k := by
  have hzero : (MaskedSum.zero values).sum.length = values + 1 := by simp [MaskedSum.zero]
  have hweight : (0 : UInt64).toNat + weightOf l < 2 ^ 64 := by
    rw [UInt64.toNat_zero, Nat.zero_add]
    exact h.weight
  obtain ⟨t, W, htotal, hfold, hW⟩ := total_eq_ok (R := R) hzero h.lengths hweight
  obtain ⟨t', hfold', hcount, hlength, hwords⟩ := MaskedSum.foldlM_add hzero h.lengths
  obtain rfl : t = t' := Except.ok.inj (hfold.symm.trans hfold')
  refine ⟨t, W, htotal, hW.trans (Nat.zero_add _), hcount.trans (Nat.zero_add _), hlength, fun k => ?_⟩
  have hfirst : (MaskedSum.zero values).sum.getD k 0 = 0 := by
    simp only [MaskedSum.zero, List.getD_eq_getElem?_getD, List.getElem?_replicate]
    split <;> rfl
  rw [hwords, hfirst, zero_add, wordOf]

/-- What the parties send is visited party by party, each of them once. -/
theorem exists_order {α : Type} (parties : List NodeId) :
    ∃ order : List NodeId, order.Nodup ∧ order.toFinset = parties.toFinset ∧
      ∀ f : NodeId → α, (SortedMap.ofList (parties.map fun i => (i, f i))).toList =
        order.map fun i => (i, f i) := by
  refine ⟨(SortedMap.setOf parties).keys, SortedMap.nodup_keys _, ?_,
    fun f => SortedMap.toList_ofList_map f parties⟩
  ext i
  simp [SortedMap.mem_keys_setOf]

/-- What the parties send, as the controller receives it. -/
def received (parties : List NodeId) (v : NodeId → MaskedVector) (weight : NodeId → UInt64) :
    NameMap (MaskedVector × UInt64) :=
  .ofList (parties.map fun i => (i, v i, weight i))

theorem mem_keys_received {parties : List NodeId} {v : NodeId → MaskedVector}
    {weight : NodeId → UInt64} {i : NodeId} : i ∈ (received parties v weight).keys ↔ i ∈ parties := by
  rw [received, SortedMap.mem_keys_ofList, List.map_map]
  simp

/-- Nothing comes from others than the parties, and something from each of them. -/
theorem received_expected (parties : List NodeId) (v : NodeId → MaskedVector) (weight : NodeId → UInt64) :
    (received parties v weight).keys.find? (fun node => !parties.contains node) = none := by
  rw [List.find?_eq_none]
  intro i hi
  simpa using mem_keys_received.1 hi

theorem received_complete (parties : List NodeId) (v : NodeId → MaskedVector) (weight : NodeId → UInt64) :
    parties.filter (fun node => !(received parties v weight).contains node) = [] := by
  rw [List.filter_eq_nil_iff]
  intro i hi
  have hsome : ((received parties v weight).find? i).isSome = true :=
    SortedMap.mem_keys_iff_isSome.1 (mem_keys_received.2 hi)
  simp [SortedMap.contains, hsome]

/-- Vectors of one length whose weights sum up to a positive word are all added. -/
theorem total_received {R : Type} {parties : List NodeId} {v : NodeId → MaskedVector}
    {weight : NodeId → UInt64} {n W : ℕ} (hW : ∑ i ∈ parties.toFinset, (weight i).toNat = W)
    (hpos : 1 ≤ W) (hfits : W < 2 ^ 64) (hlength : ∀ i ∈ parties, (v i).data.length = n + 1) :
    ∃ s w, total (R := R) (received parties v weight).toList (.zero n) 0 = .ok (s, w) ∧
      w.toNat = W ∧ s.count ≠ 0 ∧ s.sum.length = n + 1 ∧
      ∀ k, s.sum.getD k 0 = ∑ i ∈ parties.toFinset, (v i).data.getD k 0 := by
  obtain ⟨order, hnodup, hset, hlist⟩ := exists_order (α := MaskedVector × UInt64) parties
  rw [received, hlist]
  have hweights : weightOf (order.map fun i => (i, v i, weight i)) = W := by
    rw [weightOf, List.map_map, ← hW, ← hset, List.sum_toFinset _ hnodup]
    rfl
  have hadd : Addable n (order.map fun i => (i, v i, weight i)) := by
    refine ⟨fun e he => ?_, by rwa [hweights]⟩
    obtain ⟨i, hi, rfl⟩ := List.mem_map.1 he
    exact hlength i (List.mem_toFinset.1 (hset ▸ List.mem_toFinset.2 hi))
  obtain ⟨s, w, htotal, hw, hcount, hslength, hwords⟩ := total_of_addable R hadd
  refine ⟨s, w, htotal, hw.trans hweights, ?_, hslength, fun k => ?_⟩
  · intro h0
    have hnil : order = [] := by
      rw [List.length_map] at hcount
      exact List.eq_nil_of_length_eq_zero (by omega)
    rw [hnil] at hweights
    simp [weightOf] at hweights
    omega
  · rw [hwords, wordOf, List.map_map, ← hset, List.sum_toFinset _ hnodup]
    rfl

variable {r : SecaggRound ℚ} {weight : NodeId → UInt64}

/-- The verification element that the controller decodes is within the tolerance. -/
theorem verification_near (hrandom : 0 ≤ r.random ∧ r.random < 1)
    (hpos : 1 ≤ ∑ i ∈ r.session.parties.toFinset, (weight i).toNat)
    (hmax : ∑ i ∈ r.session.parties.toFinset, (weight i).toNat ≤ r.config.maxTotalWeight.toNat) :
    Scalar.magnitude
      (r.config.decode (∑ i ∈ r.session.parties.toFinset, r.config.encodeUnclipped (weight i) r.random) /
        ((∑ i ∈ r.session.parties.toFinset, (weight i).toNat : ℕ) : ℚ) - r.random) ≤ r.tolerance := by
  have hbound : |r.random| ≤ r.config.elementBound := by
    rw [MaskConfig.elementBound_eq, abs_of_nonneg hrandom.1]
    exact hrandom.2.le.trans (le_max_right _ _)
  have hnear := MaskConfig.decode_sum_near hpos hmax (x := fun _ => r.random) fun _ _ => hbound
  set W := ∑ i ∈ r.session.parties.toFinset, (weight i).toNat with hW
  have hWpos : (1 : ℚ) ≤ W := by exact_mod_cast hpos
  -- the weighted mean of one value is the value
  have hmean : (∑ i ∈ r.session.parties.toFinset, ((weight i).toNat : ℚ) * r.random) / W = r.random := by
    rw [← sum_mul, ← Nat.cast_sum, ← hW]
    field_simp
  rw [hmean] at hnear
  have hmagnitude : ∀ x : ℚ, Scalar.magnitude x = |x| := by
    intro x
    unfold Scalar.magnitude
    by_cases hx : x < 0
    · rw [if_pos hx, abs_of_neg hx]
    · rw [if_neg hx, abs_of_nonneg (not_lt.1 hx)]
  have hscale := r.config.scale_pos
  have hcard : (r.session.parties.toFinset.card : ℚ) ≤ r.session.parties.length := by
    exact_mod_cast List.toFinset_card_le _
  rw [hmagnitude]
  refine hnear.trans ?_
  show _ ≤ (((r.session.parties.length : ℕ) : ℤ) + 1 : ℚ) * (1 / r.config.scale)
  rw [mul_one_div, div_le_div_iff₀ (by positivity) hscale]
  push_cast
  have hfactor : (r.session.parties.toFinset.card : ℚ) ≤ (r.session.parties.length + 1) * (2 * W) := by
    nlinarith
  calc _ ≤ ((r.session.parties.length + 1) * (2 * W)) * r.config.scale := by gcongr
    _ = _ := by ring

/-- The round gives the decoded means of words that sum up to the encodings of all parties. -/
theorem aggregate_eq_ok (hrandom : 0 ≤ r.random ∧ r.random < 1) {reference : Parameters ℚ}
    {v : NodeId → MaskedVector} {W : ℕ}
    (hW : ∑ i ∈ r.session.parties.toFinset, (weight i).toNat = W) (hpos : 1 ≤ W)
    (hmax : W ≤ r.config.maxTotalWeight.toNat)
    (hlength : ∀ i ∈ r.session.parties, (v i).data.length = reference.length + 1)
    (hlast : ∑ i ∈ r.session.parties.toFinset, (v i).data.getD reference.length 0 =
      ∑ i ∈ r.session.parties.toFinset, r.config.encodeUnclipped (weight i) r.random) :
    ∃ mean, r.aggregate (received r.session.parties v weight) reference = .ok mean ∧
      mean.layout = reference.layout ∧
      ∀ k < reference.length, mean.flatten.getD k 0 =
        r.config.decode (∑ i ∈ r.session.parties.toFinset, (v i).data.getD k 0) / W := by
  have hlt := r.config.maxTotalWeight.toNat_lt
  obtain ⟨s, w, htotal, hw, hcount, hslength, hwords⟩ :=
    total_received (R := ℚ) hW hpos (by omega) hlength
  have hzero : w ≠ 0 := by
    rintro rfl
    simp at hw
    omega
  have hbound : ¬r.config.maxTotalWeight < w := by
    rw [UInt64.lt_iff_toNat_lt]
    omega
  have hunmask := s.unmask_eq_ok (R := ℚ) hcount hzero hbound
  have hvalues : (s.sum.dropLast.map fun x => r.config.decode x / Scalar.ofCount w).length =
      reference.length := by
    simp [hslength]
  obtain ⟨mean, hmean, hlayout, hflat⟩ := Parameters.unflatten_of_length hvalues
  refine ⟨mean, ?_, hlayout, fun k hk => ?_⟩
  · unfold aggregate
    rw [received_expected]
    dsimp only
    rw [received_complete]
    simp only [List.isEmpty_nil, Bool.not_true, Bool.false_eq_true, if_false, bind_eq_ok,
      mapError_eq_ok, guard_eq_ok]
    refine ⟨(s, w), htotal, _, hunmask, ?_, hmean⟩
    subst hW
    rw [getLastD_of_length hslength, hwords, hlast, MaskConfig.ofCount_eq, hw]
    exact not_lt.2 (verification_near hrandom hpos hmax)
  · rw [hflat, List.getD_eq_getElem?_getD, List.getElem?_map, getElem?_dropLast_of_length hslength hk,
      hwords, ← hw, ← MaskConfig.ofCount_eq]
    rfl

/-! ## 3. What the parties mask -/

/-- The parties of a session hold key pairs whose public keys it lists, and of two parties either one
multiplies its secret key and the public key of the other one to the same product. -/
structure HeldBy (r : SecaggRound ℚ) (pair : NodeId → KeyPair) : Prop where
  listed : ∀ i ∈ r.session.parties, r.session.publicKeys.find? i = some (pair i).publicKey
  product_eq : ∀ i ∈ r.session.parties, ∀ j ∈ r.session.parties,
    Crypto.X25519.multiply (pair i).secret (pair j).publicKey =
      Crypto.X25519.multiply (pair j).secret (pair i).publicKey

variable {pair : NodeId → KeyPair} {values : NodeId → List ℚ} {v : NodeId → MaskedVector}

theorem matches_of_mask (hs : HeldBy r pair)
    (hmask : ∀ i ∈ r.session.parties, r.arguments.mask i (pair i) (weight i) (values i) = .ok (v i)) :
    ∀ i ∈ r.session.parties, ∀ j ∈ r.session.parties, i ≠ j → (pair i).Matches (pair j) := by
  intro i hi j hj hne
  have h := hmask i hi
  simp only [SecaggArguments.mask, SecaggArguments.masker, bind_eq_ok, mapError_eq_ok,
    KeyPair.sessionKeys, map_eq_ok] at h
  obtain ⟨m, ⟨keys, ⟨l, hgo, -⟩, -⟩, -⟩ := h
  have hpeer : j ∈ r.arguments.parties.filter (· != i) :=
    List.mem_filter.2 ⟨hj, bne_iff_ne.2 hne.symm⟩
  exact ⟨hs.product_eq i hi j hj, KeyPair.product_ne_of_go hgo hpeer (hs.listed j hj)⟩

/-- What a party puts into a round. -/
def contribution (r : SecaggRound ℚ) (weight : NodeId → UInt64) (values : NodeId → List ℚ)
    (i : NodeId) : Contribution ℚ := ⟨weight i, values i, r.random⟩

/-- Parties with matching key pairs mask their values, and the words that they send sum up to the
encodings. -/
theorem mask_sum_of_matches (hlisted : ∀ i ∈ r.session.parties,
      r.session.publicKeys.find? i = some (pair i).publicKey)
    (hpair : ∀ i ∈ r.session.parties, ∀ j ∈ r.session.parties, i ≠ j → (pair i).Matches (pair j))
    (weight : NodeId → UInt64) {values : NodeId → List ℚ} {n : ℕ}
    (hn : ∀ i ∈ r.session.parties, (values i).length = n) :
    ∃ v : NodeId → MaskedVector,
      (∀ i ∈ r.session.parties, r.arguments.mask i (pair i) (weight i) (values i) = .ok (v i) ∧
        (v i).data.length = n + 1) ∧
      ∀ k, ∑ i ∈ r.session.parties.toFinset, (v i).data.getD k 0 =
        ∑ i ∈ r.session.parties.toFinset,
          ((r.contribution weight values i).encoded r.config).getD k 0 := by
  simp only [← List.mem_toFinset] at hlisted hpair hn ⊢
  have hsame : ∀ i ∈ r.session.parties.toFinset, ∀ j,
      j ∈ r.session.parties ↔ j ∈ r.session.parties.toFinset := fun _ _ j => List.mem_toFinset.symm
  obtain ⟨keys, hkeys, hsession⟩ := KeyPair.sameSession_of_matches hsame hlisted hpair
  obtain ⟨v, hv, hsum⟩ := masked_sum_eq hsession r.config r.nonce
    (fun key n => Crypto.ChaCha20.length_words key r.nonce n) (x := r.contribution weight values) hn
  refine ⟨v, fun i hi => ⟨?_, (hv i hi).2⟩, hsum⟩
  rw [mask_eq_masked (hkeys i hi)]
  exact (hv i hi).1

/-- An encoded value is the one of the clipped parameter, and the verification element stands behind
all of them. -/
theorem getD_encoded (r : SecaggRound ℚ) (weight : NodeId → UInt64) (values : NodeId → List ℚ)
    {i : NodeId} {n : ℕ} (hn : (values i).length = n) :
    (∀ k < n, ((r.contribution weight values i).encoded r.config).getD k 0 =
      r.config.encodeUnclipped (weight i) (r.config.clip ((values i).getD k 0))) ∧
    ((r.contribution weight values i).encoded r.config).getD n 0 =
      r.config.encodeUnclipped (weight i) r.random := by
  subst hn
  constructor
  · intro k hk
    simp [contribution, Contribution.encoded, List.getD_eq_getElem?_getD, List.getElem?_append, hk,
      MaskConfig.encode]
  · simp [contribution, Contribution.encoded, List.getD_eq_getElem?_getD]

/-- The results of a plain round in which the parties clip every value. -/
def clippedResults (r : SecaggRound ℚ) (weight : NodeId → UInt64) (params : NodeId → Parameters ℚ)
    (aux : NodeId → AuxVars ℚ) : NameMap (NodeUpdate ℚ) :=
  .ofList (r.session.parties.map fun i => (i, ⟨(params i).map r.config.clip, weight i, aux i⟩))

/-- Federated averaging over clipped parameters gives their weighted mean. -/
theorem aggregate_clippedResults {i : AggregationInput ℚ} {params : NodeId → Parameters ℚ}
    {aux : NodeId → AuxVars ℚ} (hresults : i.results = r.clippedResults weight params aux)
    (hlayout : ∀ j ∈ r.session.parties, (params j).layout = i.previous.layout) {W : ℕ}
    (hW : ∑ j ∈ r.session.parties.toFinset, (weight j).toNat = W) (hpos : 1 ≤ W)
    (hfits : W < 2 ^ 64) :
    ∃ plain, FedAverage.aggregate i = .ok plain ∧ plain.global.layout = i.previous.layout ∧
      ∀ k < i.previous.length, plain.global.flatten.getD k 0 =
        (∑ j ∈ r.session.parties.toFinset,
          ((weight j).toNat : ℚ) * r.config.clip ((params j).flatten.getD k 0)) / W := by
  obtain ⟨order, hnodup, hset, hvisited⟩ := exists_order (α := NodeUpdate ℚ) r.session.parties
  have hmem : ∀ j ∈ order, j ∈ r.session.parties := fun j hj =>
    List.mem_toFinset.1 (hset ▸ List.mem_toFinset.2 hj)
  have hlist : i.results.toList = order.map fun j =>
      (j, ⟨(params j).map r.config.clip, weight j, aux j⟩) := by
    rw [hresults, clippedResults, hvisited]
  have hweights : (i.results.values.map fun u => u.sampleCount.toNat).sum = W := by
    have hvalues : i.results.values = i.results.toList.map Prod.snd := rfl
    rw [hvalues, hlist, List.map_map, List.map_map, ← hW, ← hset, List.sum_toFinset _ hnodup]
    rfl
  have hlayouts : ∀ e ∈ i.results.toList, e.2.params.layout = i.previous.layout := by
    rw [hlist]
    intro e he
    obtain ⟨j, hj, rfl⟩ := List.mem_map.1 he
    rw [Parameters.layout_map, hlayout j (hmem j hj)]
  obtain ⟨plain, hplain, hplayout, hpflat⟩ :=
    FedAverage.aggregate_of_layout hlayouts hweights hpos hfits
  refine ⟨plain, hplain, hplayout, fun k hk => ?_⟩
  have hvalue : ∀ j ∈ order, ((params j).map r.config.clip).flatten.getD k 0 =
      r.config.clip ((params j).flatten.getD k 0) := by
    intro j hj
    have hlt : k < (params j).flatten.length := by
      rw [Parameters.length_flatten, Parameters.length_of_layout (hlayout j (hmem j hj))]
      exact hk
    simp [Parameters.flatten_map, List.getD_eq_getElem?_getD, hlt]
  rw [hpflat, hlist, List.map_map, ← hset, List.sum_toFinset _ hnodup]
  congr 2
  refine List.map_congr_left fun j hj => ?_
  show ((weight j).toNat : ℚ) * ((params j).map r.config.clip).flatten.getD k 0 = _
  rw [hvalue j hj]

end SecaggRound

/-! ## 4. Agreement with the plain mean -/

/-- In exact arithmetic a secure round to which all parties contributed is decoded to what federated
averaging gives for their clipped parameters, the weighted mean, up to half a unit of the resolution
for each party in the weighted sum. -/
theorem secure_mean_near_plain_mean {r : SecaggRound ℚ} (hconfig : r.config.validate = .ok ())
    (hrandom : 0 ≤ r.random ∧ r.random < 1) {pair : NodeId → KeyPair} (hs : r.HeldBy pair)
    {weight : NodeId → UInt64} {params : NodeId → Parameters ℚ} {v : NodeId → MaskedVector}
    (hmask : ∀ j ∈ r.session.parties,
      r.arguments.mask j (pair j) (weight j) (params j).flatten = .ok (v j))
    {i : AggregationInput ℚ} (hlayout : ∀ j ∈ r.session.parties, (params j).layout = i.previous.layout)
    {aux : NodeId → AuxVars ℚ} (hresults : i.results = r.clippedResults weight params aux) {W : ℕ}
    (hW : ∑ j ∈ r.session.parties.toFinset, (weight j).toNat = W) (hpos : 1 ≤ W)
    (hmax : W ≤ r.config.maxTotalWeight.toNat) :
    ∃ mean plain, r.aggregate (SecaggRound.received r.session.parties v weight) i.previous = .ok mean ∧
      FedAverage.aggregate i = .ok plain ∧
      mean.layout = i.previous.layout ∧ plain.global.layout = i.previous.layout ∧
      ∀ k < i.previous.length,
        plain.global.flatten.getD k 0 = (∑ j ∈ r.session.parties.toFinset, ((weight j).toNat : ℚ) *
          min (max ((params j).flatten.getD k 0) (-r.config.clippingRange)) r.config.clippingRange) / W ∧
        |mean.flatten.getD k 0 - plain.global.flatten.getD k 0| ≤
          r.session.parties.toFinset.card / (2 * (W : ℚ) * 2 ^ r.config.fixedPointBits.toNat) := by
  have hlength : ∀ j ∈ r.session.parties, (params j).flatten.length = i.previous.length := by
    intro j hj
    rw [Parameters.length_flatten, Parameters.length_of_layout (hlayout j hj)]
  -- the vectors of the parties are the ones whose masks cancel
  obtain ⟨v', hv', hsum⟩ := SecaggRound.mask_sum_of_matches hs.listed
    (SecaggRound.matches_of_mask hs hmask) weight hlength
  have hvv : ∀ j ∈ r.session.parties, v' j = v j := fun j hj =>
    Except.ok.inj ((hv' j hj).1.symm.trans (hmask j hj))
  have hwords : ∀ k, ∑ j ∈ r.session.parties.toFinset, (v j).data.getD k 0 = _ := fun k =>
    (sum_congr rfl fun j hj => by rw [hvv j (List.mem_toFinset.1 hj)]).symm.trans (hsum k)
  have hencoded : ∀ j ∈ r.session.parties, _ := fun j hj =>
    SecaggRound.getD_encoded r weight (fun j => (params j).flatten) (hlength j hj)
  have hlast : ∑ j ∈ r.session.parties.toFinset, (v j).data.getD i.previous.length 0 =
      ∑ j ∈ r.session.parties.toFinset, r.config.encodeUnclipped (weight j) r.random := by
    rw [hwords]
    exact sum_congr rfl fun j hj => (hencoded j (List.mem_toFinset.1 hj)).2
  obtain ⟨mean, hmean, hmlayout, hmflat⟩ := SecaggRound.aggregate_eq_ok hrandom hW hpos hmax
    (fun j hj => hvv j hj ▸ (hv' j hj).2) hlast
  obtain ⟨plain, hplain, hplayout, hpflat⟩ := SecaggRound.aggregate_clippedResults hresults hlayout hW
    hpos (lt_of_le_of_lt hmax r.config.maxTotalWeight.toNat_lt)
  refine ⟨mean, plain, hmean, hplain, hmlayout, hplayout, fun k hk => ⟨?_, ?_⟩⟩
  · rw [hpflat k hk]
    simp only [MaskConfig.clip_eq]
  · subst hW
    rw [hmflat k hk, hpflat k hk, hwords,
      sum_congr rfl fun j hj => (hencoded j (List.mem_toFinset.1 hj)).1 k hk]
    have hscale : r.config.scale = 2 ^ r.config.fixedPointBits.toNat := by
      have hbits := MaskConfig.fixedPointBits_le hconfig
      rw [MaskConfig.scale_eq, Nat.mod_eq_of_lt (by omega)]
    rw [← hscale]
    exact MaskConfig.decode_sum_near hpos hmax fun j _ => MaskConfig.abs_clip_le hconfig _

/-- The key pairs of two parties, which have secret keys of their own. -/
def maskedPairKeys (i : NodeId) : KeyPair := .ofSecret (.ofNat i.length)

/-- A round of two parties. -/
def maskedPairRound : SecaggRound ℚ where
  session := ⟨"session", ["a", "bb"], .ofList (["a", "bb"].map fun i => (i, (maskedPairKeys i).publicKey))⟩
  config := ⟨3, 20⟩
  nonce := 7
  random := 1 / 2

/-- Parameters of one layer, of which one value is beyond the clipping range. -/
def maskedPairParams (i : NodeId) : Parameters ℚ := ⟨.ofList [("layer", [i.length / 3, -5])]⟩

def maskedPairInput : AggregationInput ℚ where
  results := maskedPairRound.clippedResults (fun i => UInt64.ofNat i.length) maskedPairParams fun _ => .empty
  previous := maskedPairParams "a"
  nodeStates := .empty
  trainingArgs := {}
  federationSize := 2

theorem secure_mean_near_plain_mean_pair :
    ∃ (v : NodeId → MaskedVector) (mean : Parameters ℚ) (plain : Combined ℚ),
      maskedPairRound.aggregate (SecaggRound.received ["a", "bb"] v fun i => UInt64.ofNat i.length)
        maskedPairInput.previous = .ok mean ∧
      FedAverage.aggregate maskedPairInput = .ok plain ∧
      ∀ k < 2, |mean.flatten.getD k 0 - plain.global.flatten.getD k 0| ≤ 2 / (2 * 3 * 2 ^ 20) := by
  have hs : maskedPairRound.HeldBy maskedPairKeys := ⟨by decide +kernel, by decide +kernel⟩
  have hpair : ∀ i ∈ maskedPairRound.session.parties, ∀ j ∈ maskedPairRound.session.parties, i ≠ j →
      (maskedPairKeys i).Matches (maskedPairKeys j) := fun i hi j hj _ =>
    ⟨hs.product_eq i hi j hj, by revert i j; decide +kernel⟩
  have hlength : ∀ i ∈ maskedPairRound.session.parties, (maskedPairParams i).flatten.length = 2 := by
    intro i _
    rfl
  obtain ⟨v, hv, -⟩ := SecaggRound.mask_sum_of_matches hs.listed hpair
    (fun i => UInt64.ofNat i.length) hlength
  have hW : ∑ j ∈ maskedPairRound.session.parties.toFinset, (UInt64.ofNat j.length).toNat = 3 := by decide
  have hresults : maskedPairInput.results = maskedPairRound.clippedResults (fun i => UInt64.ofNat i.length)
      maskedPairParams fun _ => .empty := rfl
  obtain ⟨mean, plain, hmean, hplain, -, -, hnear⟩ := secure_mean_near_plain_mean (r := maskedPairRound)
    rfl (by decide +kernel) hs (fun j hj => (hv j hj).1) (fun _ _ => rfl) hresults hW (by decide)
    (by decide +kernel)
  exact ⟨v, mean, plain, hmean, hplain, fun k hk => (hnear k hk).2⟩

end Federation
