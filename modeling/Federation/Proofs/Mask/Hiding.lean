import Federation.Proofs.Mask.Cancellation
import Mathlib.Data.FinEnum
import Mathlib.Probability.Distributions.Uniform
/-!
# What masked vectors hide

The masks of a round are taken as free: one vector of words for every pair of parties. If the
encodings of the parties are replaced by others with the same sum, then the masks can be shifted so
that every masked vector stays the same. The shift is a bijection of the masks, so under uniform masks
the masked vectors have the same distribution for all encodings of one sum.
-/

open Finset

namespace Federation

/-! ## 1. Signs -/

theorem signed_add (i j : NodeId) (w w' : UInt64) : signed i j (w + w') = signed i j w + signed i j w' := by
  by_cases h : i < j
  · simp only [signed, if_pos h]
  · simp only [signed, if_neg h, neg_add]

theorem signed_signed (i j : NodeId) (w : UInt64) : signed i j (signed i j w) = w := by
  by_cases h : i < j
  · simp only [signed, if_pos h]
  · simp only [signed, if_neg h, neg_neg]

/-! ## 2. Masks of pairs -/

/-- Two names in ascending order. It is the same for either order in which they are given. -/
def inOrder (i j : NodeId) : NodeId × NodeId := if i < j then (i, j) else (j, i)

theorem inOrder_comm (i j : NodeId) : inOrder i j = inOrder j i := by
  rcases lt_trichotomy i j with h | rfl | h
  · rw [inOrder, inOrder, if_pos h, if_neg (lt_asymm h)]
  · rfl
  · rw [inOrder, inOrder, if_neg (lt_asymm h), if_pos h]

/-- The pairs of parties, the earlier party of each first. -/
def pairsOf (parties : Finset NodeId) : Finset (NodeId × NodeId) :=
  (parties ×ˢ parties).filter fun p => p.1 < p.2

theorem inOrder_mem_pairsOf {parties : Finset NodeId} {i j : NodeId} (hi : i ∈ parties)
    (hj : j ∈ parties) (hne : i ≠ j) : inOrder i j ∈ pairsOf parties := by
  rcases lt_or_gt_of_ne hne with h | h
  · rw [inOrder, if_pos h]
    exact mem_filter.2 ⟨mk_mem_product hi hj, h⟩
  · rw [inOrder, if_neg (lt_asymm h)]
    exact mem_filter.2 ⟨mk_mem_product hj hi, h⟩

/-- A mask of `n` words for every pair of parties. -/
abbrev PairMasks (parties : Finset NodeId) (n : Nat) := {p // p ∈ pairsOf parties} → Fin n → UInt64

namespace PairMasks

variable {parties : Finset NodeId} {n : Nat}

/-- A word of the mask of a pair, zero beyond its length. -/
def word (m : PairMasks parties n) (p : NodeId × NodeId) (k : Nat) : UInt64 :=
  if h : p ∈ pairsOf parties ∧ k < n then m ⟨p, h.1⟩ ⟨k, h.2⟩ else 0

/-- The masks of a round as the streams of the pairs, each of which is its own key. -/
def stream (m : PairMasks parties n) (p : NodeId × NodeId) (_ : UInt64) (length : Nat) : List UInt64 :=
  (List.range length).map (m.word p)

theorem length_stream (m : PairMasks parties n) (p : NodeId × NodeId) (nonce : UInt64) (length : Nat) :
    (m.stream p nonce length).length = length := by
  rw [stream, List.length_map, List.length_range]

theorem getD_stream (m : PairMasks parties n) (p : NodeId × NodeId) (nonce : UInt64) (k : Nat) :
    (m.stream p nonce n).getD k 0 = m.word p k := by
  by_cases hk : k < n
  · simp [stream, List.getD_eq_getElem?_getD, hk]
  · have hword : m.word p k = 0 := dif_neg fun h => hk h.2
    rw [hword]
    simp [stream, List.getD_eq_getElem?_getD, hk]

theorem word_add (m m' : PairMasks parties n) (p : NodeId × NodeId) (k : Nat) :
    (m + m').word p k = m.word p k + m'.word p k := by
  by_cases h : p ∈ pairsOf parties ∧ k < n
  · simp only [word, dif_pos h, Pi.add_apply]
  · simp only [word, dif_neg h, add_zero]

/-! ## 3. Masks that carry given words to one party -/

/-- Only the masks between `root` and the others are not zero. They make every other party add the
given words. -/
def toward (root : NodeId) (d : NodeId → Nat → UInt64) : PairMasks parties n := fun p k =>
  if p.1.2 = root then d p.1.1 k else if p.1.1 = root then -d p.1.2 k else 0

variable {root : NodeId} {d : NodeId → Nat → UInt64}

theorem word_toward_root {i : NodeId} (hi : i ∈ parties) (hroot : root ∈ parties) (hne : i ≠ root)
    {k : Nat} (hk : k < n) :
    (toward root d : PairMasks parties n).word (inOrder i root) k = signed i root (d i k) := by
  rw [word, dif_pos ⟨inOrder_mem_pairsOf hi hroot hne, hk⟩]
  rcases lt_or_gt_of_ne hne with h | h
  · simp [toward, inOrder, signed, h]
  · simp [toward, inOrder, signed, lt_asymm h, hne]

theorem word_toward_other {i j : NodeId} (hi : i ≠ root) (hj : j ≠ root) (k : Nat) :
    (toward root d : PairMasks parties n).word (inOrder i j) k = 0 := by
  have hfst : (inOrder i j).1 ≠ root := by
    rw [inOrder]
    split
    next => exact hi
    next => exact hj
  have hsnd : (inOrder i j).2 ≠ root := by
    rw [inOrder]
    split
    next => exact hj
    next => exact hi
  rw [word]
  split
  next => rw [toward, if_neg hsnd, if_neg hfst]
  next => rfl

/-- If the given words add up to nothing, every party adds its own. -/
theorem sum_toward (hroot : root ∈ parties) {k : Nat} (hk : k < n) (hd : ∑ i ∈ parties, d i k = 0)
    {i : NodeId} (hi : i ∈ parties) :
    ∑ j ∈ parties.erase i, signed i j ((toward root d : PairMasks parties n).word (inOrder i j) k) =
      d i k := by
  by_cases hne : i = root
  · subst hne
    have hterm : ∀ j ∈ parties.erase i,
        signed i j ((toward i d : PairMasks parties n).word (inOrder i j) k) = -d j k := by
      intro j hj
      obtain ⟨hji, hj⟩ := mem_erase.1 hj
      rw [inOrder_comm, word_toward_root hj hi hji hk, signed_swap hji, signed_signed]
    rw [sum_congr rfl hterm, sum_neg_distrib, neg_eq_iff_add_eq_zero, sum_erase_add _ _ hi, hd]
  · -- of the streams of any other party only the one shared with `root` is not zero
    have hterm : ∀ j ∈ parties.erase i, j ≠ root →
        signed i j ((toward root d : PairMasks parties n).word (inOrder i j) k) = 0 := by
      intro j _ hj
      rw [word_toward_other hne hj, signed]
      split
      next => rfl
      next => exact neg_zero
    rw [sum_eq_single_of_mem root (mem_erase.2 ⟨Ne.symm hne, hroot⟩) hterm,
      word_toward_root hi hroot hne hk, signed_signed]

end PairMasks

/-! ## 4. Masked vectors of two families of words -/

section

variable {R : Type} {parties : Finset NodeId} {n : Nat} {view : NodeId → PartyView (NodeId × NodeId)}

/-- What the parties send in a round of the given masks: of every party the masked vector of its
words. -/
def transcript (config : MaskConfig R) (nonce : UInt64) (view : NodeId → PartyView (NodeId × NodeId))
    (words : NodeId → List UInt64) (m : PairMasks parties n) (i : {i // i ∈ parties}) :
    Except MaskingError MaskedVector :=
  (view i).blind config m.stream nonce i (words i)

/-- A party sends its words with the signed masks of its pairs. -/
theorem transcript_eq (hs : SameSession parties inOrder view) (config : MaskConfig R) (nonce : UInt64)
    {words : NodeId → List UInt64} (hwords : ∀ i ∈ parties, (words i).length = n)
    (m : PairMasks parties n) (i : {i // i ∈ parties}) :
    ∃ v, transcript config nonce view words m i = .ok v ∧ v.data.length = n ∧
      ∀ k, v.data.getD k 0 = (words i).getD k 0 +
        ∑ j ∈ parties.erase i, signed i j (m.word (inOrder i j) k) := by
  obtain ⟨v, hok, hlen, hk⟩ := blind_view_eq config hs
    (fun key n => m.length_stream key nonce n) i.2 (words i)
  rw [hwords i i.2] at hlen hk
  refine ⟨v, hok, hlen, fun k => ?_⟩
  simp only [hk, PairMasks.getD_stream]

/-- Masks that are shifted by the difference of two families of words of one sum hide the one family
as the other masks hide the other. -/
theorem transcript_toward (hs : SameSession parties inOrder view) (config : MaskConfig R)
    (nonce : UInt64) {e e' : NodeId → List UInt64} (he : ∀ i ∈ parties, (e i).length = n)
    (he' : ∀ i ∈ parties, (e' i).length = n)
    (hsum : ∀ k < n, ∑ i ∈ parties, (e i).getD k 0 = ∑ i ∈ parties, (e' i).getD k 0)
    {root : NodeId} (hroot : root ∈ parties) (m : PairMasks parties n) :
    transcript config nonce view e' (m + .toward root fun i k => (e i).getD k 0 - (e' i).getD k 0) =
      transcript config nonce view e m := by
  funext i
  obtain ⟨v, hv, hlen, hk⟩ := transcript_eq hs config nonce he m i
  obtain ⟨v', hv', hlen', hk'⟩ := transcript_eq hs config nonce he'
    (m + .toward root fun i k => (e i).getD k 0 - (e' i).getD k 0) i
  have hdata : v'.data = v.data := by
    apply List.ext_getElem (hlen'.trans hlen.symm)
    intro k hlt hlt'
    have hkn : k < n := hlen ▸ hlt'
    have hzero : ∑ i ∈ parties, ((e i).getD k 0 - (e' i).getD k 0) = 0 := by
      rw [sum_sub_distrib, hsum k hkn, sub_self]
    have hword : v'.data.getD k 0 = v.data.getD k 0 := by
      simp only [hk', hk, PairMasks.word_add, signed_add, sum_add_distrib]
      rw [PairMasks.sum_toward hroot hkn hzero i.2]
      abel
    simpa [List.getD_eq_getElem?_getD, hlt, hlt'] using hword
  obtain ⟨data⟩ := v
  obtain ⟨data'⟩ := v'
  rw [hv, hv', show data' = data from hdata]

/-- Masks that hide one family of words correspond one to one to masks that hide another one of the
same sum behind the same vectors. -/
theorem exists_shift (hs : SameSession parties inOrder view) (config : MaskConfig R) (nonce : UInt64)
    {e e' : NodeId → List UInt64} (he : ∀ i ∈ parties, (e i).length = n)
    (he' : ∀ i ∈ parties, (e' i).length = n)
    (hsum : ∀ k < n, ∑ i ∈ parties, (e i).getD k 0 = ∑ i ∈ parties, (e' i).getD k 0) :
    ∃ shift : PairMasks parties n ≃ PairMasks parties n, ∀ m,
      transcript config nonce view e' (shift m) = transcript config nonce view e m := by
  rcases parties.eq_empty_or_nonempty with rfl | ⟨root, hroot⟩
  · exact ⟨.refl _, fun m => funext fun i => absurd i.2 (notMem_empty _)⟩
  · exact ⟨.addRight _, transcript_toward hs config nonce he he' hsum hroot⟩

end

/-- A uniform value stays uniform under a bijection. -/
theorem map_uniform_comp {α β : Type} [Fintype α] [Nonempty α] (f g : α → β) (shift : α ≃ α)
    (h : ∀ a, g (shift a) = f a) :
    (PMF.uniformOfFintype α).map f = (PMF.uniformOfFintype α).map g := by
  classical
  apply PMF.ext
  intro b
  rw [PMF.map_apply, PMF.map_apply]
  conv_rhs => rw [← shift.tsum_eq]
  simp only [PMF.uniformOfFintype_apply, h]

/-- The masked vectors of a round tell nothing of the encodings but their sum. Whatever two families
of encodings have the same sum modulo `2^64`, there is a bijection of the masks under which every party
sends the same vector in both cases, so that under uniform masks both have the same distribution. -/
theorem masked_vectors_hide_all_but_sum {R : Type} [Scalar R] {parties : Finset NodeId}
    {view : NodeId → PartyView (NodeId × NodeId)} (hs : SameSession parties inOrder view)
    (config : MaskConfig R) (nonce : UInt64) {n : Nat} {e e' : NodeId → List UInt64}
    (he : ∀ i ∈ parties, (e i).length = n) (he' : ∀ i ∈ parties, (e' i).length = n)
    (hsum : ∀ k < n, ∑ i ∈ parties, (e i).getD k 0 = ∑ i ∈ parties, (e' i).getD k 0) :
    ∃ shift : PairMasks parties n ≃ PairMasks parties n,
      (∀ m (i : {i // i ∈ parties}), ∃ v : MaskedVector, v.data.length = n ∧
        transcript config nonce view e m i = .ok v ∧
        transcript config nonce view e' (shift m) i = .ok v) ∧
      (∀ x x' : NodeId → Contribution R, (∀ i ∈ parties, (x i).encoded config = e i) →
        (∀ i ∈ parties, (x' i).encoded config = e' i) → ∀ m, ∀ i ∈ parties, ∃ v,
          (x i).masked config m.stream nonce i (view i) = .ok v ∧
          (x' i).masked config (shift m).stream nonce i (view i) = .ok v) ∧
      (PMF.uniformOfFintype (PairMasks parties n)).map (transcript config nonce view e) =
        (PMF.uniformOfFintype (PairMasks parties n)).map (transcript config nonce view e') := by
  obtain ⟨shift, hshift⟩ := exists_shift hs config nonce he he' hsum
  have hsame : ∀ m (i : {i // i ∈ parties}), ∃ v : MaskedVector, v.data.length = n ∧
      transcript config nonce view e m i = .ok v ∧
      transcript config nonce view e' (shift m) i = .ok v := by
    intro m i
    obtain ⟨v, hok, hlen, -⟩ := transcript_eq hs config nonce he m i
    exact ⟨v, hlen, hok, by rw [hshift, hok]⟩
  refine ⟨shift, hsame, ?_, map_uniform_comp _ _ shift hshift⟩
  intro x x' hx hx' m i hi
  obtain ⟨v, -, hv, hv'⟩ := hsame m ⟨i, hi⟩
  refine ⟨v, ?_, ?_⟩
  · rw [Contribution.masked_eq_blind, hx i hi]
    exact hv
  · rw [Contribution.masked_eq_blind, hx' i hi]
    exact hv'

/-- The views of `threeParties` in which every pair is its own key. -/
def openViews (i : NodeId) : PartyView (NodeId × NodeId) where
  listed := (threeViews i).listed
  keys := .ofList (["a", "bb", "ccc"].map fun j => (j, inOrder i j))

theorem sameSession_open : SameSession threeParties inOrder openViews where
  symm i _ j _ := inOrder_comm i j
  listed := sameSession_three.listed
  held i _ j hj _ := by
    rw [openViews, SortedMap.find?_ofList]
    simp only [threeParties, mem_insert, mem_singleton] at hj
    rcases hj with rfl | rfl | rfl <;> rfl

/-- The contributions of `threeParties`, each made by another party. -/
def rotatedContributions (i : NodeId) : Contribution Float :=
  threeContributions (if i = "a" then "bb" else if i = "bb" then "ccc" else "a")

theorem masked_vectors_hide_all_but_sum_three :
    SameSession threeParties inOrder openViews ∧
      ∃ shift : PairMasks threeParties 3 ≃ PairMasks threeParties 3, ∀ m, ∀ i ∈ threeParties, ∃ v,
        (threeContributions i).masked .standard m.stream 7 i (openViews i) = .ok v ∧
          (rotatedContributions i).masked .standard (shift m).stream 7 i (openViews i) = .ok v := by
  have hlength : ∀ i ∈ threeParties, ((threeContributions i).encoded .standard).length = 3 :=
    fun _ _ => rfl
  have hlength' : ∀ i ∈ threeParties, ((rotatedContributions i).encoded .standard).length = 3 :=
    fun _ _ => rfl
  have hsum : ∀ k < 3, ∑ i ∈ threeParties, ((threeContributions i).encoded .standard).getD k 0 =
      ∑ i ∈ threeParties, ((rotatedContributions i).encoded .standard).getD k 0 := by
    intro k _
    simp only [threeParties, rotatedContributions, mem_insert, mem_singleton, sum_insert, sum_singleton,
      not_or, String.reduceEq, not_false_eq_true, and_self, if_true, if_false]
    abel
  obtain ⟨shift, -, hmasked, -⟩ := masked_vectors_hide_all_but_sum sameSession_open .standard 7
    hlength hlength' hsum
  exact ⟨sameSession_open, shift, hmasked _ _ (fun _ _ => rfl) fun _ _ => rfl⟩

end Federation
