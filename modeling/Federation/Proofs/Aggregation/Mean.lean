import Mathlib.Algebra.BigOperators.Ring.Finset
import Federation.Proofs.Aggregation.Layouts
import Federation.Proofs.Rational
/-!
# The weighted mean

In exact arithmetic federated averaging gives, value by value, the mean of the parameters weighted by
the sample counts.
-/

namespace Federation

/-! ## 1. Values at a position -/

namespace Parameters

/-- The value at a position of the flat list, zero beyond its end. -/
def coordinate (p : Parameters ℚ) (k : ℕ) : ℚ := p.flatten.getD k 0

theorem coordinate_zerosLike (p : Parameters ℚ) (k : ℕ) : p.zerosLike.coordinate k = 0 :=
  valueAt_map rfl p k

theorem coordinate_zipWith {a b c : Parameters ℚ} {f : ℚ → ℚ → ℚ} (hf : f 0 0 = 0)
    (h : a.zipWith b f = .ok c) (k : ℕ) : c.coordinate k = f (a.coordinate k) (b.coordinate k) :=
  valueAt_zipWith hf h k

theorem ext_coordinate {a b : Parameters ℚ} (h : a.layout = b.layout)
    (hk : ∀ k, a.coordinate k = b.coordinate k) : a = b :=
  ext_valueAt h hk

end Parameters

/-! ## 2. Sums over the results -/

/-- The sum of the sample counts. -/
def sampleTotal {R : Type} (results : NameMap (NodeUpdate R)) : ℕ :=
  (results.values.map fun u => u.sampleCount.toNat).sum

theorem toList_ne_nil {R : Type} {results : NameMap (NodeUpdate R)} (h : 0 < sampleTotal results) :
    results.toList ≠ [] := by
  intro hnil
  rw [sampleTotal, show results.values = [] from congrArg (List.map Prod.snd) hnil] at h
  contradiction

theorem totalSamples_of_ne_nil {R : Type} {results : NameMap (NodeUpdate R)} (h : results.toList ≠ []) :
    totalSamples results = if 2 ^ 64 ≤ sampleTotal results then .error .weightOverflow
      else if sampleTotal results = 0 then .error .zeroWeight
      else .ok (UInt64.ofNat (sampleTotal results)) := by
  have hsome : results.isEmpty = false := List.isEmpty_eq_false_iff.2 h
  unfold totalSamples
  rw [hsome, if_neg Bool.false_ne_true]
  rfl

theorem totalSamples_eq_ok {R : Type} {results : NameMap (NodeUpdate R)}
    (hpos : 0 < sampleTotal results) (hfits : sampleTotal results < 2 ^ 64) :
    totalSamples results = .ok (UInt64.ofNat (sampleTotal results)) := by
  rw [totalSamples_of_ne_nil (toList_ne_nil hpos), if_neg (not_le.2 hfits), if_neg hpos.ne']

/-- Every result has the layout of the parameters from which the round started. -/
def AggregationInput.Fits (i : AggregationInput ℚ) : Prop :=
  ∀ e ∈ i.results.toList, e.2.params.layout = i.previous.layout

instance (i : AggregationInput ℚ) : Decidable i.Fits :=
  inferInstanceAs (Decidable (∀ e ∈ i.results.toList, e.2.params.layout = i.previous.layout))

theorem ofCount_ofNat {n : ℕ} (h : n < 2 ^ 64) : (Scalar.ofCount (UInt64.ofNat n) : ℚ) = n := by
  show ((((UInt64.ofNat n).toNat : ℕ) : ℤ) : ℚ) = n
  rw [UInt64.toNat_ofNat_of_lt' h, Int.cast_natCast]

theorem share_ofNat {n : ℕ} (h : n < 2 ^ 64) (u : NodeUpdate ℚ) :
    u.share (UInt64.ofNat n) = (u.sampleCount.toNat : ℚ) / n := by
  have hcount := ofCount_ofNat u.sampleCount.toNat_lt
  rw [UInt64.ofNat_toNat] at hcount
  rw [NodeUpdate.share, ofCount_ofNat h, hcount]

/-- A sum weighted by shares is one weighted by counts, divided by the total. -/
theorem sum_share_mul {n : ℕ} (h : n < 2 ^ 64) (l : List (NodeId × NodeUpdate ℚ))
    (f : NodeUpdate ℚ → ℚ) : (l.map fun e => e.2.share (UInt64.ofNat n) * f e.2).sum =
      (l.map fun e => (e.2.sampleCount.toNat : ℚ) * f e.2).sum / n := by
  rw [div_eq_mul_inv, ← List.sum_map_mul_right]
  refine congrArg List.sum (List.map_congr_left fun e _ => ?_)
  rw [share_ofNat h, div_eq_mul_inv, mul_right_comm]

/-- The shares of the samples are one together. -/
theorem sum_shares {results : NameMap (NodeUpdate ℚ)} (hpos : 0 < sampleTotal results)
    (hfits : sampleTotal results < 2 ^ 64) :
    (results.toList.map fun e => e.2.share (R := ℚ) (UInt64.ofNat (sampleTotal results))).sum = 1 := by
  have hcounts : (results.toList.map fun e => (e.2.sampleCount.toNat : ℚ)).sum = sampleTotal results := by
    rw [sampleTotal, Nat.cast_list_sum, List.map_map, SortedMap.values, List.map_map]
    rfl
  have hsum := sum_share_mul hfits results.toList fun _ => 1
  simp only [mul_one] at hsum
  rw [hsum, hcounts, div_self (Nat.cast_ne_zero.2 hpos.ne')]

namespace FedAverage

theorem coordinate_accumulate {total : UInt64} {l : List (NodeId × NodeUpdate ℚ)} {s p : Parameters ℚ}
    (h : accumulate total l s = .ok p) (k : ℕ) :
    p.coordinate k = s.coordinate k + (l.map fun e => e.2.share total * e.2.params.coordinate k).sum := by
  induction l generalizing s with
  | nil =>
    obtain rfl := Except.ok.inj h
    simp
  | cons e l ih =>
    rw [accumulate, bind_eq_ok] at h
    obtain ⟨next, hnext, hrest⟩ := h
    have hadded := Parameters.coordinate_zipWith (by simp) (mapError_eq_ok.1 hnext) k
    rw [ih hrest, hadded, List.map_cons, List.sum_cons, add_assoc]

theorem coordinate_aggregate {i : AggregationInput ℚ} {c : Combined ℚ} (hpos : 0 < sampleTotal i.results)
    (hfits : sampleTotal i.results < 2 ^ 64) (h : aggregate i = .ok c) (k : ℕ) :
    c.global.coordinate k = (i.results.toList.map fun e =>
      e.2.share (UInt64.ofNat (sampleTotal i.results)) * e.2.params.coordinate k).sum := by
  simp only [aggregate, bind_eq_ok, totalSamples_eq_ok hpos hfits] at h
  obtain ⟨_, ⟨⟩, -, -, p, hp, ⟨⟩⟩ := h
  have hsum := coordinate_accumulate hp k
  rwa [Parameters.coordinate_zerosLike, zero_add] at hsum

/-- Updates of one layout cannot be averaged only if their sample counts have no proper sum. -/
theorem aggregate_eq_error {i : AggregationInput ℚ} {e : AggregationError} (hi : i.Fits) :
    aggregate i = .error e ↔ totalSamples i.results = .error e := by
  refine ⟨fun h => ?_, fun h => by rw [aggregate, h]; rfl⟩
  rcases bind_eq_error.1 h with htotal | ⟨total, -, h⟩
  · exact htotal
  · obtain ⟨p, hp, -⟩ := accumulate_of_layout total (Parameters.layout_zerosLike i.previous) hi
    rw [checkShapes_eq_ok.2 hi, hp] at h
    contradiction

/-- Updates of one layout whose sample counts sum to a positive word are averaged to the weighted
mean. -/
theorem aggregate_of_layout {i : AggregationInput ℚ} {W : ℕ}
    (hlayout : ∀ e ∈ i.results.toList, e.2.params.layout = i.previous.layout)
    (hW : (i.results.values.map fun u => u.sampleCount.toNat).sum = W) (hpos : 1 ≤ W)
    (hfits : W < 2 ^ 64) :
    ∃ c, aggregate i = .ok c ∧ c.global.layout = i.previous.layout ∧
      ∀ k, c.global.flatten.getD k 0 =
        (i.results.toList.map fun e =>
          (e.2.sampleCount.toNat : ℚ) * e.2.params.flatten.getD k 0).sum / W := by
  obtain rfl : sampleTotal i.results = W := hW
  obtain ⟨p, hp, hplayout⟩ := accumulate_of_layout (UInt64.ofNat (sampleTotal i.results))
    (Parameters.layout_zerosLike i.previous) hlayout
  have hok : aggregate i = .ok ⟨p, carryOver i.results.keys i.nodeStates⟩ := by
    simp only [aggregate, bind_eq_ok]
    exact ⟨_, totalSamples_eq_ok hpos hfits, (), checkShapes_eq_ok.2 hlayout, p, hp, rfl⟩
  refine ⟨_, hok, hplayout, fun k => ?_⟩
  have hsum := coordinate_aggregate hpos hfits hok k
  rwa [sum_share_mul hfits _ (·.params.coordinate k)] at hsum

end FedAverage

theorem isFinite_rat (p : Parameters ℚ) : p.isFinite = true :=
  List.all_eq_true.2 fun _ _ => List.all_eq_true.2 fun _ _ => rfl

/-- Exact results are always finite. -/
theorem aggregate_of_ne_nil {a : Aggregator ℚ} {i : AggregationInput ℚ} (h : i.results.toList ≠ []) :
    a.aggregate i = a.combine i := by
  have hsome : i.results.isEmpty = false := List.isEmpty_eq_false_iff.2 h
  rw [Aggregator.aggregate, hsome, if_neg Bool.false_ne_true]
  cases a.combine i with
  | error e => rfl
  | ok r =>
    show (if !r.global.isFinite then _ else _) = _
    rw [isFinite_rat]
    rfl

end Federation
