import Mathlib.Algebra.Order.BigOperators.Group.List
import Federation.Proofs.Aggregation.Mean
/-!
# What federated averaging depends on

In exact arithmetic the weights of the results are the shares of the samples, and the new parameters are
determined by the updates of the nodes that have samples, in any order and under any names.
-/

namespace Federation

/-- The updates that count, with their sample counts: those of the nodes that have samples. -/
def contributions (results : NameMap (NodeUpdate ℚ)) : List (ℕ × Parameters ℚ) :=
  (results.values.filter fun u => 0 < u.sampleCount).map fun u => (u.sampleCount.toNat, u.params)

/-- Weights which are the shares of the samples. -/
structure Shares (results : NameMap (NodeUpdate ℚ)) (w : NameMap ℚ) : Prop where
  keys : w.keys = results.keys
  total : w.values.sum = 1
  proportional : ∀ node u, results.find? node = some u →
    w.find? node = some ((u.sampleCount.toNat : ℚ) / sampleTotal results)

/-- Parameters which are the mean of the results, weighted by the sample counts. -/
structure IsWeightedMean (results : NameMap (NodeUpdate ℚ)) (mean : Parameters ℚ) : Prop where
  value : ∀ k, mean.coordinate k = (results.values.map fun u =>
    (u.sampleCount.toNat : ℚ) * u.params.coordinate k).sum / sampleTotal results
  -- Every value lies between two that nodes with samples returned.
  least : ∀ k, ∃ u ∈ results.values, 0 < u.sampleCount ∧ u.params.coordinate k ≤ mean.coordinate k
  greatest : ∀ k, ∃ u ∈ results.values, 0 < u.sampleCount ∧ mean.coordinate k ≤ u.params.coordinate k

variable {results results' : NameMap (NodeUpdate ℚ)}

/-! ## 1. Contributions -/

/-- Where updates without samples do not count, a sum over the results is one over the contributions. -/
theorem sum_contributions {f : ℕ → Parameters ℚ → ℚ} (hf : ∀ p, f 0 p = 0) :
    ((contributions results).map fun e => f e.1 e.2).sum =
      (results.values.map fun u => f u.sampleCount.toNat u.params).sum := by
  unfold contributions
  induction results.values with
  | nil => rfl
  | cons u l ih =>
    by_cases hu : 0 < u.sampleCount
    · simp only [List.filter_cons, hu, decide_true, if_true, List.map_cons, List.sum_cons, ih]
    · have hzero : u.sampleCount.toNat = 0 := Nat.eq_zero_of_not_pos hu
      simp only [List.filter_cons, hu, decide_false, Bool.false_eq_true, if_false, ih, List.map_cons,
        List.sum_cons, hzero, hf, zero_add]

theorem sum_counts : ((contributions results).map fun e => (e.1 : ℚ)).sum = sampleTotal results := by
  rw [sum_contributions (f := fun n _ => (n : ℚ)) fun _ => Nat.cast_zero, sampleTotal, Nat.cast_list_sum,
    List.map_map]
  rfl

/-- The sum of the values at a position, weighted by the counts. -/
theorem sum_weighted (k : ℕ) : ((contributions results).map fun e => (e.1 : ℚ) * e.2.coordinate k).sum =
    (results.values.map fun u => (u.sampleCount.toNat : ℚ) * u.params.coordinate k).sum :=
  sum_contributions (f := fun n p => (n : ℚ) * p.coordinate k) fun _ => by rw [Nat.cast_zero, zero_mul]

theorem sampleTotal_of_perm (h : (contributions results').Perm (contributions results)) :
    sampleTotal results' = sampleTotal results := by
  have hsum := (h.map fun e => (e.1 : ℚ)).sum_eq
  rw [sum_counts, sum_counts] at hsum
  exact_mod_cast hsum

theorem exists_of_mem_contributions {e : ℕ × Parameters ℚ} (h : e ∈ contributions results) :
    0 < e.1 ∧ ∃ u ∈ results.values, 0 < u.sampleCount ∧ u.params = e.2 := by
  obtain ⟨u, hu, rfl⟩ := List.mem_map.1 h
  obtain ⟨hmem, hcount⟩ := List.mem_filter.1 hu
  exact ⟨of_decide_eq_true hcount, u, hmem, of_decide_eq_true hcount, rfl⟩

theorem contributions_ne_nil (h : 0 < sampleTotal results) : contributions results ≠ [] := by
  intro hnil
  have hsum : ((contributions results).map fun e => (e.1 : ℚ)).sum = sampleTotal results := sum_counts
  rw [hnil, List.map_nil, List.sum_nil] at hsum
  exact h.ne (by exact_mod_cast hsum)

/-! ## 2. The mean -/

/-- A weighted mean lies between two of the values that count. -/
theorem isWeightedMean_of_value (hpos : 0 < sampleTotal results) {mean : Parameters ℚ}
    (hmean : ∀ k, mean.coordinate k = (results.values.map fun u =>
      (u.sampleCount.toNat : ℚ) * u.params.coordinate k).sum / sampleTotal results) :
    IsWeightedMean results mean := by
  have hsome := contributions_ne_nil hpos
  have hscaled : ∀ k, ((contributions results).map fun e => (e.1 : ℚ) * e.2.coordinate k).sum =
      ((contributions results).map fun e => (e.1 : ℚ) * mean.coordinate k).sum := by
    intro k
    rw [List.sum_map_mul_right, sum_counts, hmean, sum_weighted,
      mul_div_cancel₀ _ (Nat.cast_ne_zero.2 hpos.ne')]
  refine ⟨hmean, fun k => ?_, fun k => ?_⟩
  · obtain ⟨e, he, hle⟩ := List.exists_le_of_sum_le hsome _ _ (hscaled k).le
    obtain ⟨hcount, u, hu, hsamples, hparams⟩ := exists_of_mem_contributions he
    exact ⟨u, hu, hsamples, hparams ▸ le_of_mul_le_mul_left hle (Nat.cast_pos.2 hcount)⟩
  · obtain ⟨e, he, hle⟩ := List.exists_le_of_sum_le hsome _ _ (hscaled k).ge
    obtain ⟨hcount, u, hu, hsamples, hparams⟩ := exists_of_mem_contributions he
    exact ⟨u, hu, hsamples, hparams ▸ le_of_mul_le_mul_left hle (Nat.cast_pos.2 hcount)⟩

/-- The contributions determine the weighted mean. -/
theorem IsWeightedMean.coordinate_of_perm {mean mean' : Parameters ℚ}
    (h : IsWeightedMean results mean) (h' : IsWeightedMean results' mean')
    (hperm : (contributions results').Perm (contributions results)) (k : ℕ) :
    mean'.coordinate k = mean.coordinate k := by
  have hsum := (hperm.map fun e => (e.1 : ℚ) * e.2.coordinate k).sum_eq
  rw [sum_weighted, sum_weighted] at hsum
  rw [h.value, h'.value, hsum, sampleTotal_of_perm hperm]

/-! ## 3. Weights -/

theorem weights_eq_error {e : AggregationError} :
    weights (R := ℚ) results = .error e ↔ totalSamples results = .error e := by
  rw [weights, bind_eq_error]
  simp [pure, Except.pure]

theorem shares_of_weights (hpos : 0 < sampleTotal results) (hfits : sampleTotal results < 2 ^ 64) :
    ∃ w, weights results = .ok w ∧ Shares results w := by
  refine ⟨_, bind_eq_ok.2 ⟨_, totalSamples_eq_ok hpos hfits, rfl⟩, SortedMap.keys_map _ _, ?_, ?_⟩
  · rw [SortedMap.values, SortedMap.map, List.map_map]
    exact sum_shares hpos hfits
  · intro node u hu
    rw [SortedMap.find?_map, hu, Option.map_some, share_ofNat hfits]

/-! ## 4. Rounds -/

variable {i j : AggregationInput ℚ}

theorem layout_of_mem_contributions (hi : i.Fits) {e : ℕ × Parameters ℚ}
    (he : e ∈ contributions i.results) : e.2.layout = i.previous.layout := by
  obtain ⟨-, u, hu, -, hparams⟩ := exists_of_mem_contributions he
  obtain ⟨⟨node, u⟩, hmem, rfl⟩ := List.mem_map.1 hu
  exact hparams ▸ hi _ hmem

/-- Results of the right layout with samples are averaged to their mean. -/
theorem isWeightedMean_of_aggregate (hi : i.Fits) (hpos : 0 < sampleTotal i.results)
    (hfits : sampleTotal i.results < 2 ^ 64) :
    ∃ r, Aggregator.fedAverage.aggregate i = .ok r ∧ r.global.layout = i.previous.layout ∧
      IsWeightedMean i.results r.global := by
  obtain ⟨c, hc, hlayout, hvalue⟩ := FedAverage.aggregate_of_layout hi rfl hpos hfits
  refine ⟨⟨c.global, c.nodeStates, .fedAverage⟩, ?_, hlayout, ?_⟩
  · rw [aggregate_of_ne_nil (toList_ne_nil hpos)]
    exact map_eq_ok.2 ⟨c, hc, rfl⟩
  · refine isWeightedMean_of_value hpos fun k => ?_
    rw [SortedMap.values, List.map_map]
    exact hvalue k

/-- The updates of the nodes that have samples determine the new parameters. -/
theorem aggregate_of_perm (hi : i.Fits) (hj : j.Fits) (hpos : 0 < sampleTotal i.results)
    (hfits : sampleTotal i.results < 2 ^ 64)
    (hperm : (contributions j.results).Perm (contributions i.results)) {mean : Parameters ℚ}
    (hlayout : mean.layout = i.previous.layout) (hmean : IsWeightedMean i.results mean) :
    ∃ r, Aggregator.fedAverage.aggregate j = .ok r ∧ r.global = mean := by
  have htotal := sampleTotal_of_perm hperm
  obtain ⟨r, hr, hrlayout, hrmean⟩ := isWeightedMean_of_aggregate hj (htotal ▸ hpos) (htotal ▸ hfits)
  refine ⟨r, hr, Parameters.ext_coordinate ?_ (hmean.coordinate_of_perm hrmean hperm)⟩
  -- the inputs share a contribution, hence the layout
  obtain ⟨e, he⟩ := List.exists_mem_of_ne_nil _ (contributions_ne_nil hpos)
  calc r.global.layout = j.previous.layout := hrlayout
    _ = e.2.layout := (layout_of_mem_contributions hj (hperm.mem_iff.2 he)).symm
    _ = i.previous.layout := layout_of_mem_contributions hi he
    _ = mean.layout := hlayout.symm

theorem fedAverage_eq_error (hsome : i.results.toList ≠ []) (hi : i.Fits) {e : AggregationError} :
    Aggregator.fedAverage.aggregate i = .error e ↔ totalSamples i.results = .error e := by
  rw [aggregate_of_ne_nil hsome]
  exact map_eq_error.trans (FedAverage.aggregate_eq_error hi)

theorem totalSamples_eq_overflow (hsome : results.toList ≠ []) :
    totalSamples results = .error .weightOverflow ↔ 2 ^ 64 ≤ sampleTotal results := by
  rw [totalSamples_of_ne_nil hsome]
  by_cases h : 2 ^ 64 ≤ sampleTotal results
  · exact ⟨fun _ => h, fun _ => if_pos h⟩
  · rw [if_neg h]
    refine ⟨fun heq => ?_, fun hover => absurd hover h⟩
    split at heq <;> cases heq

theorem totalSamples_eq_zeroWeight (hsome : results.toList ≠ []) :
    totalSamples results = .error .zeroWeight ↔ sampleTotal results = 0 := by
  rw [totalSamples_of_ne_nil hsome]
  by_cases h : sampleTotal results = 0
  · simp [h]
  · rw [if_neg h]
    refine ⟨fun heq => ?_, fun hzero => absurd hzero h⟩
    split at heq <;> cases heq

/-- Federated averaging fails only where the counts of the samples have no proper sum, and otherwise gives
the mean weighted by the shares of the samples. Only the updates of the nodes that have samples matter,
neither what the nodes are called nor from where the round started. -/
theorem fedAverage_is_weighted_mean (i : AggregationInput ℚ) (hsome : i.results.toList ≠ [])
    (hi : i.Fits) :
    ((weights (R := ℚ) i.results = .error .weightOverflow ↔ 2 ^ 64 ≤ sampleTotal i.results) ∧
      (Aggregator.fedAverage.aggregate i = .error .weightOverflow ↔ 2 ^ 64 ≤ sampleTotal i.results)) ∧
    ((weights (R := ℚ) i.results = .error .zeroWeight ↔ sampleTotal i.results = 0) ∧
      (Aggregator.fedAverage.aggregate i = .error .zeroWeight ↔ sampleTotal i.results = 0)) ∧
    (0 < sampleTotal i.results → sampleTotal i.results < 2 ^ 64 →
      (∃ w, weights i.results = .ok w ∧ Shares i.results w) ∧
      ∃ r, Aggregator.fedAverage.aggregate i = .ok r ∧ r.global.layout = i.previous.layout ∧
        IsWeightedMean i.results r.global ∧
        ∀ j : AggregationInput ℚ, j.Fits → (contributions j.results).Perm (contributions i.results) →
          ∃ r', Aggregator.fedAverage.aggregate j = .ok r' ∧ r'.global = r.global) := by
  have hover := totalSamples_eq_overflow hsome
  have hzero := totalSamples_eq_zeroWeight hsome
  refine ⟨⟨weights_eq_error.trans hover, (fedAverage_eq_error hsome hi).trans hover⟩,
    ⟨weights_eq_error.trans hzero, (fedAverage_eq_error hsome hi).trans hzero⟩, fun hpos hfits => ?_⟩
  obtain ⟨r, hr, hlayout, hmean⟩ := isWeightedMean_of_aggregate hi hpos hfits
  exact ⟨shares_of_weights hpos hfits, r, hr, hlayout, hmean,
    fun j hj hperm => aggregate_of_perm hi hj hpos hfits hperm hlayout hmean⟩

/-- Three results, one of them from a node without samples. -/
def trioInput : AggregationInput ℚ where
  results := .ofList [("idle", ⟨.ofLayers [("layer", [9, 9])], 0, .empty⟩),
    ("left", ⟨.ofLayers [("layer", [1, 2])], 1, .empty⟩),
    ("right", ⟨.ofLayers [("layer", [5, 0])], 3, .empty⟩)]
  previous := .ofLayers [("layer", [0, 7])]
  nodeStates := .empty
  trainingArgs := {}
  federationSize := 3

/-- The results that count, exchanged between their nodes in a round from other parameters. -/
def exchangedInput : AggregationInput ℚ where
  results := .ofList [("left", ⟨.ofLayers [("layer", [5, 0])], 3, .empty⟩),
    ("right", ⟨.ofLayers [("layer", [1, 2])], 1, .empty⟩)]
  previous := .ofLayers [("layer", [-1, 0])]
  nodeStates := .empty
  trainingArgs := {}
  federationSize := 2

theorem fedAverage_is_weighted_mean_trio :
    trioInput.Fits ∧ exchangedInput.Fits ∧ ∃ r r',
      Aggregator.fedAverage.aggregate trioInput = .ok r ∧
      [r.global.coordinate 0, r.global.coordinate 1] = [4, 1 / 2] ∧
      Aggregator.fedAverage.aggregate exchangedInput = .ok r' ∧ r'.global = r.global := by
  have htrio : trioInput.Fits := by decide +kernel
  have hexchanged : exchangedInput.Fits := by decide +kernel
  have hperm : (contributions exchangedInput.results).Perm (contributions trioInput.results) :=
    List.Perm.swap (1, Parameters.ofLayers [("layer", [1, 2])])
      (3, Parameters.ofLayers [("layer", [5, 0])]) []
  obtain ⟨-, r, hr, -, hmean, hsame⟩ :=
    (fedAverage_is_weighted_mean trioInput (by decide) htrio).2.2 (by decide) (by decide)
  obtain ⟨r', hr', hglobal⟩ := hsame exchangedInput hexchanged hperm
  refine ⟨htrio, hexchanged, r, r', hr, ?_, hr', hglobal⟩
  rw [hmean.value, hmean.value]
  decide +kernel

end Federation
