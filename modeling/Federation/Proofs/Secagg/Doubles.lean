import Federation.Proofs.Binary64.Division
import Federation.Proofs.Mask.Doubles
import Federation.Proofs.Secagg.Verdict
/-!
# Verdicts on doubles

What is unmasked is finite, and the tolerance is defined. So a verification element that is not beyond the
tolerance is within it, as long as the random value of the round is defined. If it is not, then no
verification element is beyond the tolerance, and every mean passes.
-/

namespace Federation

open Binary64

/-! ## 1. Decoded values -/

theorem abs_value_toFloat_le (n : UInt64) :
    n.toFloat.isFinite = true ∧ |value n.toFloat| ≤ 2 ^ (64 : Int) := by
  have hle : (n.toNat : ℚ) ≤ (1 : Nat) * 2 ^ (64 : Int) := by
    rw [Nat.cast_one, one_mul]
    exact_mod_cast n.toNat_lt.le
  have hbound := (toFloat_roundsTo n).abs_value_le (by decide) (by decide) hle (by
    rw [Nat.cast_one, one_mul]
    exact zpow_lt_zpow_right₀ one_lt_two (by decide))
  rwa [Nat.cast_one, one_mul] at hbound

theorem one_le_abs_value_toFloat {n : UInt64} (h : 1 ≤ n.toNat) : 1 ≤ |value n.toFloat| := by
  have hle : (n.toNat : ℚ) ≤ 2 ^ (1022 : Int) := by
    have hword : (n.toNat : ℚ) ≤ 2 ^ (64 : Int) := by exact_mod_cast n.toNat_lt.le
    exact hword.trans (zpow_le_zpow_right₀ one_le_two (by decide))
  have hone := (toFloat_roundsTo n).le_abs_value (k := 1) (j := 0) (by decide) (by decide)
    (by simpa using h) hle
  simpa using hone

/-- Dividing by one or more keeps a bound that is a double. -/
theorem abs_value_div_le {x y : Float} {j : Int} (hx : x.isFinite = true ∧ |value x| ≤ 2 ^ j)
    (hy : y.isFinite = true ∧ 1 ≤ |value y|) (hj : minExponent ≤ j) (hlt : j < 1023) :
    (x / y).isFinite = true ∧ |value (x / y)| ≤ 2 ^ j := by
  have hpos : 0 < |value y| := zero_lt_one.trans_le hy.2
  have hle : |value x| / |value y| ≤ (1 : Nat) * 2 ^ j := by
    rw [Nat.cast_one, one_mul]
    exact (div_le_self (abs_nonneg _) hy.2).trans hx.2
  have hbound := (div_roundsTo hx.1 hy.1 (abs_pos.1 hpos)).abs_value_le (by decide) hj hle (by
    rw [Nat.cast_one, one_mul]
    exact zpow_lt_zpow_right₀ one_lt_two hlt)
  rwa [Nat.cast_one, one_mul] at hbound

theorem abs_value_nearestDouble_le (i : Int) :
    (nearestDouble i).isFinite = true ∧ |value (nearestDouble i)| ≤ 2 ^ (64 : Int) := by
  obtain ⟨hfinite, hle⟩ := abs_value_toFloat_le (UInt64.ofNat i.natAbs)
  unfold nearestDouble
  split
  · obtain ⟨hneg, hvalue⟩ := value_neg hfinite
    rw [hvalue, abs_neg]
    exact ⟨hneg, hle⟩
  · exact ⟨hfinite, hle⟩

namespace MaskConfig

theorem one_le_abs_value_scale (c : MaskConfig Float) : 1 ≤ |value c.scale| := by
  rw [(value_scale c).2, abs_of_pos (zpow_pos two_pos _)]
  exact one_le_zpow₀ one_le_two (Int.natCast_nonneg _)

theorem abs_value_decode_le (c : MaskConfig Float) (w : UInt64) :
    (c.decode w).isFinite = true ∧ |value (c.decode w)| ≤ 2 ^ (64 : Int) :=
  abs_value_div_le (abs_value_nearestDouble_le _) ⟨(value_scale c).1, c.one_le_abs_value_scale⟩ (by decide)
    (by decide)

theorem value_resolution (c : MaskConfig Float) : c.resolution.isFinite = true ∧ value c.resolution ≠ 0 := by
  have hpos : (0 : ℚ) < 2 ^ ((c.fixedPointBits.toNat % 64 : Nat) : Int) := zpow_pos two_pos _
  obtain ⟨hscale, hvalue⟩ := value_scale c
  have hround := div_roundsTo value_one.1 hscale (hvalue ▸ hpos.ne')
  have hr : |value 1.0| / |value c.scale| =
      (1 : Nat) * 2 ^ (-((c.fixedPointBits.toNat % 64 : Nat) : Int)) := by
    rw [value_one.2, hvalue, abs_one, abs_of_pos hpos, Nat.cast_one, one_mul, zpow_neg, one_div]
  have hlt : |value 1.0| / |value c.scale| < 2 ^ (1023 : Int) := by
    rw [hr, Nat.cast_one, one_mul]
    exact zpow_lt_zpow_right₀ one_lt_two (by omega)
  obtain ⟨hfinite, hresolution⟩ := hround.value_eq (by decide) (by unfold minExponent; omega) hr hlt
  refine ⟨hfinite, fun hzero => ?_⟩
  have habs : |value c.resolution| = |value 1.0| / |value c.scale| := by
    show |value (1.0 / c.scale)| = _
    rw [hresolution, abs_mul, abs_sgn, one_mul, abs_div, abs_abs, abs_abs]
  rw [hzero, abs_zero, hr, Nat.cast_one, one_mul] at habs
  exact (zpow_pos (two_pos (α := ℚ)) _).ne habs

end MaskConfig

/-! ## 2. Deviations -/

namespace SecaggRound

variable {r : SecaggRound Float} {masked : NameMap (MaskedVector × UInt64)} {layout : Parameters Float}

theorem isFinite_unmaskedAt (hu : r.Unmaskable masked layout) (k : Nat) :
    (r.unmaskedAt masked k).isFinite = true := by
  have hbounded := hu.bounded.trans_lt r.config.maxTotalWeight.toNat_lt
  have hweight : 1 ≤ (UInt64.ofNat (weightOf masked.toList)).toNat := by
    rw [UInt64.toNat_ofNat_of_lt' hbounded]
    exact hu.positive
  rw [unmaskedAt, ofCount_double]
  exact (abs_value_div_le (r.config.abs_value_decode_le _)
    ⟨(abs_value_toFloat_le _).1, one_le_abs_value_toFloat hweight⟩ (by decide) (by decide)).1

theorem isNaN_magnitude (x : Float) : (Scalar.magnitude x).isNaN = x.isNaN := by
  unfold Scalar.magnitude
  split
  · exact isNaN_neg x
  · rfl

theorem isNaN_deviation (hrandom : r.random.isNaN = false) (hu : r.Unmaskable masked layout) :
    (r.deviation masked layout).isNaN = false :=
  (isNaN_magnitude _).trans (isNaN_sub (isFinite_unmaskedAt hu _) hrandom)

theorem isNaN_tolerance (r : SecaggRound Float) : r.tolerance.isNaN = false := by
  obtain ⟨hfinite, hzero⟩ := r.config.value_resolution
  exact isNaN_mul (isNaN_add (abs_value_nearestDouble_le _).1 (isNaN_of_isFinite value_one.1)) hfinite hzero

/-- With a defined random value, what is not beyond the tolerance is within it. -/
theorem not_tolerance_lt_iff (hrandom : r.random.isNaN = false) (hu : r.Unmaskable masked layout) :
    ¬r.tolerance < r.deviation masked layout ↔ r.deviation masked layout ≤ r.tolerance :=
  not_lt_iff_le r.isNaN_tolerance (isNaN_deviation hrandom hu)

/-- With an undefined random value, whatever can be unmasked passes. -/
theorem aggregate_of_isNaN (hrandom : r.random.isNaN = true) (hu : r.Unmaskable masked layout)
    {p : Parameters Float} (hp : r.IsMean masked layout p) : r.aggregate masked layout = .ok p := by
  have hdeviation : (r.deviation masked layout).isNaN = true :=
    (isNaN_magnitude _).trans (isNaN_sub_of_isNaN _ hrandom)
  rw [aggregate_of_unmaskable hu hp, if_neg (not_lt_of_isNaN _ hdeviation)]

end SecaggRound

end Federation
