import Federation.Proofs.Binary64.Arithmetic
import Federation.Proofs.Mask.FixedPoint
/-!
# Sums of doubles in fixed point

The greatest total weight is computed from a whole bound on one element, but a weight is rounded to a
double before it is multiplied, and the product is rounded once more. As long as a weighted bound has at
most 53 bits neither rounding passes it. Beyond, a party may exceed its share by two units in `2^53`, so
that a total weight close to the greatest one leaves no room.
-/

namespace Federation

open Binary64

/-! ## 1. Configurations of doubles -/

theorem isUndefined_of_isFinite {x : Float} (h : x.isFinite = true) : Scalar.isUndefined x = false := by
  have hne : x ≠ Float.nan := by
    rintro rfl
    exact absurd h (by decide)
  show (!(x == x)) = false
  rw [Float.beq_self_iff.2 hne]
  rfl

theorem isNaN_of_isUndefined {x : Float} (h : Scalar.isUndefined x = false) : x.isNaN = false := by
  have hself : (x == x) = true := by
    cases hx : x == x
    · exact absurd h (by show ¬(!(x == x)) = false; rw [hx]; decide)
    · rfl
  rw [Float.isNaN_eq_decide_eq_nan]
  exact decide_eq_false (Float.beq_self_iff.1 hself)

theorem value_zero : (0.0 : Float).isFinite = true ∧ value 0.0 = 0 := by
  have hmagnitude : magnitude 0.0 = ⟨0, minExponent⟩ := by decide +kernel
  refine ⟨by decide +kernel, ?_⟩
  unfold value Magnitude.value
  rw [hmagnitude]
  norm_num

theorem value_one : (1.0 : Float).isFinite = true ∧ value 1.0 = 1 := by
  have hmagnitude : magnitude 1.0 = ⟨hiddenBit, -52⟩ := by decide +kernel
  have hsign : signOf 1.0 = .positive := if_neg (by decide +kernel)
  refine ⟨by decide +kernel, ?_⟩
  unfold value Magnitude.value
  rw [hmagnitude, hsign]
  norm_num [sgn, hiddenBit]

theorem greater_of_isFinite {x y : Float} (hx : x.isFinite = true) (hy : y.isFinite = true) :
    Scalar.greater x y = if x < y then y else x := by
  unfold Scalar.greater
  rw [isUndefined_of_isFinite hx, isUndefined_of_isFinite hy]
  rfl

theorem ofCount_double (n : UInt64) : (Scalar.ofCount n : Float) = n.toFloat := by
  show nearestDouble (n.toNat : Int) = n.toFloat
  unfold nearestDouble
  rw [if_neg (by omega), Int.natAbs_natCast, UInt64.ofNat_toNat]

namespace MaskConfig

variable {c : MaskConfig Float}

theorem valid_of_validate (h : c.validate = .ok ()) :
    c.clippingRange.isFinite = true ∧ 0 < value c.clippingRange ∧ c.fixedPointBits.toNat ≤ 40 := by
  obtain ⟨hpositive, -⟩ := validate_eq_ok.1 h
  have hbound := fixedPointBits_le h
  rw [Scalar.isPositive, Bool.and_eq_true] at hpositive
  have hlt : (0.0 : Float) < c.clippingRange := of_decide_eq_true hpositive.2
  rw [lt_iff value_zero.1 hpositive.1, value_zero.2] at hlt
  exact ⟨hpositive.1, hlt, hbound⟩

/-- A power of two that fits into a word is a double. -/
theorem value_two_pow {k : Nat} (h : k < 64) :
    (nearestDouble (Nat.pow 2 k)).isFinite = true ∧
      value (nearestDouble (Nat.pow 2 k)) = 2 ^ (k : Int) := by
  have hpow : 2 ^ k < UInt64.size := Nat.pow_lt_pow_right (by decide) h
  have hdouble : nearestDouble (Nat.pow 2 k) = (UInt64.ofNat (2 ^ k)).toFloat := by
    show nearestDouble ((2 ^ k : Nat) : Int) = _
    unfold nearestDouble
    rw [if_neg (Int.not_lt.2 (Int.natCast_nonneg _)), Int.natAbs_natCast]
  have hr : ((UInt64.ofNat (2 ^ k)).toNat : ℚ) = (1 : Nat) * 2 ^ (k : Int) := by
    rw [UInt64.toNat_ofNat_of_lt' hpow]
    push_cast
    rw [one_mul, zpow_natCast]
  obtain ⟨hfinite, hvalue⟩ := (toFloat_roundsTo _).value_eq (by decide) (by unfold minExponent; omega) hr (by
    rw [hr, Nat.cast_one, one_mul]
    exact zpow_lt_zpow_right₀ one_lt_two (by omega))
  rw [hdouble]
  refine ⟨hfinite, ?_⟩
  rw [hvalue, hr]
  norm_num [sgn]

theorem value_scale (c : MaskConfig Float) :
    c.scale.isFinite = true ∧ value c.scale = 2 ^ ((c.fixedPointBits.toNat % 64 : Nat) : Int) :=
  value_two_pow (Nat.mod_lt _ (by decide))

theorem value_scale_of_le (h : c.fixedPointBits.toNat ≤ 40) :
    c.scale.isFinite = true ∧ value c.scale = 2 ^ (c.fixedPointBits.toNat : Int) := by
  have hscale := value_scale c
  rwa [Nat.mod_eq_of_lt (by omega)] at hscale

theorem value_elementBound (h : c.validate = .ok ()) :
    c.elementBound.isFinite = true ∧ 1 ≤ value c.elementBound ∧
      value c.clippingRange ≤ value c.elementBound := by
  obtain ⟨hfinite, -, -⟩ := valid_of_validate h
  have hbound : c.elementBound = if c.clippingRange < 1.0 then 1.0 else c.clippingRange :=
    greater_of_isFinite hfinite value_one.1
  rw [hbound]
  by_cases hlt : c.clippingRange < 1.0
  · rw [if_pos hlt]
    rw [lt_iff hfinite value_one.1] at hlt
    exact ⟨value_one.1, value_one.2.ge, hlt.le⟩
  · rw [if_neg hlt]
    rw [lt_iff hfinite value_one.1, value_one.2] at hlt
    exact ⟨hfinite, not_lt.1 hlt, le_refl _⟩

/-- A clipped value is finite and within the bound of the elements. -/
theorem abs_value_clip_le (h : c.validate = .ok ()) (x : Float) :
    (c.clip x).isFinite = true ∧ |value (c.clip x)| ≤ value c.elementBound := by
  obtain ⟨hfinite, hpos, -⟩ := valid_of_validate h
  obtain ⟨-, -, hle⟩ := value_elementBound h
  obtain ⟨hneg, hvalueNeg⟩ := value_neg hfinite
  suffices hclip : (c.clip x).isFinite = true ∧ |value (c.clip x)| ≤ value c.clippingRange from
    ⟨hclip.1, hclip.2.trans hle⟩
  unfold clip
  by_cases hnan : Scalar.isUndefined x = true
  · rw [if_pos hnan]
    refine ⟨value_zero.1, ?_⟩
    show |value 0.0| ≤ _
    rw [value_zero.2, abs_zero]
    exact hpos.le
  rw [if_neg hnan]
  rw [Bool.not_eq_true] at hnan
  unfold Scalar.greater
  rw [hnan, isUndefined_of_isFinite hneg]
  simp only [Bool.false_eq_true, if_false]
  unfold Scalar.smaller
  rw [isUndefined_of_isFinite hfinite]
  by_cases hlow : x < -c.clippingRange
  · -- too small
    have hnot : ¬c.clippingRange < -c.clippingRange := by
      rw [lt_iff hfinite hneg, hvalueNeg]
      linarith
    simp only [if_pos hlow, isUndefined_of_isFinite hneg, Bool.false_eq_true, if_false, if_neg hnot]
    rw [hvalueNeg, abs_neg, abs_of_pos hpos]
    exact ⟨hneg, le_refl _⟩
  · simp only [if_neg hlow, hnan, Bool.false_eq_true, if_false]
    by_cases hhigh : c.clippingRange < x
    · -- too large
      rw [if_pos hhigh, abs_of_pos hpos]
      exact ⟨hfinite, le_refl _⟩
    · rw [if_neg hhigh]
      have hx := isFinite_of_between hneg hfinite (isNaN_of_isUndefined hnan) hlow hhigh
      rw [lt_iff hx hneg, hvalueNeg, not_lt] at hlow
      rw [lt_iff hfinite hx, not_lt] at hhigh
      exact ⟨hx, abs_le.2 ⟨hlow, hhigh⟩⟩

/-! ## 2. The bound on one element -/

/-- The whole bound on an element of weight one that the greatest total weight is computed from. -/
def unitBound {R : Type} [Scalar R] (c : MaskConfig R) : Nat :=
  max (Scalar.ceil (c.elementBound * c.scale)) 1

theorem toNat_maxTotalWeight {R : Type} [Scalar R] (c : MaskConfig R) :
    c.maxTotalWeight.toNat = (2 ^ 63 - 1) / c.unitBound :=
  UInt64.toNat_ofNat_of_lt' (lt_of_le_of_lt (Nat.div_le_self _ _) (by decide))

theorem weight_mul_le {R : Type} [Scalar R] {c : MaskConfig R} {W : Nat} (h : W ≤ c.maxTotalWeight.toNat) :
    W * c.unitBound ≤ 2 ^ 63 - 1 := by
  rw [toNat_maxTotalWeight] at h
  exact (Nat.le_div_iff_mul_le (Nat.lt_of_lt_of_le Nat.one_pos (le_max_right _ _))).1 h

/-- A double that is scaled, with the same significand. -/
theorem value_mul_zpow (x : Float) (b : Nat) :
    (magnitude x).value * 2 ^ (b : Int) = (magnitude x).m * 2 ^ ((magnitude x).q + b) := by
  rw [Magnitude.value, mul_assoc, ← zpow_add₀ two_ne_zero]

/-- If any weight is admitted then the bound of the elements is, scaled, at most the whole bound. -/
theorem elementBound_le_unitBound (h : c.validate = .ok ()) (hle : c.unitBound ≤ 2 ^ 63 - 1) :
    value c.elementBound * 2 ^ (c.fixedPointBits.toNat : Int) ≤ c.unitBound := by
  obtain ⟨hscale, hvalue⟩ := value_scale_of_le (valid_of_validate h).2.2
  obtain ⟨hfinite, hone, -⟩ := value_elementBound h
  have hpow : (0 : ℚ) < 2 ^ (c.fixedPointBits.toNat : Int) := zpow_pos two_pos _
  have hnormal := normal_magnitude hfinite
  have hround := mul_roundsTo hfinite hscale
  have hsign : signOf c.elementBound * signOf c.scale = .positive := by
    rw [signOf_of_pos (zero_lt_one.trans_le hone), signOf_of_pos (hvalue ▸ hpow)]
    rfl
  have habs : |value c.elementBound| = value c.elementBound := abs_of_pos (zero_lt_one.trans_le hone)
  rw [hsign, hvalue, abs_of_pos hpow, abs_value, value_mul_zpow] at hround
  have hj : minExponent ≤ (magnitude c.elementBound).q + c.fixedPointBits.toNat := by
    have := hnormal.le_q
    omega
  have hceil := hround.le_ceilToWord hnormal.m_lt.le hj rfl
  have hmax : ceilToWord (c.elementBound * c.scale) ≤ c.unitBound := le_max_left _ _
  rw [← habs, abs_value, value_mul_zpow]
  obtain hgreatest | hceil := hceil
  · omega
  · exact hceil.trans (by exact_mod_cast hmax)

/-! ## 3. The share of a party -/

variable {w : UInt64} {x : Float}

/-- The scale is a power of two, so that scaling does not round. -/
theorem abs_value_scaled_le (h : c.validate = .ok ()) (hx : x.isFinite = true)
    (hlt : |value x| * 2 ^ (c.fixedPointBits.toNat : Int) < 2 ^ (1023 : Int)) :
    (x * c.scale).isFinite = true ∧
      |value (x * c.scale)| ≤ |value x| * 2 ^ (c.fixedPointBits.toNat : Int) := by
  obtain ⟨hscale, hvalue⟩ := value_scale_of_le (valid_of_validate h).2.2
  have hround := mul_roundsTo hx hscale
  have hnormal := normal_magnitude hx
  have hpos : (0 : ℚ) < 2 ^ (c.fixedPointBits.toNat : Int) := zpow_pos two_pos _
  rw [hvalue, abs_of_pos hpos] at hround
  rw [abs_value x, value_mul_zpow] at hround hlt ⊢
  refine hround.abs_value_le hnormal.m_lt.le ?_ (le_refl _) hlt
  have := hnormal.le_q
  omega

theorem units_eq (c : MaskConfig Float) (w : UInt64) (x : Float) :
    c.units w x = roundToWord (w.toFloat * x * c.scale) := by
  unfold units
  rw [ofCount_double]
  rfl

/-- Without rounding a party keeps to its share. -/
theorem weighted_le (h : c.validate = .ok ()) (hle : w.toNat * c.unitBound ≤ 2 ^ 63 - 1) :
    (w.toNat : ℚ) * value c.elementBound * 2 ^ (c.fixedPointBits.toNat : Int) ≤
      (w.toNat * c.unitBound : Nat) := by
  obtain hzero | hpos := Nat.eq_zero_or_pos w.toNat
  · rw [hzero, Nat.cast_zero, zero_mul, zero_mul, Nat.zero_mul, Nat.cast_zero]
  · have hbound := elementBound_le_unitBound h ((Nat.le_mul_of_pos_left _ hpos).trans hle)
    rw [mul_assoc, Nat.cast_mul]
    exact mul_le_mul_of_nonneg_left hbound (Nat.cast_nonneg _)

/-- With 53 bits for its weighted bound, a party does not exceed its share. -/
theorem natAbs_units_le (h : c.validate = .ok ()) (hx : x.isFinite = true)
    (hbound : |value x| ≤ value c.elementBound) (hsmall : w.toNat * c.unitBound ≤ 2 ^ 53) :
    (c.units w x).natAbs ≤ w.toNat * c.unitBound := by
  have hone : 1 ≤ c.unitBound := le_max_right _ _
  have hbits := (valid_of_validate h).2.2
  have hpow : (0 : ℚ) < 2 ^ (c.fixedPointBits.toNat : Int) := zpow_pos two_pos _
  have hrange : ((w.toNat * c.unitBound : Nat) : ℚ) < 2 ^ (1023 : Int) := by
    have hshare : ((w.toNat * c.unitBound : Nat) : ℚ) ≤ 2 ^ (53 : Int) := by exact_mod_cast hsmall
    exact hshare.trans_lt (zpow_lt_zpow_right₀ one_lt_two (by decide))
  -- the weight itself is exact
  have hweight : w.toNat ≤ w.toNat * c.unitBound := Nat.le_mul_of_pos_right _ hone
  obtain ⟨hfiniteW, hvalueW⟩ := (toFloat_roundsTo w).value_eq (hweight.trans hsmall)
    (by decide : minExponent ≤ 0) (by rw [zpow_zero, mul_one])
    (lt_of_le_of_lt (by exact_mod_cast hweight) hrange)
  have habsW : |value w.toFloat| = w.toNat := by
    rw [hvalueW, abs_mul, abs_sgn, one_mul, Nat.abs_cast]
  -- the product stays below the share, which has 53 bits
  have hproduct : |value w.toFloat| * |value x| ≤
      (w.toNat * c.unitBound : Nat) * 2 ^ (-(c.fixedPointBits.toNat : Int)) := by
    rw [habsW, zpow_neg, ← div_eq_mul_inv, le_div_iff₀ hpow]
    refine le_trans ?_ (weighted_le h (hsmall.trans (by decide)))
    exact mul_le_mul_of_nonneg_right (mul_le_mul_of_nonneg_left hbound (Nat.cast_nonneg _)) hpow.le
  have hless : ((w.toNat * c.unitBound : Nat) : ℚ) * 2 ^ (-(c.fixedPointBits.toNat : Int)) ≤
      (w.toNat * c.unitBound : Nat) :=
    mul_le_of_le_one_right (Nat.cast_nonneg _) (zpow_le_one_of_nonpos₀ one_le_two (by omega))
  obtain ⟨hfiniteP, hvalueP⟩ := (mul_roundsTo hfiniteW hx).abs_value_le hsmall
    (by unfold minExponent; omega) hproduct (hless.trans_lt hrange)
  have hscaled : |value (w.toFloat * x)| * 2 ^ (c.fixedPointBits.toNat : Int) ≤
      (w.toNat * c.unitBound : Nat) := by
    rwa [zpow_neg, ← div_eq_mul_inv, le_div_iff₀ hpow] at hvalueP
  have hvalue := (abs_value_scaled_le h hfiniteP (hscaled.trans_lt hrange)).2.trans hscaled
  rw [abs_value] at hvalue
  rw [units_eq]
  exact (natAbs_roundToWord_le _).trans (Magnitude.nearestWhole_le hvalue)

/-- Two roundings leave what is at most `2^63` far from the greatest double. -/
theorem grown_lt {a : ℚ} (h : a ≤ 2 ^ 63) : a * (1 + 1 / 2 ^ 53) ^ 2 < 2 ^ (1023 : Int) := by
  have htop : (2 : ℚ) ^ (64 : Int) < 2 ^ (1023 : Int) := zpow_lt_zpow_right₀ one_lt_two (by decide)
  refine lt_of_le_of_lt ?_ htop
  norm_num at h ⊢
  linarith

/-- The weight is rounded, then its product with the value. -/
theorem product_le_grown (h : c.validate = .ok ()) (hx : x.isFinite = true)
    (hbound : |value x| ≤ value c.elementBound) (hle : w.toNat * c.unitBound ≤ 2 ^ 63 - 1)
    (hpos : 0 < w.toNat) :
    (w.toFloat * x).isFinite = true ∧ |value (w.toFloat * x)| * 2 ^ (c.fixedPointBits.toNat : Int) ≤
      (w.toNat * c.unitBound : Nat) * (1 + 1 / 2 ^ 53) ^ 2 := by
  have hone : (1 : ℚ) ≤ w.toNat := by exact_mod_cast hpos
  have hscaleOne : (1 : ℚ) ≤ 2 ^ (c.fixedPointBits.toNat : Int) := one_le_zpow₀ one_le_two (by omega)
  have hboundOne := (value_elementBound h).2.1
  have hweighted := weighted_le h hle
  have hshare : ((w.toNat * c.unitBound : Nat) : ℚ) ≤ 2 ^ 63 := by exact_mod_cast hle.trans (by decide)
  have hbare : (w.toNat : ℚ) * value c.elementBound ≤ 2 ^ 63 :=
    (le_mul_of_one_le_right (by positivity) hscaleOne).trans (hweighted.trans hshare)
  have hweight : (w.toNat : ℚ) ≤ 2 ^ 63 := (le_mul_of_one_le_right (by positivity) hboundOne).trans hbare
  have hleast : (2 : ℚ) ^ (-1022 : Int) ≤ 1 := zpow_le_one_of_nonpos₀ one_le_two (by decide)
  have honce : (w.toNat : ℚ) * (1 + 1 / 2 ^ 53) ≤ w.toNat * (1 + 1 / 2 ^ 53) ^ 2 :=
    mul_le_mul_of_nonneg_left (by norm_num) (by positivity)
  obtain ⟨hfiniteW, hvalueW⟩ := (toFloat_roundsTo w).abs_value_le_grown (le_refl _) (hleast.trans hone)
    (honce.trans_lt (grown_lt hweight))
  have hproduct : |value w.toFloat| * |value x| ≤ w.toNat * (1 + 1 / 2 ^ 53) * value c.elementBound :=
    mul_le_mul hvalueW hbound (abs_nonneg _) (by positivity)
  have hgrown : (w.toNat : ℚ) * (1 + 1 / 2 ^ 53) * value c.elementBound * (1 + 1 / 2 ^ 53) =
      w.toNat * value c.elementBound * (1 + 1 / 2 ^ 53) ^ 2 := by ring
  have hproductOne : 1 ≤ w.toNat * (1 + 1 / 2 ^ 53) * value c.elementBound :=
    one_le_mul_of_one_le_of_one_le (one_le_mul_of_one_le_of_one_le hone (by norm_num)) hboundOne
  obtain ⟨hfiniteP, hvalueP⟩ := (mul_roundsTo hfiniteW hx).abs_value_le_grown hproduct
    (hleast.trans hproductOne) (hgrown ▸ grown_lt hbare)
  rw [hgrown] at hvalueP
  refine ⟨hfiniteP, ?_⟩
  calc |value (w.toFloat * x)| * 2 ^ (c.fixedPointBits.toNat : Int)
      ≤ w.toNat * value c.elementBound * (1 + 1 / 2 ^ 53) ^ 2 * 2 ^ (c.fixedPointBits.toNat : Int) :=
        mul_le_mul_of_nonneg_right hvalueP (by positivity)
    _ = w.toNat * value c.elementBound * 2 ^ (c.fixedPointBits.toNat : Int) * (1 + 1 / 2 ^ 53) ^ 2 := by ring
    _ ≤ (w.toNat * c.unitBound : Nat) * (1 + 1 / 2 ^ 53) ^ 2 :=
        mul_le_mul_of_nonneg_right hweighted (by positivity)

/-- Two roundings add two units in `2^53` to the share of a party, and what is left is whole. -/
theorem natAbs_units_le_grown (h : c.validate = .ok ()) (hx : x.isFinite = true)
    (hbound : |value x| ≤ value c.elementBound) (hle : w.toNat * c.unitBound ≤ 2 ^ 63 - 1) :
    ((c.units w x).natAbs : ℚ) ≤ (w.toNat * c.unitBound : Nat) * (1 + 1 / 2 ^ 53) ^ 2 := by
  have hgrows : (1 : ℚ) ≤ (1 + 1 / 2 ^ 53) ^ 2 := by norm_num
  obtain hsmall | hlarge := Nat.le_total (w.toNat * c.unitBound) (2 ^ 53)
  · have hshare : ((c.units w x).natAbs : ℚ) ≤ (w.toNat * c.unitBound : Nat) :=
      Nat.cast_le.2 (natAbs_units_le h hx hbound hsmall)
    exact hshare.trans (le_mul_of_one_le_right (Nat.cast_nonneg _) hgrows)
  have hpos : 0 < w.toNat := Nat.pos_of_mul_pos_right (lt_of_lt_of_le (by decide) hlarge)
  have hshare : ((w.toNat * c.unitBound : Nat) : ℚ) ≤ 2 ^ 63 := by exact_mod_cast hle.trans (by decide)
  obtain ⟨hfiniteP, hscaled⟩ := product_le_grown h hx hbound hle hpos
  obtain ⟨hfinite, hvalue⟩ := abs_value_scaled_le h hfiniteP (hscaled.trans_lt (grown_lt hshare))
  rw [abs_value] at hvalue
  rw [units_eq]
  refine (Nat.cast_le.2 (natAbs_roundToWord_le _)).trans ?_
  -- what has more than 53 bits is whole already
  obtain hwhole | hless := le_total (2 ^ (53 : Int)) (magnitude (w.toFloat * x * c.scale)).value
  · rw [(normal_magnitude hfinite).nearestWhole_eq hwhole]
    exact hvalue.trans hscaled
  · have hrounded : (magnitude (w.toFloat * x * c.scale)).nearestWhole ≤ w.toNat * c.unitBound :=
      (Magnitude.nearestWhole_le (by exact_mod_cast hless)).trans hlarge
    exact (Nat.cast_le.2 hrounded).trans (le_mul_of_one_le_right (Nat.cast_nonneg _) hgrows)

end MaskConfig

/-! ## 4. Sums -/

theorem natAbs_sum_le {α : Type} {l : List α} {f : α → Int} {g : α → ℚ}
    (h : ∀ a ∈ l, ((f a).natAbs : ℚ) ≤ g a) : ((l.map f).sum.natAbs : ℚ) ≤ (l.map g).sum := by
  induction l with
  | nil => simp
  | cons a l ih =>
    have ha := h a List.mem_cons_self
    have hl := ih fun b hb => h b (List.mem_cons_of_mem _ hb)
    have htriangle : ((f a + (l.map f).sum).natAbs : ℚ) ≤ (f a).natAbs + (l.map f).sum.natAbs := by
      exact_mod_cast Int.natAbs_add_le _ _
    rw [List.map_cons, List.map_cons, List.sum_cons, List.sum_cons]
    linarith

theorem Word.list_sum_ofInt {α : Type} (l : List α) (f : α → Int) :
    (l.map fun a => Word.ofInt (f a)).sum = Word.ofInt (l.map f).sum := by
  induction l with
  | nil => rfl
  | cons a l ih => rw [List.map_cons, List.map_cons, List.sum_cons, List.sum_cons, ih, Word.ofInt_add]

namespace MaskConfig

variable {c : MaskConfig Float} {parties : List (UInt64 × Float)}

/-- The shares are small each, or together they leave room for what rounding adds. -/
def HasRoom (c : MaskConfig Float) (parties : List (UInt64 × Float)) : Prop :=
  (∀ p ∈ parties, p.1.toNat * c.unitBound ≤ 2 ^ 53) ∨
    (parties.map fun p => p.1.toNat).sum * c.unitBound + 2 ^ 11 ≤ 2 ^ 63 - 1

/-- With a bound of `2^11` or more, any total weight but the greatest one leaves room. -/
theorem hasRoom_of_lt (hlt : (parties.map fun p => p.1.toNat).sum < c.maxTotalWeight.toNat)
    (hbound : 2 ^ 11 ≤ c.unitBound) : c.HasRoom parties := by
  have hnext := weight_mul_le (c := c) (Nat.succ_le_of_lt hlt)
  rw [Nat.succ_mul] at hnext
  right
  omega

theorem sum_shares (c : MaskConfig Float) (parties : List (UInt64 × Float)) (a : ℚ) :
    (parties.map fun p => ((p.1.toNat * c.unitBound : Nat) : ℚ) * a).sum =
      ((parties.map fun p => p.1.toNat).sum * c.unitBound : Nat) * a := by
  induction parties with
  | nil => simp
  | cons p parties ih =>
    rw [List.map_cons, List.map_cons, List.sum_cons, List.sum_cons, ih]
    push_cast
    ring

theorem natAbs_sum_units_le (h : c.validate = .ok ())
    (hle : (parties.map fun p => p.1.toNat).sum * c.unitBound ≤ 2 ^ 63 - 1) (hroom : c.HasRoom parties) :
    (parties.map fun p => c.units p.1 (c.clip p.2)).sum.natAbs ≤ 2 ^ 63 - 1 := by
  obtain hsmall | hspare := hroom
  · have hsum := natAbs_sum_le (l := parties) (f := fun p => c.units p.1 (c.clip p.2))
      (g := fun p => ((p.1.toNat * c.unitBound : Nat) : ℚ) * 1) fun p hp => by
        obtain ⟨hfinite, hbound⟩ := abs_value_clip_le h p.2
        rw [mul_one]
        exact Nat.cast_le.2 (natAbs_units_le h hfinite hbound (hsmall p hp))
    rw [sum_shares, mul_one, Nat.cast_le] at hsum
    exact hsum.trans hle
  · have hsum := natAbs_sum_le (l := parties) (f := fun p => c.units p.1 (c.clip p.2))
      (g := fun p => ((p.1.toNat * c.unitBound : Nat) : ℚ) * (1 + 1 / 2 ^ 53) ^ 2) fun p hp => by
        obtain ⟨hfinite, hbound⟩ := abs_value_clip_le h p.2
        have hweight : p.1.toNat ≤ (parties.map fun p => p.1.toNat).sum :=
          List.le_sum_of_mem (List.mem_map_of_mem (f := fun p : UInt64 × Float => p.1.toNat) hp)
        exact natAbs_units_le_grown h hfinite hbound ((Nat.mul_le_mul_right _ hweight).trans hle)
    rw [sum_shares] at hsum
    have hnat : (parties.map fun p => p.1.toNat).sum * c.unitBound + 2 ^ 11 + 1 ≤ 2 ^ 63 := by omega
    have hshares :
        (((parties.map fun p => p.1.toNat).sum * c.unitBound : Nat) : ℚ) + 2 ^ 11 + 1 ≤ 2 ^ 63 := by
      exact_mod_cast hnat
    have hlt : ((parties.map fun p => c.units p.1 (c.clip p.2)).sum.natAbs : ℚ) < (2 ^ 63 : Nat) := by
      refine hsum.trans_lt ?_
      norm_num at hshares ⊢
      linarith
    exact Nat.le_sub_one_of_lt (Nat.cast_lt.1 hlt)

theorem toInt_encode (h : c.validate = .ok ()) {p : UInt64 × Float}
    (hle : p.1.toNat * c.unitBound ≤ 2 ^ 63 - 1) (hroom : c.HasRoom [p]) :
    Word.toInt (c.encode p.1 p.2) = c.units p.1 (c.clip p.2) := by
  have hone : ([p].map fun p => c.units p.1 (c.clip p.2)).sum.natAbs ≤ 2 ^ 63 - 1 :=
    natAbs_sum_units_le h (by simpa using hle) hroom
  rw [List.map_singleton, List.sum_singleton] at hone
  have hrange : |c.units p.1 (c.clip p.2)| ≤ 2 ^ 63 - 1 := by
    rw [Int.abs_eq_natAbs]
    omega
  exact Word.toInt_ofInt hrange

end MaskConfig

/-- A sum over several parties leaves the room that any one of them needs. -/
theorem MaskConfig.HasRoom.of_mem {c : MaskConfig Float} {parties : List (UInt64 × Float)}
    {p : UInt64 × Float} (h : c.HasRoom parties) (hp : p ∈ parties) : c.HasRoom [p] := by
  have hweight : p.1.toNat ≤ (parties.map fun p => p.1.toNat).sum :=
    List.le_sum_of_mem (List.mem_map_of_mem (f := fun p : UInt64 × Float => p.1.toNat) hp)
  obtain hsmall | hspare := h
  · exact .inl fun q hq => List.mem_singleton.1 hq ▸ hsmall p hp
  · right
    rw [List.map_singleton, List.sum_singleton]
    have := Nat.mul_le_mul_right c.unitBound hweight
    omega

/-- With room for rounding no sum of encoded doubles wraps around, so that the sum over the parties is
what is decoded. -/
theorem masked_sum_of_doubles_is_decoded {c : MaskConfig Float} (hc : c.validate = .ok ())
    {parties : List (UInt64 × Float)}
    (htotal : (parties.map fun p => p.1.toNat).sum ≤ c.maxTotalWeight.toNat) (hroom : c.HasRoom parties) :
    let total := (parties.map fun p => Word.toInt (c.encode p.1 p.2)).sum
    Word.represents total = true ∧
      ∃ s, parties.foldlM (fun s p => s.add ⟨[c.encode p.1 p.2]⟩) (MaskedSum.zero 0) = .ok s ∧
        s.sum.map Word.toInt = [total] ∧ s.sum.map c.decode = [Scalar.ofInt total / c.scale] := by
  intro total
  have hle := MaskConfig.weight_mul_le htotal
  have hmap : ∀ p ∈ parties, Word.toInt (c.encode p.1 p.2) = c.units p.1 (c.clip p.2) := fun p hp => by
    have hweight : p.1.toNat ≤ (parties.map fun p => p.1.toNat).sum :=
      List.le_sum_of_mem (List.mem_map_of_mem (f := fun p : UInt64 × Float => p.1.toNat) hp)
    exact MaskConfig.toInt_encode hc ((Nat.mul_le_mul_right _ hweight).trans hle) (hroom.of_mem hp)
  have htotal : total = (parties.map fun p => c.units p.1 (c.clip p.2)).sum :=
    congrArg List.sum (List.map_congr_left hmap)
  have hrange : |total| ≤ 2 ^ 63 - 1 := by
    have hsum := MaskConfig.natAbs_sum_units_le hc hle hroom
    rw [Int.abs_eq_natAbs, htotal]
    omega
  have hword : (parties.map fun p => c.encode p.1 p.2).sum = Word.ofInt total := by
    rw [htotal]
    exact Word.list_sum_ofInt parties fun p => c.units p.1 (c.clip p.2)
  have hvectors : ∀ p ∈ parties, (⟨[c.encode p.1 p.2]⟩ : MaskedVector).data.length = 1 := fun _ _ => rfl
  obtain ⟨s, hok, -, hlength, hsum⟩ := MaskedSum.foldlM_add (s := MaskedSum.zero 0) rfl hvectors
  obtain ⟨w, hw⟩ := List.length_eq_one_iff.1 hlength
  have hvalue : w = Word.ofInt total := by
    have hfirst := hsum 0
    rw [hw] at hfirst
    rw [← hword]
    simpa [MaskedSum.zero] using hfirst
  have htoInt : Word.toInt w = total := by
    rw [hvalue]
    exact Word.toInt_ofInt hrange
  refine ⟨?_, s, hok, ?_, ?_⟩
  · have hbounds := abs_le.1 hrange
    rw [Word.represents, decide_eq_true_eq, Word.signBit]
    omega
  · rw [hw, List.map_singleton, htoInt]
  · rw [hw, List.map_singleton, MaskConfig.decode, htoInt]

/-- Three parties, one of which is clipped. -/
theorem masked_sum_of_doubles_is_decoded_three :
    let parties : List (UInt64 × Float) := [(100, 1.5), (150, -2.25), (50, 7.0)]
    MaskConfig.standard.validate = .ok () ∧
      (parties.map fun p => p.1.toNat).sum ≤ MaskConfig.standard.maxTotalWeight.toNat ∧
      MaskConfig.standard.HasRoom parties ∧
      Word.represents (parties.map fun p => Word.toInt (MaskConfig.standard.encode p.1 p.2)).sum = true := by
  intro parties
  have hvalid : MaskConfig.standard.validate = .ok () := MaskConfig.validate_eq_ok.2 (by decide +kernel)
  have htotal : (parties.map fun p => p.1.toNat).sum ≤ MaskConfig.standard.maxTotalWeight.toNat := by
    decide +kernel
  have hroom : MaskConfig.standard.HasRoom parties := .inl (by decide +kernel)
  exact ⟨hvalid, htotal, hroom, (masked_sum_of_doubles_is_decoded hvalid htotal hroom).1⟩

/-- Two parties have the greatest total weight together. The weight of the first, `2^61 - 1`, is rounded
up to `2^61`, and the sum of their values wraps around to its opposite. -/
theorem greatest_total_weight_wraps_around :
    let c : MaskConfig Float := ⟨1.0, 1⟩
    let parties : List (UInt64 × Float) := [(2305843009213693951, 1.0), (2305843009213693952, 1.0)]
    c.validate = .ok () ∧ (parties.map fun p => p.1.toNat).sum = c.maxTotalWeight.toNat ∧
      (parties.map fun p => Word.toInt (c.encode p.1 p.2)).sum = 2 ^ 63 ∧ Word.represents (2 ^ 63) = false ∧
      Word.toInt (parties.map fun p => c.encode p.1 p.2).sum = -2 ^ 63 := by
  intro c parties
  exact ⟨MaskConfig.validate_eq_ok.2 (by decide +kernel), by decide +kernel⟩

end Federation
