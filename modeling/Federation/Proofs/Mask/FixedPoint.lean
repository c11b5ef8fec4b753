import Mathlib.Algebra.BigOperators.Field
import Mathlib.Algebra.Order.BigOperators.Group.Finset
import Mathlib.Algebra.Order.Field.Basic
import Mathlib.Tactic.Linarith
import Mathlib.Tactic.Ring
import Mathlib.Tactic.FieldSimp
import Federation.Proofs.Rational
import Federation.Proofs.Mask.Cancellation
import Federation.Word
/-!
# Sums in fixed point

Each party rounds its weighted values to whole multiples of the resolution. As long as the total weight
is at most the greatest one, the sum of the rounded values stays in the range of two's complement words.
So it is read back from the sum of the words, and it is off by half a unit for each party at most.
-/

open Finset

namespace Federation

/-! ## 1. Words -/

namespace Word

theorem ofInt_add (a b : Int) : ofInt (a + b) = ofInt a + ofInt b := by
  apply UInt64.toNat_inj.1
  rw [UInt64.toNat_add]
  simp only [ofInt, UInt64.toNat_ofNat']
  show ((a + b) % 18446744073709551616).toNat % 18446744073709551616 =
    ((a % 18446744073709551616).toNat % 18446744073709551616 +
      (b % 18446744073709551616).toNat % 18446744073709551616) % 18446744073709551616
  omega

theorem sum_ofInt {ι : Type} (s : Finset ι) (f : ι → Int) :
    ∑ i ∈ s, ofInt (f i) = ofInt (∑ i ∈ s, f i) := by
  classical
  induction s using Finset.induction_on with
  | empty => rfl
  | insert a s ha ih => rw [sum_insert ha, sum_insert ha, ih, ofInt_add]

/-- A whole number in the range of two's complement words is read back from its word. -/
theorem toInt_ofInt {i : Int} (h : |i| ≤ 2 ^ 63 - 1) : toInt (ofInt i) = i := by
  have hi := abs_le.1 h
  have hword : (ofInt i).toNat = (i % 18446744073709551616).toNat := by
    simp only [ofInt, UInt64.toNat_ofNat']
    show (i % 18446744073709551616).toNat % 18446744073709551616 = _
    omega
  unfold toInt signBit
  rw [hword]
  show (if (i % 18446744073709551616).toNat < 9223372036854775808 then
    ((i % 18446744073709551616).toNat : Int) else
    ((i % 18446744073709551616).toNat : Int) - 18446744073709551616) = i
  split <;> omega

end Word

/-! ## 2. Rounding -/

/-- Within the range of words a number is rounded to a whole one that is not farther from zero than the
whole numbers that enclose it, and at most one half away. -/
theorem round_near {x : ℚ} {b : Int} (hx : |x| ≤ b) (hb : b ≤ 2 ^ 63 - 1) :
    |Scalar.round x| ≤ b ∧ |(Scalar.round x : ℚ) - x| ≤ 1 / 2 := by
  obtain ⟨hlow, hhigh⟩ := abs_le.1 hx
  have hround : ∃ z : Int, (if x < 0 then ⌈x - 1 / 2⌉ else ⌊x + 1 / 2⌋) = z ∧
      -b ≤ z ∧ z ≤ b ∧ x - 1 / 2 ≤ z ∧ z ≤ x + 1 / 2 := by
    by_cases h : x < 0
    · have hceil := Int.le_ceil (x - 1 / 2)
      have hceil' := Int.ceil_lt_add_one (x - 1 / 2)
      refine ⟨⌈x - 1 / 2⌉, by rw [if_pos h], ?_, ?_, hceil, by linarith⟩
      · have hlt : -b - 1 < ⌈x - 1 / 2⌉ := Int.lt_ceil.2 (by push_cast; linarith)
        omega
      · refine Int.ceil_le.2 ?_
        linarith
    · have hfloor := Int.floor_le (x + 1 / 2)
      have hfloor' := Int.lt_floor_add_one (x + 1 / 2)
      refine ⟨⌊x + 1 / 2⌋, by rw [if_neg h], ?_, ?_, by linarith, hfloor⟩
      · refine Int.le_floor.2 ?_
        push_cast
        linarith
      · have hlt : ⌊x + 1 / 2⌋ < b + 1 := Int.floor_lt.2 (by push_cast; linarith)
        omega
  obtain ⟨z, hz, hzlow, hzhigh, hnear, hnear'⟩ := hround
  have hclamped : Scalar.round x = z := by
    show clampWord (if x < 0 then ⌈x - 1 / 2⌉ else ⌊x + 1 / 2⌋) = z
    rw [hz, clampWord]
    omega
  rw [hclamped]
  exact ⟨abs_le.2 ⟨hzlow, hzhigh⟩, abs_le.2 ⟨by linarith, by linarith⟩⟩

/-! ## 3. Encoded values -/

namespace MaskConfig

variable {c : MaskConfig ℚ}

theorem validate_eq_ok {R : Type} [Scalar R] {c : MaskConfig R} : c.validate = .ok () ↔
    Scalar.isPositive c.clippingRange = true ∧
      ¬(c.fixedPointBits = 0 ∨ maxFixedPointBits < c.fixedPointBits) := by
  unfold validate
  cases hpositive : Scalar.isPositive c.clippingRange
  · simp
  · by_cases hbits : c.fixedPointBits = 0 ∨ maxFixedPointBits < c.fixedPointBits
    · simp [hbits]
    · simp [hbits]

theorem fixedPointBits_le {R : Type} [Scalar R] {c : MaskConfig R} (h : c.validate = .ok ()) :
    c.fixedPointBits.toNat ≤ 40 :=
  Nat.not_lt.1 fun hlt => (validate_eq_ok.1 h).2 (Or.inr hlt)

theorem scale_eq (c : MaskConfig ℚ) : c.scale = 2 ^ (c.fixedPointBits.toNat % 64) := by
  show ((Nat.pow 2 (c.fixedPointBits.toNat % 64) : ℕ) : ℤ) = (2 ^ (c.fixedPointBits.toNat % 64) : ℚ)
  simp

theorem scale_pos (c : MaskConfig ℚ) : 0 < c.scale := by
  rw [scale_eq]
  positivity

theorem elementBound_eq (c : MaskConfig ℚ) : c.elementBound = max c.clippingRange 1 := by
  unfold elementBound Scalar.greater Scalar.isUndefined
  simp only [beq_self_eq_true, Bool.not_true, Bool.false_eq_true, if_false]
  split
  next h => exact (max_eq_right h.le).symm
  next h => exact (max_eq_left (not_lt.1 h)).symm

theorem clip_eq (c : MaskConfig ℚ) (x : ℚ) :
    c.clip x = min (max x (-c.clippingRange)) c.clippingRange := by
  have hgreater : Scalar.greater x (-c.clippingRange) = max x (-c.clippingRange) := by
    unfold Scalar.greater Scalar.isUndefined
    simp only [beq_self_eq_true, Bool.not_true, Bool.false_eq_true, if_false]
    split
    next h => exact (max_eq_right h.le).symm
    next h => exact (max_eq_left (not_lt.1 h)).symm
  unfold clip
  rw [hgreater]
  unfold Scalar.smaller Scalar.isUndefined
  simp only [beq_self_eq_true, Bool.not_true, Bool.false_eq_true, if_false]
  split
  next h => exact (min_eq_right h.le).symm
  next h => exact (min_eq_left (not_lt.1 h)).symm

theorem clippingRange_pos (h : c.validate = .ok ()) : 0 < c.clippingRange := by
  have hpositive := (validate_eq_ok.1 h).1
  rw [Scalar.isPositive, Bool.and_eq_true, decide_eq_true_eq] at hpositive
  exact hpositive.2

/-- A clipped value is within the bound of the elements. -/
theorem abs_clip_le (h : c.validate = .ok ()) (x : ℚ) : |c.clip x| ≤ c.elementBound := by
  have hpos := clippingRange_pos h
  rw [clip_eq, elementBound_eq, abs_le]
  constructor
  · have hle : -c.clippingRange ≤ min (max x (-c.clippingRange)) c.clippingRange :=
      le_min (le_max_right _ _) (by linarith)
    have hmax := le_max_left c.clippingRange 1
    linarith
  · exact (min_le_right _ _).trans (le_max_left _ _)

/-- With the greatest total weight the sums do not leave the range of two's complement words. -/
theorem weighted_bound {W : ℕ} (hpos : 1 ≤ W) (hmax : W ≤ c.maxTotalWeight.toNat) :
    (W : ℤ) * ⌈c.elementBound * c.scale⌉ ≤ 2 ^ 63 - 1 := by
  have hnonneg : 0 ≤ c.elementBound * c.scale := by
    have hone : (0 : ℚ) ≤ c.elementBound := by
      rw [elementBound_eq]
      exact le_max_of_le_right zero_le_one
    exact mul_nonneg hone c.scale_pos.le
  have hceil : 0 ≤ ⌈c.elementBound * c.scale⌉ := Int.ceil_nonneg hnonneg
  obtain ⟨b, hb⟩ := Int.eq_ofNat_of_zero_le hceil
  have hweight : c.maxTotalWeight.toNat = (2 ^ 63 - 1) / max (min (2 ^ 64 - 1) b) 1 := by
    have hscalar : Scalar.ceil (c.elementBound * c.scale) = min (2 ^ 64 - 1) b := by
      show min (2 ^ 64 - 1) ⌈c.elementBound * c.scale⌉.toNat = _
      rw [hb]
      rfl
    unfold maxTotalWeight
    dsimp only
    rw [hscalar, UInt64.toNat_ofNat']
    refine Nat.mod_eq_of_lt ?_
    calc (Word.signBit - 1) / max (min (2 ^ 64 - 1) b) 1 ≤ Word.signBit - 1 := Nat.div_le_self _ _
      _ < 2 ^ 64 := by decide
  rw [hweight] at hmax
  have hprod : W * max (min (2 ^ 64 - 1) b) 1 ≤ 2 ^ 63 - 1 :=
    (Nat.le_div_iff_mul_le (by omega)).1 hmax
  -- the bound itself is below the cap, since a weight of one is admitted
  have hbound : b ≤ max (min (2 ^ 64 - 1) b) 1 := by
    have hle : max (min (2 ^ 64 - 1) b) 1 ≤ 2 ^ 63 - 1 :=
      (Nat.le_mul_of_pos_left _ hpos).trans hprod
    omega
  have hle : W * b ≤ 2 ^ 63 - 1 := (Nat.mul_le_mul_left W hbound).trans hprod
  rw [hb, ← Nat.cast_mul]
  generalize W * b = n at hle
  omega

/-- The weighted value of a party in units of the resolution, before it becomes a word. -/
def units {R : Type} [Scalar R] (c : MaskConfig R) (weight : UInt64) (x : R) : Int :=
  Scalar.round (Scalar.ofCount weight * x * c.scale)

theorem ofCount_eq (n : UInt64) : (Scalar.ofCount n : ℚ) = n.toNat := by
  show (((n.toNat : ℕ) : ℤ) : ℚ) = n.toNat
  simp

theorem units_near {weight : UInt64} {x : ℚ} {W : ℕ} (hx : |x| ≤ c.elementBound) (hpos : 1 ≤ W)
    (hmax : W ≤ c.maxTotalWeight.toNat) (hw : weight.toNat ≤ W) :
    |c.units weight x| ≤ weight.toNat * ⌈c.elementBound * c.scale⌉ ∧
      |(c.units weight x : ℚ) - weight.toNat * x * c.scale| ≤ 1 / 2 := by
  have hscale := c.scale_pos
  have hnonneg : 0 ≤ ⌈c.elementBound * c.scale⌉ :=
    Int.ceil_nonneg (mul_nonneg ((abs_nonneg x).trans hx) hscale.le)
  have habs : |(weight.toNat : ℚ) * x * c.scale| ≤
      ((weight.toNat * ⌈c.elementBound * c.scale⌉ : ℤ) : ℚ) := by
    have hcast : (0 : ℚ) ≤ weight.toNat := Nat.cast_nonneg _
    have hceil := Int.le_ceil (c.elementBound * c.scale)
    rw [abs_mul, abs_mul, abs_of_nonneg hcast, abs_of_pos hscale, mul_assoc]
    push_cast
    refine mul_le_mul_of_nonneg_left ?_ hcast
    exact (mul_le_mul_of_nonneg_right hx hscale.le).trans hceil
  have hbound : (weight.toNat : ℤ) * ⌈c.elementBound * c.scale⌉ ≤ 2 ^ 63 - 1 := by
    refine le_trans ?_ (weighted_bound hpos hmax)
    exact mul_le_mul_of_nonneg_right (by exact_mod_cast hw) hnonneg
  rw [units, ofCount_eq]
  exact round_near habs hbound

variable {parties : Finset NodeId} {weight : NodeId → UInt64}

theorem weight_le_sum {i : NodeId} (hi : i ∈ parties) :
    (weight i).toNat ≤ ∑ j ∈ parties, (weight j).toNat :=
  single_le_sum (f := fun j => (weight j).toNat) (fun j _ => Nat.zero_le (weight j).toNat) hi

/-- No sum of words wraps around, so that the units of all parties are decoded. -/
theorem decode_sum_eq (hpos : 1 ≤ ∑ i ∈ parties, (weight i).toNat)
    (hmax : ∑ i ∈ parties, (weight i).toNat ≤ c.maxTotalWeight.toNat) {x : NodeId → ℚ}
    (hx : ∀ i ∈ parties, |x i| ≤ c.elementBound) :
    c.decode (∑ i ∈ parties, c.encodeUnclipped (weight i) (x i)) =
      ((∑ i ∈ parties, c.units (weight i) (x i) : ℤ) : ℚ) / c.scale := by
  have hsum : |∑ i ∈ parties, c.units (weight i) (x i)| ≤ 2 ^ 63 - 1 := by
    calc |∑ i ∈ parties, c.units (weight i) (x i)|
        ≤ ∑ i ∈ parties, |c.units (weight i) (x i)| := abs_sum_le_sum_abs _ _
      _ ≤ ∑ i ∈ parties, ((weight i).toNat : ℤ) * ⌈c.elementBound * c.scale⌉ :=
          sum_le_sum fun i hi =>
            (units_near (hx i hi) hpos hmax (weight_le_sum hi)).1
      _ = ((∑ i ∈ parties, (weight i).toNat : ℕ) : ℤ) * ⌈c.elementBound * c.scale⌉ := by
          rw [← sum_mul]
          push_cast
          rfl
      _ ≤ 2 ^ 63 - 1 := weighted_bound hpos hmax
  have hword : ∑ i ∈ parties, c.encodeUnclipped (weight i) (x i) =
      Word.ofInt (∑ i ∈ parties, c.units (weight i) (x i)) := Word.sum_ofInt _ _
  rw [hword]
  show ((Word.toInt _ : ℤ) : ℚ) / c.scale = _
  rw [Word.toInt_ofInt hsum]

/-- Every party rounds by half a unit at most. -/
theorem sum_units_near (hpos : 1 ≤ ∑ i ∈ parties, (weight i).toNat)
    (hmax : ∑ i ∈ parties, (weight i).toNat ≤ c.maxTotalWeight.toNat) {x : NodeId → ℚ}
    (hx : ∀ i ∈ parties, |x i| ≤ c.elementBound) :
    |((∑ i ∈ parties, c.units (weight i) (x i) : ℤ) : ℚ) -
      (∑ i ∈ parties, ((weight i).toNat : ℚ) * x i) * c.scale| ≤ parties.card / 2 := by
  push_cast
  rw [sum_mul, ← sum_sub_distrib]
  calc |∑ i ∈ parties, ((c.units (weight i) (x i) : ℚ) - (weight i).toNat * x i * c.scale)|
      ≤ ∑ i ∈ parties, |(c.units (weight i) (x i) : ℚ) - (weight i).toNat * x i * c.scale| :=
        abs_sum_le_sum_abs _ _
    _ ≤ ∑ i ∈ parties, (1 / 2 : ℚ) := sum_le_sum fun i hi =>
        (units_near (hx i hi) hpos hmax (weight_le_sum hi)).2
    _ = parties.card / 2 := by
        rw [sum_const, nsmul_eq_mul]
        ring

/-- The sum of the encoded values is decoded to their weighted mean, up to half a unit for each
party. -/
theorem decode_sum_near (hpos : 1 ≤ ∑ i ∈ parties, (weight i).toNat)
    (hmax : ∑ i ∈ parties, (weight i).toNat ≤ c.maxTotalWeight.toNat) {x : NodeId → ℚ}
    (hx : ∀ i ∈ parties, |x i| ≤ c.elementBound) :
    |c.decode (∑ i ∈ parties, c.encodeUnclipped (weight i) (x i)) /
        ((∑ i ∈ parties, (weight i).toNat : ℕ) : ℚ) -
      (∑ i ∈ parties, ((weight i).toNat : ℚ) * x i) / ((∑ i ∈ parties, (weight i).toNat : ℕ) : ℚ)| ≤
      parties.card / (2 * ((∑ i ∈ parties, (weight i).toNat : ℕ) : ℚ) * c.scale) := by
  have herror := sum_units_near hpos hmax hx
  rw [decode_sum_eq hpos hmax hx]
  generalize ∑ i ∈ parties, (weight i).toNat = W at *
  generalize (∑ i ∈ parties, ((weight i).toNat : ℚ) * x i) = mean at *
  generalize ((∑ i ∈ parties, c.units (weight i) (x i) : ℤ) : ℚ) = units at *
  have hscale := c.scale_pos
  have hWpos : (0 : ℚ) < W := by exact_mod_cast hpos
  have hsplit : units / c.scale / W - mean / W = (units - mean * c.scale) / (c.scale * W) := by
    field_simp
  rw [hsplit, abs_div, abs_of_pos (mul_pos hscale hWpos), div_le_div_iff₀ (by positivity) (by positivity)]
  calc |units - mean * c.scale| * (2 * W * c.scale) ≤ parties.card / 2 * (2 * W * c.scale) := by gcongr
    _ = parties.card * (c.scale * W) := by ring

end MaskConfig

end Federation
