import Federation.Binary64.Whole
import Federation.Proofs.Binary64.Unpacked
/-!
# Arithmetic on doubles

What an operation on doubles leaves is the double next to the exact result. So it does not pass a number
with 53 bits that the exact result does not pass, and it exceeds the exact result by half a unit of the
last place at most. The order of doubles is that of the numbers they stand for.
-/

namespace Federation.Binary64

open Float.Model Float.Model.UnpackedFloat

/-! ## 1. Values -/

def sgn : Sign → ℚ
  | .negative => -1
  | .positive => 1

theorem abs_sgn (s : Sign) : |sgn s| = 1 := by
  cases s <;> norm_num [sgn]

/-- The number that a finite double stands for. -/
def value (x : Float) : ℚ := sgn (signOf x) * (magnitude x).value

theorem Magnitude.value_nonneg (x : Magnitude) : 0 ≤ x.value := by
  unfold Magnitude.value
  positivity

theorem abs_value (x : Float) : |value x| = (magnitude x).value := by
  unfold value
  rw [abs_mul, abs_sgn, one_mul, abs_of_nonneg (magnitude x).value_nonneg]

theorem signOf_of_pos {x : Float} (h : 0 < value x) : signOf x = .positive := by
  unfold value at h
  cases hs : signOf x
  · rw [hs] at h
    have := (magnitude x).value_nonneg
    norm_num [sgn] at h
    linarith
  · rfl

theorem value_of_pack {x : Float} {z : Magnitude} {s : Sign} (hz : z.Normal)
    (h : x.toModel = Float.Model.pack (z.signed s)) : x.isFinite = true ∧ value x = sgn s * z.value := by
  have hunpack : x.toModel.unpack = z.signed s := by rw [h, unpack_pack_signed hz]
  have hfinite : x.isFinite = true := by
    show x.toModel.unpack.isFinite = true
    rw [hunpack]
    unfold Magnitude.signed
    split <;> rfl
  refine ⟨hfinite, ?_⟩
  rw [unpack_of_isFinite hfinite] at hunpack
  unfold value Magnitude.value
  unfold Magnitude.signed at hunpack
  by_cases hx : (magnitude x).m = 0 <;> by_cases hm : z.m = 0 <;>
    simp only [hx, hm, dif_pos, dif_neg, not_false_eq_true, UnpackedFloat.finite.injEq, reduceCtorEq]
      at hunpack
  · rw [hx, hm]
    norm_num
  · rw [hunpack.1, hunpack.2.1, hunpack.2.2]

theorem Magnitude.Canonical.normal {z : Magnitude} (hz : z.Canonical) (h : z.value < 2 ^ (1023 : Int)) :
    z.Normal := by
  refine ⟨hz.m_lt, hz.le_q, ?_, hz.eq_of_lt⟩
  by_cases hm : z.m < hiddenBit
  · rw [hz.eq_of_lt hm]
    decide
  · have hle : (2 : ℚ) ^ (z.q + 52) ≤ z.value := by
      rw [← hiddenBit_mul_zpow]
      exact mul_le_mul_of_nonneg_right (by exact_mod_cast Nat.not_lt.1 hm) (zpow_pos two_pos _).le
    have := (zpow_lt_zpow_iff_right₀ (one_lt_two (α := ℚ))).1 (hle.trans_lt h)
    omega

/-! ## 2. Rounded numbers -/

namespace Rounded

variable {n k : Nat} {q j : Int} {r u : ℚ}

theorem exists_multiple_of_le (k : Nat) (hq : q ≤ j) : ∃ i : Nat, (k : ℚ) * 2 ^ j = i * 2 ^ q := by
  refine ⟨k * 2 ^ (j - q).toNat, ?_⟩
  have hsplit : j = (j - q).toNat + q := by omega
  rw [Nat.cast_mul, Nat.cast_pow, mul_assoc, ← zpow_natCast, Nat.cast_ofNat, ← zpow_add₀ two_ne_zero,
    ← hsplit]

/-- A number with 53 bits that is not below `r` has its last place nowhere before that of `r`. -/
theorem exists_multiple (h : Rounded n q r) (hk : k ≤ 2 * hiddenBit) (hj : minExponent ≤ j)
    (hle : r ≤ k * 2 ^ j) : ∃ i : Nat, (k : ℚ) * 2 ^ j = i * 2 ^ q := by
  by_cases hq : q ≤ j
  · exact exists_multiple_of_le k hq
  · have hr : (2 : ℚ) ^ (q + 52) ≤ r := h.place.resolve_left (by omega)
    have hdouble : (2 : ℚ) ^ (q + 52) ≤ 2 ^ (j + 53) := by
      refine (hr.trans hle).trans ?_
      calc (k : ℚ) * 2 ^ j ≤ (2 * hiddenBit : Nat) * 2 ^ j :=
            mul_le_mul_of_nonneg_right (by exact_mod_cast hk) (zpow_pos two_pos _).le
        _ = 2 ^ (j + 53) := by rw [zpow_add₀ two_ne_zero, mul_comm]; norm_num [hiddenBit]
    have hnext : q = j + 1 := by
      have := (zpow_le_zpow_iff_right₀ (one_lt_two (α := ℚ))).1 hdouble
      omega
    subst hnext
    -- only the power of two itself is left
    have hk' : (2 * hiddenBit : Nat) ≤ k := by
      have hle' : ((2 * hiddenBit : Nat) : ℚ) * 2 ^ j ≤ k * 2 ^ j := by
        refine le_trans (le_of_eq ?_) (hr.trans hle)
        rw [show j + 1 + 52 = j + 53 by omega, zpow_add₀ two_ne_zero, mul_comm]
        norm_num [hiddenBit]
      exact_mod_cast le_of_mul_le_mul_right hle' (zpow_pos two_pos _)
    refine ⟨hiddenBit, ?_⟩
    rw [Nat.le_antisymm hk hk', zpow_add_one₀ two_ne_zero]
    push_cast
    ring

theorem scaled_le {i : Nat} (hle : r ≤ i * 2 ^ q) : r * 2 ^ (-q) ≤ i := by
  rw [zpow_neg, ← div_eq_mul_inv]
  exact (div_le_iff₀ (zpow_pos two_pos _)).2 hle

/-- Rounding does not pass a number with 53 bits. -/
theorem le_of_le (h : Rounded n q r) (hk : k ≤ 2 * hiddenBit) (hj : minExponent ≤ j)
    (hle : r ≤ k * 2 ^ j) : n * 2 ^ q ≤ (k : ℚ) * 2 ^ j := by
  obtain ⟨i, hi⟩ := h.exists_multiple hk hj hle
  rw [hi] at hle ⊢
  have hn : (n : ℚ) < i + 1 := by
    have := scaled_le hle
    have := h.nearest.low
    linarith
  have hn' : n ≤ i := Nat.lt_succ_iff.1 (by exact_mod_cast hn)
  exact mul_le_mul_of_nonneg_right (by exact_mod_cast hn') (zpow_pos two_pos _).le

/-- Nor does it fall below one. -/
theorem ge_of_ge (h : Rounded n q r) (hk : k ≤ 2 * hiddenBit) (hj : minExponent ≤ j)
    (hle : k * 2 ^ j ≤ r) : (k : ℚ) * 2 ^ j ≤ n * 2 ^ q := by
  by_cases hq : q ≤ j
  · obtain ⟨i, hi⟩ := exists_multiple_of_le k hq
    rw [hi] at hle ⊢
    have hscaled : (i : ℚ) ≤ r * 2 ^ (-q) := by
      rw [zpow_neg, ← div_eq_mul_inv]
      exact (le_div_iff₀ (zpow_pos two_pos _)).2 hle
    have hlt : (i : ℚ) < n + 1 := by
      have := h.nearest.high
      linarith
    have hin : i ≤ n := Nat.lt_succ_iff.1 (by exact_mod_cast hlt)
    exact mul_le_mul_of_nonneg_right (by exact_mod_cast hin) (zpow_pos two_pos _).le
  · -- the last place is beyond that of the number, so that all 53 bits are taken
    have hn : hiddenBit ≤ n := h.hiddenBit_le (by omega)
    calc (k : ℚ) * 2 ^ j ≤ (2 * hiddenBit : Nat) * 2 ^ j :=
          mul_le_mul_of_nonneg_right (by exact_mod_cast hk) (zpow_pos two_pos _).le
      _ = hiddenBit * 2 ^ (j + 1) := by rw [zpow_add_one₀ two_ne_zero]; push_cast; ring
      _ ≤ hiddenBit * 2 ^ q :=
          mul_le_mul_of_nonneg_left (zpow_le_zpow_right₀ one_le_two (by omega)) (Nat.cast_nonneg _)
      _ ≤ n * 2 ^ q := mul_le_mul_of_nonneg_right (by exact_mod_cast hn) (zpow_pos two_pos _).le

/-- A number with 53 bits is not rounded. -/
theorem eq_of_eq (h : Rounded n q r) (hk : k ≤ 2 * hiddenBit) (hj : minExponent ≤ j)
    (heq : r = k * 2 ^ j) : n * 2 ^ q = r := by
  obtain ⟨i, hi⟩ := h.exists_multiple hk hj heq.le
  have hscaled : r * 2 ^ (-q) = i := by
    rw [heq, hi, mul_assoc, ← zpow_add₀ two_ne_zero, add_neg_cancel, zpow_zero, mul_one]
  have hlow := h.nearest.low
  have hhigh := h.nearest.high
  rw [hscaled] at hlow hhigh
  have hle : n ≤ i := Nat.lt_succ_iff.1 (by exact_mod_cast (by linarith : (n : ℚ) < i + 1))
  have hge : i ≤ n := Nat.lt_succ_iff.1 (by exact_mod_cast (by linarith : (i : ℚ) < n + 1))
  rw [Nat.le_antisymm hle hge, ← hi, ← heq]

/-- Rounding adds half a unit of the last place at most. -/
theorem le_grown (h : Rounded n q r) (hle : r ≤ u) (hu : 2 ^ (-1022 : Int) ≤ u) :
    n * 2 ^ q ≤ u * (1 + 1 / 2 ^ 53) := by
  have hpos : (0 : ℚ) < 2 ^ q := zpow_pos two_pos _
  have hhalf : n * 2 ^ q ≤ r + 2 ^ q / 2 := by
    have hmul := mul_le_mul_of_nonneg_right h.nearest.low hpos.le
    rw [mul_assoc, ← zpow_add₀ two_ne_zero, neg_add_cancel, zpow_zero, mul_one] at hmul
    linarith
  have hplace : (2 : ℚ) ^ (q + 52) ≤ u := by
    obtain hq | hq := h.place
    · rw [hq]
      exact hu
    · exact hq.trans hle
  rw [zpow_add₀ two_ne_zero] at hplace
  norm_num at hplace ⊢
  linarith

end Rounded

/-! ## 3. Products and whole numbers -/

/-- A double next to a number, with a sign. -/
def RoundsTo (x : Float) (s : Sign) (r : ℚ) : Prop :=
  ∃ (z : Magnitude) (n : Nat) (q : Int), x.toModel = Float.Model.pack (z.signed s) ∧ z.Canonical ∧
    z.value = n * 2 ^ q ∧ Rounded n q r

theorem rounded_zero : Rounded 0 minExponent 0 :=
  ⟨⟨by norm_num, by norm_num, fun h => by omega⟩, le_refl _, .inl rfl⟩

theorem roundsTo_zero {x : Float} {s : Sign} (h : x.toModel = Float.Model.pack (.zero s)) : RoundsTo x s 0 :=
  ⟨⟨0, minExponent⟩, 0, minExponent, h, ⟨by decide, le_refl _, fun _ => rfl⟩, rfl, rounded_zero⟩

theorem le_place {x y : Magnitude} (hx : x.Normal) (hy : y.Normal) (hxm : 0 < x.m) (hym : 0 < y.m) :
    x.q + y.q ≤ place (x.m * y.m) (x.q + y.q) := by
  by_cases hlarge : hiddenBit ≤ x.m * y.m
  · have hlog : 52 ≤ (x.m * y.m).log2 := (Nat.le_log2 (Nat.mul_pos hxm hym).ne').2 hlarge
    have hlast := le_max_right minExponent (((x.m * y.m).log2 : Int) + (x.q + y.q) - 52)
    unfold place lastPlace
    omega
  · have hxlt : x.m < hiddenBit := lt_of_le_of_lt (Nat.le_mul_of_pos_right _ hym) (Nat.not_le.1 hlarge)
    have hylt : y.m < hiddenBit := lt_of_le_of_lt (Nat.le_mul_of_pos_left _ hxm) (Nat.not_le.1 hlarge)
    rw [hx.eq_of_lt hxlt, hy.eq_of_lt hylt]
    exact le_max_of_le_left (by decide)

theorem mul_roundsTo {x y : Float} (hx : x.isFinite = true) (hy : y.isFinite = true) :
    RoundsTo (x * y) (signOf x * signOf y) (|value x| * |value y|) := by
  have hmul : (x * y).toModel = Float.Model.pack (UnpackedFloat.mul Format.binary64
      ((magnitude x).signed (signOf x)) ((magnitude y).signed (signOf y))) := by
    rw [← unpack_of_isFinite hx, ← unpack_of_isFinite hy]
    rfl
  rw [abs_value, abs_value]
  have hnx := normal_magnitude hx
  have hny := normal_magnitude hy
  unfold Magnitude.signed at hmul
  by_cases hxm : (magnitude x).m = 0
  · have hzero : (magnitude x).value * (magnitude y).value = 0 := by
      unfold Magnitude.value
      rw [hxm, Nat.cast_zero, zero_mul, zero_mul]
    rw [hzero]
    refine roundsTo_zero ?_
    rw [hmul, dif_pos hxm]
    split <;> rfl
  by_cases hym : (magnitude y).m = 0
  · have hzero : (magnitude x).value * (magnitude y).value = 0 := by
      unfold Magnitude.value
      rw [hym, Nat.cast_zero, zero_mul, mul_zero]
    rw [hzero]
    refine roundsTo_zero ?_
    rw [hmul, dif_neg hxm, dif_pos hym]
    rfl
  have hxpos := Nat.pos_of_ne_zero hxm
  have hypos := Nat.pos_of_ne_zero hym
  obtain ⟨z, n, hround, hz, -, hvalue, hn⟩ := roundWithAccuracy_eq (stands_exact _)
    (.inl (Nat.mul_pos hxpos hypos)) (le_place hnx hny hxpos hypos) (signOf x * signOf y)
  refine ⟨z, n, _, ?_, hz, hvalue, ?_⟩
  · rw [hmul, dif_neg hxm, dif_neg hym, ← hround]
    rfl
  · convert hn using 1
    unfold Magnitude.value
    rw [zpow_add₀ two_ne_zero]
    push_cast
    ring

theorem log2_shiftLeft {m : Nat} (hm : 0 < m) (k : Nat) : (m <<< k).log2 = m.log2 + k := by
  have hpow : 0 < 2 ^ k := Nat.pow_pos (by decide)
  rw [Nat.shiftLeft_eq, Nat.log2_eq_iff (Nat.mul_pos hm hpow).ne', Nat.pow_add, Nat.add_right_comm,
    Nat.pow_add]
  exact ⟨Nat.mul_le_mul_right _ (Nat.log2_self_le hm.ne'), Nat.mul_lt_mul_of_pos_right Nat.lt_log2_self hpow⟩

theorem toFloat_roundsTo (n : UInt64) : RoundsTo n.toFloat .positive n.toNat := by
  have hmodel : n.toFloat.toModel =
      Float.Model.pack (UnpackedFloat.normalize Format.binary64 (n.toNat : Int) 0 .positive) := rfl
  by_cases hzero : n.toNat = 0
  · rw [hzero] at hmodel ⊢
    exact roundsTo_zero hmodel
  have hpos := Nat.pos_of_ne_zero hzero
  generalize n.toNat = m at *
  have hcompare : compare (m : Int) 0 = .gt := Int.compare_eq_gt.2 (by omega)
  -- the significand is first shifted up to 53 bits, which changes no value
  obtain ⟨k, hk⟩ : ∃ k, k = (0 - place m 0).toNat := ⟨_, rfl⟩
  have hround : UnpackedFloat.normalize Format.binary64 (m : Int) 0 .positive =
      roundWithAccuracy Format.binary64 .positive (m <<< k) (0 - (k : Int)) .exact := by
    unfold UnpackedFloat.normalize UnpackedFloat.round
    rw [hcompare, hk]
    simp only [Int.toNat_natCast, targetExponent_eq, decreaseExponent]
  have hplace : place (m <<< k) (0 - (k : Int)) = place m 0 := by
    unfold place
    rw [log2_shiftLeft hpos, Nat.cast_add]
    congr 1
    omega
  have hle : 0 - (k : Int) ≤ place (m <<< k) (0 - (k : Int)) := by
    rw [hplace]
    omega
  have hvalue : ((m <<< k : Nat) : ℚ) * 2 ^ (0 - (k : Int)) = m := by
    rw [Nat.shiftLeft_eq, Nat.cast_mul, Nat.cast_pow, Nat.cast_ofNat, mul_assoc, ← zpow_natCast,
      ← zpow_add₀ two_ne_zero, zero_sub, add_neg_cancel, zpow_zero, mul_one]
  have hshifted : 0 < m <<< k := by
    rw [Nat.shiftLeft_eq]
    positivity
  obtain ⟨z, i, hresult, hz, -, hzvalue, hi⟩ := roundWithAccuracy_eq (stands_exact _) (.inl hshifted) hle
    .positive
  rw [hvalue] at hi
  exact ⟨z, i, _, by rw [hmodel, hround, hresult], hz, hzvalue, hi⟩

namespace RoundsTo

variable {x : Float} {s : Sign} {r u : ℚ} {k : Nat} {j : Int}

theorem value_eq (h : RoundsTo x s r) (hk : k ≤ 2 * hiddenBit) (hj : minExponent ≤ j)
    (heq : r = k * 2 ^ j) (hlt : r < 2 ^ (1023 : Int)) : x.isFinite = true ∧ value x = sgn s * r := by
  obtain ⟨z, n, q, hx, hz, hvalue, hn⟩ := h
  have hr := hn.eq_of_eq hk hj heq
  rw [← hvalue] at hr
  rw [← hr] at hlt ⊢
  exact value_of_pack (hz.normal hlt) hx

theorem abs_value_le (h : RoundsTo x s r) (hk : k ≤ 2 * hiddenBit) (hj : minExponent ≤ j)
    (hle : r ≤ k * 2 ^ j) (hlt : (k : ℚ) * 2 ^ j < 2 ^ (1023 : Int)) :
    x.isFinite = true ∧ |value x| ≤ k * 2 ^ j := by
  obtain ⟨z, n, q, hx, hz, hvalue, hn⟩ := h
  have hr := hn.le_of_le hk hj hle
  rw [← hvalue] at hr
  obtain ⟨hfinite, hval⟩ := value_of_pack (hz.normal (hr.trans_lt hlt)) hx
  rw [hval, abs_mul, abs_sgn, one_mul, abs_of_nonneg z.value_nonneg]
  exact ⟨hfinite, hr⟩

theorem le_abs_value (h : RoundsTo x s r) (hk : k ≤ 2 * hiddenBit) (hj : minExponent ≤ j)
    (hle : k * 2 ^ j ≤ r) (hlt : r ≤ 2 ^ (1022 : Int)) : k * 2 ^ j ≤ |value x| := by
  obtain ⟨z, n, q, hx, hz, hvalue, hn⟩ := h
  have hlow := hn.ge_of_ge hk hj hle
  have hhigh : z.value < 2 ^ (1023 : Int) := by
    have htop := hn.le_of_le (k := 1) (by decide) (by decide : minExponent ≤ 1022) (by simpa using hlt)
    rw [hvalue]
    refine htop.trans_lt ?_
    rw [Nat.cast_one, one_mul]
    exact zpow_lt_zpow_right₀ one_lt_two (by decide)
  obtain ⟨-, hval⟩ := value_of_pack (hz.normal hhigh) hx
  rw [hval, abs_mul, abs_sgn, one_mul, abs_of_nonneg z.value_nonneg, hvalue]
  exact hlow

theorem abs_value_le_grown (h : RoundsTo x s r) (hle : r ≤ u) (hu : 2 ^ (-1022 : Int) ≤ u)
    (hlt : u * (1 + 1 / 2 ^ 53) < 2 ^ (1023 : Int)) :
    x.isFinite = true ∧ |value x| ≤ u * (1 + 1 / 2 ^ 53) := by
  obtain ⟨z, n, q, hx, hz, hvalue, hn⟩ := h
  have hr := hn.le_grown hle hu
  rw [← hvalue] at hr
  obtain ⟨hfinite, hval⟩ := value_of_pack (hz.normal (hr.trans_lt hlt)) hx
  rw [hval, abs_mul, abs_sgn, one_mul, abs_of_nonneg z.value_nonneg]
  exact ⟨hfinite, hr⟩

end RoundsTo

/-! ## 4. Order -/

theorem Magnitude.Normal.value_lt_iff {x y : Magnitude} (hx : x.Normal) (hy : y.Normal) :
    x.value < y.value ↔ x.q < y.q ∨ x.q = y.q ∧ x.m < y.m := by
  have hstep : ∀ {x y : Magnitude}, x.Normal → y.Normal → x.q < y.q → x.value < y.value := by
    intro x y hx hy hlt
    have hm : hiddenBit ≤ y.m := by
      by_contra h
      have := hy.eq_of_lt (Nat.not_le.1 h)
      have := hx.le_q
      omega
    calc x.value < (2 * hiddenBit : Nat) * 2 ^ x.q :=
          mul_lt_mul_of_pos_right (by exact_mod_cast hx.m_lt) (zpow_pos two_pos _)
      _ = hiddenBit * 2 ^ (x.q + 1) := by rw [zpow_add_one₀ two_ne_zero]; push_cast; ring
      _ ≤ hiddenBit * 2 ^ y.q :=
          mul_le_mul_of_nonneg_left (zpow_le_zpow_right₀ one_le_two hlt) (Nat.cast_nonneg _)
      _ ≤ y.value := mul_le_mul_of_nonneg_right (by exact_mod_cast hm) (zpow_pos two_pos _).le
  obtain hlt | heq | hgt := lt_trichotomy x.q y.q
  · exact ⟨fun _ => .inl hlt, fun _ => hstep hx hy hlt⟩
  · have hiff : x.value < y.value ↔ x.m < y.m := by
      unfold Magnitude.value
      rw [heq, mul_lt_mul_iff_left₀ (zpow_pos two_pos _), Nat.cast_lt]
    rw [hiff]
    constructor
    · exact fun h => .inr ⟨heq, h⟩
    · rintro (h | ⟨-, h⟩)
      · omega
      · exact h
  · constructor
    · exact fun h => absurd (h.trans (hstep hy hx hgt)) (lt_irrefl _)
    · rintro (h | ⟨h, -⟩) <;> omega

theorem compare_eq_lt_iff {x y : Magnitude} (hx : x.Normal) (hy : y.Normal) :
    (compare x.q y.q).then (compare x.m y.m) = .lt ↔ x.value < y.value := by
  rw [hx.value_lt_iff hy, Ordering.then_eq_lt, Int.compare_eq_lt, Int.compare_eq_eq, Nat.compare_eq_lt]

theorem compare_eq_gt_iff {x y : Magnitude} (hx : x.Normal) (hy : y.Normal) :
    (compare x.q y.q).then (compare x.m y.m) = .gt ↔ y.value < x.value := by
  rw [hy.value_lt_iff hx, Ordering.then_eq_gt, Int.compare_eq_gt, Int.compare_eq_eq, Nat.compare_eq_gt,
    eq_comm]

theorem signed_lt_iff {x y : Magnitude} (hx : x.Normal) (hy : y.Normal) (s t : Sign) :
    (x.signed s).lt (y.signed t) = true ↔ sgn s * x.value < sgn t * y.value := by
  have hpos : ∀ {z : Magnitude}, z.m ≠ 0 → 0 < z.value := fun h =>
    mul_pos (by exact_mod_cast Nat.pos_of_ne_zero h) (zpow_pos two_pos _)
  have hzero : ∀ {z : Magnitude}, z.m = 0 → z.value = 0 := fun h => by
    unfold Magnitude.value
    rw [h, Nat.cast_zero, zero_mul]
  unfold Magnitude.signed
  by_cases hxm : x.m = 0 <;> by_cases hym : y.m = 0
  · rw [dif_pos hxm, dif_pos hym, hzero hxm, hzero hym]
    cases s <;> cases t <;> norm_num [UnpackedFloat.lt, UnpackedFloat.compare]
  · rw [dif_pos hxm, dif_neg hym, hzero hxm]
    have := hpos hym
    cases s <;> cases t <;> simp [UnpackedFloat.lt, UnpackedFloat.compare, sgn, this, this.le]
  · rw [dif_neg hxm, dif_pos hym, hzero hym]
    have := hpos hxm
    cases s <;> cases t <;> simp [UnpackedFloat.lt, UnpackedFloat.compare, sgn, this, this.le]
  · rw [dif_neg hxm, dif_neg hym]
    have hxpos := hpos hxm
    have hypos := hpos hym
    cases s <;> cases t
    · show ((some ((compare x.q y.q).then (compare x.m y.m)).swap == some .lt) = true) ↔
        -1 * x.value < -1 * y.value
      rw [beq_iff_eq, Option.some_inj, Ordering.swap_eq_lt, compare_eq_gt_iff hx hy]
      constructor <;> intro h <;> linarith
    · refine iff_of_true rfl ?_
      show -1 * x.value < 1 * y.value
      linarith
    · refine iff_of_false Bool.false_ne_true (not_lt.2 ?_)
      show -1 * y.value ≤ 1 * x.value
      linarith
    · show ((some ((compare x.q y.q).then (compare x.m y.m)) == some .lt) = true) ↔
        1 * x.value < 1 * y.value
      rw [beq_iff_eq, Option.some_inj, compare_eq_lt_iff hx hy, one_mul, one_mul]

theorem lt_unpack (x y : Float) : x < y ↔ x.toModel.unpack.lt y.toModel.unpack = true := by
  show decide (x.toModel.unpack.lt y.toModel.unpack = true) = true ↔ _
  rw [decide_eq_true_iff]

theorem lt_iff {x y : Float} (hx : x.isFinite = true) (hy : y.isFinite = true) :
    x < y ↔ value x < value y := by
  rw [lt_unpack, unpack_of_isFinite hx, unpack_of_isFinite hy,
    signed_lt_iff (normal_magnitude hx) (normal_magnitude hy)]
  rfl

theorem value_neg {x : Float} (hx : x.isFinite = true) : (-x).isFinite = true ∧ value (-x) = -value x := by
  have hneg : (-x).toModel = Float.Model.pack ((magnitude x).signed (-signOf x)) := by
    have hsigned : ((magnitude x).signed (signOf x)).neg = (magnitude x).signed (-signOf x) := by
      unfold Magnitude.signed
      split <;> rfl
    rw [← hsigned, ← unpack_of_isFinite hx]
    rfl
  obtain ⟨hfinite, hvalue⟩ := value_of_pack (normal_magnitude hx) hneg
  refine ⟨hfinite, ?_⟩
  rw [hvalue]
  unfold value
  cases signOf x
  · show 1 * _ = -(-1 * _)
    ring
  · show -1 * _ = -(1 * _)
    ring

/-- A number that is not undefined lies between the finite numbers that it is not beyond. -/
theorem isFinite_of_between {x low high : Float} (hlow : low.isFinite = true) (hhigh : high.isFinite = true)
    (hx : x.isNaN = false) (hge : ¬x < low) (hle : ¬high < x) : x.isFinite = true := by
  rw [lt_unpack, unpack_of_isFinite hlow] at hge
  rw [lt_unpack, unpack_of_isFinite hhigh] at hle
  have hnan : x.toModel.unpack.isNaN = false := hx
  show x.toModel.unpack.isFinite = true
  cases hu : x.toModel.unpack with
  | notANumber =>
    rw [hu] at hnan
    exact absurd hnan (by decide)
  | zero s => rfl
  | finite s m e h => rfl
  | infinity s =>
    rw [hu] at hge hle
    unfold Magnitude.signed at hge hle
    cases s
    · refine absurd ?_ hge
      split <;> rfl
    · refine absurd ?_ hle
      split <;> rfl

/-! ## 5. Whole numbers -/

theorem Magnitude.value_of_nonneg {x : Magnitude} (h : 0 ≤ x.q) : x.value = (x.m * 2 ^ x.q.natAbs : Nat) := by
  unfold Magnitude.value
  rw [zpow_of_nonneg h]
  push_cast
  rfl

theorem Magnitude.value_of_neg {x : Magnitude} (h : x.q < 0) : x.value = x.m / (2 ^ x.q.natAbs : Nat) := by
  unfold Magnitude.value
  rw [zpow_of_neg h]
  push_cast
  ring

/-- A whole number that is not below is not passed by rounding. -/
theorem Magnitude.nearestWhole_le {x : Magnitude} {n : Nat} (h : x.value ≤ n) : x.nearestWhole ≤ n := by
  unfold Magnitude.nearestWhole
  by_cases hq : 0 ≤ x.q
  · rw [x.value_of_nonneg hq, Nat.cast_le] at h
    rw [if_pos hq]
    exact h
  · have hpow : 0 < 2 ^ x.q.natAbs := Nat.pow_pos (by decide)
    rw [x.value_of_neg (Int.not_le.1 hq), div_le_iff₀ (by exact_mod_cast hpow)] at h
    have hm : x.m ≤ n * 2 ^ x.q.natAbs := by exact_mod_cast h
    rw [if_neg hq]
    refine Nat.lt_succ_iff.1 ((Nat.div_lt_iff_lt_mul (Nat.mul_pos (by decide) hpow)).2 ?_)
    show 2 * x.m + 2 ^ x.q.natAbs < (n + 1) * (2 * 2 ^ x.q.natAbs)
    have hsplit : (n + 1) * (2 * 2 ^ x.q.natAbs) = 2 * (n * 2 ^ x.q.natAbs) + 2 * 2 ^ x.q.natAbs := by ring
    omega

theorem Magnitude.value_le_leastWhole (x : Magnitude) : x.value ≤ x.leastWhole := by
  unfold Magnitude.leastWhole
  by_cases hq : 0 ≤ x.q
  · rw [x.value_of_nonneg hq, if_pos hq]
    rfl
  · have hpow : 0 < 2 ^ x.q.natAbs := Nat.pow_pos (by decide)
    rw [x.value_of_neg (Int.not_le.1 hq), if_neg hq, div_le_iff₀ (by exact_mod_cast hpow)]
    have hdiv := Nat.lt_div_mul_add (a := x.m + (2 ^ x.q.natAbs - 1)) hpow
    have hm : x.m ≤ (x.m + (2 ^ x.q.natAbs - 1)) / 2 ^ x.q.natAbs * 2 ^ x.q.natAbs := by omega
    exact_mod_cast hm

/-- Doubles of 53 bits and more before the point are whole. -/
theorem Magnitude.Normal.nearestWhole_eq {x : Magnitude} (hx : x.Normal) (h : 2 ^ (53 : Int) ≤ x.value) :
    (x.nearestWhole : ℚ) = x.value := by
  have hq : 0 ≤ x.q := by
    by_contra hneg
    have hlt : x.value < 2 ^ (53 : Int) := by
      calc x.value < (2 * hiddenBit : Nat) * 2 ^ x.q :=
            mul_lt_mul_of_pos_right (by exact_mod_cast hx.m_lt) (zpow_pos two_pos _)
        _ ≤ (2 * hiddenBit : Nat) * 1 :=
            mul_le_mul_of_nonneg_left (zpow_le_one_of_nonpos₀ one_le_two (by omega)) (Nat.cast_nonneg _)
        _ = 2 ^ (53 : Int) := by norm_num [hiddenBit]
    linarith
  unfold Magnitude.nearestWhole
  rw [x.value_of_nonneg hq, if_pos hq]
  rfl

theorem natAbs_roundToWord_le (x : Float) : (roundToWord x).natAbs ≤ (magnitude x).nearestWhole := by
  unfold roundToWord
  dsimp only
  split_ifs <;> omega

theorem pack_signed_of_lt {z : Magnitude} (hz : z.Canonical) (h : 971 < z.q) (s : Sign) :
    Float.Model.pack (z.signed s) = Float.Model.pack (.infinity s) := by
  have hm : z.m ≠ 0 := by
    intro hzero
    have := hz.eq_of_lt (by rw [hzero]; decide)
    unfold minExponent at this
    omega
  have hexp : 2 ^ 11 ≤ (z.q + (1023 : Nat) + (52 : Nat)).toNat + 1 := by omega
  have hpack : UnpackedFloat.pack Format.binary64 (z.signed s) =
      UnpackedFloat.packedInfinity Format.binary64 s := by
    unfold Magnitude.signed
    rw [dif_neg hm]
    exact if_pos hexp
  unfold Float.Model.pack
  simp only [hpack]
  rfl

/-- A number with 53 bits is not above its whole number, unless that is the greatest word. -/
theorem RoundsTo.le_ceilToWord {x : Float} {r : ℚ} {k : Nat} {j : Int} (h : RoundsTo x .positive r)
    (hk : k ≤ 2 * hiddenBit) (hj : minExponent ≤ j) (heq : r = k * 2 ^ j) :
    ceilToWord x = 2 ^ 64 - 1 ∨ r ≤ ceilToWord x := by
  obtain ⟨z, n, q, hx, hz, hvalue, hn⟩ := h
  have hr := hn.eq_of_eq hk hj heq
  rw [← hvalue] at hr
  by_cases hq : z.q ≤ 971
  · obtain ⟨hfinite, hval⟩ := value_of_pack ⟨hz.m_lt, hz.le_q, hq, hz.eq_of_lt⟩ hx
    have hnan : x.isNaN = false := isNaN_of_isFinite hfinite
    rw [hr] at hval
    unfold ceilToWord
    rw [hnan, Bool.false_or]
    by_cases hsign : isNegative x = true
    · right
      rw [if_pos hsign]
      unfold value signOf at hval
      rw [if_pos hsign] at hval
      have := (magnitude x).value_nonneg
      norm_num [sgn] at hval ⊢
      linarith
    · rw [if_neg hsign]
      unfold value signOf at hval
      rw [if_neg hsign] at hval
      have hleast := (magnitude x).value_le_leastWhole
      obtain hle | hgt := le_or_gt (magnitude x).leastWhole (UInt64.size - 1)
      · right
        rw [min_eq_right hle]
        norm_num [sgn] at hval
        linarith
      · left
        exact min_eq_left hgt.le
  · left
    obtain ⟨m⟩ := x
    have hinfinite : m = Float.Model.pack (.infinity .positive) := by
      rw [← pack_signed_of_lt hz (Int.not_le.1 hq) .positive, ← hx]
    rw [hinfinite]
    decide +kernel

end Federation.Binary64
