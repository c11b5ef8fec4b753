import Federation.Binary64.Shortest
import Federation.Proofs.Binary64.Bits
/-!
# Rounding to the nearest double

The numbers that round to a double fill an interval around it. Whichever quotient or decimal number is
taken from that interval, the nearest double is the same.
-/

namespace Federation.Binary64

/-! ## 1. Quotients of whole numbers -/

/-- The whole number nearest to `r`. At a tie it is even. -/
structure Nearest (n : Nat) (r : ℚ) : Prop where
  low : n - 1 / 2 ≤ r
  high : r ≤ n + 1 / 2
  inside : n % 2 = 1 → n - 1 / 2 < r ∧ r < n + 1 / 2

theorem roundDiv_eq {num den n : Nat} (hlow : 2 * (n * den) ≤ 2 * num + den)
    (hhigh : 2 * num ≤ 2 * (n * den) + den)
    (hinside : n % 2 = 1 → 2 * (n * den) < 2 * num + den ∧ 2 * num < 2 * (n * den) + den) (hden : 0 < den) :
    roundDiv num den = n := by
  have hdiv := Nat.div_add_mod num den
  have hmod := Nat.mod_lt num hden
  rw [Nat.mul_comm] at hdiv
  have hle : num / den ≤ n := by
    by_contra hlt
    have hmul := Nat.mul_le_mul_right den (Nat.not_le.1 hlt)
    rw [Nat.succ_mul] at hmul
    omega
  have hge : n ≤ num / den + 1 := by
    by_contra hlt
    have hmul := Nat.mul_le_mul_right den (Nat.not_le.1 hlt)
    rw [Nat.succ_mul, Nat.succ_mul] at hmul
    omega
  unfold roundDiv
  obtain rfl | rfl : n = num / den ∨ n = num / den + 1 := by omega
  · rw [if_pos (by omega)]
  · rw [Nat.succ_mul (num / den)] at hlow hhigh hinside
    rw [if_neg (by omega)]

theorem roundDiv_of_nearest {num den n : Nat} (hden : 0 < den) (h : Nearest n (num / den)) :
    roundDiv num den = n := by
  have hpos : (0 : ℚ) < den := Nat.cast_pos.2 hden
  have hr : (num : ℚ) = num / den * den := (div_mul_cancel₀ _ hpos.ne').symm
  refine roundDiv_eq ?_ ?_ (fun hodd => ⟨?_, ?_⟩) hden
  · have := mul_le_mul_of_nonneg_right h.low hpos.le
    have : 2 * ((n : ℚ) * den) ≤ 2 * num + den := by linarith
    exact_mod_cast this
  · have := mul_le_mul_of_nonneg_right h.high hpos.le
    have : 2 * (num : ℚ) ≤ 2 * (n * den) + den := by linarith
    exact_mod_cast this
  · have := mul_lt_mul_of_pos_right (h.inside hodd).1 hpos
    have : 2 * ((n : ℚ) * den) < 2 * num + den := by linarith
    exact_mod_cast this
  · have := mul_lt_mul_of_pos_right (h.inside hodd).2 hpos
    have : 2 * (num : ℚ) < 2 * (n * den) + den := by linarith
    exact_mod_cast this

/-- A power of a whole number with a negative exponent divides. -/
theorem zpow_of_neg {b : ℚ} {k : Int} (h : k < 0) : b ^ k = 1 / b ^ k.natAbs := by
  obtain ⟨n, rfl⟩ := Int.exists_eq_neg_ofNat h.le
  simp

theorem zpow_of_nonneg {b : ℚ} {k : Int} (h : 0 ≤ k) : b ^ k = b ^ k.natAbs := by
  obtain ⟨n, rfl⟩ := Int.eq_ofNat_of_zero_le h
  simp

theorem scaledDiv_of_nearest {num den n : Nat} {k : Int} (hden : 0 < den)
    (h : Nearest n (num / den * 2 ^ k)) : scaledDiv num den k = n := by
  unfold scaledDiv
  split
  next hk =>
    refine roundDiv_of_nearest (Nat.mul_pos hden (Nat.pow_pos (by decide))) ?_
    rw [zpow_of_neg hk] at h
    convert h using 1
    rw [mul_one_div, div_div, Nat.pow_eq, Nat.cast_mul, Nat.cast_pow, Nat.cast_ofNat]
  next hk =>
    refine roundDiv_of_nearest hden ?_
    rw [zpow_of_nonneg (Int.not_lt.1 hk)] at h
    convert h using 1
    rw [div_mul_eq_mul_div, Nat.pow_eq, Nat.cast_mul, Nat.cast_pow, Nat.cast_ofNat]

/-! ## 2. Binary orders -/

theorem zpow_log2_le {n : Nat} (h : 0 < n) : (2 : ℚ) ^ (n.log2 : Int) ≤ n := by
  rw [zpow_natCast]
  exact_mod_cast Nat.log2_self_le h.ne'

theorem lt_zpow_log2 (n : Nat) : (n : ℚ) < 2 ^ ((n.log2 : Int) + 1) := by
  rw [← Nat.cast_succ, zpow_natCast]
  exact_mod_cast Nat.lt_log2_self

/-- The logarithms of a quotient's parts tell its binary order up to one. -/
theorem log2_bounds {num den : Nat} (hnum : 0 < num) (hden : 0 < den) :
    (2 : ℚ) ^ ((num.log2 : Int) - den.log2 - 1) < num / den ∧
      (num / den : ℚ) < 2 ^ ((num.log2 : Int) - den.log2 + 1) := by
  have hpos : (0 : ℚ) < den := Nat.cast_pos.2 hden
  have htwo : (0 : ℚ) < 2 := two_pos
  constructor
  · rw [lt_div_iff₀ hpos]
    calc (2 : ℚ) ^ ((num.log2 : Int) - den.log2 - 1) * den
        < 2 ^ ((num.log2 : Int) - den.log2 - 1) * 2 ^ ((den.log2 : Int) + 1) :=
          mul_lt_mul_of_pos_left (lt_zpow_log2 den) (zpow_pos htwo _)
      _ = 2 ^ (num.log2 : Int) := by
          rw [← zpow_add₀ htwo.ne']
          congr 1
          omega
      _ ≤ num := zpow_log2_le hnum
  · rw [div_lt_iff₀ hpos]
    calc (num : ℚ) < 2 ^ ((num.log2 : Int) + 1) := lt_zpow_log2 num
      _ = 2 ^ ((num.log2 : Int) - den.log2 + 1) * 2 ^ (den.log2 : Int) := by
          rw [← zpow_add₀ htwo.ne']
          congr 1
          omega
      _ ≤ 2 ^ ((num.log2 : Int) - den.log2 + 1) * den :=
          mul_le_mul_of_nonneg_left (zpow_log2_le hden) (zpow_pos htwo _).le

/-- Whether a quotient is at least a power is decided on whole numbers. -/
theorem zpow_le_div_iff {b num den : Nat} {k : Int} (hb : 0 < b) (hden : 0 < den) :
    (if k < 0 then decide (den ≤ num * Nat.pow b k.natAbs)
      else decide (den * Nat.pow b k.natAbs ≤ num)) = true ↔ (b : ℚ) ^ k ≤ num / den := by
  have hpos : (0 : ℚ) < den := Nat.cast_pos.2 hden
  rw [le_div_iff₀ hpos]
  split
  next hk =>
    have hpow : (0 : ℚ) < (b : ℚ) ^ k.natAbs := by positivity
    rw [zpow_of_neg hk, decide_eq_true_eq, one_div_mul_eq_div, div_le_iff₀ hpow, Nat.pow_eq]
    exact_mod_cast Iff.rfl
  next hk =>
    rw [zpow_of_nonneg (Int.not_lt.1 hk), decide_eq_true_eq, Nat.pow_eq, mul_comm]
    exact_mod_cast Iff.rfl

theorem zpow_order_unique {b r : ℚ} (hb : 1 < b) {e e' : Int} (hle : b ^ e ≤ r) (hlt : r < b ^ (e + 1))
    (hle' : b ^ e' ≤ r) (hlt' : r < b ^ (e' + 1)) : e = e' := by
  have h := (zpow_lt_zpow_iff_right₀ hb).1 (hle.trans_lt hlt')
  have h' := (zpow_lt_zpow_iff_right₀ hb).1 (hle'.trans_lt hlt)
  omega

/-- The place of the last binary digit of a double whose binary order is `e`. -/
def lastPlace (e : Int) : Int := max minExponent (e - 52)

theorem ofRatio_eq {num den : Nat} (hnum : 0 < num) (hden : 0 < den) {e : Int}
    (hle : (2 : ℚ) ^ e ≤ num / den) (hlt : (num / den : ℚ) < 2 ^ (e + 1)) :
    ofRatio num den =
      Float.ofBits (pack (scaledDiv num den (-lastPlace e)) (lastPlace e)) := by
  obtain ⟨hlow, hhigh⟩ := log2_bounds hnum hden
  have hexponent : ∀ b : Bool, (b = true ↔ (2 : ℚ) ^ ((num.log2 : Int) - den.log2) ≤ num / den) →
      (if b then (num.log2 : Int) - den.log2 else (num.log2 : Int) - den.log2 - 1) = e := by
    intro b hb
    split
    next h => exact zpow_order_unique one_lt_two (hb.1 h) hhigh hle hlt
    next h =>
      refine zpow_order_unique one_lt_two hlow.le ?_ hle hlt
      rw [sub_add_cancel]
      exact lt_of_not_ge fun hge => h (hb.2 hge)
  have hatLeast := hexponent _ (zpow_le_div_iff (b := 2) two_pos hden)
  unfold ofRatio
  rw [if_neg hnum.ne']
  simp only [hatLeast]
  rfl

/-! ## 3. The numbers that round to a double -/

namespace Magnitude

def value (x : Magnitude) : ℚ := x.m * 2 ^ x.q

/-- The distance to the lower end of the interval of `x`, in units of its last place. Below a power of
two the doubles lie twice as close. -/
def lowerGap (x : Magnitude) : ℚ := if x.m = hiddenBit ∧ minExponent < x.q then 1 / 4 else 1 / 2

def lower (x : Magnitude) : ℚ := (x.m - x.lowerGap) * 2 ^ x.q

def upper (x : Magnitude) : ℚ := (x.m + 1 / 2) * 2 ^ x.q

/-- A number in the interval of `x`, whose ends belong to it if `x` is even. -/
structure Rounds (x : Magnitude) (r : ℚ) : Prop where
  lower_le : x.lower ≤ r
  le_upper : r ≤ x.upper
  inside : x.m % 2 = 1 → x.lower < r ∧ r < x.upper

theorem lowerGap_le (x : Magnitude) : x.lowerGap ≤ 1 / 2 := by
  unfold lowerGap
  split <;> norm_num

theorem half_le_lower {x : Magnitude} (h : 0 < x.m) : 1 / 2 * 2 ^ x.q ≤ x.lower := by
  have hm : (1 : ℚ) ≤ x.m := by exact_mod_cast h
  have hgap := x.lowerGap_le
  exact mul_le_mul_of_nonneg_right (by linarith) (zpow_pos two_pos _).le

theorem Rounds.pos {x : Magnitude} {r : ℚ} (h : x.Rounds r) (hm : 0 < x.m) : 0 < r :=
  lt_of_lt_of_le (by positivity) ((half_le_lower hm).trans h.lower_le)

/-- Over its last place, a number of the interval is nearest to the significand. -/
theorem Rounds.nearest {x : Magnitude} {r : ℚ} (h : x.Rounds r) : Nearest x.m (r * 2 ^ (-x.q)) := by
  have hpos : (0 : ℚ) < 2 ^ x.q := zpow_pos two_pos _
  have hgap := x.lowerGap_le
  rw [zpow_neg, ← div_eq_mul_inv]
  refine ⟨?_, ?_, fun hodd => ⟨?_, ?_⟩⟩
  · rw [le_div_iff₀ hpos]
    exact le_trans (mul_le_mul_of_nonneg_right (by linarith) hpos.le) h.lower_le
  · rw [div_le_iff₀ hpos]
    exact h.le_upper
  · rw [lt_div_iff₀ hpos]
    exact lt_of_le_of_lt (mul_le_mul_of_nonneg_right (by linarith) hpos.le) (h.inside hodd).1
  · rw [div_lt_iff₀ hpos]
    exact (h.inside hodd).2

/-- Just below a power of two the last place is one further, and the significand next to that is the
power itself. -/
theorem Rounds.nearest_below {x : Magnitude} {r : ℚ} (h : x.Rounds r) (hm : x.m = hiddenBit)
    (hq : minExponent < x.q) (hr : r < hiddenBit * 2 ^ x.q) :
    Nearest (2 * hiddenBit) (r * 2 ^ (-(x.q - 1))) := by
  have hpos : (0 : ℚ) < 2 ^ x.q := zpow_pos two_pos _
  have hlower : (hiddenBit - 1 / 4) * (2 : ℚ) ^ x.q ≤ r := by
    have := h.lower_le
    rwa [lower, lowerGap, if_pos ⟨hm, hq⟩, hm] at this
  have hscaled : r * 2 ^ (-(x.q - 1)) = 2 * (r / 2 ^ x.q) := by
    rw [neg_sub, sub_eq_add_neg, zpow_add₀ two_ne_zero, zpow_one, zpow_neg]
    ring
  have hle : hiddenBit - 1 / 4 ≤ r / 2 ^ x.q := (le_div_iff₀ hpos).2 hlower
  have hlt : r / 2 ^ x.q < hiddenBit := (div_lt_iff₀ hpos).2 hr
  rw [hscaled]
  refine ⟨?_, ?_, fun hodd => absurd hodd (by decide)⟩ <;> push_cast <;> linarith

end Magnitude

theorem pack_double {q : Int} (h : minExponent < q) :
    pack (2 * hiddenBit) (q - 1) = pack hiddenBit q := by
  have hq : (q + 1074).toNat = (q - 1 + 1074).toNat + 1 := by
    simp only [minExponent] at h
    omega
  have hbits : (q - 1 + 1074).toNat * hiddenBit + 2 * hiddenBit =
      (q + 1074).toNat * hiddenBit + hiddenBit := by
    rw [hq]
    ring
  unfold pack
  rw [if_neg (by decide), if_neg (by decide), hbits]

theorem hiddenBit_mul_zpow (q : Int) : (hiddenBit : ℚ) * 2 ^ q = 2 ^ (q + 52) := by
  rw [zpow_add₀ two_ne_zero, mul_comm]
  norm_num [hiddenBit]

namespace Magnitude

variable {x : Magnitude} {r : ℚ} {e : Int}

/-- A number of the interval that is not below the power of two of the significand has the last place
of the double. -/
theorem Rounds.lastPlace_eq (hx : x.Normal) (h : x.Rounds r) (hle : (2 : ℚ) ^ e ≤ r)
    (hlt : r < 2 ^ (e + 1)) (habove : hiddenBit * 2 ^ x.q ≤ r) : lastPlace e = x.q := by
  have hpos : (0 : ℚ) < 2 ^ x.q := zpow_pos two_pos _
  have hlow : x.q + 52 < e + 1 := by
    rw [hiddenBit_mul_zpow] at habove
    exact (zpow_lt_zpow_iff_right₀ one_lt_two).1 (lt_of_le_of_lt habove hlt)
  have hhigh : e < x.q + 53 := by
    refine (zpow_lt_zpow_iff_right₀ (one_lt_two (α := ℚ))).1 (lt_of_le_of_lt (hle.trans h.le_upper) ?_)
    have hm : (x.m : ℚ) + 1 ≤ 2 * hiddenBit := by exact_mod_cast hx.m_lt
    calc x.upper < 2 * hiddenBit * 2 ^ x.q := mul_lt_mul_of_pos_right (by linarith) hpos
      _ = 2 ^ (x.q + 53) := by
        rw [mul_assoc, hiddenBit_mul_zpow, ← zpow_one_add₀ two_ne_zero]
        congr 1
        omega
  have hq := hx.le_q
  unfold lastPlace
  omega

theorem lt_of_below (hle : (2 : ℚ) ^ e ≤ r) (hbelow : r < hiddenBit * 2 ^ x.q) : e < x.q + 52 := by
  rw [hiddenBit_mul_zpow] at hbelow
  exact (zpow_lt_zpow_iff_right₀ one_lt_two).1 (hle.trans_lt hbelow)

/-- Just below a power of two the last place is one further. -/
theorem Rounds.lastPlace_below (h : x.Rounds r) (hm : x.m = hiddenBit) (hq : minExponent < x.q)
    (hle : (2 : ℚ) ^ e ≤ r) (hlt : r < 2 ^ (e + 1)) (hbelow : r < hiddenBit * 2 ^ x.q) :
    lastPlace e = x.q - 1 := by
  have hhigh := lt_of_below hle hbelow
  have hlow : x.q + 51 < e + 1 := by
    refine (zpow_lt_zpow_iff_right₀ (one_lt_two (α := ℚ))).1 (lt_of_le_of_lt ?_ hlt)
    refine le_trans ?_ h.lower_le
    rw [lower, lowerGap, if_pos ⟨hm, hq⟩, hm, zpow_add₀ two_ne_zero, mul_comm]
    exact mul_le_mul_of_nonneg_right (by norm_num [hiddenBit]) (zpow_pos two_pos _).le
  unfold lastPlace
  omega

/-- Below `2^52` units there are only the doubles of the least exponent. -/
theorem Rounds.lastPlace_least (hx : x.Normal) (h : x.Rounds r)
    (hcase : ¬(x.m = hiddenBit ∧ minExponent < x.q)) (hle : (2 : ℚ) ^ e ≤ r)
    (hbelow : r < hiddenBit * 2 ^ x.q) : lastPlace e = x.q := by
  have hhigh := lt_of_below hle hbelow
  have hleast : x.q = minExponent := by
    rcases Nat.lt_trichotomy x.m hiddenBit with hlt | heq | hgt
    · exact hx.eq_of_lt hlt
    · exact le_antisymm (Int.not_lt.1 fun hq => hcase ⟨heq, hq⟩) hx.le_q
    · have hge : (hiddenBit : ℚ) + 1 ≤ x.m := by exact_mod_cast hgt
      have hgap := x.lowerGap_le
      have hlower : hiddenBit * 2 ^ x.q ≤ x.lower :=
        mul_le_mul_of_nonneg_right (by linarith) (zpow_pos two_pos _).le
      exact absurd (hlower.trans h.lower_le) (not_le.2 hbelow)
  unfold lastPlace
  omega

end Magnitude

/-- Every quotient in the interval of a double has it as the nearest double. -/
theorem ofRatio_of_rounds {x : Magnitude} (hx : x.Normal) (hm : 0 < x.m) {num den : Nat} (hden : 0 < den)
    (h : x.Rounds (num / den)) : ofRatio num den = Float.ofBits (pack x.m x.q) := by
  have hnum : 0 < num := by
    rw [← Nat.cast_pos (α := ℚ)]
    exact (div_pos_iff_of_pos_right (Nat.cast_pos.2 hden)).1 (h.pos hm)
  obtain ⟨e, hle, hlt⟩ := exists_mem_Ico_zpow (h.pos hm) (one_lt_two (α := ℚ))
  rw [ofRatio_eq hnum hden hle hlt]
  by_cases hbelow : (num / den : ℚ) < hiddenBit * 2 ^ x.q
  · by_cases hcase : x.m = hiddenBit ∧ minExponent < x.q
    · rw [h.lastPlace_below hcase.1 hcase.2 hle hlt hbelow,
        scaledDiv_of_nearest hden (h.nearest_below hcase.1 hcase.2 hbelow), pack_double hcase.2, hcase.1]
    · rw [h.lastPlace_least hx hcase hle hbelow, scaledDiv_of_nearest hden h.nearest]
  · rw [h.lastPlace_eq hx hle hlt (not_lt.1 hbelow), scaledDiv_of_nearest hden h.nearest]

/-! ## 4. Decimal numbers -/

def Decimal.value (d : Decimal) : ℚ := d.digits * 10 ^ d.exponent

theorem lt_pow_digitCount (n : Nat) : n < 10 ^ digitCount n :=
  (Nat.length_toDigits_le_iff (by decide) (Nat.length_toDigits_pos)).1 (Nat.le_refl _)

theorem pow_le_of_digitCount {n k : Nat} (h : 0 < n) (hk : k < digitCount n) : 10 ^ k ≤ n := by
  rcases Nat.eq_zero_or_pos k with rfl | hpos
  · exact h
  · by_contra hlt
    exact absurd ((Nat.length_toDigits_le_iff (by decide) hpos).2 (Nat.not_le.1 hlt)) (Nat.not_le.2 hk)

/-- The decimal order of a number is told by its digits. -/
theorem Decimal.value_lt (d : Decimal) : d.value < 10 ^ (d.exponent + digitCount d.digits) := by
  have hdigits : (d.digits : ℚ) < 10 ^ digitCount d.digits := by exact_mod_cast lt_pow_digitCount d.digits
  rw [value, zpow_add₀ (by norm_num), zpow_natCast, mul_comm]
  exact mul_lt_mul_of_pos_left hdigits (by positivity)

theorem Decimal.le_value {d : Decimal} (h : 0 < d.digits) :
    (10 : ℚ) ^ (d.exponent + digitCount d.digits - 1) ≤ d.value := by
  have hcount : 0 < digitCount d.digits := Nat.length_toDigits_pos
  have hdigits : (10 : ℚ) ^ (digitCount d.digits - 1) ≤ d.digits := by
    exact_mod_cast pow_le_of_digitCount h (Nat.sub_lt hcount Nat.one_pos)
  have hsplit : d.exponent + digitCount d.digits - 1 = (digitCount d.digits - 1 : Nat) + d.exponent := by
    omega
  rw [value, hsplit, zpow_add₀ (by norm_num), zpow_natCast]
  exact mul_le_mul_of_nonneg_right hdigits (by positivity)

theorem two_pow_lt_ten_pow : (2 : ℚ) ^ (1024 : Int) < 10 ^ (310 : Int) ∧
    (10 : ℚ) ^ (-331 : Int) < 2 ^ (-1075 : Int) := by
  have hcast : ∀ {m n : Nat}, 2 ^ m < 10 ^ n → (2 : ℚ) ^ (m : Int) < 10 ^ (n : Int) := fun h => by
    rw [zpow_natCast, zpow_natCast]
    exact_mod_cast h
  refine ⟨hcast (m := 1024) (n := 310) (by decide +kernel), ?_⟩
  rw [zpow_neg, zpow_neg]
  refine inv_strictAnti₀ (by positivity) ?_
  exact hcast (m := 1075) (n := 331) (by decide +kernel)

theorem Magnitude.Rounds.digits_pos {x : Magnitude} (hm : 0 < x.m) {d : Decimal} (h : x.Rounds d.value) :
    0 < d.digits := by
  refine Nat.pos_of_ne_zero fun hzero => ?_
  have hvalue : d.value = 0 := by rw [Decimal.value, hzero, Nat.cast_zero, zero_mul]
  exact absurd (h.pos hm) (hvalue ▸ lt_irrefl _)

/-- The intervals of doubles lie within the decimal orders for which a decimal number is rounded. -/
theorem Magnitude.Rounds.order {x : Magnitude} (hx : x.Normal) (hm : 0 < x.m) {d : Decimal}
    (h : x.Rounds d.value) : -330 ≤ d.exponent + digitCount d.digits ∧
      d.exponent + digitCount d.digits ≤ 310 := by
  have hten : (1 : ℚ) < 10 := by norm_num
  constructor
  · have hge : (2 : ℚ) ^ (-1075 : Int) ≤ d.value := by
      refine le_trans ?_ ((half_le_lower hm).trans h.lower_le)
      have hq : (-1075 : Int) + 1 ≤ x.q := hx.le_q
      calc (2 : ℚ) ^ (-1075 : Int) = 1 / 2 * 2 ^ ((-1075 : Int) + 1) := by
            rw [zpow_add_one₀ two_ne_zero]
            ring
        _ ≤ 1 / 2 * 2 ^ x.q :=
            mul_le_mul_of_nonneg_left (zpow_le_zpow_right₀ one_lt_two.le hq) (by norm_num)
    have hlt := two_pow_lt_ten_pow.2.trans_le hge |>.trans d.value_lt
    have := (zpow_lt_zpow_iff_right₀ hten).1 hlt
    omega
  · have hle : d.value ≤ 2 ^ (1024 : Int) := by
      have hm' : (x.m : ℚ) + 1 ≤ 2 * hiddenBit := by exact_mod_cast hx.m_lt
      calc d.value ≤ (x.m + 1 / 2) * 2 ^ x.q := h.le_upper
        _ ≤ 2 * hiddenBit * 2 ^ x.q := mul_le_mul_of_nonneg_right (by linarith) (by positivity)
        _ = 2 ^ (1 + (x.q + 52)) := by rw [mul_assoc, hiddenBit_mul_zpow, zpow_one_add₀ two_ne_zero]
        _ ≤ 2 ^ (1024 : Int) := zpow_le_zpow_right₀ one_lt_two.le (by have := hx.q_le; omega)
    have hlt := ((Decimal.le_value (h.digits_pos hm)).trans hle).trans_lt two_pow_lt_ten_pow.1
    have := (zpow_lt_zpow_iff_right₀ hten).1 hlt
    omega

/-- Every decimal number in the interval of a double has it as the nearest double. -/
theorem ofDecimal_of_rounds {x : Magnitude} (hx : x.Normal) (hm : 0 < x.m) {d : Decimal}
    (h : x.Rounds d.value) (negative : Bool) :
    ofDecimal negative d.digits d.exponent =
      if negative then -Float.ofBits (pack x.m x.q) else Float.ofBits (pack x.m x.q) := by
  have hdigits := h.digits_pos hm
  obtain ⟨hlow, hhigh⟩ := h.order hx hm
  have hratio : (if d.exponent < 0 then ofRatio d.digits (Nat.pow 10 d.exponent.natAbs)
      else ofRatio (d.digits * Nat.pow 10 d.exponent.natAbs) 1) = Float.ofBits (pack x.m x.q) := by
    rw [Decimal.value] at h
    split
    next he =>
      refine ofRatio_of_rounds hx hm (Nat.pow_pos (by decide)) ?_
      rw [zpow_of_neg he, mul_one_div] at h
      rwa [Nat.pow_eq, Nat.cast_pow, Nat.cast_ofNat]
    next he =>
      refine ofRatio_of_rounds hx hm Nat.one_pos ?_
      rw [zpow_of_nonneg (Int.not_lt.1 he)] at h
      rwa [Nat.pow_eq, Nat.cast_one, div_one, Nat.cast_mul, Nat.cast_pow, Nat.cast_ofNat]
  have hleast : ¬(d.digits = 0 ∨ d.exponent + digitCount d.digits < -330) := by omega
  have hgreatest : ¬d.exponent + digitCount d.digits > 310 := by omega
  unfold ofDecimal
  simp only [hratio, if_neg hleast, if_neg hgreatest]

end Federation.Binary64
