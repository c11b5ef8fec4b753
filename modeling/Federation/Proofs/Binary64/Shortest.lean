import Federation.Proofs.Binary64.Rounding
/-!
# Shortest digits read back

The decimal number that stands for a double lies in the interval of the numbers that round to it. A
grid with seventeen digits is finer than every interval, so the search comes to an end.
-/

namespace Federation.Binary64

namespace Interval

/-! ## 1. Intervals in whole numbers -/

/-- Whether a decimal number lies in an interval is decided on whole numbers. -/
theorem holds_iff {i : Interval} (hden : 0 < i.den) (d : Decimal) :
    i.holds d = true ↔
      if i.closed then (i.low / i.den : ℚ) ≤ d.value ∧ d.value ≤ i.high / i.den
      else (i.low / i.den : ℚ) < d.value ∧ d.value < i.high / i.den := by
  have hpos : (0 : ℚ) < i.den := Nat.cast_pos.2 hden
  -- the decimal number as a quotient
  obtain ⟨n, s, hs, hvalue, hholds⟩ : ∃ n s : Nat, 0 < s ∧ d.value = n / s ∧
      i.holds d = if i.closed then decide (i.low * s ≤ n * i.den) && decide (n * i.den ≤ i.high * s)
        else decide (i.low * s < n * i.den) && decide (n * i.den < i.high * s) := by
    unfold holds Decimal.value
    by_cases he : d.exponent < 0
    · refine ⟨d.digits, Nat.pow 10 d.exponent.natAbs, Nat.pow_pos (by decide), ?_, by rw [if_pos he]⟩
      rw [zpow_of_neg he, mul_one_div, Nat.pow_eq, Nat.cast_pow, Nat.cast_ofNat]
    · refine ⟨d.digits * Nat.pow 10 d.exponent.natAbs, 1, Nat.one_pos, ?_, by rw [if_neg he]⟩
      rw [zpow_of_nonneg (Int.not_lt.1 he), Nat.pow_eq, Nat.cast_one, div_one, Nat.cast_mul, Nat.cast_pow,
        Nat.cast_ofNat]
  have hs' : (0 : ℚ) < s := Nat.cast_pos.2 hs
  rw [hvalue, hholds, div_le_div_iff₀ hpos hs', div_le_div_iff₀ hs' hpos, div_lt_div_iff₀ hpos hs',
    div_lt_div_iff₀ hs' hpos]
  cases i.closed
  · simp only [Bool.false_eq_true, if_false, Bool.and_eq_true, decide_eq_true_eq]
    exact_mod_cast Iff.rfl
  · simp only [if_true, Bool.and_eq_true, decide_eq_true_eq]
    exact_mod_cast Iff.rfl

end Interval

namespace Magnitude

/-- The interval of a double in whole numbers. -/
structure Scaled (x : Magnitude) (i : Interval) : Prop where
  den_pos : 0 < i.den
  low_eq : (i.low / i.den : ℚ) = x.lower
  value_eq : (i.value / i.den : ℚ) = x.value
  high_eq : (i.high / i.den : ℚ) = x.upper
  closed_eq : i.closed = decide (x.m % 2 = 0)

theorem scaled_interval {x : Magnitude} (hm : 0 < x.m) : x.Scaled x.interval := by
  obtain ⟨up, den, hden, hscale, hinterval⟩ : ∃ up den : Nat, 0 < den ∧ (up / den : ℚ) = 2 ^ (x.q - 2) ∧
      x.interval = ⟨(4 * x.m - if x.m = hiddenBit ∧ x.q > minExponent then 1 else 2) * up,
        4 * x.m * up, (4 * x.m + 2) * up, den, decide (x.m % 2 = 0)⟩ := by
    unfold interval
    by_cases hq : x.q - 2 < 0
    · refine ⟨1, Nat.pow 2 (x.q - 2).natAbs, Nat.pow_pos (by decide), ?_, by rw [if_pos hq]⟩
      rw [zpow_of_neg hq, Nat.pow_eq, Nat.cast_one, Nat.cast_pow, Nat.cast_ofNat]
    · refine ⟨Nat.pow 2 (x.q - 2).natAbs, 1, Nat.one_pos, ?_, by rw [if_neg hq]⟩
      rw [zpow_of_nonneg (Int.not_lt.1 hq), Nat.pow_eq, Nat.cast_one, div_one, Nat.cast_pow, Nat.cast_ofNat]
  have hquarter : (2 : ℚ) ^ x.q = 4 * 2 ^ (x.q - 2) := by
    rw [zpow_sub₀ two_ne_zero]
    norm_num
    ring
  rw [hinterval]
  refine ⟨hden, ?_, ?_, ?_, rfl⟩
  · rw [lower, lowerGap, Nat.cast_mul, mul_div_assoc, hscale, hquarter, Nat.cast_sub (by split <;> omega)]
    split <;> push_cast <;> ring
  · rw [value, Nat.cast_mul, mul_div_assoc, hscale, hquarter]
    push_cast
    ring
  · rw [upper, Nat.cast_mul, mul_div_assoc, hscale, hquarter]
    push_cast
    ring

theorem rounds_of_holds {x : Magnitude} (hm : 0 < x.m) {d : Decimal} (h : x.interval.holds d = true) :
    x.Rounds d.value := by
  have hx := scaled_interval hm
  rw [Interval.holds_iff hx.den_pos, hx.low_eq, hx.high_eq, hx.closed_eq] at h
  by_cases heven : x.m % 2 = 0
  · rw [if_pos (decide_eq_true heven)] at h
    exact ⟨h.1, h.2, fun hodd => absurd heven (by omega)⟩
  · rw [if_neg (by simpa using heven)] at h
    exact ⟨h.1.le, h.2.le, fun _ => h⟩

theorem holds_of_inside {x : Magnitude} (hm : 0 < x.m) {d : Decimal} (hlow : x.lower < d.value)
    (hhigh : d.value < x.upper) : x.interval.holds d = true := by
  have hx := scaled_interval hm
  rw [Interval.holds_iff hx.den_pos, hx.low_eq, hx.high_eq]
  split
  · exact ⟨hlow.le, hhigh.le⟩
  · exact ⟨hlow, hhigh⟩

end Magnitude

/-! ## 2. Neighbours on a grid -/

namespace Interval

theorem neighbours_eq {i : Interval} (hden : 0 < i.den) (e : Int) :
    ∃ n d : Nat, 0 < d ∧ (n / d * 10 ^ e : ℚ) = i.value / i.den ∧
      i.neighbours e = (⟨n / d, e⟩, ⟨n / d + 1, e⟩, compare (2 * (n % d)) d) := by
  unfold neighbours
  by_cases he : e < 0
  · refine ⟨i.value * Nat.pow 10 e.natAbs, i.den, hden, ?_, by rw [if_pos he]⟩
    rw [zpow_of_neg he, Nat.pow_eq, Nat.cast_mul, Nat.cast_pow, Nat.cast_ofNat]
    field_simp
  · refine ⟨i.value, i.den * Nat.pow 10 e.natAbs, Nat.mul_pos hden (Nat.pow_pos (by decide)), ?_,
      by rw [if_neg he]⟩
    rw [zpow_of_nonneg (Int.not_lt.1 he), Nat.pow_eq, Nat.cast_mul, Nat.cast_pow, Nat.cast_ofNat]
    field_simp

theorem holds_of_hit? {i : Interval} {e : Int} {d : Decimal} (h : i.hit? e = some d) :
    i.holds d = true := by
  unfold hit? at h
  obtain ⟨low, high, nearer⟩ := i.neighbours e
  have hlow : (i.holds low && low.digits != 0) = true → i.holds low = true := fun hand =>
    (Bool.and_eq_true_iff.1 hand).1
  dsimp only at h
  split at h <;> grind

theorem exists_hit?_of_holds {i : Interval} {e : Int} {low high : Decimal} {nearer : Ordering}
    (hneighbours : i.neighbours e = (low, high, nearer))
    (h : i.holds low = true ∧ low.digits ≠ 0 ∨ i.holds high = true) : ∃ d, i.hit? e = some d := by
  have hsome : ((i.holds low && low.digits != 0) || i.holds high) = true := by
    simpa using h
  rw [hit?, hneighbours]
  dsimp only
  split
  next hlow hhigh => simp [hlow, hhigh] at hsome
  all_goals exact ⟨_, rfl⟩

end Interval

namespace Magnitude

theorem lower_eq (x : Magnitude) : x.lower = x.value - x.lowerGap * 2 ^ x.q := sub_mul _ _ _

theorem upper_eq (x : Magnitude) : x.upper = x.value + 1 / 2 * 2 ^ x.q := add_mul _ _ _

/-- A grid with seventeen digits is finer than the interval. -/
theorem grid_lt_gap {x : Magnitude} (hx : x.Normal) {e : Int} (h : (10 : ℚ) ^ (e + 16) ≤ x.value) :
    (10 : ℚ) ^ e < 2 * (x.lowerGap * 2 ^ x.q) := by
  have hpos : (0 : ℚ) < 2 ^ x.q := by positivity
  rw [zpow_add₀ (by norm_num), value] at h
  unfold lowerGap
  split
  next hm =>
    rw [hm.1, hiddenBit] at h
    norm_num at h ⊢
    linarith
  next =>
    have hlt : (x.m : ℚ) * 2 ^ x.q < (2 * hiddenBit : Nat) * 2 ^ x.q :=
      mul_lt_mul_of_pos_right (Nat.cast_lt.2 hx.m_lt) hpos
    norm_num [hiddenBit] at h hlt ⊢
    linarith

/-- Of two neighbours on a grid with seventeen digits at least one lies in the interval. -/
theorem exists_hit? {x : Magnitude} (hx : x.Normal) (hm : 0 < x.m) {e : Int}
    (h : (10 : ℚ) ^ (e + 16) ≤ x.value) : ∃ d, x.interval.hit? e = some d := by
  have hgrid : (0 : ℚ) < 10 ^ e := by positivity
  have hulp : (0 : ℚ) < 2 ^ x.q := by positivity
  have hgap := grid_lt_gap hx h
  have hgaps : x.lowerGap * 2 ^ x.q ≤ 1 / 2 * 2 ^ x.q := mul_le_mul_of_nonneg_right x.lowerGap_le hulp.le
  obtain ⟨n, d, hd, hvalue, hneighbours⟩ := Interval.neighbours_eq (scaled_interval hm).den_pos e
  have hd' : (0 : ℚ) < d := Nat.cast_pos.2 hd
  -- the part of a step by which the value exceeds the lower neighbour
  obtain ⟨t, ht⟩ : ∃ t : ℚ, t = (n % d : Nat) / d := ⟨_, rfl⟩
  have hvalue' : x.value = (n / d : Nat) * 10 ^ e + t * 10 ^ e := by
    have hdiv : (n : ℚ) = (n / d : Nat) * d + (n % d : Nat) := by exact_mod_cast (Nat.div_add_mod' n d).symm
    rw [← (scaled_interval hm).value_eq, ← hvalue, hdiv, add_div, mul_div_cancel_right₀ _ hd'.ne', ht,
      add_mul]
  have hzero : 0 ≤ t := ht ▸ by positivity
  have hone : t < 1 := by
    rw [ht, div_lt_one hd']
    exact_mod_cast Nat.mod_lt n hd
  apply Interval.exists_hit?_of_holds hneighbours
  by_cases hhalf : 2 * (n % d) ≤ d
  · left
    have hle : t * 10 ^ e ≤ 1 / 2 * 10 ^ e := by
      refine mul_le_mul_of_nonneg_right ?_ hgrid.le
      rw [ht, div_le_iff₀ hd']
      have : 2 * ((n % d : Nat) : ℚ) ≤ d := by exact_mod_cast hhalf
      linarith
    have hnonneg : 0 ≤ t * 10 ^ e := by positivity
    constructor
    · apply holds_of_inside hm <;> simp only [Decimal.value, lower_eq, upper_eq] <;> linarith
    · intro hnone
      have hsmall : (n / d : Nat) = (0 : ℚ) := by exact_mod_cast hnone
      have hstep : (10 : ℚ) ^ e ≤ 10 ^ (e + 16) := zpow_le_zpow_right₀ (by norm_num) (by omega)
      have hlt : t * 10 ^ e < 1 * 10 ^ e := mul_lt_mul_of_pos_right hone hgrid
      rw [hsmall] at hvalue'
      linarith
  · right
    have hlt : 1 / 2 * 10 ^ e < t * 10 ^ e := by
      refine mul_lt_mul_of_pos_right ?_ hgrid
      rw [ht, lt_div_iff₀ hd']
      have : (d : ℚ) < 2 * (n % d : Nat) := by exact_mod_cast Nat.not_le.1 hhalf
      linarith
    have hlt' : t * 10 ^ e < 1 * 10 ^ e := mul_lt_mul_of_pos_right hone hgrid
    apply holds_of_inside hm <;> simp only [Decimal.value, lower_eq, upper_eq, Nat.cast_succ] <;> linarith

end Magnitude

/-! ## 3. The search -/

theorem Interval.climb_of {notAbove : Int → Bool} {P : Int → Prop} (h : ∀ e, notAbove e = true → P e)
    {e : Int} (he : P e) (n : Nat) : P (decade.climb notAbove n e) := by
  induction n generalizing e with
  | zero => exact he
  | succ n ih =>
    rw [decade.climb]
    split
    next hnext => exact ih (h _ hnext)
    next => exact he

/-- What holds of the estimate and of each power that is not above the value holds of the order found. -/
theorem Interval.zpow_decade_le {i : Interval} (hden : 0 < i.den)
    (hstart : (10 : ℚ) ^ (((i.value.log2 : Int) - i.den.log2 - 1) * 30103 / 100000 - 1) ≤ i.value / i.den) :
    (10 : ℚ) ^ i.decade ≤ i.value / i.den := by
  unfold decade
  dsimp only
  refine climb_of (P := fun e => (10 : ℚ) ^ e ≤ i.value / i.den) (fun e he => ?_) hstart 5
  rwa [Nat.mul_comm (Nat.pow 10 e.natAbs), zpow_le_div_iff (b := 10) (by decide) hden,
    Nat.cast_ofNat] at he

/-- The estimate of the decimal order is not too high. -/
theorem ten_zpow_estimate_le {b : Int} (hlow : -2000 ≤ b) (hhigh : b ≤ 2000) :
    (10 : ℚ) ^ (b * 30103 / 100000 - 1) ≤ 2 ^ b := by
  -- `k` powers of ten do not exceed two to the `b` if they do not after raising both to a power
  have hraise : ∀ {k : Int} {c : Nat}, c ≠ 0 → (10 : ℚ) ^ (k * c) ≤ (2 ^ c) ^ b → (10 : ℚ) ^ k ≤ 2 ^ b := by
    intro k c hc h
    refine le_of_pow_le_pow_left₀ hc (by positivity) ?_
    calc ((10 : ℚ) ^ k) ^ c = 10 ^ (k * c) := by rw [zpow_mul, zpow_natCast]
      _ ≤ (2 ^ c) ^ b := h
      _ = (2 ^ b) ^ c := by rw [← zpow_natCast, ← zpow_natCast, ← zpow_mul, ← zpow_mul, mul_comm]
  rcases Int.le_total 0 b with hb | hb
  · refine hraise (c := 196) (by decide) ?_
    calc (10 : ℚ) ^ ((b * 30103 / 100000 - 1) * 196)
        ≤ 10 ^ (59 * b) := zpow_le_zpow_right₀ (by norm_num) (by omega)
      _ = (10 ^ 59) ^ b := zpow_mul _ _ _
      _ ≤ (2 ^ 196) ^ b := zpow_le_zpow_left₀ hb (by positivity) (by norm_num)
  · refine hraise (c := 93) (by decide) ?_
    calc (10 : ℚ) ^ ((b * 30103 / 100000 - 1) * 93)
        ≤ 10 ^ (28 * b) := zpow_le_zpow_right₀ (by norm_num) (by omega)
      _ = (10 ^ 28) ^ b := zpow_mul _ _ _
      _ ≤ (2 ^ 93) ^ b := by
        obtain ⟨n, rfl⟩ := Int.exists_eq_neg_ofNat hb
        rw [zpow_neg, zpow_neg]
        exact inv_anti₀ (by positivity) (zpow_le_zpow_left₀ (by omega) (by positivity) (by norm_num))

theorem Magnitude.value_bounds {x : Magnitude} (hx : x.Normal) (hm : 0 < x.m) :
    (2 : ℚ) ^ (-1074 : Int) ≤ x.value ∧ x.value < 2 ^ (1024 : Int) := by
  have hm' : (1 : ℚ) ≤ x.m := by exact_mod_cast hm
  constructor
  · calc (2 : ℚ) ^ (-1074 : Int) ≤ 1 * 2 ^ x.q := by
          rw [one_mul]
          exact zpow_le_zpow_right₀ one_lt_two.le hx.le_q
      _ ≤ x.m * 2 ^ x.q := mul_le_mul_of_nonneg_right hm' (by positivity)
  · calc x.m * (2 : ℚ) ^ x.q < (2 * hiddenBit : Nat) * 2 ^ x.q :=
          mul_lt_mul_of_pos_right (Nat.cast_lt.2 hx.m_lt) (by positivity)
      _ = 2 ^ (1 + (x.q + 52)) := by
          rw [Nat.cast_mul, Nat.cast_ofNat, mul_assoc, hiddenBit_mul_zpow, zpow_one_add₀ two_ne_zero]
      _ ≤ 2 ^ (1024 : Int) := zpow_le_zpow_right₀ one_lt_two.le (by have := hx.q_le; omega)

theorem Magnitude.zpow_decade_le {x : Magnitude} (hx : x.Normal) (hm : 0 < x.m) :
    (10 : ℚ) ^ x.interval.decade ≤ x.value := by
  have hscaled := scaled_interval hm
  have hpos : (0 : ℚ) < x.value := by
    unfold value
    positivity
  have hvalue : 0 < x.interval.value := by
    rw [← hscaled.value_eq] at hpos
    exact_mod_cast (div_pos_iff_of_pos_right (Nat.cast_pos.2 hscaled.den_pos)).1 hpos
  obtain ⟨hlow, hhigh⟩ := log2_bounds hvalue hscaled.den_pos
  obtain ⟨hleast, hgreatest⟩ := value_bounds hx hm
  rw [hscaled.value_eq] at hlow hhigh
  have hbits := (zpow_lt_zpow_iff_right₀ (one_lt_two (α := ℚ))).1 (hleast.trans_lt hhigh)
  have hbits' := (zpow_lt_zpow_iff_right₀ (one_lt_two (α := ℚ))).1 (hlow.trans hgreatest)
  have hstart := (ten_zpow_estimate_le (by omega) (by omega)).trans hlow.le
  rw [← hscaled.value_eq] at hstart ⊢
  exact Interval.zpow_decade_le hscaled.den_pos hstart

theorem Decimal.value_trim (d : Decimal) : d.trim.value = d.value := by
  have hgo : ∀ n (d : Decimal), (trim.go n d).value = d.value := by
    intro n
    induction n with
    | zero => exact fun _ => rfl
    | succ n ih =>
      intro d
      rw [trim.go]
      split
      next h =>
        have hdigits : (d.digits : ℚ) = (d.digits / 10 : Nat) * 10 := by
          exact_mod_cast (Nat.div_mul_cancel (Nat.dvd_of_mod_eq_zero h.2)).symm
        rw [ih, value, value, zpow_add_one₀ (by norm_num), hdigits]
        ring
      next => rfl
  exact hgo _ d

/-- The shortest number lies in the interval. -/
theorem Magnitude.rounds_shortest {x : Magnitude} (hx : x.Normal) (hm : 0 < x.m) :
    x.Rounds x.shortest.value := by
  obtain ⟨d, hd⟩ := exists_hit? hx hm (e := x.interval.decade - 16)
    (by rw [Int.sub_add_cancel]; exact zpow_decade_le hx hm)
  have hfound :
      ((List.range 17).findSome? fun n => x.interval.hit? (x.interval.decade - (n : Nat))).isSome := by
    rw [List.findSome?_isSome_iff]
    exact ⟨16, by decide, Option.isSome_iff_exists.2 ⟨d, hd⟩⟩
  obtain ⟨d', hd'⟩ := Option.isSome_iff_exists.1 hfound
  obtain ⟨n, -, hn⟩ := List.exists_of_findSome?_eq_some hd'
  rw [shortest, hd', Option.getD_some, Decimal.value_trim]
  exact rounds_of_holds hm (Interval.holds_of_hit? hn)

/-- A decimal number that equals the shortest one of a finite double is read as the double. -/
theorem ofDecimal_shortest {x : Float} (h : x.isFinite = true) {d : Decimal}
    (hvalue : d.value = (shortest x).value) : ofDecimal (isNegative x) d.digits d.exponent = x := by
  have hx := normal_magnitude h
  have hsign := eq_of_magnitude h
  rcases Nat.eq_zero_or_pos (magnitude x).m with hm | hm
  · have hdigits : d.digits = 0 := by
      rw [shortest, if_pos hm, Decimal.value, Decimal.value, Nat.cast_zero, zero_mul] at hvalue
      exact_mod_cast (mul_eq_zero_iff_right (by positivity)).1 hvalue
    rw [ofDecimal, if_pos (Or.inl hdigits)]
    rwa [hm, ofBits_pack_zero] at hsign
  · rw [shortest, if_neg hm.ne'] at hvalue
    rw [ofDecimal_of_rounds hx hm (hvalue ▸ Magnitude.rounds_shortest hx hm)]
    exact hsign

end Federation.Binary64
