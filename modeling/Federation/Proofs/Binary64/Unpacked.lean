import Federation.Proofs.Binary64.Rounding
/-!
# Unpacked doubles

The operations on doubles work on a sign, a significand and an exponent. A finite double is unpacked to
its sign and its magnitude, and packed again as it was. An exact result is cut off at its last place with
two further bits that tell on which side of a half it lies, so that it is rounded to the nearest one.
-/

namespace Federation.Binary64

open Float.Model Float.Model.UnpackedFloat

/-! ## 1. Unpacked doubles -/

/-- A magnitude with a sign, as doubles are unpacked. -/
def Magnitude.signed (x : Magnitude) (s : Sign) : UnpackedFloat :=
  if h : x.m = 0 then .zero s else .finite s x.m x.q (Nat.pos_of_ne_zero h)

def signOf (x : Float) : Sign := if isNegative x then .negative else .positive

theorem unpackSign_bits (x : Float) :
    Sign.ofBitVec (@unpackSign Format.binary64 x.toBits.toBitVec) = signOf x := by
  have hlt : x.toBits.toNat < 18446744073709551616 := x.toBits.toNat_lt
  have hsign := toNat_unpackSign x.toBits.toBitVec
  have hbits : x.toBits.toBitVec.toNat = x.toBits.toNat := rfl
  rw [hbits] at hsign
  unfold Sign.ofBitVec signOf isNegative
  by_cases h : Word.signBit ≤ x.toBits.toNat
  · rw [if_neg, if_pos (decide_eq_true h)]
    intro hzero
    rw [hzero] at hsign
    simp only [Word.signBit] at h
    have : (0#1).toNat = 0 := rfl
    omega
  · rw [if_pos, if_neg (by simpa using h)]
    apply BitVec.eq_of_toNat_eq
    rw [hsign]
    simp only [Word.signBit] at h
    show _ = 0
    omega

theorem unpack_of_isFinite {x : Float} (h : x.isFinite = true) :
    x.toModel.unpack = (magnitude x).signed (signOf x) := by
  have hfinite := finiteBits_of_isFinite h
  have hexp := toNat_unpackExponent x.toBits.toBitVec
  have hman := toNat_unpackMantissa x.toBits.toBitVec
  have hne := unpackExponent_ne (b := x.toBits.toBitVec) hfinite
  show UnpackedFloat.unpack Format.binary64 x.toBits.toBitVec = _
  unfold UnpackedFloat.unpack
  simp only [if_neg hne, unpackSign_bits]
  have hbits : x.toBits.toBitVec.toNat = x.toBits.toNat := rfl
  rw [hbits] at hexp hman
  unfold magnitude Magnitude.signed hiddenBit
  by_cases hzero : @unpackExponent Format.binary64 x.toBits.toBitVec = 0#_
  · have hexp0 : x.toBits.toNat / 4503599627370496 % 2048 = 0 := by
      rw [← hexp, hzero]
      rfl
    simp only [if_pos hzero, if_pos hexp0]
    by_cases hm : @unpackMantissa Format.binary64 x.toBits.toBitVec = 0#_
    · have hm0 : x.toBits.toNat % 4503599627370496 = 0 := by
        rw [← hman, hm]
        rfl
      simp only [dif_pos hm, dif_pos hm0]
    · have hm0 : ¬x.toBits.toNat % 4503599627370496 = 0 := by
        rw [← hman]
        intro h0
        exact hm (BitVec.eq_of_toNat_eq h0)
      simp only [dif_neg hm, dif_neg hm0, hman, hzero]
      rfl
  · have hexp0 : ¬x.toBits.toNat / 4503599627370496 % 2048 = 0 := by
      rw [← hexp]
      intro h0
      exact hzero (BitVec.eq_of_toNat_eq h0)
    have hlt := (@unpackMantissa Format.binary64 x.toBits.toBitVec).isLt
    have hm : (1#1 ++ @unpackMantissa Format.binary64 x.toBits.toBitVec).toNat =
        4503599627370496 + x.toBits.toNat % 4503599627370496 := by
      rw [BitVec.toNat_append, ← Nat.shiftLeft_add_eq_or_of_lt hlt, hman]
      rfl
    have hm0 : ¬4503599627370496 + x.toBits.toNat % 4503599627370496 = 0 := by omega
    simp only [if_neg hzero, if_neg hexp0, dif_neg hm0, hm, hexp]
    rfl

theorem unpack_pack_signed {x : Magnitude} (h : x.Normal) (s : Sign) :
    (Float.Model.pack (x.signed s)).unpack = x.signed s := by
  obtain ⟨m, q⟩ := x
  have hm : m < 9007199254740992 := h.m_lt
  have hq := h.q_le
  have hle : -1074 ≤ q := h.le_q
  have hsub : m < 4503599627370496 → q = -1074 := h.eq_of_lt
  simp only at hm hq hle hsub
  show UnpackedFloat.unpack Format.binary64
    (UnpackedFloat.pack Format.binary64 (Magnitude.signed ⟨m, q⟩ s)) = _
  unfold Magnitude.signed
  by_cases hzero : m = 0
  · simp only [dif_pos hzero]
    exact unpack_packedZero
  simp only [dif_neg hzero]
  unfold UnpackedFloat.pack
  have hbias : (q + (Format.binary64.exponentBias : Int) + (52 : Nat)).toNat = (q + 1075).toNat := by
    show (q + (1023 : Nat) + (52 : Nat)).toNat = _
    omega
  have hfinite : ¬2 ^ 11 ≤ (q + 1075).toNat + 1 := by omega
  simp only [hbias, if_neg hfinite]
  by_cases hnormal : m < 4503599627370496
  · have hlog : ¬m.log2 + 1 = Format.binary64.mantissaBits := by
      have := (Nat.log2_lt hzero).2 (show m < 2 ^ 52 from hnormal)
      show ¬m.log2 + 1 = 53
      omega
    have hman : BitVec.ofNat 52 m ≠ 0#_ := by
      intro h0
      have h1 := congrArg BitVec.toNat h0
      rw [BitVec.toNat_ofNat, Nat.mod_eq_of_lt hnormal] at h1
      exact hzero h1
    have hexp : ¬(0#11 = -1#_) := by decide
    have hnat : (BitVec.ofNat 52 m).toNat = m := by
      rw [BitVec.toNat_ofNat, Nat.mod_eq_of_lt hnormal]
    simp only [if_neg hlog, UnpackedFloat.unpack, unpackExponent_packComponents,
      unpackMantissa_packComponents, unpackSign_packComponents, Sign.ofBitVec_toBitVec, if_neg hexp,
      dif_neg hman, hnat, hsub hnormal, if_true]
    rfl
  · have hlog : m.log2 + 1 = Format.binary64.mantissaBits := by
      show m.log2 + 1 = 53
      rw [(Nat.log2_eq_iff (k := 52) hzero).2 ⟨Nat.le_of_not_lt hnormal, hm⟩]
    have hexpNat : (BitVec.ofNat 11 (q + 1075).toNat).toNat = (q + 1075).toNat := by
      rw [BitVec.toNat_ofNat, Nat.mod_eq_of_lt (by omega)]
    have hexp : ¬(BitVec.ofNat 11 (q + 1075).toNat = -1#_) := by
      intro h0
      have h1 : (q + 1075).toNat = 2047 := by rw [← hexpNat, h0]; rfl
      omega
    have hexp0 : ¬(BitVec.ofNat 11 (q + 1075).toNat = 0#_) := by
      intro h0
      have h1 : (q + 1075).toNat = 0 := by rw [← hexpNat, h0]; rfl
      omega
    have hman : (1#1 ++ BitVec.ofNat 52 m).toNat = m := by
      have hlt := (BitVec.ofNat 52 m).isLt
      rw [BitVec.toNat_append, ← Nat.shiftLeft_add_eq_or_of_lt hlt, BitVec.toNat_ofNat]
      show 4503599627370496 + m % 4503599627370496 = m
      omega
    simp only [if_pos hlog, UnpackedFloat.unpack, unpackExponent_packComponents,
      unpackMantissa_packComponents, unpackSign_packComponents, Sign.ofBitVec_toBitVec, if_neg hexp,
      if_neg hexp0, hman, hexpNat]
    congr 1
    show ((q + 1075).toNat : Int) - ((1023 : Nat) + (52 : Nat)) = q
    omega

/-! ## 2. Rounding -/

/-- A significand with its two further bits stands for a number below the next one. -/
def Stands (em : ExtendedMantissa) (r : ℚ) : Prop :=
  match em.accuracy with
  | .exact => r = em.mantissa
  | .inexact .lt => em.mantissa < r ∧ r < em.mantissa + 1 / 2
  | .inexact .eq => r = em.mantissa + 1 / 2
  | .inexact .gt => em.mantissa + 1 / 2 < r ∧ r < em.mantissa + 1

theorem stands_exact (m : Nat) : Stands (.ofMantissaAndAccuracy m .exact) m := rfl

theorem Stands.shiftRightOne {em : ExtendedMantissa} {r : ℚ} (h : Stands em r) :
    Stands em.shiftRightOne (r / 2) := by
  obtain ⟨m, round, sticky⟩ := em
  obtain ⟨k, rfl | rfl⟩ : ∃ k, m = 2 * k ∨ m = 2 * k + 1 := ⟨m / 2, by omega⟩
  · have hdiv : 2 * k / 2 = k := by omega
    have hmod : (2 * k % 2 != 0) = false := by simp
    cases round <;> cases sticky <;>
      simp only [Stands, ExtendedMantissa.shiftRightOne, ExtendedMantissa.accuracy, hdiv, hmod,
        Bool.or_false, Bool.or_true, Nat.cast_mul, Nat.cast_ofNat] at h ⊢
    · linarith
    · constructor <;> linarith
    · constructor <;> linarith
    · constructor <;> linarith
  · have hdiv : (2 * k + 1) / 2 = k := by omega
    have hmod : ((2 * k + 1) % 2 != 0) = true := by simp [Nat.add_mod]
    cases round <;> cases sticky <;>
      simp only [Stands, ExtendedMantissa.shiftRightOne, ExtendedMantissa.accuracy, hdiv, hmod,
        Bool.or_false, Bool.or_true, Nat.cast_mul, Nat.cast_add, Nat.cast_ofNat, Nat.cast_one] at h ⊢
    · linarith
    · constructor <;> linarith
    · constructor <;> linarith
    · constructor <;> linarith

theorem Stands.shiftRight {em : ExtendedMantissa} {r : ℚ} (h : Stands em r) (k : Nat) :
    Stands (em >>> k) (r / 2 ^ k) := by
  show Stands (Nat.repeat ExtendedMantissa.shiftRightOne k em) (r / 2 ^ k)
  induction k with
  | zero => simpa [Nat.repeat] using h
  | succ k ih =>
    rw [pow_succ, ← div_div]
    exact ih.shiftRightOne

/-- The significand is cut off, not rounded. -/
theorem Stands.bounds {m : Nat} {a : Accuracy} {r : ℚ} (h : Stands (.ofMantissaAndAccuracy m a) r) :
    m ≤ r ∧ r < m + 1 := by
  match a with
  | .exact =>
    have hr : r = m := h
    constructor <;> linarith
  | .inexact .lt =>
    obtain ⟨hlow, hhigh⟩ : (m : ℚ) < r ∧ r < m + 1 / 2 := h
    constructor <;> linarith
  | .inexact .eq =>
    have hr : r = m + 1 / 2 := h
    constructor <;> linarith
  | .inexact .gt =>
    obtain ⟨hlow, hhigh⟩ : (m : ℚ) + 1 / 2 < r ∧ r < m + 1 := h
    constructor <;> linarith

theorem Stands.nearest {em : ExtendedMantissa} {r : ℚ} (h : Stands em r) :
    Nearest em.roundedMantissa r := by
  obtain ⟨m, round, sticky⟩ := em
  cases round <;> cases sticky
  · have hr : r = m := h
    show Nearest m r
    exact ⟨by linarith, by linarith, fun _ => ⟨by linarith, by linarith⟩⟩
  · obtain ⟨hlow, hhigh⟩ : (m : ℚ) < r ∧ r < m + 1 / 2 := h
    show Nearest m r
    exact ⟨by linarith, by linarith, fun _ => ⟨by linarith, by linarith⟩⟩
  · have hr : r = m + 1 / 2 := h
    show Nearest (m + m % 2) r
    -- at a tie the even one of the two is taken
    obtain heven | hodd : m % 2 = 0 ∨ m % 2 = 1 := by omega
    · rw [heven, Nat.add_zero]
      exact ⟨by linarith, by linarith, fun h1 => by omega⟩
    · rw [hodd]
      exact ⟨by push_cast; linarith, by push_cast; linarith, fun h1 => by omega⟩
  · obtain ⟨hlow, hhigh⟩ : (m : ℚ) + 1 / 2 < r ∧ r < m + 1 := h
    show Nearest (m + 1) r
    exact ⟨by push_cast; linarith, by push_cast; linarith,
      fun _ => ⟨by push_cast; linarith, by push_cast; linarith⟩⟩

/-- The exponent of the last place of a product or a whole number `m * 2^e`. -/
def place (m : Nat) (e : Int) : Int := lastPlace (m.log2 + e)

/-- `n * 2^q` is the double next to `r`. -/
structure Rounded (n : Nat) (q : Int) (r : ℚ) : Prop where
  nearest : Nearest n (r * 2 ^ (-q))
  le_q : minExponent ≤ q
  place : q = minExponent ∨ 2 ^ (q + 52) ≤ r

/-- The significand is within its range, at an exponent that may be too great for a double. -/
structure Magnitude.Canonical (x : Magnitude) : Prop where
  m_lt : x.m < 2 * hiddenBit
  le_q : minExponent ≤ x.q
  eq_of_lt : x.m < hiddenBit → x.q = minExponent

theorem targetExponent_eq (m : Nat) (e : Int) :
    Format.binary64.targetExponent (totalExponent m e) = place m e := by
  show max ((m.log2 : Int) + 1 + e - (53 : Nat)) (-1074) = max (-1074) ((m.log2 : Int) + e - 52)
  omega

theorem shiftToTargetExponent_eq {m : Nat} {e : Int} (h : e ≤ place m e) (a : Accuracy) :
    shiftToTargetExponent Format.binary64 m e a =
      (ExtendedMantissa.ofMantissaAndAccuracy m a >>> (place m e - e).toNat, place m e) := by
  unfold shiftToTargetExponent shiftToExponent
  rw [targetExponent_eq]
  refine Prod.ext rfl ?_
  show e + ((place m e - e).toNat : Int) = place m e
  omega

theorem shiftToTargetExponent_of_lt {m : Nat} {q : Int} (hm : m < 2 * hiddenBit) (hq : minExponent ≤ q) :
    shiftToTargetExponent Format.binary64 m q .exact = (⟨m, false, false⟩, q) := by
  have hlog : m.log2 < 53 := by
    by_cases h : m = 0
    · rw [h]
      decide
    · exact (Nat.log2_lt h).2 hm
  have hle : place m q ≤ q := max_le hq (by omega)
  have hstay : (place m q - q).toNat = 0 := by omega
  unfold shiftToTargetExponent shiftToExponent
  simp only [targetExponent_eq, hstay]
  exact Prod.ext rfl (Int.add_zero q)

theorem shiftToTargetExponent_double {q : Int} (hq : minExponent ≤ q) :
    shiftToTargetExponent Format.binary64 (2 * hiddenBit) q .exact = (⟨hiddenBit, false, false⟩, q + 1) := by
  have hlog : Nat.log2 (2 * hiddenBit) = 53 := (Nat.log2_eq_iff (by decide)).2 (by decide)
  have hplace : place (2 * hiddenBit) q = q + 1 := by
    unfold place lastPlace
    rw [hlog]
    show max minExponent ((53 : Int) + q - 52) = q + 1
    omega
  rw [shiftToTargetExponent_eq (by omega), hplace, show (q + 1 - q).toNat = 1 by omega]
  rfl

theorem zpow_log2_mul {m : Nat} (hm : 0 < m) (e : Int) :
    (2 : ℚ) ^ (m.log2 + e) ≤ m * 2 ^ e ∧ (m : ℚ) * 2 ^ e < 2 ^ ((m.log2 : Int) + e + 1) := by
  have hpos : (0 : ℚ) < 2 ^ e := zpow_pos two_pos _
  constructor
  · rw [zpow_add₀ two_ne_zero]
    exact mul_le_mul_of_nonneg_right (zpow_log2_le hm) hpos.le
  · rw [show (m.log2 : Int) + e + 1 = m.log2 + 1 + e by omega, zpow_add₀ two_ne_zero]
    exact mul_lt_mul_of_pos_right (lt_zpow_log2 m) hpos

theorem Rounded.le_double {n : Nat} {q : Int} {r : ℚ} (h : Rounded n q r) (hr : r ≤ 2 ^ (q + 53)) :
    n ≤ 2 * hiddenBit := by
  have hscaled : r * 2 ^ (-q) ≤ 2 * hiddenBit := by
    calc r * 2 ^ (-q) ≤ 2 ^ (q + 53) * 2 ^ (-q) := mul_le_mul_of_nonneg_right hr (zpow_pos two_pos _).le
      _ = 2 ^ (53 : Int) := by rw [← zpow_add₀ two_ne_zero]; congr 1; omega
      _ = 2 * hiddenBit := by norm_num [hiddenBit]
  have hlow := h.nearest.low
  have : (n : ℚ) < (2 * hiddenBit : Nat) + 1 := by push_cast; linarith
  exact Nat.lt_succ_iff.1 (by exact_mod_cast this)

theorem Rounded.hiddenBit_le {n : Nat} {q : Int} {r : ℚ} (h : Rounded n q r) (hq : q ≠ minExponent) :
    hiddenBit ≤ n := by
  have hscaled : (hiddenBit : ℚ) ≤ r * 2 ^ (-q) := by
    calc (hiddenBit : ℚ) = 2 ^ (52 : Int) := by norm_num [hiddenBit]
      _ = 2 ^ (q + 52) * 2 ^ (-q) := by rw [← zpow_add₀ two_ne_zero]; congr 1; omega
      _ ≤ r * 2 ^ (-q) := mul_le_mul_of_nonneg_right (h.place.resolve_left hq) (zpow_pos two_pos _).le
  have hhigh := h.nearest.high
  have : (hiddenBit : ℚ) < n + 1 := by linarith
  exact Nat.lt_succ_iff.1 (by exact_mod_cast this)

/-- A number is rounded once. The shift that follows is for a significand of `2^53`, which rounding may
leave, and changes no value. -/
theorem roundWithAccuracy_eq {m : Nat} {e : Int} {a : Accuracy} {r : ℚ}
    (hr : Stands (.ofMantissaAndAccuracy m a) r) (hm : 0 < m ∨ place m e = minExponent)
    (h : e ≤ place m e) (s : Sign) :
    ∃ (z : Magnitude) (n : Nat), roundWithAccuracy Format.binary64 s m e a = z.signed s ∧ z.Canonical ∧
      z.q ≤ place m e + 1 ∧ z.value = n * 2 ^ place m e ∧ Rounded n (place m e) (r * 2 ^ e) := by
  obtain ⟨hfloor, hceil⟩ := hr.bounds
  have hpos : (0 : ℚ) < 2 ^ e := zpow_pos two_pos _
  have hq : minExponent ≤ place m e := le_max_left _ _
  have hhigh : r * 2 ^ e ≤ 2 ^ (place m e + 53) := by
    have hlog : m + 1 ≤ 2 ^ (m.log2 + 1) := Nat.lt_log2_self
    calc r * 2 ^ e ≤ 2 ^ ((m.log2 : Int) + 1) * 2 ^ e :=
          mul_le_mul_of_nonneg_right (hceil.le.trans (by exact_mod_cast hlog)) hpos.le
      _ = 2 ^ ((m.log2 : Int) + 1 + e) := (zpow_add₀ two_ne_zero _ _).symm
      _ ≤ 2 ^ (place m e + 53) := by
          have := le_max_right minExponent ((m.log2 : Int) + e - 52)
          refine zpow_le_zpow_right₀ one_le_two ?_
          unfold place lastPlace
          omega
  have hrounded : Rounded
      (ExtendedMantissa.ofMantissaAndAccuracy m a >>> (place m e - e).toNat).roundedMantissa
      (place m e) (r * 2 ^ e) := by
    refine ⟨?_, hq, ?_⟩
    · convert (hr.shiftRight (place m e - e).toNat).nearest using 1
      rw [mul_assoc, ← zpow_add₀ two_ne_zero, div_eq_mul_inv, ← zpow_natCast, ← zpow_neg]
      congr 2
      omega
    · obtain hmin | hlast := max_choice minExponent ((m.log2 : Int) + e - 52)
      · exact .inl hmin
      · refine hm.symm.imp_right fun hm => ?_
        calc (2 : ℚ) ^ (place m e + 52) = 2 ^ ((m.log2 : Int) + e) := by
              unfold place lastPlace
              rw [hlast, sub_add_cancel]
          _ ≤ m * 2 ^ e := (zpow_log2_mul hm e).1
          _ ≤ r * 2 ^ e := mul_le_mul_of_nonneg_right hfloor hpos.le
  generalize hn : (ExtendedMantissa.ofMantissaAndAccuracy m a >>> (place m e - e).toNat).roundedMantissa = n
    at hrounded
  have hle : n ≤ 2 * hiddenBit := hrounded.le_double hhigh
  unfold roundWithAccuracy
  simp only [shiftToTargetExponent_eq h, hn]
  by_cases hlt : n < 2 * hiddenBit
  · refine ⟨⟨n, place m e⟩, n, ?_, ⟨hlt, hq, fun hsub => ?_⟩, (Int.lt_succ _).le, rfl, hrounded⟩
    · simp only [shiftToTargetExponent_of_lt hlt hq]
      rfl
    · by_contra hne
      exact absurd (hrounded.hiddenBit_le hne) (Nat.not_le.2 hsub)
  · obtain rfl : n = 2 * hiddenBit := by omega
    refine ⟨⟨hiddenBit, place m e + 1⟩, 2 * hiddenBit, ?_, ⟨(by decide : hiddenBit < 2 * hiddenBit),
      hq.trans (Int.lt_succ _).le, fun hsub => ?_⟩, le_refl _, ?_, hrounded⟩
    · simp only [shiftToTargetExponent_double hq]
      rfl
    · exact absurd hsub (Nat.lt_irrefl _)
    · unfold Magnitude.value
      rw [zpow_add_one₀ two_ne_zero]
      push_cast
      ring

end Federation.Binary64
