import Mathlib
import Federation.Binary64.Rounding
/-!
# The bits of doubles

A finite double is made again of its bits, and its magnitude and its sign are all that its bits hold.
The facts on packed formats that this rests on come with the whole of Mathlib only.
-/

namespace Federation.Binary64

open Float.Model

open Float.Model.UnpackedFloat (unpackMantissa unpackExponent unpackSign)

/-! ## 1. Finite bits -/

/-- The bits of a double. -/
abbrev Word64 := BitVec Format.binary64.numBits

theorem toNat_unpackMantissa (b : Word64) : (unpackMantissa b).toNat = b.toNat % 4503599627370496 := by
  rw [UnpackedFloat.unpackMantissa_def, BitVec.extractLsb'_toNat, Nat.shiftRight_zero]
  rfl

theorem toNat_unpackExponent (b : Word64) :
    (unpackExponent b).toNat = b.toNat / 4503599627370496 % 2048 := by
  rw [UnpackedFloat.unpackExponent_def, BitVec.extractLsb'_toNat, Nat.shiftRight_eq_div_pow]
  rfl

theorem toNat_unpackSign (b : Word64) : (unpackSign b).toNat = b.toNat / 9223372036854775808 % 2 := by
  rw [UnpackedFloat.unpackSign_def, BitVec.extractLsb'_toNat, Nat.shiftRight_eq_div_pow]
  rfl

/-- The bits stand for a finite number: the exponent is not the greatest one. -/
def FiniteBits (n : Nat) : Prop := n / 4503599627370496 % 2048 ≠ 2047

theorem unpackExponent_ne {b : Word64} (h : FiniteBits b.toNat) : unpackExponent b ≠ -1#_ := by
  intro heq
  apply h
  rw [← toNat_unpackExponent, heq]
  rfl

/-- Finite bits are packed again as they were. -/
theorem pack_unpack_of_finiteBits {b : Word64} (h : FiniteBits b.toNat) :
    UnpackedFloat.pack Format.binary64 (UnpackedFloat.unpack Format.binary64 b) = b := by
  have hnan : ¬UnpackedFloat.isNaNBits b = true := fun hnan =>
    unpackExponent_ne h (of_decide_eq_true hnan).1
  rw [UnpackedFloat.pack_unpack, if_neg hnan]

theorem toBits_ofBits {b : UInt64} (h : FiniteBits b.toNat) : (Float.ofBits b).toBits = b :=
  UInt64.toBitVec_inj.1 (pack_unpack_of_finiteBits h)

theorem finiteBits_of_isFinite {x : Float} (h : x.isFinite = true) : FiniteBits x.toBits.toNat := by
  intro heq
  have hexp : @unpackExponent Format.binary64 x.toBits.toBitVec = -1#_ := by
    apply BitVec.eq_of_toNat_eq
    rw [toNat_unpackExponent]
    exact heq
  have hunpack : (UnpackedFloat.unpack Format.binary64 x.toBits.toBitVec).isFinite = true := h
  unfold UnpackedFloat.unpack at hunpack
  simp only [if_pos hexp] at hunpack
  split at hunpack <;> exact absurd hunpack Bool.false_ne_true

theorem isNaN_of_isFinite {x : Float} (h : x.isFinite = true) : x.isNaN = false := by
  have hmodel : ∀ u : Float.Model.UnpackedFloat, u.isFinite = true → u.isNaN = false := by
    rintro (_ | _ | _ | _) hu
    all_goals first | rfl | exact absurd hu Bool.false_ne_true
  exact hmodel _ h

/-- Bits that differ in the sign only stand for opposite numbers. -/
theorem neg_unpack {b c : Word64} (hc : c.toNat = b.toNat + Word.signBit) :
    (UnpackedFloat.unpack Format.binary64 b).neg = UnpackedFloat.unpack Format.binary64 c := by
  have hlt : c.toNat < 18446744073709551616 := c.isLt
  simp only [Word.signBit] at hc
  have hmantissa : unpackMantissa c = unpackMantissa b := by
    apply BitVec.eq_of_toNat_eq
    rw [toNat_unpackMantissa, toNat_unpackMantissa]
    omega
  have hexponent : unpackExponent c = unpackExponent b := by
    apply BitVec.eq_of_toNat_eq
    rw [toNat_unpackExponent, toNat_unpackExponent]
    omega
  have hsign : unpackSign c = 1#1 ∧ unpackSign b = 0#1 := by
    constructor <;> apply BitVec.eq_of_toNat_eq <;> rw [toNat_unpackSign]
    · show _ = 1
      omega
    · show _ = 0
      omega
  unfold UnpackedFloat.unpack
  simp only [hmantissa, hexponent, hsign.1, hsign.2]
  split_ifs <;> rfl

/-- The sign is the highest bit. -/
theorem toBits_neg {b : UInt64} (h : FiniteBits b.toNat) (hlt : b.toNat < Word.signBit) :
    (-Float.ofBits b).toBits.toNat = b.toNat + Word.signBit := by
  have hsize : b.toNat + Word.signBit < UInt64.size := Nat.add_lt_add_right hlt Word.signBit
  have hc : (UInt64.ofNat (b.toNat + Word.signBit)).toNat = b.toNat + Word.signBit :=
    UInt64.toNat_ofNat_of_lt' hsize
  have hfinite : FiniteBits (UInt64.ofNat (b.toNat + Word.signBit)).toNat := by
    rw [hc]
    simp only [FiniteBits, Word.signBit] at h ⊢
    omega
  have hbits : (-Float.ofBits b).toBits = UInt64.ofNat (b.toNat + Word.signBit) := by
    apply UInt64.toBitVec_inj.1
    show UnpackedFloat.pack Format.binary64
      (UnpackedFloat.unpack Format.binary64 (Float.ofBits b).toBits.toBitVec).neg = _
    rw [toBits_ofBits h, neg_unpack (c := (UInt64.ofNat (b.toNat + Word.signBit)).toBitVec) hc]
    exact pack_unpack_of_finiteBits hfinite
  rw [hbits, hc]

/-! ## 2. Magnitudes -/

/-- The significand is within its range, and only at the least exponent below `2^52`. -/
structure Magnitude.Normal (x : Magnitude) : Prop where
  m_lt : x.m < 2 * hiddenBit
  le_q : minExponent ≤ x.q
  q_le : x.q ≤ 971
  eq_of_lt : x.m < hiddenBit → x.q = minExponent

/-- The exponent and the fraction of a finite number, and the magnitude that they stand for. -/
theorem exists_fields {x : Float} (h : x.isFinite = true) :
    ∃ e f : Nat, e < 2047 ∧ f < hiddenBit ∧ x.toBits.toNat % Word.signBit = e * hiddenBit + f ∧
      magnitude x = if e = 0 then ⟨f, minExponent⟩ else ⟨hiddenBit + f, (e : Int) - 1075⟩ := by
  have hbits : ¬x.toBits.toNat / 4503599627370496 % 2048 = 2047 := finiteBits_of_isFinite h
  refine ⟨x.toBits.toNat / hiddenBit % 2048, x.toBits.toNat % hiddenBit, ?_, ?_, ?_, rfl⟩
  · simp only [hiddenBit]
    omega
  · exact Nat.mod_lt _ (by decide)
  · simp only [hiddenBit, Word.signBit]
    omega

theorem normal_magnitude {x : Float} (h : x.isFinite = true) : (magnitude x).Normal := by
  obtain ⟨e, f, he, hf, -, hx⟩ := exists_fields h
  rw [hx]
  by_cases hzero : e = 0
  · rw [if_pos hzero]
    exact ⟨Nat.lt_trans hf (by decide), Int.le_refl _, (by decide : minExponent ≤ 971), fun _ => rfl⟩
  · rw [if_neg hzero]
    refine ⟨?_, ?_, ?_, fun hlt => ?_⟩ <;> simp only [minExponent] at * <;> omega

theorem toNat_ofNat_min (n : Nat) (h : n ≤ 2047 * hiddenBit) :
    (UInt64.ofNat (min n (2047 * hiddenBit))).toNat = n := by
  rw [Nat.min_eq_left h]
  exact UInt64.toNat_ofNat_of_lt' (Nat.lt_of_le_of_lt h (by decide))

theorem Magnitude.Normal.toNat_pack {x : Magnitude} (h : x.Normal) :
    (pack x.m x.q).toNat =
      if x.m < hiddenBit then x.m else (x.q + 1074).toNat * hiddenBit + x.m := by
  have hm := h.m_lt
  have hq := h.q_le
  refine toNat_ofNat_min _ ?_
  by_cases hlt : x.m < hiddenBit
  · rw [if_pos hlt]
    omega
  · rw [if_neg hlt]
    simp only [hiddenBit] at hm ⊢
    omega

theorem Magnitude.Normal.finiteBits {x : Magnitude} (h : x.Normal) :
    FiniteBits (pack x.m x.q).toNat := by
  have hm := h.m_lt
  have hq := h.q_le
  rw [h.toNat_pack, FiniteBits]
  by_cases hlt : x.m < hiddenBit
  · rw [if_pos hlt]
    simp only [hiddenBit] at hlt
    omega
  · rw [if_neg hlt]
    simp only [hiddenBit] at hm ⊢
    omega

theorem ofBits_pack_zero (q : Int) : Float.ofBits (pack 0 q) = 0.0 := by
  have hzero : pack 0 q = 0 := by
    rw [pack, if_pos (by decide)]
    rfl
  rw [hzero]
  rfl

/-- The bits of a magnitude are those of the number without its sign. -/
theorem toNat_pack_magnitude {x : Float} (h : x.isFinite = true) :
    (pack (magnitude x).m (magnitude x).q).toNat = x.toBits.toNat % Word.signBit := by
  obtain ⟨e, f, he, hf, hbits, hx⟩ := exists_fields h
  rw [(normal_magnitude h).toNat_pack, hbits, hx]
  by_cases hzero : e = 0
  · rw [if_pos hzero, if_pos hf, hzero, Nat.zero_mul, Nat.zero_add]
  · rw [if_neg hzero]
    have hnormal : ¬hiddenBit + f < hiddenBit := by omega
    have hexp : ((e : Int) - 1075 + 1074).toNat = e - 1 := by omega
    show (if hiddenBit + f < hiddenBit then hiddenBit + f
      else ((e : Int) - 1075 + 1074).toNat * hiddenBit + (hiddenBit + f)) = _
    rw [if_neg hnormal, hexp, ← Nat.add_assoc, ← Nat.succ_mul, Nat.sub_one, Nat.succ_pred hzero]

/-- A finite number is its magnitude with its sign. -/
theorem eq_of_magnitude {x : Float} (h : x.isFinite = true) :
    (if isNegative x then -Float.ofBits (pack (magnitude x).m (magnitude x).q)
      else Float.ofBits (pack (magnitude x).m (magnitude x).q)) = x := by
  have hlt : x.toBits.toNat < 18446744073709551616 := x.toBits.toNat_lt
  have hfinite := (normal_magnitude h).finiteBits
  have hpack := toNat_pack_magnitude h
  rw [← Float.toBits_inj, ← UInt64.toNat_inj]
  by_cases hsign : isNegative x = true
  · rw [if_pos hsign, toBits_neg hfinite (hpack ▸ Nat.mod_lt _ (by decide)), hpack]
    rw [isNegative, decide_eq_true_eq] at hsign
    simp only [Word.signBit] at hsign ⊢
    omega
  · rw [if_neg hsign, toBits_ofBits hfinite, hpack]
    rw [isNegative, decide_eq_true_eq] at hsign
    simp only [Word.signBit] at hsign ⊢
    omega

end Federation.Binary64
