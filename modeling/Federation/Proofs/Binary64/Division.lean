import Federation.Proofs.Binary64.Arithmetic
/-!
# Quotients and undefined doubles

The quotient of two doubles is the double next to the exact one as well: it is cut off behind enough bits,
and the rest of the division tells on which side of a half it lies. No operation makes an undefined double
of defined ones unless infinities or a zero and an infinity meet, and of two defined doubles one is not
above the other.
-/

namespace Federation.Binary64

open Float.Model Float.Model.UnpackedFloat

/-! ## 1. Quotients -/

/-- A whole quotient with the rest of the division stands for the quotient. -/
theorem stands_div (n : Nat) {d : Nat} (hd : 0 < d) :
    Stands (.ofMantissaAndAccuracy (n / d) (accuracyOfFraction (n % d) d)) (n / d) := by
  have hpos : (0 : ℚ) < d := Nat.cast_pos.2 hd
  have hquotient : (n : ℚ) / d = (n / d : Nat) + (n % d : Nat) / d := by
    rw [div_eq_iff hpos.ne', add_mul, div_mul_cancel₀ _ hpos.ne']
    exact_mod_cast (Nat.div_add_mod' n d).symm
  have hrest : ((n % d : Nat) : ℚ) / d < 1 := (div_lt_one hpos).2 (Nat.cast_lt.2 (Nat.mod_lt n hd))
  rw [hquotient]
  generalize n / d = k at *
  generalize n % d = rest at *
  unfold accuracyOfFraction
  by_cases hzero : rest = 0
  · rw [if_pos hzero, hzero, Nat.cast_zero, zero_div, add_zero]
    exact stands_exact k
  rw [if_neg hzero]
  have hnonzero : (0 : ℚ) < rest / d := div_pos (Nat.cast_pos.2 (Nat.pos_of_ne_zero hzero)) hpos
  cases hside : compare (2 * rest) d with
  | lt =>
    have hlt : (2 : ℚ) * rest < d := by exact_mod_cast Nat.compare_eq_lt.1 hside
    have hhalf : (rest : ℚ) / d < 1 / 2 := by
      rw [div_lt_div_iff₀ hpos two_pos]
      linarith
    show (k : ℚ) < k + rest / d ∧ (k : ℚ) + rest / d < k + 1 / 2
    constructor <;> linarith
  | eq =>
    have heq : (2 : ℚ) * rest = d := by exact_mod_cast Nat.compare_eq_eq.1 hside
    have hhalf : (rest : ℚ) / d = 1 / 2 := by
      rw [div_eq_div_iff hpos.ne' two_ne_zero]
      linarith
    show (k : ℚ) + rest / d = k + 1 / 2
    rw [hhalf]
  | gt =>
    have hgt : (d : ℚ) < 2 * rest := by exact_mod_cast Nat.compare_eq_gt.1 hside
    have hhalf : 1 / 2 < (rest : ℚ) / d := by
      rw [div_lt_div_iff₀ two_pos hpos]
      linarith
    show (k : ℚ) + 1 / 2 < k + rest / d ∧ (k : ℚ) + rest / d < k + 1
    constructor <;> linarith

/-- The exponent at which a quotient is cut off. -/
def cutOff (x y : Magnitude) : Int :=
  min (x.q - y.q) (max (totalExponent x.m x.q - totalExponent y.m y.q - 53) minExponent)

theorem divCore_eq (x y : Magnitude) :
    divCore Format.binary64 x.m x.q y.m y.q =
      (x.m <<< (x.q - y.q - cutOff x y).toNat / y.m, cutOff x y,
        accuracyOfFraction (x.m <<< (x.q - y.q - cutOff x y).toNat % y.m) y.m) := rfl

theorem value_div_eq (x y : Magnitude) :
    ((x.m <<< (x.q - y.q - cutOff x y).toNat : Nat) : ℚ) / y.m * 2 ^ cutOff x y = x.value / y.value := by
  have hcut : cutOff x y ≤ x.q - y.q := min_le_left _ _
  have hshift : ((x.q - y.q - cutOff x y).toNat : Int) + cutOff x y = x.q - y.q := by omega
  rw [Nat.shiftLeft_eq, Nat.cast_mul, Nat.cast_pow, Nat.cast_ofNat, div_mul_eq_mul_div, mul_assoc,
    ← zpow_natCast, ← zpow_add₀ two_ne_zero, hshift, zpow_sub₀ two_ne_zero, Magnitude.value,
    Magnitude.value, mul_div_assoc', div_div, mul_comm (2 ^ y.q : ℚ)]

/-- Above the least exponent a quotient is cut off behind 53 bits or more. -/
theorem hiddenBit_le_div {x y : Magnitude} (hx : 0 < x.m) (hy : 0 < y.m) (h : minExponent < cutOff x y) :
    hiddenBit ≤ x.m <<< (x.q - y.q - cutOff x y).toNat / y.m := by
  have hxbits := (zpow_log2_mul hx x.q).1
  have hybits := (zpow_log2_mul hy y.q).2
  have hypos : 0 < y.value := mul_pos (Nat.cast_pos.2 hy) (zpow_pos two_pos _)
  have hcut : cutOff x y ≤ totalExponent x.m x.q - totalExponent y.m y.q - 53 := by
    have hle : cutOff x y ≤ max (totalExponent x.m x.q - totalExponent y.m y.q - 53) minExponent :=
      min_le_right _ _
    omega
  have horder : (2 : ℚ) ^ (cutOff x y + 52) * y.value ≤ x.value := by
    calc (2 : ℚ) ^ (cutOff x y + 52) * y.value
        ≤ 2 ^ (cutOff x y + 52) * 2 ^ ((y.m.log2 : Int) + y.q + 1) :=
          mul_le_mul_of_nonneg_left hybits.le (zpow_pos two_pos _).le
      _ = 2 ^ (cutOff x y + 52 + ((y.m.log2 : Int) + y.q + 1)) := (zpow_add₀ two_ne_zero _ _).symm
      _ ≤ 2 ^ ((x.m.log2 : Int) + x.q) := by
          refine zpow_le_zpow_right₀ one_le_two ?_
          unfold totalExponent at hcut
          omega
      _ ≤ x.value := hxbits
  have hquotient : (hiddenBit : ℚ) ≤ (x.m <<< (x.q - y.q - cutOff x y).toNat : Nat) / y.m := by
    refine le_of_mul_le_mul_right ?_ (zpow_pos (two_pos (α := ℚ)) (cutOff x y))
    rw [value_div_eq, hiddenBit_mul_zpow, le_div_iff₀ hypos]
    exact horder
  rw [le_div_iff₀ (Nat.cast_pos.2 hy)] at hquotient
  exact (Nat.le_div_iff_mul_le hy).2 (by exact_mod_cast hquotient)

theorem div_roundsTo {x y : Float} (hx : x.isFinite = true) (hy : y.isFinite = true) (hzero : value y ≠ 0) :
    RoundsTo (x / y) (signOf x / signOf y) (|value x| / |value y|) := by
  have hdiv : (x / y).toModel = Float.Model.pack (UnpackedFloat.div Format.binary64
      ((magnitude x).signed (signOf x)) ((magnitude y).signed (signOf y))) := by
    rw [← unpack_of_isFinite hx, ← unpack_of_isFinite hy]
    rfl
  have hym : (magnitude y).m ≠ 0 := by
    intro hm
    refine hzero (abs_eq_zero.1 ?_)
    rw [abs_value, Magnitude.value, hm, Nat.cast_zero, zero_mul]
  rw [abs_value, abs_value]
  unfold Magnitude.signed at hdiv
  by_cases hxm : (magnitude x).m = 0
  · have hquotient : (magnitude x).value / (magnitude y).value = 0 := by
      rw [Magnitude.value, hxm, Nat.cast_zero, zero_mul, zero_div]
    rw [hquotient]
    refine roundsTo_zero ?_
    rw [hdiv, dif_pos hxm, dif_neg hym]
    rfl
  have hxpos := Nat.pos_of_ne_zero hxm
  have hypos := Nat.pos_of_ne_zero hym
  rw [dif_neg hxm, dif_neg hym, UnpackedFloat.div, divCore_eq] at hdiv
  have hvalue := value_div_eq (magnitude x) (magnitude y)
  have hbits := hiddenBit_le_div (x := magnitude x) (y := magnitude y) hxpos hypos
  generalize (magnitude x).m <<<
    ((magnitude x).q - (magnitude y).q - cutOff (magnitude x) (magnitude y)).toNat = n at *
  generalize cutOff (magnitude x) (magnitude y) = e at *
  have hplace : e ≤ place (n / (magnitude y).m) e ∧
      (0 < n / (magnitude y).m ∨ place (n / (magnitude y).m) e = minExponent) := by
    by_cases hleast : e ≤ minExponent
    · refine ⟨le_max_of_le_left hleast, ?_⟩
      obtain hm | hm := Nat.eq_zero_or_pos (n / (magnitude y).m)
      · right
        rw [hm, place, lastPlace, Nat.log2_zero]
        exact max_eq_left (by omega)
      · exact .inl hm
    · have hm := hbits (Int.not_le.1 hleast)
      have hpos : 0 < n / (magnitude y).m := Nat.lt_of_lt_of_le (by decide) hm
      have hlog : 52 ≤ (n / (magnitude y).m).log2 := (Nat.le_log2 hpos.ne').2 hm
      exact ⟨le_max_of_le_right (by omega), .inl hpos⟩
  obtain ⟨z, k, hround, hz, -, hzvalue, hk⟩ := roundWithAccuracy_eq (stands_div n hypos) hplace.2 hplace.1
    (signOf x / signOf y)
  rw [hvalue] at hk
  exact ⟨z, k, _, by rw [hdiv, ← hround], hz, hzvalue, hk⟩

/-! ## 2. Undefined results -/

theorem isNaN_unpack_pack (u : UnpackedFloat) : (Float.Model.pack u).unpack.isNaN = u.isNaN := by
  show (UnpackedFloat.unpack Format.binary64 (UnpackedFloat.pack Format.binary64 u)).isNaN = u.isNaN
  -- only a set exponent can make an undefined double
  have hdefined : ∀ {b : BitVec Format.binary64.numBits}, unpackExponent b ≠ -1#_ →
      (UnpackedFloat.unpack Format.binary64 b).isNaN = false := by
    intro b hb
    unfold UnpackedFloat.unpack
    simp only [if_neg hb]
    split
    · split <;> rfl
    · rfl
  have hinfinity : ∀ s, (UnpackedFloat.unpack Format.binary64
      (UnpackedFloat.packedInfinity Format.binary64 s)).isNaN = false := by
    intro s
    unfold UnpackedFloat.unpack UnpackedFloat.packedInfinity
    simp only [unpackExponent_packComponents, unpackMantissa_packComponents]
    rfl
  cases u with
  | notANumber => decide
  | infinity s => exact hinfinity s
  | zero s => cases s <;> decide
  | finite s m e hm =>
    unfold UnpackedFloat.pack
    dsimp only
    split
    · exact hinfinity s
    next hrange =>
      split
      · refine hdefined ?_
        rw [unpackExponent_packComponents]
        intro hset
        have hnat := congrArg BitVec.toNat hset
        have hlimit : ¬2048 ≤ (e + Format.binary64.exponentBias +
          Format.binary64.mantissaBitsWithoutImplicit).toNat + 1 := hrange
        rw [BitVec.toNat_ofNat] at hnat
        have hall : (-BitVec.ofNat Format.binary64.exponentBits 1).toNat = 2047 := rfl
        have hsize : 2 ^ Format.binary64.exponentBits = 2048 := rfl
        rw [hall, hsize] at hnat
        omega
      · refine hdefined ?_
        rw [unpackExponent_packComponents]
        decide

theorem isNaN_roundWithAccuracy (s : Sign) (m : Nat) (e : Int) (a : Accuracy) :
    (roundWithAccuracy Format.binary64 s m e a).isNaN = false := by
  unfold roundWithAccuracy
  dsimp only
  split <;> rfl

theorem isNaN_normalize (m e : Int) (s : Sign) :
    (UnpackedFloat.normalize Format.binary64 m e s).isNaN = false := by
  unfold UnpackedFloat.normalize
  split
  · exact isNaN_roundWithAccuracy ..
  · rfl
  · exact isNaN_roundWithAccuracy ..

theorem isNaN_add_unpacked {u v : UnpackedFloat} (hu : u.isFinite = true) (hv : v.isNaN = false) :
    (UnpackedFloat.add Format.binary64 u v).isNaN = false := by
  match u, v, hu, hv with
  | .zero s, .zero t, _, _ => cases s <;> cases t <;> rfl
  | .zero _, .infinity _, _, _ => rfl
  | .zero _, .finite .., _, _ => rfl
  | .finite .., .infinity _, _, _ => rfl
  | .finite .., .zero _, _, _ => rfl
  | .finite .., .finite .., _, _ => exact isNaN_normalize ..

theorem isNaN_sub_unpacked {u v : UnpackedFloat} (hu : u.isFinite = true) (hv : v.isNaN = false) :
    (UnpackedFloat.sub Format.binary64 u v).isNaN = false := by
  match u, v, hu, hv with
  | .zero s, .zero t, _, _ => cases s <;> cases t <;> rfl
  | .zero _, .infinity _, _, _ => rfl
  | .zero _, .finite .., _, _ => rfl
  | .finite .., .infinity _, _, _ => rfl
  | .finite .., .zero _, _, _ => rfl
  | .finite .., .finite .., _, _ => exact isNaN_normalize ..

section Undefined

variable {x y : Float}

theorem isNaN_neg (x : Float) : (-x).isNaN = x.isNaN := by
  show (Float.Model.pack x.toModel.unpack.neg).unpack.isNaN = x.toModel.unpack.isNaN
  rw [isNaN_unpack_pack]
  cases x.toModel.unpack <;> rfl

theorem isNaN_add (hx : x.isFinite = true) (hy : y.isNaN = false) : (x + y).isNaN = false := by
  show (Float.Model.pack (UnpackedFloat.add Format.binary64 _ _)).unpack.isNaN = false
  rw [isNaN_unpack_pack]
  exact isNaN_add_unpacked hx hy

theorem isNaN_sub (hx : x.isFinite = true) (hy : y.isNaN = false) : (x - y).isNaN = false := by
  show (Float.Model.pack (UnpackedFloat.sub Format.binary64 _ _)).unpack.isNaN = false
  rw [isNaN_unpack_pack]
  exact isNaN_sub_unpacked hx hy

theorem isNaN_sub_of_isNaN (x : Float) (hy : y.isNaN = true) : (x - y).isNaN = true := by
  have hy : y.toModel.unpack.isNaN = true := hy
  show (Float.Model.pack (UnpackedFloat.sub Format.binary64 _ _)).unpack.isNaN = true
  rw [isNaN_unpack_pack]
  cases hv : y.toModel.unpack with
  | notANumber => cases x.toModel.unpack <;> rfl
  | _ =>
    rw [hv] at hy
    contradiction

theorem isNaN_mul (hx : x.isNaN = false) (hy : y.isFinite = true) (hzero : value y ≠ 0) :
    (x * y).isNaN = false := by
  have hx : x.toModel.unpack.isNaN = false := hx
  have hm : (magnitude y).m ≠ 0 := by
    intro hm
    refine hzero (abs_eq_zero.1 ?_)
    rw [abs_value, Magnitude.value, hm, Nat.cast_zero, zero_mul]
  show (Float.Model.pack (UnpackedFloat.mul Format.binary64 _ _)).unpack.isNaN = false
  rw [isNaN_unpack_pack, unpack_of_isFinite hy, Magnitude.signed, dif_neg hm]
  cases hu : x.toModel.unpack with
  | notANumber =>
    rw [hu] at hx
    contradiction
  | infinity s => rfl
  | zero s => rfl
  | finite s m e _ => exact isNaN_roundWithAccuracy ..

/-! ## 3. Order -/

theorem swap_compare (u v : UnpackedFloat) : (u.compare v).map Ordering.swap = v.compare u := by
  cases u with
  | notANumber => cases v <;> rfl
  | infinity s =>
    cases v with
    | infinity t => cases s <;> cases t <;> rfl
    | _ => cases s <;> rfl
  | zero s =>
    cases v with
    | infinity t => cases t <;> rfl
    | finite t m e _ => cases t <;> rfl
    | _ => rfl
  | finite s m e _ =>
    cases v with
    | notANumber => cases s <;> rfl
    | infinity t => cases s <;> cases t <;> rfl
    | zero t => cases s <;> rfl
    | finite t m' e' _ =>
      have hswap : ((compare e e').then (compare m m')).swap = (compare e' e).then (compare m' m) := by
        rw [Ordering.swap_then, Int.compare_swap, Nat.compare_swap]
      cases s <;> cases t
      · show some (((compare e e').then (compare m m')).swap.swap) =
          some ((compare e' e).then (compare m' m)).swap
        rw [hswap]
      · rfl
      · rfl
      · exact congrArg some hswap

theorem not_lt_of_isNaN (x : Float) (hy : y.isNaN = true) : ¬x < y := by
  have hy : y.toModel.unpack.isNaN = true := hy
  rw [lt_unpack]
  cases hv : y.toModel.unpack with
  | notANumber =>
    have hfalse : ∀ u : UnpackedFloat, u.lt .notANumber = false := fun u => by cases u <;> rfl
    rw [hfalse]
    exact Bool.false_ne_true
  | _ =>
    rw [hv] at hy
    contradiction

theorem compare_isSome {u v : UnpackedFloat} (hu : u.isNaN = false) (hv : v.isNaN = false) :
    (u.compare v).isSome = true := by
  cases u with
  | notANumber => contradiction
  | infinity s =>
    cases v with
    | notANumber => contradiction
    | infinity t => rfl
    | _ => cases s <;> rfl
  | zero s =>
    cases v with
    | notANumber => contradiction
    | infinity t => cases t <;> rfl
    | zero t => rfl
    | finite t m e _ => cases t <;> rfl
  | finite s m e _ =>
    cases v with
    | notANumber => contradiction
    | infinity t => cases s <;> cases t <;> rfl
    | zero t => cases s <;> rfl
    | finite t m' e' _ => cases s <;> cases t <;> rfl

/-- Of two defined doubles one is not above the other. -/
theorem not_lt_iff_le (hx : x.isNaN = false) (hy : y.isNaN = false) : ¬x < y ↔ y ≤ x := by
  have hle : y ≤ x ↔ y.toModel.unpack.le x.toModel.unpack = true := by
    show decide (y.toModel.unpack.le x.toModel.unpack = true) = true ↔ _
    rw [decide_eq_true_iff]
  obtain ⟨o, ho⟩ := Option.isSome_iff_exists.1
    (compare_isSome (u := x.toModel.unpack) (v := y.toModel.unpack) hx hy)
  have hswap : y.toModel.unpack.compare x.toModel.unpack = some o.swap := by
    rw [← swap_compare, ho, Option.map_some]
  rw [lt_unpack, hle, UnpackedFloat.lt, UnpackedFloat.le, ho, hswap]
  cases o <;> decide

end Undefined

end Federation.Binary64
