import Mathlib.Algebra.Group.Nat.Defs
import Mathlib.Tactic.ByContra
import Federation.Text.Digits
/-!
# Whole numbers in decimal notation

The decimal text of a number reads back as the number. Leading zeros do not change what digits stand
for, and trailing ones multiply it by powers of ten.
-/

namespace Federation.Text

/-! ## 1. Runs of digits -/

theorem digits_append_of {ds rest : List Char} (h : ∀ c ∈ ds, c.isDigit = true)
    (hrest : ∀ c ∈ rest.head?, c.isDigit = false) : digits (ds ++ rest) = (ds, rest) := by
  have hstop : rest.takeWhile Char.isDigit = [] ∧ rest.dropWhile Char.isDigit = rest := by
    cases rest with
    | nil => exact ⟨rfl, rfl⟩
    | cons c rest =>
      have hc : c.isDigit = false := hrest c rfl
      simp [hc]
  rw [digits, List.takeWhile_append_of_pos h, List.dropWhile_append_of_pos h, hstop.1, hstop.2,
    List.append_nil]

theorem isDigit_of_mem_toDigits {n : Nat} {c : Char} (h : c ∈ Nat.toDigits 10 n) :
    c.isDigit = true :=
  Nat.isDigit_of_mem_toDigits (by decide) (by decide) h

/-- Only the decimal text of zero starts with a zero. -/
theorem head?_toDigits_ne_zero {n : Nat} (h : 0 < n) : (Nat.toDigits 10 n).head? ≠ some '0' := by
  induction n using Nat.strongRecOn with
  | ind n ih =>
    by_cases hn : n < 10
    · rw [Nat.toDigits_of_lt_base hn, List.head?_cons]
      have hdigit : ∀ d < 10, 0 < d → some (Nat.digitChar d) ≠ some '0' := by decide
      exact hdigit n hn h
    · have hquot := ih (n / 10) (by omega) (by omega)
      obtain ⟨c, ds, hds⟩ := List.exists_cons_of_ne_nil (Nat.toDigits_ne_nil (n := n / 10) (b := 10))
      rw [Nat.toDigits_of_base_le (by decide) (Nat.le_of_not_lt hn), hds]
      rwa [hds] at hquot

/-! ## 2. What digits stand for -/

theorem decimalValue_eq (ds : List Char) : decimalValue ds = Nat.ofDigitChars 10 ds 0 := rfl

theorem decimalValue_toDigits (n : Nat) : decimalValue (Nat.toDigits 10 n) = n :=
  Nat.ofDigitChars_ten_toDigits

theorem decimalValue_append (ds ds' : List Char) :
    decimalValue (ds ++ ds') = 10 ^ ds'.length * decimalValue ds + decimalValue ds' := by
  rw [decimalValue_eq, decimalValue_eq, decimalValue_eq, Nat.ofDigitChars_append,
    Nat.ofDigitChars_eq_ofDigitChars_zero]

theorem decimalValue_zeros_append (k : Nat) (ds : List Char) :
    decimalValue (List.replicate k '0' ++ ds) = decimalValue ds := by
  have hzero : decimalValue (List.replicate k '0') = 0 := by
    rw [decimalValue_eq, Nat.ofDigitChars_replicate_zero, Nat.mul_zero]
  rw [decimalValue_append, hzero, Nat.mul_zero, Nat.zero_add]

theorem decimalValue_append_zeros (ds : List Char) (k : Nat) :
    decimalValue (ds ++ List.replicate k '0') = 10 ^ k * decimalValue ds := by
  rw [decimalValue_eq, Nat.ofDigitChars_append, Nat.ofDigitChars_replicate_zero, decimalValue_eq]

/-! ## 3. Texts of a given width -/

theorem toList_padded (width n : Nat) : (padded width n).toList =
    List.replicate (width - (Nat.toDigits 10 n).length) '0' ++ Nat.toDigits 10 n := by
  simp [padded, ← String.length_toList]

theorem padded_ne_nil (width n : Nat) : (padded width n).toList ≠ [] := by
  rw [toList_padded]
  exact List.append_ne_nil_of_right_ne_nil _ Nat.toDigits_ne_nil

theorem isDigit_of_mem_padded {width n : Nat} {c : Char} (h : c ∈ (padded width n).toList) :
    c.isDigit = true := by
  rw [toList_padded, List.mem_append] at h
  rcases h with h | h
  · rw [List.eq_of_mem_replicate h]
    rfl
  · exact isDigit_of_mem_toDigits h

theorem decimalValue_padded (width n : Nat) : decimalValue (padded width n).toList = n := by
  rw [toList_padded, decimalValue_zeros_append, decimalValue_toDigits]

theorem length_padded {width n : Nat} (hwidth : 0 < width) (h : n < 10 ^ width) :
    (padded width n).toList.length = width := by
  have hle := (Nat.length_toDigits_le_iff (b := 10) (n := n) (by decide) hwidth).2 h
  rw [toList_padded, List.length_append, List.length_replicate]
  omega

/-! ## 4. Words -/

theorem digitValue?_of_isDigit {c : Char} (h : c.isDigit = true) :
    ∃ d < 10, digitValue? c = some d ∧ c.toNat - '0'.toNat = d := by
  refine ⟨c.toNat - '0'.toNat, ?_, if_pos h, rfl⟩
  have hle : c.toNat ≤ '9'.toNat := (Char.isDigit_iff_toNat.1 h).2
  have hnine : '9'.toNat = '0'.toNat + 9 := rfl
  omega

theorem readBase_ten {ds : List Char} (hne : ds ≠ []) (h : ∀ c ∈ ds, c.isDigit = true) :
    readBase 10 ds = some (decimalValue ds) := by
  have hfold : ∀ n : Nat, ds.foldlM (fun n c =>
      (digitValue? c).bind fun d => if d < 10 then some (10 * n + d) else none) n =
        some (ds.foldl (fun n c => 10 * n + (c.toNat - '0'.toNat)) n) := by
    clear hne
    induction ds with
    | nil => exact fun n => rfl
    | cons c ds ih =>
      intro n
      obtain ⟨d, hlt, hd, heq⟩ := digitValue?_of_isDigit (h c List.mem_cons_self)
      rw [List.foldlM_cons, List.foldl_cons, hd, heq, Option.bind_some, if_pos hlt]
      exact ih (fun c' hc' => h c' (List.mem_cons_of_mem c hc')) (10 * n + d)
  rw [readBase, if_neg (by simpa using hne), hfold 0, decimalValue]

theorem isDigit_of_digitValue? {c : Char} {d : Nat} (h : digitValue? c = some d) (hd : d < 10) :
    c.isDigit = true := by
  unfold digitValue? at h
  split at h
  next hdigit => exact hdigit
  next =>
    -- a letter stands for ten at least
    split at h
    · obtain rfl := Option.some.inj h
      omega
    · split at h
      · obtain rfl := Option.some.inj h
        omega
      · contradiction

theorem readBase_ten_eq_some {ds : List Char} {n : Nat} : readBase 10 ds = some n ↔
    ds ≠ [] ∧ (∀ c ∈ ds, c.isDigit = true) ∧ decimalValue ds = n := by
  constructor
  · intro h
    have hne : ds ≠ [] := by
      rintro rfl
      contradiction
    have hdigits : ∀ c ∈ ds, c.isDigit = true := by
      rw [readBase, if_neg (by simpa using hne)] at h
      clear hne
      generalize 0 = start at h
      induction ds generalizing start with
      | nil => exact List.forall_mem_nil _
      | cons c ds ih =>
        rw [List.foldlM_cons] at h
        obtain ⟨next, hnext, hrest⟩ := Option.bind_eq_some_iff.1 h
        obtain ⟨d, hd, hlt⟩ := Option.bind_eq_some_iff.1 hnext
        refine List.forall_mem_cons.2 ⟨isDigit_of_digitValue? hd ?_, ih next hrest⟩
        by_contra hge
        rw [if_neg hge] at hlt
        contradiction
    rw [readBase_ten hne hdigits] at h
    exact ⟨hne, hdigits, Option.some.inj h⟩
  · rintro ⟨hne, hdigits, rfl⟩
    exact readBase_ten hne hdigits

/-- A word is read from digits, which a plus sign may precede. -/
theorem readWord_eq_some {text : String} {n : UInt64} : readWord text = some n ↔
    ∃ sign ds, (sign = [] ∨ sign = ['+']) ∧ text.toList = sign ++ ds ∧ ds ≠ [] ∧
      (∀ c ∈ ds, c.isDigit = true) ∧ decimalValue ds = n.toNat := by
  have hread : ∀ ds, ((readBase 10 ds).bind fun n =>
      if n < UInt64.size then some (UInt64.ofNat n) else none) = some n ↔
      ds ≠ [] ∧ (∀ c ∈ ds, c.isDigit = true) ∧ decimalValue ds = n.toNat := by
    intro ds
    rw [Option.bind_eq_some_iff]
    constructor
    · rintro ⟨m, hm, hn⟩
      obtain ⟨hne, hdigits, rfl⟩ := readBase_ten_eq_some.1 hm
      split at hn
      next hlt =>
        rw [← Option.some.inj hn, UInt64.toNat_ofNat_of_lt' hlt]
        exact ⟨hne, hdigits, rfl⟩
      next => contradiction
    · rintro ⟨hne, hdigits, hvalue⟩
      have hlt : n.toNat < UInt64.size := n.toNat_lt
      refine ⟨n.toNat, readBase_ten_eq_some.2 ⟨hne, hdigits, hvalue⟩, ?_⟩
      rw [if_pos hlt, UInt64.ofNat_toNat]
  rw [readWord]
  split
  next rest heq =>
    rw [hread, heq]
    constructor
    · exact fun h => ⟨['+'], rest, Or.inr rfl, rfl, h⟩
    · rintro ⟨sign, ds, rfl | rfl, hds, h⟩
      · obtain rfl : '+' :: rest = ds := hds
        exact absurd (h.2.1 '+' List.mem_cons_self) (by decide)
      · obtain rfl := (List.cons.inj hds).2
        exact h
  next hsign =>
    rw [hread]
    constructor
    · exact fun h => ⟨[], _, Or.inl rfl, rfl, h⟩
    · rintro ⟨sign, ds, rfl | rfl, hds, h⟩
      · rwa [hds]
      · exact absurd hds (hsign ds)

end Federation.Text
