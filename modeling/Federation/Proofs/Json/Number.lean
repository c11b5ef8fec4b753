import Federation.Proofs.Binary64.Shortest
import Federation.Proofs.Json.Text
/-!
# Reading floats

The text of a finite float is read back as the float, written positionally or with an exponent.
-/

namespace Federation.Json

open Binary64

/-! ## 1. Decimal texts -/

/-- A point and the digits after it, if there are any. -/
def pointed (fraction : List Char) : List Char := if fraction.isEmpty then [] else '.' :: fraction

/-- The digits of a number before and after the point, and the exponent that the text ends with. -/
structure Numeral (whole fraction tail : List Char) (exponent : Option Int) : Prop where
  whole_digits : ∀ c ∈ whole, c.isDigit = true
  whole_ne : whole ≠ []
  leading : whole.length ≤ 1 ∨ whole.head? ≠ some '0'
  fraction_digits : ∀ c ∈ fraction, c.isDigit = true
  tail_head : ∀ rest, EndsNumber rest → ∀ c ∈ (tail ++ rest).head?, c.isDigit = false ∧ c ≠ '.'
  tail_read : ∀ rest, EndsNumber rest → readExponent (tail ++ rest) = some (exponent, rest)
  float : fraction ≠ [] ∨ exponent.isSome = true

/-- A text that is no whole number is read as a decimal number. -/
theorem Numeral.readMagnitude {whole fraction tail rest : List Char} {exponent : Option Int}
    (h : Numeral whole fraction tail exponent) (hrest : EndsNumber rest) (negative : Bool) :
    readMagnitude negative (whole ++ (pointed fraction ++ (tail ++ rest))) =
      some (floatNumber (ofDecimal negative (Text.decimalValue (whole ++ fraction))
        (exponent.getD 0 - fraction.length)), rest) := by
  have htail := h.tail_head rest hrest
  have hpoint : ∀ c ∈ (pointed fraction ++ (tail ++ rest)).head?, c.isDigit = false := by
    unfold pointed
    split
    · exact fun c hc => (htail c hc).1
    · rintro c ⟨⟩
      rfl
  have hsplit : Text.digits (whole ++ (pointed fraction ++ (tail ++ rest))) =
      (whole, pointed fraction ++ (tail ++ rest)) := Text.digits_append_of h.whole_digits hpoint
  have hleading : (whole.isEmpty || (decide (whole.length > 1) && whole.head? == some '0')) = false := by
    rcases h.leading with hl | hl
    · simp [h.whole_ne, Nat.not_lt.2 hl]
    · simp [h.whole_ne, hl]
  unfold Json.readMagnitude
  simp only [hsplit, hleading, Bool.false_eq_true, if_false]
  by_cases hempty : fraction = []
  · subst hempty
    obtain ⟨e, rfl⟩ := Option.isSome_iff_exists.1 (h.float.resolve_left fun hne => hne rfl)
    have hnone : pointed [] ++ (tail ++ rest) = tail ++ rest := rfl
    rw [hnone]
    split
    next heq => exact absurd rfl (htail '.' (heq ▸ rfl)).2
    next => simp [h.tail_read rest hrest]
  · have hfraction : Text.digits (fraction ++ (tail ++ rest)) = (fraction, tail ++ rest) :=
      Text.digits_append_of h.fraction_digits fun c hc => (htail c hc).1
    simp [pointed, hempty, hfraction, h.tail_read rest hrest]

/-- A text whose digits and exponent stand for a decimal number. -/
def Spells (cs : List Char) (d : Decimal) : Prop :=
  ∃ whole fraction tail exponent, Numeral whole fraction tail exponent ∧
    cs = whole ++ (pointed fraction ++ tail) ∧
    Decimal.value ⟨Text.decimalValue (whole ++ fraction), exponent.getD 0 - fraction.length⟩ = d.value

/-! ## 2. Layouts -/

theorem numeral_without_tail {whole fraction : List Char} (hwhole : ∀ c ∈ whole, c.isDigit = true)
    (hne : whole ≠ []) (hleading : whole.length ≤ 1 ∨ whole.head? ≠ some '0')
    (hfraction : ∀ c ∈ fraction, c.isDigit = true) (hfloat : fraction ≠ []) :
    Numeral whole fraction [] none where
  whole_digits := hwhole
  whole_ne := hne
  leading := hleading
  fraction_digits := hfraction
  tail_head _ h c hc := ⟨(h c hc).1, (h c hc).2.1⟩
  tail_read _ h := readExponent_of_endsNumber h
  float := Or.inl hfloat

theorem spells_whole {d : Decimal} (h : d.digits = 0 → d.exponent = 0) {k : Nat} (hk : d.exponent = k) :
    Spells (Nat.toDigits 10 d.digits ++ List.replicate k '0' ++ ['.', '0']) d := by
  have hdigits : ∀ c ∈ Nat.toDigits 10 d.digits ++ List.replicate k '0', c.isDigit = true := by
    intro c hc
    rcases List.mem_append.1 hc with hc | hc
    · exact Text.isDigit_of_mem_toDigits hc
    · rw [List.eq_of_mem_replicate hc]
      rfl
  have hleading : (Nat.toDigits 10 d.digits ++ List.replicate k '0').length ≤ 1 ∨
      (Nat.toDigits 10 d.digits ++ List.replicate k '0').head? ≠ some '0' := by
    rcases Nat.eq_zero_or_pos d.digits with hzero | hpos
    · obtain rfl : k = 0 := by
        have := h hzero
        omega
      exact Or.inl (by rw [hzero]; decide)
    · obtain ⟨c, cs, hcs⟩ := List.exists_cons_of_ne_nil (Nat.toDigits_ne_nil (n := d.digits) (b := 10))
      have hhead := Text.head?_toDigits_ne_zero hpos
      rw [hcs] at hhead ⊢
      exact Or.inr hhead
  refine ⟨_, ['0'], [], none, numeral_without_tail hdigits (by simp [Nat.toDigits_ne_nil]) hleading
    (List.forall_mem_singleton.2 rfl) (List.cons_ne_nil _ _), rfl, ?_⟩
  have hvalue : Text.decimalValue (Nat.toDigits 10 d.digits ++ List.replicate k '0' ++ ['0']) =
      10 ^ (k + 1) * d.digits := by
    rw [List.append_assoc, ← List.replicate_succ', Text.decimalValue_append_zeros,
      Text.decimalValue_toDigits]
  rw [Decimal.value, Decimal.value, hvalue, hk, zpow_natCast]
  push_cast
  norm_num
  ring

theorem spells_fraction {d : Decimal} {k : Nat} (hk : d.exponent = -k) (hpos : 0 < k) :
    Spells (((Text.padded (k + 1) d.digits).toList.take ((Text.padded (k + 1) d.digits).length - k)) ++
      '.' :: ((Text.padded (k + 1) d.digits).toList.drop ((Text.padded (k + 1) d.digits).length - k))) d := by
  obtain ⟨cs, hcs⟩ : ∃ cs, cs = (Text.padded (k + 1) d.digits).toList := ⟨_, rfl⟩
  have hdigits : ∀ c ∈ cs, c.isDigit = true := fun c hc => Text.isDigit_of_mem_padded (hcs ▸ hc)
  have hlength : cs.length =
      k + 1 - (Nat.toDigits 10 d.digits).length + (Nat.toDigits 10 d.digits).length := by
    rw [hcs, Text.toList_padded, List.length_append, List.length_replicate]
  have hfraction : (cs.drop (cs.length - k)).length = k := by
    rw [List.length_drop]
    omega
  have hleading : (cs.take (cs.length - k)).length ≤ 1 ∨ (cs.take (cs.length - k)).head? ≠ some '0' := by
    by_cases hlong : cs.length ≤ k + 1
    · left
      rw [List.length_take]
      omega
    · right
      have hplain : cs = Nat.toDigits 10 d.digits := by
        rw [hcs, Text.toList_padded, Nat.sub_eq_zero_of_le (by omega)]
        rfl
      have hdigits : 0 < d.digits := by
        refine Nat.pos_of_ne_zero fun hzero => hlong ?_
        rw [hplain, hzero]
        exact Nat.succ_le_succ (Nat.zero_le k)
      rw [List.head?_take, if_neg (by omega), hplain]
      exact Text.head?_toDigits_ne_zero hdigits
  rw [← String.length_toList, ← hcs]
  refine ⟨cs.take (cs.length - k), cs.drop (cs.length - k), [], none,
    numeral_without_tail (fun c hc => hdigits c (List.mem_of_mem_take hc)) ?_ hleading
      (fun c hc => hdigits c (List.mem_of_mem_drop hc)) ?_, ?_, ?_⟩
  · rw [ne_eq, ← List.length_eq_zero_iff, List.length_take]
    omega
  · rw [ne_eq, ← List.length_eq_zero_iff, hfraction]
    omega
  · rw [pointed, if_neg, List.append_nil]
    rw [List.isEmpty_iff, ← List.length_eq_zero_iff, hfraction]
    omega
  · rw [List.take_append_drop, hfraction, hcs, Text.decimalValue_padded, Option.getD_none, zero_sub, ← hk]

theorem spells_fixedText {d : Decimal} (h : d.digits = 0 → d.exponent = 0) :
    Spells (fixedText .json d).toList d := by
  by_cases he : 0 ≤ d.exponent
  · have htext : (fixedText .json d).toList = Nat.toDigits 10 d.digits ++
        List.replicate d.exponent.natAbs '0' ++ ['.', '0'] := by
      simp [fixedText, he, Layout.json]
    exact htext ▸ spells_whole h (by omega)
  · have htext := spells_fraction (d := d) (k := d.exponent.natAbs) (by omega) (by omega)
    simpa [fixedText, he] using htext

/-- The characters of an exponent, which has a sign in any case. -/
def orderChars (order : Int) : List Char :=
  'e' :: (if 0 ≤ order then '+' else '-') :: Nat.toDigits 10 order.natAbs

theorem toList_order (order : Int) :
    'e' :: ((if 0 ≤ order then "+" else "").toList ++ (toString order).toList) = orderChars order := by
  have htext : toString order = order.repr := rfl
  rw [orderChars, htext, Int.repr_eq_if]
  split
  next h =>
    obtain ⟨n, rfl⟩ := Int.eq_ofNat_of_zero_le h
    simp [Nat.toList_repr]
  next h =>
    obtain ⟨n, rfl⟩ := Int.exists_eq_neg_ofNat (Int.not_le.1 h).le
    simp [Nat.toList_repr]

theorem readExponent_order (order : Int) {rest : List Char} (h : EndsNumber rest) :
    readExponent (orderChars order ++ rest) = some (some order, rest) := by
  have hsplit : Text.digits (Nat.toDigits 10 order.natAbs ++ rest) = (Nat.toDigits 10 order.natAbs, rest) :=
    Text.digits_append_of (fun _ => Text.isDigit_of_mem_toDigits) fun c hc => (h c hc).1
  have hne : (Nat.toDigits 10 order.natAbs).isEmpty = false := by simp [Nat.toDigits_ne_nil]
  unfold orderChars
  by_cases hsign : 0 ≤ order
  · have hvalue : ((order.natAbs : Nat) : Int) = order := by omega
    simp [readExponent, hsign, hsplit, hne, Text.decimalValue_toDigits, hvalue, -Nat.cast_natAbs]
  · have hvalue : -((order.natAbs : Nat) : Int) = order := by omega
    simp [readExponent, hsign, hsplit, hne, Text.decimalValue_toDigits, hvalue, -Nat.cast_natAbs]

theorem toList_scientificText {d : Decimal} {c : Char} {cs : List Char}
    (hcs : Nat.toDigits 10 d.digits = c :: cs) (order : Int) :
    (scientificText .json d order).toList = [c] ++ (pointed cs ++ orderChars order) := by
  have hlist : (toString d.digits).toList = c :: cs := Nat.toList_repr.trans hcs
  have hlength : (toString d.digits).length = cs.length + 1 := by
    rw [← String.length_toList, hlist]
    rfl
  have hsign : (if Layout.json.plusSign = true ∧ 0 ≤ order then "+" else "") =
      if 0 ≤ order then "+" else "" := by simp [Layout.json]
  have hpoint : (if (toString d.digits).length = 1 then ""
      else "." ++ ((toString d.digits).drop 1).toString).toList =
      pointed cs := by
    rw [hlength]
    cases cs with
    | nil => rfl
    | cons c' cs =>
      rw [if_neg (by simp), String.toList_append]
      show '.' :: ((toString d.digits).drop 1).copy.toList = _
      rw [String.toList_copy_drop, hlist]
      rfl
  have hhead : ((toString d.digits).take 1).toString.toList = [c] := by
    show ((toString d.digits).take 1).copy.toList = _
    rw [String.toList_copy_take, hlist]
    rfl
  rw [← toList_order, scientificText]
  simp only [hsign, String.toList_append, hpoint, hhead, List.append_assoc]
  rfl

theorem spells_scientificText (d : Decimal) :
    Spells (scientificText .json d (d.exponent + digitCount d.digits - 1)).toList d := by
  obtain ⟨order, horder⟩ : ∃ order, order = d.exponent + digitCount d.digits - 1 := ⟨_, rfl⟩
  obtain ⟨c, cs, hcs⟩ := List.exists_cons_of_ne_nil (Nat.toDigits_ne_nil (n := d.digits) (b := 10))
  have hdigits : ∀ c' ∈ c :: cs, c'.isDigit = true := fun c' hc => Text.isDigit_of_mem_toDigits (hcs ▸ hc)
  rw [← horder, toList_scientificText hcs]
  refine ⟨[c], cs, orderChars order, some order,
    ⟨?_, by simp, Or.inl (Nat.le_refl 1), ?_, ?_, ?_, Or.inr rfl⟩,
    rfl, ?_⟩
  · exact fun c' hc => hdigits c' (by simpa using Or.inl (List.mem_singleton.1 hc))
  · exact fun c' hc => hdigits c' (List.mem_cons_of_mem _ hc)
  · rintro rest - c' ⟨⟩
    exact ⟨rfl, by decide⟩
  · exact fun rest => readExponent_order order
  · have hcount : digitCount d.digits = cs.length + 1 := by rw [digitCount, hcs]; rfl
    have hexponent : order - cs.length = d.exponent := by omega
    rw [List.singleton_append, ← hcs, Text.decimalValue_toDigits, Option.getD_some, hexponent]

/-! ## 3. Floats -/

theorem spells_shortest {x : Float} (h : x.isFinite = true) :
    ∃ cs, Spells cs (shortest x) ∧
      (Number.float x).text.toList = (if isNegative x then ['-'] else []) ++ cs := by
  have hzero : (shortest x).digits = 0 → (shortest x).exponent = 0 := by
    by_cases hm : (magnitude x).m = 0
    · rw [shortest, if_pos hm]
      exact fun _ => rfl
    · have hrounds := Magnitude.rounds_shortest (normal_magnitude h) (Nat.pos_of_ne_zero hm)
      rw [shortest, if_neg hm]
      exact fun hnone => absurd hnone (hrounds.digits_pos (Nat.pos_of_ne_zero hm)).ne'
  have hsign : (if isNegative x then "-" else "").toList = if isNegative x then ['-'] else [] := by
    split <;> rfl
  rw [Number.text, if_pos h, Binary64.text, isNaN_of_isFinite h, if_neg Bool.false_ne_true, h, Bool.not_true,
    if_neg Bool.false_ne_true]
  simp only [String.toList_append, hsign]
  refine ⟨_, ?_, rfl⟩
  split
  next => exact spells_fixedText hzero
  next => exact spells_scientificText _

theorem readsBack_float {x : Float} (h : x.isFinite = true) : (Number.float x).ReadsBack := by
  obtain ⟨cs, ⟨whole, fraction, tail, exponent, hnumeral, rfl, hvalue⟩, htext⟩ := spells_shortest h
  constructor
  · obtain ⟨c, rest, rfl⟩ := List.exists_cons_of_ne_nil hnumeral.whole_ne
    have hc := hnumeral.whole_digits c List.mem_cons_self
    rw [htext]
    split
    · exact ⟨'-', _, rfl, Or.inl rfl⟩
    · exact ⟨c, _, rfl, Or.inr hc⟩
  · intro rest hrest
    rw [htext, List.append_assoc, List.append_assoc, List.append_assoc,
      readNumber_sign hnumeral.whole_digits hnumeral.whole_ne, hnumeral.readMagnitude hrest,
      ofDecimal_shortest h hvalue, floatNumber, if_pos h]

end Federation.Json
