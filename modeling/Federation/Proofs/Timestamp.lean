import Federation.Proofs.Except
import Federation.Proofs.Text.Digits
import Federation.Timestamp
/-!
# Reading points in time

The date of a day is a date of the calendar, and the day of that date is the day again. So the text
of a point in time reads back.
-/

namespace Federation.Timestamp

/-! ## 1. Years -/

/-- The days of 400 years that lie before one of these years. -/
def daysBefore (y : Nat) : Nat := 365 * y + y / 4 - y / 100 + y / 400

/-- The days without the leap days before them. -/
def plainDays (d : Nat) : Nat := d - d / 1460 + d / 36524 - d / 146096

theorem plainDays_mono {d e : Nat} (h : d ≤ e) (hlt : e < 146097) : plainDays d ≤ plainDays e := by
  unfold plainDays
  omega

theorem plainDays_year : ∀ y < 400,
    365 * y ≤ plainDays (daysBefore y) ∧ plainDays (daysBefore (y + 1) - 1) < 365 * (y + 1) := by
  decide +kernel

/-- The year of a day begins before it and ends after it. -/
theorem year_bounds {d : Nat} (h : d < 146097) :
    plainDays d / 365 < 400 ∧ daysBefore (plainDays d / 365) ≤ d ∧
      d < daysBefore (plainDays d / 365 + 1) := by
  have hlt : plainDays d / 365 < 400 := by
    have hlast : plainDays d ≤ 145999 := plainDays_mono (e := 146096) (by omega) (by decide)
    omega
  obtain ⟨y, hy⟩ : ∃ y, y = plainDays d / 365 := ⟨_, rfl⟩
  rw [← hy] at hlt ⊢
  refine ⟨hlt, Nat.not_lt.1 fun hbefore => ?_, Nat.not_le.1 fun hafter => ?_⟩
  · cases y with
    | zero => exact absurd hbefore (by simp [daysBefore])
    | succ y =>
      have hend := (plainDays_year y (by omega)).2
      have hle := plainDays_mono (d := d) (e := daysBefore (y + 1) - 1) (by omega)
        (by simp only [daysBefore]; omega)
      omega
  · have hnext : y + 1 < 400 := by
      simp only [daysBefore] at hafter
      omega
    have hbegin := (plainDays_year (y + 1) hnext).1
    have hle := plainDays_mono hafter h
    omega

/-! ## 2. Months -/

/-- The month of a day of the year, counted from March, and the days of the year before it. -/
theorem month_bounds : ∀ d < 366, (5 * d + 2) / 153 < 12 ∧
    (153 * ((5 * d + 2) / 153) + 2) / 5 ≤ d := by
  decide +kernel

/-- A day of the month does not exceed the length of its month, in February that of a leap year. -/
theorem day_le : ∀ d < 366, d - (153 * ((5 * d + 2) / 153) + 2) / 5 + 1 ≤
    (if (5 * d + 2) / 153 = 11 then (if d = 365 then 29 else 28)
      else if (5 * d + 2) / 153 ∈ [1, 3, 6, 8] then 30 else 31) := by
  decide +kernel

/-- The months are counted from March here and from January in a date. -/
def monthAfter (m : Nat) : Nat := if m < 10 then m + 3 else m - 9

/-- A date through its year of 400 and its day of the year. -/
theorem exists_dateOfDays (days : Int) : ∃ (era : Int) (y k : Nat), y < 400 ∧
    days + 719468 = era * 146097 + daysBefore y + k ∧ daysBefore y + k < daysBefore (y + 1) ∧
    dateOfDays days = (era * 400 + y + (if monthAfter ((5 * k + 2) / 153) ≤ 2 then 1 else 0),
      monthAfter ((5 * k + 2) / 153), k - (153 * ((5 * k + 2) / 153) + 2) / 5 + 1) := by
  obtain ⟨d, hd⟩ : ∃ d : Nat, d = ((days + 719468) % 146097).toNat := ⟨_, rfl⟩
  have hlt : d < 146097 := by omega
  obtain ⟨hyear, hbegin, hend⟩ := year_bounds hlt
  have hday : d - (365 * (plainDays d / 365) + plainDays d / 365 / 4 - plainDays d / 365 / 100) =
      d - daysBefore (plainDays d / 365) := by
    unfold daysBefore
    omega
  refine ⟨(days + 719468) / 146097, plainDays d / 365, d - daysBefore (plainDays d / 365), hyear, by omega,
    by omega, ?_⟩
  rw [← hday, hd]
  rfl

theorem day_lt {y k : Nat} (h : daysBefore y + k < daysBefore (y + 1)) : k < 366 := by
  simp only [daysBefore] at h
  omega

theorem isLeap_of_daysBefore {y : Nat} (h : daysBefore y + 365 < daysBefore (y + 1)) (era : Int) :
    isLeap (era * 400 + y + 1) = true := by
  simp only [daysBefore] at h
  simp only [isLeap, Bool.and_eq_true, Bool.or_eq_true, decide_eq_true_eq]
  omega

/-- The day of the date of a day is the day. -/
theorem daysOfDate_dateOfDays (days : Int) :
    daysOfDate (dateOfDays days).1 (dateOfDays days).2.1 (dateOfDays days).2.2 = days := by
  obtain ⟨era, y, k, hy, hdays, hk, hdate⟩ := exists_dateOfDays days
  obtain ⟨hmonth, hbefore⟩ := month_bounds k (day_lt hk)
  generalize (5 * k + 2) / 153 = m at *
  have hyear : (if monthAfter m ≤ 2 then era * 400 + y + (if monthAfter m ≤ 2 then 1 else 0) - 1
      else era * 400 + y + (if monthAfter m ≤ 2 then 1 else 0)) = era * 400 + y := by
    split <;> omega
  have hcount : (monthAfter m + 9) % 12 = m := by
    unfold monthAfter
    split <;> omega
  have hday : (153 * m + 2) / 5 + (k - (153 * m + 2) / 5 + 1) - 1 = k := by omega
  rw [hdate]
  simp only [daysOfDate, hyear, hcount, hday]
  simp only [daysBefore] at hdays
  omega

/-- The date of a day is one of the calendar. -/
theorem date_bounds (days : Int) : 1 ≤ (dateOfDays days).2.1 ∧ (dateOfDays days).2.1 ≤ 12 ∧
    1 ≤ (dateOfDays days).2.2 ∧
    (dateOfDays days).2.2 ≤ monthLength (dateOfDays days).1 (dateOfDays days).2.1 := by
  obtain ⟨era, y, k, hy, hdays, hk, hdate⟩ := exists_dateOfDays days
  obtain ⟨hmonth, -⟩ := month_bounds k (day_lt hk)
  have hday := day_le k (day_lt hk)
  have hleap : k = 365 → isLeap (era * 400 + y + 1) = true := by
    rintro rfl
    exact isLeap_of_daysBefore hk era
  generalize (5 * k + 2) / 153 = m at *
  have hmonths : ∀ m < 12, 1 ≤ monthAfter m ∧ monthAfter m ≤ 12 := by decide
  obtain ⟨hfirst, hlast⟩ := hmonths m hmonth
  rw [hdate]
  refine ⟨hfirst, hlast, Nat.le_add_left 1 _, Nat.le_trans hday ?_⟩
  by_cases hfebruary : m = 11
  · subst hfebruary
    by_cases hleapday : k = 365
    · simp [monthAfter, monthLength, hleapday, hleap hleapday]
    · have hshort : ∀ year : Int, 28 ≤ monthLength year 2 := fun year => by
        show 28 ≤ if isLeap year = true then 29 else 28
        split
        · exact Nat.le_succ 28
        · exact Nat.le_refl 28
      simpa [monthAfter, hleapday] using hshort _
  · have hlengths : ∀ m < 12, m ≠ 11 → monthAfter m ≠ 2 ∧ (if m ∈ [1, 3, 6, 8] then 30 else 31) =
        if monthAfter m = 4 ∨ monthAfter m = 6 ∨ monthAfter m = 9 ∨ monthAfter m = 11 then 30 else 31 := by
      decide
    obtain ⟨hne, hlength⟩ := hlengths m hmonth hfebruary
    simp only [monthLength, if_neg hne, if_neg hfebruary, hlength]
    exact Nat.le_refl _

/-! ## 3. Fields -/

theorem isWhitespace_of_isDigit {c : Char} (h : c.isDigit = true) : c.isWhitespace = false := by
  rw [Bool.eq_false_iff]
  intro hblank
  simp only [Char.isWhitespace, Bool.or_eq_true, decide_eq_true_eq] at hblank
  rcases hblank with ((rfl | rfl) | rfl) | rfl <;> exact absurd h (by decide)

/-- Digits are read up to the width of the field, or up to a character that is none. -/
theorem readField_digits {width : Nat} {ds rest : List Char} (hdigits : ∀ c ∈ ds, c.isDigit = true)
    (hne : ds ≠ []) (hle : ds.length ≤ width)
    (hrest : ∀ c ∈ (rest.take (width - ds.length)).head?, c.isDigit = false) :
    readField width (ds ++ rest) = some (Text.decimalValue ds, rest) := by
  have hskip : (ds ++ rest).dropWhile Char.isWhitespace = ds ++ rest := by
    obtain ⟨c, cs, rfl⟩ := List.exists_cons_of_ne_nil hne
    simp [isWhitespace_of_isDigit (hdigits c List.mem_cons_self)]
  have htake : ((ds ++ rest).take width).takeWhile Char.isDigit = ds := by
    rw [List.take_append, List.take_of_length_le hle]
    exact congrArg Prod.fst (Text.digits_append_of hdigits hrest)
  simp only [readField, hskip, htake, List.isEmpty_iff, hne, if_false, List.drop_left]

/-- A number of a given width is read, whatever follows. -/
theorem readField_padded {width n : Nat} (hwidth : 0 < width) (h : n < 10 ^ width) (rest : List Char) :
    readField width ((Text.padded width n).toList ++ rest) = some (n, rest) := by
  have hlength := Text.length_padded hwidth h
  rw [readField_digits (fun _ => Text.isDigit_of_mem_padded) (Text.padded_ne_nil width n) (by omega),
    Text.decimalValue_padded]
  rw [hlength, Nat.sub_self]
  exact nofun

theorem expect_cons {c : Char} (h : c.isWhitespace = false) (rest : List Char) :
    expect c (c :: rest) = some rest := by
  simp [expect, h]

/-- Without a sign a year has four digits. -/
theorem readYear_unsigned {n : Nat} (h : n < 10000) (rest : List Char) :
    readYear ((Text.padded 4 n).toList ++ rest) = some ((n : Int), rest) := by
  have hread : readField 4 ((Text.padded 4 n).toList ++ rest) = some (n, rest) :=
    readField_padded (by decide) h rest
  have hdigits : ∀ d ∈ (Text.padded 4 n).toList, d.isDigit = true := fun _ => Text.isDigit_of_mem_padded
  obtain ⟨d, ds, hds⟩ := List.exists_cons_of_ne_nil (Text.padded_ne_nil 4 n)
  rw [hds] at hread hdigits ⊢
  have hd := hdigits d List.mem_cons_self
  unfold readYear
  rw [List.cons_append, List.dropWhile_cons_of_neg (by simp [isWhitespace_of_isDigit hd])]
  split
  next heq => exact absurd hd ((List.cons.inj heq).1 ▸ by decide)
  next heq => exact absurd hd ((List.cons.inj heq).1 ▸ by decide)
  next =>
    rw [← List.cons_append, hread]
    rfl

/-- After a sign all digits belong to the year. -/
theorem readField_signed (n : Nat) {c : Char} (hc : c.isDigit = false) (rest : List Char) :
    readField ((Text.padded 4 n).toList ++ c :: rest).length ((Text.padded 4 n).toList ++ c :: rest) =
      some (n, c :: rest) := by
  rw [readField_digits (fun _ => Text.isDigit_of_mem_padded) (Text.padded_ne_nil 4 n) (by simp),
    Text.decimalValue_padded]
  rw [List.length_append, Nat.add_sub_cancel_left, List.take_length]
  rintro c' ⟨⟩
  exact hc

/-- What follows a year is no digit. -/
theorem readYear_yearText {year : Int} {c : Char} (hc : c.isDigit = false) (rest : List Char) :
    readYear ((yearText year).toList ++ c :: rest) = some (year, c :: rest) := by
  have hsigned := readField_signed year.natAbs hc rest
  have hunsigned := fun h : year.natAbs < 10000 => readYear_unsigned h (c :: rest)
  unfold yearText
  generalize Text.padded 4 year.natAbs = text at *
  split
  next hyear => rw [hunsigned (by omega), Int.natAbs_of_nonneg hyear.1]
  next hyear =>
    rw [String.toList_append]
    split
    next hneg =>
      have hcast : -(year.natAbs : Int) = year := by omega
      show (readField (text.toList ++ c :: rest).length (text.toList ++ c :: rest)).map _ = _
      simp only [hsigned, Option.map_some, hcast]
    next hneg =>
      show (readField (text.toList ++ c :: rest).length (text.toList ++ c :: rest)).map _ = _
      simp only [hsigned, Option.map_some, Int.natAbs_of_nonneg (Int.not_lt.1 hneg)]

theorem readFraction_digits {ds : List Char} (hdigits : ∀ d ∈ ds, d.isDigit = true) (hne : ds ≠ [])
    (hle : ds.length ≤ 9) {c : Char} (hc : c.isDigit = false) (rest : List Char) :
    readFraction ('.' :: (ds ++ c :: rest)) =
      some (Text.decimalValue ds * 10 ^ (9 - ds.length), c :: rest) := by
  have hsplit : Text.digits (ds ++ c :: rest) = (ds, c :: rest) :=
    Text.digits_append_of hdigits (by rintro c' ⟨⟩; exact hc)
  simp only [readFraction, hsplit, List.isEmpty_iff, hne, if_false, List.take_of_length_le hle, Nat.pow_eq]

theorem readFraction_padded (width n : Nat) (hwidth : 0 < width) (hle : width ≤ 9) (h : n < 10 ^ width)
    {c : Char} (hc : c.isDigit = false) (rest : List Char) :
    readFraction (("." ++ Text.padded width n).toList ++ c :: rest) =
      some (n * 10 ^ (9 - width), c :: rest) := by
  have hlength := Text.length_padded hwidth h
  have hread := readFraction_digits (fun _ => Text.isDigit_of_mem_padded) (Text.padded_ne_nil width n)
    (by omega) hc rest
  rw [Text.decimalValue_padded, hlength] at hread
  rw [String.toList_append]
  exact hread

theorem readFraction_fractionText {nanos : Nat} (h : nanos < 1000000000) {c : Char} (hc : c.isDigit = false)
    (hdot : c ≠ '.') (rest : List Char) :
    readFraction ((fractionText nanos).toList ++ c :: rest) = some (nanos, c :: rest) := by
  unfold fractionText
  split
  next hzero =>
    subst hzero
    show readFraction (c :: rest) = some (0, c :: rest)
    unfold readFraction
    split
    next heq => exact absurd (List.cons.inj heq).1 hdot
    next => rfl
  next =>
    split
    next hmillis =>
      rw [readFraction_padded 3 _ (by decide) (by decide) (by omega) hc]
      congr 2
      omega
    next =>
      split
      next hmicros =>
        rw [readFraction_padded 6 _ (by decide) (by decide) (by omega) hc]
        congr 2
        omega
      next =>
        rw [readFraction_padded 9 _ (by decide) (by decide) (by omega) hc]
        congr 2
        omega

/-! ## 4. Points in time -/

/-- A point in time within the years that can be read, whose leap second, if it has one, is the last
second of its minute. -/
structure Valid (t : Timestamp) : Prop where
  year : (dateOfDays (t.secs / 86400)).1.natAbs ≤ 262142
  nanos : t.nanos < 2000000000
  leap : 1000000000 ≤ t.nanos → t.secs % 60 = 59

theorem toList_text (t : Timestamp) {year : Int} {month day rest : Nat}
    (hdate : dateOfDays (t.secs / 86400) = (year, month, day)) (hrest : rest = (t.secs % 86400).toNat) :
    t.text.toList = (yearText year).toList ++ '-' :: ((Text.padded 2 month).toList ++
      '-' :: ((Text.padded 2 day).toList ++ 'T' :: ((Text.padded 2 (rest / 3600)).toList ++
      ':' :: ((Text.padded 2 (rest / 60 % 60)).toList ++
      ':' :: ((Text.padded 2 (rest % 60 + if 1000000000 ≤ t.nanos then 1 else 0)).toList ++
      ((fractionText (t.nanos % 1000000000)).toList ++ ['Z'])))))) := by
  subst hrest
  have hdash : "-".toList = ['-'] := rfl
  have hcolon : ":".toList = [':'] := rfl
  have hmiddle : "T".toList = ['T'] := rfl
  have hend : "Z".toList = ['Z'] := rfl
  simp only [text, parts, hdate, String.toList_append, List.append_assoc, hdash, hcolon, hmiddle, hend,
    List.cons_append, List.nil_append]

/-- The last field of the time of day, and what is read of it. -/
theorem second_eq {t : Timestamp} (h : t.Valid) {rest second : Nat} (hrest : rest = (t.secs % 86400).toNat)
    (hsecond : second = rest % 60 + if 1000000000 ≤ t.nanos then 1 else 0) :
    second ≤ 60 ∧ (if second = 60 then 59 else second) = rest % 60 ∧
      (if second = 60 then t.nanos % 1000000000 + 1000000000 else t.nanos % 1000000000) = t.nanos := by
  have hnanos := h.nanos
  by_cases hleap : 1000000000 ≤ t.nanos
  · have hlast := h.leap hleap
    have hminute : rest % 60 = 59 := by omega
    rw [if_pos hleap, hminute] at hsecond
    subst hsecond
    rw [if_pos rfl, if_pos rfl, hminute]
    omega
  · rw [if_neg hleap, Nat.add_zero] at hsecond
    have hne : ¬second = 60 := by omega
    rw [if_neg hne, if_neg hne]
    omega

/-- A point in time reads back from its text. -/
theorem read_text {t : Timestamp} (h : t.Valid) : read t.text = some t := by
  obtain ⟨hmonth, hmonth', hday, hday'⟩ := date_bounds (t.secs / 86400)
  have hdays := daysOfDate_dateOfDays (t.secs / 86400)
  have hyear := h.year
  obtain ⟨year, month, day, hdate⟩ : ∃ year month day, dateOfDays (t.secs / 86400) = (year, month, day) :=
    ⟨_, _, _, rfl⟩
  obtain ⟨rest, hrest⟩ : ∃ rest, rest = (t.secs % 86400).toNat := ⟨_, rfl⟩
  have htext := toList_text t hdate hrest
  obtain ⟨second, hsecond⟩ : ∃ second, second = rest % 60 + if 1000000000 ≤ t.nanos then 1 else 0 :=
    ⟨_, rfl⟩
  obtain ⟨hsixty, hclock, hnanos⟩ := second_eq h hrest hsecond
  rw [← hsecond] at htext
  rw [hdate] at hmonth hmonth' hday hday' hdays hyear
  dsimp only at hmonth hmonth' hday hday' hdays hyear
  have hlength : monthLength year month ≤ 31 := by
    unfold monthLength
    split
    · split <;> decide
    · split <;> decide
  have hvalid : ¬(month < 1 ∨ 12 < month ∨ day < 1 ∨ monthLength year month < day) := by omega
  have hvalid' : ¬(23 < rest / 3600 ∨ 59 < rest / 60 % 60 ∨ 60 < second ∨ 262142 < year.natAbs) := by omega
  have hoffset : readOffset (['Z'].dropWhile Char.isWhitespace) = some (0, []) := rfl
  have htwo : 0 < 2 := by decide
  unfold read
  rw [htext]
  refine bind_of_eq_some (readYear_yearText rfl _) ?_
  refine bind_of_eq_some (expect_cons rfl _) ?_
  refine bind_of_eq_some (readField_padded htwo (show month < 10 ^ 2 by omega) _) ?_
  refine bind_of_eq_some (expect_cons rfl _) ?_
  refine bind_of_eq_some (readField_padded htwo (show day < 10 ^ 2 by omega) _) ?_
  dsimp only
  rw [if_pos (Or.inl rfl)]
  refine bind_of_eq_some rfl ?_
  refine bind_of_eq_some (readField_padded htwo (show rest / 3600 < 10 ^ 2 by omega) _) ?_
  refine bind_of_eq_some (expect_cons rfl _) ?_
  refine bind_of_eq_some (readField_padded htwo (show rest / 60 % 60 < 10 ^ 2 by omega) _) ?_
  refine bind_of_eq_some (expect_cons rfl _) ?_
  refine bind_of_eq_some (readField_padded htwo (show second < 10 ^ 2 by omega) _) ?_
  refine bind_of_eq_some (readFraction_fractionText (Nat.mod_lt _ (by decide)) rfl (by decide) _) ?_
  refine bind_of_eq_some hoffset ?_
  rw [if_neg (by decide), if_neg hvalid, if_neg hvalid']
  have hsecs : t.secs / 86400 * 86400 + (rest / 3600 * 3600 + rest / 60 % 60 * 60 + rest % 60 : Nat) - 0 =
      t.secs := by omega
  simp only [hclock, hnanos, hdays, hsecs]
  rfl

end Federation.Timestamp
