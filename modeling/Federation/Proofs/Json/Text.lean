import Federation.Json.Reader
import Federation.Json.Writer
import Federation.Proofs.Json.Basic
import Federation.Proofs.Text.Digits
/-!
# Reading what was written

A document is read back as it is, whether it was written with a line per item or without blanks. Whole
numbers and texts always read back; of the other numbers it is asked here.
-/

namespace Federation.Json

/-! ## 1. Texts -/

theorem toList_quote (s : String) :
    (quote s).toList = '"' :: (s.toList.flatMap fun c => (escapeChar c).toList) ++ ['"'] := by
  have hfold : ∀ (l : List Char) (out : String),
      (l.foldl (fun acc c => acc ++ escapeChar c) out).toList =
        out.toList ++ l.flatMap fun c => (escapeChar c).toList := by
    intro l
    induction l with
    | nil => simp
    | cons c l ih =>
      intro out
      rw [List.foldl_cons, ih, List.flatMap_cons, String.toList_append, List.append_assoc]
  rw [quote, String.toList_append, hfold]
  rfl

/-- The code point of a control character. -/
theorem readCodePoint_hex {c : Char} (h : c.toNat < 32) (rest : List Char) :
    readCodePoint ((Text.hex 4 c.toNat).toList ++ rest) = some (c.toNat, rest) := by
  have hread : ∀ n < 32, Text.readBase 16 ((List.range 4).reverse.map fun i =>
      Text.hexDigit (n / Nat.pow 16 i % 16)) = some n := by decide
  have hfour : readHex4 ((Text.hex 4 c.toNat).toList ++ rest) = some (c.toNat, rest) := by
    rw [Text.hex, String.toList_ofList]
    show (Text.readBase 16 _).map _ = _
    exact (congrArg _ (hread _ h)).trans rfl
  have hhigh : ¬(0xD800 ≤ c.toNat ∧ c.toNat ≤ 0xDBFF) := by omega
  simp only [readCodePoint, hfour, Option.bind_eq_bind, Option.bind_some, if_neg hhigh]

theorem readChars_plain {c : Char} (hquote : c ≠ '"') (hslash : c ≠ '\\') (h : 32 ≤ c.toNat) (fuel : Nat)
    (acc : List Nat) (rest : List Char) :
    readChars (fuel + 1) acc (c :: rest) = readChars fuel (c.toNat :: acc) rest := by
  rw [readChars.eq_def]
  simp only [if_neg hquote, if_neg hslash, if_neg (Nat.not_lt.2 h)]

theorem readChars_unescape {c d : Char} (hu : d ≠ 'u') (h : unescape d = some c) (fuel : Nat)
    (acc : List Nat) (rest : List Char) :
    readChars (fuel + 1) acc ('\\' :: d :: rest) = readChars fuel (c.toNat :: acc) rest := by
  rw [readChars, if_neg (by decide), if_pos rfl, h]
  exact hu

/-- The escaped form of a character is read as the character. -/
theorem readChars_escapeChar (c : Char) (fuel : Nat) (acc : List Nat) (rest : List Char) :
    readChars (fuel + 1) acc ((escapeChar c).toList ++ rest) = readChars fuel (c.toNat :: acc) rest := by
  have hcode : ∀ n, c.toNat = n → c = Char.ofNat n := by
    rintro n rfl
    exact c.ofNat_toNat.symm
  unfold escapeChar
  split
  next h => exact h ▸ readChars_unescape (by decide) rfl fuel acc rest
  split
  next h => exact h ▸ readChars_unescape (by decide) rfl fuel acc rest
  split
  next h => exact h ▸ readChars_unescape (by decide) rfl fuel acc rest
  split
  next h => exact h ▸ readChars_unescape (by decide) rfl fuel acc rest
  split
  next h => exact h ▸ readChars_unescape (by decide) rfl fuel acc rest
  split
  next h => exact hcode 8 h ▸ readChars_unescape (by decide) rfl fuel acc rest
  split
  next h => exact hcode 12 h ▸ readChars_unescape (by decide) rfl fuel acc rest
  split
  next h =>
    have hmark : "\\u".toList = ['\\', 'u'] := rfl
    rw [String.toList_append, hmark, List.append_assoc, List.cons_append, List.cons_append,
      List.nil_append, readChars, if_neg (by decide), if_pos rfl]
    rw [readCodePoint_hex h]
  next hquote hslash _ _ _ _ _ h =>
    rw [String.singleton_eq_ofList, String.toList_ofList]
    exact readChars_plain hquote hslash (Nat.not_lt.1 h) fuel acc rest

theorem readChars_escaped {fuel : Nat} {l : List Char} (h : l.length < fuel) (acc : List Nat)
    (rest : List Char) :
    readChars fuel acc ((l.flatMap fun c => (escapeChar c).toList) ++ '"' :: rest) =
      some ((l.map Char.toNat).reverse ++ acc, rest) := by
  induction l generalizing fuel acc with
  | nil =>
    obtain ⟨fuel, rfl⟩ := Nat.exists_eq_add_of_lt h
    simp [readChars]
  | cons c l ih =>
    obtain ⟨fuel, rfl⟩ := Nat.exists_eq_add_of_lt h
    have hl : l.length < l.length + 1 + fuel := by omega
    rw [List.flatMap_cons, List.append_assoc, List.length_cons, readChars_escapeChar, ih hl,
      List.map_cons, List.reverse_cons, List.append_assoc]
    rfl

theorem length_escapeChar_pos (c : Char) : 1 ≤ (escapeChar c).toList.length := by
  unfold escapeChar
  repeat' split
  all_goals simp

theorem length_le_escaped (l : List Char) :
    l.length ≤ (l.flatMap fun c => (escapeChar c).toList).length := by
  induction l with
  | nil => exact Nat.le_refl 0
  | cons c l ih =>
    have hc := length_escapeChar_pos c
    rw [List.flatMap_cons, List.length_append, List.length_cons]
    omega

/-- A quoted text is read back, whatever follows. -/
theorem readText_quote (s : String) (rest : List Char) :
    readText ((s.toList.flatMap fun c => (escapeChar c).toList) ++ '"' :: rest) =
      some (s.toList.map Char.toNat, rest) := by
  have hlength := length_le_escaped s.toList
  rw [readText, readChars_escaped (by rw [List.length_append]; omega)]
  simp

/-- The code points of a text have no halves of surrogate pairs. -/
theorem textOf?_points (s : String) : textOf? (s.toList.map Char.toNat) = some s := by
  have hvalid : (s.toList.map Char.toNat).all (fun n => decide n.isValidChar) = true := by
    rw [List.all_eq_true]
    intro n hn
    obtain ⟨c, -, rfl⟩ := List.mem_map.1 hn
    exact decide_eq_true c.valid
  have hchars : (s.toList.map Char.toNat).map Char.ofNat = s.toList := by
    rw [List.map_map]
    exact List.map_id'' (fun c => c.ofNat_toNat) _
  rw [textOf?, if_pos hvalid, hchars, String.ofList_toList]

theorem ofPoints_points (s : String) : ofPoints (s.toList.map Char.toNat) = .str s := by
  rw [ofPoints, textOf?_points]
  rfl

/-! ## 2. Numbers -/

/-- What follows does not go on with a number. -/
def EndsNumber (rest : List Char) : Prop :=
  ∀ c ∈ rest.head?, c.isDigit = false ∧ c ≠ '.' ∧ c ≠ 'e' ∧ c ≠ 'E'

/-- The text of a number starts like a number and is read back, whatever ends it. -/
structure Number.ReadsBack (n : Number) : Prop where
  head : ∃ c cs, n.text.toList = c :: cs ∧ (c = '-' ∨ c.isDigit = true)
  read : ∀ rest, EndsNumber rest → readNumber (n.text.toList ++ rest) = some (.num n, rest)

theorem readExponent_of_endsNumber {rest : List Char} (h : EndsNumber rest) :
    readExponent rest = some (none, rest) := by
  cases rest with
  | nil => rfl
  | cons c rest =>
    have hc := h c rfl
    simp [readExponent, hc.2.2.1, hc.2.2.2]

/-- What is read after an optional minus. -/
def readMagnitude (negative : Bool) (cs : List Char) : Option (Json × List Char) := do
  let (whole, rest) := Text.digits cs
  if whole.isEmpty || (whole.length > 1 && whole.head? == some '0') then none
  let (fraction, rest) ← match rest with
    | '.' :: rest =>
      let (ds, rest) := Text.digits rest
      if ds.isEmpty then none else some (ds, rest)
    | rest => some ([], rest)
  let (exponent, rest) ← readExponent rest
  let n := Text.decimalValue (whole ++ fraction)
  if fraction.isEmpty && exponent.isNone then some (wholeNumber negative n, rest)
  else
    some (floatNumber (Binary64.ofDecimal negative n (exponent.getD 0 - fraction.length)), rest)

theorem readNumber_minus (cs : List Char) : readNumber ('-' :: cs) = readMagnitude true cs := rfl

theorem readNumber_of_ne {c : Char} (cs : List Char) (h : c ≠ '-') :
    readNumber (c :: cs) = readMagnitude false (c :: cs) := by
  unfold readNumber
  split
  next heq =>
    split at heq
    next heq' => exact absurd (List.cons.inj heq').1 h
    next =>
      obtain ⟨rfl, rfl⟩ := Prod.mk.inj heq
      rfl

/-- The sign of a number and its digits, of which the first one is no zero unless it is the only
one. -/
theorem readNumber_sign {whole : List Char} (hdigits : ∀ c ∈ whole, c.isDigit = true) (hne : whole ≠ [])
    (negative : Bool) (rest : List Char) :
    readNumber ((if negative then ['-'] else []) ++ (whole ++ rest)) =
      readMagnitude negative (whole ++ rest) := by
  obtain ⟨c, cs, rfl⟩ := List.exists_cons_of_ne_nil hne
  have hc : c ≠ '-' := by
    rintro rfl
    exact absurd (hdigits '-' List.mem_cons_self) (by decide)
  cases negative with
  | true => exact readNumber_minus _
  | false => exact readNumber_of_ne _ hc

/-- A whole number ends with its digits. -/
theorem readMagnitude_of_endsNumber {whole rest : List Char} (hdigits : ∀ c ∈ whole, c.isDigit = true)
    (hne : whole ≠ []) (hzero : whole.length ≤ 1 ∨ whole.head? ≠ some '0') (h : EndsNumber rest)
    (negative : Bool) :
    readMagnitude negative (whole ++ rest) =
      some (wholeNumber negative (Text.decimalValue whole), rest) := by
  have hsplit : Text.digits (whole ++ rest) = (whole, rest) :=
    Text.digits_append_of hdigits fun c hc => (h c hc).1
  have hleading : (whole.isEmpty || (decide (whole.length > 1) && whole.head? == some '0')) = false := by
    rcases hzero with h | h
    · simp [hne, Nat.not_lt.2 h]
    · simp [hne, h]
  unfold readMagnitude
  simp only [hsplit, hleading, Bool.false_eq_true, if_false]
  split
  next heq => exact absurd rfl (h '.' rfl).2.1
  next => simp [readExponent_of_endsNumber h]

theorem readNumber_toDigits (negative : Bool) (n : Nat) {rest : List Char} (h : EndsNumber rest) :
    readNumber ((if negative then ['-'] else []) ++ (Nat.toDigits 10 n ++ rest)) =
      some (wholeNumber negative n, rest) := by
  have hzero : (Nat.toDigits 10 n).length ≤ 1 ∨ (Nat.toDigits 10 n).head? ≠ some '0' := by
    rcases Nat.eq_zero_or_pos n with rfl | hn
    · exact Or.inl (by decide)
    · exact Or.inr (Text.head?_toDigits_ne_zero hn)
  have hdigits : ∀ c ∈ Nat.toDigits 10 n, c.isDigit = true := fun _ => Text.isDigit_of_mem_toDigits
  rw [readNumber_sign hdigits Nat.toDigits_ne_nil,
    readMagnitude_of_endsNumber hdigits Nat.toDigits_ne_nil hzero h, Text.decimalValue_toDigits]

theorem exists_toDigits_cons (n : Nat) :
    ∃ c cs, Nat.toDigits 10 n = c :: cs ∧ c.isDigit = true := by
  obtain ⟨c, cs, hcs⟩ := List.exists_cons_of_ne_nil (Nat.toDigits_ne_nil (n := n) (b := 10))
  exact ⟨c, cs, hcs, Text.isDigit_of_mem_toDigits (hcs ▸ List.mem_cons_self)⟩

theorem readsBack_word (n : UInt64) : (Number.word n).ReadsBack := by
  have htext : (Number.word n).text.toList = Nat.toDigits 10 n.toNat := Nat.toList_repr
  constructor
  · obtain ⟨c, cs, hcs, hc⟩ := exists_toDigits_cons n.toNat
    exact ⟨c, cs, htext.trans hcs, Or.inr hc⟩
  · intro rest h
    have hword : wholeNumber false n.toNat = .num (.word n) := by
      have hlt : n.toNat < UInt64.size := n.toNat_lt
      simp only [wholeNumber, Bool.false_eq_true, if_false, if_pos hlt, word, UInt64.ofNat_toNat]
    rw [htext, ← hword]
    exact readNumber_toDigits false n.toNat h

theorem readsBack_negative {i : Int} (h : Number.inRange (.negative i) = true) :
    (Number.negative i).ReadsBack := by
  have hi : -(Word.signBit : Int) ≤ i ∧ i < 0 := by
    simp only [Number.inRange, Word.represents, Bool.and_eq_true, decide_eq_true_eq] at h
    exact ⟨h.1.1, h.2⟩
  have htext : (Number.negative i).text.toList = '-' :: Nat.toDigits 10 (-i).toNat := by
    show i.repr.toList = _
    rw [Int.repr_eq_if, if_neg (by omega), String.toList_append, Nat.toList_repr]
    rfl
  constructor
  · exact ⟨'-', _, htext, Or.inl rfl⟩
  · intro rest hrest
    have hvalue : wholeNumber true (-i).toNat = .num (.negative i) := by
      have hcast : (-((-i).toNat : Int)) = i := by omega
      simp only [wholeNumber, if_true, if_neg (show ¬(-i).toNat = 0 by omega),
        if_pos (show (-i).toNat ≤ Word.signBit by omega), hcast]
    rw [htext, ← hvalue]
    exact readNumber_toDigits true (-i).toNat hrest

/-! ## 3. Documents -/

/-- A document whose values have a meaning and whose numbers read back. -/
inductive Writable : Json → Prop where
  | null : Writable .null
  | bool (b : Bool) : Writable (.bool b)
  | num {n : Number} (h : n.ReadsBack) : Writable (.num n)
  | str (s : String) : Writable (.str s)
  | arr {items : List Json} (h : ∀ j ∈ items, Writable j) : Writable (.arr items)
  | obj {fields : List (String × Json)} (h : ∀ e ∈ fields, Writable e.2) : Writable (.obj fields)

/-- The blanks of a written document: before each part and before the closing bracket, which depend on
the level, and after the colon of a field. -/
structure Layout where
  line : Nat → List Char
  gap : List Char
  line_blank : ∀ level, ∀ c ∈ line level, isBlank c = true
  gap_blank : ∀ c ∈ gap, isBlank c = true

theorem toList_newline (level : Nat) :
    (newline level).toList = '\n' :: List.replicate (2 * level) ' ' := by
  simp [newline]

namespace Layout

def lines : Layout where
  line level := (newline level).toList
  gap := [' ']
  line_blank level c hc := by
    rw [toList_newline, List.mem_cons] at hc
    rcases hc with rfl | hc
    · rfl
    · rw [List.eq_of_mem_replicate hc]
      rfl
  gap_blank := List.forall_mem_singleton.2 rfl

def dense : Layout where
  line _ := []
  gap := []
  line_blank _ := List.forall_mem_nil _
  gap_blank := List.forall_mem_nil _

@[simp] theorem line_lines (level : Nat) : lines.line level = (newline level).toList := rfl

@[simp] theorem gap_lines : lines.gap = [' '] := rfl

@[simp] theorem line_dense (level : Nat) : dense.line level = [] := rfl

@[simp] theorem gap_dense : dense.gap = [] := rfl

mutual

/-- What is written of a document at the given level. -/
def chars (w : Layout) (level : Nat) : Json → List Char
  | .arr [] => ['[', ']']
  | .obj [] => ['\x7b', '\x7d']
  | .arr items => '[' :: w.itemChars (level + 1) true items ++ w.line level ++ [']']
  | .obj fields => '\x7b' :: w.fieldChars (level + 1) true fields ++ w.line level ++ ['\x7d']
  | j => (leafText j).toList

def itemChars (w : Layout) (level : Nat) (first : Bool) : List Json → List Char
  | [] => []
  | j :: rest =>
    (if first then [] else [',']) ++ w.line level ++ w.chars level j ++ w.itemChars level false rest

def fieldChars (w : Layout) (level : Nat) (first : Bool) : List (String × Json) → List Char
  | [] => []
  | e :: rest =>
    (if first then [] else [',']) ++ w.line level ++ w.entryChars level e ++ w.fieldChars level false rest

def entryChars (w : Layout) (level : Nat) : String × Json → List Char
  | (k, j) => (quote k).toList ++ ':' :: w.gap ++ w.chars level j

end

variable (w : Layout) (level : Nat)

theorem chars_leaf {j : Json} (harr : ∀ l, j ≠ .arr l) (hobj : ∀ l, j ≠ .obj l) :
    w.chars level j = (leafText j).toList := by
  cases j with
  | arr l => exact absurd rfl (harr l)
  | obj l => exact absurd rfl (hobj l)
  | _ => rw [chars] <;> nofun

theorem chars_arr (j : Json) (items : List Json) :
    w.chars level (.arr (j :: items)) =
      '[' :: w.itemChars (level + 1) true (j :: items) ++ w.line level ++ [']'] := by
  rw [chars]
  nofun

theorem chars_obj (e : String × Json) (fields : List (String × Json)) :
    w.chars level (.obj (e :: fields)) =
      '\x7b' :: w.fieldChars (level + 1) true (e :: fields) ++ w.line level ++ ['\x7d'] := by
  rw [chars]
  nofun

theorem entryChars_eq (e : String × Json) :
    w.entryChars level e = (quote e.1).toList ++ ':' :: w.gap ++ w.chars level e.2 := by
  rw [entryChars]

theorem itemChars_comma (j : Json) (items : List Json) :
    w.itemChars level false (j :: items) = ',' :: w.itemChars level true (j :: items) := by
  simp [itemChars]

theorem fieldChars_comma (e : String × Json) (fields : List (String × Json)) :
    w.fieldChars level false (e :: fields) = ',' :: w.fieldChars level true (e :: fields) := by
  simp [fieldChars]

end Layout

/-! ### A line per item -/

theorem prettyTo_leaf {j : Json} (harr : ∀ l, j ≠ .arr l) (hobj : ∀ l, j ≠ .obj l) (out : String)
    (level : Nat) : prettyTo out level j = out ++ leafText j := by
  cases j with
  | arr l => exact absurd rfl (harr l)
  | obj l => exact absurd rfl (hobj l)
  | _ => rw [prettyTo] <;> nofun

theorem toList_prettyItems {items : List Json}
    (h : ∀ j ∈ items, ∀ out level,
      (prettyTo out level j).toList = out.toList ++ Layout.lines.chars level j)
    (out : String) (level : Nat) (first : Bool) :
    (prettyItems out level first items).toList =
      out.toList ++ Layout.lines.itemChars level first items := by
  induction items generalizing out first with
  | nil => simp [Layout.itemChars, prettyItems]
  | cons j items ih =>
    rw [prettyItems, ih (fun j hj => h j (List.mem_cons_of_mem _ hj)), h j List.mem_cons_self]
    cases first <;> simp [Layout.itemChars]

theorem toList_prettyFields {fields : List (String × Json)}
    (h : ∀ e ∈ fields, ∀ out level,
      (prettyTo out level e.2).toList = out.toList ++ Layout.lines.chars level e.2)
    (out : String) (level : Nat) (first : Bool) :
    (prettyFields out level first fields).toList =
      out.toList ++ Layout.lines.fieldChars level first fields := by
  induction fields generalizing out first with
  | nil => simp [Layout.fieldChars, prettyFields]
  | cons e fields ih =>
    rw [prettyFields, ih (fun e he => h e (List.mem_cons_of_mem _ he)), prettyField, h e List.mem_cons_self]
    cases first <;> simp [Layout.fieldChars, Layout.entryChars_eq]

/-- Writing goes on after what was written before. -/
theorem toList_prettyTo (j : Json) : ∀ out level,
    (prettyTo out level j).toList = out.toList ++ Layout.lines.chars level j := by
  induction j using structural with
  | leaf j harr hobj =>
    intro out level
    rw [Layout.chars_leaf _ _ harr hobj, prettyTo_leaf harr hobj, String.toList_append]
  | arr items ih =>
    intro out level
    cases items with
    | nil => simp [Layout.chars, prettyTo]
    | cons j items => simp [Layout.chars_arr, prettyTo, toList_prettyItems ih]
  | obj fields ih =>
    intro out level
    cases fields with
    | nil => simp [Layout.chars, prettyTo]
    | cons e fields => simp [Layout.chars_obj, prettyTo, toList_prettyFields ih]

/-! ### Without blanks -/

theorem compressTo_leaf {j : Json} (harr : ∀ l, j ≠ .arr l) (hobj : ∀ l, j ≠ .obj l) (out : String) :
    compressTo out j = out ++ leafText j := by
  cases j with
  | arr l => exact absurd rfl (harr l)
  | obj l => exact absurd rfl (hobj l)
  | _ => rw [compressTo] <;> nofun

theorem toList_compressItems {items : List Json}
    (h : ∀ j ∈ items, ∀ out level, (compressTo out j).toList = out.toList ++ Layout.dense.chars level j)
    (out : String) (level : Nat) (first : Bool) :
    (compressItems out first items).toList = out.toList ++ Layout.dense.itemChars level first items := by
  induction items generalizing out first with
  | nil => simp [Layout.itemChars, compressItems]
  | cons j items ih =>
    rw [compressItems, ih (fun j hj => h j (List.mem_cons_of_mem _ hj)), h j List.mem_cons_self _ level]
    cases first <;> simp [Layout.itemChars]

theorem toList_compressFields {fields : List (String × Json)}
    (h : ∀ e ∈ fields, ∀ out level,
      (compressTo out e.2).toList = out.toList ++ Layout.dense.chars level e.2)
    (out : String) (level : Nat) (first : Bool) :
    (compressFields out first fields).toList =
      out.toList ++ Layout.dense.fieldChars level first fields := by
  induction fields generalizing out first with
  | nil => simp [Layout.fieldChars, compressFields]
  | cons e fields ih =>
    rw [compressFields, ih (fun e he => h e (List.mem_cons_of_mem _ he)), compressField,
      h e List.mem_cons_self _ level]
    cases first <;> simp [Layout.fieldChars, Layout.entryChars_eq]

theorem toList_compressTo (j : Json) : ∀ out level,
    (compressTo out j).toList = out.toList ++ Layout.dense.chars level j := by
  induction j using structural with
  | leaf j harr hobj =>
    intro out level
    rw [Layout.chars_leaf _ _ harr hobj, compressTo_leaf harr hobj, String.toList_append]
  | arr items ih =>
    intro out level
    cases items with
    | nil => simp [Layout.chars, compressTo, compressItems]
    | cons j items =>
      simp [Layout.chars_arr, compressTo, toList_compressItems ih _ (level + 1)]
  | obj fields ih =>
    intro out level
    cases fields with
    | nil => simp [Layout.chars, compressTo, compressFields]
    | cons e fields =>
      simp [Layout.chars_obj, compressTo, toList_compressFields ih _ (level + 1)]

/-! ## 4. Reading documents -/

theorem skip_blanks {blanks : List Char} (h : ∀ c ∈ blanks, isBlank c = true) (cs : List Char) :
    skip (blanks ++ cs) = skip cs :=
  List.dropWhile_append_of_pos h

theorem Layout.skip_line (w : Layout) (level : Nat) (cs : List Char) : skip (w.line level ++ cs) = skip cs :=
  skip_blanks (w.line_blank level) cs

theorem skip_cons {c : Char} (h : isBlank c = false) (cs : List Char) : skip (c :: cs) = c :: cs := by
  simp [skip, h]

theorem skip_skip (cs : List Char) : skip (skip cs) = skip cs := by
  cases h : skip cs with
  | nil => rfl
  | cons c rest =>
    have hc : isBlank c = false := by
      have hhead := List.head?_dropWhile_not isBlank cs
      rw [show cs.dropWhile isBlank = c :: rest from h] at hhead
      simpa using hhead
    exact skip_cons hc rest

/-- Blanks before a value are skipped. -/
theorem readValue_skip (fuel : Nat) (cs : List Char) : readValue fuel (skip cs) = readValue fuel cs := by
  cases fuel with
  | zero => rfl
  | succ fuel => rw [readValue, readValue, skip_skip]

theorem readItems_skip (fuel : Nat) (cs : List Char) : readItems fuel (skip cs) = readItems fuel cs := by
  cases fuel with
  | zero => rfl
  | succ fuel => rw [readItems, readItems, readValue_skip]

theorem readFields_skip (fuel : Nat) (cs : List Char) :
    readFields fuel (skip cs) = readFields fuel cs := by
  cases fuel with
  | zero => rfl
  | succ fuel => rw [readFields, readFields, skip_skip]

theorem readValue_blanks {blanks : List Char} (h : ∀ c ∈ blanks, isBlank c = true) (fuel : Nat)
    (cs : List Char) : readValue fuel (blanks ++ cs) = readValue fuel cs := by
  rw [← readValue_skip, skip_blanks h, readValue_skip]

theorem ne_of_isDigit {c d : Char} (h : c.isDigit = true) (hd : d.isDigit = false) : c ≠ d := by
  rintro rfl
  rw [h] at hd
  contradiction

/-- How a number starts is told from how any other value does. -/
theorem ne_of_startsNumber {c d : Char} (h : c = '-' ∨ c.isDigit = true) (hd : d.isDigit = false)
    (hminus : d ≠ '-') : c ≠ d := by
  rcases h with rfl | h
  · exact hminus.symm
  · exact ne_of_isDigit h hd

theorem isBlank_of_startsNumber {c : Char} (h : c = '-' ∨ c.isDigit = true) : isBlank c = false := by
  have hne : ∀ d : Char, d.isDigit = false → d ≠ '-' → c ≠ d := fun d => ne_of_startsNumber h
  simp [isBlank, hne ' ' rfl (by decide), hne '\n' rfl (by decide), hne '\t' rfl (by decide),
    hne '\r' rfl (by decide)]

/-- A document starts with a character that is neither blank nor closes another one. -/
theorem Writable.head {j : Json} (h : Writable j) (w : Layout) (level : Nat) :
    ∃ c cs, w.chars level j = c :: cs ∧ isBlank c = false ∧ c ≠ ']' := by
  cases h with
  | null => exact ⟨'n', _, w.chars_leaf level (j := .null) nofun nofun, by decide, by decide⟩
  | bool b =>
    cases b with
    | true => exact ⟨'t', _, w.chars_leaf level (j := .bool true) nofun nofun, by decide, by decide⟩
    | false => exact ⟨'f', _, w.chars_leaf level (j := .bool false) nofun nofun, by decide, by decide⟩
  | @num n h =>
    obtain ⟨c, cs, hcs, hc⟩ := h.head
    exact ⟨c, cs, (w.chars_leaf level (j := .num n) nofun nofun).trans hcs, isBlank_of_startsNumber hc,
      ne_of_startsNumber hc rfl (by decide)⟩
  | str s =>
    exact ⟨'"', _, (w.chars_leaf level (j := .str s) nofun nofun).trans (toList_quote s), by decide,
      by decide⟩
  | @arr items _ =>
    cases items with
    | nil => exact ⟨'[', [']'], by rw [Layout.chars], by decide, by decide⟩
    | cons j items => exact ⟨'[', _, w.chars_arr level j items, by decide, by decide⟩
  | @obj fields _ =>
    cases fields with
    | nil => exact ⟨'\x7b', ['\x7d'], by rw [Layout.chars], by decide, by decide⟩
    | cons e fields => exact ⟨'\x7b', _, w.chars_obj level e fields, by decide, by decide⟩

/-- A number is read where a value is. -/
theorem readValue_number {n : Number} (h : n.ReadsBack) {rest : List Char} (hrest : EndsNumber rest)
    (fuel : Nat) : readValue (fuel + 1) (n.text.toList ++ rest) = some (.num n, rest) := by
  obtain ⟨c, cs, hcs, hc⟩ := h.head
  have hread := h.read rest hrest
  have hne : ∀ d : Char, d.isDigit = false → d ≠ '-' → c ≠ d := fun d => ne_of_startsNumber hc
  rw [hcs, List.cons_append] at hread ⊢
  rw [readValue, skip_cons (isBlank_of_startsNumber hc)]
  split
  next heq => contradiction
  next heq => exact absurd (List.cons.inj heq).1 (hne _ rfl (by decide))
  next heq => exact absurd (List.cons.inj heq).1 (hne _ rfl (by decide))
  next heq => exact absurd (List.cons.inj heq).1 (hne _ rfl (by decide))
  next heq => exact absurd (List.cons.inj heq).1 (hne _ rfl (by decide))
  next heq => exact absurd (List.cons.inj heq).1 (hne _ rfl (by decide))
  next heq => exact absurd (List.cons.inj heq).1 (hne _ rfl (by decide))
  next => exact hread

/-- What is written of a value is read back as it is, as long as no number goes on after it. -/
def Layout.Rereads (w : Layout) (j : Json) : Prop :=
  ∀ level fuel rest, (w.chars level j).length ≤ fuel → EndsNumber rest →
    readValue fuel (w.chars level j ++ rest) = some (j, rest)

theorem endsNumber_cons {c : Char} (h : c = ',' ∨ c = ']' ∨ c = '\x7d') (cs : List Char) :
    EndsNumber (c :: cs) := by
  intro d hd
  obtain rfl : c = d := by simpa using hd
  rcases h with rfl | rfl | rfl <;> decide

theorem endsNumber_blanks {blanks : List Char} (h : ∀ c ∈ blanks, isBlank c = true) {cs : List Char}
    (hcs : EndsNumber cs) : EndsNumber (blanks ++ cs) := by
  cases blanks with
  | nil => exact hcs
  | cons b blanks =>
    intro d hd
    obtain rfl : b = d := by simpa using hd
    have hb := h b List.mem_cons_self
    simp only [isBlank, Bool.or_eq_true, decide_eq_true_eq] at hb
    rcases hb with ((rfl | rfl) | rfl) | rfl <;> decide

section Parts

variable {w : Layout} {level fuel : Nat}

/-- After an item comes the next one or the end of the line. -/
theorem endsNumber_itemChars (level' : Nat) (items : List Json) {rest : List Char} (h : EndsNumber rest) :
    EndsNumber (w.itemChars level false items ++ (w.line level' ++ rest)) := by
  cases items with
  | nil =>
    rw [Layout.itemChars, List.nil_append]
    exact endsNumber_blanks (w.line_blank level') h
  | cons j items =>
    rw [Layout.itemChars_comma]
    exact endsNumber_cons (Or.inl rfl) _

theorem endsNumber_fieldChars (level' : Nat) (fields : List (String × Json)) {rest : List Char}
    (h : EndsNumber rest) : EndsNumber (w.fieldChars level false fields ++ (w.line level' ++ rest)) := by
  cases fields with
  | nil =>
    rw [Layout.fieldChars, List.nil_append]
    exact endsNumber_blanks (w.line_blank level') h
  | cons e fields =>
    rw [Layout.fieldChars_comma]
    exact endsNumber_cons (Or.inl rfl) _

theorem itemChars_append (level : Nat) (j : Json) (items : List Json) (cs : List Char) :
    w.itemChars level true (j :: items) ++ cs =
      w.line level ++ (w.chars level j ++ (w.itemChars level false items ++ cs)) := by
  simp [Layout.itemChars]

theorem readItems_chars {j : Json} {items : List Json} (hitems : ∀ j' ∈ j :: items, w.Rereads j')
    (level' : Nat) (rest : List Char) (hfuel : (w.itemChars level true (j :: items)).length < fuel) :
    readItems fuel (w.itemChars level true (j :: items) ++ (w.line level' ++ ']' :: rest)) =
      some (j :: items, rest) := by
  induction items generalizing j fuel with
  | nil =>
    obtain ⟨fuel, rfl⟩ : ∃ f, fuel = f + 1 := ⟨fuel - 1, by omega⟩
    simp only [Layout.itemChars, if_pos, List.nil_append, List.append_nil, List.length_append] at hfuel
    have hends : EndsNumber (w.itemChars level false [] ++ (w.line level' ++ ']' :: rest)) :=
      endsNumber_itemChars level' [] (endsNumber_cons (Or.inr (Or.inl rfl)) _)
    rw [itemChars_append, readItems, readValue_blanks (w.line_blank level),
      hitems j List.mem_cons_self level fuel _ (by omega) hends, Layout.itemChars, List.nil_append]
    simp only [w.skip_line, skip_cons (show isBlank ']' = false from rfl)]
  | cons j' items ih =>
    obtain ⟨fuel, rfl⟩ : ∃ f, fuel = f + 1 := ⟨fuel - 1, by omega⟩
    rw [Layout.itemChars, Layout.itemChars_comma] at hfuel
    simp only [if_pos, List.nil_append, List.length_append, List.length_cons] at hfuel
    have hitems' : ∀ i ∈ j' :: items, w.Rereads i := fun i hi => hitems i (List.mem_cons_of_mem _ hi)
    have hrest := ih hitems' (show (w.itemChars level true (j' :: items)).length < fuel by omega)
    have hends : EndsNumber (w.itemChars level false (j' :: items) ++ (w.line level' ++ ']' :: rest)) :=
      endsNumber_itemChars level' (j' :: items) (endsNumber_cons (Or.inr (Or.inl rfl)) _)
    rw [itemChars_append, readItems, readValue_blanks (w.line_blank level),
      hitems j List.mem_cons_self level fuel _ (by omega) hends, Layout.itemChars_comma]
    simp only [List.cons_append, skip_cons (show isBlank ',' = false from rfl), hrest]
    rfl

theorem fieldChars_append (level : Nat) (e : String × Json) (fields : List (String × Json))
    (cs : List Char) :
    w.fieldChars level true (e :: fields) ++ cs =
      w.line level ++ ((quote e.1).toList ++ (':' :: (w.gap ++ (w.chars level e.2 ++
        (w.fieldChars level false fields ++ cs))))) := by
  simp [Layout.fieldChars, Layout.entryChars_eq]

/-- The name of a field is read up to the colon, then the value. -/
theorem readFields_name (k : String) (fuel level : Nat) (cs : List Char) :
    readFields (fuel + 1) (w.line level ++ ((quote k).toList ++ (':' :: (w.gap ++ cs)))) =
      match readValue fuel cs with
      | none => none
      | some (j, rest) =>
        match skip rest with
        | ',' :: rest => (readFields fuel rest).map fun (fields, rest) => (fields.map ((k, j) :: ·), rest)
        | '\x7d' :: rest => some (some [(k, j)], rest)
        | _ => none := by
  rw [readFields, w.skip_line, toList_quote, ← readValue_blanks w.gap_blank fuel cs]
  simp only [List.cons_append, List.append_assoc, List.nil_append,
    skip_cons (show isBlank '"' = false from rfl), readText_quote,
    skip_cons (show isBlank ':' = false from rfl), textOf?_points]
  rfl

theorem readFields_chars {e : String × Json} {fields : List (String × Json)}
    (hfields : ∀ e' ∈ e :: fields, w.Rereads e'.2) (level' : Nat) (rest : List Char)
    (hfuel : (w.fieldChars level true (e :: fields)).length < fuel) :
    readFields fuel (w.fieldChars level true (e :: fields) ++ (w.line level' ++ '\x7d' :: rest)) =
      some (some (e :: fields), rest) := by
  induction fields generalizing e fuel with
  | nil =>
    obtain ⟨fuel, rfl⟩ : ∃ f, fuel = f + 1 := ⟨fuel - 1, by omega⟩
    simp only [Layout.fieldChars, Layout.entryChars_eq, if_pos, List.nil_append, List.append_nil,
      List.length_append] at hfuel
    have hends : EndsNumber (w.fieldChars level false [] ++ (w.line level' ++ '\x7d' :: rest)) :=
      endsNumber_fieldChars level' [] (endsNumber_cons (Or.inr (Or.inr rfl)) _)
    rw [fieldChars_append, readFields_name,
      hfields e List.mem_cons_self level fuel _ (by omega) hends, Layout.fieldChars, List.nil_append]
    simp only [w.skip_line, skip_cons (show isBlank '\x7d' = false from rfl)]
  | cons e' fields ih =>
    obtain ⟨fuel, rfl⟩ : ∃ f, fuel = f + 1 := ⟨fuel - 1, by omega⟩
    rw [Layout.fieldChars, Layout.fieldChars_comma, Layout.entryChars_eq] at hfuel
    simp only [if_pos, List.nil_append, List.length_append, List.length_cons] at hfuel
    have hfields' : ∀ i ∈ e' :: fields, w.Rereads i.2 := fun i hi => hfields i (List.mem_cons_of_mem _ hi)
    have hrest := ih hfields' (show (w.fieldChars level true (e' :: fields)).length < fuel by omega)
    have hends : EndsNumber (w.fieldChars level false (e' :: fields) ++
        (w.line level' ++ '\x7d' :: rest)) :=
      endsNumber_fieldChars level' (e' :: fields) (endsNumber_cons (Or.inr (Or.inr rfl)) _)
    rw [fieldChars_append, readFields_name,
      hfields e List.mem_cons_self level fuel _ (by omega) hends, Layout.fieldChars_comma]
    simp only [List.cons_append, skip_cons (show isBlank ',' = false from rfl), hrest]
    rfl

end Parts

theorem Writable.length_pos {j : Json} (h : Writable j) (w : Layout) (level : Nat) :
    1 ≤ (w.chars level j).length := by
  obtain ⟨c, cs, hcs, -⟩ := h.head w level
  simp [hcs]

theorem rereads_of_succ {w : Layout} {j : Json} (h : Writable j)
    (hread : ∀ level rest, EndsNumber rest → ∀ fuel, (w.chars level j).length ≤ fuel + 1 →
      readValue (fuel + 1) (w.chars level j ++ rest) = some (j, rest)) : w.Rereads j := by
  intro level fuel rest hfuel hrest
  -- nothing is read without fuel, but nothing is written without a character
  obtain ⟨fuel, rfl⟩ : ∃ f, fuel = f + 1 := ⟨fuel - 1, by have := h.length_pos w level; omega⟩
  exact hread level rest hrest fuel hfuel

theorem rereads_arr {w : Layout} {items : List Json} (h : ∀ j ∈ items, Writable j)
    (hitems : ∀ j ∈ items, w.Rereads j) : w.Rereads (.arr items) := by
  refine rereads_of_succ (.arr h) fun level rest hrest fuel hfuel => ?_
  cases items with
  | nil =>
    rw [Layout.chars]
    rfl
  | cons j items =>
    obtain ⟨c, cs, hcs, hblank, hne⟩ := (h j List.mem_cons_self).head w (level + 1)
    rw [Layout.chars_arr] at hfuel ⊢
    simp only [List.length_append, List.length_cons] at hfuel
    have hread := readItems_chars hitems level rest
      (show (w.itemChars (level + 1) true (j :: items)).length < fuel by omega)
    rw [← readItems_skip, itemChars_append, w.skip_line, hcs, List.cons_append, skip_cons hblank] at hread
    simp only [readValue, List.cons_append, List.append_assoc, List.nil_append, itemChars_append,
      skip_cons (show isBlank '[' = false from rfl), w.skip_line, hcs, skip_cons hblank]
    split
    next heq => exact absurd (List.cons.inj heq).1 hne
    next =>
      rw [hread]
      rfl

theorem rereads_obj {w : Layout} {fields : List (String × Json)} (h : ∀ e ∈ fields, Writable e.2)
    (hfields : ∀ e ∈ fields, w.Rereads e.2) : w.Rereads (.obj fields) := by
  refine rereads_of_succ (.obj h) fun level rest hrest fuel hfuel => ?_
  cases fields with
  | nil =>
    rw [Layout.chars]
    rfl
  | cons e fields =>
    rw [Layout.chars_obj] at hfuel ⊢
    simp only [List.length_append, List.length_cons] at hfuel
    have hread := readFields_chars hfields level rest
      (show (w.fieldChars (level + 1) true (e :: fields)).length < fuel by omega)
    rw [← readFields_skip, fieldChars_append, w.skip_line, toList_quote] at hread
    simp only [List.cons_append, List.append_assoc, List.nil_append,
      skip_cons (show isBlank '"' = false from rfl)] at hread
    simp only [readValue, List.cons_append, List.append_assoc, List.nil_append, fieldChars_append,
      toList_quote, skip_cons (show isBlank '\x7b' = false from rfl), w.skip_line,
      skip_cons (show isBlank '"' = false from rfl)]
    split
    next heq => exact absurd (List.cons.inj heq).1 (by decide)
    next =>
      rw [hread]
      rfl

/-- A document is read back, in whatever document it stands. -/
theorem Writable.rereads {j : Json} (h : Writable j) (w : Layout) : w.Rereads j := by
  induction h with
  | null =>
    refine rereads_of_succ .null fun level rest _ fuel _ => ?_
    rw [w.chars_leaf level (j := .null) nofun nofun]
    rfl
  | bool b =>
    refine rereads_of_succ (.bool b) fun level rest _ fuel _ => ?_
    rw [w.chars_leaf level (j := .bool b) nofun nofun]
    cases b <;> rfl
  | @num n h =>
    refine rereads_of_succ (.num h) fun level rest hrest fuel _ => ?_
    rw [w.chars_leaf level (j := .num n) nofun nofun]
    exact readValue_number h hrest fuel
  | str s =>
    refine rereads_of_succ (.str s) fun level rest _ fuel _ => ?_
    rw [w.chars_leaf level (j := .str s) nofun nofun]
    show readValue (fuel + 1) ((quote s).toList ++ rest) = _
    rw [toList_quote, readValue]
    simp [skip_cons (show isBlank '"' = false from rfl), readText_quote, ofPoints_points]
  | arr h ih => exact rereads_arr h ih
  | obj h ih => exact rereads_obj h ih

theorem Writable.parse_of_layout {j : Json} (h : Writable j) {w : Layout} {text : String}
    (htext : text.toList = w.chars 0 j) : parse text = some j := by
  have hread := h.rereads w 0 (2 * (w.chars 0 j).length + 2) [] (by omega) nofun
  rw [List.append_nil] at hread
  unfold parse
  dsimp only
  rw [htext, hread]
  rfl

/-- Reading gives back the document that was written, however it was laid out. -/
theorem parse_pretty {j : Json} (h : Writable j) : parse j.pretty = some j :=
  h.parse_of_layout (toList_prettyTo j "" 0)

theorem parse_compress {j : Json} (h : Writable j) : parse j.compress = some j :=
  h.parse_of_layout (toList_compressTo j "" 0)

end Federation.Json
