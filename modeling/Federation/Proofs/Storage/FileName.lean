import Mathlib.Data.String.Basic
import Federation.Proofs.Storage.FileTree
import Federation.Proofs.Text.Digits
import Federation.Storage.Files
/-!
# Names of checkpoints

The name of a file tells the round of its checkpoint, however many digits it has, and the name of a
temporary file is never read as one. A file system takes all these names.
-/

namespace Federation.FileStore

/-! ## 1. Names and rounds -/

theorem dropLeading_eq_some {l cs rest : List Char} : dropLeading l cs = some rest ↔ cs = l ++ rest := by
  induction l generalizing cs with
  | nil => simp [dropLeading]
  | cons c l ih =>
    cases cs with
    | nil => simp [dropLeading]
    | cons c' cs =>
      by_cases h : c = c'
      · simp [dropLeading, h, ih]
      · simp [dropLeading, h, Ne.symm h]

theorem toList_fileName (round : RoundNumber) : (fileName round).toList =
    namePrefix.toList ++ ((Text.padded 6 round.toNat).toList ++ nameSuffix.toList) := by
  simp [fileName, List.append_assoc]

/-- A name spells a round: in digits, however many, which a plus sign may precede. -/
def Spells (name : String) (round : RoundNumber) : Prop :=
  ∃ sign digits, (sign = [] ∨ sign = ['+']) ∧ digits ≠ [] ∧ (∀ c ∈ digits, c.isDigit = true) ∧
    Text.decimalValue digits = round.toNat ∧
    name.toList = namePrefix.toList ++ (sign ++ digits ++ nameSuffix.toList)

theorem parseFileName_eq_some {name : String} {round : RoundNumber} :
    parseFileName name = some round ↔ Spells name round := by
  have hsplit : parseFileName name = some round ↔ ∃ word : List Char,
      name.toList = namePrefix.toList ++ (word ++ nameSuffix.toList) ∧
        Text.readWord (String.ofList word) = some round := by
    rw [parseFileName, Option.bind_eq_bind, Option.bind_eq_some_iff]
    constructor
    · rintro ⟨rest, hrest, h⟩
      obtain ⟨reversed, hreversed, hword⟩ := Option.bind_eq_some_iff.1 h
      refine ⟨reversed.reverse, ?_, hword⟩
      have hcut := congrArg List.reverse (dropLeading_eq_some.1 hreversed)
      rw [List.reverse_reverse, List.reverse_append, List.reverse_reverse] at hcut
      rw [dropLeading_eq_some.1 hrest, hcut]
    · rintro ⟨word, hname, hword⟩
      refine ⟨_, dropLeading_eq_some.2 hname, Option.bind_eq_some_iff.2 ⟨word.reverse, ?_, ?_⟩⟩
      · rw [List.reverse_append]
        exact dropLeading_eq_some.2 rfl
      · rwa [List.reverse_reverse]
  rw [hsplit]
  constructor
  · rintro ⟨word, hname, hword⟩
    obtain ⟨sign, digits, hsign, hds, hne, hdigits, hvalue⟩ := Text.readWord_eq_some.1 hword
    rw [String.toList_ofList] at hds
    exact ⟨sign, digits, hsign, hne, hdigits, hvalue, hds ▸ hname⟩
  · rintro ⟨sign, digits, hsign, hne, hdigits, hvalue, hname⟩
    refine ⟨sign ++ digits, hname, Text.readWord_eq_some.2 ⟨sign, digits, hsign, ?_, hne, hdigits, hvalue⟩⟩
    rw [String.toList_ofList]

theorem spells_fileName (round : RoundNumber) : Spells (fileName round) round := by
  refine ⟨[], (Text.padded 6 round.toNat).toList, Or.inl rfl, Text.padded_ne_nil 6 round.toNat,
    fun _ hc => Text.isDigit_of_mem_padded hc, Text.decimalValue_padded 6 round.toNat, ?_⟩
  rw [List.nil_append]
  exact toList_fileName round

theorem parseFileName_fileName (round : RoundNumber) : parseFileName (fileName round) = some round :=
  parseFileName_eq_some.2 (spells_fileName round)

theorem fileName_injective {round round' : RoundNumber} (h : fileName round = fileName round') :
    round = round' := by
  have hparsed := parseFileName_fileName round
  rw [h, parseFileName_fileName] at hparsed
  exact (Option.some.inj hparsed).symm

theorem toList_temporaryName (round : RoundNumber) :
    (temporaryName round).toList = '.' :: ((fileName round).toList ++ ".tmp".toList) := by
  simp [temporaryName]

/-- A temporary file is not taken for a checkpoint. -/
theorem parseFileName_temporaryName (round : RoundNumber) :
    parseFileName (temporaryName round) = none := by
  rw [parseFileName, toList_temporaryName]
  rfl

theorem temporaryName_ne_fileName (round round' : RoundNumber) :
    temporaryName round ≠ fileName round' := by
  intro h
  have hnone := parseFileName_temporaryName round
  rw [h, parseFileName_fileName] at hnone
  contradiction

/-! ## 2. Names that a file system takes -/

theorem length_padded_le (round : RoundNumber) :
    (Text.padded 6 round.toNat).toList.length ≤ 20 := by
  have hlt : round.toNat < 10 ^ 20 := round.toNat_lt.trans (by decide)
  have hle := (Nat.length_toDigits_le_iff (b := 10) (k := 20) (by decide) (by decide)).2 hlt
  rw [Text.toList_padded, List.length_append, List.length_replicate]
  omega

theorem ne_zero_of_mem_fileName {round : RoundNumber} {c : Char} (h : c ∈ (fileName round).toList) :
    c.toNat ≠ 0 := by
  have hprefix : ∀ c ∈ namePrefix.toList, c.toNat ≠ 0 := by simp [namePrefix]
  have hsuffix : ∀ c ∈ nameSuffix.toList, c.toNat ≠ 0 := by simp [nameSuffix]
  rw [toList_fileName, List.mem_append, List.mem_append] at h
  rcases h with h | h | h
  · exact hprefix c h
  · have hdigit := (Char.isDigit_iff_toNat.1 (Text.isDigit_of_mem_padded h)).1
    have hzero : '0'.toNat = 48 := rfl
    omega
  · exact hsuffix c h

theorem utf8ByteSize_le (name : String) : name.utf8ByteSize ≤ 4 * name.toList.length := by
  rw [← String.utf8Len_toList]
  induction name.toList with
  | nil => exact Nat.le_refl 0
  | cons c l ih =>
    have hc := c.utf8Size_le_four
    rw [String.utf8Len_cons, List.length_cons]
    omega

theorem standard_takes {name : String} (hzero : ∀ c ∈ name.toList, c.toNat ≠ 0)
    (hshort : name.toList.length ≤ 63) : NameRule.standard.Takes name where
  valid := by simpa [NameRule.standard] using hzero
  short := by
    have hsize := utf8ByteSize_le name
    exact decide_eq_false (by omega)

/-- The names that a store gives to its files are taken. -/
structure Suited (r : NameRule) : Prop where
  file : ∀ round, r.Takes (fileName round)
  temporary : ∀ round, r.Takes (temporaryName round)

theorem suited_standard : Suited .standard where
  file round := by
    refine standard_takes (fun c hc => ne_zero_of_mem_fileName hc) ?_
    have hlen := length_padded_le round
    rw [toList_fileName, List.length_append, List.length_append]
    have hprefix : namePrefix.toList.length = 6 := rfl
    have hsuffix : nameSuffix.toList.length = 5 := rfl
    omega
  temporary round := by
    have hmark : ∀ c ∈ ".tmp".toList, c.toNat ≠ 0 := by simp
    refine standard_takes (fun c hc => ?_) ?_
    · rw [toList_temporaryName, List.mem_cons, List.mem_append] at hc
      rcases hc with rfl | hc | hc
      · decide
      · exact ne_zero_of_mem_fileName hc
      · exact hmark c hc
    · have hlen := length_padded_le round
      rw [toList_temporaryName, List.length_cons, List.length_append, toList_fileName,
        List.length_append, List.length_append]
      have hprefix : namePrefix.toList.length = 6 := rfl
      have hsuffix : nameSuffix.toList.length = 5 := rfl
      have hmark : ".tmp".toList.length = 4 := rfl
      omega

/-- A file system that is a map from all paths refuses no name. -/
def unlimited : NameRule := ⟨fun _ => false, fun _ => false⟩

theorem takes_unlimited (name : String) : unlimited.Takes name := ⟨rfl, rfl⟩

theorem suited_unlimited : Suited unlimited :=
  ⟨fun _ => takes_unlimited _, fun _ => takes_unlimited _⟩

end Federation.FileStore
