import Federation.Proofs.Except
import Federation.Proofs.Mask.SecureMean
/-!
# What a secure round makes of masked vectors

A secure round recovers a mean only from one vector of each party and of nobody else. Of all that may
hinder it, the first one counts: a stranger, a party that is missing, a vector or a weight that cannot be
added, a total weight that cannot be divided by, and a verification element that is off.
-/

namespace Federation

namespace SecaggRound

variable {R : Type}

/-! ## 1. Sums that stop -/

theorem total_append (l l' : List Entry) (s : MaskedSum) (c : UInt64) :
    total (R := R) (l ++ l') s c = total l s c >>= fun t => total l' t.1 t.2 := by
  induction l generalizing s c with
  | nil => rfl
  | cons e l ih =>
    obtain ⟨node, v, w⟩ := e
    rw [List.cons_append, total, total]
    cases s.add v with
    | error e => rfl
    | ok s =>
      dsimp only
      split
      · rfl
      · exact ih _ _

/-- An entry does not go with those before it. -/
inductive Offends (values : Nat) (before : List Entry) : Entry → SecaggError R → Prop where
  | length (node : NodeId) (v : MaskedVector) (w : UInt64) (h : v.data.length ≠ values + 1) :
    Offends values before (node, v, w)
      (.invalidMaskedParameters node ⟨values + 1, v.data.length⟩)
  | weight (node : NodeId) (v : MaskedVector) (w : UInt64) (h : v.data.length = values + 1)
    (hw : 2 ^ 64 ≤ weightOf before + w.toNat) :
    Offends values before (node, v, w) (.unmasking (.tooMuchWeight (UInt64.ofNat (2 ^ 64 - 1))))

/-- A sum stops at the first entry that offends. -/
theorem total_of_offends {values : Nat} {before : List Entry} (h : Addable values before) {e : Entry}
    {error : SecaggError R} (he : Offends values before e error) (after : List Entry) :
    total (before ++ e :: after) (.zero values) 0 = .error error := by
  obtain ⟨t, W, htotal, hW, -, hlength, -⟩ := total_of_addable R h
  rw [total_append, htotal]
  show total (e :: after) t W = _
  cases he with
  | length node v w hv =>
    rw [total, MaskedSum.add, MaskedSum.check, if_neg (by rwa [hlength]), hlength]
    rfl
  | weight node v w hv hw =>
    have hfull : UInt64.size ≤ W.toNat + w.toNat := by rwa [hW]
    rw [total, MaskedSum.add_eq_ok (hv.trans hlength.symm)]
    exact if_pos hfull

/-- Entries can be added, or there is a first one that offends. -/
theorem addable_or_offends (values : Nat) (l : List Entry) :
    Addable values l ∨ ∃ before e after, l = before ++ e :: after ∧ Addable values before ∧
      ∃ error : SecaggError R, Offends values before e error := by
  -- entries are added at the end, so that the first one that offends stays the first
  induction l using List.reverseRecOn with
  | nil => exact Or.inl ⟨List.forall_mem_nil _, by decide⟩
  | append_singleton l e ih =>
    rcases ih with h | ⟨before, e', after, rfl, hrest⟩
    · obtain ⟨node, v, w⟩ := e
      by_cases hv : v.data.length = values + 1
      · by_cases hw : weightOf l + w.toNat < 2 ^ 64
        · refine Or.inl ⟨fun e he => ?_, ?_⟩
          · rcases List.mem_append.1 he with he | he
            · exact h.lengths e he
            · obtain rfl := List.mem_singleton.1 he
              exact hv
          · simpa [weightOf] using hw
        · exact Or.inr ⟨l, _, [], rfl, h, _, .weight node v w hv (Nat.le_of_not_lt hw)⟩
      · exact Or.inr ⟨l, _, [], rfl, h, _, .length node v w hv⟩
    · exact Or.inr ⟨before, e', after ++ [e], by simp, hrest⟩

/-! ## 2. Verdicts -/

variable [Scalar R] (r : SecaggRound R) (masked : NameMap (MaskedVector × UInt64)) (layout : Parameters R)

/-- The parties of which no vector was received, in the order of the session. -/
def missing : List NodeId := r.session.parties.filter fun node => node ∉ masked.keys

/-- The value that is unmasked at a position of the vectors. -/
def unmaskedAt (k : Nat) : R :=
  r.config.decode (wordOf masked.toList k) / Scalar.ofCount (UInt64.ofNat (weightOf masked.toList))

/-- How far the unmasked verification element is off. -/
def deviation : R := Scalar.magnitude (r.unmaskedAt masked layout.length - r.random)

/-- There is one vector of each party and of nobody else. -/
def FromParties : Prop := ∀ node, node ∈ masked.keys ↔ node ∈ r.session.parties

/-- The vectors are those of the parties, they have the right lengths, and their weights add up to one that
can be divided by. -/
structure Unmaskable : Prop where
  parties : r.FromParties masked
  addable : Addable layout.length masked.toList
  positive : 1 ≤ weightOf masked.toList
  bounded : weightOf masked.toList ≤ r.config.maxTotalWeight.toNat

/-- The unmasked values in the layout. -/
structure IsMean (p : Parameters R) : Prop where
  layout_eq : p.layout = layout.layout
  flatten_eq : p.flatten = (List.range layout.length).map (r.unmaskedAt masked)

/-- What hinders the unmasking of vectors. Of several errors the one that is listed first counts. -/
inductive Hindrance : SecaggError R → Prop where
  | stranger (node : NodeId) (hnode : node ∈ masked.keys) (hstranger : node ∉ r.session.parties)
    (hleast : ∀ other ∈ masked.keys, compare other node = .lt → other ∈ r.session.parties) :
    Hindrance (.unexpectedParty node)
  | missing (hexpected : ∀ node ∈ masked.keys, node ∈ r.session.parties) (h : r.missing masked ≠ []) :
    Hindrance (.quorumNotMet (r.missing masked))
  | offended (hp : r.FromParties masked) (before : List Entry) (e : Entry) (after : List Entry)
    (hlist : masked.toList = before ++ e :: after) (hbefore : Addable layout.length before)
    (error : SecaggError R) (h : Offends layout.length before e error) : Hindrance error
  | empty (hp : r.FromParties masked) (h : masked.toList = []) : Hindrance (.unmasking .noVector)
  | weightless (hp : r.FromParties masked) (ha : Addable layout.length masked.toList)
    (hsome : masked.toList ≠ []) (h : weightOf masked.toList = 0) : Hindrance (.unmasking .zeroWeight)
  | overweight (hp : r.FromParties masked) (ha : Addable layout.length masked.toList)
    (h : r.config.maxTotalWeight.toNat < weightOf masked.toList) :
    Hindrance (.unmasking (.tooMuchWeight (UInt64.ofNat (weightOf masked.toList))))

/-- What a round makes of masked vectors. -/
inductive Verdict [LE R] : Except (SecaggError R) (Parameters R) → Prop where
  | hindered (e : SecaggError R) (h : r.Hindrance masked layout e) : Verdict (.error e)
  | mismatch (hu : r.Unmaskable masked layout) (h : ¬r.deviation masked layout ≤ r.tolerance) :
    Verdict (.error (.maskMismatch r.random (r.unmaskedAt masked layout.length)))
  | mean (hu : r.Unmaskable masked layout) (h : r.deviation masked layout ≤ r.tolerance)
    (p : Parameters R) (hp : r.IsMean masked layout p) : Verdict (.ok p)

variable {r masked layout}

omit [Scalar R] in
theorem find?_stranger_eq_none :
    (masked.keys.find? fun node => !r.session.parties.contains node) = none ↔
      ∀ node ∈ masked.keys, node ∈ r.session.parties := by
  simp [List.find?_eq_none]

omit [Scalar R] in
/-- The first stranger is the smallest one. -/
theorem find?_stranger_eq_some {node : NodeId} :
    (masked.keys.find? fun node => !r.session.parties.contains node) = some node ↔
      node ∈ masked.keys ∧ node ∉ r.session.parties ∧
        ∀ other ∈ masked.keys, compare other node = .lt → other ∈ r.session.parties := by
  rw [SortedMap.find?_eq_some_iff_least id masked.ascending_keys]
  simp

omit [Scalar R] in
theorem filter_missing :
    (r.session.parties.filter fun node => !masked.contains node) = r.missing masked := by
  refine List.filter_congr fun node _ => ?_
  simp only [SortedMap.mem_keys_iff_isSome, SortedMap.contains]
  cases (masked.find? node).isSome <;> rfl

omit [Scalar R] in
theorem fromParties_iff :
    r.FromParties masked ↔ (∀ node ∈ masked.keys, node ∈ r.session.parties) ∧ r.missing masked = [] := by
  simp only [FromParties, missing, List.filter_eq_nil_iff, decide_eq_true_eq, not_not]
  exact ⟨fun h => ⟨fun node => (h node).1, fun node => (h node).2⟩,
    fun h node => ⟨h.1 node, h.2 node⟩⟩

/-- Where everything comes from the parties, the vectors are added up and unmasked. -/
theorem aggregate_of_fromParties (h : r.FromParties masked) :
    r.aggregate masked layout = (do
      let (sum, weight) ← total masked.toList (.zero layout.length) 0
      let u ← (sum.unmask r.config weight).mapError .unmasking
      if r.tolerance < Scalar.magnitude (u.verification - r.random) then
        throw (.maskMismatch r.random u.verification)
      (layout.unflatten u.values).mapError .layout) := by
  obtain ⟨hexpected, hmissing⟩ := fromParties_iff.1 h
  unfold aggregate
  rw [find?_stranger_eq_none.2 hexpected]
  dsimp only
  rw [filter_missing, hmissing]
  rfl

/-- What is unmasked are the values at all positions but the last one, which verifies them. -/
theorem unmask_of_unmaskable (h : r.Unmaskable masked layout) :
    ∃ sum weight, total (R := R) masked.toList (.zero layout.length) 0 = .ok (sum, weight) ∧
      sum.unmask r.config weight = .ok
        ⟨(List.range layout.length).map (r.unmaskedAt masked), r.unmaskedAt masked layout.length⟩ := by
  obtain ⟨sum, weight, htotal, hweight, hcount, hlength, hwords⟩ := total_of_addable R h.addable
  have hpositive := h.positive
  have hbounded := h.bounded
  have hcounted : sum.count ≠ 0 := by
    rw [hcount]
    intro h0
    rw [List.eq_nil_of_length_eq_zero h0] at hpositive
    contradiction
  have hzero : weight ≠ 0 := by
    rintro rfl
    rw [UInt64.toNat_zero] at hweight
    omega
  have hmax : ¬r.config.maxTotalWeight < weight := by
    rw [UInt64.lt_iff_toNat_lt]
    omega
  have hword : UInt64.ofNat (weightOf masked.toList) = weight := by
    rw [← hweight, UInt64.ofNat_toNat]
  refine ⟨sum, weight, htotal, ?_⟩
  rw [sum.unmask_eq_ok hcounted hzero hmax, getLastD_of_length hlength, hwords]
  congr 2
  · refine List.ext_getElem? fun k => ?_
    by_cases hk : k < layout.length
    · rw [List.getElem?_map, getElem?_dropLast_of_length hlength hk, hwords, List.getElem?_map,
        List.getElem?_range hk]
      show some _ = some _
      rw [unmaskedAt, hword]
    · rw [List.getElem?_eq_none (by simp [hlength]; omega), List.getElem?_eq_none (by simp; omega)]
  · rw [unmaskedAt, hword]

variable (r masked layout) in
theorem length_unmasked :
    ((List.range layout.length).map (r.unmaskedAt masked)).length = layout.length := by
  rw [List.length_map, List.length_range]

theorem exists_isMean (r : SecaggRound R) (masked : NameMap (MaskedVector × UInt64))
    (layout : Parameters R) : ∃ p, layout.unflatten ((List.range layout.length).map (r.unmaskedAt masked)) =
      .ok p ∧ r.IsMean masked layout p := by
  obtain ⟨p, hp, hlayout, hvalues⟩ := Parameters.unflatten_of_length (r.length_unmasked masked layout)
  exact ⟨p, hp, hlayout, hvalues⟩

theorem IsMean.eq {p q : Parameters R} (hp : r.IsMean masked layout p) (hq : r.IsMean masked layout q) :
    p = q :=
  Parameters.ext_flatten (hp.layout_eq.trans hq.layout_eq.symm) (hp.flatten_eq.trans hq.flatten_eq.symm)

theorem aggregate_of_hindrance {e : SecaggError R} (h : r.Hindrance masked layout e) :
    r.aggregate masked layout = .error e := by
  cases h with
  | stranger node hnode hstranger hleast =>
    unfold aggregate
    rw [find?_stranger_eq_some.2 ⟨hnode, hstranger, hleast⟩]
  | missing hexpected h =>
    unfold aggregate
    rw [find?_stranger_eq_none.2 hexpected]
    dsimp only
    rw [filter_missing, if_pos (by simpa using h)]
  | offended hp before e after hlist hbefore error h =>
    rw [aggregate_of_fromParties hp, hlist, total_of_offends hbefore h after]
    rfl
  | empty hp h =>
    rw [aggregate_of_fromParties hp, h]
    rfl
  | weightless hp ha hsome h =>
    obtain ⟨sum, weight, htotal, hweight, hcount, -, -⟩ := total_of_addable R ha
    have hcounted : sum.count ≠ 0 := by
      rw [hcount]
      exact fun h0 => hsome (List.eq_nil_of_length_eq_zero h0)
    have hzero : weight = 0 := UInt64.toNat_inj.1 (hweight.trans h)
    rw [aggregate_of_fromParties hp, htotal]
    show ((sum.unmask r.config weight).mapError _ >>= _) = _
    rw [MaskedSum.unmask, if_neg hcounted, if_pos hzero]
    rfl
  | overweight hp ha h =>
    obtain ⟨sum, weight, htotal, hweight, hcount, -, -⟩ := total_of_addable R ha
    have hcounted : sum.count ≠ 0 := by
      rw [hcount]
      intro h0
      rw [List.eq_nil_of_length_eq_zero h0] at h
      contradiction
    have hzero : weight ≠ 0 := by
      rintro rfl
      rw [← hweight] at h
      contradiction
    have hmax : r.config.maxTotalWeight < weight := by
      rw [UInt64.lt_iff_toNat_lt, hweight]
      exact h
    rw [aggregate_of_fromParties hp, htotal]
    show ((sum.unmask r.config weight).mapError _ >>= _) = _
    rw [MaskedSum.unmask, if_neg hcounted, if_neg hzero, if_pos hmax, ← hweight, UInt64.ofNat_toNat]
    rfl

/-- Vectors can be unmasked unless something hinders it. -/
theorem hindrance_or_unmaskable (r : SecaggRound R) (masked : NameMap (MaskedVector × UInt64))
    (layout : Parameters R) : (∃ e, r.Hindrance masked layout e) ∨ r.Unmaskable masked layout := by
  rcases hfound : masked.keys.find? fun node => !r.session.parties.contains node with _ | node
  swap
  · obtain ⟨hnode, hstranger, hleast⟩ := find?_stranger_eq_some.1 hfound
    exact .inl ⟨_, .stranger node hnode hstranger hleast⟩
  have hexpected := find?_stranger_eq_none.1 hfound
  by_cases hmissing : r.missing masked = []
  swap
  · exact .inl ⟨_, .missing hexpected hmissing⟩
  have hp : r.FromParties masked := fromParties_iff.2 ⟨hexpected, hmissing⟩
  rcases addable_or_offends (R := R) layout.length masked.toList with
    ha | ⟨before, e, after, hlist, hbefore, error, h⟩
  swap
  · exact .inl ⟨_, .offended hp before e after hlist hbefore error h⟩
  by_cases hempty : masked.toList = []
  · exact .inl ⟨_, .empty hp hempty⟩
  by_cases hzero : weightOf masked.toList = 0
  · exact .inl ⟨_, .weightless hp ha hempty hzero⟩
  by_cases hmax : r.config.maxTotalWeight.toNat < weightOf masked.toList
  · exact .inl ⟨_, .overweight hp ha hmax⟩
  exact .inr ⟨hp, ha, Nat.one_le_iff_ne_zero.2 hzero, Nat.le_of_not_lt hmax⟩

/-- Vectors that can be unmasked give their mean, unless it is beyond the tolerance that they are off. -/
theorem aggregate_of_unmaskable (hu : r.Unmaskable masked layout) {p : Parameters R}
    (hp : r.IsMean masked layout p) :
    r.aggregate masked layout =
      if r.tolerance < r.deviation masked layout then
        .error (.maskMismatch r.random (r.unmaskedAt masked layout.length))
      else .ok p := by
  obtain ⟨sum, weight, htotal, hunmask⟩ := unmask_of_unmaskable hu
  obtain ⟨q, hq, hmean⟩ := r.exists_isMean masked layout
  obtain rfl : q = p := hmean.eq hp
  rw [aggregate_of_fromParties hu.parties, htotal]
  show ((sum.unmask r.config weight).mapError _ >>= _) = _
  rw [hunmask]
  show (if r.tolerance < r.deviation masked layout then _ else _) = _
  refine if_congr Iff.rfl rfl ?_
  show (layout.unflatten ((List.range layout.length).map (r.unmaskedAt masked))).mapError _ = _
  rw [hq]
  rfl

/-- A result is the mean of vectors that can be unmasked, whatever the random value is. -/
theorem of_aggregate_eq_ok {p : Parameters R} (h : r.aggregate masked layout = .ok p) :
    r.Unmaskable masked layout ∧ r.IsMean masked layout p := by
  rcases r.hindrance_or_unmaskable masked layout with ⟨e, he⟩ | hu
  · rw [aggregate_of_hindrance he] at h
    contradiction
  · obtain ⟨q, -, hq⟩ := r.exists_isMean masked layout
    rw [aggregate_of_unmaskable hu hq] at h
    split at h
    · contradiction
    · exact ⟨hu, Except.ok.inj h ▸ hq⟩

/-- What a round answers is the verdict on what it received, as long as what can be unmasked is either
within the tolerance or beyond. -/
theorem aggregate_eq_iff [LE R] {result : Except (SecaggError R) (Parameters R)}
    (h : r.Unmaskable masked layout →
      (¬r.tolerance < r.deviation masked layout ↔ r.deviation masked layout ≤ r.tolerance)) :
    r.aggregate masked layout = result ↔ r.Verdict masked layout result := by
  constructor
  · rintro rfl
    rcases r.hindrance_or_unmaskable masked layout with ⟨e, he⟩ | hu
    · rw [aggregate_of_hindrance he]
      exact .hindered e he
    · obtain ⟨p, -, hp⟩ := r.exists_isMean masked layout
      rw [aggregate_of_unmaskable hu hp]
      split
      next hoff => exact .mismatch hu fun hle => (h hu).2 hle hoff
      next hoff => exact .mean hu ((h hu).1 hoff) p hp
  · intro hverdict
    cases hverdict with
    | hindered e he => exact aggregate_of_hindrance he
    | mismatch hu hoff =>
      obtain ⟨p, -, hp⟩ := r.exists_isMean masked layout
      rw [aggregate_of_unmaskable hu hp, if_pos (not_not.1 fun hle => hoff ((h hu).1 hle))]
    | mean hu hle p hp => rw [aggregate_of_unmaskable hu hp, if_neg ((h hu).2 hle)]

end SecaggRound

end Federation
