import Mathlib.Algebra.GroupWithZero.Nat
import Federation.Parameters
import Federation.Proofs.Except
import Federation.Proofs.SortedMap
/-!
# Layouts

The layout of parameters says how long each of their layers is. Parameters of one layout are combined
value by value, so in the flat list every operation acts position by position.
-/

namespace Federation.Parameters

variable {R S : Type}

/-- The lengths of the layers. -/
def layout (p : Parameters R) : NameMap Nat := p.layers.map fun _ values => values.length

theorem find?_layout (p : Parameters R) (name : String) :
    p.layout.find? name = (p.layers.find? name).map List.length :=
  SortedMap.find?_map _ _ _

/-! ## 1. The check of two layouts -/

theorem mismatch?_eq_none {a b : Parameters R} : a.mismatch? b = none ↔ a.layout = b.layout := by
  rw [mismatch?, Option.or_eq_none_iff, List.findSome?_eq_none_iff, Option.map_eq_none_iff,
    List.find?_eq_none]
  constructor
  · rintro ⟨hlengths, hnames⟩
    apply SortedMap.ext_find?
    intro name
    rw [find?_layout, find?_layout]
    cases ha : a.layers.find? name with
    | some values =>
      have h := hlengths _ (SortedMap.find?_eq_some_iff.1 ha)
      dsimp only at h
      cases hb : b.layers.find? name with
      | none => simp [hb] at h
      | some others =>
        by_cases hl : others.length = values.length
        · simp [hl]
        · simp [hb, hl] at h
    | none =>
      cases hb : b.layers.find? name with
      | none => rfl
      | some others =>
        have h := hnames name (SortedMap.mem_keys.2 ⟨others, hb⟩)
        simp [SortedMap.contains, ha] at h
  · intro h
    have hfind : ∀ name, (a.layers.find? name).map List.length =
        (b.layers.find? name).map List.length := by
      intro name
      rw [← find?_layout, ← find?_layout, h]
    constructor
    · rintro ⟨name, values⟩ hmem
      have hname := hfind name
      rw [SortedMap.find?_eq_some_iff.2 hmem] at hname
      cases hb : b.layers.find? name with
      | none => simp [hb] at hname
      | some others =>
        have hl : others.length = values.length := by simpa [hb] using hname.symm
        simp [hb, hl]
    · intro name hmem
      obtain ⟨others, hb⟩ := SortedMap.mem_keys.1 hmem
      have hname := hfind name
      rw [hb] at hname
      cases ha : a.layers.find? name with
      | none => simp [ha] at hname
      | some values => simp [SortedMap.contains, ha]

theorem checkShape_eq_ok {a b : Parameters R} : a.checkShape b = .ok () ↔ a.layout = b.layout := by
  rw [← mismatch?_eq_none, checkShape]
  cases a.mismatch? b <;> simp

theorem checkShape_of_layout {a b : Parameters R} (h : a.layout = b.layout) :
    a.checkShape b = .ok () :=
  checkShape_eq_ok.2 h

/-! ## 2. Flat lists -/

theorem length_flatten (p : Parameters R) : p.flatten.length = p.length := by
  rw [flatten, List.length_flatten, length, List.sum]

theorem lengths_eq (p : Parameters R) :
    p.layers.values.map List.length = p.layout.entries.map Prod.snd := by
  simp [layout, SortedMap.map, SortedMap.values]

theorem length_of_layout {a : Parameters R} {b : Parameters S} (h : a.layout = b.layout) :
    a.length = b.length := by
  rw [length, length, lengths_eq, lengths_eq, h]

theorem layout_map (f : R → S) (p : Parameters R) : (p.map f).layout = p.layout := by
  simp [layout, map, SortedMap.map]

theorem layout_zerosLike [Scalar R] (p : Parameters R) : p.zerosLike.layout = p.layout := layout_map _ p

theorem flatten_map (f : R → S) (p : Parameters R) : (p.map f).flatten = p.flatten.map f := by
  simp [flatten, map, SortedMap.map, SortedMap.values, List.map_flatten, Function.comp_def]

/-- Named lists of the same names and lengths are equal if their concatenations are. -/
theorem eq_of_flatten_eq {l l' : List (String × List R)}
    (h : l.map (fun e => (e.1, e.2.length)) = l'.map fun e => (e.1, e.2.length))
    (hflat : (l.map Prod.snd).flatten = (l'.map Prod.snd).flatten) : l = l' := by
  induction l generalizing l' with
  | nil => exact (List.map_eq_nil_iff.1 h.symm).symm
  | cons e l ih =>
    cases l' with
    | nil => contradiction
    | cons e' l' =>
      obtain ⟨he, hl⟩ := List.cons.inj h
      obtain ⟨hname, hlength⟩ := Prod.mk.inj he
      obtain ⟨hvalues, hrest⟩ := List.append_inj hflat hlength
      rw [Prod.ext hname hvalues, ih hl hrest]

/-- The layout and the flat list determine parameters. -/
theorem ext_flatten {a b : Parameters R} (h : a.layout = b.layout) (hflat : a.flatten = b.flatten) :
    a = b := by
  have hlayers : a.layers = b.layers :=
    SortedMap.ext_entries (eq_of_flatten_eq (congrArg SortedMap.entries h) hflat)
  obtain ⟨layers⟩ := a
  obtain rfl : layers = b.layers := hlayers
  rfl

/-- Lists of lists with the same lengths are combined as their concatenations are. -/
theorem flatten_zipWith (f : R → R → R) {l l' : List (List R)}
    (h : l.map List.length = l'.map List.length) :
    (l.zipWith (List.zipWith f) l').flatten = l.flatten.zipWith f l'.flatten := by
  induction l generalizing l' with
  | nil => simp
  | cons v l ih =>
    cases l' with
    | nil => simp at h
    | cons v' l' =>
      obtain ⟨hv, hl⟩ := List.cons.inj h
      rw [List.zipWith_cons_cons, List.flatten_cons, List.flatten_cons, List.flatten_cons, ih hl,
        List.zipWith_append hv]

/-- Combining parameters of one layout succeeds, keeps the layout and combines the flat lists. -/
theorem zipWith_of_layout {a b : Parameters R} (h : a.layout = b.layout) (f : R → R → R) :
    ∃ c, a.zipWith b f = .ok c ∧ c.layout = a.layout ∧ c.flatten = a.flatten.zipWith f b.flatten := by
  have hkeys : a.layers.keys = b.layers.keys := by
    have hk := congrArg SortedMap.keys h
    rwa [layout, layout, SortedMap.keys_map, SortedMap.keys_map] at hk
  have hlengths : a.layers.values.map List.length = b.layers.values.map List.length := by
    rw [lengths_eq, lengths_eq, h]
  -- the values that are looked up are those of the other parameters in their order
  have hvalues : a.layers.entries.map (fun e => (b.layers.find? e.1).getD []) = b.layers.values := by
    calc a.layers.entries.map (fun e => (b.layers.find? e.1).getD [])
        = a.layers.keys.map (fun name => (b.layers.find? name).getD []) := by
          simp [SortedMap.keys]
      _ = b.layers.entries.map (fun e => (b.layers.find? e.1).getD []) := by
          rw [hkeys]
          simp [SortedMap.keys]
      _ = b.layers.values := by
          refine List.map_congr_left fun e he => ?_
          rw [SortedMap.find?_eq_some_iff.2 he, Option.getD_some]
  have hcombined : a.layers.entries.map (fun e => e.2.zipWith f ((b.layers.find? e.1).getD [])) =
      a.layers.values.zipWith (List.zipWith f) b.layers.values := by
    rw [← hvalues, SortedMap.values, List.zipWith_map, List.zipWith_self]
  refine ⟨_, by rw [zipWith, checkShape_of_layout h]; rfl, ?_, ?_⟩
  · apply SortedMap.ext_entries
    simp only [layout, SortedMap.map, List.map_map]
    refine List.map_congr_left fun e he => ?_
    have hlength : ((b.layers.find? e.1).getD []).length = e.2.length := by
      have hfind := find?_layout b e.1
      rw [← h, find?_layout, SortedMap.find?_eq_some_iff.2 he] at hfind
      cases hb : b.layers.find? e.1 with
      | none => simp [hb] at hfind
      | some others => simpa [hb] using hfind.symm
    simp [hlength]
  · rw [flatten, flatten, flatten, ← flatten_zipWith f hlengths, ← hcombined]
    simp [SortedMap.values, SortedMap.map, Function.comp_def]

/-- Parameters that have a layout can be combined, which gives parameters of that layout. -/
theorem zipWith_of_layouts {a b : Parameters R} {layout : NameMap Nat} (ha : a.layout = layout)
    (hb : b.layout = layout) (f : R → R → R) : ∃ c, a.zipWith b f = .ok c ∧ c.layout = layout := by
  obtain ⟨c, hc, hlayout, -⟩ := zipWith_of_layout (ha.trans hb.symm) f
  exact ⟨c, hc, hlayout.trans ha⟩

/-- Only parameters of one layout are combined. -/
theorem layout_of_zipWith {a b c : Parameters R} {f : R → R → R} (h : a.zipWith b f = .ok c) :
    a.layout = b.layout ∧ c.layout = a.layout := by
  have hlayout : a.layout = b.layout := by
    obtain ⟨_, hcheck, -⟩ := bind_eq_ok.1 h
    exact checkShape_eq_ok.1 hcheck
  obtain ⟨c', hc', hsame, -⟩ := zipWith_of_layout hlayout f
  obtain rfl := Except.ok.inj (h.symm.trans hc')
  exact ⟨hlayout, hsame⟩

/-! ## 3. Values at a position -/

section

variable [Zero R] [Zero S]

/-- The value at a position of the flat list, zero beyond its end. -/
def valueAt (p : Parameters R) (k : Nat) : R := p.flatten.getD k 0

theorem valueAt_map {f : R → S} (hf : f 0 = 0) (p : Parameters R) (k : Nat) :
    (p.map f).valueAt k = f (p.valueAt k) := by
  rw [valueAt, valueAt, flatten_map, List.getD_eq_getElem?_getD, List.getD_eq_getElem?_getD,
    List.getElem?_map]
  cases p.flatten[k]? with
  | none => exact hf.symm
  | some _ => rfl

theorem getD_zipWith {f : R → R → R} (hf : f 0 0 = 0) {l l' : List R} (h : l.length = l'.length)
    (k : Nat) : (l.zipWith f l').getD k 0 = f (l.getD k 0) (l'.getD k 0) := by
  rw [List.getD_eq_getElem?_getD, List.getD_eq_getElem?_getD, List.getD_eq_getElem?_getD,
    List.getElem?_zipWith]
  by_cases hk : k < l.length
  · rw [List.getElem?_eq_getElem hk, List.getElem?_eq_getElem (h ▸ hk)]
    rfl
  · have hle : l.length ≤ k := Nat.le_of_not_lt hk
    rw [List.getElem?_eq_none hle, List.getElem?_eq_none (h ▸ hle)]
    exact hf.symm

theorem valueAt_zipWith {a b c : Parameters R} {f : R → R → R} (hf : f 0 0 = 0)
    (h : a.zipWith b f = .ok c) (k : Nat) : c.valueAt k = f (a.valueAt k) (b.valueAt k) := by
  have hlayout := (layout_of_zipWith h).1
  obtain ⟨c', hc', -, hflat⟩ := zipWith_of_layout hlayout f
  obtain rfl := Except.ok.inj (h.symm.trans hc')
  have hlength : a.flatten.length = b.flatten.length := by
    rw [length_flatten, length_flatten, length_of_layout hlayout]
  rw [valueAt, hflat, getD_zipWith hf hlength]
  rfl

/-- The layout and the values at the positions determine parameters. -/
theorem ext_valueAt {a b : Parameters R} (h : a.layout = b.layout)
    (hk : ∀ k, a.valueAt k = b.valueAt k) : a = b := by
  refine ext_flatten h (List.ext_getElem ?_ fun k ha hb => ?_)
  · rw [length_flatten, length_flatten, length_of_layout h]
  · simpa [valueAt, List.getD_eq_getElem?_getD, ha, hb] using hk k

end

/-! ## 4. Rebuilding from a flat list -/

theorem lengths_refill {l : List (String × List R)} {flat : List R}
    (h : flat.length = (l.map fun e => e.2.length).sum) :
    (refill l flat).map (fun e => (e.1, e.2.length)) = l.map fun e => (e.1, e.2.length) := by
  induction l generalizing flat with
  | nil => rfl
  | cons e l ih =>
    rw [List.map_cons, List.sum_cons] at h
    have hrest : (flat.drop e.2.length).length = (l.map fun e => e.2.length).sum := by
      rw [List.length_drop]
      omega
    rw [refill, List.map_cons, List.map_cons, ih hrest, List.length_take, Nat.min_eq_left (by omega)]

theorem flatten_refill {l : List (String × List R)} {flat : List R}
    (h : flat.length = (l.map fun e => e.2.length).sum) :
    ((refill l flat).map Prod.snd).flatten = flat := by
  induction l generalizing flat with
  | nil => simpa [refill] using (List.eq_nil_of_length_eq_zero h).symm
  | cons e l ih =>
    rw [List.map_cons, List.sum_cons] at h
    have hrest : (flat.drop e.2.length).length = (l.map fun e => e.2.length).sum := by
      rw [List.length_drop]
      omega
    rw [refill, List.map_cons, List.flatten_cons, ih hrest, List.take_append_drop]

theorem length_eq_sum (p : Parameters R) : p.length = (p.layers.entries.map fun e => e.2.length).sum := by
  rw [length, SortedMap.values, List.map_map]
  rfl

/-- A flat list of the right length is cut up into parameters of the layout that have it as theirs. -/
theorem unflatten_of_length {p : Parameters R} {flat : List R} (h : flat.length = p.length) :
    ∃ q, p.unflatten flat = .ok q ∧ q.layout = p.layout ∧ q.flatten = flat := by
  have hsum := h.trans p.length_eq_sum
  refine ⟨_, by rw [unflatten, if_pos h], ?_, ?_⟩
  · exact SortedMap.ext_entries (lengths_refill hsum)
  · exact flatten_refill hsum

/-! ## 5. Values of a layer -/

/-- The value of a layer at a position. -/
def value? (p : Parameters R) (name : String) (i : Nat) : Option R :=
  (p.layers.find? name).bind fun values => values[i]?

/-- The layout says which values there are. -/
theorem exists_value?_iff {p : Parameters R} {name : String} {i : Nat} :
    (∃ x, p.value? name i = some x) ↔ ∃ n, p.layout.find? name = some n ∧ i < n := by
  rw [value?, find?_layout]
  cases p.layers.find? name with
  | none => simp
  | some values => simp [← Option.isSome_iff_exists]

/-- Where parameters of one layout have a value, they all have one. -/
theorem exists_value?_of_layout {a b : Parameters R} (h : a.layout = b.layout) {name : String} {i : Nat}
    {x : R} (hx : a.value? name i = some x) : ∃ y, b.value? name i = some y := by
  rw [exists_value?_iff, ← h, ← exists_value?_iff]
  exact ⟨x, hx⟩

end Federation.Parameters
