import Federation.Proofs.Parameters
import Federation.Proofs.Rational
/-!
# Combining parameters

Parameters are combined only after their layouts were compared. So although lists of different lengths
would be combined as far as the shorter one goes, and a layer that is missing like an empty one, this never
comes up: every value meets the one at its own place, or else nothing is combined at all.
-/

namespace Federation

namespace Parameters

variable {R : Type}

/-! ## 1. What the check reports -/

/-- The second parameters lack a layer of the first ones, or have it with another length. -/
inductive Differs (a b : Parameters R) (name : String) : ShapeError → Prop where
  | missing (values : List R) (ha : a.layers.find? name = some values)
    (hb : b.layers.find? name = none) : Differs a b name (.missingLayer name)
  | length (values others : List R) (ha : a.layers.find? name = some values)
    (hb : b.layers.find? name = some others) (h : others.length ≠ values.length) :
    Differs a b name (.layerLength name values.length others.length)

/-- The smallest layer of the first parameters that differs, or else the smallest one that only the
second ones have. -/
inductive Mismatch (a b : Parameters R) : ShapeError → Prop where
  | differs (name : String) (e : ShapeError) (h : Differs a b name e)
    (hleast : ∀ other e', Differs a b other e' → compare other name ≠ .lt) : Mismatch a b e
  | unexpected (name : String) (hsame : ∀ other e, ¬Differs a b other e)
    (ha : a.layers.find? name = none) (hb : name ∈ b.layers.keys)
    (hleast : ∀ other ∈ b.layers.keys, a.layers.find? other = none → compare other name ≠ .lt) :
    Mismatch a b (.unexpectedLayer name)

/-- How a layer of the first parameters differs in the second ones. -/
def difference? (b : Parameters R) (layer : String × List R) : Option ShapeError :=
  match b.layers.find? layer.1 with
  | none => some (.missingLayer layer.1)
  | some others =>
    if others.length = layer.2.length then none
    else some (.layerLength layer.1 layer.2.length others.length)

theorem difference?_eq_some {a b : Parameters R} {layer : String × List R} (h : layer ∈ a.layers.toList)
    {e : ShapeError} : difference? b layer = some e ↔ Differs a b layer.1 e := by
  have ha : a.layers.find? layer.1 = some layer.2 := SortedMap.find?_eq_some_iff.2 h
  rw [difference?]
  constructor
  · intro he
    cases hb : b.layers.find? layer.1 with
    | none =>
      rw [hb] at he
      obtain rfl := Option.some.inj he
      exact .missing layer.2 ha hb
    | some others =>
      rw [hb] at he
      dsimp only at he
      split at he
      · contradiction
      next hlength =>
        obtain rfl := Option.some.inj he
        exact .length layer.2 others ha hb hlength
  · intro he
    cases he with
    | missing values _ hb => rw [hb]
    | length values others hvalues hb hlength =>
      obtain rfl : layer.2 = values := Option.some.inj (ha.symm.trans hvalues)
      rw [hb]
      exact if_neg hlength

/-- Only a layer of the first parameters differs. -/
theorem Differs.exists_layer {a b : Parameters R} {name : String} {e : ShapeError}
    (h : Differs a b name e) : ∃ values, (name, values) ∈ a.layers.toList := by
  cases h with
  | missing values ha hb => exact ⟨values, SortedMap.find?_eq_some_iff.1 ha⟩
  | length values others ha hb _ => exact ⟨values, SortedMap.find?_eq_some_iff.1 ha⟩

/-- The first difference that is found is that of the smallest layer. -/
theorem findSome?_difference?_eq_some {a b : Parameters R} {e : ShapeError} :
    a.layers.toList.findSome? (difference? b) = some e ↔
      ∃ name, Differs a b name e ∧ ∀ other e', Differs a b other e' → compare other name ≠ .lt := by
  rw [SortedMap.findSome?_eq_some_iff_least (l := a.layers.toList) Prod.fst a.layers.ascending]
  constructor
  · rintro ⟨layer, hlayer, he, hleast⟩
    refine ⟨layer.1, (difference?_eq_some hlayer).1 he, fun other e' h' hlt => ?_⟩
    obtain ⟨values, hother⟩ := h'.exists_layer
    have hnone := hleast (other, values) hother hlt
    rw [(difference?_eq_some hother).2 h'] at hnone
    contradiction
  · rintro ⟨name, h, hleast⟩
    obtain ⟨values, hlayer⟩ := h.exists_layer
    refine ⟨(name, values), hlayer, (difference?_eq_some hlayer).2 h, fun other hother hlt => ?_⟩
    cases he' : difference? b other with
    | none => rfl
    | some e' => exact absurd hlt (hleast other.1 e' ((difference?_eq_some hother).1 he'))

theorem findSome?_difference?_eq_none {a b : Parameters R} :
    a.layers.toList.findSome? (difference? b) = none ↔ ∀ name e, ¬Differs a b name e := by
  rw [List.findSome?_eq_none_iff]
  constructor
  · intro h name e hd
    obtain ⟨values, hlayer⟩ := hd.exists_layer
    have hnone := h _ hlayer
    rw [(difference?_eq_some hlayer).2 hd] at hnone
    contradiction
  · intro h layer hlayer
    cases he : difference? b layer with
    | none => rfl
    | some e => exact absurd ((difference?_eq_some hlayer).1 he) (h _ e)

/-- The first layer found that only the second parameters have is the smallest one. -/
theorem find?_unexpected_eq_some {a b : Parameters R} {name : String} :
    (b.layers.keys.find? fun name => !a.layers.contains name) = some name ↔
      name ∈ b.layers.keys ∧ a.layers.find? name = none ∧
        ∀ other ∈ b.layers.keys, a.layers.find? other = none → compare other name ≠ .lt := by
  have hlacks : ∀ name, (!a.layers.contains name) = true ↔ a.layers.find? name = none := by
    intro name
    rw [SortedMap.contains]
    cases a.layers.find? name <;> simp
  rw [SortedMap.find?_eq_some_iff_least id b.layers.ascending_keys, hlacks]
  constructor
  · rintro ⟨hb, ha, hleast⟩
    refine ⟨hb, ha, fun other hother hnone hlt => ?_⟩
    have hknown := hleast other hother hlt
    rw [(hlacks other).2 hnone] at hknown
    contradiction
  · rintro ⟨hb, ha, hleast⟩
    refine ⟨hb, ha, fun other hother hlt => ?_⟩
    rw [Bool.eq_false_iff, ne_eq, hlacks]
    exact fun hnone => hleast other hother hnone hlt

theorem checkShape_eq_error {a b : Parameters R} {e : ShapeError} :
    a.checkShape b = .error e ↔ Mismatch a b e := by
  have hcheck : a.checkShape b = .error e ↔ a.mismatch? b = some e := by
    rw [checkShape]
    cases a.mismatch? b <;> simp
  have hsplit : a.mismatch? b = (a.layers.toList.findSome? (difference? b)).or
      ((b.layers.keys.find? fun name => !a.layers.contains name).map .unexpectedLayer) := rfl
  rw [hcheck, hsplit, Option.or_eq_some_iff, findSome?_difference?_eq_some,
    findSome?_difference?_eq_none, Option.map_eq_some_iff]
  constructor
  · rintro (⟨name, h, hleast⟩ | ⟨hsame, name, hfound, rfl⟩)
    · exact .differs name e h hleast
    · obtain ⟨hb, ha, hleast⟩ := find?_unexpected_eq_some.1 hfound
      exact .unexpected name hsame ha hb hleast
  · intro h
    cases h with
    | differs name _ h hleast => exact Or.inl ⟨name, h, hleast⟩
    | unexpected name hsame ha hb hleast =>
      exact Or.inr ⟨hsame, name, find?_unexpected_eq_some.2 ⟨hb, ha, hleast⟩, rfl⟩

theorem equivalence_checkShape : Equivalence fun a b : Parameters R => a.checkShape b = .ok () where
  refl _ := checkShape_of_layout rfl
  symm h := checkShape_of_layout (checkShape_eq_ok.1 h).symm
  trans h h' := checkShape_of_layout ((checkShape_eq_ok.1 h).trans (checkShape_eq_ok.1 h'))

/-! ## 2. Values combined place by place -/

/-- What comes of combining parameters value by value. Either the check fails, or every value of either is
combined with the one at its place. -/
inductive Combines (a b : Parameters R) (f : R → R → R) : Except ShapeError (Parameters R) → Prop where
  | refused (e : ShapeError) (h : a.checkShape b = .error e) : Combines a b f (.error e)
  | combined (c : Parameters R) (h : a.checkShape b = .ok ()) (hlayout : c.layout = a.layout)
    (hvalues : ∀ name i x, a.value? name i = some x →
      ∃ y, b.value? name i = some y ∧ c.value? name i = some (f x y)) : Combines a b f (.ok c)

theorem zipWith_of_checkShape {a b : Parameters R} (h : a.checkShape b = .ok ()) (f : R → R → R) :
    a.zipWith b f =
      .ok ⟨a.layers.map fun name values => values.zipWith f ((b.layers.find? name).getD [])⟩ := by
  rw [zipWith, h]
  rfl

theorem value?_zipWith {a b c : Parameters R} {f : R → R → R} (h : a.zipWith b f = .ok c) {name : String}
    {i : Nat} {x y : R} (hx : a.value? name i = some x) (hy : b.value? name i = some y) :
    c.value? name i = some (f x y) := by
  obtain ⟨values, hvalues, hx⟩ := Option.bind_eq_some_iff.1 hx
  obtain ⟨others, hothers, hy⟩ := Option.bind_eq_some_iff.1 hy
  rw [zipWith_of_checkShape (checkShape_of_layout (layout_of_zipWith h).1)] at h
  obtain rfl := Except.ok.inj h
  rw [value?, SortedMap.find?_map, hvalues, hothers]
  simp [List.getElem?_zipWith, hx, hy]

theorem combines_zipWith (a b : Parameters R) (f : R → R → R) : Combines a b f (a.zipWith b f) := by
  cases hcheck : a.checkShape b with
  | error e =>
    have hrefused : a.zipWith b f = .error e := bind_eq_error.2 (Or.inl hcheck)
    rw [hrefused]
    exact .refused e hcheck
  | ok u =>
    obtain ⟨c, hc, hlayout, -⟩ := zipWith_of_layout (checkShape_eq_ok.1 hcheck) f
    rw [hc]
    refine .combined c hcheck hlayout fun name i x hx => ?_
    obtain ⟨y, hy⟩ := exists_value?_of_layout (checkShape_eq_ok.1 hcheck) hx
    exact ⟨y, hy, value?_zipWith hc hx hy⟩

/-! ## 3. Adding in place -/

section

variable [Scalar R] (weight : R) (b : Parameters R)

/-- Adds a multiple of other values to the values of a layer. Where there is no other value, a value stays
as it is. -/
def addValues : List R → List R → List R
  | x :: values, y :: others => (x + weight * y) :: addValues values others
  | values, _ => values

/-- The values of a layer after a multiple of other parameters was added. -/
def layerAfter (name : String) (values : List R) : List R :=
  match b.layers.find? name with
  | none => values
  | some others => addValues weight values others

/-- Adds a multiple of one layer, and leaves all other layers. -/
def addLayer (name : String) (a : Parameters R) : Parameters R :=
  ⟨a.layers.map fun n values => if n = name then layerAfter weight b name values else values⟩

/-- The answer to an update that gives new parameters or none, and the parameters from then on. -/
def settled (a : Parameters R) : Except ShapeError (Parameters R) → Except ShapeError Unit × Parameters R
  | .error e => (.error e, a)
  | .ok c => (.ok (), c)

/-- Adds a multiple of other parameters in place. After the check one layer is given after the other. -/
def addInPlace : ExceptT ShapeError (StateM (Parameters R)) Unit := do
  let a ← get
  MonadExcept.ofExcept (a.checkShape b)
  a.layers.keys.forM fun name => modify (addLayer weight b name)

variable {weight b}

theorem addValues_of_length {values others : List R} (h : values.length = others.length) :
    addValues weight values others = values.zipWith (fun x y => x + weight * y) others := by
  induction values generalizing others with
  | nil => rfl
  | cons x values ih =>
    cases others with
    | nil => contradiction
    | cons y others => rw [addValues, List.zipWith_cons_cons, ih (Nat.succ.inj h)]

theorem run_forM_addLayer (names : List String) (a : Parameters R) :
    (names.forM fun name => modify (addLayer weight b name) :
        ExceptT ShapeError (StateM (Parameters R)) Unit).run.run a =
      (.ok (), names.foldl (fun a name => addLayer weight b name a) a) := by
  induction names generalizing a with
  | nil => rfl
  | cons name names ih => exact ih (addLayer weight b name a)

/-- Each layer that is visited is given once, from what it was. -/
theorem find?_foldl_addLayer {names : List String} (hnodup : names.Nodup) (a : Parameters R)
    (name : String) :
    (names.foldl (fun a name => addLayer weight b name a) a).layers.find? name =
      (a.layers.find? name).map fun values =>
        if name ∈ names then layerAfter weight b name values else values := by
  induction names generalizing a with
  | nil => simp
  | cons first names ih =>
    obtain ⟨hfirst, hnodup⟩ := List.nodup_cons.1 hnodup
    rw [List.foldl_cons, ih hnodup, addLayer, SortedMap.find?_map, Option.map_map]
    congr 1
    funext values
    dsimp only [Function.comp]
    by_cases hname : name = first
    · subst hname
      rw [if_neg hfirst, if_pos rfl, if_pos List.mem_cons_self]
    · simp [hname]

/-- After the check, every layer is visited. -/
theorem run_addInPlace_eq (a : Parameters R) :
    (addInPlace weight b).run.run a =
      match a.checkShape b with
      | .error e => (.error e, a)
      | .ok () => (.ok (), a.layers.keys.foldl (fun a name => addLayer weight b name a) a) := by
  show (do MonadExcept.ofExcept (a.checkShape b)
           a.layers.keys.forM fun name => modify (addLayer weight b name) :
    ExceptT ShapeError (StateM (Parameters R)) Unit).run.run a = _
  cases a.checkShape b with
  | error e => rfl
  | ok u => exact run_forM_addLayer _ a

/-- Adding in place gives what adding to a copy gives, and an error leaves everything as it was. -/
theorem run_addInPlace (a : Parameters R) :
    (addInPlace weight b).run.run a = a.settled (a.addScaled weight b) := by
  rw [run_addInPlace_eq, addScaled]
  cases hcheck : a.checkShape b with
  | error e => rw [zipWith, hcheck]; rfl
  | ok u =>
    have hlayout := checkShape_eq_ok.1 hcheck
    rw [zipWith_of_checkShape hcheck]
    refine congrArg (Prod.mk (Except.ok ())) (congrArg Parameters.mk (SortedMap.ext_find? fun name => ?_))
    rw [find?_foldl_addLayer a.layers.nodup_keys, SortedMap.find?_map]
    cases hvalues : a.layers.find? name with
    | none => rfl
    | some values =>
      have hlength : (b.layers.find? name).map List.length = some values.length := by
        rw [← find?_layout, ← hlayout, find?_layout, hvalues]
        rfl
      obtain ⟨others, hothers, hlength⟩ := Option.map_eq_some_iff.1 hlength
      rw [Option.map_some, Option.map_some, if_pos (SortedMap.mem_keys.2 ⟨values, hvalues⟩), layerAfter,
        hothers]
      exact congrArg some (addValues_of_length hlength.symm)

end

end Parameters

/-- The check of two layouts succeeds if and only if they are the same, and else reports the smallest layer of
the first that differs, or the smallest one that only the second has. Parameters are combined if and only if
it succeeds, and then every value with the one at the same position of the same layer; adding in place
leaves its target as it was if the check fails. -/
theorem layouts_guard_every_combination {R : Type} [Scalar R] :
    (∀ a b : Parameters R, a.checkShape b = .ok () ↔
      ∀ name, (a.layers.find? name).map List.length = (b.layers.find? name).map List.length) ∧
    (Equivalence fun a b : Parameters R => a.checkShape b = .ok ()) ∧
    (∀ (a b : Parameters R) e, a.checkShape b = .error e ↔ a.Mismatch b e) ∧
    (∀ (a b : Parameters R) (f : R → R → R), a.Combines b f (a.zipWith b f)) ∧
    ∀ (a b : Parameters R) (weight : R),
      a.Combines b (fun x y => x + weight * y) (a.addScaled weight b) ∧
      (Parameters.addInPlace weight b).run.run a = a.settled (a.addScaled weight b) := by
  refine ⟨fun a b => ?_, Parameters.equivalence_checkShape, fun a b e => Parameters.checkShape_eq_error,
    Parameters.combines_zipWith,
    fun a b weight => ⟨Parameters.combines_zipWith a b _, Parameters.run_addInPlace a⟩⟩
  rw [Parameters.checkShape_eq_ok]
  constructor
  · intro h name
    rw [← Parameters.find?_layout, ← Parameters.find?_layout, h]
  · intro h
    refine SortedMap.ext_find? fun name => ?_
    rw [Parameters.find?_layout, Parameters.find?_layout, h name]

/-- A layer of weights and one of a single bias. -/
def biased (weights : List ℚ) (bias : ℚ) : Parameters ℚ := .ofLayers [("weight", weights), ("bias", [bias])]

theorem layouts_guard_every_combination_short :
    (biased [1, 2, 3] 4).Mismatch (biased [1, 2] 4) (.layerLength "weight" 3 2) ∧
      ((Parameters.addInPlace 2 (biased [1, 2] 4)).run.run (biased [1, 2, 3] 4)).2 = biased [1, 2, 3] 4 ∧
      (biased [1, 2, 3] 4).Combines (biased [1, 0, 1] 0) (fun x y => x + 2 * y) (.ok (biased [3, 2, 5] 4)) ∧
      ((Parameters.addInPlace 2 (biased [1, 0, 1] 0)).run.run (biased [1, 2, 3] 4)).2 = biased [3, 2, 5] 4 := by
  obtain ⟨-, -, herror, -, hadd⟩ := layouts_guard_every_combination (R := ℚ)
  have hshort : (biased [1, 2, 3] 4).checkShape (biased [1, 2] 4) = .error (.layerLength "weight" 3 2) :=
    rfl
  have hrefused : (biased [1, 2, 3] 4).addScaled 2 (biased [1, 2] 4) =
      .error (.layerLength "weight" 3 2) := rfl
  have hsum : (biased [1, 2, 3] 4).addScaled 2 (biased [1, 0, 1] 0) = .ok (biased [3, 2, 5] 4) := by
    rw [Parameters.addScaled, Parameters.zipWith_of_checkShape rfl]
    refine congrArg (fun layers => Except.ok (Parameters.mk layers)) ?_
    decide +kernel
  refine ⟨(herror _ _ _).1 hshort, ?_, hsum ▸ (hadd _ _ _).1, ?_⟩
  · rw [(hadd _ _ _).2, hrefused]
    rfl
  · rw [(hadd _ _ _).2, hsum]
    rfl

end Federation
