import Federation.Proofs.Parameters
import Federation.Proofs.Secagg.Verdict
/-!
# Flat lists

The values of parameters are masked, added up and unmasked as one flat list. Its length and the place that
each of its positions stands for follow from the layout alone, so whoever knows the layout reads it alike,
and rebuilding parameters from it undoes flattening them.
-/

namespace Federation

namespace Parameters

variable {R : Type}

/-! ## 1. Slices -/

/-- The part of a list between two offsets, unless it reaches beyond the end. -/
def slice? (flat : List R) (start stop : Nat) : Option (List R) :=
  if start ≤ stop ∧ stop ≤ flat.length then some (flat.extract start stop) else none

/-- Cuts layers out of a list, one after the other from an offset on. -/
def cutFrom (flat : List R) : Nat → List (String × List R) → Option (List (String × List R))
  | _, [] => some []
  | offset, e :: rest => do
    let values ← slice? flat offset (offset + e.2.length)
    let others ← cutFrom flat (offset + e.2.length) rest
    return (e.1, values) :: others

/-- Rebuilds parameters slice by slice. Nothing comes of it if a slice is out of range. -/
def rebuild (p : Parameters R) (flat : List R) : Option (Except ShapeError (Parameters R)) :=
  if flat.length = p.length then
    (cutFrom flat 0 p.layers.toList).map fun layers => .ok (.ofLayers layers)
  else some (.error (.flatLength p.length flat.length))

/-- The offset is the number of values that were cut out before, so every slice is in range as long as all
layers together fit. -/
theorem cutFrom_eq_refill {flat : List R} {offset : Nat} {l : List (String × List R)}
    (h : offset + (l.map fun e => e.2.length).sum ≤ flat.length) :
    cutFrom flat offset l = some (refill l (flat.drop offset)) := by
  induction l generalizing offset with
  | nil => rfl
  | cons e l ih =>
    rw [List.map_cons, List.sum_cons] at h
    have hslice : slice? flat offset (offset + e.2.length) =
        some ((flat.drop offset).take e.2.length) := by
      rw [slice?, if_pos (by omega), List.extract_eq_take_drop, Nat.add_sub_cancel_left]
    have hrest : cutFrom flat (offset + e.2.length) l = some (refill l (flat.drop (offset + e.2.length))) :=
      ih (by omega)
    rw [cutFrom, hslice, hrest, refill, List.drop_drop]
    rfl

/-- Rebuilding parameters slice by slice never fails for a slice that is out of range. -/
theorem rebuild_eq (p : Parameters R) (flat : List R) : p.rebuild flat = some (p.unflatten flat) := by
  unfold rebuild unflatten
  by_cases h : flat.length = p.length
  · have hcut : cutFrom flat 0 p.layers.toList = some (refill p.layers.entries flat) :=
      cutFrom_eq_refill (by rw [h, length_eq_sum]; exact (Nat.zero_add _).le)
    have hascending := SortedMap.Ascending.of_keys (keys_refill p.layers.entries flat) p.layers.ascending
    have hlayers : SortedMap.ofList (refill p.layers.entries flat) = ⟨_, hascending⟩ :=
      SortedMap.ext_entries (SortedMap.toList_ofList_of_ascending hascending)
    rw [if_pos h, if_pos h, hcut, Option.map_some, ofLayers, hlayers]
  · rw [if_neg h, if_neg h]

/-! ## 2. Rebuilding and flattening -/

theorem length_of_unflatten {p q : Parameters R} {flat : List R} (h : p.unflatten flat = .ok q) :
    flat.length = p.length := by
  rw [unflatten] at h
  split at h
  next hlength => exact hlength
  · contradiction

/-- What is rebuilt has the layout and the values. -/
theorem unflatten_eq_ok {p q : Parameters R} {flat : List R} :
    p.unflatten flat = .ok q ↔ q.layout = p.layout ∧ q.flatten = flat := by
  constructor
  · intro h
    obtain ⟨q', hq', hlayout, hflat⟩ := unflatten_of_length (length_of_unflatten h)
    obtain rfl := Except.ok.inj (hq'.symm.trans h)
    exact ⟨hlayout, hflat⟩
  · rintro ⟨hlayout, rfl⟩
    have hlength : q.flatten.length = p.length := by rw [length_flatten, length_of_layout hlayout]
    obtain ⟨q', hq', hlayout', hflat⟩ := unflatten_of_length hlength
    rw [hq', ext_flatten (hlayout'.trans hlayout.symm) hflat]

/-! ## 3. Places -/

/-- The places of a layout, each a layer and a position in it, in the order of a flat list. -/
def places (layout : NameMap Nat) : List (String × Nat) :=
  layout.toList.flatMap fun e => (List.range e.2).map fun i => (e.1, i)

theorem mem_places {layout : NameMap Nat} {place : String × Nat} :
    place ∈ places layout ↔ ∃ n, layout.find? place.1 = some n ∧ place.2 < n := by
  obtain ⟨name, i⟩ := place
  simp only [places, List.mem_flatMap, List.mem_map, List.mem_range, Prod.mk.injEq]
  constructor
  · rintro ⟨⟨_, n⟩, hlayer, _, hi, rfl, rfl⟩
    exact ⟨n, SortedMap.find?_eq_some_iff.2 hlayer, hi⟩
  · rintro ⟨n, hlayer, hi⟩
    exact ⟨(name, n), SortedMap.find?_eq_some_iff.1 hlayer, i, hi, rfl, rfl⟩

/-- No place comes twice. -/
theorem nodup_places (layout : NameMap Nat) : (places layout).Nodup := by
  rw [places, List.nodup_flatMap]
  constructor
  · intro e _
    exact List.nodup_range.map fun i j h => (Prod.mk.inj h).2
  · -- places of two layers differ in the name
    refine layout.ascending.imp fun {e e'} hlt place h h' => ?_
    obtain ⟨i, -, rfl⟩ := List.mem_map.1 h
    obtain ⟨j, -, heq⟩ := List.mem_map.1 h'
    rw [(Prod.mk.inj heq).1, Std.compare_self] at hlt
    contradiction

/-- The places of a layout are those at which there is a value. -/
theorem mem_places_iff_exists {p : Parameters R} {place : String × Nat} :
    place ∈ places p.layout ↔ ∃ x, p.value? place.1 place.2 = some x := by
  rw [mem_places, exists_value?_iff]

/-- A flat list has the value of each place in turn. -/
theorem flatten_eq_values (p : Parameters R) :
    p.flatten.map some = (places p.layout).map fun place => p.value? place.1 place.2 := by
  have hlayer : ∀ e ∈ p.layers.toList,
      e.2.map some = (List.range e.2.length).map fun i => p.value? e.1 i := by
    intro e he
    have hvalue : ∀ i, p.value? e.1 i = e.2[i]? := by
      intro i
      rw [value?, SortedMap.find?_eq_some_iff.2 he]
      rfl
    refine List.ext_getElem (by simp) fun i hi hi' => ?_
    rw [List.length_map] at hi
    simp [hvalue, hi]
  calc p.flatten.map some
      = p.layers.toList.flatMap fun e => e.2.map some := by
        rw [flatten, SortedMap.values, ← List.flatMap_def, List.map_flatMap]
        rfl
    _ = p.layers.toList.flatMap fun e => (List.range e.2.length).map fun i => p.value? e.1 i :=
        List.flatMap_congr hlayer
    _ = (places p.layout).map fun place => p.value? place.1 place.2 := by
        rw [places, List.map_flatMap]
        show _ = (p.layers.entries.map _).flatMap _
        rw [List.flatMap_map]
        simp only [List.map_map]
        rfl

theorem length_places (p : Parameters R) : (places p.layout).length = p.length := by
  have h := congrArg List.length (flatten_eq_values p)
  rwa [List.length_map, List.length_map, length_flatten, eq_comm] at h

/-- A position of a flat list stands for the place that comes there in the layout. -/
theorem value?_of_place {p : Parameters R} {k : Nat} {place : String × Nat}
    (h : (places p.layout)[k]? = some place) : p.value? place.1 place.2 = p.flatten[k]? := by
  have hk := congrArg (·[k]?) (flatten_eq_values p)
  simp only [List.getElem?_map, h, Option.map_some] at hk
  obtain ⟨x, hx, hvalue⟩ := Option.map_eq_some_iff.1 hk
  rw [hx, hvalue]

end Parameters

/-! ## 4. Masked vectors -/

variable {R : Type}

theorem Masker.config_of_create {κ : Type} {config : MaskConfig R} {me : NodeId} {parties : List NodeId}
    {keys : NameMap κ} {m : Masker R κ} (h : create config me parties keys = .ok m) : m.config = config := by
  rw [create] at h
  split at h
  · contradiction
  · obtain ⟨shared, -, rfl⟩ := map_eq_ok.1 h
    rfl

/-- What a party adds to the encoding of a value depends on the position of the value, not on the value. -/
theorem SecaggArguments.exists_pad [Scalar R] (a : SecaggArguments R) (me : NodeId) (pair : KeyPair)
    (n : Nat) :
    ∃ pad : Nat → UInt64, ∀ (weight : UInt64) (values : List R) (v : MaskedVector), values.length = n →
      a.mask me pair weight values = .ok v →
      ∀ k x, values[k]? = some x → v.data.getD k 0 = a.maskConfig.encode weight x + pad k := by
  cases hm : a.masker me pair with
  | error e =>
    refine ⟨fun _ => 0, fun weight values v _ hv => ?_⟩
    rw [mask, hm] at hv
    contradiction
  | ok m =>
    let stream (key : Crypto.Key) (n : Nat) : List UInt64 := Crypto.ChaCha20.words key a.nonce n
    refine ⟨fun k => (m.add.map fun key => (stream key (n + 1)).getD k 0).sum +
      (m.sub.map fun key => -(stream key (n + 1)).getD k 0).sum, fun weight values v hn hv k x hx => ?_⟩
    rw [mask, hm] at hv
    obtain rfl := Except.ok.inj hv
    have hconfig : m.config = a.maskConfig := by
      obtain ⟨keys, -, hcreate⟩ := bind_eq_ok.1 hm
      exact Masker.config_of_create hcreate
    have hencoded : (Masker.encode m.config weight values a.random).length = n + 1 := by
      simp [Masker.encode, hn]
    have hword : (Masker.encode m.config weight values a.random).getD k 0 = a.maskConfig.encode weight x := by
      have hk : k < values.length := (List.getElem?_eq_some_iff.1 hx).1
      rw [Masker.encode, hconfig, List.getD_eq_getElem?_getD,
        List.getElem?_append_left (by simpa using hk), List.getElem?_map, hx]
      rfl
    have hblind := (Masker.blind_eq (s := stream) (fun key n => Crypto.ChaCha20.length_words key a.nonce n) m
      (Masker.encode m.config weight values a.random)).2 k
    rw [hword, hencoded] at hblind
    rw [← add_assoc]
    exact hblind

/-- The controller reads the values at the positions of the unmasked vectors. -/
theorem SecaggRound.value?_of_aggregate [Scalar R] {r : SecaggRound R}
    {masked : NameMap (MaskedVector × UInt64)} {p mean : Parameters R}
    (h : r.aggregate masked p = .ok mean) :
    mean.layout = p.layout ∧ ∀ k place, (Parameters.places p.layout)[k]? = some place →
      mean.value? place.1 place.2 = some (r.unmaskedAt masked k) := by
  obtain ⟨-, hmean⟩ := of_aggregate_eq_ok h
  refine ⟨hmean.layout_eq, fun k place hplace => ?_⟩
  have hk : k < p.length := p.length_places ▸ (List.getElem?_eq_some_iff.1 hplace).1
  rw [Parameters.value?_of_place (by rw [hmean.layout_eq]; exact hplace), hmean.flatten_eq,
    List.getElem?_map, List.getElem?_range hk]
  rfl

/-- Parameters are rebuilt from a flat list if and only if it has as many values as they, with every slice in
range, and rebuilding and flattening undo each other within a layout. The layout alone says which value of
which layer stands at each position of a flat list, so parties that mask parameters of a layout and the
controller that unmasks their vectors mean the same value by a position. -/
theorem rebuilding_undoes_flattening {R : Type} [Scalar R] (p : Parameters R) :
    (∀ flat, (∃ q, p.unflatten flat = .ok q) ↔ flat.length = p.length) ∧
    (∀ flat q, p.unflatten flat = .ok q → q.layout = p.layout ∧ q.flatten = flat) ∧
    (∀ q : Parameters R, q.layout = p.layout → p.unflatten q.flatten = .ok q) ∧
    (∀ flat, p.rebuild flat = some (p.unflatten flat)) ∧
    (Parameters.places p.layout).Nodup ∧
    (∀ place, place ∈ Parameters.places p.layout ↔ ∃ x, p.value? place.1 place.2 = some x) ∧
    (∀ q : Parameters R, q.layout = p.layout →
      q.flatten.map some = (Parameters.places p.layout).map fun place => q.value? place.1 place.2) ∧
    (∀ (a : SecaggArguments R) (me : NodeId) (pair : KeyPair), ∃ pad : Nat → UInt64,
      ∀ (q : Parameters R) weight v, q.layout = p.layout → a.mask me pair weight q.flatten = .ok v →
        ∀ k place, (Parameters.places p.layout)[k]? = some place →
          ∃ x, q.value? place.1 place.2 = some x ∧
            v.data.getD k 0 = a.maskConfig.encode weight x + pad k) ∧
    ∀ (r : SecaggRound R) masked mean, r.aggregate masked p = .ok mean →
      mean.layout = p.layout ∧ ∀ k place, (Parameters.places p.layout)[k]? = some place →
        mean.value? place.1 place.2 = some (r.unmaskedAt masked k) := by
  refine ⟨fun flat => ⟨?_, ?_⟩, fun flat q h => Parameters.unflatten_eq_ok.1 h,
    fun q h => Parameters.unflatten_eq_ok.2 ⟨h, rfl⟩, p.rebuild_eq, Parameters.nodup_places _,
    fun place => Parameters.mem_places_iff_exists, fun q h => h ▸ q.flatten_eq_values, fun a me pair => ?_,
    fun r masked mean h => r.value?_of_aggregate h⟩
  · rintro ⟨q, h⟩
    exact Parameters.length_of_unflatten h
  · intro h
    obtain ⟨q, hq, -⟩ := Parameters.unflatten_of_length h
    exact ⟨q, hq⟩
  · obtain ⟨pad, hpad⟩ := a.exists_pad me pair p.length
    refine ⟨pad, fun q weight v hlayout hv k place hplace => ?_⟩
    have hlength : q.flatten.length = p.length := by
      rw [Parameters.length_flatten, Parameters.length_of_layout hlayout]
    have hk : k < q.flatten.length :=
      hlength ▸ p.length_places ▸ (List.getElem?_eq_some_iff.1 hplace).1
    have hx := List.getElem?_eq_getElem hk
    refine ⟨q.flatten[k], ?_, hpad weight q.flatten v hlength hv k _ hx⟩
    rw [Parameters.value?_of_place (by rw [hlayout]; exact hplace), hx]

/-- A layout of three layers, of which one is empty. -/
def gapped : Parameters ℚ := .ofLayers [("weight", [0, 0]), ("bias", [0]), ("mask", [])]

theorem rebuilding_undoes_flattening_gap :
    gapped.unflatten [4, 5, 6] = .ok (.ofLayers [("bias", [4]), ("mask", []), ("weight", [5, 6])]) ∧
      gapped.rebuild [4, 5] = some (.error (.flatLength 3 2)) ∧
      Parameters.places gapped.layout = [("bias", 0), ("weight", 0), ("weight", 1)] ∧
      ∀ q : Parameters ℚ, q.layout = gapped.layout → q.flatten = [4, 5, 6] → q.value? "weight" 1 = some 6 := by
  obtain ⟨-, -, hrebuilt, hslices, -, -, hplaces, -, -⟩ := rebuilding_undoes_flattening gapped
  have hlisted : Parameters.places gapped.layout = [("bias", 0), ("weight", 0), ("weight", 1)] := by
    decide +kernel
  refine ⟨hrebuilt (.ofLayers [("bias", [4]), ("mask", []), ("weight", [5, 6])]) (by decide +kernel), ?_,
    hlisted, fun q hlayout hflat => ?_⟩
  · rw [hslices]
    rfl
  · have hvalues := hplaces q hlayout
    rw [hflat, hlisted] at hvalues
    have hlast := congrArg (·[2]?) hvalues
    exact (Option.some.inj hlast).symm

end Federation
