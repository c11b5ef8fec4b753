import Federation.Json.Schema
import Federation.Message.Codec
import Federation.Proofs.Except
import Federation.Proofs.Json.Basic
/-!
# Reading values out of the documents that were made of them

Each kind of value is read out of its document as it was, a float as long as it is finite. A record
is read field by field, so a record of values that are read back is read back itself.
-/

namespace Federation.Json

variable {α : Type}

/-! ## 1. Single values -/

@[simp] theorem asWord?_word (n : UInt64) : asWord? (word n) = some n := rfl

@[simp] theorem asString?_str (s : String) : asString? (.str s) = some s := rfl

@[simp] theorem asBool?_bool (b : Bool) : asBool? (.bool b) = some b := rfl

theorem asFloat?_float {x : Float} (h : x.isFinite = true) : asFloat? (float x) = some x := by
  rw [float, if_pos h]
  rfl

/-- A float which is not finite is lost. -/
theorem asFloat?_of_not_finite {x : Float} (h : x.isFinite = false) : asFloat? (float x) = none := by
  rw [float, h]
  rfl

theorem asWord32?_count {n : Nat} (h : n < UInt32.size) :
    asWord32? (count n) = some (UInt32.ofNat n) := by
  have hn : (UInt64.ofNat n).toNat = n :=
    UInt64.toNat_ofNat_of_lt' (Nat.lt_trans h (by decide))
  show (if (UInt64.ofNat n).toNat < UInt32.size then some (UInt64.ofNat n).toUInt32 else none) = _
  rw [hn, if_pos h]
  congr 1
  apply UInt32.toNat_inj.1
  rw [UInt64.toNat_toUInt32, hn]
  rfl

theorem asByte?_word (b : UInt8) : asByte? (word b.toUInt64) = some b := by
  have hb : b.toUInt64.toNat < UInt8.size := by
    rw [UInt8.toNat_toUInt64]
    exact b.toNat_lt
  show (if b.toUInt64.toNat < UInt8.size then some b.toUInt64.toUInt8 else none) = _
  rw [if_pos hb, UInt8.toUInt8_toUInt64]

theorem asOption?_option {read : Json → Option α} {write : α → Json} {o : Option α}
    (h : ∀ a ∈ o, write a ≠ .null ∧ read (write a) = some a) : asOption? read (option write o) = some o := by
  cases o with
  | none => rfl
  | some a =>
    obtain ⟨hne, hread⟩ := h a rfl
    rw [option, asOption?.eq_def]
    split
    next heq => exact absurd heq hne
    next => rw [hread]; rfl

theorem asOption?_word (o : Option UInt64) : asOption? asWord? (option word o) = some o :=
  asOption?_option fun _ _ => ⟨nofun, rfl⟩

theorem asOption?_float {o : Option Float} (h : ∀ x ∈ o, x.isFinite = true) :
    asOption? asFloat? (option float o) = some o := by
  refine asOption?_option fun x hx => ⟨?_, asFloat?_float (h x hx)⟩
  rw [float, if_pos (h x hx)]
  nofun

theorem mapM_map_eq_some {β : Type} {read : β → Option α} {write : α → β} {l : List α}
    (h : ∀ a ∈ l, read (write a) = some a) : (l.map write).mapM read = some l := by
  induction l with
  | nil => rfl
  | cons a l ih =>
    have hrest := ih fun b hb => h b (List.mem_cons_of_mem _ hb)
    simp [List.mapM_cons, h a List.mem_cons_self, hrest]

theorem asList?_list {read : Json → Option α} {write : α → Json} {l : List α}
    (h : ∀ a ∈ l, read (write a) = some a) : asList? read (list write l) = some l :=
  mapM_map_eq_some h

theorem asMap?_map {read : Json → Option α} {write : α → Json} {m : NameMap α}
    (h : ∀ e ∈ m.toList, read (write e.2) = some e.2) : asMap? read (map write m) = some m := by
  have hfields : (m.toList.map fun e => (e.1, write e.2)).mapM
      (fun e => (read e.2).map fun a => (e.1, a)) = some m.toList :=
    mapM_map_eq_some fun e he => by simp [h e he]
  rw [map, asMap?, hfields, Option.map_some, SortedMap.ofList_toList]

/-- A list or a map with a value that is not read is not read itself. -/
theorem mapM_eq_none {β : Type} {read : β → Option α} {l : List β} {b : β} (hb : b ∈ l)
    (h : read b = none) : l.mapM read = none := by
  induction l with
  | nil => exact absurd hb List.not_mem_nil
  | cons c l ih =>
    rcases List.mem_cons.1 hb with rfl | hb
    · simp [List.mapM_cons, h]
    · cases hc : read c <;> simp [List.mapM_cons, hc, ih hb]

theorem asList?_eq_none {read : Json → Option α} {write : α → Json} {l : List α} {a : α} (ha : a ∈ l)
    (h : read (write a) = none) : asList? read (list write l) = none :=
  mapM_eq_none (List.mem_map.2 ⟨a, ha, rfl⟩) h

theorem asMap?_eq_none {read : Json → Option α} {write : α → Json} {m : NameMap α} {e : String × α}
    (he : e ∈ m.toList) (h : read (write e.2) = none) : asMap? read (map write m) = none := by
  have hfields : (m.toList.map fun e => (e.1, write e.2)).mapM
      (fun e => (read e.2).map fun a => (e.1, a)) = none :=
    mapM_eq_none (List.mem_map.2 ⟨e, he, rfl⟩) (by simp [h])
  rw [map, asMap?, hfields, Option.map_none]

theorem asNames?_names (s : NameSet) : asNames? (names s) = some s := by
  have hkeys : (s.keys.map fun k => (k, ())) = s.toList := by
    rw [SortedMap.keys, SortedMap.toList, List.map_map]
    exact List.map_id _
  have hlist : asList? asString? (names s) = some s.keys := asList?_list fun _ _ => rfl
  rw [asNames?, hlist, Option.map_some, SortedMap.setOf, hkeys, SortedMap.ofList_toList]

theorem asKey?_key (d : Decoding) (k : Crypto.Key) : asKey? d (key k) = some k := by
  have hbytes : asList? asByte? (key k) = some k.bytes := asList?_list fun b _ => asByte?_word b
  show (asList? asByte? (key k)).bind Crypto.Key.ofLeading? = some k
  rw [hbytes, Option.bind_some, Crypto.Key.ofLeading?, dif_pos (Nat.le_of_eq k.length_eq)]
  simp [k.length_eq]

/-! ## 2. Records -/

/-- A record that has all its fields, each of them once, is taken as it is. -/
theorem asRecord?_of_names {names : List String} {fields : List (String × Json)}
    (h : fields.map Prod.fst = names) (hdistinct : distinct names = true) (closed : Bool) :
    asRecord? names closed (.obj fields) = some ⟨fields, false⟩ := by
  have hknown : (fields.filter fun e => names.contains e.1) = fields := by
    rw [List.filter_eq_self]
    intro e he
    rw [← h]
    exact List.contains_iff_mem.2 (List.mem_map.2 ⟨e, he, rfl⟩)
  rw [asRecord?, hknown, h, hdistinct]
  simp

theorem asRecord?_then {β : Type} {names : List String} {fields : List (String × Json)} {closed : Bool}
    {f : Record → Option β} {o : Option β} (h : fields.map Prod.fst = names)
    (hdistinct : distinct names = true) (hrest : f ⟨fields, false⟩ = o) :
    (asRecord? names closed (.obj fields) >>= f) = o :=
  bind_of_eq_some (asRecord?_of_names h hdistinct closed) hrest

namespace Record

variable {β : Type} {r : Record} {name : String} {j : Json} {read : Json → Option α} {a : α}
  {f : α → Option β} {o : Option β}

/-- A field is read, and then the rest. -/
theorem required_then (hfield : r.field? name = some j) (hread : read j = some a) (hrest : f a = o) :
    (r.required name read >>= f) = o := by
  rw [required, hfield]
  exact bind_of_eq_some hread hrest

theorem withDefault_eq {default : α} (hfield : r.field? name = some j) :
    r.withDefault name default read = read j := by
  rw [withDefault, hfield]

theorem withDefault_then {default : α} (hfield : r.field? name = some j) (hread : read j = some a)
    (hrest : f a = o) : (r.withDefault name default read >>= f) = o := by
  rw [withDefault_eq hfield]
  exact bind_of_eq_some hread hrest

theorem withDefault_fails {default : α} (hfield : r.field? name = some j) (hread : read j = none) :
    (r.withDefault name default read >>= f) = none := by
  rw [withDefault_eq hfield, hread]
  rfl

theorem optional_then {f : Option α → Option β} {a : Option α} (hfield : r.field? name = some j)
    (hread : asOption? read j = some a) (hrest : f a = o) : (r.optional name read >>= f) = o :=
  withDefault_then hfield hread hrest

theorem optional_fails {f : Option α → Option β} (hfield : r.field? name = some j)
    (hread : asOption? read j = none) : (r.optional name read >>= f) = none :=
  withDefault_fails hfield hread

theorem nullable_then {f : Option α → Option β} {a : Option α} (hfield : r.field? name = some j)
    (hread : asOption? read j = some a) (hrest : f a = o) : (r.nullable name read >>= f) = o := by
  rw [nullable, hfield]
  exact bind_of_eq_some hread hrest

end Record

/-! ## 3. Values in free form -/

theorem freeForm_ofJson? (f : FreeForm) : FreeForm.ofJson? f.json = some f := by
  have hnormal := normalize_of_isCanonical f.canonical
  rw [FreeForm.ofJson?, dif_pos (hnormal.symm ▸ f.canonical)]
  cases f
  simp only [hnormal]

theorem depth_map_lt {f : α → Json} {m : NameMap α} {e : String × α} (h : e ∈ m.toList) :
    (f e.2).depth < (map f m).depth :=
  depth_lt_of_mem (e := (e.1, f e.2)) (List.mem_map.2 ⟨e, h, rfl⟩)

/-- Free-form arguments within the depth to which documents are read. -/
theorem asModelArgs?_modelArgs {level : Nat} {a : ModelArgs}
    (h : ∀ e ∈ a.toList, level + e.2.json.depth ≤ maxDepth) :
    asModelArgs? level (modelArgs a) = some a := by
  unfold asModelArgs? modelArgs
  apply asMap?_map
  intro e he
  rw [if_pos (h e he), freeForm_ofJson?]

end Federation.Json
