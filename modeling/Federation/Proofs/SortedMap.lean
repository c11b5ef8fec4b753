import Federation.SortedMap
import Mathlib.Data.List.Nodup
/-!
# Lookups in sorted maps

A sorted map is determined by what `find?` gives for each key. The lemmas below say what a lookup
finds after each operation, so that nothing else has to look at the entries.
-/

namespace Federation.SortedMap

variable {κ α β : Type} [Ord κ]

/-! ## 1. Keys -/

theorem isEmpty_iff {m : SortedMap κ α} : m.isEmpty = true ↔ m.keys = [] := by
  simp [isEmpty, keys]

theorem last?_eq_none {m : SortedMap κ α} : m.last? = none ↔ m.keys = [] := by
  simp [last?, keys]

theorem forall_mem_values {m : SortedMap κ α} {P : α → Prop} :
    (∀ a ∈ m.values, P a) ↔ ∀ e ∈ m.toList, P e.2 :=
  List.forall_mem_map

theorem ascending_keys (m : SortedMap κ α) : m.keys.Pairwise fun a b => compare a b = .lt :=
  List.pairwise_map.2 m.ascending

theorem nodup_keys [Std.LawfulEqOrd κ] (m : SortedMap κ α) : m.keys.Nodup := by
  refine m.ascending_keys.imp fun {a b} hab heq => ?_
  rw [heq, Std.compare_self] at hab
  contradiction

/-- In a list that ascends in a key, the first member of which something is made is the least one. -/
theorem findSome?_eq_some_iff_least [Std.OrientedOrd κ] (key : α → κ) {l : List α}
    (hl : l.Pairwise fun a b => compare (key a) (key b) = .lt) {f : α → Option β} {b : β} :
    l.findSome? f = some b ↔
      ∃ a ∈ l, f a = some b ∧ ∀ a' ∈ l, compare (key a') (key a) = .lt → f a' = none := by
  constructor
  · intro h
    obtain ⟨before, a, after, rfl, ha, hbefore⟩ := List.findSome?_eq_some_iff.1 h
    refine ⟨a, by simp, ha, fun a' ha' hlt => ?_⟩
    rcases List.mem_append.1 ha' with ha' | ha'
    · exact hbefore a' ha'
    · -- neither the member itself nor what stands behind it is less
      rcases List.mem_cons.1 ha' with rfl | ha'
      · rw [Std.compare_self] at hlt
        contradiction
      · have hgt := List.rel_of_pairwise_cons (List.pairwise_append.1 hl).2.1 ha'
        rw [Std.OrientedCmp.gt_of_lt hgt] at hlt
        contradiction
  · rintro ⟨a, hmem, ha, hleast⟩
    obtain ⟨before, after, rfl⟩ := List.append_of_mem hmem
    refine List.findSome?_eq_some_iff.2 ⟨before, a, after, rfl, ha, fun a' ha' => ?_⟩
    exact hleast a' (by simp [ha']) ((List.pairwise_append.1 hl).2.2 a' ha' a List.mem_cons_self)

/-- In a list that ascends in a key, the first member with a property is the least one. -/
theorem find?_eq_some_iff_least [Std.OrientedOrd κ] (key : α → κ) {l : List α}
    (hl : l.Pairwise fun a b => compare (key a) (key b) = .lt) {p : α → Bool} {a : α} :
    l.find? p = some a ↔
      a ∈ l ∧ p a = true ∧ ∀ a' ∈ l, compare (key a') (key a) = .lt → p a' = false := by
  rw [List.find?_eq_findSome?_guard, findSome?_eq_some_iff_least key hl]
  simp only [Option.guard_eq_some_iff, Option.guard_eq_none_iff]
  constructor
  · rintro ⟨_, hmem, ⟨rfl, hp⟩, hleast⟩
    exact ⟨hmem, hp, hleast⟩
  · rintro ⟨hmem, hp, hleast⟩
    exact ⟨a, hmem, ⟨rfl, hp⟩, hleast⟩

/-- If the key alone decides which entries stay, the keys that stay are those. -/
theorem keys_filterMap {f : κ → α → Option β} {p : κ → Bool} (h : ∀ k a, (f k a).isSome = p k)
    (m : SortedMap κ α) : (m.filterMap f).keys = m.keys.filter p := by
  show ((m.entries.filterMap fun e => (f e.1 e.2).map fun b => (e.1, b)).map Prod.fst) =
    (m.entries.map Prod.fst).filter p
  induction m.entries with
  | nil => rfl
  | cons e l ih =>
    rw [List.filterMap_cons, List.map_cons, List.filter_cons, ← h e.1 e.2, ← ih]
    cases f e.1 e.2 <;> rfl

/-! ## 2. Entries -/

variable [Std.LawfulEqOrd κ]

theorem findEntry_eq_some_iff {l : List (κ × α)}
    (h : Ascending l) {k : κ} {v : α} : findEntry k l = some v ↔ (k, v) ∈ l := by
  induction l with
  | nil => simp [findEntry]
  | cons e l ih =>
    have hl : Ascending l := List.Pairwise.of_cons h
    have he : ∀ e' ∈ l, compare e.1 e'.1 = .lt := fun e' he' => List.rel_of_pairwise_cons h he'
    rw [findEntry]
    by_cases hk : compare k e.1 = .eq
    · have hke : k = e.1 := Std.LawfulEqOrd.eq_of_compare hk
      rw [if_pos hk]
      constructor
      · intro hv
        rw [Option.some.injEq] at hv
        subst hke hv
        exact List.mem_cons_self
      · intro hm
        rcases List.mem_cons.1 hm with rfl | hm
        · rfl
        · have hlt := he _ hm
          rw [hke, Std.compare_self] at hlt
          contradiction
    · rw [if_neg hk, ih hl, List.mem_cons]
      refine ⟨Or.inr, fun hm => hm.resolve_left fun heq => hk ?_⟩
      rw [← heq, Std.compare_self]

/-- A lookup finds exactly the entries. -/
theorem find?_eq_some_iff {m : SortedMap κ α} {k : κ} {v : α} :
    m.find? k = some v ↔ (k, v) ∈ m.entries :=
  findEntry_eq_some_iff m.ascending

theorem mem_keys {m : SortedMap κ α} {k : κ} : k ∈ m.keys ↔ ∃ v, m.find? k = some v := by
  simp [keys, find?_eq_some_iff]

theorem mem_keys_iff_isSome {m : SortedMap κ α} {k : κ} : k ∈ m.keys ↔ (m.find? k).isSome := by
  rw [mem_keys, Option.isSome_iff_exists]

/-- A map without entries has no value for any key. -/
theorem isEmpty_iff_find? {m : SortedMap κ α} : m.isEmpty = true ↔ ∀ k, m.find? k = none := by
  simp only [isEmpty_iff, List.eq_nil_iff_forall_not_mem, mem_keys_iff_isSome, Option.not_isSome_iff_eq_none]

/-- The last entry has the greatest key. -/
theorem find?_of_last? {m : SortedMap κ α} {k : κ} {v : α} (h : m.last? = some (k, v)) :
    m.find? k = some v ∧ ∀ k' ∈ m.keys, k' = k ∨ compare k' k = .lt := by
  obtain ⟨l, hl⟩ := List.getLast?_eq_some_iff.1 h
  refine ⟨find?_eq_some_iff.2 (hl ▸ by simp), fun k' hk' => ?_⟩
  have hasc := m.ascending_keys
  rw [keys, hl, List.map_append, List.map_singleton] at hasc hk'
  rcases List.mem_append.1 hk' with hk' | hk'
  · exact Or.inr ((List.pairwise_append.1 hasc).2.2 k' hk' k List.mem_cons_self)
  · exact Or.inl (List.mem_singleton.1 hk')

/-! ## 3. Operations -/

theorem find?_map (f : κ → α → β) (m : SortedMap κ α) (k : κ) :
    (m.map f).find? k = (m.find? k).map (f k) := by
  apply Option.ext
  intro b
  rw [find?_eq_some_iff, Option.map_eq_some_iff]
  constructor
  · intro h
    obtain ⟨e, he, heq⟩ := List.mem_map.1 h
    obtain ⟨rfl, rfl⟩ := Prod.mk.inj heq
    exact ⟨e.2, find?_eq_some_iff.2 he, rfl⟩
  · rintro ⟨a, ha, rfl⟩
    exact List.mem_map.2 ⟨(k, a), find?_eq_some_iff.1 ha, rfl⟩

omit [Std.LawfulEqOrd κ] in
theorem map_map {γ : Type} (g : κ → β → γ) (f : κ → α → β) (m : SortedMap κ α) :
    (m.map f).map g = m.map fun k a => g k (f k a) :=
  ext_entries List.map_map

theorem find?_filterMap (f : κ → α → Option β) (m : SortedMap κ α) (k : κ) :
    (m.filterMap f).find? k = (m.find? k).bind (f k) := by
  apply Option.ext
  intro b
  rw [find?_eq_some_iff, Option.bind_eq_some_iff]
  constructor
  · intro h
    obtain ⟨e, he, heq⟩ := List.mem_filterMap.1 h
    obtain ⟨b', hb', hpair⟩ := Option.map_eq_some_iff.1 heq
    obtain ⟨rfl, rfl⟩ := Prod.mk.inj hpair
    exact ⟨e.2, find?_eq_some_iff.2 he, hb'⟩
  · rintro ⟨a, ha, hb⟩
    exact List.mem_filterMap.2 ⟨(k, a), find?_eq_some_iff.1 ha, by simp [hb]⟩

/-- If no entry is dropped, the keys stay. -/
theorem keys_filterMap_of_isSome {f : κ → α → Option β} {m : SortedMap κ α}
    (h : ∀ k a, m.find? k = some a → (f k a).isSome = true) : (m.filterMap f).keys = m.keys := by
  have hentries : ∀ e ∈ m.entries, (f e.1 e.2).isSome = true := fun e he =>
    h _ _ (find?_eq_some_iff.2 he)
  show ((m.entries.filterMap fun e => (f e.1 e.2).map fun b => (e.1, b)).map Prod.fst) =
    m.entries.map Prod.fst
  generalize m.entries = l at hentries
  induction l with
  | nil => rfl
  | cons e l ih =>
    obtain ⟨b, hb⟩ := Option.isSome_iff_exists.1 (hentries e List.mem_cons_self)
    rw [List.filterMap_cons, hb, Option.map_some, List.map_cons, List.map_cons,
      ih fun e he => hentries e (List.mem_cons_of_mem _ he)]

theorem find?_filter (p : κ → α → Bool) (m : SortedMap κ α) (k : κ) :
    (m.filter p).find? k = (m.find? k).filter (p k) := by
  apply Option.ext
  intro a
  rw [find?_eq_some_iff, Option.filter_eq_some_iff, find?_eq_some_iff]
  exact List.mem_filter

theorem find?_erase [DecidableEq κ] (m : SortedMap κ α) (k k' : κ) :
    (m.erase k).find? k' = if k' = k then none else m.find? k' := by
  rw [erase, find?_filter]
  by_cases h : k' = k
  · subst h
    simp [Std.compare_self]
  · have hc : (compare k k' != .eq) = true :=
      bne_iff_ne.2 fun hc => h (Std.LawfulEqOrd.eq_of_compare hc).symm
    rw [if_neg h]
    cases m.find? k' with
    | none => rfl
    | some a => exact Option.filter_some_pos hc

variable [Std.TransOrd κ]

/-- The lookups determine a map: lists that ascend and have the same members are equal. -/
theorem ext_find? {a b : SortedMap κ α} (h : ∀ k, a.find? k = b.find? k) : a = b := by
  apply ext_entries
  have hmem : ∀ e, e ∈ a.entries ↔ e ∈ b.entries := by
    intro e
    rw [← find?_eq_some_iff (m := a), ← find?_eq_some_iff (m := b), h]
  have hnd : ∀ m : SortedMap κ α, m.entries.Nodup := fun m =>
    List.Pairwise.of_map Prod.fst (fun _ _ hne heq => hne (congrArg Prod.fst heq)) m.nodup_keys
  have hp : a.entries.Perm b.entries := (List.perm_ext_iff_of_nodup (hnd a) (hnd b)).2 hmem
  refine hp.eq_of_pairwise (fun x y _ _ hxy hyx => ?_) a.ascending b.ascending
  rw [Std.OrientedCmp.gt_of_lt hxy] at hyx
  contradiction

/-- A set is determined by its members. -/
theorem ext_mem_keys {a b : SortedSet κ} (h : ∀ k, k ∈ a.keys ↔ k ∈ b.keys) : a = b := by
  apply ext_find?
  intro k
  apply Option.ext
  rintro ⟨⟩
  have hk := h k
  rw [mem_keys, mem_keys] at hk
  exact ⟨fun ha => (hk.1 ⟨_, ha⟩).elim fun _ hb => hb, fun hb => (hk.2 ⟨_, hb⟩).elim fun _ ha => ha⟩

theorem find?_insert [DecidableEq κ] (m : SortedMap κ α) (k : κ) (v : α) (k' : κ) :
    (m.insert k v).find? k' = if k' = k then some v else m.find? k' := by
  by_cases h : k' = k
  · subst h
    rw [find?_insert_self, if_pos rfl]
  · rw [find?_insert_ne m (fun hc => h (Std.LawfulEqOrd.eq_of_compare hc)), if_neg h]

/-- Of several entries of one key the last one counts. -/
theorem find?_foldl_insert [DecidableEq κ] (l : List (κ × α)) (m : SortedMap κ α) (k : κ) :
    (l.foldl (fun m e => m.insert e.1 e.2) m).find? k =
      ((l.filter fun e => e.1 = k).getLast?.map Prod.snd).or (m.find? k) := by
  induction l generalizing m with
  | nil => simp
  | cons e l ih =>
    rw [List.foldl_cons, ih, find?_insert, List.filter_cons]
    by_cases h : e.1 = k
    · -- the entry counts if no later one has its key
      simp only [h, decide_true, if_true]
      cases hl : l.filter fun e => e.1 = k with
      | nil => simp
      | cons e' l' => simp [List.getLast?_cons]
    · simp only [h, decide_false, Bool.false_eq_true, if_false, if_neg (Ne.symm h)]

theorem find?_ofList [DecidableEq κ] (l : List (κ × α)) (k : κ) :
    (ofList l).find? k = (l.filter fun e => e.1 = k).getLast?.map Prod.snd := by
  rw [ofList, find?_foldl_insert, find?_empty, Option.or_none]

theorem mem_of_find?_ofList [DecidableEq κ] {l : List (κ × α)} {k : κ} {v : α}
    (h : (ofList l).find? k = some v) : (k, v) ∈ l := by
  rw [find?_ofList, Option.map_eq_some_iff] at h
  obtain ⟨⟨k', v'⟩, hlast, rfl⟩ := h
  have hmem := List.mem_filter.1 (List.mem_of_getLast? hlast)
  obtain rfl : k' = k := by simpa using hmem.2
  exact hmem.1

theorem mem_of_mem_toList_ofList [DecidableEq κ] {l : List (κ × α)} {e : κ × α}
    (h : e ∈ (ofList l).toList) : e ∈ l :=
  mem_of_find?_ofList (find?_eq_some_iff.2 h)

/-- In a map made of a list of keys and a function every key has the value of the function. -/
theorem find?_ofList_map [DecidableEq κ] (f : κ → α) {l : List κ} {k : κ} (h : k ∈ l) :
    (ofList (l.map fun k => (k, f k))).find? k = some (f k) := by
  have hall : ∀ e ∈ (l.map fun k => (k, f k)).filter (fun e => decide (e.1 = k)), e.2 = f k := by
    intro e he
    rw [List.mem_filter, List.mem_map, decide_eq_true_iff] at he
    obtain ⟨⟨k', _, rfl⟩, rfl⟩ := he
    rfl
  have hmem : (k, f k) ∈ (l.map fun k => (k, f k)).filter (fun e => decide (e.1 = k)) :=
    List.mem_filter.2 ⟨List.mem_map.2 ⟨k, h, rfl⟩, by simp⟩
  rw [find?_ofList, List.getLast?_eq_some_getLast (List.ne_nil_of_mem hmem), Option.map_some,
    hall _ (List.getLast_mem _)]

/-- Such a map lists every key once, in order. -/
theorem toList_ofList_map [DecidableEq κ] (f : κ → α) (l : List κ) :
    (ofList (l.map fun k => (k, f k))).toList = (setOf l).keys.map fun k => (k, f k) := by
  have hmap : ofList (l.map fun k => (k, f k)) = (setOf l).map fun k _ => f k := by
    apply ext_find?
    intro k
    rw [find?_map]
    by_cases hk : k ∈ l
    · rw [find?_ofList_map f hk, setOf, find?_ofList_map (fun _ => ()) hk]
      rfl
    · have hnone : ∀ {β : Type} (g : κ → β), (ofList (l.map fun k => (k, g k))).find? k = none := by
        intro β g
        rw [find?_ofList, Option.map_eq_none_iff, List.getLast?_eq_none_iff, List.filter_eq_nil_iff]
        intro e he
        obtain ⟨k', hk', rfl⟩ := List.mem_map.1 he
        simpa using fun h : k' = k => hk (h ▸ hk')
      rw [hnone f, setOf, hnone fun _ => ()]
      rfl
  rw [hmap]
  simp [toList, map, keys]

theorem mem_keys_ofList [DecidableEq κ] {l : List (κ × α)} {k : κ} :
    k ∈ (ofList l).keys ↔ k ∈ l.map Prod.fst := by
  rw [mem_keys_iff_isSome, find?_ofList, Option.isSome_map, List.getLast?_isSome, ne_eq,
    List.filter_eq_nil_iff]
  simp

/-- Where every key comes once, a lookup finds exactly what is listed. -/
theorem find?_ofList_of_nodup [DecidableEq κ] {l : List (κ × α)} (hl : (l.map Prod.fst).Nodup) {k : κ}
    {v : α} : (ofList l).find? k = some v ↔ (k, v) ∈ l := by
  constructor
  · exact mem_of_find?_ofList
  · intro hmem
    obtain ⟨v', hv'⟩ := mem_keys.1 (mem_keys_ofList.2 (List.mem_map.2 ⟨(k, v), hmem, rfl⟩))
    have hsame := List.inj_on_of_nodup_map hl (mem_of_find?_ofList hv') hmem rfl
    rw [hv', (Prod.mk.inj hsame).2]

/-- Entries in ascending order are listed as they are. -/
theorem toList_ofList_of_ascending [DecidableEq κ] {l : List (κ × α)} (h : Ascending l) :
    (ofList l).toList = l := by
  have heq : ofList l = ⟨l, h⟩ := by
    apply ext_find?
    intro k
    apply Option.ext
    intro v
    rw [find?_ofList_of_nodup (nodup_keys ⟨l, h⟩), find?_eq_some_iff]
  rw [heq]
  rfl

theorem ofList_toList [DecidableEq κ] (m : SortedMap κ α) : ofList m.toList = m :=
  ext_entries (toList_ofList_of_ascending m.ascending)

/-- Where every key comes once, the order of the entries does not matter. -/
theorem ofList_of_perm [DecidableEq κ] {l l' : List (κ × α)} (h : l.Perm l')
    (hl : (l.map Prod.fst).Nodup) : ofList l = ofList l' := by
  apply ext_find?
  intro k
  apply Option.ext
  intro v
  rw [find?_ofList_of_nodup hl, find?_ofList_of_nodup ((h.map Prod.fst).nodup_iff.1 hl), h.mem_iff]

theorem mem_keys_setOf [DecidableEq κ] {l : List κ} {k : κ} : k ∈ (setOf l).keys ↔ k ∈ l := by
  rw [setOf, mem_keys_ofList, List.map_map]
  simp

end Federation.SortedMap
