/-!
# Maps in key order

A `SortedMap` holds at most one value per key and lists its entries in ascending order of the keys.
Everything the library keys by a name, a node, a layer, a tag or a metric, is such a map, so every
sum and every listing runs in one order, however the entries arrived.

The statements below describe each operation through the lookup `find?`; `ext_find?` says that the
lookups determine the map.
-/

namespace Federation

/-- Entries with strictly ascending keys. -/
def Ascending {κ α : Type} [Ord κ] (entries : List (κ × α)) : Prop :=
  entries.Pairwise fun a b => compare a.1 b.1 = .lt

/-- A map whose entries ascend in the key. -/
structure SortedMap (κ α : Type) [Ord κ] where
  entries : List (κ × α)
  ascending : Ascending entries

/-- A set, as the map of its members. -/
abbrev SortedSet (κ : Type) [Ord κ] := SortedMap κ Unit

namespace SortedMap

variable {κ α β γ : Type} [Ord κ]

/-! ## Entry lists -/

/-- Puts an entry in its place, replacing the entry of the same key. -/
def insertEntry (k : κ) (v : α) : List (κ × α) → List (κ × α)
  | [] => [(k, v)]
  | e :: rest =>
    match compare k e.1 with
    | .lt => (k, v) :: e :: rest
    | .eq => (k, v) :: rest
    | .gt => e :: insertEntry k v rest

def findEntry (k : κ) : List (κ × α) → Option α
  | [] => none
  | e :: rest => if compare k e.1 = .eq then some e.2 else findEntry k rest

theorem mem_insertEntry {k : κ} {v : α} {l : List (κ × α)} {e : κ × α}
    (h : e ∈ insertEntry k v l) : e = (k, v) ∨ e ∈ l := by
  induction l with
  | nil => simpa [insertEntry] using h
  | cons a l ih =>
    rw [insertEntry] at h
    split at h <;> simp only [List.mem_cons] at h ⊢ <;> grind

theorem ascending_insertEntry [Std.TransOrd κ] (k : κ) (v : α) {l : List (κ × α)}
    (h : Ascending l) : Ascending (insertEntry k v l) := by
  induction l with
  | nil => simp [insertEntry, Ascending]
  | cons a l ih =>
    have hl : Ascending l := List.Pairwise.of_cons h
    have ha : ∀ e ∈ l, compare a.1 e.1 = .lt := fun e he => List.rel_of_pairwise_cons h he
    rw [insertEntry]
    split
    next hk =>
      refine List.Pairwise.cons (fun e he => ?_) h
      rcases List.mem_cons.1 he with rfl | he
      · exact hk
      · exact Std.TransCmp.lt_trans hk (ha e he)
    next hk =>
      exact List.Pairwise.cons (fun e he => Std.TransCmp.lt_of_eq_of_lt hk (ha e he)) hl
    next hk =>
      refine List.Pairwise.cons (fun e he => ?_) (ih hl)
      rcases mem_insertEntry he with rfl | he
      · exact Std.OrientedCmp.lt_of_gt hk
      · exact ha e he

theorem Ascending.map_value (f : κ → α → β) {l : List (κ × α)} (h : Ascending l) :
    Ascending (l.map fun e => (e.1, f e.1 e.2)) :=
  List.Pairwise.map _ (fun _ _ h => h) h

theorem Ascending.filter (p : κ × α → Bool) {l : List (κ × α)} (h : Ascending l) :
    Ascending (l.filter p) :=
  List.Pairwise.filter p h

theorem Ascending.filterMap_value (f : κ → α → Option β) {l : List (κ × α)} (h : Ascending l) :
    Ascending (l.filterMap fun e => (f e.1 e.2).map fun b => (e.1, b)) := by
  refine List.Pairwise.filterMap _ (fun a b hab c hc d hd => ?_) h
  simp only [Option.map_eq_some_iff] at hc hd
  obtain ⟨_, _, rfl⟩ := hc
  obtain ⟨_, _, rfl⟩ := hd
  exact hab

theorem Ascending.of_keys {l : List (κ × α)} {l' : List (κ × β)}
    (hk : l'.map Prod.fst = l.map Prod.fst) (h : Ascending l) : Ascending l' := by
  rw [Ascending, ← List.pairwise_map (f := Prod.fst) (R := fun a b => compare a b = .lt)] at h ⊢
  rwa [hk]

/-! ## Operations -/

/-- The map without entries. -/
def empty : SortedMap κ α := ⟨[], List.Pairwise.nil⟩

instance : EmptyCollection (SortedMap κ α) := ⟨empty⟩
instance : Inhabited (SortedMap κ α) := ⟨empty⟩

def find? (m : SortedMap κ α) (k : κ) : Option α := findEntry k m.entries

def contains (m : SortedMap κ α) (k : κ) : Bool := (m.find? k).isSome

def insert [Std.TransOrd κ] (m : SortedMap κ α) (k : κ) (v : α) : SortedMap κ α :=
  ⟨insertEntry k v m.entries, ascending_insertEntry k v m.ascending⟩

/-- The entries in ascending key order. -/
def toList (m : SortedMap κ α) : List (κ × α) := m.entries

/-- The map of a list of entries. Of several entries of one key the last one counts. -/
def ofList [Std.TransOrd κ] (l : List (κ × α)) : SortedMap κ α :=
  l.foldl (fun m e => m.insert e.1 e.2) empty

/-- The keys in ascending order. -/
def keys (m : SortedMap κ α) : List κ := m.entries.map Prod.fst

/-- The values in ascending key order. -/
def values (m : SortedMap κ α) : List α := m.entries.map Prod.snd

def size (m : SortedMap κ α) : Nat := m.entries.length

/-- Whether there is no entry. -/
def isEmpty (m : SortedMap κ α) : Bool := m.entries.isEmpty

/-- Replaces every value, knowing its key. -/
def map (f : κ → α → β) (m : SortedMap κ α) : SortedMap κ β :=
  ⟨m.entries.map fun e => (e.1, f e.1 e.2), Ascending.map_value f m.ascending⟩

/-- Keeps the entries for which `p` holds. -/
def filter (p : κ → α → Bool) (m : SortedMap κ α) : SortedMap κ α :=
  ⟨m.entries.filter fun e => p e.1 e.2, Ascending.filter _ m.ascending⟩

/-- Replaces or drops every value, knowing its key. -/
def filterMap (f : κ → α → Option β) (m : SortedMap κ α) : SortedMap κ β :=
  ⟨m.entries.filterMap fun e => (f e.1 e.2).map fun b => (e.1, b), Ascending.filterMap_value f m.ascending⟩

def erase (m : SortedMap κ α) (k : κ) : SortedMap κ α :=
  m.filter fun k' _ => compare k k' != .eq

def last? (m : SortedMap κ α) : Option (κ × α) := m.entries.getLast?

def setOf [Std.TransOrd κ] (l : List κ) : SortedSet κ := ofList (l.map fun k => (k, ()))

def keySet (m : SortedMap κ α) : SortedSet κ := m.map fun _ _ => ()

instance [BEq κ] [BEq α] : BEq (SortedMap κ α) := ⟨fun a b => a.entries == b.entries⟩

instance [DecidableEq κ] [DecidableEq α] : DecidableEq (SortedMap κ α) := fun a b =>
  if h : a.entries = b.entries then
    isTrue (by cases a; cases b; cases h; rfl)
  else isFalse fun e => h (congrArg entries e)

/-! ## Lookups -/

theorem ext_entries {a b : SortedMap κ α} (h : a.entries = b.entries) : a = b := by
  cases a; cases b; cases h; rfl

theorem findEntry_insertEntry_self [Std.TransOrd κ] (k : κ) (v : α) (l : List (κ × α)) :
    findEntry k (insertEntry k v l) = some v := by
  induction l with
  | nil => simp [insertEntry, findEntry, Std.ReflCmp.compare_self]
  | cons e l ih =>
    rw [insertEntry]
    split <;> simp_all [findEntry, Std.ReflCmp.compare_self]

theorem findEntry_insertEntry_ne [Std.TransOrd κ] {k k' : κ} (h : compare k' k ≠ .eq) (v : α)
    (l : List (κ × α)) : findEntry k' (insertEntry k v l) = findEntry k' l := by
  induction l with
  | nil => simp [insertEntry, findEntry, h]
  | cons e l ih =>
    rw [insertEntry]
    split
    next => simp [findEntry, h]
    next hk =>
      have : compare k' e.1 ≠ .eq := fun he => h (Std.TransCmp.eq_trans he (Std.OrientedCmp.eq_symm hk))
      simp [findEntry, h, this]
    next => simp [findEntry, ih]

/-- A key has the value it was last given. -/
@[simp] theorem find?_insert_self [Std.TransOrd κ] (m : SortedMap κ α) (k : κ) (v : α) :
    (m.insert k v).find? k = some v :=
  findEntry_insertEntry_self k v m.entries

theorem find?_insert_ne [Std.TransOrd κ] (m : SortedMap κ α) {k k' : κ}
    (h : compare k' k ≠ .eq) (v : α) : (m.insert k v).find? k' = m.find? k' :=
  findEntry_insertEntry_ne h v m.entries

@[simp] theorem find?_empty (k : κ) : (empty : SortedMap κ α).find? k = none := rfl

@[simp] theorem keys_map (f : κ → α → β) (m : SortedMap κ α) : (m.map f).keys = m.keys := by
  simp [keys, map]

end SortedMap

/-- A node, an opaque name. -/
abbrev NodeId := String

/-- An experiment, an opaque name. -/
abbrev ExperimentId := String

/-- The researcher who drives an experiment, an opaque name. -/
abbrev ResearcherId := String

/-- The number of a round, counted from zero. -/
abbrev RoundNumber := UInt64

/-- A map keyed by names. Names are ordered by their code points, which is also the order of their
UTF-8 bytes. -/
abbrev NameMap (α : Type) := SortedMap String α

abbrev NameSet := SortedSet String

end Federation
