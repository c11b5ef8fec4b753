import Federation.Proofs.Json.Number
import Federation.Proofs.Json.Schema
/-!
# Documents with a text

Every kind of value has a document whose text reads back: floats that are not finite are written as
`null`, and free-form values are canonical.
-/

namespace Federation.Json

attribute [simp] Writable.null Writable.bool Writable.str

@[simp] theorem writable_arr {items : List Json} : Writable (.arr items) ↔ ∀ j ∈ items, Writable j :=
  ⟨fun h => by cases h; assumption, Writable.arr⟩

@[simp] theorem writable_obj {fields : List (String × Json)} :
    Writable (.obj fields) ↔ ∀ e ∈ fields, Writable e.2 :=
  ⟨fun h => by cases h; assumption, Writable.obj⟩

@[simp] theorem writable_word (n : UInt64) : Writable (word n) := .num (readsBack_word n)

@[simp] theorem writable_count (n : Nat) : Writable (count n) := writable_word _

@[simp] theorem writable_float (x : Float) : Writable (float x) := by
  unfold float
  split
  next h => exact .num (readsBack_float h)
  next => exact .null

theorem writable_option {α : Type} {f : α → Json} (h : ∀ a, Writable (f a)) (o : Option α) :
    Writable (option f o) := by
  cases o with
  | none => exact .null
  | some a => exact h a

theorem writable_list {α : Type} {f : α → Json} (h : ∀ a, Writable (f a)) (l : List α) :
    Writable (list f l) := by
  simp [list, h]

theorem writable_map {α : Type} {f : α → Json} (h : ∀ a, Writable (f a)) (m : NameMap α) :
    Writable (map f m) := by
  refine .obj fun e he => ?_
  obtain ⟨e', -, rfl⟩ := List.mem_map.1 he
  exact h e'.2

theorem writable_names (s : NameSet) : Writable (names s) := writable_list .str s.keys

theorem writable_key (k : Crypto.Key) : Writable (key k) := writable_list (fun _ => writable_word _) k.bytes

/-- A canonical document has a meaning throughout and all its numbers in range. -/
theorem writable_of_isCanonical {j : Json} (h : j.isCanonical = true) : Writable j := by
  induction j using structural with
  | leaf j harr hobj =>
    cases j with
    | null => exact .null
    | bool b => exact .bool b
    | num n =>
      cases n with
      | word n => exact .num (readsBack_word n)
      | negative i => exact .num (readsBack_negative h)
      | float x => exact .num (readsBack_float h)
    | str s => exact .str s
    | arr items => exact absurd rfl (harr items)
    | obj fields => exact absurd rfl (hobj fields)
    | halved bytes => exact absurd h Bool.false_ne_true
    | unreadable => exact absurd h Bool.false_ne_true
  | arr items ih =>
    rw [isCanonical, itemsCanonical_iff] at h
    exact .arr fun j hj => ih j hj (h j hj)
  | obj fields ih =>
    rw [isCanonical, Bool.and_eq_true, fieldsCanonical_iff] at h
    exact .obj fun e he => ih e he (h.2 e he)

theorem writable_modelArgs (a : ModelArgs) : Writable (modelArgs a) :=
  writable_map (fun f => writable_of_isCanonical f.canonical) a

end Federation.Json
