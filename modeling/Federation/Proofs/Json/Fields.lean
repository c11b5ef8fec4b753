import Federation.Proofs.Json.Schema
/-!
# Closed records by their fields

A closed record is described by the fields it knows: how each is read, what of the record it holds
and what a missing one stands for. A reader that follows such a description takes in the objects which
it allows and no others, whatever the order of their fields.
-/

namespace Federation.Json

/-! ## 1. Fields by name -/

theorem lookup_eq_some_iff_mem {α : Type} {l : List (String × α)} (h : (l.map Prod.fst).Nodup)
    {name : String} {a : α} : l.lookup name = some a ↔ (name, a) ∈ l := by
  constructor
  · intro hlookup
    obtain ⟨before, after, rfl, -⟩ := List.lookup_eq_some_iff.1 hlookup
    exact List.mem_append_right before List.mem_cons_self
  · intro hmem
    obtain ⟨before, after, rfl⟩ := List.append_of_mem hmem
    refine List.lookup_eq_some_iff.2 ⟨before, after, rfl, fun e he => bne_iff_ne.2 fun hname => ?_⟩
    rw [List.map_append, List.map_cons] at h
    exact (List.nodup_append.1 h).2.2 e.1 (List.mem_map_of_mem he) name List.mem_cons_self hname.symm

theorem lookup_eq_none_iff_not_mem {α : Type} {l : List (String × α)} {name : String} :
    l.lookup name = none ↔ name ∉ l.map Prod.fst := by
  rw [List.lookup_eq_none_iff, List.mem_map]
  constructor
  · rintro h ⟨e, he, rfl⟩
    exact bne_iff_ne.1 (h e he) rfl
  · exact fun h e he => bne_iff_ne.2 fun hname => h ⟨e, he, hname.symm⟩

theorem lookup_perm {α : Type} {l l' : List (String × α)} (h : l.Perm l')
    (hdistinct : (l.map Prod.fst).Nodup) (name : String) : l.lookup name = l'.lookup name := by
  have hdistinct' : (l'.map Prod.fst).Nodup := (h.map Prod.fst).nodup_iff.1 hdistinct
  refine Option.ext fun a => ?_
  rw [lookup_eq_some_iff_mem hdistinct, lookup_eq_some_iff_mem hdistinct', h.mem_iff]

/-- Fields of known names, none of them given twice. -/
structure Admits (names : List String) (fields : List (String × Json)) : Prop where
  known : ∀ e ∈ fields, e.1 ∈ names
  distinct : (fields.map Prod.fst).Nodup

theorem Admits.perm {names : List String} {fields fields' : List (String × Json)}
    (h : Admits names fields) (hperm : fields.Perm fields') : Admits names fields' where
  known e he := h.known e (hperm.mem_iff.2 he)
  distinct := (hperm.map Prod.fst).nodup_iff.1 h.distinct

theorem admits_cons {names : List String} {fields : List (String × Json)} {name : String} {j : Json}
    (hname : name ∈ names) (hnew : name ∉ fields.map Prod.fst) :
    Admits names ((name, j) :: fields) ↔ Admits names fields := by
  constructor
  · rintro ⟨hknown, hdistinct⟩
    exact ⟨fun e he => hknown e (List.mem_cons_of_mem _ he), (List.nodup_cons.1 hdistinct).2⟩
  · rintro ⟨hknown, hdistinct⟩
    exact ⟨List.forall_mem_cons.2 ⟨hname, hknown⟩, List.nodup_cons.2 ⟨hnew, hdistinct⟩⟩

theorem distinct_iff {names : List String} : distinct names = true ↔ names.Nodup := by
  induction names with
  | nil => simp [distinct]
  | cons name names ih => simp [distinct, ih]

theorem asRecord?_closed_eq_some {names : List String} {fields : List (String × Json)} {r : Record} :
    asRecord? names true (.obj fields) = some r ↔ Admits names fields ∧ r = ⟨fields, false⟩ := by
  unfold asRecord?
  dsimp only
  by_cases hknown : ∀ e ∈ fields, e.1 ∈ names
  · have hfilter : (fields.filter fun e => names.contains e.1) = fields :=
      List.filter_eq_self.2 fun e he => List.contains_iff_mem.2 (hknown e he)
    rw [hfilter, if_neg (by simp)]
    by_cases hdistinct : (fields.map Prod.fst).Nodup
    · rw [if_pos (distinct_iff.2 hdistinct), Option.some.injEq]
      exact ⟨fun h => ⟨⟨hknown, hdistinct⟩, h.symm⟩, fun h => h.2.symm⟩
    · rw [if_neg (mt distinct_iff.1 hdistinct)]
      exact ⟨nofun, fun h => absurd h.1.distinct hdistinct⟩
  · rw [if_pos (by simpa [List.length_filter_eq_length_iff] using hknown)]
    exact ⟨nofun, fun h => absurd h.1.known hknown⟩

/-! ## 2. Descriptions of records -/

/-- A field of a record `W`. -/
structure Field (W : Type) where
  name : String
  Value : Type
  read : Json → Option Value
  -- What of the record the field holds.
  part : W → Value
  -- What stands for a missing field. A field without it is required.
  default : Option Json
  readable : ∀ d ∈ default, (read d).isSome = true

namespace Field

variable {V W : Type}

def required (name : String) (read : Json → Option V) (part : W → V) : Field W :=
  ⟨name, V, read, part, none, nofun⟩

def defaulted (name : String) (default : Json) (read : Json → Option V) (part : W → V)
    (h : (read default).isSome = true) : Field W :=
  ⟨name, V, read, part, some default, fun _ hd => Option.some.inj hd ▸ h⟩

/-- What is written in a field, or what stands for it. -/
def content? (f : Field W) (fields : List (String × Json)) : Option Json :=
  (fields.lookup f.name).or f.default

def value? (f : Field W) (fields : List (String × Json)) : Option f.Value :=
  (f.content? fields).bind f.read

/-- The field is written as `j`, or it is missing and `j` stands for it. -/
def Provides (f : Field W) (fields : List (String × Json)) (j : Json) : Prop :=
  (f.name, j) ∈ fields ∨ f.name ∉ fields.map Prod.fst ∧ f.default = some j

theorem content?_eq_some_iff {f : Field W} {fields : List (String × Json)}
    (h : (fields.map Prod.fst).Nodup) {j : Json} : f.content? fields = some j ↔ f.Provides fields j := by
  rw [content?, Option.or_eq_some_iff, lookup_eq_some_iff_mem h, lookup_eq_none_iff_not_mem, Provides]

/-- A field has a value if it is there or has a default, and is readable where it is there. -/
theorem isSome_value?_iff {f : Field W} {fields : List (String × Json)}
    (h : (fields.map Prod.fst).Nodup) :
    (f.value? fields).isSome = true ↔ (f.default = none → f.name ∈ fields.map Prod.fst) ∧
      ∀ j, (f.name, j) ∈ fields → (f.read j).isSome = true := by
  constructor
  · intro hsome
    obtain ⟨v, hv⟩ := Option.isSome_iff_exists.1 hsome
    obtain ⟨j, hj, hread⟩ := Option.bind_eq_some_iff.1 hv
    refine ⟨fun hdefault => ?_, fun j' hj' => ?_⟩
    · rcases (content?_eq_some_iff h).1 hj with hmem | ⟨-, hj⟩
      · exact List.mem_map_of_mem hmem
      · rw [hdefault] at hj
        contradiction
    · rw [(content?_eq_some_iff h).2 (Or.inl hj'), Option.some.injEq] at hj
      rw [hj, hread]
      rfl
  · rintro ⟨hcomplete, hreadable⟩
    rw [value?]
    by_cases hmem : f.name ∈ fields.map Prod.fst
    · obtain ⟨⟨name, j⟩, hj, rfl⟩ := List.mem_map.1 hmem
      rw [(content?_eq_some_iff h).2 (Or.inl hj), Option.bind_some]
      exact hreadable j hj
    · cases hdefault : f.default with
      | none => exact absurd (hcomplete hdefault) hmem
      | some d =>
        rw [(content?_eq_some_iff h).2 (Or.inr ⟨hmem, hdefault⟩), Option.bind_some]
        exact f.readable d hdefault

theorem content?_perm {fields fields' : List (String × Json)} (h : fields.Perm fields')
    (hdistinct : (fields.map Prod.fst).Nodup) (f : Field W) : f.content? fields = f.content? fields' := by
  rw [content?, content?, lookup_perm h hdistinct]

end Field

/-- A closed record by its fields, no two of one name. -/
structure Schema (W : Type) where
  fields : List (Field W)
  distinct : (fields.map Field.name).Nodup

namespace Schema

variable {W : Type} {s : Schema W} {fields fields' : List (String × Json)} {w : W} {f : Field W}

def names (s : Schema W) : List String := s.fields.map Field.name

/-- The names of the fields that may not be missing. -/
def required (s : Schema W) : List String :=
  (s.fields.filter fun f => f.default.isNone).map Field.name

/-- The fields are known and not repeated, none that is required is missing, and each is read. -/
structure Accepts (s : Schema W) (fields : List (String × Json)) : Prop where
  admits : Admits s.names fields
  complete : ∀ name ∈ s.required, name ∈ fields.map Prod.fst
  readable : ∀ f ∈ s.fields, ∀ j, (f.name, j) ∈ fields → (f.read j).isSome = true

/-- The fields are known and not repeated, and the record holds what is read of each, or of what
stands for it. -/
structure Describes (s : Schema W) (fields : List (String × Json)) (w : W) : Prop where
  admits : Admits s.names fields
  holds : ∀ f ∈ s.fields, ∃ j, f.Provides fields j ∧ f.read j = some (f.part w)

theorem mem_names (h : f ∈ s.fields) : f.name ∈ s.names := List.mem_map_of_mem h

theorem forall_required {P : String → Prop} :
    (∀ name ∈ s.required, P name) ↔ ∀ f ∈ s.fields, f.default = none → P f.name := by
  rw [required, List.forall_mem_map]
  simp

/-! ## 3. Readers -/

/-- A computation that is left with some fields to read, after the part `P` of the record is known. -/
structure Collects (fields : List (String × Json)) (rest : List (Field W)) (x : Option W)
    (P : W → Prop) : Prop where
  eq_some_iff : ∀ w, x = some w ↔ P w ∧ ∀ f ∈ rest, f.value? fields = some (f.part w)
  isSome : (∀ f ∈ rest, (f.value? fields).isSome = true) → x.isSome = true

theorem collects_some {P : W → Prop} (h : ∀ w', P w' ↔ w = w') : Collects fields [] (some w) P where
  eq_some_iff w' := by
    rw [h, Option.some.injEq]
    exact (and_iff_left (List.forall_mem_nil _)).symm
  isSome _ := rfl

/-- One field is read, and then the rest. -/
theorem Collects.bind {rest : List (Field W)} {x : Option f.Value} {g : f.Value → Option W}
    {P : W → Prop} (hx : x = f.value? fields)
    (hg : ∀ v, Collects fields rest (g v) fun w => P w ∧ f.part w = v) :
    Collects fields (f :: rest) (x >>= g) P where
  eq_some_iff w := by
    subst hx
    rw [List.forall_mem_cons]
    constructor
    · intro h
      obtain ⟨v, hv, h⟩ := Option.bind_eq_some_iff.1 h
      obtain ⟨⟨hP, rfl⟩, hrest⟩ := ((hg v).eq_some_iff w).1 h
      exact ⟨hP, hv, hrest⟩
    · rintro ⟨hP, hv, hrest⟩
      exact bind_of_eq_some hv (((hg _).eq_some_iff w).2 ⟨⟨hP, rfl⟩, hrest⟩)
  isSome h := by
    subst hx
    obtain ⟨hf, hrest⟩ := List.forall_mem_cons.1 h
    obtain ⟨v, hv⟩ := Option.isSome_iff_exists.1 hf
    rw [bind_of_eq_some hv rfl]
    exact (hg v).isSome hrest

section Fields

variable {V : Type} {rest : List (Field W)} {P : W → Prop} {name : String} {read : Json → Option V}
  {part : W → V} {g : V → Option W}

theorem Collects.required (hg : ∀ v, Collects fields rest (g v) fun w => P w ∧ part w = v) :
    Collects fields (.required name read part :: rest)
      ((Record.mk fields false).required name read >>= g) P := by
  refine Collects.bind ?_ hg
  show (fields.lookup name).bind read = ((fields.lookup name).or none).bind read
  rw [Option.or_none]

theorem Collects.defaulted {d : Json} {h : (read d).isSome = true} {default : V}
    (hd : read d = some default) (hg : ∀ v, Collects fields rest (g v) fun w => P w ∧ part w = v) :
    Collects fields (.defaulted name d read part h :: rest)
      ((Record.mk fields false).withDefault name default read >>= g) P := by
  refine Collects.bind ?_ hg
  show Record.withDefault ⟨fields, false⟩ name default read =
    ((fields.lookup name).or (some d)).bind read
  rw [Record.withDefault, Record.field?]
  cases fields.lookup name with
  | none => exact hd.symm
  | some j => rfl

theorem Collects.optional {part : W → Option V} {g : Option V → Option W}
    (hg : ∀ v, Collects fields rest (g v) fun w => P w ∧ part w = v) :
    Collects fields (.defaulted name .null (asOption? read) part rfl :: rest)
      ((Record.mk fields false).optional name read >>= g) P :=
  Collects.defaulted rfl hg

end Fields

/-- A reader that takes a record out of an object field by field. -/
structure Follows (read : Json → Option W) (s : Schema W) : Prop where
  eq_some_iff : ∀ {fields w}, read (.obj fields) = some w ↔
    Admits s.names fields ∧ ∀ f ∈ s.fields, f.value? fields = some (f.part w)
  isSome : ∀ {fields}, Admits s.names fields → (∀ f ∈ s.fields, (f.value? fields).isSome = true) →
    (read (.obj fields)).isSome = true

theorem follows_of_collects {read : Json → Option W} {g : Record → Option W}
    (hread : ∀ fields, read (.obj fields) = asRecord? s.names true (.obj fields) >>= g)
    (hg : ∀ fields, Collects fields s.fields (g ⟨fields, false⟩) fun _ => True) : Follows read s where
  eq_some_iff {fields w} := by
    rw [hread]
    constructor
    · intro h
      obtain ⟨r, hr, h⟩ := Option.bind_eq_some_iff.1 h
      obtain ⟨hadmits, rfl⟩ := asRecord?_closed_eq_some.1 hr
      exact ⟨hadmits, (((hg fields).eq_some_iff w).1 h).2⟩
    · rintro ⟨hadmits, hvalues⟩
      exact bind_of_eq_some (asRecord?_closed_eq_some.2 ⟨hadmits, rfl⟩)
        (((hg fields).eq_some_iff w).2 ⟨trivial, hvalues⟩)
  isSome {fields} hadmits hvalues := by
    rw [hread, bind_of_eq_some (asRecord?_closed_eq_some.2 ⟨hadmits, rfl⟩) rfl]
    exact (hg fields).isSome hvalues

namespace Follows

variable {read : Json → Option W}

/-- A record is what its fields describe. -/
theorem eq_some_iff_describes (h : Follows read s) :
    read (.obj fields) = some w ↔ s.Describes fields w := by
  rw [h.eq_some_iff]
  constructor
  · rintro ⟨hadmits, hvalues⟩
    refine ⟨hadmits, fun f hf => ?_⟩
    obtain ⟨j, hj, hread⟩ := Option.bind_eq_some_iff.1 (hvalues f hf)
    exact ⟨j, (Field.content?_eq_some_iff hadmits.distinct).1 hj, hread⟩
  · rintro ⟨hadmits, hholds⟩
    refine ⟨hadmits, fun f hf => ?_⟩
    obtain ⟨j, hj, hread⟩ := hholds f hf
    exact Option.bind_eq_some_iff.2 ⟨j, (Field.content?_eq_some_iff hadmits.distinct).2 hj, hread⟩

theorem isSome_iff_accepts (h : Follows read s) :
    (read (.obj fields)).isSome = true ↔ s.Accepts fields := by
  constructor
  · intro hsome
    obtain ⟨w, hw⟩ := Option.isSome_iff_exists.1 hsome
    obtain ⟨hadmits, hvalues⟩ := h.eq_some_iff.1 hw
    have hfields : ∀ f ∈ s.fields, _ := fun f hf =>
      (Field.isSome_value?_iff hadmits.distinct).1 (Option.isSome_of_eq_some (hvalues f hf))
    exact ⟨hadmits, forall_required.2 fun f hf => (hfields f hf).1, fun f hf => (hfields f hf).2⟩
  · rintro ⟨hadmits, hcomplete, hreadable⟩
    refine h.isSome hadmits fun f hf => (Field.isSome_value?_iff hadmits.distinct).2 ?_
    exact ⟨forall_required.1 hcomplete f hf, hreadable f hf⟩

/-- The order of the fields does not matter. -/
theorem perm (h : Follows read s) (hperm : fields.Perm fields') :
    read (.obj fields) = read (.obj fields') := by
  refine Option.ext fun w => ?_
  have hadmits : Admits s.names fields ↔ Admits s.names fields' :=
    ⟨fun h => h.perm hperm, fun h => h.perm hperm.symm⟩
  rw [h.eq_some_iff, h.eq_some_iff, ← hadmits]
  refine and_congr_right fun hfields => forall₂_congr fun f _ => ?_
  rw [Field.value?, Field.value?, Field.content?_perm hperm hfields.distinct]

/-- What stands for a missing field may as well be written. -/
theorem write_default (h : Follows read s) {f : Field W} (hf : f ∈ s.fields) {d : Json}
    (hdefault : f.default = some d) (hmissing : f.name ∉ fields.map Prod.fst) :
    read (.obj ((f.name, d) :: fields)) = read (.obj fields) := by
  have hcontent : ∀ g ∈ s.fields, g.content? ((f.name, d) :: fields) = g.content? fields := by
    intro g hg
    by_cases hname : g.name = f.name
    · obtain rfl : g = f := List.inj_on_of_nodup_map s.distinct hg hf hname
      rw [Field.content?, Field.content?, List.lookup_cons_self, lookup_eq_none_iff_not_mem.2 hmissing,
        hdefault]
      rfl
    · rw [Field.content?, Field.content?, List.lookup_cons, beq_false_of_ne hname]
  refine Option.ext fun w => ?_
  rw [h.eq_some_iff, h.eq_some_iff, admits_cons (mem_names hf) hmissing]
  refine and_congr_right fun _ => forall₂_congr fun g hg => ?_
  rw [Field.value?, Field.value?, hcontent g hg]

end Follows

end Schema

end Federation.Json
