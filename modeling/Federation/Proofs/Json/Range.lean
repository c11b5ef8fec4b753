import Federation.Proofs.Binary64.Arithmetic
import Federation.Proofs.Json.Schema
import Federation.Proofs.Json.Text
/-!
# What a text can hold

A number beyond the range of floats makes its value unreadable, so every number of a document that was
read from a text is in range. Whatever a schema finds in such a document has finite floats.
-/

namespace Federation.Json

/-- A document whose numbers are in range, wherever they stand. -/
inductive InRange : Json → Prop where
  | null : InRange .null
  | bool (b : Bool) : InRange (.bool b)
  | num {n : Number} (h : n.inRange = true) : InRange (.num n)
  | str (s : String) : InRange (.str s)
  | arr {items : List Json} (h : ∀ j ∈ items, InRange j) : InRange (.arr items)
  | obj {fields : List (String × Json)} (h : ∀ e ∈ fields, InRange e.2) : InRange (.obj fields)
  | halved (bytes : List UInt8) : InRange (.halved bytes)
  | unreadable : InRange .unreadable

/-! ## 1. Numbers -/

theorem inRange_floatNumber (x : Float) : InRange (floatNumber x) := by
  unfold floatNumber
  split
  next h => exact .num h
  next => exact .unreadable

theorem inRange_wholeNumber (negative : Bool) (n : Nat) : InRange (wholeNumber negative n) := by
  unfold wholeNumber
  split
  · split
    · exact .num (by decide +kernel)
    split
    next hzero hle =>
      refine .num ?_
      simp only [Number.inRange, Word.represents, Bool.and_eq_true, decide_eq_true_eq]
      omega
    next => exact inRange_floatNumber _
  · split
    · exact .num rfl
    · exact inRange_floatNumber _

theorem inRange_readMagnitude {negative : Bool} {cs rest : List Char} {j : Json}
    (h : readMagnitude negative cs = some (j, rest)) : InRange j := by
  -- with or without a fraction, the number is put together once its exponent is read
  have hend : ∀ (whole fraction : List Char) (o : Option (Option Int × List Char)),
      (o >>= fun e => if fraction.isEmpty && e.1.isNone then
          some (wholeNumber negative (Text.decimalValue (whole ++ fraction)), e.2)
        else some (floatNumber (Binary64.ofDecimal negative (Text.decimalValue (whole ++ fraction))
          (e.1.getD 0 - fraction.length)), e.2)) = some (j, rest) → InRange j := by
    intro whole fraction o h
    obtain ⟨e, -, h⟩ := Option.bind_eq_some_iff.1 h
    split at h
    · obtain ⟨rfl, -⟩ := Prod.mk.inj (Option.some.inj h)
      exact inRange_wholeNumber _ _
    · obtain ⟨rfl, -⟩ := Prod.mk.inj (Option.some.inj h)
      exact inRange_floatNumber _
  unfold readMagnitude at h
  dsimp only at h
  split at h
  · contradiction
  split at h
  · split at h
    · contradiction
    · exact hend _ _ _ h
  · exact hend _ _ _ h

theorem inRange_readNumber {cs rest : List Char} {j : Json} (h : readNumber cs = some (j, rest)) :
    InRange j := by
  cases cs with
  | nil => contradiction
  | cons c cs =>
    by_cases hc : c = '-'
    · rw [hc, readNumber_minus] at h
      exact inRange_readMagnitude h
    · rw [readNumber_of_ne cs hc] at h
      exact inRange_readMagnitude h

/-! ## 2. Documents -/

theorem inRange_ofPoints (points : List Nat) : InRange (ofPoints points) := by
  unfold ofPoints
  cases textOf? points with
  | none => exact .halved _
  | some s => exact .str s

/-- What is read with some fuel is in range. -/
structure ReadsInRange (fuel : Nat) : Prop where
  value : ∀ {cs rest j}, readValue fuel cs = some (j, rest) → InRange j
  items : ∀ {cs rest items}, readItems fuel cs = some (items, rest) → ∀ j ∈ items, InRange j
  fields : ∀ {cs rest fields}, readFields fuel cs = some (some fields, rest) → ∀ e ∈ fields, InRange e.2

theorem ReadsInRange.readValue {fuel : Nat} (ih : ReadsInRange fuel) {cs rest : List Char} {j : Json}
    (h : readValue (fuel + 1) cs = some (j, rest)) : InRange j := by
  rw [Json.readValue] at h
  split at h
  · contradiction
  · obtain ⟨⟨points, rest'⟩, -, h⟩ := Option.map_eq_some_iff.1 h
    obtain ⟨rfl, -⟩ := Prod.mk.inj h
    exact inRange_ofPoints points
  · split at h
    · obtain ⟨rfl, -⟩ := Prod.mk.inj (Option.some.inj h)
      exact .arr (List.forall_mem_nil _)
    · obtain ⟨⟨items, rest'⟩, hitems, h⟩ := Option.map_eq_some_iff.1 h
      obtain ⟨rfl, -⟩ := Prod.mk.inj h
      exact .arr (ih.items hitems)
  · split at h
    · obtain ⟨rfl, -⟩ := Prod.mk.inj (Option.some.inj h)
      exact .obj (List.forall_mem_nil _)
    · obtain ⟨⟨fields, rest'⟩, hfields, h⟩ := Option.map_eq_some_iff.1 h
      obtain ⟨rfl, -⟩ := Prod.mk.inj h
      cases fields with
      | none => exact .unreadable
      | some fields => exact .obj (ih.fields hfields)
  · obtain ⟨_, -, h⟩ := Option.map_eq_some_iff.1 h
    obtain ⟨rfl, -⟩ := Prod.mk.inj h
    exact .null
  · obtain ⟨_, -, h⟩ := Option.map_eq_some_iff.1 h
    obtain ⟨rfl, -⟩ := Prod.mk.inj h
    exact .bool true
  · obtain ⟨_, -, h⟩ := Option.map_eq_some_iff.1 h
    obtain ⟨rfl, -⟩ := Prod.mk.inj h
    exact .bool false
  · exact inRange_readNumber h

theorem ReadsInRange.readItems {fuel : Nat} (ih : ReadsInRange fuel) {cs rest : List Char}
    {items : List Json} (h : readItems (fuel + 1) cs = some (items, rest)) : ∀ j ∈ items, InRange j := by
  rw [Json.readItems] at h
  split at h
  · contradiction
  next j rest' hvalue =>
    split at h
    · obtain ⟨⟨more, rest'⟩, hmore, h⟩ := Option.map_eq_some_iff.1 h
      obtain ⟨rfl, -⟩ := Prod.mk.inj h
      exact List.forall_mem_cons.2 ⟨ih.value hvalue, ih.items hmore⟩
    · obtain ⟨rfl, -⟩ := Prod.mk.inj (Option.some.inj h)
      exact List.forall_mem_singleton.2 (ih.value hvalue)
    · contradiction

theorem ReadsInRange.readFields {fuel : Nat} (ih : ReadsInRange fuel) {cs rest : List Char}
    {fields : List (String × Json)} (h : readFields (fuel + 1) cs = some (some fields, rest)) :
    ∀ e ∈ fields, InRange e.2 := by
  rw [Json.readFields] at h
  split at h
  · split at h
    · contradiction
    split at h
    · split at h
      · contradiction
      next j rest' hvalue =>
        split at h
        · obtain ⟨⟨more, rest'⟩, hmore, h⟩ := Option.map_eq_some_iff.1 h
          obtain ⟨h, -⟩ := Prod.mk.inj h
          obtain ⟨k, -, h⟩ := Option.bind_eq_some_iff.1 h
          obtain ⟨more, rfl, rfl⟩ := Option.map_eq_some_iff.1 h
          exact List.forall_mem_cons.2 ⟨ih.value hvalue, ih.fields hmore⟩
        · obtain ⟨h, -⟩ := Prod.mk.inj (Option.some.inj h)
          obtain ⟨k, -, rfl⟩ := Option.map_eq_some_iff.1 h
          exact List.forall_mem_singleton.2 (ih.value hvalue)
        · contradiction
    · contradiction
  · contradiction

theorem readsInRange (fuel : Nat) : ReadsInRange fuel := by
  induction fuel with
  | zero => exact ⟨nofun, nofun, nofun⟩
  | succ fuel ih => exact ⟨ih.readValue, ih.readItems, ih.readFields⟩

theorem inRange_of_parse {text : String} {j : Json} (h : parse text = some j) : InRange j := by
  unfold parse at h
  dsimp only at h
  split at h
  next hvalue =>
    split at h
    · obtain rfl := Option.some.inj h
      exact (readsInRange _).value hvalue
    · contradiction
  · contradiction

/-! ## 3. Schemas -/

/-- Whatever is read of a document in range has a property. -/
def Finds {α : Type} (read : Json → Option α) (P : α → Prop) : Prop := ∀ j, InRange j → Returns P (read j)

theorem isFinite_toFloat (n : UInt64) : n.toFloat.isFinite = true := by
  have hle : (n.toNat : ℚ) ≤ (1 : Nat) * 2 ^ (64 : Int) := by
    have hlt : n.toNat ≤ 2 ^ 64 := Nat.le_of_lt n.toNat_lt
    rw [Nat.cast_one, one_mul]
    exact_mod_cast hlt
  have hlt : ((1 : Nat) : ℚ) * 2 ^ (64 : Int) < 2 ^ (1023 : Int) := by
    rw [Nat.cast_one, one_mul]
    exact zpow_lt_zpow_right₀ one_lt_two (by decide)
  exact ((Binary64.toFloat_roundsTo n).abs_value_le (by decide) (by decide) hle hlt).1

theorem finds_float : Finds asFloat? fun x => x.isFinite = true := by
  intro j hj x hx
  cases hj with
  | @num n hn =>
    cases n with
    | word n =>
      obtain rfl := Option.some.inj hx
      exact isFinite_toFloat n
    | negative i =>
      obtain rfl := Option.some.inj hx
      exact (Binary64.value_neg (isFinite_toFloat _)).1
    | float y =>
      obtain rfl := Option.some.inj hx
      exact hn
  | _ => contradiction

section Finds

variable {α : Type} {read : Json → Option α} {P : α → Prop}

theorem Finds.list (h : Finds read P) : Finds (asList? read) fun l => ∀ a ∈ l, P a := by
  intro j hj
  cases hj with
  | arr hitems => exact Returns.mapM fun j hj => h j (hitems j hj)
  | _ => exact returns_none

theorem Finds.map (h : Finds read P) : Finds (asMap? read) fun m => ∀ e ∈ m.toList, P e.2 := by
  intro j hj
  cases hj with
  | @obj fields hfields =>
    have hread : Returns (fun l : List (String × α) => ∀ e ∈ l, P e.2)
        (fields.mapM fun e => (read e.2).map fun a => (e.1, a)) :=
      Returns.mapM fun e he => Returns.map (h e.2 (hfields e he))
    exact Returns.map fun l hl e he => hread l hl e (SortedMap.mem_of_mem_toList_ofList he)
  | _ => exact returns_none

theorem Finds.option (h : Finds read P) : Finds (asOption? read) fun o => ∀ a ∈ o, P a := by
  intro j hj
  have hsome : Returns (fun o => ∀ a ∈ o, P a) ((read j).map some) :=
    Returns.map fun a ha b hb => Option.some.inj hb ▸ h j hj a ha
  cases j with
  | null => exact returns_some nofun
  | _ => exact hsome

namespace Record

variable {r : Record}

/-- A record whose fields are in range. -/
def InRange (r : Record) : Prop := ∀ e ∈ r.fields, Json.InRange e.2

theorem InRange.field? (hr : r.InRange) (name : String) : Returns Json.InRange (r.field? name) := by
  intro j hj
  obtain ⟨before, after, hfields, -⟩ := List.lookup_eq_some_iff.1 hj
  exact hr (name, j) (hfields ▸ List.mem_append_right before List.mem_cons_self)

theorem InRange.required (hr : r.InRange) (h : Finds read P) (name : String) :
    Returns P (r.required name read) :=
  (hr.field? name).bind h

theorem InRange.withDefault (hr : r.InRange) (h : Finds read P) (name : String) {default : α}
    (hdefault : P default) : Returns P (r.withDefault name default read) := by
  unfold Record.withDefault
  split
  · exact returns_some hdefault
  next j hj => exact h j (hr.field? name j hj)

theorem InRange.optional (hr : r.InRange) (h : Finds read P) (name : String) :
    Returns (fun o => ∀ a ∈ o, P a) (r.optional name read) :=
  hr.withDefault h.option name nofun

end Record

theorem inRange_asRecord? {names : List String} {closed : Bool} {j : Json} (hj : InRange j) :
    Returns Record.InRange (asRecord? names closed j) := by
  cases hj with
  | obj hfields =>
    unfold asRecord?
    dsimp only
    split
    · exact returns_none
    split
    · exact returns_some fun e he => hfields e (List.mem_of_mem_filter he)
    · exact returns_none
  | @arr items hitems =>
    show Returns Record.InRange (if _ then some ⟨names.zip items, true⟩ else none)
    split
    · exact returns_some fun e he => hitems e.2 (List.of_mem_zip he).2
    · exact returns_none
  | _ => exact returns_none

end Finds

/-- Free-form arguments are found within the depth to which documents are read. -/
theorem finds_modelArgs (level : Nat) :
    Finds (asModelArgs? level) fun a => ∀ e ∈ a.toList, level + e.2.json.depth ≤ maxDepth := by
  refine Finds.map (P := fun f : FreeForm => level + f.json.depth ≤ maxDepth) fun j _ => ?_
  split
  next hle =>
    have hdepth := depth_normalize_le j
    unfold FreeForm.ofJson?
    split
    · exact returns_some (show level + j.normalize.depth ≤ maxDepth by omega)
    · exact returns_none
  · exact returns_none

/-! ## 4. Choices and envelopes -/

theorem inRange_asChoice? {j : Json} (hj : InRange j) :
    Returns (fun c => ∀ content ∈ c.2, InRange content) (asChoice? j) := by
  unfold asChoice?
  split
  · exact returns_some nofun
  · cases hj with
    | obj hfields =>
      refine returns_some fun content hcontent => ?_
      obtain rfl := Option.some.inj hcontent
      exact hfields _ List.mem_cons_self
  · exact returns_none

theorem inRange_asEnvelope? {j : Json} (hj : InRange j) :
    Returns (fun e => InRange e.payload) (asEnvelope? j) := by
  unfold asEnvelope?
  split
  next fields =>
    cases hj with
    | obj hfields =>
      -- the payload is one of the fields, wherever it stands
      have hmem : ∀ e ∈ fields.filter fun e => e.1 == "command" || e.1 == "payload", InRange e.2 :=
        fun e he => hfields e (List.mem_of_mem_filter he)
      split
      next heq =>
        rw [heq] at hmem
        exact Returns.map fun _ _ => hmem ("payload", _) (List.mem_cons_of_mem _ List.mem_cons_self)
      next heq =>
        rw [heq] at hmem
        split
        · exact Returns.map fun _ _ => hmem ("payload", _) List.mem_cons_self
        · exact returns_none
      · exact returns_none
  · cases hj with
    | arr hitems => exact Returns.map fun _ _ => hitems _ (List.mem_cons_of_mem _ List.mem_cons_self)
  · exact returns_none

end Federation.Json
