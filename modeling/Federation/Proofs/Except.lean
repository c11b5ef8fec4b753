/-!
# Results that may be missing

What it takes for a composed computation to give a result: each of its parts gives one.
-/

namespace Federation

/-! ## 1. Results or errors -/

theorem bind_eq_ok {ε α β : Type} {x : Except ε α} {f : α → Except ε β} {b : β} :
    x >>= f = .ok b ↔ ∃ a, x = .ok a ∧ f a = .ok b := by
  cases x with
  | error e => simp [bind, Except.bind]
  | ok a => simp [bind, Except.bind]

theorem bind_eq_error {ε α β : Type} {x : Except ε α} {f : α → Except ε β} {e : ε} :
    x >>= f = .error e ↔ x = .error e ∨ ∃ a, x = .ok a ∧ f a = .error e := by
  cases x with
  | error e' => simp [bind, Except.bind]
  | ok a => simp [bind, Except.bind]

theorem map_eq_ok {ε α β : Type} {x : Except ε α} {f : α → β} {b : β} :
    x.map f = .ok b ↔ ∃ a, x = .ok a ∧ f a = b := by
  cases x with
  | error e => simp [Except.map]
  | ok a => simp [Except.map]

theorem map_eq_error {ε α β : Type} {x : Except ε α} {f : α → β} {e : ε} :
    x.map f = .error e ↔ x = .error e := by
  cases x with
  | error e' => simp [Except.map]
  | ok a => simp [Except.map]

theorem guard_eq_ok {ε α β : Type} {c : Prop} [Decidable c] {e : ε} {f : α → Except ε β}
    {x : Except ε β} {b : β} :
    (if c then throw e >>= f else x) = .ok b ↔ ¬c ∧ x = .ok b := by
  by_cases h : c
  · simp [h, throw, throwThe, MonadExceptOf.throw, bind, Except.bind]
  · simp [h]

theorem throw_eq_ok {ε α : Type} {e : ε} {a : α} : (throw e : Except ε α) = .ok a ↔ False := by
  simp [throw, throwThe, MonadExceptOf.throw]

theorem mapError_eq_ok {α ε ε' : Type} {x : Except ε α} {f : ε → ε'} {a : α} :
    x.mapError f = .ok a ↔ x = .ok a := by
  cases x with
  | error e => exact ⟨nofun, nofun⟩
  | ok b =>
    exact ⟨fun h => congrArg Except.ok (Except.ok.inj h), fun h => congrArg Except.ok (Except.ok.inj h)⟩

theorem mapError_eq_error {α ε ε' : Type} {x : Except ε α} {f : ε → ε'} {e : ε'} :
    x.mapError f = .error e ↔ ∃ e', x = .error e' ∧ f e' = e := by
  cases x with
  | error e' =>
    constructor
    · intro h
      exact ⟨e', rfl, Except.error.inj h⟩
    · rintro ⟨_, he, rfl⟩
      rw [Except.error.inj he]
      rfl
  | ok a => exact ⟨nofun, nofun⟩

theorem mapM_eq_error {α β ε : Type} {f : α → Except ε β} {l : List α} {e : ε}
    (h : l.mapM f = .error e) : ∃ a ∈ l, f a = .error e := by
  induction l with
  | nil => contradiction
  | cons a l ih =>
    rw [List.mapM_cons] at h
    cases ha : f a with
    | error e' =>
      rw [ha] at h
      obtain rfl := Except.error.inj h
      exact ⟨a, List.mem_cons_self, ha⟩
    | ok b =>
      rw [ha] at h
      cases hl : l.mapM f with
      | error e' =>
        rw [hl] at h
        obtain rfl := Except.error.inj h
        obtain ⟨a', ha', he⟩ := ih hl
        exact ⟨a', List.mem_cons_of_mem _ ha', he⟩
      | ok bs =>
        rw [hl] at h
        contradiction

theorem mapM_eq_ok {α β ε : Type} {f : α → Except ε β} {l : List α} {bs : List β}
    (h : l.mapM f = .ok bs) : ∀ b ∈ bs, ∃ a ∈ l, f a = .ok b := by
  induction l generalizing bs with
  | nil =>
    obtain rfl := Except.ok.inj h
    intro b hb
    contradiction
  | cons a l ih =>
    rw [List.mapM_cons] at h
    cases ha : f a with
    | error e =>
      rw [ha] at h
      contradiction
    | ok b =>
      rw [ha] at h
      cases hl : l.mapM f with
      | error e =>
        rw [hl] at h
        contradiction
      | ok bs' =>
        rw [hl] at h
        obtain rfl := Except.ok.inj h
        intro b' hb'
        rcases List.mem_cons.1 hb' with rfl | hb'
        · exact ⟨a, List.mem_cons_self, ha⟩
        · obtain ⟨a', ha', hf⟩ := ih hl b' hb'
          exact ⟨a', List.mem_cons_of_mem _ ha', hf⟩

theorem mem_of_mapM_eq_ok {α β ε : Type} {f : α → Except ε β} {l : List α} {bs : List β}
    (h : l.mapM f = .ok bs) : ∀ a ∈ l, ∃ b ∈ bs, f a = .ok b := by
  induction l generalizing bs with
  | nil =>
    intro a ha
    contradiction
  | cons a l ih =>
    rw [List.mapM_cons] at h
    obtain ⟨b, hb, h⟩ := bind_eq_ok.1 h
    obtain ⟨bs', hbs, h⟩ := bind_eq_ok.1 h
    obtain rfl := Except.ok.inj h
    intro a' ha'
    rcases List.mem_cons.1 ha' with rfl | ha'
    · exact ⟨b, List.mem_cons_self, hb⟩
    · obtain ⟨b', hb', hf⟩ := ih hbs a' ha'
      exact ⟨b', List.mem_cons_of_mem _ hb', hf⟩

/-- What is made of every element in turn is what it is made of. -/
theorem map_of_mapM_eq_ok {α β ε : Type} {f : α → Except ε β} {g : β → α} {l : List α} {bs : List β}
    (h : l.mapM f = .ok bs) (hg : ∀ a b, f a = .ok b → g b = a) : bs.map g = l := by
  induction l generalizing bs with
  | nil =>
    obtain rfl := Except.ok.inj h
    rfl
  | cons a l ih =>
    rw [List.mapM_cons] at h
    obtain ⟨b, hb, h⟩ := bind_eq_ok.1 h
    obtain ⟨bs', hbs, h⟩ := bind_eq_ok.1 h
    obtain rfl := Except.ok.inj h
    rw [List.map_cons, hg a b hb, ih hbs]

/-- The result has a property, or the error has one. -/
def Yields {ε α : Type} (P : α → Prop) (Q : ε → Prop) : Except ε α → Prop
  | .ok a => P a
  | .error e => Q e

section Yields

variable {ε ε' α β : Type} {P : α → Prop} {Q : ε → Prop} {P' : β → Prop} {Q' : ε' → Prop}
  {x : Except ε α}

theorem Yields.of_eq_ok (h : Yields P Q x) {a : α} (hx : x = .ok a) : P a := by
  subst hx
  exact h

theorem Yields.of_eq_error (h : Yields P Q x) {e : ε} (hx : x = .error e) : Q e := by
  subst hx
  exact h

/-- There is a result if no error has the property. -/
theorem Yields.exists_ok (h : Yields P (fun _ => False) x) : ∃ a, x = .ok a ∧ P a := by
  cases x with
  | ok a => exact ⟨a, rfl, h⟩
  | error e => exact h.elim

theorem Yields.mono {R : α → Prop} {S : ε → Prop} (h : Yields P Q x) (hP : ∀ a, P a → R a)
    (hQ : ∀ e, Q e → S e) : Yields R S x := by
  cases x with
  | ok a => exact hP a h
  | error e => exact hQ e h

theorem Yields.bind {f : α → Except ε β} (h : Yields P Q x) (hf : ∀ a, P a → Yields P' Q (f a)) :
    Yields P' Q (x >>= f) := by
  cases x with
  | ok a => exact hf a h
  | error e => exact h

theorem Yields.map {f : α → β} (h : Yields (fun a => P' (f a)) Q x) : Yields P' Q (x.map f) := by
  cases x with
  | ok a => exact h
  | error e => exact h

theorem Yields.mapError {f : ε → ε'} (h : Yields P (fun e => Q' (f e)) x) :
    Yields P Q' (x.mapError f) := by
  cases x with
  | ok a => exact h
  | error e => exact h

theorem yields_guard {c : Prop} [Decidable c] {e : ε} {f : α → Except ε β} {y : Except ε β}
    (he : c → Q e) (hy : ¬c → Yields P' Q y) : Yields P' Q (if c then throw e >>= f else y) := by
  by_cases h : c
  · rw [if_pos h]
    exact he h
  · rw [if_neg h]
    exact hy h

end Yields

/-! ## 2. Results or nothing -/

theorem bind_of_eq_some {α β : Type} {x : Option α} {f : α → Option β} {a : α} {o : Option β}
    (hx : x = some a) (hf : f a = o) : x >>= f = o := by
  rw [hx]
  exact hf

theorem bind_eq_none {α β : Type} {x : Option α} {f : α → Option β} (h : ∀ a, f a = none) :
    x >>= f = none := by
  cases x with
  | none => rfl
  | some a => exact h a

theorem forall_mem_toList {α : Type} {x : Option α} {P : α → Prop} :
    (∀ a ∈ x.toList, P a) ↔ ∀ a ∈ x, P a := by
  cases x <;> simp

/-- The result has a property, if there is one. -/
def Returns {α : Type} (P : α → Prop) (x : Option α) : Prop := ∀ a, x = some a → P a

section Returns

variable {α β : Type} {P : α → Prop} {Q : β → Prop} {x : Option α} {f : α → Option β}

theorem returns_some {a : α} (h : P a) : Returns P (some a) := by
  rintro _ ⟨⟩
  exact h

theorem returns_none : Returns P none := nofun

theorem Returns.bind (hx : Returns P x) (hf : ∀ a, P a → Returns Q (f a)) : Returns Q (x >>= f) := by
  intro b h
  obtain ⟨a, ha, hb⟩ := Option.bind_eq_some_iff.1 h
  exact hf a (hx a ha) b hb

/-- The result has the property whatever was computed before. -/
theorem returns_bind (hf : ∀ a, Returns Q (f a)) : Returns Q (x >>= f) := by
  intro b h
  obtain ⟨a, -, hb⟩ := Option.bind_eq_some_iff.1 h
  exact hf a b hb

theorem Returns.map {g : α → β} (hx : Returns (fun a => Q (g a)) x) : Returns Q (x.map g) := by
  intro b h
  obtain ⟨a, ha, rfl⟩ := Option.map_eq_some_iff.1 h
  exact hx a ha

theorem Returns.mapM {l : List α} (h : ∀ a ∈ l, Returns Q (f a)) :
    Returns (fun bs => ∀ b ∈ bs, Q b) (l.mapM f) := by
  induction l with
  | nil => exact returns_some (List.forall_mem_nil _)
  | cons a l ih =>
    rw [List.forall_mem_cons] at h
    rw [List.mapM_cons]
    refine h.1.bind fun b hb => (ih h.2).bind fun bs hbs => ?_
    exact returns_some (List.forall_mem_cons.2 ⟨hb, hbs⟩)

end Returns

end Federation
