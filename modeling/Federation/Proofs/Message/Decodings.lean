import Federation.Proofs.Json.Fields
import Federation.Proofs.Message.Codec
/-!
# Two ways of decoding

A payload is decoded in the course of reading, or after it was kept. The replies that are found are the
same, but for two parts of them: a kind of error with an empty object as its content is read only where it
was kept, and a key that is written as a text only where it was not.
-/

namespace Federation

/-! ## 1. Cases, keys and fields -/

namespace Json

variable {j : Json}

theorem asCase?_kept (h : ∀ name, j ≠ .obj [(name, .obj [])]) : j.asCase? .kept = j.asCase? .direct := by
  unfold asCase?
  split
  · rfl
  · rfl
  next name hchoice =>
    unfold asChoice? at hchoice
    split at hchoice
    · cases hchoice
    · obtain ⟨rfl, hcontent⟩ := Prod.mk.inj (Option.some.inj hchoice)
      obtain rfl := Option.some.inj hcontent
      exact absurd rfl (h _)
    · contradiction
  · rfl

/-- A text with the length of a key. -/
def IsKeyText (j : Json) : Prop := ∃ bytes, j.textBytes? = some bytes ∧ bytes.length = 32

theorem asKey?_kept (h : ¬j.IsKeyText) : asKey? .kept j = asKey? .direct j := by
  unfold asKey?
  cases hbytes : j.textBytes? with
  | none => rfl
  | some bytes =>
    have hlength : bytes.length ≠ 32 := fun hlength => h ⟨bytes, hbytes, hlength⟩
    show none = Crypto.Key.ofBytes? bytes
    rw [Crypto.Key.ofBytes?, dif_neg hlength]

theorem asKey?_kept_of_isKeyText (h : j.IsKeyText) : asKey? .kept j = none := by
  obtain ⟨bytes, hbytes, -⟩ := h
  rw [asKey?, hbytes]
  rfl

theorem asOption?_eq_none {α : Type} {read : Json → Option α} (hread : read j = none) (hj : j ≠ .null) :
    asOption? read j = none := by
  cases j <;> simp_all [asOption?]

section Record

variable {names : List String} {closed : Bool} {fields : List (String × Json)} {r : Record} {name : String}

theorem field?_of_asRecord? (h : asRecord? names closed (.obj fields) = some r) (hname : name ∈ names) :
    r.field? name = some j ↔ (name, j) ∈ fields := by
  unfold asRecord? at h
  dsimp only at h
  split at h
  · contradiction
  split at h
  next hdistinct =>
    obtain rfl := Option.some.inj h
    rw [Record.field?, lookup_eq_some_iff_mem (distinct_iff.1 hdistinct), List.mem_filter]
    exact and_iff_left (List.contains_iff_mem.2 hname)
  · contradiction

variable {α : Type} {read read' : Json → Option α}

theorem Record.optional_congr (h : ∀ j, r.field? name = some j → read j = read' j) :
    r.optional name read = r.optional name read' := by
  unfold Record.optional Record.withDefault
  cases hfield : r.field? name with
  | none => rfl
  | some j =>
    have hread := h j hfield
    cases j <;> simp [asOption?, hread]

theorem Record.required_congr (h : ∀ j, r.field? name = some j → read j = read' j) :
    r.required name read = r.required name read' :=
  Option.bind_congr h

end Record

end Json

open Json

/-! ## 2. Errors -/

/-- A kind with an empty object as its content. -/
def NodeErrorKind.hollow (k : NodeErrorKind) : Json := .obj [(k.name, .obj [])]

theorem NodeErrorKind.ofJson?_kept {j : Json} (h : ∀ k : NodeErrorKind, j ≠ k.hollow) :
    ofJson? .kept j = ofJson? .direct j := by
  by_cases hcase : ∃ name, j = .obj [(name, .obj [])]
  · -- neither way is there a kind of this name
    obtain ⟨name, rfl⟩ := hcase
    refine List.find?_eq_none.2 fun k _ hname => h k ?_
    rw [hollow, beq_iff_eq.1 hname]
  · rw [ofJson?, asCase?_kept (not_exists.1 hcase)]
    rfl

namespace NodeError

/-- An error with a kind that has an empty object as its content. -/
def HasHollowKind : Json → Prop
  | .obj fields => ∃ k : NodeErrorKind, ("kind", k.hollow) ∈ fields
  | .arr items => ∃ k : NodeErrorKind, items.head? = some k.hollow
  | _ => False

variable {j : Json} {r : Record}

/-- Such a kind is what is found in the field of it. -/
theorem hasHollowKind_iff (h : asRecord? ["kind", "message"] false j = some r) :
    HasHollowKind j ↔ ∃ k : NodeErrorKind, r.field? "kind" = some k.hollow := by
  cases j with
  | obj fields => exact exists_congr fun k => (field?_of_asRecord? h List.mem_cons_self).symm
  | arr items =>
    unfold asRecord? at h
    dsimp only at h
    split at h
    · obtain rfl := Option.some.inj h
      cases items <;> exact Iff.rfl
    · contradiction
  | _ => contradiction

theorem read?_kept (h : ¬HasHollowKind j) : read? .kept j = read? .direct j := by
  refine Option.bind_congr fun r hr => ?_
  have hkind : r.required "kind" (NodeErrorKind.ofJson? .kept) =
      r.required "kind" (NodeErrorKind.ofJson? .direct) :=
    Record.required_congr fun kind hfield => NodeErrorKind.ofJson?_kept fun k hk =>
      h ((hasHollowKind_iff hr).2 ⟨k, hk ▸ hfield⟩)
  rw [hkind]

theorem read?_direct_of_hollow (h : HasHollowKind j) : read? .direct j = none := by
  refine Option.bind_eq_none_iff.2 fun r hr => ?_
  obtain ⟨k, hk⟩ := (hasHollowKind_iff hr).1 h
  have hkind : r.required "kind" (NodeErrorKind.ofJson? .direct) = none := by
    rw [Record.required, hk]
    rfl
  rw [hkind]
  rfl

end NodeError

/-! ## 3. Replies -/

namespace Reply

/-- A field of a reply that is read in one of the two ways only. -/
inductive TellsDecoding : String × Json → Prop where
  | error {j : Json} (h : NodeError.HasHollowKind j) : TellsDecoding ("error", j)
  | publicKey {j : Json} (h : j.IsKeyText) : TellsDecoding ("public_key", j)

end Reply

variable {fields : List (String × Json)}

theorem NodeError.optional_kept {names : List String} {r : Record}
    (hr : asRecord? names true (.obj fields) = some r) (hname : "error" ∈ names)
    (h : ∀ e ∈ fields, ¬Reply.TellsDecoding e) :
    r.optional "error" (read? .kept) = r.optional "error" (read? .direct) :=
  Record.optional_congr fun _ hfield => read?_kept fun hhollow =>
    h _ ((field?_of_asRecord? hr hname).1 hfield) (.error hhollow)

theorem WorkReply.ofJson?_kept (h : ∀ e ∈ fields, ¬Reply.TellsDecoding e) :
    ofJson? .kept (.obj fields) = ofJson? .direct (.obj fields) := by
  refine Option.bind_congr fun r hr => ?_
  rw [NodeError.optional_kept hr (by decide) h]

theorem SetupReply.ofJson?_kept (h : ∀ e ∈ fields, ¬Reply.TellsDecoding e) :
    ofJson? .kept (.obj fields) = ofJson? .direct (.obj fields) := by
  refine Option.bind_congr fun r hr => ?_
  have hkey : r.optional "public_key" (asKey? .kept) = r.optional "public_key" (asKey? .direct) :=
    Record.optional_congr fun _ hfield => asKey?_kept fun htext =>
      h _ ((field?_of_asRecord? hr (by decide)).1 hfield) (.publicKey htext)
  rw [NodeError.optional_kept hr (by decide) h, hkey]

end Federation
