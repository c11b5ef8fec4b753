import Federation.Json.Basic
import Federation.Proofs.SortedMap
/-!
# Documents as trees

Structural induction on documents, and what it is to be canonical: the parts of a canonical document
are canonical, and normalizing changes nothing of it. A document is deeper than its fields.
-/

namespace Federation.Json

/-- Structural induction on documents, with the parts of a document as members of a list. -/
theorem structural {P : Json → Prop} (leaf : ∀ j, (∀ l, j ≠ .arr l) → (∀ l, j ≠ .obj l) → P j)
    (arr : ∀ items, (∀ j ∈ items, P j) → P (.arr items))
    (obj : ∀ fields, (∀ e ∈ fields, P e.2) → P (.obj fields)) (j : Json) : P j :=
  @Json.rec P (fun items => ∀ j ∈ items, P j) (fun fields => ∀ e ∈ fields, P e.2) (fun e => P e.2)
    (leaf _ (fun _ h => nomatch h) fun _ h => nomatch h)
    (fun _ => leaf _ (fun _ h => nomatch h) fun _ h => nomatch h)
    (fun _ => leaf _ (fun _ h => nomatch h) fun _ h => nomatch h)
    (fun _ => leaf _ (fun _ h => nomatch h) fun _ h => nomatch h)
    arr obj
    (fun _ => leaf _ (fun _ h => nomatch h) fun _ h => nomatch h)
    (leaf _ (fun _ h => nomatch h) fun _ h => nomatch h)
    (fun _ h => nomatch h)
    (fun _ _ hj hrest => List.forall_mem_cons.2 ⟨hj, hrest⟩)
    (fun _ h => nomatch h)
    (fun _ _ he hrest => List.forall_mem_cons.2 ⟨he, hrest⟩)
    (fun _ _ h => h) j

theorem itemsCanonical_iff {items : List Json} :
    itemsCanonical items = true ↔ ∀ j ∈ items, j.isCanonical = true := by
  induction items with
  | nil => simp [itemsCanonical]
  | cons j items ih => simp [itemsCanonical, ih]

theorem fieldsCanonical_iff {fields : List (String × Json)} :
    fieldsCanonical fields = true ↔ ∀ e ∈ fields, e.2.isCanonical = true := by
  induction fields with
  | nil => simp [fieldsCanonical]
  | cons e fields ih =>
    rw [fieldsCanonical, Bool.and_eq_true, ih, List.forall_mem_cons, fieldCanonical]

theorem fieldsReadable_iff {fields : List (String × Json)} :
    fieldsReadable fields = true ↔ ∀ e ∈ fields, e.2.isReadable = true := by
  induction fields with
  | nil => simp [fieldsReadable]
  | cons e fields ih =>
    rw [fieldsReadable, Bool.and_eq_true, ih, List.forall_mem_cons, fieldReadable]

theorem normalizeItems_eq (items : List Json) : normalizeItems items = items.map normalize := by
  induction items with
  | nil => rfl
  | cons j items ih => rw [normalizeItems, ih, List.map_cons]

theorem normalizeFields_eq (fields : List (String × Json)) :
    normalizeFields fields = fields.map fun e => (e.1, e.2.normalize) := by
  induction fields with
  | nil => rfl
  | cons e fields ih => rw [normalizeFields, ih, List.map_cons, normalizeField]

theorem ascending_of_ascendingNames {l : List (String × Json)} (h : ascendingNames l = true) :
    Ascending l := by
  induction l with
  | nil => exact List.Pairwise.nil
  | cons a l ih =>
    cases l with
    | nil => exact List.pairwise_singleton _ _
    | cons b l =>
      rw [ascendingNames, Bool.and_eq_true, decide_eq_true_eq] at h
      have htail : Ascending (b :: l) := ih h.2
      have hab : compare a.1 b.1 = .lt := compareOfLessAndEq_eq_lt.2 h.1
      refine List.Pairwise.cons (fun e he => ?_) htail
      rcases List.mem_cons.1 he with rfl | he
      · exact hab
      · exact Std.TransCmp.lt_trans hab (List.rel_of_pairwise_cons htail he)

/-- A canonical document is normalized already. -/
theorem normalize_of_isCanonical {j : Json} (h : j.isCanonical = true) : j.normalize = j := by
  induction j using structural with
  | leaf j harr hobj =>
    cases j with
    | arr l => exact absurd rfl (harr l)
    | obj l => exact absurd rfl (hobj l)
    | _ => rfl
  | arr items ih =>
    rw [isCanonical, itemsCanonical_iff] at h
    rw [normalize, normalizeItems_eq, List.map_congr_left fun j hj => ih j hj (h j hj), List.map_id']
  | obj fields ih =>
    rw [isCanonical, Bool.and_eq_true, fieldsCanonical_iff] at h
    have hfields : (fields.map fun e => (e.1, e.2.normalize)) = fields := by
      rw [List.map_congr_left fun e he => by rw [ih e he (h.2 e he)]]
      exact List.map_id _
    rw [normalize, normalizeFields_eq, hfields,
      SortedMap.toList_ofList_of_ascending (ascending_of_ascendingNames h.1)]

/-! ## Depth -/

theorem depthItems_le_iff {items : List Json} {n : Nat} :
    depthItems items ≤ n ↔ ∀ j ∈ items, j.depth ≤ n := by
  induction items with
  | nil => simp [depthItems]
  | cons j items ih => rw [depthItems, Nat.max_le, ih, List.forall_mem_cons]

theorem depthFields_le_iff {fields : List (String × Json)} {n : Nat} :
    depthFields fields ≤ n ↔ ∀ e ∈ fields, e.2.depth ≤ n := by
  induction fields with
  | nil => simp [depthFields]
  | cons e fields ih => rw [depthFields, Nat.max_le, ih, List.forall_mem_cons, depthField]

theorem depth_lt_of_mem {fields : List (String × Json)} {e : String × Json} (h : e ∈ fields) :
    e.2.depth < (Json.obj fields).depth := by
  have hle := depthFields_le_iff.1 (Nat.le_refl (depthFields fields)) e h
  rw [depth]
  omega

/-- Normalizing drops fields and never nests deeper. -/
theorem depth_normalize_le (j : Json) : j.normalize.depth ≤ j.depth := by
  induction j using structural with
  | leaf j harr hobj =>
    cases j with
    | arr l => exact absurd rfl (harr l)
    | obj l => exact absurd rfl (hobj l)
    | _ => exact Nat.le_refl _
  | arr items ih =>
    have hitems : depthItems (items.map normalize) ≤ depthItems items := by
      refine depthItems_le_iff.2 (List.forall_mem_map.2 fun j hj => Nat.le_trans (ih j hj) ?_)
      exact depthItems_le_iff.1 (Nat.le_refl _) j hj
    rw [normalize, normalizeItems_eq, depth, depth]
    omega
  | obj fields ih =>
    have hfields : depthFields (SortedMap.ofList (fields.map fun e => (e.1, e.2.normalize))).toList ≤
        depthFields fields := by
      refine depthFields_le_iff.2 fun e he => ?_
      obtain ⟨e, hmem, rfl⟩ := List.mem_map.1 (SortedMap.mem_of_mem_toList_ofList he)
      exact Nat.le_trans (ih e hmem) (depthFields_le_iff.1 (Nat.le_refl _) e hmem)
    rw [normalize, normalizeFields_eq, depth, depth]
    omega

end Federation.Json
