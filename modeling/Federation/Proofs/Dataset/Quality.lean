import Federation.Proofs.Dataset
/-!
# Data that goes together

The check of a dataset compares every record with the first one. Going together is an equivalence of what
the nodes hold, so this compares any two records, and only what is held counts: not the names of the
nodes, not their order, and not who is available.
-/

namespace Federation

/-- Two datasets go together: they are of one kind, and tables agree on their columns. -/
structure GoTogether (m m' : DatasetMetadata) : Prop where
  dataType : m'.dataType = m.dataType
  -- A shape without a second entry goes with another one without it.
  columns : m.dataType = "csv" → m'.shape[1]? = m.shape[1]?
  dtypes : m.dataType = "csv" → m'.dtypes = m.dtypes

theorem equivalence_goTogether : Equivalence GoTogether where
  refl _ := ⟨rfl, fun _ => rfl, fun _ => rfl⟩
  symm h :=
    ⟨h.dataType.symm, fun hcsv => (h.columns (h.dataType ▸ hcsv)).symm,
      fun hcsv => (h.dtypes (h.dataType ▸ hcsv)).symm⟩
  trans h h' :=
    -- whatever the one kind asks for, the other one asks for as well
    ⟨h'.dataType.trans h.dataType,
      fun hcsv => (h'.columns (h.dataType.trans hcsv)).trans (h.columns hcsv),
      fun hcsv => (h'.dtypes (h.dataType.trans hcsv)).trans (h.dtypes hcsv)⟩

namespace FederatedDataset

variable {d d' : FederatedDataset}

/-! ## 1. The check -/

/-- A record has no conflict with the data that it goes together with. -/
theorem conflict?_eq_none_iff {first : DatasetMetadata} {r : NodeRecord} :
    conflict? first r = none ↔ GoTogether first r.metadata := by
  constructor
  · intro h
    rw [conflict?] at h
    split at h
    · contradiction
    next hkind =>
      split at h
      next hcsv => exact ⟨not_not.1 hkind, fun h => absurd h hcsv, fun h => absurd h hcsv⟩
      · split at h
        · contradiction
        next hcolumns =>
          split at h
          · contradiction
          next hdtypes => exact ⟨not_not.1 hkind, fun _ => not_not.1 hcolumns, fun _ => not_not.1 hdtypes⟩
  · intro h
    rw [conflict?, if_neg (not_not_intro h.dataType)]
    by_cases hcsv : first.dataType = "csv"
    · rw [if_neg (not_not_intro hcsv), if_neg (not_not_intro (h.columns hcsv)),
        if_neg (not_not_intro (h.dtypes hcsv))]
    · rw [if_pos hcsv]

/-- The check of records that come in any order. -/
def checkRecords : List NodeRecord → Except DatasetError Unit
  | [] => .ok ()
  | first :: rest =>
    match rest.findSome? (conflict? first.metadata) with
    | some reason => .error (.dataQuality reason)
    | none => .ok ()

theorem checkQuality_eq (d : FederatedDataset) : d.checkQuality = checkRecords d.records.values := rfl

/-- Any two of the records go together. -/
def AllTogether (records : List NodeRecord) : Prop :=
  ∀ r ∈ records, ∀ r' ∈ records, GoTogether r.metadata r'.metadata

/-- To go with the first record is to go with one another. -/
theorem checkRecords_eq_ok {records : List NodeRecord} :
    checkRecords records = .ok () ↔ AllTogether records := by
  cases records with
  | nil => exact ⟨fun _ => List.forall_mem_nil _, fun _ => rfl⟩
  | cons first rest =>
    have hfirst : checkRecords (first :: rest) = .ok () ↔
        ∀ r ∈ first :: rest, GoTogether first.metadata r.metadata := by
      rw [List.forall_mem_cons, checkRecords]
      simp only [← conflict?_eq_none_iff, ← List.findSome?_eq_none_iff]
      cases hfound : rest.findSome? (conflict? first.metadata) with
      | some reason => exact ⟨nofun, fun h => nomatch h.2⟩
      | none => exact ⟨fun _ => ⟨conflict?_eq_none_iff.2 (equivalence_goTogether.refl _), rfl⟩, fun _ => rfl⟩
    rw [hfirst]
    constructor
    · intro h r hr r' hr'
      exact equivalence_goTogether.trans (equivalence_goTogether.symm (h r hr)) (h r' hr')
    · intro h r hr
      exact h first List.mem_cons_self r hr

/-! ## 2. What the verdict depends on -/

/-- Whatever a node of the one dataset holds, a node of the other one holds. -/
def HeldBy (d' d : FederatedDataset) : Prop :=
  ∀ r' ∈ d'.records.values, ∃ r ∈ d.records.values, r.metadata = r'.metadata

/-- Where nothing else is held, everything goes together if it did. -/
theorem HeldBy.checkQuality (h : d'.HeldBy d) (hd : d.checkQuality = .ok ()) : d'.checkQuality = .ok () := by
  rw [checkQuality_eq, checkRecords_eq_ok] at hd ⊢
  intro r hr r' hr'
  obtain ⟨s, hs, hrs⟩ := h r hr
  obtain ⟨s', hs', hrs'⟩ := h r' hr'
  rw [← hrs, ← hrs']
  exact hd s hs s' hs'

/-- The dataset with other names of its nodes. -/
def rename (d : FederatedDataset) (f : NodeId → NodeId) : FederatedDataset :=
  ⟨.ofList (d.records.toList.map fun e => (f e.1, { e.2 with nodeId := f e.2.nodeId }))⟩

/-- No two nodes get one name. -/
def Separates (d : FederatedDataset) (f : NodeId → NodeId) : Prop :=
  ∀ node ∈ d.nodeIds, ∀ node' ∈ d.nodeIds, f node = f node' → node = node'

instance (d : FederatedDataset) (f : NodeId → NodeId) : Decidable (d.Separates f) :=
  inferInstanceAs (Decidable (∀ node ∈ d.nodeIds, ∀ node' ∈ d.nodeIds, f node = f node' → node = node'))

theorem mem_records_rename {f : NodeId → NodeId} (hf : d.Separates f) {record : NodeRecord} :
    record ∈ (d.rename f).records.values ↔
      ∃ r ∈ d.records.values, record = { r with nodeId := f r.nodeId } := by
  have hkeys : (d.records.toList.map fun e => (f e.1, { e.2 with nodeId := f e.2.nodeId })).map Prod.fst =
      d.nodeIds.map f := by
    simp [nodeIds, SortedMap.keys, SortedMap.toList]
  have hnodup := hkeys ▸ List.Nodup.map_on hf d.records.nodup_keys
  rw [mem_records]
  constructor
  · rintro ⟨node, hfound⟩
    obtain ⟨e, he, heq⟩ := List.mem_map.1 ((SortedMap.find?_ofList_of_nodup hnodup).1 hfound)
    exact ⟨e.2, List.mem_map.2 ⟨e, he, rfl⟩, (Prod.mk.inj heq).2.symm⟩
  · rintro ⟨r, hr, rfl⟩
    obtain ⟨e, he, rfl⟩ := List.mem_map.1 hr
    exact ⟨f e.1, (SortedMap.find?_ofList_of_nodup hnodup).2 (List.mem_map.2 ⟨e, he, rfl⟩)⟩

theorem checkQuality_rename {f : NodeId → NodeId} (hf : d.Separates f) :
    (d.rename f).checkQuality = .ok () ↔ d.checkQuality = .ok () := by
  constructor
  · refine HeldBy.checkQuality fun r hr => ?_
    exact ⟨_, (mem_records_rename hf).2 ⟨r, hr, rfl⟩, rfl⟩
  · refine HeldBy.checkQuality fun r' hr' => ?_
    obtain ⟨r, hr, rfl⟩ := (mem_records_rename hf).1 hr'
    exact ⟨r, hr, rfl⟩

/-- The one dataset consists of nodes of the other one. -/
def Within (d' d : FederatedDataset) : Prop :=
  ∀ node record, d'.get? node = some record → d.get? node = some record

theorem Within.heldBy (h : d'.Within d) : d'.HeldBy d := by
  intro r hr
  obtain ⟨node, hfound⟩ := mem_records.1 hr
  exact ⟨r, mem_records.2 ⟨node, h node r hfound⟩, rfl⟩

end FederatedDataset

open FederatedDataset in
/-- The check of a dataset succeeds if and only if the data of any two of its nodes goes together.
Whichever record comes first does not matter, and neither do the names of the nodes and who is available.
What goes together does so without some of the nodes. -/
theorem quality_is_pairwise (d : FederatedDataset) :
    (d.checkQuality = .ok () ↔ ∀ node record node' record', d.get? node = some record →
      d.get? node' = some record' → GoTogether record.metadata record'.metadata) ∧
    (∀ records, records.Perm d.records.values →
      (checkRecords records = .ok () ↔ d.checkQuality = .ok ())) ∧
    (∀ f, d.Separates f → ((d.rename f).checkQuality = .ok () ↔ d.checkQuality = .ok ())) ∧
    (∀ changes, (d.withAvailabilities changes).checkQuality = d.checkQuality) ∧
    ∀ d' : FederatedDataset, d'.Within d → d.checkQuality = .ok () → d'.checkQuality = .ok () := by
  refine ⟨?_, fun records hperm => ?_, fun f hf => checkQuality_rename hf,
    checkQuality_withAvailabilities d, fun d' hd' => hd'.heldBy.checkQuality⟩
  · rw [checkQuality_eq, checkRecords_eq_ok]
    constructor
    · intro h node record node' record' hfound hfound'
      exact h record (mem_records.2 ⟨node, hfound⟩) record' (mem_records.2 ⟨node', hfound'⟩)
    · intro h record hrecord record' hrecord'
      obtain ⟨node, hfound⟩ := mem_records.1 hrecord
      obtain ⟨node', hfound'⟩ := mem_records.1 hrecord'
      exact h node record node' record' hfound hfound'
  · simp only [checkQuality_eq, checkRecords_eq_ok, AllTogether, hperm.mem_iff]

/-- Two tables of different lengths. -/
def tables : FederatedDataset :=
  ⟨.ofList [("left", .ofMetadata "left" ⟨"short", [], 10, "csv", [10, 2], ["int", "float"]⟩),
    ("right", .ofMetadata "right" ⟨"long", [], 20, "csv", [20, 2], ["int", "float"]⟩)]⟩

/-- The names of two nodes, exchanged. -/
def exchanged (node : NodeId) : NodeId := if node = "left" then "right" else "left"

open FederatedDataset in
theorem quality_is_pairwise_tables :
    (tables.rename exchanged).nodeIds = ["left", "right"] ∧ (tables.rename exchanged).checkQuality = .ok () ∧
      (⟨tables.records.erase "left"⟩ : FederatedDataset).checkQuality = .ok () ∧
      checkRecords tables.records.values.reverse = .ok () ∧
      ∃ left right, tables.get? "left" = some left ∧ tables.get? "right" = some right ∧
        GoTogether left.metadata right.metadata := by
  obtain ⟨hpairs, horder, hnames, -, hwithin⟩ := quality_is_pairwise tables
  have hgood : tables.checkQuality = .ok () := by decide +kernel
  refine ⟨by decide +kernel, (hnames exchanged (by decide +kernel)).2 hgood,
    hwithin _ (fun node record hr => ?_) hgood, (horder _ (List.reverse_perm _)).2 hgood, _, _, rfl, rfl,
    hpairs.1 hgood "left" _ "right" _ rfl rfl⟩
  rw [FederatedDataset.get?, SortedMap.find?_erase] at hr
  split at hr
  · contradiction
  · exact hr

end Federation
