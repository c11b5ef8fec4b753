import Federation.Proofs.Except
import Federation.Proofs.SortedMap
import Federation.Selection
import Mathlib.Data.List.Forall2
import Mathlib.Data.List.Induction
/-!
# The nodes of a federated dataset

Whether a node is available changes neither which nodes there are nor whether their data goes together.
Where every record is listed under the name of its node, what is selected later is always part of the
dataset.
-/

namespace Federation

namespace FederatedDataset

/-- Every record is listed under the name of its node. -/
def Named (d : FederatedDataset) : Prop :=
  ∀ node record, d.get? node = some record → record.nodeId = node

variable {d : FederatedDataset}

/-- The dataset with all of its nodes available. -/
def allAvailable (d : FederatedDataset) : FederatedDataset :=
  ⟨d.records.map fun _ r => { r with available := true }⟩

theorem get?_allAvailable (d : FederatedDataset) (node : NodeId) :
    d.allAvailable.get? node = (d.get? node).map fun r => { r with available := true } :=
  SortedMap.find?_map _ _ _

theorem ext_get? {d d' : FederatedDataset} (h : ∀ node, d.get? node = d'.get? node) : d = d' :=
  congrArg FederatedDataset.mk (SortedMap.ext_find? h)

theorem contains_iff {node : NodeId} : d.contains node = true ↔ ∃ record, d.get? node = some record :=
  Option.isSome_iff_exists

theorem mem_records {record : NodeRecord} :
    record ∈ d.records.values ↔ ∃ node, d.get? node = some record := by
  constructor
  · intro h
    obtain ⟨e, he, rfl⟩ := List.mem_map.1 h
    exact ⟨e.1, SortedMap.find?_eq_some_iff.2 he⟩
  · rintro ⟨node, h⟩
    exact List.mem_map.2 ⟨(node, record), SortedMap.find?_eq_some_iff.1 h, rfl⟩

theorem get?_withAvailability (d : FederatedDataset) (id : NodeId) (available : Bool) (node : NodeId) :
    (d.withAvailability id available).get? node =
      (d.get? node).map fun r => if node = id then { r with available } else r := by
  rw [get?, withAvailability, SortedMap.find?_map]
  rfl

theorem contains_withAvailability (d : FederatedDataset) (id : NodeId) (available : Bool)
    (node : NodeId) : (d.withAvailability id available).contains node = d.contains node := by
  show ((d.withAvailability id available).get? node).isSome = (d.get? node).isSome
  rw [get?_withAvailability, Option.isSome_map]

/-- Who is made available is forgotten when all are. -/
theorem allAvailable_withAvailability (d : FederatedDataset) (id : NodeId) (available : Bool) :
    (d.withAvailability id available).allAvailable = d.allAvailable := by
  refine ext_get? fun node => ?_
  rw [get?_allAvailable, get?_allAvailable, get?_withAvailability, Option.map_map]
  congr 1
  funext r
  dsimp only [Function.comp]
  split
  · rfl
  · rfl

theorem nodeIds_withAvailability (d : FederatedDataset) (id : NodeId) (available : Bool) :
    (d.withAvailability id available).nodeIds = d.nodeIds :=
  SortedMap.keys_map _ _

theorem Named.withAvailability (h : d.Named) (id : NodeId) (available : Bool) :
    (d.withAvailability id available).Named := by
  intro node record hr
  rw [get?_withAvailability] at hr
  obtain ⟨record', hr', rfl⟩ := Option.map_eq_some_iff.1 hr
  split
  · exact h node record' hr'
  · exact h node record' hr'

/-- Two lists of records differ at most in what is available. -/
def SameData : List NodeRecord → List NodeRecord → Prop :=
  List.Forall₂ fun r r' => r'.nodeId = r.nodeId ∧ r'.metadata = r.metadata

theorem findSome?_conflict?_of_same {l l' : List NodeRecord} (h : SameData l l')
    (first : DatasetMetadata) :
    l'.findSome? (conflict? first) = l.findSome? (conflict? first) := by
  induction h with
  | nil => rfl
  | cons hr _ ih => simp only [List.findSome?_cons, conflict?, hr.1, hr.2, ih]

theorem sameData_withAvailability (d : FederatedDataset) (id : NodeId) (available : Bool) :
    SameData d.records.values (d.withAvailability id available).records.values := by
  show List.Forall₂ _ (d.records.entries.map Prod.snd) ((d.records.entries.map _).map Prod.snd)
  rw [List.map_map, List.forall₂_map_left_iff, List.forall₂_map_right_iff, List.forall₂_same]
  intro e _
  dsimp only [Function.comp]
  split
  · exact ⟨rfl, rfl⟩
  · exact ⟨rfl, rfl⟩

/-- Whether data goes together does not depend on what is available. -/
theorem checkQuality_withAvailability (d : FederatedDataset) (id : NodeId) (available : Bool) :
    (d.withAvailability id available).checkQuality = d.checkQuality := by
  have hsame := sameData_withAvailability d id available
  rw [checkQuality, checkQuality]
  generalize d.records.values = records at hsame ⊢
  generalize (d.withAvailability id available).records.values = records' at hsame ⊢
  cases hsame with
  | nil => rfl
  | cons hfirst hrest =>
    dsimp only
    rw [hfirst.2, findSome?_conflict?_of_same hrest]

/-- Changes the availability of nodes, one after the other. -/
def withAvailabilities (d : FederatedDataset) (changes : List (NodeId × Bool)) : FederatedDataset :=
  changes.foldl (fun d c => d.withAvailability c.1 c.2) d

/-- A change at the end is the last one to be made. -/
theorem withAvailabilities_append (d : FederatedDataset) (changes : List (NodeId × Bool))
    (c : NodeId × Bool) :
    d.withAvailabilities (changes ++ [c]) = (d.withAvailabilities changes).withAvailability c.1 c.2 := by
  rw [withAvailabilities, List.foldl_append]
  rfl

/-- Of several changes of a node the last one counts. -/
theorem get?_withAvailabilities (d : FederatedDataset) (changes : List (NodeId × Bool)) (node : NodeId) :
    (d.withAvailabilities changes).get? node =
      (d.get? node).map fun r => { r with available := (changes.reverse.lookup node).getD r.available } := by
  induction changes using List.reverseRecOn with
  | nil =>
    show d.get? node = _
    cases d.get? node <;> rfl
  | append_singleton changes c ih =>
    rw [withAvailabilities_append, get?_withAvailability, ih, Option.map_map, List.reverse_append]
    congr 1
    funext r
    show (if node = c.1 then _ else _) =
      { r with available := (List.lookup node (c :: changes.reverse)).getD _ }
    by_cases h : node = c.1
    · rw [if_pos h, List.lookup_cons, beq_iff_eq.2 h]
      rfl
    · rw [if_neg h, List.lookup_cons, beq_false_of_ne h]

theorem Named.withAvailabilities {d : FederatedDataset} (h : d.Named) (changes : List (NodeId × Bool)) :
    (d.withAvailabilities changes).Named := by
  intro node record hr
  rw [get?_withAvailabilities] at hr
  obtain ⟨record', hr', rfl⟩ := Option.map_eq_some_iff.1 hr
  exact h node record' hr'

theorem checkQuality_withAvailabilities (d : FederatedDataset) (changes : List (NodeId × Bool)) :
    (d.withAvailabilities changes).checkQuality = d.checkQuality := by
  induction changes using List.reverseRecOn with
  | nil => rfl
  | append_singleton changes c ih =>
    rw [withAvailabilities_append, checkQuality_withAvailability, ih]

end FederatedDataset

namespace Strategy

variable {R : Type} {d : FederatedDataset}

/-- The available nodes, if every record is listed under the name of its node. -/
theorem mem_availableNodes (h : d.Named) {node : NodeId} :
    node ∈ (availableNodes d).keys ↔ ∃ record, d.get? node = some record ∧ record.available = true := by
  rw [availableNodes, SortedMap.mem_keys_setOf, List.mem_map]
  constructor
  · rintro ⟨record, hmem, rfl⟩
    obtain ⟨hlisted, havailable⟩ := List.mem_filter.1 hmem
    obtain ⟨key, hfound⟩ := FederatedDataset.mem_records.1 hlisted
    refine ⟨record, ?_, havailable⟩
    rw [h key record hfound, hfound]
  · rintro ⟨record, hfound, havailable⟩
    exact ⟨record, List.mem_filter.2 ⟨FederatedDataset.mem_records.2 ⟨node, hfound⟩, havailable⟩,
      h node record hfound⟩

theorem select_eq_ok {s : Strategy R} {round : RoundNumber} {states : NodeStates R} {selected : NameSet} :
    s.select round d states = .ok selected ↔
      s.selected round d states = .ok selected ∧ selected.keys ≠ [] := by
  simp only [select, bind_eq_ok, guard_eq_ok, pure, Except.pure, Except.ok.injEq, ne_eq,
    SortedMap.isEmpty_iff]
  constructor
  · rintro ⟨nodes, hnodes, hsome, rfl⟩
    exact ⟨hnodes, hsome⟩
  · rintro ⟨hnodes, hsome⟩
    exact ⟨selected, hnodes, hsome, rfl⟩

/-- Only nodes of the dataset are selected. -/
theorem contains_of_select (h : d.Named) {s : Strategy R} {round : RoundNumber} {states : NodeStates R}
    {selected : NameSet} (hs : s.select round d states = .ok selected) {node : NodeId}
    (hn : node ∈ selected.keys) : d.contains node = true := by
  obtain ⟨hnodes, -⟩ := select_eq_ok.1 hs
  cases s with
  | allAvailable =>
    obtain rfl := Except.ok.inj hnodes
    obtain ⟨record, hfound, -⟩ := (mem_availableNodes h).1 hn
    exact FederatedDataset.contains_iff.2 ⟨record, hfound⟩
  | custom name choose =>
    rw [Strategy.selected] at hnodes
    split at hnodes
    · contradiction
    next hnone =>
      obtain rfl := Except.ok.inj hnodes
      rw [SortedMap.mem_keys_setOf] at hn
      simpa using List.find?_eq_none.1 hnone node hn

end Strategy

end Federation
