import Mathlib.Algebra.Module.Defs
import Federation.Aggregation.Scaffold
import Federation.Proofs.Aggregation.Mean
/-!
# What controlled averaging does to the control variates

In exact arithmetic a round moves the global control variate by the mean, over the whole federation, of
the moves of the participants' ones. The drifts of the nodes do not enter: whatever the participants
return, only how far each control variate moves counts.
-/

namespace Federation

/-- The control variate of a node, which is zero for a node that never took part. -/
def NodeStates.control (states : NodeStates ℚ) (global : Parameters ℚ) (node : NodeId) : Parameters ℚ :=
  Scaffold.controlOrZero (states.stateFor node).controlVariate global

namespace Scaffold

/-- The global control variate, which is zero before the first round. -/
def control (s : Scaffold ℚ) (global : Parameters ℚ) : Parameters ℚ :=
  controlOrZero s.globalControl global

/-- What becomes of the state of a node that gets a new control variate. -/
def renewed (states : NodeStates ℚ) (node : NodeId) (control : Parameters ℚ) : NodeState ℚ :=
  { states.stateFor node with controlVariate := some control }

/-- How far some nodes move their control variates at a position, all together. -/
def movement (states : NodeStates ℚ) (global : Parameters ℚ) (k : ℕ)
    (new : List (NodeId × Parameters ℚ)) : ℚ :=
  (new.map fun e => e.2.coordinate k - (states.control global e.1).coordinate k).sum

/-! ## 1. Visits -/

/-- What visiting nodes adds to the progress of a round, in terms of their new control variates. -/
structure Visited (t : Step ℚ) (new : List (NodeId × Parameters ℚ)) (p p' : Progress ℚ) : Prop where
  states : p'.states = (new.map fun e => (e.1, renewed t.states e.1 e.2)).reverse ++ p.states
  layouts : ∀ e ∈ new, e.2.layout = (t.states.control t.x e.1).layout
  global : p'.global.layout = p.global.layout
  change : ∀ k, p'.controlChange.coordinate k =
    p.controlChange.coordinate k + t.part * movement t.states t.x k new

theorem Visited.refl (t : Step ℚ) (p : Progress ℚ) : Visited t [] p p where
  states := rfl
  layouts := List.forall_mem_nil _
  global := rfl
  change k := by simp [movement]

theorem Visited.trans {t : Step ℚ} {new new' : List (NodeId × Parameters ℚ)} {p₁ p₂ p₃ : Progress ℚ}
    (h : Visited t new p₁ p₂) (h' : Visited t new' p₂ p₃) : Visited t (new ++ new') p₁ p₃ where
  states := by
    rw [h'.states, h.states, List.map_append, List.reverse_append, List.append_assoc]
  layouts := List.forall_mem_append.2 ⟨h.layouts, h'.layouts⟩
  global := h'.global.trans h.global
  change k := by
    rw [h'.change, h.change, movement, movement, movement, List.map_append, List.sum_append]
    ring

theorem visited_of_visit {t : Step ℚ} {p p' : Progress ℚ} {node : NodeId} {u : NodeUpdate ℚ}
    (h : visit t p node u = .ok p') : ∃ new, Visited t [(node, new)] p p' := by
  simp only [visit, bind_eq_ok, pure, Except.pure, Except.ok.injEq] at h
  obtain ⟨delta, -, global, hglobal, drift, -, difference, hdifference, new, hnew, change, hchange,
    controlChange, hcontrol, rfl⟩ := h
  refine ⟨new, rfl, List.forall_mem_singleton.2 ?_, (Parameters.layout_of_zipWith hglobal).2, fun k => ?_⟩
  · -- the new control variate is combined from the old one
    exact (Parameters.layout_of_zipWith hnew).2.trans (Parameters.layout_of_zipWith hdifference).2
  · have hmoved := Parameters.coordinate_zipWith (sub_zero 0) hchange k
    rw [Parameters.coordinate_zipWith (by simp) hcontrol, hmoved, movement, List.map_singleton,
      List.sum_singleton]
    rfl

theorem visited_of_visitAll {t : Step ℚ} {l : List (NodeId × NodeUpdate ℚ)} {p p' : Progress ℚ}
    (h : visitAll t l p = .ok p') :
    ∃ new, new.map Prod.fst = l.map Prod.fst ∧ Visited t new p p' := by
  induction l generalizing p with
  | nil =>
    obtain rfl := Except.ok.inj h
    exact ⟨[], rfl, Visited.refl t p⟩
  | cons e l ih =>
    rw [visitAll, bind_eq_ok] at h
    obtain ⟨p₁, hvisit, hrest⟩ := h
    obtain ⟨first, hfirst⟩ := visited_of_visit (mapError_eq_ok.1 hvisit)
    obtain ⟨new, hkeys, hvisited⟩ := ih hrest
    exact ⟨(e.1, first) :: new, congrArg (e.1 :: ·) hkeys, hfirst.trans hvisited⟩

/-! ## 2. Rounds -/

/-- What a round makes of the control variates, given the new ones of its participants. -/
structure Moved (s s' : Scaffold ℚ) (i : AggregationInput ℚ) (new : NameMap (Parameters ℚ))
    (r : Combined ℚ) : Prop where
  keys : new.keys = i.results.keys
  layouts : ∀ e ∈ new.toList, e.2.layout = (i.nodeStates.control i.previous e.1).layout
  nodeStates : ∀ node, r.nodeStates.find? node = (new.find? node).map (renewed i.nodeStates node)
  global : r.global.layout = i.previous.layout
  control : ∃ c, s' = { s with globalControl := some c } ∧
    c.layout = (s.control i.previous).layout ∧
    ∀ k, c.coordinate k = (s.control i.previous).coordinate k +
      movement i.nodeStates i.previous k new.toList / (max i.federationSize i.results.size : ℕ)

theorem moved_of_aggregate {s s' : Scaffold ℚ} {i : AggregationInput ℚ} {r : Combined ℚ}
    (h : s.aggregate i = .ok (r, s')) : ∃ new, Moved s s' i new r := by
  obtain ⟨updates, lr, total, p, control, -, -, -, -, hvisit, hcontrol, rfl, rfl⟩ := aggregate_eq_ok.1 h
  obtain ⟨l, hkeys, hvisited⟩ := visited_of_visitAll hvisit
  rw [stepOf] at hvisited
  -- the nodes are visited in ascending order, so their control variates are listed as in a map
  have hascending : Ascending l := SortedMap.Ascending.of_keys hkeys i.results.ascending
  have hlist := SortedMap.toList_ofList_of_ascending hascending
  refine ⟨.ofList l, ?_, ?_, fun node => ?_, hvisited.global, control, rfl,
    (Parameters.layout_of_zipWith hcontrol).2, fun k => ?_⟩
  · exact (congrArg (List.map Prod.fst) hlist).trans hkeys
  · rw [hlist]
    exact hvisited.layouts
  · show (SortedMap.ofList p.states).find? node = _
    have hstates : SortedMap.ofList p.states = (SortedMap.ofList l).map (renewed i.nodeStates) := by
      have hnodup : ((l.map fun e => (e.1, renewed i.nodeStates e.1 e.2)).map Prod.fst).Nodup := by
        rw [List.map_map]
        exact hkeys ▸ i.results.nodup_keys
      have hentries : ((SortedMap.ofList l).map (renewed i.nodeStates)).toList =
          l.map fun e => (e.1, renewed i.nodeStates e.1 e.2) :=
        congrArg (List.map fun e : NodeId × Parameters ℚ => (e.1, renewed i.nodeStates e.1 e.2)) hlist
      rw [hvisited.states, List.append_nil, ← SortedMap.ofList_of_perm (List.reverse_perm _).symm hnodup,
        ← hentries, SortedMap.ofList_toList]
    rw [hstates, SortedMap.find?_map]
  · rw [Parameters.coordinate_zipWith (add_zero 0) hcontrol, hvisited.change,
      Parameters.coordinate_zerosLike, zero_add, hlist, one_div_mul_eq_div]
    rfl

/-! ## 3. Balance -/

/-- Only the keys of a map contribute to a sum over its entries, so it may run over more keys. -/
theorem sum_elim_find? {α : Type} {m : NameMap α} {names : List String} (hnames : names.Nodup)
    (hkeys : m.keys ⊆ names) (g : String → α → ℚ) :
    (names.map fun name => (m.find? name).elim 0 (g name)).sum = (m.toList.map fun e => g e.1 e.2).sum := by
  have hentries : m.toList.map (fun e => g e.1 e.2) =
      m.keys.map fun name => (m.find? name).elim 0 (g name) := by
    rw [SortedMap.keys, List.map_map]
    refine List.map_congr_left fun e he => ?_
    show _ = (m.find? e.1).elim 0 (g e.1)
    rw [SortedMap.find?_eq_some_iff.2 he]
    rfl
  have hsubset : m.keys.toFinset ⊆ names.toFinset := by
    intro name hname
    rw [List.mem_toFinset] at hname ⊢
    exact hkeys hname
  rw [hentries, ← List.sum_toFinset _ hnames, ← List.sum_toFinset _ m.nodup_keys]
  refine (Finset.sum_subset hsubset fun name _ hname => ?_).symm
  rw [List.mem_toFinset, SortedMap.mem_keys_iff_isSome, Option.not_isSome_iff_eq_none] at hname
  rw [hname]
  rfl

/-- The control variates of some nodes are balanced: together they are as many times the global one as
there are nodes. -/
structure Balanced (s : Scaffold ℚ) (states : NodeStates ℚ) (global : Parameters ℚ)
    (nodes : List NodeId) : Prop where
  layouts : ∀ node, (states.control global node).layout = global.layout
  layout : (s.control global).layout = global.layout
  mean : ∀ k, (nodes.length : ℚ) * (s.control global).coordinate k =
    (nodes.map fun node => (states.control global node).coordinate k).sum

/-- Where a control variate is missing it does not matter for which parameters it stands. -/
theorem coordinate_controlOrZero (control : Option (Parameters ℚ)) (global global' : Parameters ℚ)
    (k : ℕ) :
    (controlOrZero control global').coordinate k = (controlOrZero control global).coordinate k := by
  cases control with
  | none =>
    show global'.zerosLike.coordinate k = global.zerosLike.coordinate k
    rw [Parameters.coordinate_zerosLike, Parameters.coordinate_zerosLike]
  | some c => rfl

theorem layout_controlOrZero_of_layout {control : Option (Parameters ℚ)} {global global' : Parameters ℚ}
    (h : (controlOrZero control global).layout = global.layout) (hglobal : global'.layout = global.layout) :
    (controlOrZero control global').layout = global'.layout := by
  cases control with
  | none => exact Parameters.layout_zerosLike global'
  | some c => exact h.trans hglobal.symm

variable {s s' : Scaffold ℚ} {states states' : NodeStates ℚ} {global global' : Parameters ℚ}
  {nodes : List NodeId}

/-- At first all control variates are zero. -/
theorem balanced_start (serverLr : ℚ) (global : Parameters ℚ) (nodes : List NodeId) :
    Balanced { serverLr } .empty global nodes where
  layouts _ := Parameters.layout_zerosLike global
  layout := Parameters.layout_zerosLike global
  mean k := by
    have hzero : ∀ node, ((NodeStates.empty : NodeStates ℚ).control global node).coordinate k = 0 :=
      fun _ => Parameters.coordinate_zerosLike global k
    have hglobal : (({ serverLr } : Scaffold ℚ).control global).coordinate k = 0 :=
      Parameters.coordinate_zerosLike global k
    simp only [hzero, hglobal, mul_zero, List.map_const', List.sum_replicate, smul_zero]

/-- If some nodes get new control variates, the sum over all nodes moves as far as these do. -/
theorem sum_control_of_renewed {new : NameMap (Parameters ℚ)} (hnodes : nodes.Nodup)
    (hkeys : new.keys ⊆ nodes)
    (hstates : ∀ node, (states'.stateFor node).controlVariate =
      (new.find? node).or (states.stateFor node).controlVariate) (k : ℕ) :
    (nodes.map fun node => (states'.control global' node).coordinate k).sum =
      (nodes.map fun node => (states.control global node).coordinate k).sum +
        movement states global k new.toList := by
  have hnode : ∀ node, (states'.control global' node).coordinate k =
      (states.control global node).coordinate k + (new.find? node).elim 0
        fun c => c.coordinate k - (states.control global node).coordinate k := by
    intro node
    rw [NodeStates.control, hstates]
    cases new.find? node with
    | none => exact (coordinate_controlOrZero _ _ _ k).trans (add_zero _).symm
    | some c => exact (add_sub_cancel _ _).symm
  have hmoved := sum_elim_find? hnodes hkeys fun node c =>
    c.coordinate k - (states.control global node).coordinate k
  simp only [hnode, List.sum_map_add, hmoved, movement]

/-- A round keeps the balance, if no other nodes take part than those that count. -/
theorem Balanced.moved {i : AggregationInput ℚ} {new : NameMap (Parameters ℚ)} {r : Combined ℚ}
    (h : Balanced s i.nodeStates i.previous nodes) (hmoved : Moved s s' i new r) (hnodes : nodes.Nodup)
    (hkeys : new.keys ⊆ nodes) (hsize : i.federationSize = nodes.length)
    (hstates : ∀ node, (states'.stateFor node).controlVariate =
      (new.find? node).or (i.nodeStates.stateFor node).controlVariate)
    (hglobal : global'.layout = i.previous.layout) : Balanced s' states' global' nodes := by
  obtain ⟨c, rfl, hlayout, hcontrol⟩ := hmoved.control
  refine ⟨fun node => ?_, (hlayout.trans h.layout).trans hglobal.symm, fun k => ?_⟩
  · rw [NodeStates.control, hstates]
    cases hn : new.find? node with
    | none => exact layout_controlOrZero_of_layout (h.layouts node) hglobal
    | some c' =>
      have hc' := hmoved.layouts (node, c') (SortedMap.find?_eq_some_iff.1 hn)
      exact (hc'.trans (h.layouts node)).trans hglobal.symm
  · -- the results are among the nodes, so the movement is divided by the number of the nodes
    have hresults : i.results.size ≤ nodes.length := by
      have hle := (hmoved.keys ▸ new.nodup_keys).subperm (hmoved.keys ▸ hkeys)
      simpa [SortedMap.keys, SortedMap.size] using hle.length_le
    rw [sum_control_of_renewed hnodes hkeys hstates, ← h.mean]
    show (nodes.length : ℚ) * c.coordinate k = _
    rw [hcontrol, hsize, max_eq_left hresults, mul_add]
    congr 1
    cases nodes with
    | nil =>
      have hnone : new.toList = [] := List.map_eq_nil_iff.1 (List.subset_nil.1 hkeys)
      simp [hnone, movement]
    | cons node rest => exact mul_div_cancel₀ _ (by simp; positivity)

/-- If the control variates are balanced, the corrections which the nodes would be sent cancel. -/
theorem Balanced.corrections (h : Balanced s states global nodes) :
    ∃ corrections : NodeId → Parameters ℚ,
      (∀ node, s.auxVarsFor node states global = .ok (.ofList [(correction, corrections node)])) ∧
      ∀ k, (nodes.map fun node => (corrections node).coordinate k).sum = 0 := by
  have hcorrection : ∀ node, ∃ d,
      (s.control global).zipWith (states.control global node) (fun a b => a - b) = .ok d := by
    intro node
    obtain ⟨d, hd, -⟩ := Parameters.zipWith_of_layout (h.layout.trans (h.layouts node).symm)
      fun a b => a - b
    exact ⟨d, hd⟩
  choose corrections hcorrections using hcorrection
  refine ⟨corrections, fun node => ?_, fun k => ?_⟩
  · exact bind_eq_ok.2 ⟨_, mapError_eq_ok.2 (hcorrections node), rfl⟩
  · have hcoordinate : ∀ node, (s.control global).coordinate k =
        (corrections node).coordinate k + (states.control global node).coordinate k := by
      intro node
      rw [Parameters.coordinate_zipWith (sub_zero 0) (hcorrections node) k, sub_add_cancel]
    have htotal : (nodes.length : ℚ) * (s.control global).coordinate k =
        (nodes.map fun node => (corrections node).coordinate k).sum +
          (nodes.map fun node => (states.control global node).coordinate k).sum := by
      rw [← List.sum_map_add, ← List.map_congr_left fun node _ => hcoordinate node, List.map_const',
        List.sum_replicate, nsmul_eq_mul]
    rwa [h.mean, right_eq_add] at htotal

end Scaffold

end Federation
