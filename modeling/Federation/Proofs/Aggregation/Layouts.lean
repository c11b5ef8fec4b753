import Federation.Aggregation.Aggregator
import Federation.Optimizer
import Federation.Proofs.Except
import Federation.Proofs.Parameters
/-!
# Layouts in an aggregation

An aggregation combines parameters with control variates and with the moments of an optimizer. Where all
of these have one layout, so have the results, and the only thing that can be wrong with a layout is that
of parameters which a node returned.
-/

namespace Federation

variable {R : Type}

/-- The control variate of a node has a layout, if there is one. -/
def NodeState.Uniform (state : NodeState R) (layout : NameMap Nat) : Prop :=
  ∀ control, state.controlVariate = some control → control.layout = layout

/-- Every control variate that is known of a node has a layout. -/
def NodeStates.Uniform (states : NodeStates R) (layout : NameMap Nat) : Prop :=
  ∀ node, (states.stateFor node).Uniform layout

theorem NodeStates.uniform_of_find? {states : NodeStates R} {layout : NameMap Nat}
    (h : ∀ node state, states.states.find? node = some state → state.Uniform layout) :
    states.Uniform layout := by
  intro node
  rw [stateFor]
  cases hfind : states.states.find? node with
  | none => exact nofun
  | some state => exact h node state hfind

/-- The parameters that an aggregator keeps between rounds. -/
def Aggregator.state : Aggregator R → List (Parameters R)
  | fedAverage => []
  | scaffold s => s.globalControl.toList

/-- The new parameters and whatever an aggregation leaves for the next round have a layout. -/
structure Aggregated.Uniform (r : Aggregated R) (layout : NameMap Nat) : Prop where
  global : r.global.layout = layout
  nodeStates : ∀ node state, r.nodeStates.find? node = some state → state.Uniform layout
  aggregator : ∀ control ∈ r.aggregator.state, control.layout = layout

/-- What an aggregation may fail of: if it blames a layout, then that of parameters which the named node
returned and which differ from a reference. -/
def AggregationError.Justified (returned : NodeId → Parameters R → Prop) (reference : Parameters R) :
    AggregationError → Prop
  | shapeMismatch node e => ∃ p, returned node p ∧ reference.mismatch? p = some e
  | optimizerState _ => False
  | _ => True

theorem AggregationError.Justified.mono {returned returned' : NodeId → Parameters R → Prop}
    {reference : Parameters R} {e : AggregationError} (h : e.Justified returned reference)
    (hr : ∀ node p, returned node p → returned' node p) : e.Justified returned' reference := by
  cases e with
  | shapeMismatch node e =>
    obtain ⟨p, hp, he⟩ := h
    exact ⟨p, hr node p hp, he⟩
  | optimizerState e => exact h
  | _ => trivial

/-- A node is among the results with some parameters. -/
def Returned (results : NameMap (NodeUpdate R)) (node : NodeId) (p : Parameters R) : Prop :=
  ∃ u, results.find? node = some u ∧ u.params = p

/-! ## 1. The results of a round -/

theorem yields_totalSamples (results : NameMap (NodeUpdate R)) (reference : Parameters R) :
    Yields (fun _ => True) (AggregationError.Justified (Returned results) reference)
      (totalSamples results) := by
  unfold totalSamples
  split
  · trivial
  · dsimp only
    split
    · trivial
    · split <;> trivial

theorem checkShapes_eq_ok {results : NameMap (NodeUpdate R)} {reference : Parameters R} :
    checkShapes results reference = .ok () ↔
      ∀ e ∈ results.toList, e.2.params.layout = reference.layout := by
  have hnone : checkShapes results reference = .ok () ↔ results.toList.findSome? (fun e =>
      (reference.mismatch? e.2.params).map (AggregationError.shapeMismatch e.1)) = none := by
    rw [checkShapes]
    split
    next e he => simp [he]
    next hn => simp [hn]
  rw [hnone, List.findSome?_eq_none_iff]
  simp only [Option.map_eq_none_iff, Parameters.mismatch?_eq_none, eq_comm (a := reference.layout)]

theorem yields_checkShapes (results : NameMap (NodeUpdate R)) (reference : Parameters R) :
    Yields (fun _ => ∀ e ∈ results.toList, e.2.params.layout = reference.layout)
      (AggregationError.Justified (Returned results) reference) (checkShapes results reference) := by
  cases h : checkShapes results reference with
  | ok u => exact checkShapes_eq_ok.1 h
  | error e =>
    rw [checkShapes] at h
    split at h
    next e' he =>
      obtain rfl := Except.error.inj h
      obtain ⟨⟨node, u⟩, hmem, hmap⟩ := List.exists_of_findSome?_eq_some he
      obtain ⟨e', hmismatch, rfl⟩ := Option.map_eq_some_iff.1 hmap
      exact ⟨u.params, ⟨u, SortedMap.find?_eq_some_iff.2 hmem, rfl⟩, hmismatch⟩
    next => contradiction

theorem uniform_of_mem_carryOver {states : NodeStates R} {layout : NameMap Nat}
    (hs : states.Uniform layout) (participants : List NodeId) (node : NodeId) (state : NodeState R)
    (h : (carryOver participants states).find? node = some state) : state.Uniform layout := by
  obtain ⟨node', -, heq⟩ := List.mem_map.1 (SortedMap.mem_of_find?_ofList h)
  obtain ⟨-, rfl⟩ := Prod.mk.inj heq
  exact hs node'

variable [Scalar R]

/-! ## 2. Federated averaging -/

namespace FedAverage

theorem accumulate_of_layout (total : UInt64) {l : List (NodeId × NodeUpdate R)} {s : Parameters R}
    {layout : NameMap Nat} (hs : s.layout = layout) (hl : ∀ e ∈ l, e.2.params.layout = layout) :
    ∃ p, accumulate total l s = .ok p ∧ p.layout = layout := by
  induction l generalizing s with
  | nil => exact ⟨s, rfl, hs⟩
  | cons e l ih =>
    rw [List.forall_mem_cons] at hl
    obtain ⟨next, hnext, hlayout⟩ := Parameters.zipWith_of_layouts hs hl.1
      fun x y => x + e.2.share total * y
    obtain ⟨p, hp, hplayout⟩ := ih hlayout hl.2
    refine ⟨p, ?_, hplayout⟩
    rw [accumulate, Parameters.addScaled, hnext]
    exact hp

theorem yields_aggregate {i : AggregationInput R} {layout : NameMap Nat}
    (hprevious : i.previous.layout = layout) (hs : i.nodeStates.Uniform layout) :
    Yields (fun c => Aggregated.Uniform ⟨c.global, c.nodeStates, .fedAverage⟩ layout)
      (AggregationError.Justified (Returned i.results) i.previous) (aggregate i) := by
  refine (yields_totalSamples _ _).bind fun total _ => (yields_checkShapes _ _).bind fun _ hlayouts => ?_
  obtain ⟨p, hp, hplayout⟩ := accumulate_of_layout total (Parameters.layout_zerosLike i.previous) hlayouts
  rw [hp]
  exact ⟨hplayout.trans hprevious, uniform_of_mem_carryOver hs _, List.forall_mem_nil _⟩

end FedAverage

/-! ## 3. Controlled averaging -/

namespace Scaffold

theorem layout_controlOrZero {control : Option (Parameters R)} {global : Parameters R}
    {layout : NameMap Nat} (hglobal : global.layout = layout)
    (h : ∀ c, control = some c → c.layout = layout) : (controlOrZero control global).layout = layout := by
  cases control with
  | none => exact (Parameters.layout_zerosLike global).trans hglobal
  | some c => exact h c rfl

/-- Every node can be sent its correction. -/
theorem auxVarsFor_of_layout {s : Scaffold R} {states : NodeStates R} {global : Parameters R}
    {layout : NameMap Nat} (hglobal : global.layout = layout)
    (hc : ∀ c, s.globalControl = some c → c.layout = layout) (hs : states.Uniform layout)
    (node : NodeId) : ∃ aux, s.auxVarsFor node states global = .ok aux := by
  obtain ⟨d, hd, -⟩ := Parameters.zipWith_of_layouts (layout_controlOrZero hglobal hc)
    (layout_controlOrZero hglobal (hs node)) fun a b => a - b
  exact ⟨_, bind_eq_ok.2 ⟨d, mapError_eq_ok.2 hd, rfl⟩⟩

/-- What a round works with has a layout. -/
structure Step.Uniform (t : Step R) (layout : NameMap Nat) : Prop where
  x : t.x.layout = layout
  c : t.c.layout = layout
  states : t.states.Uniform layout

/-- What a round has combined so far has a layout. -/
structure Progress.Uniform (p : Progress R) (layout : NameMap Nat) : Prop where
  global : p.global.layout = layout
  controlChange : p.controlChange.layout = layout
  states : ∀ e ∈ p.states, e.2.Uniform layout

variable {t : Step R} {layout : NameMap Nat}

theorem visit_of_layout (ht : t.Uniform layout) {p : Progress R} (hp : p.Uniform layout)
    (node : NodeId) {u : NodeUpdate R} (hu : u.params.layout = layout) :
    ∃ p', visit t p node u = .ok p' ∧ p'.Uniform layout := by
  have hci := layout_controlOrZero ht.x (ht.states node)
  obtain ⟨delta, hdelta, hl₁⟩ := Parameters.zipWith_of_layouts hu ht.x fun y x => y - x
  obtain ⟨global, hglobal, hl₂⟩ := Parameters.zipWith_of_layouts hp.global hl₁
    fun x y => x + t.serverLr * u.share t.total * y
  obtain ⟨drift, hdrift, hl₃⟩ := Parameters.zipWith_of_layouts ht.x hu fun x y => (x - y) / t.localStep
  obtain ⟨difference, hdifference, hl₄⟩ := Parameters.zipWith_of_layouts hci ht.c fun ci c => ci - c
  obtain ⟨new, hnew, hl₅⟩ := Parameters.zipWith_of_layouts hl₄ hl₃ fun a b => a + b
  obtain ⟨change, hchange, hl₆⟩ := Parameters.zipWith_of_layouts hl₅ hci fun new old => new - old
  obtain ⟨controlChange, hcontrol, hl₇⟩ := Parameters.zipWith_of_layouts hp.controlChange hl₆
    fun x y => x + t.part * y
  refine ⟨⟨global, controlChange, (node, { t.states.stateFor node with controlVariate := some new }) ::
    p.states⟩, ?_, hl₂, hl₇, List.forall_mem_cons.2 ⟨?_, hp.states⟩⟩
  · simp only [visit, bind_eq_ok]
    exact ⟨delta, hdelta, global, hglobal, drift, hdrift, difference, hdifference, new, hnew, change,
      hchange, controlChange, hcontrol, rfl⟩
  · rintro control ⟨⟩
    exact hl₅

/-- Visiting results of one layout cannot fail. -/
theorem yields_visitAll (ht : t.Uniform layout) {l : List (NodeId × NodeUpdate R)}
    (hl : ∀ e ∈ l, e.2.params.layout = layout) {p : Progress R} (hp : p.Uniform layout)
    {Q : AggregationError → Prop} : Yields (·.Uniform layout) Q (visitAll t l p) := by
  induction l generalizing p with
  | nil => exact hp
  | cons e l ih =>
    rw [List.forall_mem_cons] at hl
    obtain ⟨next, hnext, huniform⟩ := visit_of_layout ht hp e.1 hl.1
    rw [visitAll, hnext]
    exact ih hl.2 huniform

theorem yields_aggregate {s : Scaffold R} {i : AggregationInput R}
    (hprevious : i.previous.layout = layout)
    (hc : ∀ c, s.globalControl = some c → c.layout = layout) (hs : i.nodeStates.Uniform layout) :
    Yields (fun r => Aggregated.Uniform ⟨r.1.global, r.1.nodeStates, .scaffold r.2⟩ layout)
      (AggregationError.Justified (Returned i.results) i.previous) (s.aggregate i) := by
  unfold aggregate
  split
  case h_2 => trivial
  split
  case h_2 => trivial
  refine (yields_totalSamples _ _).bind fun total _ => (yields_checkShapes _ _).bind fun _ hlayouts => ?_
  have hcontrol := layout_controlOrZero hprevious hc
  have hzeros := (Parameters.layout_zerosLike i.previous).trans hprevious
  refine Yields.bind (yields_visitAll ⟨hprevious, hcontrol, hs⟩ (fun e he => (hlayouts e he).trans hprevious)
    ⟨hprevious, hzeros, List.forall_mem_nil _⟩) fun p hp => ?_
  obtain ⟨control, hnew, hlayout⟩ := Parameters.zipWith_of_layouts hcontrol hp.controlChange
    fun c d => c + d
  simp only [bind, Except.bind, hnew, Except.mapError]
  refine ⟨hp.global, fun node state h => ?_, List.forall_mem_singleton.2 hlayout⟩
  exact hp.states _ (SortedMap.mem_of_find?_ofList h)

/-- What a round fixes, given the number of local updates, the local learning rate and the total of the
sample counts. -/
def stepOf (s : Scaffold R) (i : AggregationInput R) (updates : UInt64) (lr : R) (total : UInt64) :
    Step R where
  total
  x := i.previous
  c := controlOrZero s.globalControl i.previous
  localStep := Scalar.ofCount updates * lr
  serverLr := s.serverLr
  part := 1 / Scalar.ofInt (max i.federationSize i.results.size : Nat)
  states := i.nodeStates

/-- A round succeeds if it has what it needs and every node can be visited. -/
theorem aggregate_eq_ok {s s' : Scaffold R} {i : AggregationInput R} {r : Combined R} :
    s.aggregate i = .ok (r, s') ↔ ∃ updates lr total p control,
      i.trainingArgs.numUpdates.filter (0 < ·) = some updates ∧ i.trainingArgs.learningRate = some lr ∧
      totalSamples i.results = .ok total ∧ checkShapes i.results i.previous = .ok () ∧
      visitAll (s.stepOf i updates lr total) i.results.toList ⟨i.previous, i.previous.zerosLike, []⟩ =
        .ok p ∧
      (controlOrZero s.globalControl i.previous).zipWith p.controlChange (fun c d => c + d) = .ok control ∧
      r = ⟨p.global, .ofList p.states⟩ ∧ s' = { s with globalControl := some control } := by
  unfold aggregate
  cases hupdates : i.trainingArgs.numUpdates.filter (0 < ·) with
  | none => simp [throw_eq_ok]
  | some updates =>
    cases hlr : i.trainingArgs.learningRate with
    | none => simp [throw_eq_ok]
    | some lr =>
      simp only [bind_eq_ok, mapError_eq_ok, pure, Except.pure, Except.ok.injEq, Prod.mk.injEq]
      constructor
      · rintro ⟨total, htotal, ⟨⟩, hshapes, p, hp, control, hcontrol, rfl, rfl⟩
        exact ⟨updates, lr, total, p, control, rfl, rfl, htotal, hshapes, hp, hcontrol, rfl, rfl⟩
      · rintro ⟨_, _, total, p, control, ⟨⟩, ⟨⟩, htotal, hshapes, hp, hcontrol, rfl, rfl⟩
        exact ⟨total, htotal, (), hshapes, p, hp, control, hcontrol, rfl, rfl⟩

end Scaffold

/-! ## 4. Aggregators -/

namespace Aggregator

variable {a : Aggregator R} {layout : NameMap Nat}

theorem auxVarsFor_of_layout {states : NodeStates R} {global : Parameters R}
    (hglobal : global.layout = layout) (ha : ∀ control ∈ a.state, control.layout = layout)
    (hs : states.Uniform layout) (node : NodeId) :
    ∃ aux, a.auxVarsFor node states global = .ok aux := by
  cases a with
  | fedAverage => exact ⟨_, rfl⟩
  | scaffold s =>
    exact s.auxVarsFor_of_layout hglobal (fun c hc => ha c (Option.mem_toList.2 hc)) hs node

theorem yields_aggregate {i : AggregationInput R} (hprevious : i.previous.layout = layout)
    (ha : ∀ control ∈ a.state, control.layout = layout) (hs : i.nodeStates.Uniform layout) :
    Yields (·.Uniform layout) (AggregationError.Justified (Returned i.results) i.previous)
      (a.aggregate i) := by
  have hcombine : Yields (·.Uniform layout)
      (AggregationError.Justified (Returned i.results) i.previous) (a.combine i) := by
    cases a with
    | fedAverage => exact (FedAverage.yields_aggregate hprevious hs).map
    | scaffold s =>
      exact (s.yields_aggregate hprevious (fun c hc => ha c (Option.mem_toList.2 hc)) hs).map
  refine yields_guard (fun _ => trivial) fun _ => hcombine.bind fun r hr => ?_
  exact yields_guard (fun _ => trivial) fun _ => hr

omit [Scalar R] in
theorem yields_aggregateSecure {mean : Parameters R} (hmean : mean.layout = layout)
    {states : NodeStates R} (hs : states.Uniform layout) (participants : List NodeId)
    (returned : NodeId → Parameters R → Prop) (reference : Parameters R) :
    Yields (·.Uniform layout) (AggregationError.Justified returned reference)
      (a.aggregateSecure mean participants states) := by
  cases a with
  | fedAverage => exact ⟨hmean, uniform_of_mem_carryOver hs participants, List.forall_mem_nil _⟩
  | scaffold s => trivial

end Aggregator

end Federation
