import Federation.Proofs.Aggregation.Mean
import Federation.Proofs.Optimizer
/-!
# Controlled averaging as damped averaging

In exact arithmetic the global parameters go from `x` a part of the way to the mean `m` of the results,
`x + server_lr * (m - x)`, which is also where plain descent at that rate goes. Control variates have no
part in it: they change what the nodes compute, not how their results are combined.
-/

namespace Federation

namespace Scaffold

/-! ## 1. Visits -/

/-- Visiting nodes adds up the differences of their parameters from those before the round. -/
theorem coordinate_visitAll {t : Step ℚ} {l : List (NodeId × NodeUpdate ℚ)} {p p' : Progress ℚ}
    (h : visitAll t l p = .ok p') (k : ℕ) :
    p'.global.coordinate k = p.global.coordinate k + t.serverLr *
      (l.map fun e => e.2.share t.total * (e.2.params.coordinate k - t.x.coordinate k)).sum := by
  induction l generalizing p with
  | nil =>
    obtain rfl := Except.ok.inj h
    simp
  | cons e l ih =>
    rw [visitAll, bind_eq_ok] at h
    obtain ⟨next, hvisit, hrest⟩ := h
    obtain ⟨delta, hdelta, hvisit⟩ := bind_eq_ok.1 (mapError_eq_ok.1 hvisit)
    obtain ⟨global, hglobal, hvisit⟩ := bind_eq_ok.1 hvisit
    have hnext : next.global = global := by
      simp only [bind_eq_ok, pure, Except.pure, Except.ok.injEq] at hvisit
      obtain ⟨-, -, -, -, -, -, -, -, -, -, rfl⟩ := hvisit
      rfl
    have hmoved := Parameters.coordinate_zipWith (by simp) hglobal k
    rw [Parameters.coordinate_zipWith (sub_zero 0) hdelta] at hmoved
    rw [ih hrest, hnext, hmoved, List.map_cons, List.sum_cons]
    ring

/-- The preconditions ask for what a round needs of the training arguments. -/
theorem exists_of_checkPreconditions {R : Type} [Scalar R] {args : TrainingArgs R} {secure : Bool}
    (h : checkPreconditions args secure = .ok ()) :
    ∃ updates lr, args.numUpdates.filter (0 < ·) = some updates ∧ args.learningRate = some lr := by
  unfold checkPreconditions at h
  split at h
  · contradiction
  split at h
  · contradiction
  next hupdates =>
    split at h
    · contradiction
    next hlr =>
      obtain ⟨updates, hsome, hpos⟩ : ∃ updates, args.numUpdates = some updates ∧ 0 < updates := by
        simpa [Option.any_eq_true] using hupdates
      obtain ⟨lr, hsome', -⟩ : ∃ lr, args.learningRate = some lr ∧ Scalar.isPositive lr = true := by
        simpa [Option.any_eq_true] using hlr
      exact ⟨updates, lr, by simp [hsome, hpos], hsome'⟩

/-! ## 2. Rounds -/

variable {s : Scaffold ℚ} {i : AggregationInput ℚ}

/-- What a round asks of its input: results and control variates of the layout of the parameters from which
it started, and training arguments that meet the preconditions. -/
structure Suits (s : Scaffold ℚ) (i : AggregationInput ℚ) : Prop where
  results : i.Fits
  control : ∀ c, s.globalControl = some c → c.layout = i.previous.layout
  states : i.nodeStates.Uniform i.previous.layout
  args : checkPreconditions i.trainingArgs false = .ok ()

/-- A round with samples succeeds and moves the parameters by the differences of the results. -/
theorem aggregate_of_suits (h : s.Suits i) (hpos : 0 < sampleTotal i.results)
    (hfits : sampleTotal i.results < 2 ^ 64) :
    ∃ r s', s.aggregate i = .ok (r, s') ∧ r.global.layout = i.previous.layout ∧
      ∀ k, r.global.coordinate k = i.previous.coordinate k + s.serverLr *
        (i.results.toList.map fun e => e.2.share (UInt64.ofNat (sampleTotal i.results)) *
          (e.2.params.coordinate k - i.previous.coordinate k)).sum := by
  obtain ⟨updates, lr, hupdates, hlr⟩ := exists_of_checkPreconditions h.args
  have hcontrol := layout_controlOrZero rfl h.control
  have hzeros := Parameters.layout_zerosLike i.previous
  obtain ⟨p, hp, huniform⟩ := (yields_visitAll (Q := fun _ => False)
    (t := s.stepOf i updates lr (UInt64.ofNat (sampleTotal i.results))) ⟨rfl, hcontrol, h.states⟩ h.results
    (p := ⟨i.previous, i.previous.zerosLike, []⟩) ⟨rfl, hzeros, List.forall_mem_nil _⟩).exists_ok
  obtain ⟨control, hnew, -⟩ := Parameters.zipWith_of_layouts hcontrol huniform.controlChange
    fun c d => c + d
  exact ⟨_, _, aggregate_eq_ok.2 ⟨updates, lr, _, p, control, hupdates, hlr, totalSamples_eq_ok hpos hfits,
    checkShapes_eq_ok.2 h.results, hp, hnew, rfl, rfl⟩, huniform.global, coordinate_visitAll hp⟩

/-- A round whose sample counts have no proper sum fails of that. -/
theorem aggregate_of_totalSamples {e : AggregationError}
    (hargs : checkPreconditions i.trainingArgs false = .ok ()) (h : totalSamples i.results = .error e) :
    s.aggregate i = .error e := by
  obtain ⟨updates, lr, hupdates, hlr⟩ := exists_of_checkPreconditions hargs
  unfold aggregate
  rw [hupdates, hlr, h]
  rfl

/-- The differences of the results from the parameters before the round are, weighted by the shares of the
samples, the difference of the mean from them. -/
theorem sum_share_sub (hpos : 0 < sampleTotal i.results) (hfits : sampleTotal i.results < 2 ^ 64)
    {m : Combined ℚ} (hm : FedAverage.aggregate i = .ok m) (k : ℕ) :
    (i.results.toList.map fun e => e.2.share (UInt64.ofNat (sampleTotal i.results)) *
      (e.2.params.coordinate k - i.previous.coordinate k)).sum =
        m.global.coordinate k - i.previous.coordinate k := by
  simp only [sub_eq_add_neg, mul_add]
  rw [List.sum_map_add, List.sum_map_mul_right, sum_shares hpos hfits, one_mul,
    FedAverage.coordinate_aggregate hpos hfits hm]

/-- A round with samples goes a part of the way to the mean. -/
theorem damped_of_suits (h : s.Suits i) (hpos : 0 < sampleTotal i.results)
    (hfits : sampleTotal i.results < 2 ^ 64) {m : Combined ℚ} (hm : FedAverage.aggregate i = .ok m) :
    ∃ r s', s.aggregate i = .ok (r, s') ∧ r.global.layout = i.previous.layout ∧
      ∀ k, r.global.coordinate k = i.previous.coordinate k + s.serverLr *
        (m.global.coordinate k - i.previous.coordinate k) := by
  obtain ⟨r, s', hr, hlayout, hvalue⟩ := aggregate_of_suits h hpos hfits
  refine ⟨r, s', hr, hlayout, fun k => ?_⟩
  rw [hvalue, sum_share_sub hpos hfits hm]

end Scaffold

/-! ## 3. Plain descent -/

namespace Optimizer

theorem coordinate_descend {lr : ℚ} {previous aggregated global : Parameters ℚ}
    (h : descend lr previous aggregated = .ok global) (k : ℕ) : global.coordinate k =
      previous.coordinate k + lr * (aggregated.coordinate k - previous.coordinate k) := by
  unfold descend at h
  split at h
  next hone =>
    -- at the rate one the aggregated parameters are taken as they are
    obtain rfl : lr = 1 := of_decide_eq_true hone
    obtain ⟨-, -, rfl⟩ := map_eq_ok.1 h
    ring
  next =>
    rw [Parameters.coordinate_zipWith (by simp) h]
    ring

/-- Plain descent goes a part of the way to the aggregated parameters. -/
theorem step_sgd {lr : ℚ} {previous aggregated global : Parameters ℚ}
    (haggregated : aggregated.layout = previous.layout) (hglobal : global.layout = previous.layout)
    (hvalue : ∀ k, global.coordinate k = previous.coordinate k +
      lr * (aggregated.coordinate k - previous.coordinate k)) :
    (Optimizer.sgd lr).step previous aggregated = .ok (global, .sgd lr) := by
  obtain ⟨global', hdescend⟩ := exists_descend lr haggregated.symm
  have hlayout := layout_of_descend hdescend
  obtain rfl : global' = global := Parameters.ext_coordinate (hlayout.trans hglobal.symm) fun k => by
    rw [hvalue, coordinate_descend hdescend]
  exact step_eq_ok.2 ⟨map_eq_ok.2 ⟨_, hdescend, rfl⟩, isFinite_rat _⟩

end Optimizer

/-! ## 4. Agreement -/

/-- Controlled averaging sets the global parameters to what plain descent at its rate makes of the mean of
the results, whatever the control variates are. -/
theorem scaffold_damps_federated_averaging {s : Scaffold ℚ} {i : AggregationInput ℚ} (h : s.Suits i)
    (hpos : 0 < sampleTotal i.results) :
    (2 ^ 64 ≤ sampleTotal i.results → FedAverage.aggregate i = .error .weightOverflow ∧
      s.aggregate i = .error .weightOverflow) ∧
    (sampleTotal i.results < 2 ^ 64 → ∃ m r s', FedAverage.aggregate i = .ok m ∧
      s.aggregate i = .ok (r, s') ∧ r.global.layout = i.previous.layout ∧
      (∀ k, r.global.coordinate k = i.previous.coordinate k + s.serverLr *
        (m.global.coordinate k - i.previous.coordinate k)) ∧
      (Optimizer.sgd s.serverLr).step i.previous m.global = .ok (r.global, .sgd s.serverLr) ∧
      (s.serverLr = 1 → r.global = m.global) ∧
      ∀ (control : Option (Parameters ℚ)) (states : NodeStates ℚ),
        (∀ c, control = some c → c.layout = i.previous.layout) → states.Uniform i.previous.layout →
        ∃ r' s'', { s with globalControl := control }.aggregate { i with nodeStates := states } =
          .ok (r', s'') ∧ r'.global = r.global) := by
  have hsome := toList_ne_nil hpos
  refine ⟨fun hover => ?_, fun hfits => ?_⟩
  · have htotal : totalSamples i.results = .error .weightOverflow := by
      rw [totalSamples_of_ne_nil hsome, if_pos hover]
    exact ⟨(FedAverage.aggregate_eq_error h.results).2 htotal,
      Scaffold.aggregate_of_totalSamples h.args htotal⟩
  obtain ⟨m, hm, hmlayout, -⟩ := FedAverage.aggregate_of_layout h.results rfl hpos hfits
  obtain ⟨r, s', hr, hlayout, hvalue⟩ := Scaffold.damped_of_suits h hpos hfits hm
  refine ⟨m, r, s', hm, hr, hlayout, hvalue, Optimizer.step_sgd hmlayout hlayout hvalue, fun hone => ?_,
    fun control states hcontrol hstates => ?_⟩
  · refine Parameters.ext_coordinate (hlayout.trans hmlayout.symm) fun k => ?_
    rw [hvalue, hone, one_mul, add_sub_cancel]
  · have hsuits : { s with globalControl := control }.Suits { i with nodeStates := states } :=
      ⟨h.results, hcontrol, hstates, h.args⟩
    obtain ⟨r', s'', hr', hlayout', hvalue'⟩ := Scaffold.aggregate_of_suits hsuits hpos hfits
    refine ⟨r', s'', hr', Parameters.ext_coordinate (hlayout'.trans hlayout.symm) fun k => ?_⟩
    rw [hvalue, hvalue', Scaffold.sum_share_sub hpos hfits hm]

/-- A round of controlled averaging in which there are control variates of a node and of the controller. -/
def dampedInput : AggregationInput ℚ where
  results := .ofList [("left", ⟨.ofLayers [("layer", [1, 2])], 1, .empty⟩),
    ("right", ⟨.ofLayers [("layer", [5, 0])], 3, .empty⟩)]
  previous := .ofLayers [("layer", [0, 7])]
  nodeStates := ⟨.ofList [("left", { controlVariate := some (.ofLayers [("layer", [2, -1])]) })]⟩
  trainingArgs := { numUpdates := some 4, learningRate := some (1 / 10) }
  federationSize := 3

def dampedRule : Scaffold ℚ where
  serverLr := 1 / 2
  globalControl := some (.ofLayers [("layer", [-3, 1])])

theorem suits_dampedInput : dampedRule.Suits dampedInput where
  results := by decide +kernel
  control := by
    rintro _ ⟨⟩
    decide +kernel
  states := NodeStates.uniform_of_find? fun node state h => by
    obtain ⟨rfl, rfl⟩ : node = "left" ∧ state = _ := by
      simpa using SortedMap.mem_of_find?_ofList h
    rintro _ ⟨⟩
    decide +kernel
  args := by decide +kernel

theorem scaffold_damps_federated_averaging_pair :
    ∃ m r s', FedAverage.aggregate dampedInput = .ok m ∧ dampedRule.aggregate dampedInput = .ok (r, s') ∧
      [r.global.coordinate 0, r.global.coordinate 1] = [2, 15 / 4] ∧
      (Optimizer.sgd (1 / 2)).step dampedInput.previous m.global = .ok (r.global, .sgd (1 / 2)) := by
  obtain ⟨m, r, s', hm, hr, -, hvalue, hstep, -⟩ :=
    (scaffold_damps_federated_averaging suits_dampedInput (by decide)).2 (by decide)
  refine ⟨m, r, s', hm, hr, ?_, hstep⟩
  rw [hvalue, hvalue, FedAverage.coordinate_aggregate (by decide) (by decide) hm,
    FedAverage.coordinate_aggregate (by decide) (by decide) hm]
  decide +kernel

end Federation
