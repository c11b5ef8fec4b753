import Federation.Proofs.Aggregation.Layouts
import Federation.Proofs.Optimizer
import Federation.Proofs.Round.Course
/-!
# Layouts in a round

Where the parameters, the control variates and the moments with which a round begins have one layout, so
have those it leaves, in a plain round as well as in a secure one. Then no error is about a layout, unless
a participant returned parameters of another one.
-/

namespace Federation

variable {R σ : Type}

/-- An error holds what it should hold, and being stopped from outside holds anything. -/
def Stop.Holds {ε : Type} (P : ε → Prop) : Stop ε → Prop
  | failed e => P e
  | abandoned => True

/-- An error of a secure round that is not about the layout of its mean. -/
def SecaggError.Justified : SecaggError R → Prop
  | layout _ => False
  | _ => True

/-- What a round may fail of: if it blames a layout, then that of parameters which the named node returned
and which differ from a reference. -/
def RoundError.Justified (returned : NodeId → Parameters R → Prop) (reference : Parameters R) :
    RoundError R → Prop
  | aggregation e => e.Justified returned reference
  | secureAggregation e => e.Justified
  | _ => True

theorem RoundError.Justified.mono {returned returned' : NodeId → Parameters R → Prop}
    {reference : Parameters R} {e : RoundError R} (h : e.Justified returned reference)
    (hr : ∀ node p, returned node p → returned' node p) : e.Justified returned' reference := by
  cases e with
  | aggregation e => exact AggregationError.Justified.mono h hr
  | secureAggregation e => exact h
  | _ => trivial

/-- What a round begins with has a layout. -/
structure RoundContext.Uniform (c : RoundContext R) (layout : NameMap Nat) : Prop where
  global : c.global.layout = layout
  aggregator : ∀ control ∈ c.aggregator.state, control.layout = layout
  optimizer : ∀ moment ∈ c.optimizer.state, moment.layout = layout
  nodeStates : c.nodeStates.Uniform layout

/-- What a round leaves has a layout. -/
structure CompletedRound.Uniform (r : CompletedRound R) (layout : NameMap Nat) : Prop where
  aggregated : r.aggregated.Uniform layout
  optimizer : ∀ moment ∈ r.optimizer.state, moment.layout = layout

/-! ## 1. Secure rounds -/

namespace SecaggRound

variable [Scalar R]

theorem length_add {s s' : MaskedSum} {v : MaskedVector} (h : s.add v = .ok s') :
    s'.sum.length = s.sum.length := by
  obtain ⟨_, hcheck, ⟨⟩⟩ := bind_eq_ok.1 h
  unfold MaskedSum.check at hcheck
  split at hcheck
  next hlength => simp [hlength]
  next => contradiction

omit [Scalar R] in
/-- Masked vectors are summed up to one of the same length. -/
theorem yields_total (l : List (NodeId × MaskedVector × UInt64)) (sum : MaskedSum) (weight : UInt64) :
    Yields (fun r => r.1.sum.length = sum.sum.length) SecaggError.Justified
      (total (R := R) l sum weight) := by
  induction l generalizing sum weight with
  | nil => rfl
  | cons e l ih =>
    obtain ⟨node, v, w⟩ := e
    rw [total]
    cases hadd : sum.add v with
    | error e => trivial
    | ok next =>
      dsimp only
      split
      · trivial
      · exact (ih next (weight + w)).mono (fun r hr => hr.trans (length_add hadd)) fun e he => he

theorem length_of_unmask {s : MaskedSum} {config : MaskConfig R} {weight : UInt64} {u : Unmasked R}
    (h : s.unmask config weight = .ok u) : u.values.length = s.sum.length - 1 := by
  unfold MaskedSum.unmask at h
  split at h
  · contradiction
  split at h
  · contradiction
  split at h
  · contradiction
  obtain rfl := Except.ok.inj h
  simp

/-- The mean that is recovered from masked vectors always fits the layout for which they were masked. -/
theorem yields_aggregate (r : SecaggRound R) (masked : NameMap (MaskedVector × UInt64))
    (reference : Parameters R) :
    Yields (·.layout = reference.layout) SecaggError.Justified (r.aggregate masked reference) := by
  unfold aggregate
  split
  · trivial
  dsimp only
  split
  · trivial
  refine (yields_total _ _ _).bind fun t ht => ?_
  cases hunmask : t.1.unmask r.config t.2 with
  | error e => trivial
  | ok u =>
    have hlength : u.values.length = reference.length := by
      rw [length_of_unmask hunmask, ht]
      simp [MaskedSum.zero]
    obtain ⟨mean, hmean, hlayout, -⟩ := Parameters.unflatten_of_length hlength
    refine yields_guard (fun _ => trivial) fun _ => ?_
    rw [hmean]
    exact hlayout

end SecaggRound

/-! ## 2. Steps of the optimizer -/

theorem Optimizer.yields_step [RootScalar R] {o : Optimizer R} {previous aggregated : Parameters R}
    {layout : NameMap Nat} (hprevious : previous.layout = layout) (haggregated : aggregated.layout = layout)
    (ho : ∀ moment ∈ o.state, moment.layout = layout) (returned : NodeId → Parameters R → Prop)
    (reference : Parameters R) :
    Yields (fun r => r.1.layout = layout ∧ ∀ moment ∈ r.2.state, moment.layout = layout)
      (AggregationError.Justified returned reference) (o.step previous aggregated) := by
  obtain ⟨⟨global, next⟩, hfollow⟩ := exists_follow hprevious haggregated ho
  obtain ⟨-, hglobal, hnext⟩ := follow_eq_ok hfollow
  rw [step, hfollow]
  refine yields_guard (fun _ => trivial) fun _ => ⟨hglobal.trans hprevious, fun moment hm => ?_⟩
  exact (hnext moment hm).trans hprevious

/-! ## 3. Completed rounds -/

namespace Collecting

/-- A reply with some parameters was received from a node. -/
def Returned (s : Collecting R) (node : NodeId) (p : Parameters R) : Prop :=
  ∃ r t, s.received.find? node = some (r, t) ∧ r.params = some (.plain p)

theorem returned_of_results {s : Collecting R} {node : NodeId} {p : Parameters R}
    (h : Federation.Returned (s.received.filterMap fun _ e => plainUpdate e.1) node p) :
    s.Returned node p := by
  obtain ⟨u, hu, rfl⟩ := h
  rw [SortedMap.find?_filterMap, Option.bind_eq_some_iff] at hu
  obtain ⟨⟨r, t⟩, hr, hplain⟩ := hu
  refine ⟨r, t, hr, ?_⟩
  unfold plainUpdate at hplain
  split at hplain
  next p hp =>
    obtain rfl := Option.some.inj hplain
    exact hp
  next => contradiction

variable {c : RoundContext R} {layout : NameMap Nat}

theorem yields_aggregate [Scalar R] (hc : c.Uniform layout) (s : Collecting R) :
    Yields (·.Uniform layout) (RoundError.Justified s.Returned c.global) (s.aggregate c) := by
  unfold aggregate
  split
  next secagg _ =>
    have hmean := secagg.yields_aggregate (s.received.filterMap fun _ e => maskedVector e.1) c.global
    refine Yields.bind (Yields.mapError hmean) fun mean hlayout => Yields.mapError ?_
    exact Aggregator.yields_aggregateSecure (hlayout.trans hc.global) hc.nodeStates _ _ _
  next =>
    refine Yields.mapError ?_
    refine (Aggregator.yields_aggregate hc.global hc.aggregator hc.nodeStates).mono (fun _ h => h)
      fun e he => ?_
    exact AggregationError.Justified.mono he fun _ _ => returned_of_results

theorem yields_complete [RootScalar R] (hc : c.Uniform layout) (s : Collecting R) :
    Yields (·.Uniform layout) (RoundError.Justified s.Returned c.global) (s.complete c) := by
  refine (yields_aggregate hc s).bind fun aggregated ha => ?_
  have hstep := Optimizer.yields_step hc.global ha.global hc.optimizer s.Returned c.global
  refine Yields.bind (Yields.mapError hstep) fun r hr => ?_
  exact ⟨⟨hr.1, ha.nodeStates, ha.aggregator⟩, hr.2⟩

/-- What breaks a round that waits is not about layouts. -/
theorem justified_of_breaks {l : Replies R} {m : Moment R} {e : RoundError R} (h : Breaks c l m e)
    (returned : NodeId → Parameters R → Prop) (reference : Parameters R) :
    e.Justified returned reference := by
  cases h with
  | refused hc he r t ha hm hl e hr => cases hr <;> trivial
  | _ => trivial

end Collecting

namespace RoundContext

/-- A participant of a round is heard to return some parameters. -/
def Returned (c : RoundContext R) (l : Link R σ) (world : σ) (node : NodeId) (p : Parameters R) : Prop :=
  ∃ replies r t, c.hears? l world = some replies ∧
    Collecting.firstMatch? c node replies = some (r, t) ∧ r.params = some (.plain p)

variable [RootScalar R] {c : RoundContext R} {layout : NameMap Nat}

theorem yields_run (hc : c.Uniform layout) (l : Link R σ) (world : σ) :
    Yields (·.Uniform layout) (Stop.Holds (RoundError.Justified (c.Returned l world) c.global))
      (c.run l world).1.result := by
  have hcourse := course_run l c world
  have hreturned : ∀ replies, c.hears? l world = some replies → ∀ node p,
      (Collecting.after c replies).Returned node p → c.Returned l world node p := by
    rintro replies hhears node p ⟨r, t, hr, hp⟩
    rw [Collecting.find?_received] at hr
    obtain ⟨⟨r, t⟩, hfirst, heq⟩ := Option.map_eq_some_iff.1 hr
    obtain ⟨rfl, rfl⟩ := Prod.mk.inj heq
    exact ⟨replies, r, t, hhears, hfirst, hp⟩
  generalize c.hears? l world = hears at hcourse hreturned
  generalize c.run l world = outcome at hcourse ⊢
  cases hcourse with
  | closed => trivial
  | undelivered => trivial
  | listening world₁ world₂ =>
    rw [collect_result, ← Collecting.run_ofObservations]
    generalize Moment.ofObservations _ _ = moments at hreturned ⊢
    change Yields _ _ ((Collecting.outcome c moments).bind _)
    cases ho : Collecting.outcome c moments with
    | error stop =>
      cases stop with
      | abandoned => trivial
      | failed e =>
        obtain ⟨before, m, rest, -, -, hbreaks⟩ := Collecting.outcome_eq_failed.1 ho
        exact Collecting.justified_of_breaks hbreaks _ _
    | ok s =>
      obtain ⟨-, -, rfl⟩ := Collecting.outcome_eq_ok.1 ho
      refine Yields.mapError (Yields.mono (Collecting.yields_complete hc _) (fun _ h => h) fun e he => ?_)
      exact RoundError.Justified.mono he (hreturned _ rfl)

end RoundContext

end Federation
