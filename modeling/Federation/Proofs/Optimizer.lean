import Federation.Optimizer
import Federation.Proofs.Except
import Federation.Proofs.Parameters
/-!
# Steps of optimizers

A step leaves the hyperparameters of an optimizer alone. It combines the parameters with the moments
value by value, so it succeeds only among parameters of one layout, which is also that of its results.
-/

namespace Federation

variable {R : Type}

namespace Optimizer

section

variable [Scalar R]

/-- What a step with momentum is made of. The first gradient is the first velocity. -/
theorem momentum_apply_eq_ok {m m' : Momentum R} {previous gradient global : Parameters R} :
    m.apply previous gradient = .ok (global, m') ↔
      ∃ velocity, (m.velocity = none → velocity = gradient) ∧
        (∀ v, m.velocity = some v → v.zipWith gradient (fun v g => m.beta * v + g) = .ok velocity) ∧
        previous.zipWith velocity (fun p v => p - m.learningRate * v) = .ok global ∧
        m' = { m with velocity := some velocity } := by
  unfold Momentum.apply
  cases m.velocity with
  | none =>
    simp only [bind_eq_ok, pure, Except.pure, Except.ok.injEq, Prod.mk.injEq]
    constructor
    · rintro ⟨velocity, rfl, p, hp, rfl, rfl⟩
      exact ⟨gradient, fun _ => rfl, nofun, hp, rfl⟩
    · rintro ⟨velocity, hfirst, -, hp, rfl⟩
      exact ⟨velocity, (hfirst trivial).symm, global, hp, rfl, rfl⟩
  | some v =>
    simp only [bind_eq_ok, pure, Except.pure, Except.ok.injEq, Prod.mk.injEq]
    constructor
    · rintro ⟨velocity, hv, p, hp, rfl, rfl⟩
      exact ⟨velocity, nofun, fun _ h => Option.some.inj h ▸ hv, hp, rfl⟩
    · rintro ⟨velocity, -, hnext, hp, rfl⟩
      exact ⟨velocity, hnext v rfl, global, hp, rfl, rfl⟩

theorem momentum_of_apply {m m' : Momentum R} {previous gradient global : Parameters R}
    (h : m.apply previous gradient = .ok (global, m')) :
    ∃ velocity, m' = { m with velocity := some velocity } ∧ global.layout = previous.layout ∧
      velocity.layout = previous.layout := by
  obtain ⟨velocity, -, -, hp, rfl⟩ := momentum_apply_eq_ok.1 h
  obtain ⟨hlayout, hsame⟩ := Parameters.layout_of_zipWith hp
  exact ⟨velocity, rfl, hsame, hlayout.symm⟩

theorem checkPreconditions_eq_ok {o : Optimizer R} : o.checkPreconditions = .ok () ↔ o.isValid = true := by
  unfold checkPreconditions
  split
  next h => exact iff_of_true rfl h
  next h => exact iff_of_false nofun h

theorem layout_of_descend {rate : R} {previous aggregated global : Parameters R}
    (h : descend rate previous aggregated = .ok global) : global.layout = previous.layout := by
  unfold descend at h
  split at h
  · obtain ⟨_, hcheck, rfl⟩ := map_eq_ok.1 h
    exact (Parameters.checkShape_eq_ok.1 hcheck).symm
  · exact (Parameters.layout_of_zipWith h).2

theorem exists_descend (rate : R) {previous aggregated : Parameters R}
    (h : previous.layout = aggregated.layout) : ∃ global, descend rate previous aggregated = .ok global := by
  unfold descend
  split
  · exact ⟨aggregated, map_eq_ok.2 ⟨(), Parameters.checkShape_of_layout h, rfl⟩⟩
  · obtain ⟨global, hglobal, -⟩ := Parameters.zipWith_of_layout h fun p a => p - rate * (p - a)
    exact ⟨global, hglobal⟩

end

variable [RootScalar R]

theorem adaptive_apply_eq_ok {a a' : Adaptive R} {rule : SecondMomentRule}
    {previous gradient global : Parameters R} : a.apply rule previous gradient = .ok (global, a') ↔
      ∃ first second update, a.nextFirst gradient = .ok first ∧ a.nextSecond rule gradient = .ok second ∧
        first.zipWith second (a.change (1 - RootScalar.power a.beta1 a.nextStep)
          (1 - RootScalar.power a.beta2 a.nextStep)) = .ok update ∧
        previous.zipWith update (fun p u => p - u) = .ok global ∧
        a' = { a with step := a.nextStep, firstMoment := some first, secondMoment := some second } := by
  simp only [Adaptive.apply, bind_eq_ok, pure, Except.pure, Except.ok.injEq, Prod.mk.injEq]
  constructor
  · rintro ⟨first, hfirst, second, hsecond, update, hupdate, p, hp, rfl, rfl⟩
    exact ⟨first, second, update, hfirst, hsecond, hupdate, hp, rfl⟩
  · rintro ⟨first, second, update, hfirst, hsecond, hupdate, hp, rfl⟩
    exact ⟨first, hfirst, second, hsecond, update, hupdate, global, hp, rfl, rfl⟩

theorem adaptive_of_apply {a a' : Adaptive R} {rule : SecondMomentRule}
    {previous gradient global : Parameters R} (h : a.apply rule previous gradient = .ok (global, a')) :
    ∃ step first second, a' = { a with step, firstMoment := some first, secondMoment := some second } ∧
      global.layout = previous.layout ∧ first.layout = previous.layout ∧
      second.layout = previous.layout := by
  obtain ⟨first, second, update, -, -, hupdate, hp, rfl⟩ := adaptive_apply_eq_ok.1 h
  -- the update is combined from both moments and is itself combined with the parameters
  obtain ⟨hmoments, hfirst⟩ := Parameters.layout_of_zipWith hupdate
  obtain ⟨hlayout, hsame⟩ := Parameters.layout_of_zipWith hp
  have hfirst' : first.layout = previous.layout := hfirst.symm.trans hlayout.symm
  exact ⟨_, first, second, rfl, hsame, hfirst', hmoments.symm.trans hfirst'⟩

/-- A step keeps the hyperparameters of an optimizer. The new parameters and moments have the layout of
the previous parameters, whatever the moments were before. -/
theorem follow_eq_ok {o o' : Optimizer R} {previous aggregated global : Parameters R}
    (h : o.follow previous aggregated = .ok (global, o')) :
    o'.isValid = o.isValid ∧ global.layout = previous.layout ∧
      ∀ moment ∈ o'.state, moment.layout = previous.layout := by
  cases o with
  | sgd rate =>
    obtain ⟨p, hp, heq⟩ := map_eq_ok.1 h
    obtain ⟨rfl, rfl⟩ := Prod.mk.inj heq
    exact ⟨rfl, layout_of_descend hp, nofun⟩
  | momentum m =>
    simp only [follow, bind_eq_ok, pure, Except.pure, Except.ok.injEq, Prod.mk.injEq] at h
    obtain ⟨gradient, -, ⟨p, m'⟩, hm, rfl, rfl⟩ := h
    obtain ⟨velocity, rfl, hglobal, hvelocity⟩ := momentum_of_apply hm
    exact ⟨rfl, hglobal, List.forall_mem_singleton.2 hvelocity⟩
  | adam a =>
    simp only [follow, bind_eq_ok, pure, Except.pure, Except.ok.injEq, Prod.mk.injEq] at h
    obtain ⟨gradient, -, ⟨p, a'⟩, ha, rfl, rfl⟩ := h
    obtain ⟨step, first, second, rfl, hglobal, hfirst, hsecond⟩ := adaptive_of_apply ha
    exact ⟨rfl, hglobal, List.forall_mem_cons.2 ⟨hfirst, List.forall_mem_singleton.2 hsecond⟩⟩
  | yogi a =>
    simp only [follow, bind_eq_ok, pure, Except.pure, Except.ok.injEq, Prod.mk.injEq] at h
    obtain ⟨gradient, -, ⟨p, a'⟩, ha, rfl, rfl⟩ := h
    obtain ⟨step, first, second, rfl, hglobal, hfirst, hsecond⟩ := adaptive_of_apply ha
    exact ⟨rfl, hglobal, List.forall_mem_cons.2 ⟨hfirst, List.forall_mem_singleton.2 hsecond⟩⟩

theorem exists_momentum_apply {m : Momentum R} {previous gradient : Parameters R} {layout : NameMap Nat}
    (hprevious : previous.layout = layout) (hgradient : gradient.layout = layout)
    (hm : ∀ v, m.velocity = some v → v.layout = layout) : ∃ r, m.apply previous gradient = .ok r := by
  unfold Momentum.apply
  cases hv : m.velocity with
  | none =>
    obtain ⟨global, hglobal, -⟩ := Parameters.zipWith_of_layouts hprevious hgradient
      fun p v => p - m.learningRate * v
    exact ⟨_, bind_eq_ok.2 ⟨gradient, rfl, bind_eq_ok.2 ⟨global, hglobal, rfl⟩⟩⟩
  | some v =>
    obtain ⟨velocity, hvelocity, hlayout⟩ := Parameters.zipWith_of_layouts (hm v hv) hgradient
      fun v g => m.beta * v + g
    obtain ⟨global, hglobal, -⟩ := Parameters.zipWith_of_layouts hprevious hlayout
      fun p v => p - m.learningRate * v
    exact ⟨_, bind_eq_ok.2 ⟨velocity, hvelocity, bind_eq_ok.2 ⟨global, hglobal, rfl⟩⟩⟩

theorem exists_nextFirst {a : Adaptive R} {gradient : Parameters R} {layout : NameMap Nat}
    (hgradient : gradient.layout = layout) (ha : ∀ m, a.firstMoment = some m → m.layout = layout) :
    ∃ first, a.nextFirst gradient = .ok first ∧ first.layout = layout := by
  unfold Adaptive.nextFirst
  cases hm : a.firstMoment with
  | none => exact ⟨_, rfl, (Parameters.layout_map _ _).trans hgradient⟩
  | some m => exact Parameters.zipWith_of_layouts (ha m hm) hgradient _

theorem exists_nextSecond {a : Adaptive R} (rule : SecondMomentRule) {gradient : Parameters R}
    {layout : NameMap Nat} (hgradient : gradient.layout = layout)
    (ha : ∀ v, a.secondMoment = some v → v.layout = layout) :
    ∃ second, a.nextSecond rule gradient = .ok second ∧ second.layout = layout := by
  have hsquared := (Parameters.layout_map (fun g : R => g * g) gradient).trans hgradient
  unfold Adaptive.nextSecond
  cases hv : a.secondMoment with
  | none => exact ⟨_, rfl, (Parameters.layout_map _ _).trans hsquared⟩
  | some v =>
    cases rule with
    | decay => exact Parameters.zipWith_of_layouts (ha v hv) hsquared _
    | signed => exact Parameters.zipWith_of_layouts (ha v hv) hsquared _

theorem exists_adaptive_apply {a : Adaptive R} (rule : SecondMomentRule)
    {previous gradient : Parameters R} {layout : NameMap Nat} (hprevious : previous.layout = layout)
    (hgradient : gradient.layout = layout) (hm : ∀ m, a.firstMoment = some m → m.layout = layout)
    (hv : ∀ v, a.secondMoment = some v → v.layout = layout) :
    ∃ r, a.apply rule previous gradient = .ok r := by
  obtain ⟨first, hfirst, hl₁⟩ := exists_nextFirst hgradient hm
  obtain ⟨second, hsecond, hl₂⟩ := exists_nextSecond rule hgradient hv
  obtain ⟨update, hupdate, hl₃⟩ := Parameters.zipWith_of_layouts hl₁ hl₂
    (a.change (1 - RootScalar.power a.beta1 a.nextStep) (1 - RootScalar.power a.beta2 a.nextStep))
  obtain ⟨global, hglobal, -⟩ := Parameters.zipWith_of_layouts hprevious hl₃ fun p u => p - u
  exact ⟨_, adaptive_apply_eq_ok.2 ⟨first, second, update, hfirst, hsecond, hupdate, hglobal, rfl⟩⟩

/-- A step among parameters of one layout succeeds. -/
theorem exists_follow {o : Optimizer R} {previous aggregated : Parameters R} {layout : NameMap Nat}
    (hprevious : previous.layout = layout) (haggregated : aggregated.layout = layout)
    (ho : ∀ moment ∈ o.state, moment.layout = layout) : ∃ r, o.follow previous aggregated = .ok r := by
  obtain ⟨gradient, hgradient, hlayout⟩ := Parameters.zipWith_of_layouts hprevious haggregated
    fun p a => p - a
  cases o with
  | sgd rate =>
    obtain ⟨global, hglobal⟩ := exists_descend rate (hprevious.trans haggregated.symm)
    exact ⟨_, map_eq_ok.2 ⟨global, hglobal, rfl⟩⟩
  | momentum m =>
    obtain ⟨r, hr⟩ := exists_momentum_apply hprevious hlayout
      fun v hv => ho v (Option.mem_toList.2 hv)
    exact ⟨_, bind_eq_ok.2 ⟨gradient, hgradient, bind_eq_ok.2 ⟨r, hr, rfl⟩⟩⟩
  | adam a =>
    obtain ⟨hm, hv⟩ := List.forall_mem_append.1 ho
    obtain ⟨r, hr⟩ := exists_adaptive_apply .decay hprevious hlayout
      (fun m h => hm m (Option.mem_toList.2 h)) fun v h => hv v (Option.mem_toList.2 h)
    exact ⟨_, bind_eq_ok.2 ⟨gradient, hgradient, bind_eq_ok.2 ⟨r, hr, rfl⟩⟩⟩
  | yogi a =>
    obtain ⟨hm, hv⟩ := List.forall_mem_append.1 ho
    obtain ⟨r, hr⟩ := exists_adaptive_apply .signed hprevious hlayout
      (fun m h => hm m (Option.mem_toList.2 h)) fun v h => hv v (Option.mem_toList.2 h)
    exact ⟨_, bind_eq_ok.2 ⟨gradient, hgradient, bind_eq_ok.2 ⟨r, hr, rfl⟩⟩⟩

/-- A step succeeds only with finite parameters. -/
theorem step_eq_ok {o o' : Optimizer R} {previous aggregated global : Parameters R} :
    o.step previous aggregated = .ok (global, o') ↔
      o.follow previous aggregated = .ok (global, o') ∧ global.isFinite = true := by
  simp only [step, bind_eq_ok, mapError_eq_ok, pure, Except.pure, Except.ok.injEq, guard_eq_ok,
    Prod.mk.injEq, Prod.exists]
  constructor
  · rintro ⟨p, next, hf, hfinite, rfl, rfl⟩
    exact ⟨hf, by simpa using hfinite⟩
  · rintro ⟨hf, hfinite⟩
    exact ⟨global, o', hf, by simp [hfinite], rfl, rfl⟩

theorem checkPreconditions_of_step {o o' : Optimizer R} {previous aggregated global : Parameters R}
    (h : o.step previous aggregated = .ok (global, o')) (ho : o.checkPreconditions = .ok ()) :
    o'.checkPreconditions = .ok () := by
  obtain ⟨hvalid, -, -⟩ := follow_eq_ok (step_eq_ok.1 h).1
  rw [checkPreconditions_eq_ok, hvalid]
  exact checkPreconditions_eq_ok.1 ho

end Optimizer

end Federation
