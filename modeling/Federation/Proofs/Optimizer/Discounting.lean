import Mathlib.Algebra.BigOperators.Field
import Mathlib.Algebra.Ring.GeomSum
import Mathlib.Analysis.Convex.StdSimplex
import Federation.Proofs.Optimizer.Adaptive
/-!
# Moments as discounted sums

An optimizer that began without state holds sums over the rounds it has stepped through, in which a round
counts by one more factor for every round after it. For Adam these sums, once their bias is corrected, are
averages: of the gradients in the first moment, of their squares in the second one. So gradients that stay
the same are followed by the same step each time.
-/

namespace Federation

/-! ## 1. Discounted sums -/

section

variable {α : Type}

/-- The sum of a term of every round, each discounted by one factor for every round after it. -/
def discounted (beta : ℝ) (term : α → ℝ) (rounds : List α) : ℝ :=
  ∑ j : Fin rounds.length, beta ^ (rounds.length - 1 - j) * term rounds[j]

theorem discounted_nil (beta : ℝ) (term : α → ℝ) : discounted beta term [] = 0 := Fin.sum_univ_zero _

/-- One more round discounts the others once more. -/
theorem discounted_append (beta : ℝ) (term : α → ℝ) (rounds : List α) (r : α) :
    discounted beta term (rounds ++ [r]) = beta * discounted beta term rounds + term r := by
  -- as a sum over a range, where the last summand can be split off
  have hsum : ∀ l : List α, discounted beta term l =
      ∑ j ∈ Finset.range l.length, beta ^ (l.length - 1 - j) * (l[j]?.map term).getD 0 := by
    intro l
    rw [discounted, Finset.sum_range]
    refine Finset.sum_congr rfl fun j _ => ?_
    rw [List.getElem?_eq_getElem j.2]
    rfl
  rw [hsum, hsum, List.length_append, List.length_singleton, Finset.sum_range_succ, Finset.mul_sum,
    List.getElem?_concat_length, Nat.add_sub_cancel, Nat.sub_self, pow_zero, one_mul]
  congr 1
  refine Finset.sum_congr rfl fun j hj => ?_
  have hlt : j < rounds.length := Finset.mem_range.1 hj
  have hpower : rounds.length - j = rounds.length - 1 - j + 1 := by omega
  rw [List.getElem?_append_left hlt, hpower, pow_succ']
  ring

theorem sum_discounts (beta : ℝ) (n : ℕ) :
    (1 - beta) * ∑ j : Fin n, beta ^ (n - 1 - j) = 1 - beta ^ n := by
  rw [← Finset.sum_range fun j => beta ^ (n - 1 - j), Finset.sum_range_reflect, mul_neg_geom_sum]

/-- What a round counts in a discounted sum whose bias is corrected. -/
noncomputable def correctedWeight (beta : ℝ) (n : ℕ) (j : Fin n) : ℝ :=
  (1 - beta) * beta ^ (n - 1 - j) / (1 - beta ^ n)

theorem corrected_eq (beta : ℝ) (term : α → ℝ) (rounds : List α) :
    (1 - beta) * discounted beta term rounds / (1 - beta ^ rounds.length) =
      ∑ j : Fin rounds.length, correctedWeight beta rounds.length j * term rounds[j] := by
  rw [discounted, Finset.mul_sum, Finset.sum_div]
  refine Finset.sum_congr rfl fun j _ => ?_
  rw [correctedWeight]
  ring

end

/-- The correction makes up for what the discounts take away, so the weights are those of an average. -/
theorem correctedWeight_mem_stdSimplex {beta : ℝ} (h : 0 ≤ beta ∧ beta < 1) {n : ℕ} (hn : n ≠ 0) :
    correctedWeight beta n ∈ stdSimplex ℝ (Fin n) := by
  have hbias : 0 < 1 - beta ^ n := sub_pos.2 (pow_lt_one₀ h.1 h.2 hn)
  constructor
  · intro j
    exact div_nonneg (mul_nonneg (sub_nonneg.2 h.2.le) (pow_nonneg h.1 _)) hbias.le
  · unfold correctedWeight
    rw [← Finset.sum_div, ← Finset.mul_sum, sum_discounts, div_self hbias.ne']

/-! ## 2. Moments -/

/-- The gradient of a round at a position. -/
def gradientAt (r : Parameters ℝ × Parameters ℝ) (k : ℕ) : ℝ := r.1.valueAt k - r.2.valueAt k

/-- The value of a moment at a position, zero before the first step. -/
def momentAt (moment : Option (Parameters ℝ)) (k : ℕ) : ℝ := (moment.map (·.valueAt k)).getD 0

/-- A moment holds the discounted sum of what some rounds contribute at each position, times a scale. It
has the layout of the rounds, and there is none before the first of them. -/
structure Holds (scale beta : ℝ) (contribution : Parameters ℝ × Parameters ℝ → ℕ → ℝ)
    (rounds : List (Parameters ℝ × Parameters ℝ)) (moment : Option (Parameters ℝ)) : Prop where
  missing : moment = none ↔ rounds = []
  layout : ∀ m ∈ moment, ∀ r ∈ rounds, OfLayout m.layout r
  value : ∀ k, momentAt moment k = scale * discounted beta (contribution · k) rounds

/-- A moment is renewed by a round. -/
structure Renewed (scale beta : ℝ) (contribution : Parameters ℝ × Parameters ℝ → ℕ → ℝ)
    (r : Parameters ℝ × Parameters ℝ) (moment : Option (Parameters ℝ)) (next : Parameters ℝ) : Prop where
  former : ∀ m ∈ moment, m.layout = next.layout
  layout : OfLayout next.layout r
  value : ∀ k, next.valueAt k = beta * momentAt moment k + scale * contribution r k

variable {scale beta : ℝ} {contribution : Parameters ℝ × Parameters ℝ → ℕ → ℝ}
  {rounds : List (Parameters ℝ × Parameters ℝ)} {r : Parameters ℝ × Parameters ℝ}

theorem holds_none : Holds scale beta contribution [] none where
  missing := iff_of_true rfl rfl
  layout := nofun
  value k := by
    rw [discounted_nil, mul_zero]
    rfl

theorem Holds.renewed {moment : Option (Parameters ℝ)} {next : Parameters ℝ}
    (h : Holds scale beta contribution rounds moment)
    (hnext : Renewed scale beta contribution r moment next) :
    Holds scale beta contribution (rounds ++ [r]) (some next) where
  missing := iff_of_false nofun (List.concat_ne_nil _ _)
  layout := by
    rintro m ⟨⟩ r' hr'
    rcases List.mem_append.1 hr' with hr' | hr'
    · -- there was a moment before, since there were rounds
      obtain ⟨m, hm⟩ := Option.ne_none_iff_exists'.1 (mt h.missing.1 (List.ne_nil_of_mem hr'))
      rw [← hnext.former m hm]
      exact h.layout m hm r' hr'
    · rw [List.mem_singleton.1 hr']
      exact hnext.layout
  value k := by
    rw [discounted_append, mul_add, mul_left_comm, ← h.value k]
    exact hnext.value k

/-! ## 3. What a step renews -/

section

variable {gradient next : Parameters ℝ}
  (hgradient : r.1.zipWith r.2 (fun p a => p - a) = .ok gradient)
include hgradient

theorem ofLayout_of_gradient : OfLayout gradient.layout r := by
  obtain ⟨hlayout, hsame⟩ := Parameters.layout_of_zipWith hgradient
  exact ⟨hsame.symm, hlayout.symm.trans hsame.symm⟩

theorem valueAt_gradient (k : ℕ) : gradient.valueAt k = gradientAt r k :=
  Parameters.valueAt_zipWith (sub_zero 0) hgradient k

theorem renewed_velocity {m : Momentum ℝ} (hfirst : m.velocity = none → next = gradient)
    (hnext : ∀ v, m.velocity = some v → v.zipWith gradient (fun v g => m.beta * v + g) = .ok next) :
    Renewed 1 m.beta gradientAt r m.velocity next := by
  have hround := ofLayout_of_gradient hgradient
  have hvalue := valueAt_gradient hgradient
  cases hv : m.velocity with
  | none =>
    obtain rfl := hfirst hv
    refine ⟨nofun, hround, fun k => ?_⟩
    rw [momentAt, Option.map_none, Option.getD_none, mul_zero, zero_add, one_mul, hvalue]
  | some v =>
    obtain ⟨hlayout, hsame⟩ := Parameters.layout_of_zipWith (hnext v hv)
    refine ⟨fun _ h => Option.some.inj h ▸ hsame.symm, ?_, fun k => ?_⟩
    · rwa [hsame, hlayout]
    · rw [Parameters.valueAt_zipWith (by simp) (hnext v hv), hvalue, one_mul]
      rfl

theorem renewed_first {a : Adaptive ℝ} (hnext : a.nextFirst gradient = .ok next) :
    Renewed (1 - a.beta1) a.beta1 gradientAt r a.firstMoment next := by
  have hround := ofLayout_of_gradient hgradient
  have hvalue := valueAt_gradient hgradient
  unfold Adaptive.nextFirst at hnext
  cases hm : a.firstMoment with
  | none =>
    rw [hm] at hnext
    obtain rfl := Except.ok.inj hnext
    refine ⟨nofun, by rwa [Parameters.layout_map], fun k => ?_⟩
    rw [Parameters.valueAt_map (mul_zero _), hvalue, momentAt, Option.map_none, Option.getD_none, mul_zero,
      zero_add]
  | some m =>
    rw [hm] at hnext
    obtain ⟨hlayout, hsame⟩ := Parameters.layout_of_zipWith hnext
    refine ⟨fun _ h => Option.some.inj h ▸ hsame.symm, ?_, fun k => ?_⟩
    · rwa [hsame, hlayout]
    · rw [Parameters.valueAt_zipWith (by simp) hnext, hvalue]
      rfl

theorem renewed_second {a : Adaptive ℝ} (hnext : a.nextSecond .decay gradient = .ok next) :
    Renewed (1 - a.beta2) a.beta2 squaredGradientAt r a.secondMoment next := by
  have hround := ofLayout_of_gradient hgradient
  have hsquared := Parameters.layout_map (fun g : ℝ => g * g) gradient
  have hvalue : ∀ k, next.valueAt k =
      a.beta2 * momentAt a.secondMoment k + (1 - a.beta2) * squaredGradientAt r k := fun k => by
    rw [Adaptive.secondAt_of_nextSecond hnext, valueAt_gradient hgradient]
    rfl
  unfold Adaptive.nextSecond at hnext
  cases hv : a.secondMoment with
  | none =>
    rw [hv] at hnext hvalue
    obtain rfl := Except.ok.inj hnext
    exact ⟨nofun, by rwa [Parameters.layout_map, hsquared], hvalue⟩
  | some v =>
    rw [hv] at hnext hvalue
    obtain ⟨hlayout, hsame⟩ := Parameters.layout_of_zipWith hnext
    refine ⟨fun _ h => Option.some.inj h ▸ hsame.symm, ?_, hvalue⟩
    rwa [hsame, hlayout, hsquared]

end

/-! ## 4. Runs -/

/-- What rounds have made of an adaptive optimizer. The counter of steps stops at the greatest word. -/
structure Adaptive.Accumulated (rounds : List (Parameters ℝ × Parameters ℝ)) (start now : Adaptive ℝ) :
    Prop where
  settings : now =
    { start with step := now.step, firstMoment := now.firstMoment, secondMoment := now.secondMoment }
  step : now.step.toNat = min rounds.length (2 ^ 64 - 1)
  first : Holds (1 - start.beta1) start.beta1 gradientAt rounds now.firstMoment

namespace Adaptive

variable {start a a' : Adaptive ℝ}

theorem Accumulated.beta1 (h : start.Accumulated rounds a) : a.beta1 = start.beta1 := by rw [h.settings]

theorem Accumulated.beta2 (h : start.Accumulated rounds a) : a.beta2 = start.beta2 := by rw [h.settings]

theorem accumulated_nil (hstep : a.step = 0) (hfirst : a.firstMoment = none) : a.Accumulated [] a where
  settings := rfl
  step := by
    rw [hstep]
    rfl
  first := by
    rw [hfirst]
    exact holds_none

/-- A step of an adaptive optimizer renews the first moment and counts, whatever rule the second moment
follows. -/
theorem Accumulated.apply (h : start.Accumulated rounds a) {rule : SecondMomentRule}
    {gradient global : Parameters ℝ} (hgradient : r.1.zipWith r.2 (fun p a => p - a) = .ok gradient)
    (happly : a.apply rule r.1 gradient = .ok (global, a')) : start.Accumulated (rounds ++ [r]) a' := by
  obtain ⟨first, second, update, hfirst, -, -, -, rfl⟩ := Optimizer.adaptive_apply_eq_ok.1 happly
  have hbeta : a.beta1 = start.beta1 := h.beta1
  have hrenewed := renewed_first hgradient hfirst
  rw [hbeta] at hrenewed
  refine ⟨?_, ?_, h.first.renewed hrenewed⟩
  · rw [h.settings]
  · have hcount := h.step
    have hnext := toNat_nextStep a
    have hlength : (rounds ++ [r]).length = rounds.length + 1 := List.length_append
    show a.nextStep.toNat = _
    omega

theorem holds_second_of_apply (h : start.Accumulated rounds a)
    (hsecond : Holds (1 - start.beta2) start.beta2 squaredGradientAt rounds a.secondMoment)
    {gradient global : Parameters ℝ} (hgradient : r.1.zipWith r.2 (fun p a => p - a) = .ok gradient)
    (happly : a.apply .decay r.1 gradient = .ok (global, a')) :
    Holds (1 - start.beta2) start.beta2 squaredGradientAt (rounds ++ [r]) a'.secondMoment := by
  obtain ⟨first, second, update, -, hnext, -, -, rfl⟩ := Optimizer.adaptive_apply_eq_ok.1 happly
  have hbeta : a.beta2 = start.beta2 := h.beta2
  have hrenewed := renewed_second hgradient hnext
  rw [hbeta] at hrenewed
  exact hsecond.renewed hrenewed

end Adaptive

namespace Optimizer

/-- No step was taken yet. -/
def IsNew {R : Type} : Optimizer R → Prop
  | .sgd _ => True
  | .momentum m => m.velocity = none
  | .adam a | .yogi a => a.step = 0 ∧ a.firstMoment = none ∧ a.secondMoment = none

/-- What rounds have made of an optimizer: one of the same kind and hyperparameters, whose moments hold
what the rounds contributed. -/
def Accumulated (rounds : List (Parameters ℝ × Parameters ℝ)) : Optimizer ℝ → Optimizer ℝ → Prop
  | .sgd rate, now => now = .sgd rate
  | .momentum m, now => ∃ velocity, now = .momentum { m with velocity } ∧
      Holds 1 m.beta gradientAt rounds velocity
  | .adam a, now => ∃ a', now = .adam a' ∧ a.Accumulated rounds a' ∧
      Holds (1 - a.beta2) a.beta2 squaredGradientAt rounds a'.secondMoment
  | .yogi a, now => ∃ a', now = .yogi a' ∧ a.Accumulated rounds a'

variable {o now before after : Optimizer ℝ} {global : Parameters ℝ}

theorem IsNew.accumulated (h : o.IsNew) : o.Accumulated [] o := by
  cases o with
  | sgd rate => exact rfl
  | momentum m =>
    have hv : m.velocity = none := h
    refine ⟨m.velocity, rfl, ?_⟩
    rw [hv]
    exact holds_none
  | adam a =>
    obtain ⟨hstep, hfirst, hsecond⟩ := h
    refine ⟨a, rfl, Adaptive.accumulated_nil hstep hfirst, ?_⟩
    rw [hsecond]
    exact holds_none
  | yogi a =>
    obtain ⟨hstep, hfirst, -⟩ := h
    exact ⟨a, rfl, Adaptive.accumulated_nil hstep hfirst⟩

/-- A step adds the contribution of its round. -/
theorem Accumulated.step (h : o.Accumulated rounds before)
    (hstep : before.step r.1 r.2 = .ok (global, after)) : o.Accumulated (rounds ++ [r]) after := by
  have hfollow := (step_eq_ok.1 hstep).1
  cases o with
  | sgd rate =>
    obtain rfl : before = .sgd rate := h
    obtain ⟨p, -, heq⟩ := map_eq_ok.1 hfollow
    exact (Prod.mk.inj heq).2.symm
  | momentum m =>
    obtain ⟨velocity, rfl, hvelocity⟩ := h
    obtain ⟨gradient, hgradient, hrest⟩ := bind_eq_ok.1 hfollow
    obtain ⟨⟨p, m'⟩, happly, heq⟩ := bind_eq_ok.1 hrest
    obtain ⟨rfl, rfl⟩ := Prod.mk.inj (Except.ok.inj heq)
    obtain ⟨next, hfirst, hnext, -, rfl⟩ := momentum_apply_eq_ok.1 happly
    exact ⟨some next, rfl, hvelocity.renewed (renewed_velocity hgradient hfirst hnext)⟩
  | adam a =>
    obtain ⟨a', rfl, ha, hsecond⟩ := h
    obtain ⟨gradient, next, hgradient, happly, rfl⟩ := Adaptive.apply_of_follow .decay hfollow
    exact ⟨next, rfl, ha.apply hgradient happly,
      Adaptive.holds_second_of_apply ha hsecond hgradient happly⟩
  | yogi a =>
    obtain ⟨a', rfl, ha⟩ := h
    obtain ⟨gradient, next, hgradient, happly, rfl⟩ := Adaptive.apply_of_follow .signed hfollow
    exact ⟨next, rfl, ha.apply hgradient happly⟩

theorem Accumulated.stepAll (h : o.Accumulated rounds before) {rest : List (Parameters ℝ × Parameters ℝ)}
    (hrest : before.stepAll rest = .ok now) : o.Accumulated (rounds ++ rest) now := by
  induction rest generalizing rounds before with
  | nil =>
    obtain rfl := Except.ok.inj hrest
    rwa [List.append_nil]
  | cons r rest ih =>
    obtain ⟨⟨global, next⟩, hstep, hrest⟩ := bind_eq_ok.1 hrest
    have hnext := ih (h.step hstep) hrest
    rwa [List.append_assoc] at hnext

/-- Only Adam becomes Adam. -/
theorem Accumulated.of_adam {a : Adaptive ℝ} (h : o.Accumulated rounds (.adam a)) :
    ∃ start, o = .adam start ∧ start.Accumulated rounds a ∧
      Holds (1 - start.beta2) start.beta2 squaredGradientAt rounds a.secondMoment := by
  cases o with
  | sgd rate => cases (h : adam a = .sgd rate)
  | momentum m =>
    obtain ⟨velocity, heq, -⟩ := h
    cases heq
  | adam start =>
    obtain ⟨a', heq, ha, hsecond⟩ := h
    obtain rfl := adam.inj heq
    exact ⟨start, rfl, ha, hsecond⟩
  | yogi start =>
    obtain ⟨a', heq, -⟩ := h
    cases heq

end Optimizer

/-! ## 5. Adam and plain descent -/

/-- The moments of Adam, once their bias is corrected, are averages: of the gradients and of their squares,
with weights that do not depend on the position. -/
structure Adaptive.Averages (rounds : List (Parameters ℝ × Parameters ℝ)) (a : Adaptive ℝ) : Prop where
  weights1 : correctedWeight a.beta1 rounds.length ∈ stdSimplex ℝ (Fin rounds.length)
  weights2 : correctedWeight a.beta2 rounds.length ∈ stdSimplex ℝ (Fin rounds.length)
  first : ∀ k, a.firstAt k / a.correction1 =
    ∑ j, correctedWeight a.beta1 rounds.length j * gradientAt rounds[j] k
  second : ∀ k, a.radicand k =
    ∑ j, correctedWeight a.beta2 rounds.length j * squaredGradientAt rounds[j] k

namespace Adaptive

variable {start a : Adaptive ℝ}

theorem Accumulated.toNat_step (h : start.Accumulated rounds a) (hword : rounds.length < 2 ^ 64) :
    a.step.toNat = rounds.length := by
  have hstep := h.step
  omega

theorem Accumulated.averages (h : start.Accumulated rounds a) (hvalid : start.Valid)
    (hsecond : Holds (1 - start.beta2) start.beta2 squaredGradientAt rounds a.secondMoment)
    (hsome : rounds ≠ []) (hword : rounds.length < 2 ^ 64) : a.Averages rounds := by
  have hcount := h.toNat_step hword
  have hn : rounds.length ≠ 0 := mt List.eq_nil_of_length_eq_zero hsome
  have hfirst := h.first
  rw [← h.beta1] at hfirst
  rw [← h.beta2] at hsecond
  refine ⟨correctedWeight_mem_stdSimplex (h.beta1 ▸ hvalid.beta1) hn,
    correctedWeight_mem_stdSimplex (h.beta2 ▸ hvalid.beta2) hn, fun k => ?_, fun k => ?_⟩
  · calc a.firstAt k / a.correction1
        = (1 - a.beta1) * discounted a.beta1 (gradientAt · k) rounds / (1 - a.beta1 ^ rounds.length) := by
          rw [← hfirst.value, ← hcount]
          rfl
      _ = _ := corrected_eq _ _ _
  · calc a.radicand k
        = (1 - a.beta2) * discounted a.beta2 (squaredGradientAt · k) rounds /
            (1 - a.beta2 ^ rounds.length) := by
          rw [← hsecond.value, ← hcount]
          rfl
      _ = _ := corrected_eq _ _ _

/-- Averages of gradients that are the same. -/
theorem Averages.of_eq (h : a.Averages rounds) {k : ℕ} {g : ℝ} (hg : ∀ r ∈ rounds, gradientAt r k = g) :
    a.firstAt k / a.correction1 = g ∧ a.radicand k = g * g := by
  have hround : ∀ j : Fin rounds.length, gradientAt rounds[j] k = g := fun j => hg _ (List.getElem_mem j.2)
  have hsquare : ∀ j : Fin rounds.length, squaredGradientAt rounds[j] k = g * g := fun j => by
    rw [← hround j]
    rfl
  rw [h.first, h.second]
  simp only [hround, hsquare]
  rw [← Finset.sum_mul, ← Finset.sum_mul, h.weights1.2, h.weights2.2, one_mul, one_mul]
  exact ⟨rfl, rfl⟩

theorem value_of_step {previous aggregated global : Parameters ℝ} {a' : Adaptive ℝ}
    (h : (Optimizer.adam a).step previous aggregated = .ok (global, .adam a')) (k : ℕ) :
    global.valueAt k = previous.valueAt k -
      a.learningRate * (a'.firstAt k / a'.correction1) / a'.denominator k := by
  obtain ⟨gradient, next, -, happly, heq⟩ := apply_of_follow .decay (Optimizer.step_eq_ok.1 h).1
  obtain rfl := Optimizer.adam.inj heq
  exact (values_of_apply happly k).2

end Adaptive

namespace Optimizer

/-- At the rate one the difference does not have to be computed. -/
theorem descend_eq (rate : ℝ) (previous aggregated : Parameters ℝ) :
    descend rate previous aggregated = previous.zipWith aggregated fun p a => p - rate * (p - a) := by
  unfold descend
  split
  next hone =>
    obtain rfl : rate = 1 := of_decide_eq_true hone
    cases hcheck : previous.checkShape aggregated with
    | error e =>
      rw [Parameters.zipWith, hcheck]
      rfl
    | ok =>
      have hlayout := Parameters.checkShape_eq_ok.1 hcheck
      obtain ⟨global, hglobal, hsame, -⟩ :=
        Parameters.zipWith_of_layout hlayout fun p a : ℝ => p - 1 * (p - a)
      have hkept : aggregated = global := by
        refine Parameters.ext_valueAt (hlayout.symm.trans hsame.symm) fun k => ?_
        rw [Parameters.valueAt_zipWith (by simp) hglobal, one_mul, sub_sub_cancel]
      rw [hglobal, hkept]
      rfl
  next => rfl

theorem step_sgd_eq (rate : ℝ) (previous aggregated : Parameters ℝ) :
    (Optimizer.sgd rate).step previous aggregated =
      ((previous.zipWith aggregated fun p a => p - rate * (p - a)).mapError .optimizerState).map
        (·, .sgd rate) := by
  have hfollow : (Optimizer.sgd rate).follow previous aggregated =
      (descend rate previous aggregated).map (·, Optimizer.sgd rate) := rfl
  rw [← descend_eq, step, hfollow]
  cases descend rate previous aggregated with
  | error e => rfl
  | ok global =>
    have hfinite := Adaptive.isFinite_real global
    simp [Except.map, Except.mapError, bind, Except.bind, pure, Except.pure, hfinite]

end Optimizer

/-- The state of an optimizer after any rounds it has stepped through since it was built without state. Its
kind and hyperparameters are those it was built with, and its moments are discounted sums over the rounds:
of the gradients for momentum and for the first moment of the adaptive optimizers, of their squares for the
second moment of Adam. Once their bias is corrected the moments of Adam are averages, which the same gradient
in every round passes through; a step is then the learning rate times its sign, up to epsilon. (The counter
of steps holds up to the greatest word, so the corrections are those of the rounds as long as these can be
counted.) Plain descent follows one formula at every rate, at the rate one too. -/
theorem optimizer_state_in_closed_form (o : Optimizer ℝ) (hnew : o.IsNew)
    (hvalid : o.checkPreconditions = .ok ()) (rounds : List (Parameters ℝ × Parameters ℝ))
    (now : Optimizer ℝ) (hrun : o.stepAll rounds = .ok now) :
    o.Accumulated rounds now ∧
    (∀ a, now = .adam a → rounds ≠ [] → rounds.length < 2 ^ 64 →
      a.step.toNat = rounds.length ∧ a.Averages rounds) ∧
    (∀ (last : Parameters ℝ × Parameters ℝ) (global : Parameters ℝ) (a : Adaptive ℝ),
      now.step last.1 last.2 = .ok (global, .adam a) → rounds.length + 1 < 2 ^ 64 →
      ∀ k g, (∀ r ∈ rounds ++ [last], gradientAt r k = g) →
        a.firstAt k / a.correction1 = g ∧ a.radicand k = g * g ∧
        global.valueAt k = last.1.valueAt k - a.learningRate * g / (|g| + a.epsilon)) ∧
    ∀ rate previous aggregated, (Optimizer.sgd rate).step previous aggregated =
      ((previous.zipWith aggregated fun p a : ℝ => p - rate * (p - a)).mapError .optimizerState).map
        (·, .sgd rate) := by
  have hnow := hnew.accumulated.stepAll hrun
  rw [List.nil_append] at hnow
  refine ⟨hnow, ?_, ?_, Optimizer.step_sgd_eq⟩
  · rintro a rfl hsome hword
    obtain ⟨start, rfl, ha, hsecond⟩ := hnow.of_adam
    exact ⟨ha.toNat_step hword, ha.averages ((Adaptive.valid_iff .decay start).1 hvalid) hsecond hsome hword⟩
  · intro last global a hstep hword k g hg
    obtain ⟨start, rfl, ha, hsecond⟩ := (hnow.step hstep).of_adam
    obtain ⟨before, rfl, hbefore, -⟩ := hnow
    have hsome : rounds ++ [last] ≠ [] := List.concat_ne_nil _ _
    have hlength : (rounds ++ [last]).length < 2 ^ 64 := by rwa [List.length_append]
    have haverages := ha.averages ((Adaptive.valid_iff .decay start).1 hvalid) hsecond hsome hlength
    obtain ⟨hfirst, hradicand⟩ := haverages.of_eq hg
    have hrate : before.learningRate = a.learningRate := by rw [hbefore.settings, ha.settings]
    have hroot : a.denominator k = |g| + a.epsilon := by
      rw [Adaptive.denominator, hradicand, ← Real.sqrt_mul_self_eq_abs]
      rfl
    refine ⟨hfirst, hradicand, ?_⟩
    rw [Adaptive.value_of_step hstep, hfirst, hroot, hrate]

theorem optimizer_state_in_closed_form_adam :
    ∃ a, (Optimizer.adam (.initial 1 (1 / 2) (1 / 2) 1)).stepAll
        [(Parameters.ofLayers [("w", [(1 : ℝ)])], Parameters.ofLayers [("w", [0])]),
          (Parameters.ofLayers [("w", [3])], Parameters.ofLayers [("w", [0])])] = .ok (.adam a) ∧
      a.step.toNat = 2 ∧ a.firstAt 0 = 7 / 4 ∧ a.secondAt 0 = 19 / 4 ∧
      a.firstAt 0 / a.correction1 = 7 / 3 ∧ a.radicand 0 = 19 / 3 := by
  have hhalf : (0 : ℝ) ≤ 1 / 2 ∧ (1 / 2 : ℝ) < 1 := by norm_num
  have hvalid : (Adaptive.initial (1 : ℝ) (1 / 2) (1 / 2) 1).Valid := ⟨one_pos, hhalf, hhalf, one_pos⟩
  have hrounds : ∀ r ∈ [(Parameters.ofLayers [("w", [(1 : ℝ)])], Parameters.ofLayers [("w", [0])]),
      (.ofLayers [("w", [3])], .ofLayers [("w", [0])])], OfLayout (SortedMap.ofList [("w", 1)]) r :=
    List.forall_mem_cons.2 ⟨⟨rfl, rfl⟩, List.forall_mem_singleton.2 ⟨rfl, rfl⟩⟩
  obtain ⟨a, hrun, -⟩ := (Adaptive.tracks_initial .decay _ 1 (1 / 2) (1 / 2) 1).stepAll hvalid hrounds
  obtain ⟨hnow, haverages, -⟩ := optimizer_state_in_closed_form
    (.adam (.initial 1 (1 / 2) (1 / 2) 1)) ⟨rfl, rfl, rfl⟩ ((Adaptive.valid_iff .decay _).2 hvalid) _ _ hrun
  obtain ⟨hcount, haverages⟩ := haverages a rfl (List.cons_ne_nil _ _) (by norm_num)
  obtain ⟨a', heq, ha, hsecond⟩ := hnow
  obtain rfl := Optimizer.adam.inj heq
  have hfirst : a.firstAt 0 = (1 - 1 / 2) * ((1 / 2) ^ 1 * (1 - 0) + (1 / 2) ^ 0 * (3 - 0)) :=
    (ha.first.value 0).trans (congrArg _ (Fin.sum_univ_two _))
  have hsquare : a.secondAt 0 =
      (1 - 1 / 2) * ((1 / 2) ^ 1 * ((1 - 0) * (1 - 0)) + (1 / 2) ^ 0 * ((3 - 0) * (3 - 0))) :=
    (hsecond.value 0).trans (congrArg _ (Fin.sum_univ_two _))
  have hmean : a.firstAt 0 / a.correction1 =
      correctedWeight a.beta1 2 0 * (1 - 0) + correctedWeight a.beta1 2 1 * (3 - 0) :=
    (haverages.first 0).trans (Fin.sum_univ_two _)
  have hmean2 : a.radicand 0 = correctedWeight a.beta2 2 0 * ((1 - 0) * (1 - 0)) +
      correctedWeight a.beta2 2 1 * ((3 - 0) * (3 - 0)) :=
    (haverages.second 0).trans (Fin.sum_univ_two _)
  rw [ha.beta1] at hmean
  rw [ha.beta2] at hmean2
  refine ⟨a, hrun, hcount, ?_, ?_, ?_, ?_⟩
  · rw [hfirst]
    norm_num
  · rw [hsquare]
    norm_num
  · rw [hmean]
    norm_num [correctedWeight, Adaptive.initial]
  · rw [hmean2]
    norm_num [correctedWeight, Adaptive.initial]

end Federation
