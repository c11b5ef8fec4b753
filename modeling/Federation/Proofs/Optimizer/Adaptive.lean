import Mathlib.Analysis.Real.Sqrt
import Mathlib.Tactic.Linarith
import Mathlib.Tactic.Ring
import Federation.Proofs.Optimizer
import Federation.Proofs.Rational
/-!
# What the adaptive optimizers divide by

Adam and Yogi divide by the corrections of the bias and by the root of the second moment. In exact
arithmetic this is defined in every step: the corrections are positive, the second moment becomes negative
under neither rule, and epsilon is added to the root. A second moment that decays is moreover, up to its
bias, a mean of the squared gradients, so it stays between the least and the greatest of them.
-/

namespace Federation

variable {R : Type}

/-- Real numbers. Every one of them is finite, and a root is exact if there is one. -/
noncomputable instance : RootScalar ℝ where
  decLt := inferInstance
  ofInt i := i
  isFinite _ := true
  round x := clampWord (if x < 0 then ⌈x - 1 / 2⌉ else ⌊x + 1 / 2⌋)
  ceil x := min (2 ^ 64 - 1) ⌈x⌉.toNat
  sqrt := Real.sqrt
  power x n := x ^ n.toNat

/-! ## 1. The rules for one value -/

namespace SecondMomentRule

/-- The optimizer whose second moment follows a rule. -/
def optimizer : SecondMomentRule → Adaptive R → Optimizer R
  | .decay => .adam
  | .signed => .yogi

/-- A value of the second moment after a squared gradient. -/
def next [Scalar R] (rule : SecondMomentRule) (beta v g : R) : R :=
  match rule with
  | .decay => beta * v + (1 - beta) * g
  | .signed => v - (1 - beta) * g * Scalar.sign (v - g)

variable {beta v g : ℝ}

theorem sign_real (x : ℝ) : Scalar.sign x = if 0 < x then 1 else if x < 0 then -1 else 0 := rfl

/-- A missing moment counts as zero. -/
theorem next_zero (rule : SecondMomentRule) (beta : ℝ) (hg : 0 ≤ g) :
    rule.next beta 0 g = (1 - beta) * g := by
  cases rule with
  | decay =>
    show beta * 0 + (1 - beta) * g = (1 - beta) * g
    ring
  | signed =>
    show (0 : ℝ) - (1 - beta) * g * Scalar.sign (0 - g) = (1 - beta) * g
    obtain rfl | hpos := hg.eq_or_lt
    · simp
    · rw [sign_real, if_neg (by linarith), if_pos (by linarith)]
      ring

/-- The second moment does not become negative. A value above the squared gradient is decreased by less
than the squared gradient, any other one is not decreased. -/
theorem next_nonneg (rule : SecondMomentRule) (h0 : 0 ≤ beta) (h1 : beta < 1) (hv : 0 ≤ v) (hg : 0 ≤ g) :
    0 ≤ rule.next beta v g := by
  have hmove : 0 ≤ (1 - beta) * g := mul_nonneg (by linarith) hg
  cases rule with
  | decay => exact add_nonneg (mul_nonneg h0 hv) hmove
  | signed =>
    show 0 ≤ v - (1 - beta) * g * Scalar.sign (v - g)
    have hsmall : (1 - beta) * g ≤ g := mul_le_of_le_one_left hg (by linarith)
    rw [sign_real]
    split
    next habove => linarith
    next =>
      split
      next => linarith
      next => linarith

/-- Decay keeps the second moment, but for its bias, between bounds of the squared gradients. -/
theorem decay_between {low high : ℝ} {n : ℕ} (h0 : 0 ≤ beta) (h1 : beta < 1)
    (hg : low ≤ g ∧ g ≤ high) (hv : low * (1 - beta ^ n) ≤ v ∧ v ≤ high * (1 - beta ^ n)) :
    low * (1 - beta ^ (n + 1)) ≤ decay.next beta v g ∧
      decay.next beta v g ≤ high * (1 - beta ^ (n + 1)) := by
  have hsplit : ∀ x : ℝ, x * (1 - beta ^ (n + 1)) = beta * (x * (1 - beta ^ n)) + (1 - beta) * x :=
    fun x => by ring
  have hrest : 0 ≤ 1 - beta := by linarith
  rw [hsplit, hsplit]
  exact ⟨add_le_add (mul_le_mul_of_nonneg_left hv.1 h0) (mul_le_mul_of_nonneg_left hg.1 hrest),
    add_le_add (mul_le_mul_of_nonneg_left hv.2 h0) (mul_le_mul_of_nonneg_left hg.2 hrest)⟩

end SecondMomentRule

/-! ## 2. What a step computes -/

/-- The square of the gradient of a round at a position. -/
def squaredGradientAt (r : Parameters ℝ × Parameters ℝ) (k : ℕ) : ℝ :=
  (r.1.valueAt k - r.2.valueAt k) * (r.1.valueAt k - r.2.valueAt k)

/-- Both parameters of a round have a layout. -/
def OfLayout (layout : NameMap Nat) (r : Parameters ℝ × Parameters ℝ) : Prop :=
  r.1.layout = layout ∧ r.2.layout = layout

namespace Adaptive

section

variable [RootScalar R]

/-- The first moment at a position, zero before the first step. -/
def firstAt (a : Adaptive R) (k : ℕ) : R := (a.firstMoment.map (·.valueAt k)).getD 0

/-- The second moment at a position, zero before the first step. -/
def secondAt (a : Adaptive R) (k : ℕ) : R := (a.secondMoment.map (·.valueAt k)).getD 0

/-- What the first moment was divided by in the last step. -/
def correction1 (a : Adaptive R) : R := 1 - RootScalar.power a.beta1 a.step

/-- What the second moment was divided by in the last step. -/
def correction2 (a : Adaptive R) : R := 1 - RootScalar.power a.beta2 a.step

/-- The corrected second moment, of which the last step took the root. -/
def radicand (a : Adaptive R) (k : ℕ) : R := a.secondAt k / a.correction2

/-- What the last step divided by. -/
def denominator (a : Adaptive R) (k : ℕ) : R := RootScalar.sqrt (a.radicand k) + a.epsilon

end

theorem toNat_nextStep (a : Adaptive R) : a.nextStep.toNat = min (a.step.toNat + 1) (2 ^ 64 - 1) := by
  have hword := a.step.toNat_lt
  have hsize : UInt64.size = 2 ^ 64 := rfl
  unfold nextStep
  split
  next h =>
    rw [UInt64.toNat_add, UInt64.toNat_one, Nat.mod_eq_of_lt h]
    omega
  next h => omega

theorem secondAt_of_nextSecond {a : Adaptive ℝ} {rule : SecondMomentRule} {gradient second : Parameters ℝ}
    (h : a.nextSecond rule gradient = .ok second) (k : ℕ) :
    second.valueAt k = rule.next a.beta2 (a.secondAt k) (gradient.valueAt k * gradient.valueAt k) := by
  have hsquared : (gradient.map fun g => g * g).valueAt k = gradient.valueAt k * gradient.valueAt k :=
    Parameters.valueAt_map (f := fun g => g * g) (mul_zero 0) gradient k
  rw [← hsquared, secondAt]
  unfold nextSecond at h
  cases hv : a.secondMoment with
  | none =>
    rw [hv] at h
    obtain rfl := Except.ok.inj h
    have hsquare : 0 ≤ (gradient.map fun g => g * g).valueAt k := hsquared ▸ mul_self_nonneg _
    exact (Parameters.valueAt_map (mul_zero _) _ k).trans (rule.next_zero a.beta2 hsquare).symm
  | some v =>
    rw [hv] at h
    cases rule with
    | decay => exact Parameters.valueAt_zipWith (by simp) h k
    | signed => exact Parameters.valueAt_zipWith (by simp) h k

/-- A step lets the second moment follow the rule, and divides by its corrected root. -/
theorem values_of_apply {a a' : Adaptive ℝ} {rule : SecondMomentRule}
    {previous gradient global : Parameters ℝ} (h : a.apply rule previous gradient = .ok (global, a'))
    (k : ℕ) :
    a'.secondAt k = rule.next a.beta2 (a.secondAt k) (gradient.valueAt k * gradient.valueAt k) ∧
      global.valueAt k = previous.valueAt k -
        a.learningRate * (a'.firstAt k / a'.correction1) / a'.denominator k := by
  obtain ⟨first, second, update, -, hsecond, hupdate, hglobal, rfl⟩ := Optimizer.adaptive_apply_eq_ok.1 h
  refine ⟨secondAt_of_nextSecond hsecond k, ?_⟩
  have hchange : a.change (1 - RootScalar.power a.beta1 a.nextStep)
      (1 - RootScalar.power a.beta2 a.nextStep) 0 0 = 0 := by
    show a.learningRate * (0 / _) / _ = 0
    simp
  rw [Parameters.valueAt_zipWith (sub_zero 0) hglobal k, Parameters.valueAt_zipWith hchange hupdate k]
  rfl

theorem follow_optimizer (rule : SecondMomentRule) (a : Adaptive ℝ) (previous aggregated : Parameters ℝ) :
    (rule.optimizer a).follow previous aggregated = do
      let (global, a') ← a.apply rule previous (← previous.zipWith aggregated fun p a => p - a)
      return (global, rule.optimizer a') := by
  cases rule with
  | decay => rfl
  | signed => rfl

theorem apply_of_follow (rule : SecondMomentRule) {a : Adaptive ℝ}
    {previous aggregated global : Parameters ℝ} {o : Optimizer ℝ}
    (h : (rule.optimizer a).follow previous aggregated = .ok (global, o)) :
    ∃ gradient a', previous.zipWith aggregated (fun p a => p - a) = .ok gradient ∧
      a.apply rule previous gradient = .ok (global, a') ∧ o = rule.optimizer a' := by
  rw [follow_optimizer] at h
  obtain ⟨gradient, hgradient, hrest⟩ := bind_eq_ok.1 h
  obtain ⟨⟨p, a'⟩, happly, heq⟩ := bind_eq_ok.1 hrest
  obtain ⟨rfl, rfl⟩ := Prod.mk.inj (Except.ok.inj heq)
  exact ⟨gradient, a', hgradient, happly, rfl⟩

theorem isFinite_real (p : Parameters ℝ) : p.isFinite = true :=
  List.all_eq_true.2 fun _ _ => List.all_eq_true.2 fun _ _ => rfl

/-- A step among parameters of one layout succeeds. It leaves moments of this layout behind. -/
theorem exists_step {rule : SecondMomentRule} {a : Adaptive ℝ} {layout : NameMap Nat}
    {r : Parameters ℝ × Parameters ℝ} (hr : OfLayout layout r)
    (ha : ∀ moment ∈ (rule.optimizer a).state, moment.layout = layout) :
    ∃ global a', (rule.optimizer a).step r.1 r.2 = .ok (global, rule.optimizer a') ∧
      a' = { a with step := a.nextStep, firstMoment := a'.firstMoment, secondMoment := a'.secondMoment } ∧
      (∀ moment ∈ (rule.optimizer a').state, moment.layout = layout) ∧
      ∀ k, a'.secondAt k = rule.next a.beta2 (a.secondAt k) (squaredGradientAt r k) ∧
        global.valueAt k = r.1.valueAt k -
          a.learningRate * (a'.firstAt k / a'.correction1) / a'.denominator k := by
  obtain ⟨⟨global, o'⟩, hfollow⟩ := Optimizer.exists_follow hr.1 hr.2 ha
  have hstep : (rule.optimizer a).step r.1 r.2 = .ok (global, o') :=
    Optimizer.step_eq_ok.2 ⟨hfollow, isFinite_real global⟩
  obtain ⟨-, -, hlayouts⟩ := Optimizer.follow_eq_ok hfollow
  obtain ⟨gradient, a', hgradient, happly, rfl⟩ := apply_of_follow rule hfollow
  have hsettings : a' =
      { a with step := a.nextStep, firstMoment := a'.firstMoment, secondMoment := a'.secondMoment } := by
    obtain ⟨first, second, update, -, -, -, -, rfl⟩ := Optimizer.adaptive_apply_eq_ok.1 happly
    rfl
  refine ⟨global, a', hstep, hsettings, fun moment hmoment => (hlayouts moment hmoment).trans hr.1,
    fun k => ?_⟩
  rw [squaredGradientAt, ← Parameters.valueAt_zipWith (sub_zero 0) hgradient k]
  exact values_of_apply happly k

/-- Hyperparameters in range. -/
structure Valid (a : Adaptive ℝ) : Prop where
  learningRate : 0 < a.learningRate
  beta1 : 0 ≤ a.beta1 ∧ a.beta1 < 1
  beta2 : 0 ≤ a.beta2 ∧ a.beta2 < 1
  epsilon : 0 < a.epsilon

theorem isRate_real {beta : ℝ} : Optimizer.isRate beta = true ↔ 0 ≤ beta ∧ beta < 1 := by
  simp [Optimizer.isRate]

theorem isPositive_real {x : ℝ} : Scalar.isPositive x = true ↔ 0 < x := by
  show (true && decide (0 < x)) = true ↔ 0 < x
  simp

theorem valid_iff (rule : SecondMomentRule) (a : Adaptive ℝ) :
    (rule.optimizer a).checkPreconditions = .ok () ↔ a.Valid := by
  have hchecked : (rule.optimizer a).isValid = (Scalar.isPositive a.learningRate &&
      Optimizer.isRate a.beta1 && Optimizer.isRate a.beta2 && Scalar.isPositive a.epsilon) := by
    cases rule with
    | decay => rfl
    | signed => rfl
  rw [Optimizer.checkPreconditions_eq_ok, hchecked]
  simp only [Bool.and_eq_true, isRate_real, isPositive_real]
  exact ⟨fun ⟨⟨⟨h, h1⟩, h2⟩, he⟩ => ⟨h, h1, h2, he⟩,
    fun h => ⟨⟨⟨h.learningRate, h.beta1⟩, h.beta2⟩, h.epsilon⟩⟩

/-- What a step that leaves the optimizer `a` behind has computed is defined. -/
structure Defined (a : Adaptive ℝ) : Prop where
  correction1 : 0 < a.correction1 ∧ a.correction1 ≤ 1
  correction2 : 0 < a.correction2 ∧ a.correction2 ≤ 1
  radicand : ∀ k, 0 ≤ a.radicand k
  epsilon : 0 < a.epsilon
  denominator : ∀ k, a.epsilon ≤ a.denominator k

theorem correction_between {beta : ℝ} (h : 0 ≤ beta ∧ beta < 1) {step : UInt64} (hstep : 0 < step.toNat) :
    0 < 1 - RootScalar.power beta step ∧ 1 - RootScalar.power beta step ≤ 1 := by
  have hpower : RootScalar.power beta step = beta ^ step.toNat := rfl
  have hone : beta ^ step.toNat < 1 := pow_lt_one₀ h.1 h.2 hstep.ne'
  have hzero : 0 ≤ beta ^ step.toNat := pow_nonneg h.1 _
  rw [hpower]
  constructor <;> linarith

theorem defined_of_valid {a : Adaptive ℝ} (h : a.Valid) (hstep : 0 < a.step.toNat)
    (hsecond : ∀ k, 0 ≤ a.secondAt k) : a.Defined := by
  have h2 := correction_between h.beta2 hstep
  exact ⟨correction_between h.beta1 hstep, h2, fun k => div_nonneg (hsecond k) h2.1.le, h.epsilon,
    fun _ => le_add_of_nonneg_left (Real.sqrt_nonneg _)⟩

end Adaptive

/-! ## 3. Sequences of steps -/

/-- The state before the first step. -/
def Adaptive.initial (learningRate beta1 beta2 epsilon : R) : Adaptive R :=
  { learningRate, beta1, beta2, epsilon }

/-- Steps by the given previous and aggregated parameters, each of the successor of the one before. -/
def Optimizer.stepAll [RootScalar R] (o : Optimizer R) :
    List (Parameters R × Parameters R) → Except AggregationError (Optimizer R)
  | [] => .ok o
  | r :: rest => do
    let (_, next) ← o.step r.1 r.2
    next.stepAll rest

/-- The squared gradients of rounds at a position. -/
def squaredGradients (rounds : List (Parameters ℝ × Parameters ℝ)) (k : ℕ) : List ℝ :=
  rounds.map (squaredGradientAt · k)

namespace Adaptive

variable {rule : SecondMomentRule} {start a : Adaptive ℝ} {layout : NameMap Nat}
  {seen : List (Parameters ℝ × Parameters ℝ)}

/-- What steps leave behind: the moments have the layout of the parameters, and the second one is in
bounds. -/
structure Tracks (rule : SecondMomentRule) (start : Adaptive ℝ) (layout : NameMap Nat)
    (seen : List (Parameters ℝ × Parameters ℝ)) (a : Adaptive ℝ) : Prop where
  settings : a = { start with step := a.step, firstMoment := a.firstMoment, secondMoment := a.secondMoment }
  step : a.step.toNat = min seen.length (2 ^ 64 - 1)
  layouts : ∀ moment ∈ (rule.optimizer a).state, moment.layout = layout
  nonneg : ∀ k, 0 ≤ a.secondAt k
  between : rule = .decay → ∀ k low high, (∀ g ∈ squaredGradients seen k, low ≤ g ∧ g ≤ high) →
    low * (1 - a.beta2 ^ seen.length) ≤ a.secondAt k ∧ a.secondAt k ≤ high * (1 - a.beta2 ^ seen.length)

theorem Tracks.valid (h : Tracks rule start layout seen a) (hvalid : start.Valid) : a.Valid := by
  rw [h.settings]
  exact ⟨hvalid.learningRate, hvalid.beta1, hvalid.beta2, hvalid.epsilon⟩

theorem tracks_initial (rule : SecondMomentRule) (layout : NameMap Nat)
    (learningRate beta1 beta2 epsilon : ℝ) :
    Tracks rule (initial learningRate beta1 beta2 epsilon) layout []
      (initial learningRate beta1 beta2 epsilon) where
  settings := rfl
  step := rfl
  layouts := by cases rule <;> exact nofun
  nonneg _ := le_rfl
  between _ k low high _ := by
    show low * (1 - beta2 ^ 0) ≤ 0 ∧ 0 ≤ high * (1 - beta2 ^ 0)
    simp

/-- A further step succeeds and keeps the moments in bounds. -/
theorem Tracks.next (h : Tracks rule start layout seen a) (hvalid : start.Valid)
    {r : Parameters ℝ × Parameters ℝ} (hr : OfLayout layout r) :
    ∃ global a', (rule.optimizer a).step r.1 r.2 = .ok (global, rule.optimizer a') ∧
      Tracks rule start layout (seen ++ [r]) a' ∧ ∀ k, global.valueAt k = r.1.valueAt k -
        a.learningRate * (a'.firstAt k / a'.correction1) / a'.denominator k := by
  obtain ⟨global, a', hstep, hsettings, hlayouts, hvalues⟩ := exists_step hr h.layouts
  have hbeta := (h.valid hvalid).beta2
  have hlength : (seen ++ [r]).length = seen.length + 1 := List.length_append
  refine ⟨global, a', hstep, ⟨?_, ?_, hlayouts, ?_, ?_⟩, fun k => (hvalues k).2⟩
  · rw [hsettings, h.settings]
  · have hcount := h.step
    have hnext : a'.step.toNat = min (a.step.toNat + 1) (2 ^ 64 - 1) := by
      rw [hsettings]
      exact toNat_nextStep a
    omega
  · intro k
    rw [(hvalues k).1]
    exact rule.next_nonneg hbeta.1 hbeta.2 (h.nonneg k) (mul_self_nonneg _)
  · rintro rfl k low high hbounds
    rw [squaredGradients, List.map_append] at hbounds
    obtain ⟨hseen, hlast⟩ := List.forall_mem_append.1 hbounds
    have hsame : a'.beta2 = a.beta2 := by rw [hsettings]
    rw [(hvalues k).1, hsame, hlength]
    exact SecondMomentRule.decay_between hbeta.1 hbeta.2 (hlast _ (List.mem_singleton_self _))
      (h.between rfl k low high hseen)

theorem Tracks.stepAll (h : Tracks rule start layout seen a) (hvalid : start.Valid)
    {rounds : List (Parameters ℝ × Parameters ℝ)} (hrounds : ∀ r ∈ rounds, OfLayout layout r) :
    ∃ a', (rule.optimizer a).stepAll rounds = .ok (rule.optimizer a') ∧
      Tracks rule start layout (seen ++ rounds) a' := by
  induction rounds generalizing seen a with
  | nil => exact ⟨a, rfl, by rwa [List.append_nil]⟩
  | cons r rest ih =>
    obtain ⟨hr, hrest⟩ := List.forall_mem_cons.1 hrounds
    obtain ⟨global, next, hstep, htracks, -⟩ := h.next hvalid hr
    obtain ⟨last, hlast, htracks⟩ := ih htracks hrest
    refine ⟨last, bind_eq_ok.2 ⟨_, hstep, hlast⟩, ?_⟩
    rwa [List.append_assoc] at htracks

/-- A second moment that decays is, without its bias, between the least and the greatest squared gradient.
The optimizer corrects the bias of as many steps as its counter says, which stops at the greatest word. -/
theorem Tracks.corrected_between (h : Tracks .decay start layout seen a) (hvalid : start.Valid)
    (hseen : seen ≠ []) (k : ℕ) :
    ∃ least greatest, IsLeast {g | g ∈ squaredGradients seen k} least ∧
      IsGreatest {g | g ∈ squaredGradients seen k} greatest ∧
      a.secondAt k / (1 - a.beta2 ^ seen.length) ∈ Set.Icc least greatest ∧ least ≤ a.radicand k ∧
      (seen.length < 2 ^ 64 → a.radicand k = a.secondAt k / (1 - a.beta2 ^ seen.length)) := by
  have hcompact := (List.finite_toSet (squaredGradients seen k)).isCompact
  have hsome : {g | g ∈ squaredGradients seen k}.Nonempty :=
    List.exists_mem_of_ne_nil _ (mt List.map_eq_nil_iff.1 hseen)
  obtain ⟨least, hleast⟩ := hcompact.exists_isLeast hsome
  obtain ⟨greatest, hgreatest⟩ := hcompact.exists_isGreatest hsome
  obtain ⟨hlow, hhigh⟩ := h.between rfl k least greatest fun g hg => ⟨hleast.2 hg, hgreatest.2 hg⟩
  have hbeta := (h.valid hvalid).beta2
  have hpos : 0 < seen.length := List.length_pos_iff.2 hseen
  have hbias : 0 < 1 - a.beta2 ^ seen.length := sub_pos.2 (pow_lt_one₀ hbeta.1 hbeta.2 hpos.ne')
  have hcount := h.step
  -- the counter is at most the number of steps, so that correcting by it gives no smaller result
  have hstep : 0 < a.step.toNat := by omega
  have hcorrection : 0 < a.correction2 ∧ a.correction2 ≤ 1 - a.beta2 ^ seen.length :=
    ⟨(correction_between hbeta hstep).1,
      sub_le_sub_left (pow_le_pow_of_le_one hbeta.1 hbeta.2.le (by omega)) 1⟩
  have hnonneg : 0 ≤ least := by
    obtain ⟨r, -, rfl⟩ := List.mem_map.1 hleast.1
    exact mul_self_nonneg _
  refine ⟨least, greatest, hleast, hgreatest,
    ⟨(le_div_iff₀ hbias).2 hlow, (div_le_iff₀ hbias).2 hhigh⟩, ?_, fun hword => ?_⟩
  · exact (le_div_iff₀ hcorrection.1).2 ((mul_le_mul_of_nonneg_left hcorrection.2 hnonneg).trans hlow)
  · have hexact : a.step.toNat = seen.length := by omega
    rw [← hexact]
    rfl

end Adaptive

/-- The adaptive optimizers, from their first step on and whatever parameters of one layout they are given,
take every step, and all that a step computes with is defined: the second moment is not negative, the
corrections are positive, and what is divided by is at least epsilon. Under decay the second moment, once
its bias is corrected, is between the least and the greatest squared gradient so far. (The counter of steps
stops at the greatest word. From then on the optimizer corrects the bias of that many steps, which gives no
smaller result.) -/
theorem adaptive_steps_are_defined (rule : SecondMomentRule) (learningRate beta1 beta2 epsilon : ℝ)
    (hvalid : (rule.optimizer (.initial learningRate beta1 beta2 epsilon)).checkPreconditions = .ok ())
    (layout : NameMap Nat) (rounds : List (Parameters ℝ × Parameters ℝ))
    (hrounds : ∀ r ∈ rounds, OfLayout layout r) (last : Parameters ℝ × Parameters ℝ)
    (hlast : OfLayout layout last) :
    ∃ before global after,
      (rule.optimizer (.initial learningRate beta1 beta2 epsilon)).stepAll rounds =
        .ok (rule.optimizer before) ∧
      (rule.optimizer before).step last.1 last.2 = .ok (global, rule.optimizer after) ∧
      (∀ k, 0 ≤ before.secondAt k ∧ 0 ≤ after.secondAt k) ∧
      after.Defined ∧ after.step.toNat = min (rounds.length + 1) (2 ^ 64 - 1) ∧
      after = { Adaptive.initial learningRate beta1 beta2 epsilon with
        step := after.step, firstMoment := after.firstMoment, secondMoment := after.secondMoment } ∧
      (∀ k, global.valueAt k =
        last.1.valueAt k - learningRate * (after.firstAt k / after.correction1) / after.denominator k) ∧
      (rule = .decay → ∀ k, ∃ least greatest,
        IsLeast {g | g ∈ squaredGradients (rounds ++ [last]) k} least ∧
        IsGreatest {g | g ∈ squaredGradients (rounds ++ [last]) k} greatest ∧
        after.secondAt k / (1 - beta2 ^ (rounds.length + 1)) ∈ Set.Icc least greatest ∧
        least ≤ after.radicand k ∧
        (rounds.length + 1 < 2 ^ 64 →
          after.radicand k = after.secondAt k / (1 - beta2 ^ (rounds.length + 1)))) := by
  have hstart := (Adaptive.valid_iff rule _).1 hvalid
  obtain ⟨before, hbefore, htracks⟩ :=
    (Adaptive.tracks_initial rule layout learningRate beta1 beta2 epsilon).stepAll hstart hrounds
  rw [List.nil_append] at htracks
  obtain ⟨global, after, hstep, hafter, hglobal⟩ := htracks.next hstart hlast
  have hcount : after.step.toNat = min (rounds.length + 1) (2 ^ 64 - 1) := by
    rw [hafter.step, List.length_append, List.length_singleton]
  have hrate : before.learningRate = learningRate := congrArg Adaptive.learningRate htracks.settings
  have hbeta : after.beta2 = beta2 := congrArg Adaptive.beta2 hafter.settings
  refine ⟨before, global, after, hbefore, hstep, fun k => ⟨htracks.nonneg k, hafter.nonneg k⟩,
    Adaptive.defined_of_valid (hafter.valid hstart) (by omega) hafter.nonneg, hcount, hafter.settings, ?_, ?_⟩
  · rw [← hrate]
    exact hglobal
  · rintro rfl k
    have hsome : rounds ++ [last] ≠ [] := List.concat_ne_nil _ _
    have hcorrected := hafter.corrected_between hstart hsome k
    rwa [hbeta, List.length_append, List.length_singleton] at hcorrected

theorem adaptive_steps_are_defined_adam :
    ∃ before global after,
      (Optimizer.adam (.initial 1 (1 / 2) (1 / 2) 1)).stepAll
          [(Parameters.ofLayers [("w", [(1 : ℝ)])], Parameters.ofLayers [("w", [0])])] = .ok (.adam before) ∧
      (Optimizer.adam before).step (.ofLayers [("w", [3])]) (.ofLayers [("w", [0])]) =
        .ok (global, .adam after) ∧
      after.Defined ∧ 1 ≤ after.radicand 0 ∧ after.radicand 0 ≤ 9 := by
  have hhalf : (0 : ℝ) ≤ 1 / 2 ∧ (1 / 2 : ℝ) < 1 := by norm_num
  have hvalid : (SecondMomentRule.decay.optimizer (.initial (1 : ℝ) (1 / 2) (1 / 2) 1)).checkPreconditions =
      .ok () :=
    (Adaptive.valid_iff _ _).2 ⟨one_pos, hhalf, hhalf, one_pos⟩
  obtain ⟨before, global, after, hbefore, hafter, -, hdefined, -, -, -, hdecay⟩ :=
    adaptive_steps_are_defined .decay 1 (1 / 2) (1 / 2) 1 hvalid (SortedMap.ofList [("w", 1)])
      [(Parameters.ofLayers [("w", [1])], Parameters.ofLayers [("w", [0])])]
      (List.forall_mem_singleton.2 ⟨rfl, rfl⟩)
      (Parameters.ofLayers [("w", [3])], Parameters.ofLayers [("w", [0])]) ⟨rfl, rfl⟩
  obtain ⟨least, greatest, hleast, hgreatest, ⟨-, hupper⟩, hlower, hcounter⟩ := hdecay rfl 0
  -- the squared gradients are one and nine
  have hsquares : ∀ g ∈ squaredGradients [(Parameters.ofLayers [("w", [(1 : ℝ)])], .ofLayers [("w", [0])]),
      (.ofLayers [("w", [3])], .ofLayers [("w", [0])])] 0, 1 ≤ g ∧ g ≤ 9 := by
    show ∀ g ∈ [((1 : ℝ) - 0) * (1 - 0), (3 - 0) * (3 - 0)], 1 ≤ g ∧ g ≤ 9
    norm_num
  refine ⟨before, global, after, hbefore, hafter, hdefined, (hsquares _ hleast.1).1.trans hlower, ?_⟩
  rw [hcounter (by norm_num)]
  exact hupper.trans (hsquares _ hgreatest.1).2

end Federation
