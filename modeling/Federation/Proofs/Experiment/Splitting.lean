import Federation.Proofs.Experiment.Frame
import Federation.Proofs.Experiment.History
import Federation.Proofs.Experiment.Report
/-!
# Runs that are split

What a run makes of an experiment is determined by the rounds that it completes: each of them is committed
in turn. Where the run begins and ends matters only for the limit and for the number of rounds, and these
are the same whether rounds are asked for at once or in parts. So a run can be split.
-/

namespace Federation

variable {R σ : Type}

namespace Experiment

/-! ## 1. Commits -/

/-- What came of a round that was completed, and the time of its completion. -/
abbrev Outcome (R : Type) := CompletedRound R × Timestamp

/-- The experiment after the given rounds. -/
def commitAll (x : Experiment R) : List (Outcome R) → Experiment R
  | [] => x
  | o :: l => (x.commit o.1 o.2).commitAll l

theorem SameTraining.symm {x y : Experiment R} (h : SameTraining x y) : SameTraining y x := by
  obtain ⟨_, _, _, _, rfl⟩ := h
  exact ⟨_, _, _, _, rfl⟩

theorem SameTraining.commitAll {x y : Experiment R} (h : SameTraining x y) (l : List (Outcome R)) :
    SameTraining (x.commitAll l) (y.commitAll l) := by
  induction l generalizing x y with
  | nil => exact h
  | cons o l ih =>
    obtain ⟨_, _, _, _, rfl⟩ := h
    exact ih ⟨_, _, _, _, rfl⟩

theorem SameTraining.withLimit {x y : Experiment R} (h : SameTraining x y) (limit : RoundNumber) :
    SameTraining (x.withLimit limit) (y.withLimit limit) := by
  obtain ⟨_, _, _, _, rfl⟩ := h
  exact ⟨_, _, _, _, rfl⟩

theorem roundCurrent_commitAll (x : Experiment R) (l : List (Outcome R)) :
    (x.commitAll l).roundCurrent = x.roundCurrent + UInt64.ofNat l.length := by
  induction l generalizing x with
  | nil => exact (UInt64.add_zero _).symm
  | cons o l ih =>
    have hone : (x.commit o.1 o.2).roundCurrent = x.roundCurrent + 1 := rfl
    rw [commitAll, ih, hone, List.length_cons, UInt64.ofNat_add, UInt64.add_assoc, UInt64.add_comm 1]
    rfl

theorem commitAll_withLimit (x : Experiment R) (limit : RoundNumber) (l : List (Outcome R)) :
    (x.withLimit limit).commitAll l = (x.commitAll l).withLimit limit := by
  induction l generalizing x with
  | nil => rfl
  | cons o l ih => exact ih (x.commit o.1 o.2)

theorem commitAll_append (x : Experiment R) (l l' : List (Outcome R)) :
    x.commitAll (l ++ l') = (x.commitAll l).commitAll l' := by
  induction l generalizing x with
  | nil => rfl
  | cons o l ih => exact ih (x.commit o.1 o.2)

variable [RootScalar R] (s : Surroundings R σ)

/-- What came of an attempt, if its round was completed. -/
def outcome (a : Experiment R × σ) : Option (Outcome R) :=
  match a.1.executeRound s a.2 with
  | (.ok completed, _, world) => some (completed, s.now world)
  | (.error _, _, _) => none

theorem outcome_of_runRound {x y : Experiment R} {world world' : σ}
    (h : x.runRound s world = (.ok (), y, world')) :
    ∃ o, outcome s (x, world) = some o ∧ SameTraining (x.commitAll [o]) y := by
  have hround := roundRun_runRound s x world
  rw [h] at hround
  cases hround with
  | committed completed y _ hx hc =>
    refine ⟨(completed, s.now world'), by rw [outcome, hx], ?_⟩
    exact (sameTraining_of_executeRound s hx).commitAll [(completed, s.now world')]
  | saved completed y world₁ _ id hx hc hs =>
    refine ⟨(completed, s.now world₁), by rw [outcome, hx], ?_⟩
    exact (sameTraining_of_executeRound s hx).commitAll [(completed, s.now world₁)]

/-- Rounds of which none failed have all been completed, and they were committed in turn. -/
theorem commitAll_of_runRounds {n executed : Nat} {x y : Experiment R} {world world' : σ}
    (h : runRounds s n x world = ((executed, none), y, world')) :
    executed = n ∧ ((x.attempts s n world).filterMap (outcome s)).length = n ∧
      SameTraining (x.commitAll ((x.attempts s n world).filterMap (outcome s))) y := by
  induction n generalizing x world executed with
  | zero =>
    obtain ⟨⟨rfl, -⟩, rfl, rfl⟩ := by simpa only [runRounds, Prod.mk.injEq] using h
    exact ⟨rfl, rfl, ⟨_, _, _, _, rfl⟩⟩
  | succ n ih =>
    rcases hr : x.runRound s world with ⟨stop | _, x₁, world₁⟩
    · simp [runRounds, hr] at h
    · rcases hn : runRounds s n x₁ world₁ with ⟨⟨executed', failure'⟩, y', world₂⟩
      obtain ⟨⟨rfl, rfl⟩, rfl, rfl⟩ := by simpa only [runRounds, hr, hn, Prod.mk.injEq] using h
      obtain ⟨rfl, hlength, hrest⟩ := ih hn
      obtain ⟨o, ho, hround⟩ := outcome_of_runRound s hr
      have hattempts : (x.attempts s (executed' + 1) world).filterMap (outcome s) =
          o :: (x₁.attempts s executed' world₁).filterMap (outcome s) := by
        simp only [attempts, hr]
        exact List.filterMap_cons_some ho
      rw [hattempts]
      exact ⟨rfl, congrArg (· + 1) hlength, (hround.commitAll _).trans hrest⟩

/-! ## 2. Runs -/

/-- The outcomes of the rounds of a run. -/
def runOutcomes (rounds : UInt64) (increase : Bool) (x : Experiment R) (world : σ) : List (Outcome R) :=
  ((Operation.run rounds increase).attempts s x world).filterMap (outcome s)

/-- The limit that a run raises, as a number. -/
def raisedLimit (increase : Bool) (limit current rounds : Nat) : Nat :=
  if increase then max limit (current + rounds) else limit

/-- The limit and the number of rounds come out the same if a run is split, wherever the limit is. -/
theorem raisedLimit_split (increase : Bool) {limit current a n : Nat} (b : Nat) (h : current ≤ limit)
    (hn : n = min a (raisedLimit increase limit current a - current)) :
    current + n ≤ raisedLimit increase limit current a ∧
      raisedLimit increase (raisedLimit increase limit current a) (current + n) b =
        raisedLimit increase limit current (a + b) ∧
      n + min b (raisedLimit increase limit current (a + b) - (current + n)) =
        min (a + b) (raisedLimit increase limit current (a + b) - current) := by
  subst hn
  cases increase with
  | false =>
    simp only [raisedLimit, Bool.false_eq_true, if_false, true_and]
    omega
  | true =>
    simp only [raisedLimit, if_true]
    omega

omit [RootScalar R] in
theorem toNat_limitFor {x : Experiment R} (rounds : UInt64) (increase : Bool)
    (hx : x.roundCurrent.toNat ≤ x.roundLimit.toNat)
    (hfits : x.roundCurrent.toNat + rounds.toNat < 2 ^ 64) :
    (x.limitFor rounds increase).toNat =
      raisedLimit increase x.roundLimit.toNat x.roundCurrent.toNat rounds.toNat := by
  have hsum : (x.roundCurrent + rounds).toNat = x.roundCurrent.toNat + rounds.toNat := by
    rw [UInt64.toNat_add, Nat.mod_eq_of_lt hfits]
  unfold limitFor roundsLeft raisedLimit
  cases increase with
  | false => simp
  | true =>
    by_cases h : x.roundLimit.toNat - x.roundCurrent.toNat < rounds.toNat
    · rw [if_pos ⟨rfl, h⟩, if_pos rfl, hsum, Nat.max_eq_right (by omega)]
    · rw [if_neg fun hc => h hc.2, if_pos rfl, Nat.max_eq_left (by omega)]

/-- A run raises the limit and runs as many rounds as fit below it. -/
theorem run_eq (x : Experiment R) (rounds : UInt64) (increase : Bool) (world : σ) :
    ∃ r, runRounds s (min rounds.toNat ((x.limitFor rounds increase).toNat - x.roundCurrent.toNat))
        (x.withLimit (x.limitFor rounds increase)) world = r ∧
      x.run s rounds increase world =
        (⟨.ofNat r.1.1, decide (r.2.1.roundLimit ≤ r.2.1.roundCurrent), r.1.2⟩, r.2.1, r.2.2) := by
  refine ⟨_, rfl, ?_⟩
  rw [run, makeRoom_eq_limitFor]
  rfl

/-- A run of which no round failed has committed as many rounds as fit below the limit, after raising it. -/
theorem commitAll_of_run {x y : Experiment R} {rounds : UInt64} {increase : Bool} {world world' : σ}
    {report : RunReport R} (h : x.run s rounds increase world = (report, y, world'))
    (hok : report.failure = none) :
    (runOutcomes s rounds increase x world).length =
        min rounds.toNat ((x.limitFor rounds increase).toNat - x.roundCurrent.toNat) ∧
      report.roundsExecuted.toNat = (runOutcomes s rounds increase x world).length ∧
      SameTraining ((x.withLimit (x.limitFor rounds increase)).commitAll
        (runOutcomes s rounds increase x world)) y := by
  have htaken : Operation.takeUp x rounds increase = x.withLimit (x.limitFor rounds increase) :=
    makeRoom_eq_limitFor x rounds increase
  rw [runOutcomes, Operation.attempts, htaken]
  obtain ⟨⟨⟨executed, failure⟩, z, world₁⟩, hrounds, hrun⟩ := run_eq s x rounds increase world
  obtain ⟨rfl, rfl, rfl⟩ := by simpa only [Prod.mk.injEq] using hrun.symm.trans h
  obtain rfl : failure = none := hok
  obtain ⟨hcount, hlength, htraining⟩ := commitAll_of_runRounds s hrounds
  have hword := rounds.toNat_lt
  have hexecuted : (UInt64.ofNat executed).toNat = executed :=
    UInt64.toNat_ofNat_of_lt' (show executed < 2 ^ 64 by omega)
  exact ⟨hlength, hexecuted.trans (hcount.trans hlength.symm), htraining⟩

/-- After the first part of a run, the limit for the rest is that for all of it, and the rounds add up. -/
theorem limits_of_run {x y : Experiment R} {a b total : UInt64} {increase : Bool} {world world' : σ}
    {report : RunReport R} (h : x.run s a increase world = (report, y, world'))
    (hok : report.failure = none) (hx : x.roundCurrent.toNat ≤ x.roundLimit.toNat)
    (htotal : a.toNat + b.toNat = total.toNat) (hfits : x.roundCurrent.toNat + total.toNat < 2 ^ 64) :
    y.roundCurrent.toNat = x.roundCurrent.toNat + report.roundsExecuted.toNat ∧
      y.roundCurrent.toNat ≤ y.roundLimit.toNat ∧
      y.limitFor b increase = x.limitFor total increase ∧
      report.roundsExecuted.toNat +
          min b.toNat ((x.limitFor total increase).toNat - y.roundCurrent.toNat) =
        min total.toNat ((x.limitFor total increase).toNat - x.roundCurrent.toNat) := by
  obtain ⟨hlength, hreport, hsame⟩ := commitAll_of_run s h hok
  have hcurrent : y.roundCurrent = x.roundCurrent + report.roundsExecuted := by
    have hword : UInt64.ofNat (runOutcomes s a increase x world).length = report.roundsExecuted := by
      rw [← hreport, UInt64.ofNat_toNat]
    rw [← hword]
    obtain ⟨_, _, _, _, rfl⟩ := hsame
    exact roundCurrent_commitAll _ _
  have hraised : y.roundLimit = x.limitFor a increase := by
    obtain ⟨_, _, _, _, rfl⟩ := hsame
    rw [commitAll_withLimit]
    rfl
  have hfirst := toNat_limitFor a increase hx (by omega)
  have hall := toNat_limitFor total increase hx hfits
  rw [← hreport, hfirst] at hlength
  rw [← htotal] at hall ⊢
  obtain ⟨hbelow, hlimits, hcounts⟩ := raisedLimit_split increase b.toNat hx hlength
  have hcount : y.roundCurrent.toNat = x.roundCurrent.toNat + report.roundsExecuted.toNat := by
    rw [hcurrent, UInt64.toNat_add]
    exact Nat.mod_eq_of_lt (by omega)
  rw [← hfirst, ← hraised, ← hcount] at hbelow
  have hrest := toNat_limitFor b increase hbelow (by omega)
  refine ⟨hcount, hbelow, UInt64.toNat_inj.1 ?_, ?_⟩
  · rw [hrest, hall, hcount, hraised, hfirst, hlimits]
  · rw [hall, hcount, hcounts]

/-- Runs one after the other, none of which failed, with the number of rounds that they report altogether
and the outcomes of these rounds. The surroundings may change between them in any way. -/
inductive Runs (increase : Bool) :
    List UInt64 → Experiment R → Nat → List (Outcome R) → Experiment R → Prop where
  | none (x : Experiment R) : Runs increase [] x 0 [] x
  | run {x y z : Experiment R} {rounds : UInt64} {rest : List UInt64} {σ : Type} (s : Surroundings R σ)
    {world world' : σ} {report : RunReport R} {executed : Nat} {l : List (Outcome R)}
    (h : x.run s rounds increase world = (report, y, world')) (hok : report.failure = none)
    (hz : Runs increase rest y executed l z) :
    Runs increase (rounds :: rest) x (report.roundsExecuted.toNat + executed)
      (runOutcomes s rounds increase x world ++ l) z

/-- Runs commit as many rounds as fit below the limit for all of them, as one run would. -/
theorem Runs.commitAll {increase : Bool} {parts : List UInt64} {x z : Experiment R} {executed : Nat}
    {l : List (Outcome R)} (h : Runs increase parts x executed l z)
    (hx : x.roundCurrent.toNat ≤ x.roundLimit.toNat) {total : UInt64}
    (htotal : (parts.map UInt64.toNat).sum = total.toNat)
    (hfits : x.roundCurrent.toNat + total.toNat < 2 ^ 64) :
    l.length = min total.toNat ((x.limitFor total increase).toNat - x.roundCurrent.toNat) ∧
      executed = l.length ∧
      SameTraining ((x.withLimit (x.limitFor total increase)).commitAll l) z := by
  induction h generalizing total with
  | none x =>
    obtain rfl : total = 0 := UInt64.toNat_inj.1 htotal.symm
    have hlimit : x.limitFor 0 increase = x.roundLimit := if_neg fun h => Nat.not_lt_zero _ h.2
    rw [hlimit]
    exact ⟨by simp, rfl, ⟨_, _, _, _, rfl⟩⟩
  | @run x y z rounds rest σ s world world' report executed l hrun hok hz ih =>
    rw [List.map_cons, List.sum_cons] at htotal
    obtain ⟨remaining, hremaining⟩ : ∃ w : UInt64, (rest.map UInt64.toNat).sum = w.toNat :=
      ⟨.ofNat (rest.map UInt64.toNat).sum,
        (UInt64.toNat_ofNat_of_lt' (show _ < 2 ^ 64 by omega)).symm⟩
    rw [hremaining] at htotal
    obtain ⟨hfirst, hreport, hsame⟩ := commitAll_of_run s hrun hok
    obtain ⟨hcount, hbelow, hlimit, hcounts⟩ := limits_of_run s hrun hok hx htotal hfits
    obtain ⟨hlength, hexecuted, hrest⟩ := ih hbelow hremaining (by omega)
    rw [hlimit] at hlength hrest
    refine ⟨?_, ?_, ?_⟩
    · rw [List.length_append, ← hreport, hlength, hcounts]
    · rw [List.length_append, hreport, hexecuted]
    · rw [commitAll_append]
      have hparts := (hsame.withLimit (x.limitFor total increase)).commitAll l
      rw [← commitAll_withLimit] at hparts
      exact hparts.trans hrest

/-! ## 3. Runs in the same surroundings -/

section

variable {x : Experiment R} (hsaves : x.savesCheckpoints = false)
include hsaves

/-- A round that saves no checkpoint does not read the limit. -/
theorem runRound_withLimit (limit : RoundNumber) (world : σ) :
    (x.withLimit limit).runRound s world =
      ((x.runRound s world).1, (x.runRound s world).2.1.withLimit limit, (x.runRound s world).2.2) := by
  unfold runRound
  rw [executeRound_withLimit]
  rcases hx : x.executeRound s world with ⟨_ | completed, y, world₁⟩
  · rfl
  · have hy : y.savesCheckpoints = false :=
      (sameTraining_of_executeRound s hx).advanced.savesCheckpoints.trans hsaves
    have hcommit : ∀ (z : Experiment R) now, (z.commit completed now).savesCheckpoints = z.savesCheckpoints :=
      fun _ _ => rfl
    have hlimited : (y.withLimit limit).savesCheckpoints = false := hy
    simp only [hcommit, hy, hlimited, Bool.false_eq_true, if_false]
    rfl

theorem savesCheckpoints_runRound (world : σ) : (x.runRound s world).2.1.savesCheckpoints = false := by
  obtain ⟨_, _, _, _, _, _, _, _, _, _, h⟩ := runRound_settings s x world
  rw [h]
  exact hsaves

theorem runRounds_withLimit (limit : RoundNumber) (n : Nat) (world : σ) :
    runRounds s n (x.withLimit limit) world =
      ((runRounds s n x world).1, (runRounds s n x world).2.1.withLimit limit,
        (runRounds s n x world).2.2) := by
  induction n generalizing x world with
  | zero => rfl
  | succ n ih =>
    have hnext := savesCheckpoints_runRound s hsaves world
    unfold runRounds
    rw [runRound_withLimit s hsaves]
    rcases hx : x.runRound s world with ⟨_ | _, y, world₁⟩
    · rfl
    · rw [hx] at hnext
      dsimp only
      rw [ih hnext]

end

/-- Rounds of which none failed, and then further ones, are as many rounds. -/
theorem runRounds_add {m executed : Nat} {x y : Experiment R} {world world' : σ}
    (h : runRounds s m x world = ((executed, none), y, world')) (n : Nat) :
    runRounds s (m + n) x world =
      ((executed + (runRounds s n y world').1.1, (runRounds s n y world').1.2),
        (runRounds s n y world').2) := by
  induction m generalizing x world executed with
  | zero =>
    obtain ⟨⟨rfl, -⟩, rfl, rfl⟩ := by simpa only [runRounds, Prod.mk.injEq] using h
    rw [Nat.zero_add, Nat.zero_add]
  | succ m ih =>
    rcases hr : x.runRound s world with ⟨stop | _, x₁, world₁⟩
    · simp [runRounds, hr] at h
    · rcases hm : runRounds s m x₁ world₁ with ⟨⟨executed', failure'⟩, y', world₂⟩
      obtain ⟨⟨rfl, rfl⟩, rfl, rfl⟩ := by simpa only [runRounds, hr, hm, Prod.mk.injEq] using h
      rw [Nat.add_right_comm m 1 n, runRounds]
      simp only [hr, ih hm]
      rw [Nat.add_right_comm]

/-- Without checkpoints a run that did not fail and a further one are one run for both. -/
theorem run_add {x y z : Experiment R} (hsaves : x.savesCheckpoints = false) {a b total : UInt64}
    {increase : Bool} {world world₁ world₂ : σ} {report report' : RunReport R}
    (h : x.run s a increase world = (report, y, world₁)) (hok : report.failure = none)
    (h' : y.run s b increase world₁ = (report', z, world₂))
    (hx : x.roundCurrent.toNat ≤ x.roundLimit.toNat) (htotal : a.toNat + b.toNat = total.toNat)
    (hfits : x.roundCurrent.toNat + total.toNat < 2 ^ 64) :
    x.run s total increase world =
      (⟨report.roundsExecuted + report'.roundsExecuted, report'.limitReached, report'.failure⟩, z,
        world₂) := by
  obtain ⟨-, -, hlimit, hcounts⟩ := limits_of_run s h hok hx htotal hfits
  obtain ⟨hlength, hreport, -⟩ := commitAll_of_run s h hok
  obtain ⟨⟨⟨executed, failure⟩, y₁, w₁⟩, hfirst, hrun⟩ := run_eq s x a increase world
  obtain ⟨rfl, rfl, rfl⟩ := by simpa only [Prod.mk.injEq] using hrun.symm.trans h
  obtain rfl : failure = none := hok
  obtain ⟨r, hsecond, hrun'⟩ := run_eq s y₁ b increase w₁
  obtain ⟨rfl, rfl, rfl⟩ := by simpa only [Prod.mk.injEq] using hrun'.symm.trans h'
  obtain ⟨r', hwhole, hrun''⟩ := run_eq s x total increase world
  rw [hlimit] at hsecond
  -- the rounds of the first part, begun below the limit for all of them
  have hraised := runRounds_withLimit s (x := x.withLimit (x.limitFor a increase)) hsaves
    (x.limitFor total increase) (min a.toNat ((x.limitFor a increase).toNat - x.roundCurrent.toNat)) world
  rw [hfirst] at hraised
  have hadd := runRounds_add s hraised
    (min b.toNat ((x.limitFor total increase).toNat - y₁.roundCurrent.toNat))
  rw [hsecond, ← hlength, ← hreport, hcounts] at hadd
  obtain rfl := hwhole.symm.trans hadd
  rw [hrun'', UInt64.ofNat_add]

end Experiment

open Experiment in
/-- Runs of which none failed leave the experiment that one run for all their rounds leaves, with the limit
raised or not: if the rounds that were completed in both cases had the same outcomes, everything but the
mark that the data was checked, the session, the latest events and the connection is the same, and the
numbers of executed rounds add up. So single rounds, one after the other, are one run. In the same
surroundings, unless checkpoints are saved (which the limit is written to), nothing has to be assumed of the
outcomes, and the rest may also fail: it ends as the whole run does. -/
theorem runs_can_be_split [RootScalar R] {x : Experiment R} (hx : x.roundCurrent ≤ x.roundLimit)
    {total : UInt64} (hfits : x.roundCurrent.toNat + total.toNat < 2 ^ 64) (increase : Bool) :
    (∀ {parts : List UInt64} {executed : Nat} {l : List (Outcome R)} {y : Experiment R},
      (parts.map UInt64.toNat).sum = total.toNat → Runs increase parts x executed l y →
      ∀ {σ : Type} (s : Surroundings R σ) {world world' : σ} {report : RunReport R} {z : Experiment R},
        x.run s total increase world = (report, z, world') → report.failure = none →
        (∀ (i : Nat) (o o' : Outcome R), l[i]? = some o →
          (runOutcomes s total increase x world)[i]? = some o' → o = o') →
        SameTraining y z ∧ report.roundsExecuted.toNat = executed) ∧
    (x.savesCheckpoints = false → ∀ {a b : UInt64}, a.toNat + b.toNat = total.toNat →
      ∀ {σ : Type} (s : Surroundings R σ) {world world₁ world₂ : σ} {report report' : RunReport R}
        {y z : Experiment R}, x.run s a increase world = (report, y, world₁) → report.failure = none →
        y.run s b increase world₁ = (report', z, world₂) →
        x.run s total increase world =
          (⟨report.roundsExecuted + report'.roundsExecuted, report'.limitReached, report'.failure⟩, z,
            world₂)) := by
  have hbelow : x.roundCurrent.toNat ≤ x.roundLimit.toNat := UInt64.le_iff_toNat_le.1 hx
  refine ⟨?_, fun hsaves a b hab σ s _ _ _ _ _ _ _ h hok h' =>
    run_add s hsaves h hok h' hbelow hab hfits⟩
  intro parts executed l y hparts hruns σ s world world' report z hrun hok hsame
  obtain ⟨hlength, hexecuted, hy⟩ := hruns.commitAll hbelow hparts hfits
  obtain ⟨hlength', hexecuted', hz⟩ := commitAll_of_run s hrun hok
  -- as many rounds were completed in both cases, so none is left whose outcome was not compared
  have hl : l = runOutcomes s total increase x world := by
    refine List.ext_getElem (hlength.trans hlength'.symm) fun i hi hi' => ?_
    exact hsame i _ _ (List.getElem?_eq_getElem hi) (List.getElem?_eq_getElem hi')
  rw [hl] at hy hexecuted
  exact ⟨hy.symm.trans hz, hexecuted'.trans hexecuted.symm⟩

/-- The experiment with two nodes after its only round. -/
def pairFinished : Experiment ℚ := (pairExperiment.run (pairSurroundings true 1) 1 false ()).2.1

open Experiment in
theorem runs_can_be_split_pair :
    ∃ l y z, Runs false [1, 1] pairExperiment 1 l y ∧
      pairExperiment.run (pairSurroundings true 1) 2 false () = (⟨1, true, none⟩, z, ()) ∧
      SameTraining y z ∧ z.history.length = 1 := by
  have hfirst : pairExperiment.run (pairSurroundings true 1) 1 false () =
      (⟨1, true, none⟩, pairFinished, ()) := rfl
  have hsecond : pairFinished.run (pairSurroundings true 1) 1 false () =
      (⟨0, true, none⟩, pairFinished, ()) := rfl
  have hwhole : pairExperiment.run (pairSurroundings true 1) 2 false () =
      (⟨1, true, none⟩, pairFinished, ()) := rfl
  have hruns : Runs false [1, 1] pairExperiment 1 _ pairFinished :=
    .run (pairSurroundings true 1) hfirst rfl (.run (pairSurroundings true 1) hsecond rfl (.none _))
  -- the second of the two runs finds no round left
  have hnone : runOutcomes (pairSurroundings true 1) 1 false pairFinished () = [] := rfl
  have hboth : runOutcomes (pairSurroundings true 1) 1 false pairExperiment () =
      runOutcomes (pairSurroundings true 1) 2 false pairExperiment () := rfl
  rw [hnone, hboth, List.append_nil, List.append_nil] at hruns
  have hsplit := (@runs_can_be_split ℚ _ pairExperiment (by decide) 2 (by decide) false).1 rfl hruns
    (pairSurroundings true 1) hwhole rfl fun i o o' h h' => Option.some.inj (h.symm.trans h')
  exact ⟨_, _, _, hruns, hwhole, hsplit.1, rfl⟩

end Federation
