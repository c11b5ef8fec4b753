import Federation.Proofs.Experiment.Retry
/-!
# Reports of runs

A run counts the rounds that it has run to their end. Since a round is committed before its checkpoint
is saved, a round whose checkpoint is refused is completed and yet not counted. It is the last one of
its run, so the number that is reported falls short by one at most.
-/

namespace Federation

variable {R σ : Type}

/-- The rounds that a run completed without counting them. -/
def uncounted : Option (Stop (ExperimentError R)) → Nat
  | some (.failed (.checkpoint _)) => 1
  | _ => 0

theorem uncounted_eq_zero {stop : Stop (ExperimentError R)}
    (h : ∀ e, stop ≠ .failed (.checkpoint e)) : uncounted (some stop) = 0 := by
  unfold uncounted
  split
  next e he => exact absurd (Option.some.inj he) (h e)
  next => rfl

/-- The rounds that a run completed. -/
def RunReport.roundsCompleted (r : RunReport R) : Nat :=
  r.roundsExecuted.toNat + uncounted r.failure

/-- A checkpoint could not be saved at some time. -/
def Surroundings.Refuses (s : Surroundings R σ) (e : CheckpointError) : Prop :=
  ∃ c world, (s.save c world).1 = .error e

namespace Experiment

/-! ## 1. The limit of the rounds -/

/-- The limit that a run raises, if it has to and is allowed to. -/
def limitFor (x : Experiment R) (rounds : UInt64) (increase : Bool) : RoundNumber :=
  if increase = true ∧ x.roundsLeft < rounds.toNat then x.roundCurrent + rounds else x.roundLimit

theorem makeRoom_eq_limitFor (x : Experiment R) (rounds : UInt64) (increase : Bool) :
    (if increase then x.makeRoom rounds else x) =
      { x with roundLimit := x.limitFor rounds increase } := by
  unfold limitFor makeRoom
  cases increase with
  | false => simp
  | true =>
    by_cases h : x.roundsLeft < rounds.toNat
    · simp [h]
    · simp [h]

/-! ## 2. The count of the rounds -/

/-- An experiment has advanced by a number of rounds. -/
structure Advanced (x y : Experiment R) (n : Nat) : Prop where
  roundCurrent : y.roundCurrent = x.roundCurrent + UInt64.ofNat n
  history : y.history.length = x.history.length + n
  roundLimit : y.roundLimit = x.roundLimit
  savesCheckpoints : y.savesCheckpoints = x.savesCheckpoints

theorem Advanced.trans {x y z : Experiment R} {m n : Nat} (h : Advanced x y m)
    (h' : Advanced y z n) : Advanced x z (m + n) where
  roundCurrent := by rw [h'.roundCurrent, h.roundCurrent, UInt64.ofNat_add, UInt64.add_assoc]
  history := by rw [h'.history, h.history, Nat.add_assoc]
  roundLimit := h'.roundLimit.trans h.roundLimit
  savesCheckpoints := h'.savesCheckpoints.trans h.savesCheckpoints

theorem SameTraining.advanced {x y : Experiment R} (h : SameTraining x y) : Advanced x y 0 := by
  obtain ⟨_, _, _, _, rfl⟩ := h
  exact ⟨(UInt64.add_zero _).symm, rfl, rfl, rfl⟩

theorem advanced_commit (x : Experiment R) (completed : CompletedRound R) (now : Timestamp) :
    Advanced x (x.commit completed now) 1 :=
  ⟨rfl, by simp [commit], rfl, rfl⟩

variable [RootScalar R] (s : Surroundings R σ)

theorem advanced_of_completed {x y : Experiment R} {world world' : σ} {completed : CompletedRound R}
    (h : x.executeRound s world = (.ok completed, y, world')) (now : Timestamp) :
    Advanced x (y.commit completed now) 1 := by
  have hattempt := (sameTraining_of_executeRound s h).advanced
  simpa using hattempt.trans (advanced_commit y completed now)

/-- A run that fails for a checkpoint saves its checkpoints, and one of them was refused. -/
def Accounted (x : Experiment R) (failure : Option (Stop (ExperimentError R))) : Prop :=
  ∀ e, failure = some (.failed (.checkpoint e)) → x.savesCheckpoints = true ∧ s.Refuses e

theorem ne_checkpoint_of_executeRound {x y : Experiment R} {world world' : σ}
    {stop : Stop (ExperimentError R)} (h : x.executeRound s world = (.error stop, y, world'))
    (e : CheckpointError) : stop ≠ .failed (.checkpoint e) := by
  rintro rfl
  cases failing_of_executeRound s h

/-- A failed round advances the experiment only if its checkpoint was refused. -/
theorem advanced_of_runRound_error {x y : Experiment R} {world world' : σ}
    {stop : Stop (ExperimentError R)} (h : x.runRound s world = (.error stop, y, world')) :
    Advanced x y (uncounted (some stop)) ∧ Accounted s x (some stop) := by
  have hround := roundRun_runRound s x world
  rw [h] at hround
  cases hround with
  | failed _ _ _ hx =>
    have hne := ne_checkpoint_of_executeRound s hx
    refine ⟨?_, fun e he => absurd (Option.some.inj he) (hne e)⟩
    rw [uncounted_eq_zero hne]
    exact (sameTraining_of_executeRound s hx).advanced
  | unsaved completed y₁ world₁ _ e hx hc hs =>
    refine ⟨advanced_of_completed s hx _, fun e' he => ?_⟩
    obtain rfl : e = e' := by simpa using he
    have hsaves := (sameTraining_of_executeRound s hx).advanced.savesCheckpoints
    exact ⟨hsaves.symm.trans hc, _, _, congrArg Prod.fst hs⟩

theorem advanced_of_runRound_ok {x y : Experiment R} {world world' : σ}
    (h : x.runRound s world = (.ok (), y, world')) : Advanced x y 1 := by
  have hround := roundRun_runRound s x world
  rw [h] at hround
  cases hround with
  | committed completed y _ hx hc => exact advanced_of_completed s hx _
  | saved completed y world₁ _ id hx hc hs => exact advanced_of_completed s hx _

/-- Consecutive rounds advance the experiment by those that are counted and the one that is not. -/
theorem advanced_runRounds {n executed : Nat} {failure : Option (Stop (ExperimentError R))}
    {x y : Experiment R} {world world' : σ}
    (h : runRounds s n x world = ((executed, failure), y, world')) :
    Advanced x y (executed + uncounted failure) ∧ executed + uncounted failure ≤ n ∧
      (failure = none ↔ executed = n) ∧ Accounted s x failure := by
  induction n generalizing x world executed failure with
  | zero =>
    obtain ⟨⟨rfl, rfl⟩, rfl, rfl⟩ := by simpa only [runRounds, Prod.mk.injEq] using h
    exact ⟨⟨(UInt64.add_zero _).symm, rfl, rfl, rfl⟩, Nat.le_refl 0, ⟨fun _ => rfl, fun _ => rfl⟩,
      fun e he => by simp at he⟩
  | succ n ih =>
    rcases hr : x.runRound s world with ⟨stop | _, x₁, world₁⟩
    · obtain ⟨⟨rfl, rfl⟩, rfl, rfl⟩ := by simpa only [runRounds, hr, Prod.mk.injEq] using h
      obtain ⟨hadvanced, hrefused⟩ := advanced_of_runRound_error s hr
      refine ⟨by simpa using hadvanced, ?_, by simp, hrefused⟩
      unfold uncounted
      split <;> omega
    · rcases hn : runRounds s n x₁ world₁ with ⟨⟨executed', failure'⟩, y', world₂⟩
      obtain ⟨⟨rfl, rfl⟩, rfl, rfl⟩ := by simpa only [runRounds, hr, hn, Prod.mk.injEq] using h
      obtain ⟨hadvanced, hle, hfailure, hrefused⟩ := ih hn
      have hround := advanced_of_runRound_ok s hr
      have hsum := hround.trans hadvanced
      refine ⟨?_, by omega, by rw [hfailure]; omega, fun e he => ?_⟩
      · rwa [show executed' + 1 + uncounted failure' = 1 + (executed' + uncounted failure') by omega]
      · obtain ⟨hsaves, hr⟩ := hrefused e he
        exact ⟨hround.savesCheckpoints.symm.trans hsaves, hr⟩

end Experiment

open Experiment in
/-- A run completes the rounds that it reports as executed and one more if the checkpoint of its last
round was refused. These are the rounds by which the experiment and its history have advanced. -/
theorem run_reports_completed_rounds [RootScalar R] (s : Surroundings R σ) {x y : Experiment R}
    {rounds : UInt64} {increase : Bool} {world world' : σ} {report : RunReport R}
    (hfits : x.roundCurrent.toNat + rounds.toNat < 2 ^ 64)
    (h : x.run s rounds increase world = (report, y, world')) :
    y.roundCurrent.toNat = x.roundCurrent.toNat + report.roundsCompleted ∧
      y.history.length = x.history.length + report.roundsCompleted ∧
      report.roundsCompleted ≤ rounds.toNat ∧
      (report.failure = none ↔ report.roundsExecuted.toNat =
        min rounds.toNat (y.roundLimit.toNat - x.roundCurrent.toNat)) ∧
      y.roundLimit = x.limitFor rounds increase ∧
      (report.limitReached = true ↔ y.roundLimit ≤ y.roundCurrent) ∧
      (∀ e, report.failure = some (.failed (.checkpoint e)) →
        x.savesCheckpoints = true ∧ s.Refuses e) := by
  rw [run, makeRoom_eq_limitFor] at h
  rcases hrun : runRounds s
      (min rounds.toNat (roundsLeft { x with roundLimit := x.limitFor rounds increase }))
      { x with roundLimit := x.limitFor rounds increase } world with ⟨⟨executed, failure⟩, z, world₁⟩
  simp only [hrun] at h
  obtain ⟨rfl, rfl, rfl⟩ := by simpa only [Prod.mk.injEq] using h
  obtain ⟨hadvanced, hle, hfailure, hrefused⟩ := advanced_runRounds s hrun
  have hbound : executed + uncounted failure ≤ rounds.toNat := hle.trans (Nat.min_le_left _ _)
  have hexecuted : (UInt64.ofNat executed).toNat = executed :=
    UInt64.toNat_ofNat_of_lt' (show executed < 2 ^ 64 by omega)
  have hcompleted : (UInt64.ofNat (executed + uncounted failure)).toNat = executed + uncounted failure :=
    UInt64.toNat_ofNat_of_lt' (show executed + uncounted failure < 2 ^ 64 by omega)
  have hlimit : z.roundLimit = x.limitFor rounds increase := hadvanced.roundLimit
  have hcurrent : z.roundCurrent = x.roundCurrent + UInt64.ofNat (executed + uncounted failure) :=
    hadvanced.roundCurrent
  refine ⟨?_, ?_, ?_, ?_, hlimit, by simp, hrefused⟩
  · rw [RunReport.roundsCompleted, hexecuted, hcurrent, UInt64.toNat_add, hcompleted]
    exact Nat.mod_eq_of_lt (show _ + _ < 2 ^ 64 by omega)
  · rw [RunReport.roundsCompleted, hexecuted]
    exact hadvanced.history
  · rwa [RunReport.roundsCompleted, hexecuted]
  · rw [hexecuted, hfailure, hlimit, roundsLeft]

/-- An experiment with two nodes that saves its checkpoints. -/
def savingPair : Experiment ℚ := { pairExperiment with savesCheckpoints := true }

/-- Surroundings in which both nodes reply and no checkpoint can be stored. -/
def readOnlySurroundings : Surroundings ℚ Unit where
  __ := pairSurroundings true 1
  save _ world := (.error (.storage (.refused "the store is read-only")), world)

theorem run_reports_completed_rounds_read_only :
    (savingPair.run readOnlySurroundings 1 false ()).1.roundsCompleted = 1 ∧
      (savingPair.run readOnlySurroundings 1 false ()).2.1.history.length =
        savingPair.history.length + 1 := by
  have hcompleted : (savingPair.run readOnlySurroundings 1 false ()).1.roundsCompleted = 1 := by
    decide +kernel
  have hrun : savingPair.run readOnlySurroundings 1 false () = (_, _, _) := rfl
  have hreport := run_reports_completed_rounds readOnlySurroundings (by decide) hrun
  exact ⟨hcompleted, hcompleted ▸ hreport.2.1⟩

/-- The report leaves out the round that was completed before its checkpoint was refused. -/
theorem rounds_executed_omits_unsaved_round :
    (savingPair.run readOnlySurroundings 1 false ()).1.roundsExecuted = 0 ∧
      savingPair.roundCurrent = 0 ∧
      (savingPair.run readOnlySurroundings 1 false ()).2.1.roundCurrent = 1 ∧
      (savingPair.run readOnlySurroundings 1 false ()).2.1.history.length = 1 := by
  decide +kernel

end Federation
