import Federation.Proofs.Experiment.Attempt
/-!
# Histories of an experiment

An experiment is run, its checkpoints are saved, and between the runs it is reconfigured. A history is
the list of these operations; it determines the attempts of rounds that are made in its course.
-/

namespace Federation

variable {R σ : Type}

/-- What is done with an experiment. -/
inductive Operation (R : Type) where
  | run (rounds : UInt64) (increase : Bool)
  | save
  -- Any change between two runs.
  | change (f : Experiment R → Experiment R)

namespace Experiment

variable [RootScalar R] (s : Surroundings R σ)

/-- The attempts of consecutive rounds, each as the experiment and the surroundings at its beginning. -/
def attempts : Nat → Experiment R → σ → List (Experiment R × σ)
  | 0, _, _ => []
  | n + 1, x, world =>
    (x, world) ::
      match x.runRound s world with
      | (.error _, _, _) => []
      | (.ok (), x, world) => attempts n x world

end Experiment

namespace Operation

variable [RootScalar R] (s : Surroundings R σ)

/-- The experiment as a run takes it up. -/
def takeUp (x : Experiment R) (rounds : UInt64) (increase : Bool) : Experiment R :=
  if increase then x.makeRoom rounds else x

omit [RootScalar R] in
/-- Taking up an experiment at most raises its limit. -/
theorem takeUp_eq (x : Experiment R) (rounds : UInt64) (increase : Bool) :
    ∃ roundLimit, takeUp x rounds increase = { x with roundLimit } := by
  unfold takeUp Experiment.makeRoom
  split
  · split
    · exact ⟨_, rfl⟩
    · exact ⟨x.roundLimit, rfl⟩
  · exact ⟨x.roundLimit, rfl⟩

/-- The experiment and the surroundings after an operation. -/
def perform : Operation R → Experiment R → σ → Experiment R × σ
  | run rounds increase, x, world => (x.run s rounds increase world).2
  | save, x, world => (x, (x.saveCheckpoint s world).2)
  | change f, x, world => (f x, world)

/-- The attempts of an operation. -/
def attempts : Operation R → Experiment R → σ → List (Experiment R × σ)
  | run rounds increase, x, world =>
    (takeUp x rounds increase).attempts s (min rounds.toNat (takeUp x rounds increase).roundsLeft) world
  | save, _, _ => []
  | change _, _, _ => []

/-- The attempts of a history. -/
def allAttempts : List (Operation R) → Experiment R → σ → List (Experiment R × σ)
  | [], _, _ => []
  | op :: rest, x, world =>
    op.attempts s x world ++
      allAttempts rest (op.perform s x world).1 (op.perform s x world).2

end Operation

namespace Experiment

variable [RootScalar R] (s : Surroundings R σ)

/-- A round leaves the surroundings of its attempt, or those after saving a checkpoint. -/
theorem runRound_world (x : Experiment R) (world : σ) :
    (x.runRound s world).2.2 = (x.executeRound s world).2.2 ∨
      ∃ c, (x.runRound s world).2.2 = (s.save c (x.executeRound s world).2.2).2 := by
  have h := roundRun_runRound s x world
  generalize x.runRound s world = result at h ⊢
  cases h with
  | failed stop y world' h => exact Or.inl (by rw [h])
  | committed completed y world' h hc => exact Or.inl (by rw [h])
  | saved completed y world₁ world' id h hc hs => exact Or.inr ⟨_, by rw [h, hs]⟩
  | unsaved completed y world₁ world' e h hc hs => exact Or.inr ⟨_, by rw [h, hs]⟩

/-- What a failed attempt leaves and a committed one establishes holds after a round. -/
theorem runRound_preserve {P : Experiment R → Prop} {x : Experiment R} {world : σ}
    (hfailed : ∀ stop y world', x.executeRound s world = (.error stop, y, world') → P y)
    (hcommit : ∀ completed y world' now, x.executeRound s world = (.ok completed, y, world') →
      P (y.commit completed now)) : P (x.runRound s world).2.1 := by
  have hround := roundRun_runRound s x world
  generalize x.runRound s world = result at hround ⊢
  cases hround with
  | failed stop y world' hy => exact hfailed stop y world' hy
  | committed completed y world' hy hc => exact hcommit completed y world' _ hy
  | saved completed y world₁ world' id hy hc hs => exact hcommit completed y world₁ _ hy
  | unsaved completed y world₁ world' e hy hc hs => exact hcommit completed y world₁ _ hy

/-- Whatever comes of a round, it changes the progress only, the session, and what is known of the data
and of the connection. -/
theorem runRound_settings (x : Experiment R) (world : σ) :
    ∃ dataChecked session events isConnected nodeStates aggregator optimizer global history roundCurrent,
      (x.runRound s world).2.1 = { x with
        dataChecked, secagg := { x.secagg with session }, events, isConnected, nodeStates, aggregator,
        optimizer, global, history, roundCurrent } := by
  refine runRound_preserve s (P := fun y => ∃ dataChecked session events isConnected nodeStates aggregator
    optimizer global history roundCurrent, y = { x with
      dataChecked, secagg := { x.secagg with session }, events, isConnected, nodeStates, aggregator,
      optimizer, global, history, roundCurrent }) (fun stop y world' hy => ?_)
    fun completed y world' now hy => ?_
  · obtain ⟨_, _, _, _, rfl⟩ := sameTraining_of_executeRound s hy
    exact ⟨_, _, _, _, _, _, _, _, _, _, rfl⟩
  · obtain ⟨_, _, _, _, rfl⟩ := sameTraining_of_executeRound s hy
    exact ⟨_, _, _, _, _, _, _, _, _, _, rfl⟩

/-- What every round preserves holds at the end of consecutive rounds and at the beginning of each of
their attempts. -/
theorem runRounds_preserve {P : Experiment R → σ → Prop}
    (hround : ∀ x world, P x world → P (x.runRound s world).2.1 (x.runRound s world).2.2) {n : Nat}
    {x : Experiment R} {world : σ} (h : P x world) :
    P (runRounds s n x world).2.1 (runRounds s n x world).2.2 ∧
      ∀ a ∈ x.attempts s n world, P a.1 a.2 := by
  induction n generalizing x world with
  | zero => exact ⟨h, List.forall_mem_nil _⟩
  | succ n ih =>
    have hnext := hround x world h
    rcases hr : x.runRound s world with ⟨stop | _, y, world₁⟩
    · rw [hr] at hnext
      simp only [runRounds, attempts, hr]
      exact ⟨hnext, List.forall_mem_singleton.2 h⟩
    · rw [hr] at hnext
      obtain ⟨hlast, hattempts⟩ := ih hnext
      simp only [runRounds, attempts, hr]
      exact ⟨hlast, List.forall_mem_cons.2 ⟨h, hattempts⟩⟩

/-- The failure that ends consecutive rounds is that of one of their attempts. -/
theorem attempt_of_failure {n : Nat} {x : Experiment R} {world : σ} {stop : Stop (ExperimentError R)}
    (h : (runRounds s n x world).1.2 = some stop) :
    ∃ a ∈ x.attempts s n world, (a.1.runRound s a.2).1 = .error stop := by
  induction n generalizing x world with
  | zero => contradiction
  | succ n ih =>
    rcases hr : x.runRound s world with ⟨stop' | _, y, world₁⟩
    · simp only [runRounds, hr] at h
      obtain rfl := Option.some.inj h
      exact ⟨(x, world), List.mem_cons_self, by rw [hr]⟩
    · simp only [runRounds, hr] at h
      obtain ⟨a, ha, hstop⟩ := ih h
      refine ⟨a, ?_, hstop⟩
      simp only [attempts, hr]
      exact List.mem_cons_of_mem _ ha

end Experiment

end Federation
