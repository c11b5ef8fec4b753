import Federation.Proofs.Experiment.Attempt
/-!
# What an attempt does not read

An attempt of a round reads neither the latest events nor the limit of an experiment. So it goes the same
way whatever these are: the limit stays, and the same is published to the events.
-/

namespace Federation.Experiment

variable {R σ : Type}

/-- The same experiment with another limit. -/
def withLimit (x : Experiment R) (limit : RoundNumber) : Experiment R := { x with roundLimit := limit }

/-- The same experiment with other latest events and another limit. -/
def reframe (x : Experiment R) (events : Events R) (limit : RoundNumber) : Experiment R :=
  { x with events, roundLimit := limit }

/-- What came of an activity, with another experiment after it. -/
def reframed {α : Type} (r : α × Experiment R × σ) (events : Events R) (limit : RoundNumber) :
    α × Experiment R × σ :=
  (r.1, r.2.1.reframe events limit, r.2.2)

variable (s : Surroundings R σ)

theorem prepareSecagg_reframe (x : Experiment R) (events : Events R) (limit : RoundNumber)
    (selected : NameSet) (world : σ) :
    (x.reframe events limit).prepareSecagg s selected world =
      reframed (x.prepareSecagg s selected world) events limit := by
  unfold reframe prepareSecagg
  split
  · rfl
  · dsimp only
    split <;> rfl

theorem checkData_reframe (x : Experiment R) (events : Events R) (limit : RoundNumber) :
    (x.reframe events limit).checkData = x.checkData.map (·.reframe events limit) := by
  unfold reframe checkData
  by_cases hd : x.dataChecked = true
  · rw [if_pos hd, if_pos hd]
    rfl
  · rw [if_neg hd, if_neg hd]
    cases x.dataset.checkQuality <;> rfl

theorem prepareRound_reframe [Scalar R] (x : Experiment R) (events : Events R) (limit : RoundNumber)
    (selected : NameSet) (world : σ) :
    (x.reframe events limit).prepareRound s selected world =
      reframed (x.prepareRound s selected world) events limit := by
  unfold prepareRound
  rw [prepareSecagg_reframe]
  rcases x.prepareSecagg s selected world with ⟨_ | secagg, x₁, world₁⟩
  · rfl
  · have hparticipants : (x₁.reframe events limit).participants selected = x₁.participants selected := rfl
    dsimp only [reframed]
    rw [hparticipants]
    split <;> rfl

variable [RootScalar R]

theorem conduct_reframe (x : Experiment R) (events : Events R) (limit : RoundNumber) (c : RoundContext R)
    (world : σ) : (x.reframe events limit).conduct s c world =
      reframed (x.conduct s c world)
        (events.publishAll c.roundNumber (c.run s.link world).1.published) limit := by
  rw [conduct_eq, conduct_eq]
  rfl

/-- Whatever the latest events and the limit are, an attempt publishes the same and ends the same. -/
theorem executeRound_reframe (x : Experiment R) (world : σ) :
    ∃ round published, ∀ events limit, (x.reframe events limit).executeRound s world =
      reframed (x.executeRound s world) (events.publishAll round published) limit := by
  unfold executeRound
  simp only [checkData_reframe]
  cases x.checkData with
  | error e => exact ⟨0, [], fun _ _ => rfl⟩
  | ok x₁ =>
    dsimp only [Except.map]
    have hselect : ∀ events limit, (x₁.reframe events limit).strategy.select
        (x₁.reframe events limit).roundCurrent (x₁.reframe events limit).dataset
        (x₁.reframe events limit).nodeStates =
        x₁.strategy.select x₁.roundCurrent x₁.dataset x₁.nodeStates := fun _ _ => rfl
    have hconnected : ∀ events limit, (x₁.reframe events limit).isConnected = x₁.isConnected :=
      fun _ _ => rfl
    simp only [hselect, hconnected, prepareRound_reframe]
    split
    · exact ⟨0, [], fun _ _ => rfl⟩
    next selected hselected =>
      split
      · exact ⟨0, [], fun _ _ => rfl⟩
      · rcases x₁.prepareRound s selected world with ⟨(e | _) | c, x₂, world₁⟩
        · exact ⟨0, [], fun _ _ => rfl⟩
        · exact ⟨0, [], fun _ _ => rfl⟩
        · refine ⟨c.roundNumber, (c.run s.link world₁).1.published, fun events limit => ?_⟩
          dsimp only [reframed]
          rw [conduct_reframe]
          rcases x₂.conduct s c world₁ with ⟨(e | _) | completed, x₃, world₂⟩ <;> rfl

theorem executeRound_withEvents (x : Experiment R) (events : Events R) (world : σ) :
    ∃ latest, executeRound s { x with events } world =
      ((x.executeRound s world).1, { (x.executeRound s world).2.1 with events := latest },
        (x.executeRound s world).2.2) := by
  obtain ⟨round, published, h⟩ := executeRound_reframe s x world
  have hlimit : (x.executeRound s world).2.1.roundLimit = x.roundLimit :=
    congrArg (fun r => r.2.1.roundLimit) (h x.events x.roundLimit)
  refine ⟨events.publishAll round published, (h events x.roundLimit).trans ?_⟩
  rw [← hlimit]
  rfl

theorem executeRound_withLimit (x : Experiment R) (limit : RoundNumber) (world : σ) :
    (x.withLimit limit).executeRound s world =
      ((x.executeRound s world).1, (x.executeRound s world).2.1.withLimit limit,
        (x.executeRound s world).2.2) := by
  obtain ⟨round, published, h⟩ := executeRound_reframe s x world
  have hevents : (x.executeRound s world).2.1.events = x.events.publishAll round published :=
    congrArg (fun r => r.2.1.events) (h x.events x.roundLimit)
  refine (h x.events limit).trans ?_
  rw [← hevents]
  rfl

end Federation.Experiment
