import Federation.Proofs.Experiment.Configuration
import Federation.Proofs.Experiment.Resume
import Federation.Proofs.Round.Phases
/-!
# What an observer of an experiment sees

Whoever follows an experiment sees the latest parameters that were published. Rounds publish them when
they complete and experiments take them over when they commit, in different places. Between the rounds
they agree all the same.
-/

namespace Federation

variable {R σ : Type}

namespace Experiment

/-- The latest parameters that were published are the current ones, and there are none before the first
round has completed. -/
def ShowsModel (x : Experiment R) : Prop :=
  x.events.model.event = if x.history.isEmpty then none else some x.global

/-- An experiment that actions lead to from one that was built, new or from a checkpoint. The surroundings
may change between the actions in any way. -/
inductive Arisen [RootScalar R] : Experiment R → Prop where
  | built {σ : Type} (s : Surroundings R σ) (catalog : Catalog) (d : Draft R) {x : Experiment R}
    {world world' : σ} (h : d.build s catalog world = (.ok x, world')) : Arisen x
  | performed {σ : Type} (s : Surroundings R σ) (action : Action R) {x : Experiment R} (world : σ)
    (h : Arisen x) : Arisen (action.perform s x world).2.1

theorem Kept.model {x y : Experiment R} (h : Kept x y) : y.events.model = x.events.model := by
  obtain ⟨⟨_, _, _, rfl⟩, -⟩ := h
  rfl

variable [RootScalar R] {x y : Experiment R}

/-! ## 1. Rounds -/

/-- A round that does not complete leaves the latest parameters. -/
theorem model_of_conduct_error (s : Surroundings R σ) {c : RoundContext R} {world world' : σ}
    {stop : Stop (ExperimentError R)} (h : x.conduct s c world = (.error stop, y, world')) :
    y.events.model = x.events.model := by
  obtain ⟨visited, last, haccount⟩ := Machine.account_run s.link c world
  rw [conduct_eq] at h
  obtain ⟨hresult, rfl, -⟩ := by simpa only [Prod.mk.injEq] using h
  have hphases : ∀ p ∈ (c.run s.link world).1.published, ∃ phase, p = .phase phase := by
    intro p hp
    cases p with
    | phase phase => exact ⟨phase, rfl⟩
    | model m =>
      obtain ⟨completed, hok, -⟩ := (haccount.model_published m).1 hp
      rw [hok] at hresult
      contradiction
  obtain ⟨phase, hpublished⟩ := publishAll_phases x.events c.roundNumber hphases
  show (x.events.publishAll _ _).model = _
  rw [hpublished]

/-- A round that completes leaves its parameters as the latest ones. -/
theorem model_of_conduct_ok (s : Surroundings R σ) {c : RoundContext R} {world world' : σ}
    {completed : CompletedRound R} (h : x.conduct s c world = (.ok completed, y, world')) :
    y.events.model.event = some completed.aggregated.global := by
  obtain ⟨visited, last, haccount⟩ := Machine.account_run s.link c world
  obtain ⟨hresult, rfl, -⟩ := (conduct_eq_ok s).1 h
  show (x.events.publishAll c.roundNumber (c.run s.link world).1.published).model.event = _
  rw [haccount.published_of_ok hresult]
  rfl

theorem model_of_executeRound_error (s : Surroundings R σ) {world world' : σ}
    {stop : Stop (ExperimentError R)} (h : x.executeRound s world = (.error stop, y, world')) :
    y.events.model = x.events.model := by
  have ha := attempt_executeRound s x world
  rw [h] at ha
  cases ha with
  | inconsistent => rfl
  | unselected _ e hd => exact (kept_of_checkData hd).model
  | interrupted _ hd => exact (kept_of_checkData hd).model
  | unprepared x₁ _ selected _ e hr hp =>
    have hprepared := (kept_of_prepareRound s x₁ selected world).model
    rw [hp] at hprepared
    exact hprepared.trans (kept_of_checkData hr.checked).model
  | forsaken x₁ y' selected _ hr hp =>
    have hprepared := (kept_of_prepareRound s x₁ selected world).model
    rw [hp] at hprepared
    exact hprepared.trans (kept_of_checkData hr.checked).model
  | conducted c x₁ _ world₁ _ _ hp hc =>
    exact (model_of_conduct_error s hc).trans (kept_of_prepares s hp).model
  | abandoned c x₁ y' world₁ _ hp hc =>
    exact (model_of_conduct_error s hc).trans (kept_of_prepares s hp).model

theorem model_of_executeRound_ok (s : Surroundings R σ) {world world' : σ}
    {completed : CompletedRound R} (h : x.executeRound s world = (.ok completed, y, world')) :
    y.events.model.event = some completed.aggregated.global := by
  obtain ⟨c, x₁, world₁, -, hconduct⟩ := (executeRound_eq_ok s).1 h
  exact model_of_conduct_ok s hconduct

/-! ## 2. Experiments -/

theorem ShowsModel.failed (hx : ShowsModel x) {s : Surroundings R σ} {world world' : σ}
    {stop : Stop (ExperimentError R)} (h : x.executeRound s world = (.error stop, y, world')) :
    ShowsModel y := by
  have hmodel := model_of_executeRound_error s h
  obtain ⟨_, _, _, _, rfl⟩ := sameTraining_of_executeRound s h
  unfold ShowsModel at hx ⊢
  rw [hmodel]
  exact hx

theorem showsModel_of_commit {s : Surroundings R σ} {world world' : σ} {completed : CompletedRound R}
    (h : x.executeRound s world = (.ok completed, y, world')) (now : Timestamp) :
    ShowsModel (y.commit completed now) := by
  have hmodel : (y.commit completed now).events.model.event = some completed.aggregated.global := by
    show y.events.model.event = _
    exact model_of_executeRound_ok s h
  have hhistory : (y.commit completed now).history.isEmpty = false := by
    simp [Experiment.commit]
  rw [ShowsModel, hmodel, hhistory]
  rfl

theorem ShowsModel.runRound (hx : ShowsModel x) (s : Surroundings R σ) (world : σ) :
    ShowsModel (x.runRound s world).2.1 :=
  runRound_preserve s (fun _ _ _ hy => hx.failed hy) fun _ _ _ now hy => showsModel_of_commit hy now

theorem ShowsModel.changed (hx : ShowsModel x) (h : Changed x y) : ShowsModel y := by
  cases h <;> exact hx

theorem ShowsModel.perform (hx : ShowsModel x) (s : Surroundings R σ) (action : Action R) (world : σ) :
    ShowsModel (action.perform s x world).2.1 ∧
      ∀ a ∈ action.attempts s x world, ShowsModel a.1 :=
  action.perform_preserve s (fun _ _ h => h) (fun _ world h => h.runRound s world)
    (fun _ _ _ hy => hx.changed (changed_of_apply hy)) hx world

theorem Arisen.showsModel (h : Arisen x) : ShowsModel x := by
  induction h with
  | built s catalog d h =>
    obtain ⟨e, p, id, -, -, rfl⟩ := essentials_of_build s h
    rfl
  | performed s action world h ih => exact (ih.perform s action world).1

end Experiment

open Experiment in
/-- A round passes through its phases in their order or leaves one of the first three for the failure. It
publishes each phase once, broadcasts the requests at most once, and publishes parameters if and only if it
completes. So the parameters that were published last are the current ones whenever no round is running,
and the connection to the nodes is there as before unless the round was given up. -/
theorem rounds_publish_their_phases [RootScalar R] :
    (∀ {σ : Type} (l : Link R σ) (c : RoundContext R) (world : σ),
      (∃ visited last, Machine.Account l c world visited last) ∧
      (c.requests.map Request.nodeId = c.participants.keys ∧
        c.participants.keys.Pairwise (fun a b => compare a b = .lt) ∧
        ∀ q ∈ c.requests, ∃ work, q = .train work) ∧
      ∀ model, .model model ∈ (c.run l world).1.published ↔
        ∃ completed, (c.run l world).1.result = .ok completed ∧
          model = some completed.aggregated.global) ∧
    ∀ {x : Experiment R}, Arisen x → ShowsModel x ∧
      ∀ {σ : Type} (s : Surroundings R σ) (rounds : UInt64) (increase : Bool) (world : σ),
        ∀ a ∈ (Action.run rounds increase).attempts s x world,
          ShowsModel (a.1.runRound s a.2).2.1 ∧
          ((a.1.runRound s a.2).1 ≠ .error .abandoned →
            (a.1.runRound s a.2).2.1.isConnected = a.1.isConnected) := by
  constructor
  · intro σ l c world
    obtain ⟨visited, last, haccount⟩ := Machine.account_run l c world
    exact ⟨⟨visited, last, haccount⟩, c.requests_ascend, haccount.model_published⟩
  · intro x hx
    refine ⟨hx.showsModel, fun s rounds increase world a ha => ?_⟩
    have hbegin := (hx.showsModel.perform s (.run rounds increase) world).2 a ha
    exact ⟨hbegin.runRound s a.2, isConnected_of_runRound s⟩

open Experiment in
theorem rounds_publish_their_phases_pair :
    Arisen pairTrained ∧ pairTrained.history.isEmpty = false ∧
      pairTrained.events.model.event = some pairTrained.global := by
  have hbuilt : pairDraft.build (pairSurroundings true 1) (fun _ => .error "") () = (.ok pairBuilt, ()) :=
    rfl
  have harisen : Arisen pairTrained := .performed _ (.run 1 false) () (.built _ _ pairDraft hbuilt)
  have hhistory : pairTrained.history.isEmpty = false := by decide +kernel
  have hmodel := (rounds_publish_their_phases.2 harisen).1
  rw [ShowsModel, hhistory] at hmodel
  exact ⟨harisen, hhistory, hmodel⟩

end Federation
