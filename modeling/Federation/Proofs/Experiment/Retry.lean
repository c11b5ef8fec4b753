import Federation.Proofs.Experiment.Attempt
import Federation.Proofs.Round.Arrival
/-!
# Retries after failed attempts

A failed attempt changes nothing that a later attempt depends on. So a round that is completed at last
is the one that would have been completed at once.
-/

namespace Federation

variable {R : Type}

namespace Experiment

variable [RootScalar R]

/-! ## 1. Attempts that are equal but for the number -/

/-- Without secure aggregation an attempt prepares the same round as one that failed before it. -/
theorem Kept.prepares {x z z₁ : Experiment R} (h : Kept x z) (hoff : x.secagg.enabled = false)
    {σ σ' : Type} {s : Surroundings R σ} {world world₁ : σ} {c : RoundContext R}
    (hp : z.Prepares s world c z₁ world₁) (s' : Surroundings R σ') (world' : σ') :
    x.Prepares s' world' (c.again (s'.drawWord world').1) { x with dataChecked := true }
      (s'.drawWord world').2 := by
  obtain ⟨x₁, selected, hr, hprep⟩ := hp
  have hx₁ : Kept x x₁ := h.trans (kept_of_checkData hr.checked)
  have hquality := h.consistent (checkData_eq_ok.1 hr.checked).1
  have hx : x.checkData = .ok { x with dataChecked := true } := checkData_eq_ok.2 ⟨hquality, rfl⟩
  have hsame : Kept x { x with dataChecked := true } := kept_of_checkData hx
  -- so far both attempts go the same way, since they read only what was kept
  have hready : x.Ready { x with dataChecked := true } selected := by
    refine ⟨hx, ?_, ?_⟩
    · rw [hsame.select, ← hx₁.select]
      exact hr.selection
    · rw [hsame.isConnected, ← hx₁.isConnected]
      exact hr.connected
  obtain ⟨secagg, world₂, participants, hsec, hparts, rfl, -⟩ := prepareRound_eq_ok s hprep
  -- the session, which may differ, is not read without secure aggregation
  rw [prepareSecagg_of_disabled s (hx₁.enabled.trans hoff)] at hsec
  obtain ⟨rfl, rfl, -⟩ : none = secagg ∧ x₁ = z₁ ∧ world = world₂ := by
    simpa only [Prod.mk.injEq, Except.ok.injEq] using hsec
  refine ⟨_, selected, hready, ?_⟩
  rw [hx₁.participants, ← hsame.participants] at hparts
  rw [hx₁.context, ← hsame.context, prepareRound,
    prepareSecagg_of_disabled s' (hsame.enabled.trans hoff)]
  simp only [hparts]
  rfl

/-- Without secure aggregation the number of the attempt is the only thing that is drawn. -/
theorem plain_of_prepares {x y : Experiment R} {σ : Type} {s : Surroundings R σ}
    {world world' : σ} {c : RoundContext R} (hoff : x.secagg.enabled = false)
    (h : x.Prepares s world c y world') :
    c.secagg = none ∧ c.requestId = (s.drawWord world).1 := by
  obtain ⟨x₁, selected, hr, hp⟩ := h
  obtain ⟨secagg, world₁, participants, hsec, -, rfl, -⟩ := prepareRound_eq_ok s hp
  have hoff' := (kept_of_checkData hr.checked).enabled.trans hoff
  rw [prepareSecagg_of_disabled s hoff'] at hsec
  obtain ⟨rfl, -, rfl⟩ : none = secagg ∧ _ ∧ world = world₁ := by
    simpa only [Prod.mk.injEq, Except.ok.injEq] using hsec
  exact ⟨rfl, rfl⟩

/-! ## 2. Failed attempts -/

/-- Any number of failed attempts, each in any surroundings. -/
inductive FailedAttempts : Experiment R → Experiment R → Prop where
  | none (x : Experiment R) : FailedAttempts x x
  | attempt {x y z : Experiment R} {σ : Type} (s : Surroundings R σ) (world world' : σ)
    (e : ExperimentError R) (h : x.executeRound s world = (.error (.failed e), y, world'))
    (hz : FailedAttempts y z) : FailedAttempts x z

theorem FailedAttempts.kept {x z : Experiment R} (h : FailedAttempts x z) : Kept x z := by
  induction h with
  | none x => exact Kept.refl x
  | attempt s world world' e h hz ih => exact (kept_of_executeRound s h).trans ih

/-- Two attempts of one round hear the same replies, each to its own requests. -/
structure HearAlike {σ σ' : Type} (s : Surroundings R σ) (z : Experiment R) (world : σ)
    (s' : Surroundings R σ') (x : Experiment R) (world' : σ') (c : RoundContext R)
    (requestId : UInt64) (replies replies' : Replies R) : Prop where
  hears : ∃ z₁ world₁, z.Prepares s world c z₁ world₁ ∧ c.hears? s.link world₁ = some replies
  hears' : ∃ x₁ world₁', x.Prepares s' world' (c.again requestId) x₁ world₁' ∧
    (c.again requestId).hears? s'.link world₁' = some replies'
  alike : Collecting.AnswersAlike c replies requestId replies'

/-- Two experiments stand at the same point of the training. -/
structure SameProgress (a b : Experiment R) : Prop where
  global : a.global = b.global
  nodeStates : a.nodeStates = b.nodeStates
  aggregator : a.aggregator = b.aggregator
  optimizer : a.optimizer = b.optimizer
  roundCurrent : a.roundCurrent = b.roundCurrent

/-- An attempt that hears the same replies as a completed one after failed attempts completes with the
same progress. -/
theorem Kept.completes_alike {x y z : Experiment R} (h : Kept x z) {σ σ' : Type}
    {s : Surroundings R σ} {s' : Surroundings R σ'} {world world₂ : σ} {world' : σ'}
    {completed : CompletedRound R} {c : RoundContext R} {requestId : UInt64}
    {replies replies' : Replies R}
    (hok : z.executeRound s world = (.ok completed, y, world₂))
    (halike : HearAlike s z world s' x world' c requestId replies replies') :
    ∃ completed' y' world₂', x.executeRound s' world' = (.ok completed', y', world₂') ∧
      ∀ now now', SameProgress (y'.commit completed' now') (y.commit completed now) := by
  obtain ⟨z₁, world₁, hz, hhears⟩ := halike.hears
  obtain ⟨x₁, world₁', hx, hhears'⟩ := halike.hears'
  have hconduct : z₁.conduct s c world₁ = (.ok completed, y, world₂) := by
    obtain ⟨hfst, hrest⟩ := executeRound_of_prepares s hz
    rw [hok] at hfst hrest
    exact (hrest (by rw [← hfst]; simp)).symm
  -- the completed attempt, taken apart down to the replies that it heard
  obtain ⟨hrun, rfl, -⟩ := (conduct_eq_ok s).1 hconduct
  obtain ⟨replies₀, hhears₀, hsound, hcomplete, hcombined⟩ :=
    (RoundContext.run_result_eq_ok s.link c world₁ completed).1 hrun
  obtain rfl : replies = replies₀ := Option.some.inj (hhears.symm.trans hhears₀)
  obtain ⟨completed', hcombined', huntimed⟩ :=
    Collecting.complete_again_of_ok hcomplete halike.alike hcombined
  obtain ⟨participants, rfl⟩ := CompletedRound.eq_of_untimed huntimed
  -- the other attempt, put together again from replies that are alike
  have hrun' := (RoundContext.run_result_eq_ok s'.link (c.again requestId) world₁' _).2
    ⟨replies', hhears', hsound.again hcomplete halike.alike, hcomplete.again halike.alike, hcombined'⟩
  have hconduct' := (conduct_eq_ok s' (x := x₁)).2 ⟨hrun', rfl, rfl⟩
  refine ⟨_, _, _, (executeRound_eq_ok s').2 ⟨_, x₁, world₁', hx, hconduct'⟩, fun now now' => ?_⟩
  have hz₁ : Kept x z₁ := h.trans (kept_of_prepares s hz)
  have hx₁ : Kept x x₁ := kept_of_prepares s' hx
  -- what is committed is read from the completed round and from what both experiments kept
  obtain ⟨⟨_, _, _, rfl⟩, -⟩ := hz₁
  obtain ⟨⟨_, _, _, rfl⟩, -⟩ := hx₁
  exact ⟨rfl, rfl, rfl, rfl, rfl⟩

end Experiment

open Collecting Experiment in
/-- After any number of failed attempts an experiment is what it was, but for the mark that its data was
checked, its session and the latest phase that its interfaces have published. Without secure aggregation a
completed attempt after them makes the same progress as one at once that hears the same replies. -/
theorem failed_attempts_leave_no_trace [RootScalar R] {x z : Experiment R} (h : FailedAttempts x z) :
    z = { x with
        dataChecked := z.dataChecked
        secagg := { x.secagg with session := z.secagg.session }
        events := { x.events with phase := z.events.phase } } ∧
      (z.dataChecked = x.dataChecked ∨
        z.dataChecked = true ∧ x.dataset.checkQuality = .ok ()) ∧
      (∀ {σ : Type} (s : Surroundings R σ) (world : σ),
        (z.executeRound s world).1 = .error (.failed .interrupted) → x.isConnected = false) ∧
      (x.secagg.enabled = false →
        ∀ {σ σ' : Type} (s : Surroundings R σ) (s' : Surroundings R σ') (world : σ) (world' : σ'),
          (∀ c z₁ world₁, z.Prepares s world c z₁ world₁ → ∃ x₁ world₁',
            x.Prepares s' world' (c.again (s'.drawWord world').1) x₁ world₁') ∧
          ∀ completed y world₂ c requestId replies replies',
            z.executeRound s world = (.ok completed, y, world₂) →
            HearAlike s z world s' x world' c requestId replies replies' →
            ∃ completed' y' world₂', x.executeRound s' world' = (.ok completed', y', world₂') ∧
              ∀ now now', SameProgress (y'.commit completed' now') (y.commit completed now)) := by
  have hkept := h.kept
  refine ⟨?_, hkept.checked, ?_, ?_⟩
  · obtain ⟨checked, session, phase, hz⟩ := hkept.rest
    rw [hz]
  · intro σ s world hi
    rw [← hkept.isConnected]
    exact isConnected_of_interrupted s hi
  · intro hoff σ σ' s s' world world'
    refine ⟨fun c z₁ world₁ hp => ⟨_, _, hkept.prepares hoff hp s' world'⟩, ?_⟩
    intro completed y world₂ c requestId replies replies' hok halike
    exact hkept.completes_alike hok halike

/-- The data of a node. -/
def sampleData : DatasetMetadata := ⟨"data", [], 1, "csv", [1], ["float"]⟩

/-- An experiment with two nodes, before its first round. -/
def pairExperiment : Experiment ℚ where
  researcherId := "researcher"
  experimentId := "experiment"
  query := .tags .empty
  nodes := none
  dataset :=
    ⟨.ofList [("left", .ofMetadata "left" sampleData), ("right", .ofMetadata "right" sampleData)]⟩
  dataChecked := false
  trainingArgs := {}
  modelArgs := .empty
  aggregator := .fedAverage
  optimizer := .identity
  strategy := .allAvailable
  nodeStates := .empty
  secagg := ⟨false, ⟨1, 16⟩, .zero, none⟩
  roundCurrent := 0
  roundLimit := 1
  roundTimeout := .zero
  initialParams := .ofLayers [("layer", [0])]
  global := .ofLayers [("layer", [0])]
  history := []
  isConnected := true
  events := .start 0 none
  savesCheckpoints := false

/-- What the two nodes reply to an attempt. -/
def pairReplies (requestId : UInt64) : Replies ℚ :=
  [(.train (pairReply requestId "right" 3), .zero), (.train (pairReply requestId "left" 1), .zero)]

/-- Surroundings in which an attempt has the given number, and in which both nodes reply to it unless
the channel of the replies is closed. -/
def pairSurroundings (isOpen : Bool) (requestId : UInt64) : Surroundings ℚ Unit where
  link :=
    { send := fun _ world => (none, world)
      watch := fun _ _ => ⟨(pairReplies requestId).map observation, .deadline⟩
      advance := fun _ _ world => world
      purge := fun world => (isOpen, world)
      arm := fun world => world }
  drawName world := ("session", world)
  drawWord world := (requestId, world)
  drawFraction world := (0, world)
  now _ := ⟨0, 0⟩
  save _ world := (.error .unreadable, world)
  prepare world := (.ok (), world)

/-- The experiment after an attempt that found the channel closed. -/
def pairFailed : Experiment ℚ := (pairExperiment.executeRound (pairSurroundings false 1) ()).2.1

open Collecting Experiment in
theorem hearAlike_pair :
    HearAlike (pairSurroundings true 1) pairFailed () (pairSurroundings true 2) pairExperiment ()
      (pairRound 1) 2 (pairReplies 1) (pairReplies 2) where
  hears := ⟨pairFailed, (), ⟨pairFailed, .setOf ["left", "right"], ⟨rfl, rfl, rfl⟩, rfl⟩, rfl⟩
  hears' := ⟨{ pairExperiment with dataChecked := true }, (),
    ⟨{ pairExperiment with dataChecked := true }, .setOf ["left", "right"], ⟨rfl, rfl, rfl⟩, rfl⟩, rfl⟩
  alike := by
    intro node r t h
    obtain ⟨hmem, -, rfl⟩ := firstMatch?_eq_some h
    have hr : (r = pairReply 1 "right" 3 ∧ t = .zero) ∨ (r = pairReply 1 "left" 1 ∧ t = .zero) := by
      simpa [pairReplies] using hmem
    rcases hr with ⟨rfl, rfl⟩ | ⟨rfl, rfl⟩
    · exact ⟨.zero, rfl⟩
    · exact ⟨.zero, rfl⟩

open Experiment in
theorem failed_attempts_leave_no_trace_pair :
    FailedAttempts pairExperiment pairFailed ∧
      ∃ completed y completed' y',
        pairFailed.executeRound (pairSurroundings true 1) () = (.ok completed, y, ()) ∧
          pairExperiment.executeRound (pairSurroundings true 2) () = (.ok completed', y', ()) ∧
          ∀ now now', SameProgress (y'.commit completed' now') (y.commit completed now) := by
  have hfailed : FailedAttempts pairExperiment pairFailed :=
    .attempt (pairSurroundings false 1) () () (.round 0 .replyChannel) rfl (.none _)
  have hok : (pairFailed.executeRound (pairSurroundings true 1) ()).1.isOk = true := by
    decide +kernel
  refine ⟨hfailed, ?_⟩
  rcases hrun : pairFailed.executeRound (pairSurroundings true 1) () with ⟨stop | completed, y, world⟩
  · rw [hrun] at hok
    contradiction
  · obtain ⟨-, -, -, hsame⟩ := failed_attempts_leave_no_trace hfailed
    obtain ⟨completed', y', world', hrun', hprogress⟩ :=
      (hsame rfl _ _ _ _).2 _ _ _ _ _ _ _ hrun hearAlike_pair
    exact ⟨completed, y, completed', y', rfl, hrun', hprogress⟩

end Federation
