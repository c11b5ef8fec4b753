import Federation.Proofs.Round.Course
import Federation.Proofs.Experiment.Preparation
/-!
# Attempts of a round

An attempt of a round checks the data, selects the participants, prepares a context and runs the round.
Whatever ends it, the experiment keeps everything but the mark that its data was checked, its session
of secure aggregation and the latest events.
-/

namespace Federation

variable {R σ : Type}

namespace Experiment

/-! ## 1. What a failed attempt keeps -/

/-- An attempt that does not complete its round may mark the data as checked, replace the session and
publish a phase. -/
structure Kept (x y : Experiment R) : Prop where
  rest : ∃ checked session phase, y = { x with
    dataChecked := checked
    secagg := { x.secagg with session }
    events := { x.events with phase } }
  checked : y.dataChecked = x.dataChecked ∨
    (y.dataChecked = true ∧ x.dataset.checkQuality = .ok ())

theorem Kept.refl (x : Experiment R) : Kept x x :=
  ⟨⟨_, _, _, rfl⟩, Or.inl rfl⟩

theorem Kept.trans {x y z : Experiment R} (h : Kept x y) (h' : Kept y z) : Kept x z := by
  obtain ⟨⟨checked, session, phase, rfl⟩, hc⟩ := h
  obtain ⟨⟨checked', session', phase', rfl⟩, hc'⟩ := h'
  refine ⟨⟨_, _, _, rfl⟩, ?_⟩
  -- the data was checked by the second step, by the first one or by neither
  rcases hc' with hc' | hc'
  · rcases hc with hc | hc
    · exact Or.inl (hc'.trans hc)
    · exact Or.inr ⟨hc'.trans hc.1, hc.2⟩
  · exact Or.inr hc'

section

variable {x y : Experiment R} (h : Kept x y)
include h

theorem Kept.isConnected : y.isConnected = x.isConnected := by
  obtain ⟨⟨_, _, _, rfl⟩, -⟩ := h
  rfl

theorem Kept.global : y.global = x.global := by
  obtain ⟨⟨_, _, _, rfl⟩, -⟩ := h
  rfl

theorem Kept.nodeStates : y.nodeStates = x.nodeStates := by
  obtain ⟨⟨_, _, _, rfl⟩, -⟩ := h
  rfl

theorem Kept.dataset : y.dataset = x.dataset := by
  obtain ⟨⟨_, _, _, rfl⟩, -⟩ := h
  rfl

theorem Kept.enabled : y.secagg.enabled = x.secagg.enabled := by
  obtain ⟨⟨_, _, _, rfl⟩, -⟩ := h
  rfl

/-- An experiment that was kept selects the same participants. -/
theorem Kept.select :
    y.strategy.select y.roundCurrent y.dataset y.nodeStates =
      x.strategy.select x.roundCurrent x.dataset x.nodeStates := by
  obtain ⟨⟨_, _, _, rfl⟩, -⟩ := h
  rfl

theorem Kept.participants [Scalar R] (selected : NameSet) :
    y.participants selected = x.participants selected := by
  obtain ⟨⟨_, _, _, rfl⟩, -⟩ := h
  rfl

theorem Kept.context (participants : NameMap (Participant R)) (secagg : Option (SecaggRound R))
    (requestId : UInt64) :
    y.context participants secagg requestId = x.context participants secagg requestId := by
  obtain ⟨⟨_, _, _, rfl⟩, -⟩ := h
  rfl

/-- If the data of an experiment that was kept is consistent, it was so before. -/
theorem Kept.consistent (hy : y.dataChecked = true ∨ y.dataset.checkQuality = .ok ()) :
    x.dataChecked = true ∨ x.dataset.checkQuality = .ok () := by
  obtain ⟨⟨_, _, _, rfl⟩, hc⟩ := h
  rcases hc with hc | ⟨-, hq⟩
  · rcases hy with hy | hq
    · exact Or.inl (hc.symm.trans hy)
    · exact Or.inr hq
  · exact Or.inr hq

end

/-- Neither the progress of the training nor its configuration differs. -/
def SameTraining (x y : Experiment R) : Prop :=
  ∃ dataChecked session events isConnected, y = { x with
    dataChecked, secagg := { x.secagg with session }, events, isConnected }

theorem Kept.sameTraining {x y : Experiment R} (h : Kept x y) : SameTraining x y := by
  obtain ⟨⟨checked, session, phase, rfl⟩, -⟩ := h
  exact ⟨checked, session, _, _, rfl⟩

theorem SameTraining.trans {x y z : Experiment R} (h : SameTraining x y) (h' : SameTraining y z) :
    SameTraining x z := by
  obtain ⟨_, _, _, _, rfl⟩ := h
  obtain ⟨_, _, _, _, rfl⟩ := h'
  exact ⟨_, _, _, _, rfl⟩

theorem checkData_eq_ok {x y : Experiment R} :
    x.checkData = .ok y ↔
      (x.dataChecked = true ∨ x.dataset.checkQuality = .ok ()) ∧ y = { x with dataChecked := true } := by
  rw [checkData]
  cases hd : x.dataChecked with
  | true =>
    -- an experiment that is marked already is returned as it is
    have hsame : { x with dataChecked := true } = x := by rw [← hd]
    rw [hsame]
    simp [eq_comm]
  | false =>
    cases hq : x.dataset.checkQuality with
    | error e => simp
    | ok u => simp [eq_comm]

/-- The data can only be refused as such. -/
theorem error_of_checkData {x : Experiment R} {e : ExperimentError R} (h : x.checkData = .error e) :
    ∃ e', e = .dataset e' := by
  rw [checkData] at h
  split at h
  · contradiction
  · split at h
    · exact ⟨_, (Except.error.inj h).symm⟩
    · contradiction

theorem kept_of_checkData {x y : Experiment R} (h : x.checkData = .ok y) : Kept x y := by
  obtain ⟨hq, rfl⟩ := checkData_eq_ok.1 h
  refine ⟨⟨_, _, _, rfl⟩, ?_⟩
  rcases hq with hd | hq
  · exact Or.inl hd.symm
  · exact Or.inr ⟨rfl, hq⟩

/-- Phases do not replace the latest parameters. -/
theorem publishAll_phases (events : Events R) (round : RoundNumber) {l : List (Publication R)}
    (h : ∀ p ∈ l, ∃ phase, p = .phase phase) :
    ∃ phase, events.publishAll round l = { events with phase } := by
  induction l generalizing events with
  | nil => exact ⟨events.phase, rfl⟩
  | cons p l ih =>
    obtain ⟨phase, rfl⟩ := h p List.mem_cons_self
    obtain ⟨last, hl⟩ := ih (events.publish round (.phase phase))
      fun p hp => h p (List.mem_cons_of_mem _ hp)
    exact ⟨last, hl⟩

section

variable (s : Surroundings R σ)

theorem kept_of_setup {x : Experiment R} {selected : NameSet} {world world' : σ}
    {joined : Except (Stop (SecaggError R)) SecaggSession} {secagg : SecureAggregation R}
    (h : setupOf s x selected world = (joined, secagg, world')) : Kept x { x with secagg } := by
  obtain ⟨session, hs⟩ := setup_session s.link x.secagg x.researcherId x.experimentId
    (s.drawName world).1 selected (s.drawName world).2
  have hsecagg : secagg = { x.secagg with session } := by rw [← hs, ← setupOf, h]
  exact ⟨⟨_, session, _, by rw [hsecagg]⟩, Or.inl rfl⟩

theorem kept_of_prepareSecagg (x : Experiment R) (selected : NameSet) (world : σ) :
    Kept x (x.prepareSecagg s selected world).2.1 := by
  have h := secured_prepareSecagg s x selected world
  generalize x.prepareSecagg s selected world = secured at h ⊢
  cases h with
  | plain he => exact Kept.refl x
  | failed e secagg world' hs => exact kept_of_setup s hs
  | abandoned secagg world' hs => exact kept_of_setup s hs
  | secure session secagg world' hs => exact kept_of_setup s hs

theorem kept_of_prepareRound [Scalar R] (x : Experiment R) (selected : NameSet) (world : σ) :
    Kept x (x.prepareRound s selected world).2.1 := by
  have hsec := kept_of_prepareSecagg s x selected world
  have h := prepared_prepareRound s x selected world
  generalize x.prepareRound s selected world = prepared at h ⊢
  cases h with
  | unsecured stop y world' hs => rwa [hs] at hsec
  | unsuited secagg y world' e hs hp => rwa [hs] at hsec
  | ready secagg y world₁ participants hs hp => rwa [hs] at hsec

/-- A participant lacks its data, or an update of the aggregator. -/
theorem error_of_participant [Scalar R] {x : Experiment R} {node : NodeId} {e : ExperimentError R}
    (h : x.participant node = .error e) :
    (e = .selection (.invalidSelection node) ∧ x.dataset.contains node = false) ∨
      ∃ number e', e = .round number (.aggregation e') := by
  rw [participant] at h
  split at h
  next hnone =>
    refine Or.inl ⟨(Except.error.inj h).symm, ?_⟩
    rw [FederatedDataset.contains, SortedMap.contains, ← FederatedDataset.get?, hnone]
    rfl
  · split at h
    · exact Or.inr ⟨_, _, (Except.error.inj h).symm⟩
    · contradiction

/-- A round cannot be prepared for want of data of a node, of a session or of an update of the
aggregator. -/
theorem error_of_prepareRound [Scalar R] {x : Experiment R} {selected : NameSet} {world : σ}
    {e : ExperimentError R} (h : (x.prepareRound s selected world).1 = .error (.failed e)) :
    (∃ node ∈ selected.keys, e = .selection (.invalidSelection node) ∧ x.dataset.contains node = false) ∨
      (∃ number e', e = .round number (.secureAggregation e')) ∨
      ∃ number e', e = .round number (.aggregation e') := by
  have hkept := kept_of_prepareSecagg s x selected world
  have hprep := prepared_prepareRound s x selected world
  generalize x.prepareRound s selected world = prepared at h hprep
  cases hprep with
  | unsecured stop y world' hs =>
    have hsec := secured_prepareSecagg s x selected world
    obtain rfl : stop = .failed e := Except.error.inj h
    rw [hs] at hsec
    cases hsec with
    | failed e' => exact Or.inr (Or.inl ⟨_, _, rfl⟩)
  | unsuited secagg y world' e' hs hp =>
    obtain rfl : e' = e := Stop.failed.inj (Except.error.inj h)
    rw [hs] at hkept
    rw [hkept.participants] at hp
    obtain ⟨node, hnode, hp⟩ := participant_of_error hp
    rcases error_of_participant hp with ⟨he, hmissing⟩ | hupdate
    · exact Or.inl ⟨node, hnode, he, hmissing⟩
    · exact Or.inr (Or.inr hupdate)
  | ready => contradiction

end

/-! ## 2. The stages of an attempt -/

/-- An experiment gets as far as preparing a round: its data is consistent, participants are selected
and it is connected. -/
structure Ready (x y : Experiment R) (selected : NameSet) : Prop where
  checked : x.checkData = .ok y
  selection : y.strategy.select y.roundCurrent y.dataset y.nodeStates = .ok selected
  connected : y.isConnected = true

/-- An attempt gets as far as running a round of the context `c`, in the surroundings `world'`. -/
def Prepares [Scalar R] (s : Surroundings R σ) (x : Experiment R) (world : σ) (c : RoundContext R)
    (y : Experiment R) (world' : σ) : Prop :=
  ∃ x₁ selected, x.Ready x₁ selected ∧ x₁.prepareRound s selected world = (.ok c, y, world')

variable [RootScalar R] (s : Surroundings R σ)

/-- All that can come of an attempt. -/
inductive Attempt (x : Experiment R) (world : σ) : Result R σ (CompletedRound R) → Prop where
  | inconsistent (e : ExperimentError R) (hd : x.checkData = .error e) :
    Attempt x world (.error (.failed e), x, world)
  | unselected (y : Experiment R) (e : SelectionError) (hd : x.checkData = .ok y)
    (hs : y.strategy.select y.roundCurrent y.dataset y.nodeStates = .error e) :
    Attempt x world (.error (.failed (.selection e)), y, world)
  | interrupted (y : Experiment R) (hd : x.checkData = .ok y) (hc : y.isConnected = false) :
    Attempt x world (.error (.failed .interrupted), y, world)
  | unprepared (x₁ y : Experiment R) (selected : NameSet) (world' : σ) (e : ExperimentError R)
    (hr : x.Ready x₁ selected)
    (hp : x₁.prepareRound s selected world = (.error (.failed e), y, world')) :
    Attempt x world (.error (.failed e), y, world')
  | forsaken (x₁ y : Experiment R) (selected : NameSet) (world' : σ) (hr : x.Ready x₁ selected)
    (hp : x₁.prepareRound s selected world = (.error .abandoned, y, world')) :
    Attempt x world (.error .abandoned, { y with isConnected := false }, world')
  | conducted (c : RoundContext R) (x₁ y : Experiment R) (world₁ world' : σ)
    (r : Except (Stop (ExperimentError R)) (CompletedRound R))
    (hp : x.Prepares s world c x₁ world₁) (hc : x₁.conduct s c world₁ = (r, y, world'))
    (hr : r ≠ .error .abandoned) : Attempt x world (r, y, world')
  | abandoned (c : RoundContext R) (x₁ y : Experiment R) (world₁ world' : σ)
    (hp : x.Prepares s world c x₁ world₁)
    (hc : x₁.conduct s c world₁ = (.error .abandoned, y, world')) :
    Attempt x world (.error .abandoned, { y with isConnected := false }, world')

theorem attempt_executeRound (x : Experiment R) (world : σ) :
    Attempt s x world (x.executeRound s world) := by
  cases hd : x.checkData with
  | error e =>
    rw [executeRound, hd]
    exact .inconsistent e hd
  | ok x₁ =>
    cases hs : x₁.strategy.select x₁.roundCurrent x₁.dataset x₁.nodeStates with
    | error e =>
      simp only [executeRound, hd, hs]
      exact .unselected x₁ e hd hs
    | ok selected =>
      cases hc : x₁.isConnected with
      | false =>
        simp only [executeRound, hd, hs, hc]
        exact .interrupted x₁ hd hc
      | true =>
        have hr : x.Ready x₁ selected := ⟨hd, hs, hc⟩
        rcases hp : x₁.prepareRound s selected world with ⟨prepared, x₂, world₁⟩
        rcases prepared with (e | _) | c
        · simp only [executeRound, hd, hs, hc, hp]
          exact .unprepared x₁ x₂ selected world₁ e hr hp
        · simp only [executeRound, hd, hs, hc, hp]
          exact .forsaken x₁ x₂ selected world₁ hr hp
        · have hprep : x.Prepares s world c x₂ world₁ := ⟨x₁, selected, hr, hp⟩
          rcases hcond : x₂.conduct s c world₁ with ⟨r, y, world'⟩
          rcases r with (e | _) | completed
          · simp only [executeRound, hd, hs, hc, hp, hcond]
            exact .conducted c x₂ y world₁ world' _ hprep hcond (by simp)
          · simp only [executeRound, hd, hs, hc, hp, hcond]
            exact .abandoned c x₂ y world₁ world' hprep hcond
          · simp only [executeRound, hd, hs, hc, hp, hcond]
            exact .conducted c x₂ y world₁ world' _ hprep hcond (by simp)

theorem kept_of_prepares {x y : Experiment R} {c : RoundContext R} {world world' : σ}
    (h : x.Prepares s world c y world') : Kept x y := by
  obtain ⟨x₁, selected, hr, hp⟩ := h
  have hkept := kept_of_prepareRound s x₁ selected world
  rw [hp] at hkept
  exact (kept_of_checkData hr.checked).trans hkept

/-- The context of a round is made of what the experiment was when the attempt began. -/
theorem context_of_prepares {x y : Experiment R} {c : RoundContext R} {world world' : σ}
    (h : x.Prepares s world c y world') :
    ∃ participants secagg requestId, c = x.context participants secagg requestId := by
  have hkept := kept_of_prepares s h
  obtain ⟨x₁, selected, -, hprepare⟩ := h
  obtain ⟨secagg, world₁, participants, -, -, rfl, -⟩ := prepareRound_eq_ok s hprepare
  exact ⟨participants, secagg, _, hkept.context _ _ _⟩

/-- The participants of a round continue from the states that were expected of them when the attempt
began. -/
theorem stateId_of_prepares {x y : Experiment R} {c : RoundContext R} {world world' : σ}
    (h : x.Prepares s world c y world') {node : NodeId} {p : Participant R}
    (hp : c.participants.find? node = some p) : p.stateId = x.nodeStates.expectedStateId node := by
  have hkept := kept_of_prepares s h
  obtain ⟨x₁, selected, -, hprepare⟩ := h
  obtain ⟨secagg, world₁, participants, -, hparts, rfl, -⟩ := prepareRound_eq_ok s hprepare
  have hstate := stateId_of_participant (participant_of_participants hparts hp)
  rwa [hkept.nodeStates] at hstate

/-! ## 3. Running the round -/

/-- How the failure of a round appears as a failure of the experiment. -/
def ofRoundStop (round : RoundNumber) : Stop (RoundError R) → Stop (ExperimentError R)
  | .failed e => .failed (.round round e)
  | .abandoned => .abandoned

theorem conduct_eq (x : Experiment R) (c : RoundContext R) (world : σ) :
    x.conduct s c world =
      ((c.run s.link world).1.result.mapError (ofRoundStop c.roundNumber),
        { x with
          events := x.events.publishAll c.roundNumber (c.run s.link world).1.published },
        (c.run s.link world).2) := by
  rcases h : c.run s.link world with ⟨⟨result, published⟩, world'⟩
  rcases result with (e | _) | completed
  · simp [conduct, h, Except.mapError, ofRoundStop]
  · simp [conduct, h, Except.mapError, ofRoundStop]
  · simp [conduct, h, Except.mapError]

theorem conduct_eq_ok {x y : Experiment R} {c : RoundContext R} {world world' : σ}
    {completed : CompletedRound R} :
    x.conduct s c world = (.ok completed, y, world') ↔
      (c.run s.link world).1.result = .ok completed ∧
        y = { x with
          events := x.events.publishAll c.roundNumber (c.run s.link world).1.published } ∧
        world' = (c.run s.link world).2 := by
  rw [conduct_eq, Prod.mk.injEq, Prod.mk.injEq, mapError_eq_ok, eq_comm (a := y),
    eq_comm (a := world')]

/-- Running a round fails of what the round fails of. -/
theorem error_of_conduct {x y : Experiment R} {c : RoundContext R} {world world' : σ}
    {e : ExperimentError R} (h : x.conduct s c world = (.error (.failed e), y, world')) :
    ∃ e', e = .round c.roundNumber e' ∧ (c.run s.link world).1.result = .error (.failed e') := by
  rw [conduct_eq] at h
  obtain ⟨stop, hr, hstop⟩ := mapError_eq_error.1 (congrArg Prod.fst h)
  cases stop with
  | abandoned => contradiction
  | failed e' => exact ⟨e', (Stop.failed.inj hstop).symm, hr⟩

theorem kept_of_conduct {x y : Experiment R} {c : RoundContext R} {world world' : σ}
    {e : ExperimentError R} (h : x.conduct s c world = (.error (.failed e), y, world')) :
    Kept x y := by
  obtain ⟨e', -, hr⟩ := error_of_conduct s h
  rw [conduct_eq] at h
  obtain ⟨-, hstate, -⟩ := by simpa only [Prod.mk.injEq] using h
  obtain ⟨phase, hp⟩ := publishAll_phases x.events c.roundNumber (RoundContext.published_of_failed hr)
  rw [hp] at hstate
  exact ⟨⟨_, x.secagg.session, phase, hstate.symm⟩, Or.inl (by rw [← hstate])⟩

/-- A failed attempt keeps the experiment, whatever it failed of. -/
theorem kept_of_executeRound {x y : Experiment R} {world world' : σ} {e : ExperimentError R}
    (h : x.executeRound s world = (.error (.failed e), y, world')) : Kept x y := by
  have ha := attempt_executeRound s x world
  rw [h] at ha
  -- an abandoned attempt is none that failed, which leaves five cases
  cases ha with
  | inconsistent e hd => exact Kept.refl x
  | unselected _ e hd hs => exact kept_of_checkData hd
  | interrupted _ hd hc => exact kept_of_checkData hd
  | unprepared x₁ _ selected _ e hready hp =>
    have hkept := kept_of_prepareRound s x₁ selected world
    rw [hp] at hkept
    exact (kept_of_checkData hready.checked).trans hkept
  | conducted c x₁ _ world₁ _ _ hp hc => exact (kept_of_prepares s hp).trans (kept_of_conduct s hc)

/-! ## 4. How an attempt ends -/

/-- An attempt that prepares a round ends as the round does. -/
theorem executeRound_of_prepares {x y : Experiment R} {c : RoundContext R} {world world' : σ}
    (h : x.Prepares s world c y world') :
    (x.executeRound s world).1 = (y.conduct s c world').1 ∧
      ((y.conduct s c world').1 ≠ .error .abandoned →
        x.executeRound s world = y.conduct s c world') := by
  obtain ⟨x₁, selected, hr, hp⟩ := h
  rcases hcond : y.conduct s c world' with ⟨r, z, world₂⟩
  have hsel := hr.selection
  have hconn := hr.connected
  rcases r with (e | _) | completed
  · simp [executeRound, hr.checked, hsel, hconn, hp, hcond]
  · simp [executeRound, hr.checked, hsel, hconn, hp, hcond]
  · simp [executeRound, hr.checked, hsel, hconn, hp, hcond]

/-- An attempt completes if it prepares a round and the round completes. -/
theorem executeRound_eq_ok {x y : Experiment R} {world world' : σ} {completed : CompletedRound R} :
    x.executeRound s world = (.ok completed, y, world') ↔
      ∃ c x₁ world₁, x.Prepares s world c x₁ world₁ ∧
        x₁.conduct s c world₁ = (.ok completed, y, world') := by
  constructor
  · intro h
    have ha := attempt_executeRound s x world
    rw [h] at ha
    cases ha with
    | conducted c x₁ _ world₁ _ _ hp hc => exact ⟨c, x₁, world₁, hp, hc⟩
  · rintro ⟨c, x₁, world₁, hp, hc⟩
    rw [(executeRound_of_prepares s hp).2 (by rw [hc]; simp), hc]

/-- What an attempt can fail of. It saves no checkpoint, and it is interrupted only if the experiment
has lost its connection. -/
inductive Failing (x : Experiment R) : ExperimentError R → Prop where
  | dataset (e : DatasetError) : Failing x (.dataset e)
  | selection (e : SelectionError) : Failing x (.selection e)
  | round (number : RoundNumber) (e : RoundError R) : Failing x (.round number e)
  | interrupted (h : x.isConnected = false) : Failing x .interrupted

theorem failing_of_executeRound {x y : Experiment R} {world world' : σ} {e : ExperimentError R}
    (h : x.executeRound s world = (.error (.failed e), y, world')) : Failing x e := by
  have ha := attempt_executeRound s x world
  rw [h] at ha
  cases ha with
  | inconsistent _ hd =>
    obtain ⟨e', rfl⟩ := error_of_checkData hd
    exact .dataset e'
  | unselected _ e _ _ => exact .selection e
  | interrupted _ hd hc => exact .interrupted ((kept_of_checkData hd).isConnected.symm.trans hc)
  | unprepared x₁ _ selected _ _ hr hp =>
    rcases error_of_prepareRound s (congrArg Prod.fst hp) with
      ⟨node, -, rfl, -⟩ | ⟨number, e', rfl⟩ | ⟨number, e', rfl⟩
    · exact .selection _
    · exact .round number _
    · exact .round number _
  | conducted c x₁ _ world₁ _ _ hp hc =>
    obtain ⟨e', rfl, -⟩ := error_of_conduct s hc
    exact .round _ e'

/-- An attempt that gives the error of a round has run it, unless it could not prepare it. -/
theorem round_of_executeRound {x : Experiment R} {world : σ} {number : RoundNumber} {e : RoundError R}
    (h : (x.executeRound s world).1 = .error (.failed (.round number e))) :
    (∃ e', e = .secureAggregation e') ∨ (∃ e', e = .aggregation e') ∨
      ∃ c y world₁, x.Prepares s world c y world₁ ∧ (c.run s.link world₁).1.result = .error (.failed e) := by
  have ha := attempt_executeRound s x world
  rcases hx : x.executeRound s world with ⟨r, y, world'⟩
  rw [hx] at ha h
  obtain rfl : r = .error (.failed (.round number e)) := h
  cases ha with
  | inconsistent _ hd =>
    obtain ⟨e', he⟩ := error_of_checkData hd
    contradiction
  | unprepared x₁ _ selected _ _ hr hp =>
    rcases error_of_prepareRound s (congrArg Prod.fst hp) with ⟨node, -, he, -⟩ | ⟨_, e', he⟩ | ⟨_, e', he⟩
    · contradiction
    · exact Or.inl ⟨e', (ExperimentError.round.inj he).2⟩
    · exact Or.inr (Or.inl ⟨e', (ExperimentError.round.inj he).2⟩)
  | conducted c x₁ _ world₁ _ _ hp hc =>
    obtain ⟨e', he, hresult⟩ := error_of_conduct s hc
    obtain ⟨-, rfl⟩ := ExperimentError.round.inj he
    exact Or.inr (Or.inr ⟨c, x₁, world₁, hp, hresult⟩)

theorem isConnected_of_interrupted {x : Experiment R} {world : σ}
    (h : (x.executeRound s world).1 = .error (.failed .interrupted)) : x.isConnected = false := by
  rcases hx : x.executeRound s world with ⟨r, y, world'⟩
  rw [hx] at h
  obtain rfl : r = .error (.failed .interrupted) := h
  cases failing_of_executeRound s hx with
  | interrupted hc => exact hc

/-! ## 5. What no attempt changes -/

theorem sameTraining_of_conduct {x y : Experiment R} {c : RoundContext R} {world world' : σ}
    {r : Except (Stop (ExperimentError R)) (CompletedRound R)}
    (h : x.conduct s c world = (r, y, world')) : SameTraining x y := by
  rw [conduct_eq] at h
  obtain ⟨-, rfl, -⟩ := by simpa only [Prod.mk.injEq] using h
  exact ⟨_, _, _, _, rfl⟩

/-- Whatever comes of an attempt, the training is as it was. -/
theorem sameTraining_of_executeRound {x y : Experiment R} {world world' : σ}
    {r : Except (Stop (ExperimentError R)) (CompletedRound R)}
    (h : x.executeRound s world = (r, y, world')) : SameTraining x y := by
  have lost : ∀ y : Experiment R, SameTraining y { y with isConnected := false } :=
    fun y => ⟨_, _, _, _, rfl⟩
  have ha := attempt_executeRound s x world
  rw [h] at ha
  cases ha with
  | inconsistent e hd => exact (Kept.refl x).sameTraining
  | unselected _ e hd hs => exact (kept_of_checkData hd).sameTraining
  | interrupted _ hd hc => exact (kept_of_checkData hd).sameTraining
  | unprepared x₁ _ selected _ e hr hp =>
    have hkept := kept_of_prepareRound s x₁ selected world
    rw [hp] at hkept
    exact ((kept_of_checkData hr.checked).trans hkept).sameTraining
  | forsaken x₁ y' selected _ hr hp =>
    have hkept := kept_of_prepareRound s x₁ selected world
    rw [hp] at hkept
    exact ((kept_of_checkData hr.checked).trans hkept).sameTraining.trans (lost y')
  | conducted c x₁ _ world₁ _ _ hp hc =>
    exact (kept_of_prepares s hp).sameTraining.trans (sameTraining_of_conduct s hc)
  | abandoned c x₁ y' world₁ _ hp hc =>
    exact ((kept_of_prepares s hp).sameTraining.trans (sameTraining_of_conduct s hc)).trans (lost y')

/-! ## 6. Rounds that are committed -/

/-- All that can come of a round. It is committed before its checkpoint is saved. -/
inductive RoundRun (x : Experiment R) (world : σ) : Result R σ Unit → Prop where
  | failed (stop : Stop (ExperimentError R)) (y : Experiment R) (world' : σ)
    (h : x.executeRound s world = (.error stop, y, world')) :
    RoundRun x world (.error stop, y, world')
  | committed (completed : CompletedRound R) (y : Experiment R) (world' : σ)
    (h : x.executeRound s world = (.ok completed, y, world')) (hc : y.savesCheckpoints = false) :
    RoundRun x world (.ok (), y.commit completed (s.now world'), world')
  | saved (completed : CompletedRound R) (y : Experiment R) (world₁ world' : σ) (id : CheckpointId)
    (h : x.executeRound s world = (.ok completed, y, world₁)) (hc : y.savesCheckpoints = true)
    (hs : s.save ((y.commit completed (s.now world₁)).checkpoint (s.now world₁)) world₁ =
      (.ok id, world')) :
    RoundRun x world (.ok (), y.commit completed (s.now world₁), world')
  | unsaved (completed : CompletedRound R) (y : Experiment R) (world₁ world' : σ) (e : CheckpointError)
    (h : x.executeRound s world = (.ok completed, y, world₁)) (hc : y.savesCheckpoints = true)
    (hs : s.save ((y.commit completed (s.now world₁)).checkpoint (s.now world₁)) world₁ =
      (.error e, world')) :
    RoundRun x world (.error (.failed (.checkpoint e)), y.commit completed (s.now world₁), world')

theorem roundRun_runRound (x : Experiment R) (world : σ) :
    RoundRun s x world (x.runRound s world) := by
  rcases hx : x.executeRound s world with ⟨r, y, world₁⟩
  cases r with
  | error stop => simpa [runRound, hx] using .failed stop y world₁ hx
  | ok completed =>
    have hcommit : (y.commit completed (s.now world₁)).savesCheckpoints = y.savesCheckpoints := rfl
    cases hc : y.savesCheckpoints with
    | false => simpa [runRound, hx, hcommit, hc] using .committed completed y world₁ hx hc
    | true =>
      rcases hs : s.save ((y.commit completed (s.now world₁)).checkpoint (s.now world₁)) world₁ with
        ⟨saved, world'⟩
      cases saved with
      | error e =>
        simpa [runRound, hx, hcommit, hc, saveCheckpoint, hs, Except.mapError] using
          .unsaved completed y world₁ world' e hx hc hs
      | ok id =>
        simpa [runRound, hx, hcommit, hc, saveCheckpoint, hs, Except.mapError] using
          .saved completed y world₁ world' id hx hc hs

end Experiment

end Federation
