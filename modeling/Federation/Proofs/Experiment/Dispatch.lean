import Federation.Proofs.Experiment.History
/-!
# Requests in the course of an attempt

An attempt leads the surroundings through many single steps, of which only the sending puts requests on
the way. A relation that composes and to which every single step keeps therefore relates the
surroundings before and after an attempt by the requests that the attempt sends: those that invite the
selected nodes to a session, and those of the round.
-/

namespace Federation

variable {R σ : Type}

/-- A relation between surroundings before and after some requests were sent. It composes, and all steps
of the surroundings keep to it. -/
structure Dispatch (s : Surroundings R σ) (T : List (Request R) → σ → σ → Prop) : Prop where
  refl : ∀ world, T [] world world
  mono : ∀ {sent sent' : List (Request R)} {a b : σ}, T sent a b → sent ⊆ sent' → T sent' a b
  trans : ∀ {sent sent' : List (Request R)} {a b c : σ}, T sent a b → T sent' b c →
    T (sent ++ sent') a c
  send : ∀ q world, T [q] world (s.link.send q world).2
  advance : ∀ t n world, T [] world (s.link.advance t n world)
  purge : ∀ world, T [] world (s.link.purge world).2
  arm : ∀ world, T [] world (s.link.arm world)
  drawName : ∀ world, T [] world (s.drawName world).2
  drawWord : ∀ world, T [] world (s.drawWord world).2
  drawFraction : ∀ world, T [] world (s.drawFraction world).2
  save : ∀ c world, T [] world (s.save c world).2

namespace Experiment

/-- The requests that invite the selected nodes to the session that a secure experiment sets up. -/
structure Invites (s : Surroundings R σ) (x : Experiment R) (selected : NameSet) (world : σ)
    (q : Request R) : Prop where
  secure : x.secagg.enabled = true
  invitation : q ∈ SecureAggregation.setupRequests x.researcherId x.experimentId
    (s.drawName world).1 selected

/-- The requests of an attempt: those that invite the selected nodes, and those of the round. -/
inductive Asks [Scalar R] (s : Surroundings R σ) (x : Experiment R) (world : σ) (q : Request R) :
    Prop where
  | join (x₁ : Experiment R) (selected : NameSet) (hr : x.Ready x₁ selected)
    (hq : Invites s x₁ selected world q)
  | train (c : RoundContext R) (y : Experiment R) (world' : σ) (h : x.Prepares s world c y world')
    (hq : q ∈ c.requests)

end Experiment

namespace Dispatch

variable {s : Surroundings R σ} {T : List (Request R) → σ → σ → Prop} (d : Dispatch s T)
include d

theorem trans_quiet {sent : List (Request R)} {a b c : σ} (h : T sent a b) (h' : T [] b c) :
    T sent a c := by
  have happ := d.trans h h'
  rwa [List.append_nil] at happ

/-! ## 1. Requests -/

theorem sendAll (l : List (Request R)) (world : σ) : T l world (s.link.sendAll l world).2 := by
  induction l generalizing world with
  | nil => exact d.refl world
  | cons q l ih => exact d.trans (d.send q world) (ih (s.link.send q world).2)

theorem broadcast (l : List (Request R)) (world : σ) : T l world (s.link.broadcast l world).2 :=
  d.sendAll l world

/-! ## 2. The preparation of a round -/

/-- A setup sends at most the requests that invite the parties. -/
theorem setup (a : SecureAggregation R) (researcher : ResearcherId) (experiment : ExperimentId)
    (name : String) (parties : NameSet) (world : σ) :
    T (SecureAggregation.setupRequests researcher experiment name parties) world
      (a.setup s.link researcher experiment name parties world).2.2 := by
  have hsend := d.broadcast (SecureAggregation.setupRequests researcher experiment name parties) world
  have h := Experiment.setUp_setup s.link a researcher experiment name parties world
  generalize a.setup s.link researcher experiment name parties world = result at h ⊢
  cases h with
  | reused session hr => exact d.mono (d.refl world) (List.nil_subset _)
  | undelivered node reason world' hr hs => rwa [hs] at hsend
  | unjoined stop n world₁ hr hs hj =>
    rw [hs] at hsend
    exact d.trans_quiet hsend (d.advance a.clear.timeout n world₁)
  | joined j n world₁ hr hs hj =>
    rw [hs] at hsend
    exact d.trans_quiet hsend (d.advance a.clear.timeout n world₁)

theorem setupOf {x : Experiment R} {selected : NameSet} {world world' : σ}
    {joined : Except (Stop (SecaggError R)) SecaggSession} {secagg : SecureAggregation R}
    (h : Experiment.setupOf s x selected world = (joined, secagg, world')) :
    T (SecureAggregation.setupRequests x.researcherId x.experimentId (s.drawName world).1 selected)
      world world' := by
  have hsetup := d.trans (d.drawName world) (d.setup x.secagg x.researcherId x.experimentId
    (s.drawName world).1 selected (s.drawName world).2)
  rwa [← Experiment.setupOf, h, List.nil_append] at hsetup

theorem prepareSecagg (x : Experiment R) (selected : NameSet) (world : σ) :
    ∃ sent, T sent world (x.prepareSecagg s selected world).2.2 ∧
      ∀ q ∈ sent, x.Invites s selected world q := by
  cases he : x.secagg.enabled with
  | false =>
    rw [Experiment.prepareSecagg_of_disabled s he]
    exact ⟨[], d.refl world, List.forall_mem_nil _⟩
  | true =>
    refine ⟨SecureAggregation.setupRequests x.researcherId x.experimentId (s.drawName world).1 selected,
      ?_, fun q hq => ⟨he, hq⟩⟩
    have h := Experiment.secured_prepareSecagg s x selected world
    generalize x.prepareSecagg s selected world = secured at h ⊢
    cases h with
    | plain hoff =>
      rw [he] at hoff
      contradiction
    | failed e secagg world' hs => exact d.setupOf hs
    | abandoned secagg world' hs => exact d.setupOf hs
    | secure session secagg world' hs =>
      have hdraw := d.trans (d.drawWord world') (d.drawFraction (s.drawWord world').2)
      exact d.trans_quiet (d.setupOf hs) hdraw

theorem prepareRound [Scalar R] (x : Experiment R) (selected : NameSet) (world : σ) :
    ∃ sent, T sent world (x.prepareRound s selected world).2.2 ∧
      ∀ q ∈ sent, x.Invites s selected world q := by
  obtain ⟨sent, hsec, hsent⟩ := d.prepareSecagg x selected world
  refine ⟨sent, ?_, hsent⟩
  have h := Experiment.prepared_prepareRound s x selected world
  generalize x.prepareRound s selected world = prepared at h ⊢
  cases h with
  | unsecured stop y world' hs => rwa [hs] at hsec
  | unsuited secagg y world' e hs hp => rwa [hs] at hsec
  | ready secagg y world₁ participants hs hp =>
    rw [hs] at hsec
    exact d.trans_quiet hsec (d.drawWord world₁)

/-- Until it runs the round an attempt sends at most invitations. -/
theorem prepares [Scalar R] {x y : Experiment R} {c : RoundContext R} {world world' : σ}
    (h : x.Prepares s world c y world') :
    ∃ sent, T sent world world' ∧ ∀ q ∈ sent, ∃ x₁ selected, x.Ready x₁ selected ∧
      x₁.Invites s selected world q := by
  obtain ⟨x₁, selected, hr, hp⟩ := h
  obtain ⟨sent, hprepared, hsent⟩ := d.prepareRound x₁ selected world
  rw [hp] at hprepared
  exact ⟨sent, hprepared, fun q hq => ⟨x₁, selected, hr, hsent q hq⟩⟩

/-! ## 3. The round -/

theorem arm_purge (world : σ) {isOpen : Bool} {world' : σ}
    (h : s.link.purge (s.link.arm world) = (isOpen, world')) : T [] world world' := by
  have hpurge := d.trans (d.arm world) (d.purge (s.link.arm world))
  rwa [h] at hpurge

/-- A round that has sent its requests has sent nothing else. -/
theorem requested {c : RoundContext R} {world world₁ world₂ : σ} {failure : Option (NodeId × String)}
    (hp : s.link.purge (s.link.arm world) = (true, world₁))
    (hs : s.link.broadcast c.requests world₁ = (failure, world₂)) : T c.requests world world₂ := by
  have hsend := d.broadcast c.requests world₁
  rw [hs] at hsend
  exact d.trans (d.arm_purge world hp) hsend

variable [RootScalar R]

theorem collect (c : RoundContext R) (world : σ) : T [] world (c.collect s.link world).2 := by
  have h := RoundContext.collected_collect s.link c world
  generalize Collecting.run c _ _ _ = taken at h
  generalize c.collect s.link world = outcome at h ⊢
  cases h with
  | abandoned n => exact d.advance c.timeout n world
  | failed e n => exact d.advance c.timeout n world
  | uncombined state e n hs => exact d.advance c.timeout n world
  | completed state completed n hs => exact d.advance c.timeout n world

/-- A round sends its own requests and nothing else. -/
theorem run (c : RoundContext R) (world : σ) : T c.requests world (c.run s.link world).2 := by
  have h := RoundContext.course_run s.link c world
  generalize c.run s.link world = outcome at h ⊢
  generalize c.hears? s.link world = hears at h
  cases h with
  | closed world' hp => exact d.mono (d.arm_purge world hp) (List.nil_subset _)
  | undelivered world₁ world' node reason hp hs => exact d.requested hp hs
  | listening world₁ world₂ hp hs => exact d.trans_quiet (d.requested hp hs) (d.collect c world₂)

theorem conduct {x y : Experiment R} {c : RoundContext R} {world world' : σ}
    {r : Except (Stop (ExperimentError R)) (CompletedRound R)}
    (h : x.conduct s c world = (r, y, world')) : T c.requests world world' := by
  have hworld := congrArg (fun result => result.2.2) (Experiment.conduct_eq s x c world)
  rw [h] at hworld
  rw [show world' = (c.run s.link world).2 from hworld]
  exact d.run c world

/-- An attempt invites the nodes that it selects and sends the requests of the round that it prepared. -/
theorem executeRound (x : Experiment R) (world : σ) :
    ∃ sent, T sent world (x.executeRound s world).2.2 ∧ ∀ q ∈ sent, x.Asks s world q := by
  have hnone : ∀ q ∈ ([] : List (Request R)), x.Asks s world q := List.forall_mem_nil _
  have hprepare : ∀ {x₁ selected}, x.Ready x₁ selected →
      ∃ sent, T sent world (x₁.prepareRound s selected world).2.2 ∧ ∀ q ∈ sent, x.Asks s world q := by
    intro x₁ selected hr
    obtain ⟨sent, hprepared, hsent⟩ := d.prepareRound x₁ selected world
    exact ⟨sent, hprepared, fun q hq => .join x₁ selected hr (hsent q hq)⟩
  have hround : ∀ {c x₁ world₁ r y world'}, x.Prepares s world c x₁ world₁ →
      x₁.conduct s c world₁ = (r, y, world') → ∃ sent, T sent world world' ∧
        ∀ q ∈ sent, x.Asks s world q := by
    intro c x₁ world₁ r y world' hp hc
    obtain ⟨sent, hprepared, hsent⟩ := d.prepares hp
    refine ⟨_, d.trans hprepared (d.conduct hc), fun q hq => ?_⟩
    rcases List.mem_append.1 hq with hq | hq
    · obtain ⟨x₂, selected, hr, hjoin⟩ := hsent q hq
      exact .join x₂ selected hr hjoin
    · exact .train c x₁ world₁ hp hq
  have ha := Experiment.attempt_executeRound s x world
  rcases hx : x.executeRound s world with ⟨r, y, world'⟩
  rw [hx] at ha
  cases ha with
  | inconsistent => exact ⟨[], d.refl world, hnone⟩
  | unselected => exact ⟨[], d.refl world, hnone⟩
  | interrupted => exact ⟨[], d.refl world, hnone⟩
  | unprepared x₁ _ selected _ e hr hp =>
    have hprepared := hprepare hr
    rwa [hp] at hprepared
  | forsaken x₁ _ selected _ hr hp =>
    have hprepared := hprepare hr
    rwa [hp] at hprepared
  | conducted c x₁ _ world₁ _ _ hp hc => exact hround hp hc
  | abandoned c x₁ _ world₁ _ hp hc => exact hround hp hc

/-! ## 4. Consecutive rounds -/

/-- After its attempt a round at most saves a checkpoint. -/
theorem runRound (x : Experiment R) (world : σ) :
    T [] (x.executeRound s world).2.2 (x.runRound s world).2.2 := by
  rcases Experiment.runRound_world s x world with h | ⟨c, h⟩
  · rw [h]
    exact d.refl _
  · rw [h]
    exact d.save c _

/-- Consecutive rounds send the requests of their attempts. -/
theorem runRounds (n : Nat) (x : Experiment R) (world : σ) :
    ∃ sent, T sent world (Experiment.runRounds s n x world).2.2 ∧
      ∀ q ∈ sent, ∃ a ∈ x.attempts s n world, a.1.Asks s a.2 q := by
  induction n generalizing x world with
  | zero => exact ⟨[], d.refl world, List.forall_mem_nil _⟩
  | succ n ih =>
    obtain ⟨sent, hattempt, hsent⟩ := d.executeRound x world
    have hround := d.trans_quiet hattempt (d.runRound x world)
    rcases hr : x.runRound s world with ⟨stop | _, y, world₁⟩
    · rw [hr] at hround
      simp only [Experiment.runRounds, Experiment.attempts, hr]
      exact ⟨sent, hround, fun q hq => ⟨(x, world), List.mem_cons_self, hsent q hq⟩⟩
    · rw [hr] at hround
      obtain ⟨later, hlater, hasked⟩ := ih y world₁
      simp only [Experiment.runRounds, Experiment.attempts, hr]
      refine ⟨sent ++ later, d.trans hround hlater, fun q hq => ?_⟩
      rcases List.mem_append.1 hq with hq | hq
      · exact ⟨(x, world), List.mem_cons_self, hsent q hq⟩
      · obtain ⟨a, ha, hask⟩ := hasked q hq
        exact ⟨a, List.mem_cons_of_mem _ ha, hask⟩

/-- An operation sends the requests of its attempts. -/
theorem perform (op : Operation R) (x : Experiment R) (world : σ) :
    ∃ sent, T sent world (op.perform s x world).2 ∧
      ∀ q ∈ sent, ∃ a ∈ op.attempts s x world, a.1.Asks s a.2 q := by
  cases op with
  | run rounds increase => exact d.runRounds _ _ world
  | save => exact ⟨[], d.save _ world, List.forall_mem_nil _⟩
  | change f => exact ⟨[], d.refl world, List.forall_mem_nil _⟩

end Dispatch

end Federation
