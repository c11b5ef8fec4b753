import Federation.Proofs.Experiment.Provenance
import Federation.Proofs.Round.Taken
/-!
# Freshness of the replies of a round

In the course of a history attempts follow one another, and replies to an earlier attempt may arrive
during a later one. As long as all attempts have different numbers, no completed round contains such a
reply: at the beginning of an attempt all that is in flight goes back to other attempts, and this is
what every attempt preserves for those after it.
-/

namespace Federation

variable {R σ : Type} [RootScalar R] {s : Surroundings R σ}

/-! ## 1. Numbers of attempts and completed rounds -/

/-- The attempt draws the number `i` for the round that it runs. -/
def Numbered (s : Surroundings R σ) (a : Experiment R × σ) (i : UInt64) : Prop :=
  ∃ c y world, a.1.Prepares s a.2 c y world ∧ c.requestId = i

/-- An attempt completes the round of a context from the replies that it received. -/
structure Completes (s : Surroundings R σ) (a : Experiment R × σ) (c : RoundContext R)
    (received : NameMap (WorkReply R × R)) (completed : CompletedRound R) : Prop where
  result : (a.1.executeRound s a.2).1 = .ok completed
  heard : ∃ y world replies, a.1.Prepares s a.2 c y world ∧ c.hears? s.link world = some replies ∧
    Collecting.Complete c replies ∧ received = (Collecting.after c replies).received
  combined : (⟨.empty, received⟩ : Collecting R).complete c = .ok completed

theorem completes_of_ok {a : Experiment R × σ} {completed : CompletedRound R}
    (h : (a.1.executeRound s a.2).1 = .ok completed) :
    ∃ c received, Completes s a c received completed := by
  rcases hx : a.1.executeRound s a.2 with ⟨r, y, world'⟩
  have hr : r = .ok completed := by rw [← h, hx]
  rw [hr] at hx
  obtain ⟨c, x₁, world₁, hp, hc⟩ := (Experiment.executeRound_eq_ok s).1 hx
  obtain ⟨hrun, -, -⟩ := (Experiment.conduct_eq_ok s).1 hc
  obtain ⟨replies, hh, -, hcomplete, hcombined⟩ :=
    (RoundContext.run_result_eq_ok s.link c world₁ completed).1 hrun
  exact ⟨c, _, h, ⟨x₁, world₁, replies, hp, hh, hcomplete, rfl⟩, hcombined⟩

section

variable {a : Experiment R × σ} {c : RoundContext R} {received : NameMap (WorkReply R × R)}
  {completed : CompletedRound R} (h : Completes s a c received completed)
include h

/-- Every participant contributes one reply, and nobody else does. -/
theorem Completes.keys_received : received.keys = c.participants.keys := by
  obtain ⟨y, world, replies, -, -, hcomplete, rfl⟩ := h.heard
  have hkeys : (Collecting.after c replies).received.keys =
      c.participants.keys.filter fun node => (Collecting.firstMatch? c node replies).isSome := by
    apply SortedMap.keys_filterMap
    intro node p
    exact Option.isSome_map
  rw [hkeys, List.filter_eq_self]
  exact hcomplete

theorem Completes.participants :
    completed.participants = received.map fun _ e => Collecting.summary e.1 e.2 := by
  obtain ⟨aggregated, global, optimizer, -, -, rfl⟩ := Collecting.complete_eq_ok.1 h.combined
  rfl

theorem Completes.numbered : Numbered s a c.requestId := by
  obtain ⟨y, world, replies, hp, -⟩ := h.heard
  exact ⟨c, y, world, hp, rfl⟩

theorem Completes.requestId {node : NodeId} {r : WorkReply R} {t : R}
    (hr : received.find? node = some (r, t)) : r.requestId = c.requestId := by
  obtain ⟨y, world, replies, -, -, -, rfl⟩ := h.heard
  rw [Collecting.find?_received, Option.map_eq_some_iff] at hr
  obtain ⟨⟨r', t'⟩, hfirst, heq⟩ := hr
  obtain ⟨rfl, rfl⟩ := Prod.mk.inj heq
  obtain ⟨-, hm, -⟩ := Collecting.firstMatch?_eq_some hfirst
  simp only [RoundContext.isMatching, Bool.and_eq_true, beq_iff_eq] at hm
  exact hm.1.2

end

/-! ## 2. Attempts one after the other -/

variable (net : HonestNetwork s)

/-- Attempts follow one another in surroundings that send nothing in between. -/
inductive Chain : σ → List (Experiment R × σ) → σ → Prop where
  | nil {a b : σ} (h : net.Flows [] a b) : Chain a [] b
  | cons {a b c : σ} {x : Experiment R} {l : List (Experiment R × σ)} (h : net.Flows [] a b)
    (hl : Chain (x.executeRound s b).2.2 l c) : Chain a ((x, b) :: l) c

variable {net}

theorem Chain.of_flows {a b c : σ} {l : List (Experiment R × σ)} (h : net.Flows [] a b)
    (hl : Chain net b l c) : Chain net a l c := by
  cases hl with
  | nil h' => exact .nil (h.trans h')
  | cons h' hl => exact .cons (h.trans h') hl

theorem Chain.append {a b c : σ} {l l' : List (Experiment R × σ)} (h : Chain net a l b)
    (h' : Chain net b l' c) : Chain net a (l ++ l') c := by
  induction h with
  | nil hf => exact h'.of_flows hf
  | cons hf hl ih => exact .cons hf (ih h')

variable (net)

theorem chain_attempts (n : Nat) (x : Experiment R) (world : σ) :
    Chain net world (x.attempts s n world) (x.runRounds s n world).2.2 := by
  induction n generalizing x world with
  | zero => exact .nil (Traffic.Flows.refl world)
  | succ n ih =>
    have hflow := net.transit.runRound x world
    rw [Experiment.attempts]
    refine .cons (Traffic.Flows.refl world) ?_
    rcases hrun : x.runRound s world with ⟨r, y, world'⟩
    rw [hrun] at hflow
    cases r with
    | error e =>
      -- the run stops here, so this attempt is the last one
      simp only [Experiment.runRounds, hrun]
      exact .nil hflow
    | ok u =>
      simp only [Experiment.runRounds, hrun]
      exact (ih y world').of_flows hflow

theorem chain_perform (op : Operation R) (x : Experiment R) (world : σ) :
    Chain net world (op.attempts s x world) (op.perform s x world).2 := by
  cases op with
  | run rounds increase =>
    exact chain_attempts net _ (Operation.takeUp x rounds increase) world
  | save =>
    refine .nil ?_
    exact net.save (x.checkpoint (s.now world)) world
  | change f => exact .nil (Traffic.Flows.refl world)

theorem chain_allAttempts (ops : List (Operation R)) (x : Experiment R) (world : σ) :
    ∃ world', Chain net world (Operation.allAttempts s ops x world) world' := by
  induction ops generalizing x world with
  | nil => exact ⟨world, .nil (Traffic.Flows.refl world)⟩
  | cons op ops ih =>
    obtain ⟨world', hl⟩ := ih (op.perform s x world).1 (op.perform s x world).2
    exact ⟨world', (chain_perform net op x world).append hl⟩

/-! ## 3. What is in flight at the beginning of an attempt -/

/-- If all attempts have different numbers, all that is in flight at the beginning of an attempt goes
back to other ones. -/
theorem Chain.origin {a b : σ} {l : List (Experiment R × σ)} (h : Chain net a l b)
    (hnumbers : l.Pairwise fun p q => ∀ i, Numbered s p i → ¬Numbered s q i)
    (hfresh : net.Origin (fun q => ∀ p ∈ l, ¬Numbered s p q.requestId) a) :
    ∀ p ∈ l, net.Origin (fun q => ¬Numbered s p q.requestId) p.2 := by
  induction h with
  | nil hf =>
    intro p hp
    contradiction
  | @cons a b c x l hf hl ih =>
    have hb := hfresh.of_flows hf fun q hq => by contradiction
    obtain ⟨sent, hflow, hsent⟩ := net.transit.executeRound x b
    rw [List.pairwise_cons] at hnumbers
    -- what this attempt sends carries its own number, which no later attempt has
    have hlater : net.Origin (fun q => ∀ p ∈ l, ¬Numbered s p q.requestId)
        (x.executeRound s b).2.2 := by
      refine (hb.mono fun q hq p hp => hq p (List.mem_cons_of_mem _ hp)).of_flows hflow ?_
      intro q hq p hp
      obtain ⟨c, y, world, hprep, hmem⟩ := hsent q hq
      exact hnumbers.1 p hp _ ⟨c, y, world, hprep, (request_of_prepares hprep hmem).1.symm⟩
    intro p hp
    rcases List.mem_cons.1 hp with rfl | hp
    · exact hb.mono fun q hq => hq _ List.mem_cons_self
    · exact ih hnumbers.2 hlater p hp

/-- A reply that contributes to a completed round answers the request of this attempt. -/
theorem Completes.request {a : Experiment R × σ} {c : RoundContext R}
    {received : NameMap (WorkReply R × R)} {completed : CompletedRound R}
    (h : Completes s a c received completed)
    (ho : net.Origin (fun q => ¬Numbered s a q.requestId) a.2) {node : NodeId}
    {r : WorkReply R} {t : R} (hr : received.find? node = some (r, t)) :
    ∃ q, .train q ∈ c.requests ∧ q.nodeId = node ∧ Answers q r ∧ q.params = a.1.global ∧
      q.stateId = a.1.nodeStates.expectedStateId node := by
  obtain ⟨y, world, replies, hp, hh, hcomplete, rfl⟩ := h.heard
  rw [Collecting.find?_received, Option.map_eq_some_iff] at hr
  obtain ⟨⟨r', t'⟩, hfirst, heq⟩ := hr
  obtain ⟨rfl, rfl⟩ := Prod.mk.inj heq
  -- the preparation sends no training request, so nothing in flight has the number of this attempt yet
  have horigin : net.Origin (fun q => q.requestId ≠ c.requestId) world := by
    have hother : net.Origin (fun q => q.requestId ≠ c.requestId) a.2 :=
      ho.mono fun q hq hid => hq ⟨c, y, world, hp, hid.symm⟩
    exact hother.of_flows (net.transit.prepares hp) fun q hq => by contradiction
  obtain ⟨q, hq, rfl, ha⟩ := net.request_of_matching horigin hh hfirst
  exact ⟨q, hq, rfl, ha, (request_of_prepares hp hq).2⟩

/-- In the course of a history among honest nodes, in which all attempts have different numbers, every
completed round consists of one answer of each participant to the request of this very attempt, and no
reply contributes to two completed rounds. -/
theorem completed_rounds_answer_their_requests (x : Experiment R) (world : σ)
    (ops : List (Operation R))
    (hnumbers : (Operation.allAttempts s ops x world).Pairwise
      fun a b => ∀ i, Numbered s a i → ¬Numbered s b i)
    (hfresh : net.Origin (fun q => ∀ a ∈ Operation.allAttempts s ops x world,
      ¬Numbered s a q.requestId) world) :
    (∀ a ∈ Operation.allAttempts s ops x world, ∀ completed,
      (a.1.executeRound s a.2).1 = .ok completed → ∃ c received,
        Completes s a c received completed ∧ received.keys = c.participants.keys ∧
          completed.participants = received.map (fun _ e => Collecting.summary e.1 e.2) ∧
          ∀ node r t, received.find? node = some (r, t) →
            ∃ q, .train q ∈ c.requests ∧ q.nodeId = node ∧ Answers q r ∧ q.params = a.1.global ∧
              q.stateId = a.1.nodeStates.expectedStateId node) ∧
      (Operation.allAttempts s ops x world).Pairwise fun a b =>
        ∀ c received completed c' received' completed', Completes s a c received completed →
          Completes s b c' received' completed' → ∀ node r t node' r' t',
            received.find? node = some (r, t) → received'.find? node' = some (r', t') → r ≠ r' := by
  obtain ⟨world', hchain⟩ := chain_allAttempts net ops x world
  have horigin := hchain.origin net hnumbers hfresh
  constructor
  · intro a ha completed hok
    obtain ⟨c, received, h⟩ := completes_of_ok hok
    exact ⟨c, received, h, h.keys_received, h.participants,
      fun node r t hr => h.request net (horigin a ha) hr⟩
  · -- a reply names the attempt that it counts for, so it counts for at most one
    refine hnumbers.imp fun {a b} hab => ?_
    intro c received completed c' received' completed' h h' node r t node' r' t' hr hr' heq
    have hid : c.requestId = c'.requestId := by
      rw [← h.requestId hr, ← h'.requestId hr', heq]
    exact hab c.requestId h.numbered (hid ▸ h'.numbered)

/-- A network that loses no request: a node may answer any request that was ever sent to it. -/
structure Wire where
  sent : List (WorkRequest ℚ) := []
  -- The number of words drawn so far.
  draws : UInt64 := 0

namespace Wire

/-- The answer of a node. The parameters tell the attempt. -/
def answer (q : WorkRequest ℚ) : WorkReply ℚ :=
  .ofSuccess q (.plain (.ofLayers [("layer", [q.requestId.toNat])])) 1 .empty .zero

/-- The requests that are answered in a wait: after the first attempt those to one node, later all of
them, those of the first attempt before the others. -/
def answered (w : Wire) : List (WorkRequest ℚ) :=
  if w.sent.length ≤ 2 then w.sent.filter fun q => q.nodeId = "left" else w.sent

/-- Surroundings with such a network, in which the attempts are counted. -/
def surroundings : Surroundings ℚ Wire where
  link :=
    { send := fun q w => (none, { w with sent := w.sent ++ q.work?.toList })
      watch := fun _ w => ⟨w.answered.map fun q => .reply (.train (answer q)) .zero, .deadline⟩
      advance := fun _ _ w => w
      purge := fun w => (true, w)
      arm := fun w => w }
  drawName w := ("session", w)
  drawWord w := (w.draws + 1, { w with draws := w.draws + 1 })
  drawFraction w := (0, w)
  now _ := ⟨0, 0⟩
  save _ w := (.error .unreadable, w)
  prepare w := (.ok (), w)

def honest : HonestNetwork surroundings where
  requests := Wire.sent
  replies _ := []
  send q w := by
    refine ⟨fun q' hq' => ?_, fun r hr => Or.inl hr⟩
    exact (List.mem_append.1 hq').symm
  advance _ _ w := Traffic.Flows.refl w
  purge w := Traffic.Flows.refl w
  arm w := Traffic.Flows.refl w
  drawName w := Traffic.Flows.refl w
  drawWord w := ⟨fun q hq => Or.inr hq, fun r hr => Or.inl hr⟩
  drawFraction w := Traffic.Flows.refl w
  save _ w := Traffic.Flows.refl w
  watch := by
    intro t w r elapsed hr
    obtain ⟨q, hq, heq⟩ := List.mem_map.1 hr
    obtain ⟨rfl, -⟩ : answer q = r ∧ _ := by simpa using heq
    have hsent : q ∈ w.sent := by
      rw [answered] at hq
      split at hq
      · exact (List.mem_filter.1 hq).1
      · exact hq
    exact Or.inr ⟨q, hsent, .success _ _ _ _ _⟩

/-- The experiment and the network after the first attempt, which waits in vain for one node. -/
def retry : Experiment ℚ × Wire := (Operation.run 1 false).perform surroundings pairExperiment {}

theorem allAttempts_retry :
    Operation.allAttempts surroundings [.run 1 false, .run 1 false] pairExperiment {} =
      [(pairExperiment, {}), retry] := by
  rfl

/-- The first attempt has the number one and the second one the number two. -/
theorem numbered_iff {i : UInt64} :
    (Numbered surroundings (pairExperiment, {}) i → i = 1) ∧ (Numbered surroundings retry i → i = 2) := by
  constructor
  · rintro ⟨c, y, world, hp, rfl⟩
    exact (Experiment.plain_of_prepares rfl hp).2
  · rintro ⟨c, y, world, hp, rfl⟩
    have hid := (Experiment.plain_of_prepares (by decide) hp).2
    rw [hid]
    decide

end Wire

/-- The late answers to the first attempt, which are heard before the others, do not count. -/
theorem completed_rounds_answer_their_requests_retry :
    ∃ c received completed, Completes Wire.surroundings Wire.retry c received completed ∧
      received.keys = c.participants.keys ∧
      ∀ node r t, received.find? node = some (r, t) → r.requestId = 2 := by
  have hall := Wire.allAttempts_retry
  have hnumbers : ([(pairExperiment, {}), Wire.retry] : List (Experiment ℚ × Wire)).Pairwise
      fun a b => ∀ i, Numbered Wire.surroundings a i → ¬Numbered Wire.surroundings b i := by
    rw [List.pairwise_pair]
    intro i h h'
    have hone := Wire.numbered_iff.1 h
    have htwo := Wire.numbered_iff.2 h'
    rw [hone] at htwo
    contradiction
  have hfresh : Wire.honest.Origin (fun q => ∀ a ∈ [(pairExperiment, {}), Wire.retry],
      ¬Numbered Wire.surroundings a q.requestId) {} :=
    ⟨fun q hq => by contradiction, fun r hr => by contradiction⟩
  obtain ⟨hrounds, -⟩ := completed_rounds_answer_their_requests Wire.honest pairExperiment {}
    [.run 1 false, .run 1 false] (hall ▸ hnumbers) (hall ▸ hfresh)
  rw [hall] at hrounds
  -- only that the second attempt succeeds is computed, the theorem tells the rest
  have hok : (Wire.retry.1.executeRound Wire.surroundings Wire.retry.2).1.isOk = true := by
    decide +kernel
  cases hrun : (Wire.retry.1.executeRound Wire.surroundings Wire.retry.2).1 with
  | error stop =>
    rw [hrun] at hok
    contradiction
  | ok completed =>
    obtain ⟨c, received, hc, hkeys, -, hanswers⟩ := hrounds Wire.retry (by simp) completed hrun
    refine ⟨c, received, completed, hc, hkeys, fun node r t hr => ?_⟩
    obtain ⟨q, hq, -, ha, -⟩ := hanswers node r t hr
    obtain ⟨y, world, -, hp, -⟩ := hc.heard
    have hnumber := (request_of_prepares hp hq).1
    rw [ha.requestId, hnumber]
    exact Wire.numbered_iff.2 hc.numbered

end Federation
