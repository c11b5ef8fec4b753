import Federation.Proofs.Experiment.Commit
import Federation.Proofs.Experiment.Reachable
import Federation.Proofs.Experiment.Resume
import Federation.Proofs.Experiment.Transit
import Federation.Proofs.StateLedger
/-!
# States that nodes are asked for

The controller expects of each node the state of the last round that the node completed, while the
ledger of the node also has those of rounds that failed. Rounds, changes of the dataset and checkpoints
that are taken up move what is expected back and forth, but never to a state that is not in the ledger.
-/

namespace Federation

variable {R σ : Type}

/-- Every node has the state that is expected of it. -/
def Nodes.Hold (n : Nodes R) (states : NodeStates R) : Prop :=
  ∀ node, (n.ledger node).holds (states.expectedStateId node) = true

/-- A node of which nothing is known is expected to start afresh. -/
theorem Nodes.hold_empty (n : Nodes R) : n.Hold .empty :=
  fun node => (n.ledger node).holds_initial

/-- What is known of some nodes may be forgotten. -/
theorem Nodes.Hold.retain {n : Nodes R} {states : NodeStates R} (h : n.Hold states)
    (keep : NodeId → Bool) : n.Hold (states.retain keep) := by
  intro node
  rw [NodeStates.expectedStateId, NodeStates.stateFor, NodeStates.retain, SortedMap.find?_filter]
  cases hf : states.states.find? node with
  | none => exact (n.ledger node).holds_initial
  | some state =>
    have hstate := h node
    rw [NodeStates.expectedStateId, NodeStates.stateFor, hf] at hstate
    rw [Option.filter_some]
    split
    · exact hstate
    · exact (n.ledger node).holds_initial

variable [RootScalar R] {s : Surroundings R σ}

theorem Nodes.Hold.evolves {n n' : Nodes R} {states : NodeStates R} (h : n.Hold states)
    {sent : List (WorkRequest R)} (he : Nodes.Evolves sent n n') : n'.Hold states :=
  fun node => he.holds (h node)

namespace LedgerNetwork

variable (net : LedgerNetwork s)

/-- What happens to nodes and network composes, and every step of the surroundings lets it happen. -/
theorem transit : Transit s fun sent world world' =>
    Nodes.Evolves sent (net.nodes world) (net.nodes world') where
  refl _ := .refl
  mono h hs := h.mono hs
  trans h h' := h.trans h'
  send := net.send
  advance := net.advance
  purge := net.purge
  arm := net.arm
  drawName := net.drawName
  drawWord := net.drawWord
  drawFraction := net.drawFraction
  save := net.save

/-! ## 1. One round -/

/-- While a round waits, whatever it takes agrees with the ledgers, so no refusal fails it and whoever it
has received a reply from has the state that the reply leads to. -/
theorem collect_of_consistent (c : RoundContext R) (world : σ)
    (h : (net.nodes world).Consistent) :
    (∀ completed, (c.collect s.link world).1.result = .ok completed →
      ∀ node state, completed.stateIds.find? node = some state →
        ((net.nodes (c.collect s.link world).2).ledger node).holds state = true) ∧
      ∀ node message,
        (c.collect s.link world).1.result ≠ .error (.failed (.stateMismatch node message)) := by
  have hquiet : ∀ q ∈ ([] : List (WorkRequest R)),
      ((net.nodes world).ledger q.nodeId).holds q.stateId = true := fun q hq => by contradiction
  have hcollect := RoundContext.collected_collect s.link c world
  rcases hrun : Collecting.run c (s.link.watch c.timeout world).ending
    (s.link.watch c.timeout world).observed (.start c) with ⟨result, n⟩
  rw [hrun] at hcollect
  generalize c.collect s.link world = outcome at hcollect ⊢
  cases hcollect with
  | abandoned => exact ⟨nofun, nofun⟩
  | failed e _ =>
    refine ⟨nofun, ?_⟩
    rintro node message he
    obtain rfl : e = .stateMismatch node message := Stop.failed.inj (Except.error.inj he)
    obtain ⟨r, elapsed, e, hmem, herror, hkind⟩ := Collecting.taken_of_stateMismatch hrun
    obtain ⟨m, hm, hr, -⟩ := net.watch _ _ _ _ _ hmem
    exact (h.evolves hm hquiet).unrefused r hr e herror hkind
  | uncombined state e _ hs =>
    refine ⟨nofun, ?_⟩
    rintro node message he
    obtain rfl : e = .stateMismatch node message := Stop.failed.inj (Except.error.inj he)
    rcases Collecting.complete_eq_error hs with ⟨e', he'⟩ | ⟨e', he'⟩
    · contradiction
    · contradiction
  | completed state completed _ hs =>
    refine ⟨?_, nofun⟩
    intro completed' hok node produced hproduced
    obtain rfl := Except.ok.inj hok
    obtain ⟨_, _, _, -, -, rfl⟩ := Collecting.complete_eq_ok.1 hs
    rw [SortedMap.find?_map, Option.map_eq_some_iff] at hproduced
    obtain ⟨⟨r, t⟩, hreceived, rfl⟩ := hproduced
    rcases Collecting.taken_of_received hrun hreceived with hstart | ⟨rfl, ha, elapsed, hmem⟩
    · simp [Collecting.start] at hstart
    · obtain ⟨m, hm, hr, hafter⟩ := net.watch _ _ _ _ _ hmem
      exact hafter.holds ((h.evolves hm hquiet).produced r hr ha.success)

/-- A round may be run if its requests name states that the nodes have. -/
theorem run_of_consistent (c : RoundContext R) (world : σ) (h : (net.nodes world).Consistent)
    (hs : ∀ q, .train q ∈ c.requests → ((net.nodes world).ledger q.nodeId).holds q.stateId = true) :
    (∀ completed, (c.run s.link world).1.result = .ok completed →
      ∀ node state, completed.stateIds.find? node = some state →
        ((net.nodes (c.run s.link world).2).ledger node).holds state = true) ∧
      ∀ node message,
        (c.run s.link world).1.result ≠ .error (.failed (.stateMismatch node message)) := by
  have hcourse := RoundContext.course_run s.link c world
  generalize c.run s.link world = outcome at hcourse ⊢
  generalize c.hears? s.link world = hears at hcourse
  cases hcourse with
  | closed => exact ⟨nofun, nofun⟩
  | undelivered => exact ⟨nofun, nofun⟩
  | listening world₁ world₂ hp hb =>
    exact net.collect_of_consistent c world₂
      (h.evolves (net.transit.dispatch hp hb) fun q hq => hs q (mem_filterMap_work? hq))

/-- An attempt asks the nodes for the states that are expected of them. -/
theorem requested_of_prepares {x y : Experiment R} {c : RoundContext R} {world world' : σ}
    (hx : (net.nodes world).Hold x.nodeStates) (hp : x.Prepares s world c y world')
    {q : WorkRequest R} (hq : .train q ∈ c.requests) :
    ((net.nodes world).ledger q.nodeId).holds q.stateId = true := by
  rw [(request_of_prepares hp hq).2.2]
  exact hx q.nodeId

theorem consistent_executeRound {x : Experiment R} {world : σ} (h : (net.nodes world).Consistent)
    (hx : (net.nodes world).Hold x.nodeStates) :
    (net.nodes (x.executeRound s world).2.2).Consistent ∧
      (net.nodes (x.executeRound s world).2.2).Hold x.nodeStates := by
  obtain ⟨sent, hevolves, hsent⟩ := net.transit.executeRound x world
  refine ⟨h.evolves hevolves ?_, hx.evolves hevolves⟩
  intro q hq
  obtain ⟨c, y, world', hp, hmem⟩ := hsent q hq
  exact net.requested_of_prepares hx hp hmem

/-- Whatever an attempt that completes has received is in the ledgers. -/
theorem held_of_completed {x y : Experiment R} {world world' : σ} {completed : CompletedRound R}
    (h : (net.nodes world).Consistent) (hx : (net.nodes world).Hold x.nodeStates)
    (hok : x.executeRound s world = (.ok completed, y, world')) {node : NodeId} {state : StateId}
    (hstate : completed.stateIds.find? node = some state) :
    ((net.nodes world').ledger node).holds state = true := by
  obtain ⟨c, x₁, world₁, hp, hc⟩ := (Experiment.executeRound_eq_ok s).1 hok
  obtain ⟨hresult, -, rfl⟩ := (Experiment.conduct_eq_ok s).1 hc
  have hprepared := net.transit.prepares hp
  have hquiet := h.evolves hprepared fun q hq => by contradiction
  exact (net.run_of_consistent c world₁ hquiet
    fun q hq => hprepared.holds (net.requested_of_prepares hx hp hq)).1 completed hresult node state hstate

/-- No attempt fails because a node refuses a state. -/
theorem ne_stateMismatch_of_executeRound {x : Experiment R} {world : σ}
    (h : (net.nodes world).Consistent) (hx : (net.nodes world).Hold x.nodeStates)
    (number : RoundNumber) (node : NodeId) (message : String) :
    (x.executeRound s world).1 ≠ .error (.failed (.round number (.stateMismatch node message))) := by
  intro he
  rcases Experiment.round_of_executeRound s he with ⟨_, h'⟩ | ⟨_, h'⟩ | ⟨c, x₁, world₁, hp, hresult⟩
  · contradiction
  · contradiction
  · have hprepared := net.transit.prepares hp
    have hquiet := h.evolves hprepared fun q hq => by contradiction
    exact (net.run_of_consistent c world₁ hquiet
      fun q hq => hprepared.holds (net.requested_of_prepares hx hp hq)).2 node message hresult

/-! ## 2. The course of an experiment -/

/-- Only the preparation of the checkpoints and the drawing of a name take time when an experiment is
built. -/
theorem build (catalog : Catalog) (d : Draft R) (world : σ) :
    Nodes.Evolves [] (net.nodes world) (net.nodes (d.build s catalog world).2) := by
  have hready : Nodes.Evolves [] (net.nodes world)
      (net.nodes (if d.savesCheckpoints then s.prepare world else (.ok (), world)).2) := by
    split
    · exact net.prepare world
    · exact .refl
  unfold Draft.build
  split
  · exact .refl
  · split
    · exact .refl
    · -- the checkpoints are prepared before the name is drawn
      rcases hp : (if d.savesCheckpoints then s.prepare world else (.ok (), world)) with ⟨ready, world₁⟩
      rw [hp] at hready
      cases ready with
      | error e => exact hready
      | ok u =>
        cases d.experimentId with
        | some id => exact hready
        | none => exact hready.trans (net.drawName world₁)

/-- The course of an experiment from its beginning, with the experiment and the surroundings at its end.
The list has the states in which a checkpoint may have been saved. -/
inductive Timeline : List (Experiment R) → Experiment R → σ → Prop where
  | built (catalog : Catalog) (d : Draft R) (hd : d.progress = none) {x : Experiment R} {world world' : σ}
    (hrequests : (net.nodes world).requests = []) (hreplies : (net.nodes world).replies = [])
    (h : d.build s catalog world = (.ok x, world')) : Timeline [x] x world'
  | round {past : List (Experiment R)} {x : Experiment R} {world : σ} (h : Timeline past x world) :
    Timeline ((x.runRound s world).2.1 :: past) (x.runRound s world).2.1 (x.runRound s world).2.2
  | room {past : List (Experiment R)} {x : Experiment R} {world : σ} (rounds : UInt64)
    (h : Timeline past x world) : Timeline (x.makeRoom rounds :: past) (x.makeRoom rounds) world
  | configured {past : List (Experiment R)} {x y : Experiment R} {world : σ} (change : Change R)
    (h : Timeline past x world) (hy : change.apply x = .ok y) : Timeline (y :: past) y world
  | saved {past : List (Experiment R)} {x : Experiment R} {world : σ} (h : Timeline past x world) :
    Timeline past x (x.saveCheckpoint s world).2
  -- Time passes, in which an attempt may be made that is never heard of again.
  | interrupted {past : List (Experiment R)} {x : Experiment R} {world world' : σ}
    (sent : List (WorkRequest R)) (h : Timeline past x world)
    (hevolves : Nodes.Evolves sent (net.nodes world) (net.nodes world'))
    (hsent : ∀ q ∈ sent, ∃ c y world₁, x.Prepares s world c y world₁ ∧ .train q ∈ c.requests) :
    Timeline past x world'
  | resumed {past : List (Experiment R)} {x y z : Experiment R} {world world' : σ} (catalog : Catalog)
    (d : Draft R) (createdAt : Timestamp) (h : Timeline past x world) (hz : z ∈ past)
    (hd : d.TakesUp (z.checkpoint createdAt)) (hy : d.build s catalog world = (.ok y, world')) :
    Timeline (y :: past) y world'

/-- What never ceases to hold: all messages agree with the ledgers, and so does what was expected of the
nodes at any time. -/
structure Continuous (past : List (Experiment R)) (x : Experiment R) (world : σ) : Prop where
  consistent : (net.nodes world).Consistent
  held : ∀ z ∈ past, (net.nodes world).Hold z.nodeStates
  present : x ∈ past

variable {net} {past : List (Experiment R)} {x : Experiment R} {world : σ}

theorem Continuous.hold (h : net.Continuous past x world) : (net.nodes world).Hold x.nodeStates :=
  h.held x h.present

/-- The course goes on in the state `y`, if nodes and network have proceeded and have what is expected
of them then. -/
theorem Continuous.next (h : net.Continuous past x world) {y : Experiment R} {world' : σ}
    {sent : List (WorkRequest R)}
    (hevolves : Nodes.Evolves sent (net.nodes world) (net.nodes world'))
    (hconsistent : (net.nodes world').Consistent) (hy : (net.nodes world').Hold y.nodeStates) :
    net.Continuous (y :: past) y world' where
  consistent := hconsistent
  held := List.forall_mem_cons.2 ⟨hy, fun z hz => (h.held z hz).evolves hevolves⟩
  present := List.mem_cons_self

/-- Once the round that an experiment runs is over, the nodes have what is expected of them then. -/
theorem hold_runRound (h : (net.nodes world).Consistent) (hx : (net.nodes world).Hold x.nodeStates) :
    (net.nodes (x.executeRound s world).2.2).Hold (x.runRound s world).2.1.nodeStates := by
  have hbefore := (net.consistent_executeRound h hx).2
  refine Experiment.runRound_preserve s
    (P := fun y => (net.nodes (x.executeRound s world).2.2).Hold y.nodeStates)
    (fun stop y world' hfailed => ?_) fun completed y world₁ now hok node => ?_
  · obtain ⟨_, _, _, _, rfl⟩ := Experiment.sameTraining_of_executeRound s hfailed
    exact hbefore
  · have hy : y.nodeStates = x.nodeStates := by
      obtain ⟨_, _, _, _, rfl⟩ := Experiment.sameTraining_of_executeRound s hok
      rfl
    rw [hok] at hbefore ⊢
    rw [Experiment.commit, hy, Experiment.expectedStateId_statesAfter]
    -- a participant is expected to have what it has replied with, any other node what it had before
    cases hstate : completed.stateIds.find? node with
    | some state => exact net.held_of_completed h hx hok hstate
    | none => exact hbefore node

theorem Continuous.round (h : net.Continuous past x world) :
    net.Continuous ((x.runRound s world).2.1 :: past) (x.runRound s world).2.1
      (x.runRound s world).2.2 := by
  obtain ⟨sent, hattempt, -⟩ := net.transit.executeRound x world
  have hsave := net.transit.runRound x world
  have hconsistent := (net.consistent_executeRound h.consistent h.hold).1
  exact h.next (hattempt.trans hsave) (hconsistent.evolves hsave fun q hq => by contradiction)
    ((hold_runRound h.consistent h.hold).evolves hsave)

theorem Timeline.continuous (h : net.Timeline past x world) : net.Continuous past x world := by
  induction h with
  | @built catalog d hd x world world' hrequests hreplies h =>
    have hevolves := net.build catalog d world
    rw [h] at hevolves
    obtain ⟨e, p, id, -, hp, rfl⟩ := Experiment.essentials_of_build s h
    obtain ⟨-, dataset, rfl⟩ := Experiment.start_of_new hd hp
    have hfirst : (net.nodes world).Consistent := by
      constructor
      · intro q hq
        rw [hrequests] at hq
        contradiction
      · intro r hr
        rw [hreplies] at hr
        contradiction
      · intro r hr
        rw [hreplies] at hr
        contradiction
    refine ⟨hfirst.evolves hevolves fun q hq => by contradiction, ?_, List.mem_cons_self⟩
    exact List.forall_mem_singleton.2 (Nodes.hold_empty _)
  | round _ ih => exact ih.round
  | @room past x world rounds _ ih =>
    refine ih.next (net.transit.refl world) ih.consistent ?_
    unfold Experiment.makeRoom
    split
    · exact ih.hold
    · exact ih.hold
  | @configured past x y world change _ hy ih =>
    refine ih.next (net.transit.refl world) ih.consistent ?_
    rcases (Experiment.changed_of_apply hy).reconfigured.nodeStates with hsame | ⟨keep, hretain⟩
    · rw [hsame]
      exact ih.hold
    · rw [hretain]
      exact ih.hold.retain keep
  | @saved past x world _ ih =>
    have hsave := net.save (x.checkpoint (s.now world)) world
    exact ⟨ih.consistent.evolves hsave fun q hq => by contradiction,
      fun z hz => (ih.held z hz).evolves hsave, ih.present⟩
  | @interrupted past x world world' sent _ hevolves hsent ih =>
    refine ⟨ih.consistent.evolves hevolves fun q hq => ?_,
      fun z hz => (ih.held z hz).evolves hevolves, ih.present⟩
    obtain ⟨c, y, world₁, hp, hmem⟩ := hsent q hq
    exact net.requested_of_prepares ih.hold hp hmem
  | @resumed past x y z world world' catalog d createdAt _ hz hd hy ih =>
    have hevolves := net.build catalog d world
    rw [hy] at hevolves
    refine ih.next hevolves (ih.consistent.evolves hevolves fun q hq => by contradiction) ?_
    obtain ⟨e, p, id, -, hp, rfl⟩ := Experiment.essentials_of_build s hy
    obtain ⟨-, -, -, -, hstates⟩ := Experiment.start_of_takesUp hd hp
    have hheld := (ih.held z hz).evolves hevolves
    rw [← show p.nodeStates = z.nodeStates from hstates] at hheld
    exact hheld

/-! ## 3. Runs -/

theorem ne_stateMismatch_of_runRound (h : net.Continuous past x world) (number : RoundNumber)
    (node : NodeId) (message : String) :
    (x.runRound s world).1 ≠ .error (.failed (.round number (.stateMismatch node message))) := by
  have hne := net.ne_stateMismatch_of_executeRound h.consistent h.hold number node message
  have hround := Experiment.roundRun_runRound s x world
  generalize x.runRound s world = result at hround ⊢
  cases hround with
  | failed stop y world' hx =>
    rw [hx] at hne
    rintro he
    obtain rfl := Except.error.inj he
    exact hne rfl
  | committed => exact nofun
  | saved => exact nofun
  | unsaved => exact nofun

/-- Rounds that are run one after the other go on with the course, and none of them is refused. -/
theorem Timeline.runRounds (n : Nat) (h : net.Timeline past x world) :
    (∃ rest, net.Timeline (rest ++ past) (Experiment.runRounds s n x world).2.1
      (Experiment.runRounds s n x world).2.2) ∧
      ∀ number node message, (Experiment.runRounds s n x world).1.2 ≠
        some (.failed (.round number (.stateMismatch node message))) := by
  obtain ⟨hlast, hattempts⟩ := Experiment.runRounds_preserve s (n := n)
    (P := fun x world => ∃ rest, net.Timeline (rest ++ past) x world)
    (fun _ _ ⟨rest, hrest⟩ => ⟨_ :: rest, hrest.round⟩) ⟨[], h⟩
  refine ⟨hlast, fun number node message hfailure => ?_⟩
  obtain ⟨a, ha, hstop⟩ := Experiment.attempt_of_failure s hfailure
  obtain ⟨rest, hrest⟩ := hattempts a ha
  exact ne_stateMismatch_of_runRound hrest.continuous number node message hstop

theorem Timeline.run (rounds : UInt64) (increase : Bool) (h : net.Timeline past x world) :
    (∃ rest, net.Timeline (rest ++ past) (x.run s rounds increase world).2.1
      (x.run s rounds increase world).2.2) ∧
      ∀ number node message, (x.run s rounds increase world).1.failure ≠
        some (.failed (.round number (.stateMismatch node message))) := by
  cases increase with
  | false => exact h.runRounds _
  | true =>
    obtain ⟨⟨rest, hrest⟩, hne⟩ := (h.room rounds).runRounds
      (min rounds.toNat (x.makeRoom rounds).roundsLeft)
    refine ⟨⟨rest ++ [x.makeRoom rounds], ?_⟩, hne⟩
    rw [List.append_assoc]
    exact hrest

end LedgerNetwork

/-- Whatever happened in the course of an experiment among nodes that keep ledgers, each node has the
state that is expected of it, and no node refuses a request, may the request be late or not. So no round
fails because a node was asked for a state that it never had. -/
theorem expected_states_are_held (net : LedgerNetwork s) {past : List (Experiment R)}
    {x : Experiment R} {world : σ} (h : net.Timeline past x world) :
    (∀ node, ((net.nodes world).ledger node).holds (x.nodeStates.expectedStateId node) = true) ∧
      (∀ q ∈ (net.nodes world).requests,
        ((net.nodes world).ledger q.nodeId).check q.stateId = .ok ()) ∧
      (∀ number node message, (x.executeRound s world).1 ≠
        .error (.failed (.round number (.stateMismatch node message)))) ∧
      ∀ rounds increase,
        (∃ rest, net.Timeline (rest ++ past) (x.run s rounds increase world).2.1
          (x.run s rounds increase world).2.2) ∧
          ∀ number node message, (x.run s rounds increase world).1.failure ≠
            some (.failed (.round number (.stateMismatch node message))) := by
  have hcontinuous := h.continuous
  refine ⟨hcontinuous.hold, fun q hq => ?_,
    net.ne_stateMismatch_of_executeRound hcontinuous.consistent hcontinuous.hold,
    fun rounds increase => h.run rounds increase⟩
  exact StateLedger.check_eq_ok.2 (hcontinuous.consistent.requested q hq)

/-- Two nodes that answer whatever is under way as often as they get time. -/
structure Busy where
  nodes : Nodes ℚ := ⟨fun _ => {}, [], []⟩
  -- The number of words drawn so far.
  draws : UInt64 := 0

namespace Busy

def handle (n : Nodes ℚ) (q : WorkRequest ℚ) : Nodes ℚ :=
  match (n.ledger q.nodeId).check q.stateId with
  | .error e => n.reply (.ofFailure q ⟨.stateMismatch, Failure.message e⟩)
  | .ok () => (n.note q).reply (.ofSuccess q (.plain (.ofLayers [("layer", [1])])) 1 .empty .zero)

/-- Every request under way is answered once more. -/
def proceed (n : Nodes ℚ) : Nodes ℚ := n.requests.foldl handle n

/-- Surroundings with these nodes, in which no reply arrives before the second attempt. -/
def surroundings : Surroundings ℚ Busy where
  link :=
    { send := fun q b => (none, { b with nodes := q.work?.toList.foldl Nodes.post b.nodes })
      watch := fun _ b =>
        ⟨if b.draws ≤ 1 then [] else (proceed b.nodes).replies.map fun r => .reply (.train r) .zero,
          .deadline⟩
      advance := fun _ _ b => { b with nodes := proceed b.nodes }
      purge := fun b => (true, b)
      arm := fun b => b }
  drawName b := ("session", b)
  drawWord b := (b.draws + 1, { b with draws := b.draws + 1 })
  drawFraction b := (0, b)
  now _ := ⟨0, 0⟩
  save _ b := (.error .unreadable, b)
  prepare b := (.ok (), b)

theorem evolves_handle {n : Nodes ℚ} {q : WorkRequest ℚ} (hq : q ∈ n.requests) :
    Nodes.Evolves [] n (handle n q) := by
  unfold handle
  split
  next e hc => exact .single (Or.inl (.refuse q hq e hc))
  next hc => exact .single (Or.inl (.succeed q hq hc _ _ _ _ _))

theorem requests_handle (n : Nodes ℚ) (q : WorkRequest ℚ) : (handle n q).requests = n.requests := by
  unfold handle
  split <;> rfl

theorem evolves_proceed (n : Nodes ℚ) : Nodes.Evolves [] n (proceed n) := by
  have hfold : ∀ (l : List (WorkRequest ℚ)) (n : Nodes ℚ), l ⊆ n.requests →
      Nodes.Evolves [] n (l.foldl handle n) := by
    intro l
    induction l with
    | nil => exact fun n _ => .refl
    | cons q l ih =>
      intro n hl
      rw [List.cons_subset] at hl
      exact (evolves_handle hl.1).trans (ih (handle n q) (by rw [requests_handle]; exact hl.2))
  exact hfold n.requests n (List.Subset.refl _)

def network : LedgerNetwork surroundings where
  nodes := Busy.nodes
  send q b := by
    cases q with
    | train q => exact .single (Or.inr ⟨q, List.mem_singleton_self q, rfl⟩)
    | setup q => exact .refl
  advance _ _ b := evolves_proceed b.nodes
  purge _ := .refl
  arm _ := .refl
  drawName _ := .refl
  drawWord _ := .refl
  drawFraction _ := .refl
  save _ _ := .refl
  prepare _ := .refl
  watch := by
    intro t n b r elapsed hr
    have hmem := List.mem_of_mem_take hr
    have hreply : r ∈ (proceed b.nodes).replies := by
      simp only [surroundings] at hmem
      split at hmem
      · contradiction
      · obtain ⟨r', hr', heq⟩ := List.mem_map.1 hmem
        obtain ⟨rfl, -⟩ : r' = r ∧ _ := by simpa using heq
        exact hr'
    exact ⟨proceed b.nodes, evolves_proceed b.nodes, hreply, .refl⟩

/-- The experiment after an attempt without replies. -/
def unheard : Experiment ℚ × Busy := (pairBuilt.runRound surroundings {}).2

/-- The experiment after the attempt that follows. -/
def heard : Experiment ℚ × Busy := (unheard.1.runRound surroundings unheard.2).2

end Busy

/-- Both nodes have the first state although the first attempt hears nothing of it. The second attempt
completes; then the experiment is taken up from its very beginning and runs again. -/
theorem expected_states_are_held_restarted :
    Busy.unheard.1.nodeStates.expectedStateId "left" = 0 ∧
      (Busy.unheard.2.nodes.ledger "left").latest = 1 ∧
      Busy.heard.1.nodeStates.expectedStateId "left" = 1 ∧
      ∃ y world, Busy.network.Timeline [y, Busy.heard.1, Busy.unheard.1, pairBuilt] y world ∧
        y.nodeStates.expectedStateId "left" = 0 ∧
        (∀ node, (world.nodes.ledger node).holds (y.nodeStates.expectedStateId node) = true) ∧
        ∀ number node message, (y.run Busy.surroundings 1 false world).1.failure ≠
          some (.failed (.round number (.stateMismatch node message))) := by
  have hbuilt : pairDraft.build Busy.surroundings (fun _ => .error "") {} = (.ok pairBuilt, {}) := rfl
  have hcourse : Busy.network.Timeline [Busy.heard.1, Busy.unheard.1, pairBuilt] Busy.heard.1
      Busy.heard.2 :=
    .round (.round (.built (fun _ => .error "") pairDraft rfl rfl rfl hbuilt))
  have hvalid : (pairBuilt.checkpoint ⟨0, 0⟩).validate = .ok () := by decide +kernel
  obtain ⟨draft, world, hdraft, hy⟩ :=
    (Experiment.buildable_of_build _ ⟨rfl, rfl⟩ hbuilt).resume Busy.surroundings rfl hvalid
      (show pairDraft.isConnected = true from rfl) (fun _ => .error "") fun _ => rfl
  have hresumed := hcourse.resumed (fun _ => .error "") draft ⟨0, 0⟩ (z := pairBuilt) (by simp)
    ⟨pairDraft, draft, hdraft, rfl⟩ hy
  obtain ⟨hheld, -, -, hruns⟩ := expected_states_are_held Busy.network hresumed
  exact ⟨by decide +kernel, by decide +kernel, by decide +kernel, _, world, hresumed, rfl, hheld,
    (hruns 1 false).2⟩

end Federation
