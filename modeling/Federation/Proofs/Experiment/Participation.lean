import Federation.Proofs.Experiment.Configuration
import Federation.Proofs.Experiment.Continuity
/-!
# Taking part in rounds

The history says which nodes took part in which rounds. What an experiment knows of a node agrees with it:
the state of the node counts the rounds and names the latest one, however many attempts failed in between,
as long as the dataset has the node.
-/

namespace Federation

variable {R σ : Type}

/-! ## 1. States and records -/

/-- The records that list a node as a participant. -/
def recordsOf (history : List (RoundRecord R)) (node : NodeId) : List (RoundRecord R) :=
  history.filter fun record => record.participants.contains node

/-- What is known of a node agrees with a history. It is known if a record lists it. Its state counts the
records that do, up to the greatest word, and its last round is that of the latest of them. -/
structure NodeStates.Agree (states : NodeStates R) (history : List (RoundRecord R)) (node : NodeId) :
    Prop where
  known : states.states.contains node = true ↔
    ∃ record ∈ history, record.participants.contains node = true
  stateId : (states.stateFor node).stateId.toNat =
    min (recordsOf history node).length (UInt64.size - 1)
  lastRound : (states.stateFor node).lastRound = (recordsOf history node).getLast?.map (·.roundNumber)

theorem recordsOf_append (history : List (RoundRecord R)) (record : RoundRecord R) (node : NodeId) :
    recordsOf (history ++ [record]) node =
      recordsOf history node ++ if record.participants.contains node then [record] else [] := by
  rw [recordsOf, List.filter_append, List.filter_singleton, Bool.cond_eq_ite]
  rfl

namespace NodeStates.Agree

variable {states states' : NodeStates R} {history : List (RoundRecord R)} {node : NodeId}

theorem start (node : NodeId) : Agree (R := R) .empty [] node :=
  ⟨⟨nofun, nofun⟩, rfl, rfl⟩

theorem congr (h : Agree states history node)
    (hstates : states'.states.find? node = states.states.find? node) : Agree states' history node := by
  have hstate : states'.stateFor node = states.stateFor node := congrArg (·.getD {}) hstates
  refine ⟨?_, ?_, ?_⟩
  · rw [SortedMap.contains, hstates]
    exact h.known
  · rw [hstate]
    exact h.stateId
  · rw [hstate]
    exact h.lastRound

/-- A record does not concern the nodes that it does not list. -/
theorem append_of_unlisted (h : Agree states history node) {record : RoundRecord R}
    (hrecord : record.participants.contains node = false) : Agree states (history ++ [record]) node := by
  have hsame : recordsOf (history ++ [record]) node = recordsOf history node := by
    simp [recordsOf_append, hrecord]
  refine ⟨?_, ?_, ?_⟩
  · simp only [List.mem_append, List.mem_singleton, or_and_right, exists_or, exists_eq_left, hrecord,
      Bool.false_eq_true, or_false]
    exact h.known
  · rw [hsame]
    exact h.stateId
  · rw [hsame]
    exact h.lastRound

/-- A node that a record lists has the next state, and the record names its last round. -/
theorem append_of_listed (h : Agree states history node) {record : RoundRecord R}
    (hrecord : record.participants.contains node = true) {state : NodeState R}
    (hstate : states'.states.find? node = some state)
    (hid : state.stateId = (states.expectedStateId node).successor)
    (hlast : state.lastRound = some record.roundNumber) : Agree states' (history ++ [record]) node := by
  have hfor : states'.stateFor node = state := by rw [stateFor, hstate, Option.getD_some]
  have happend : recordsOf (history ++ [record]) node = recordsOf history node ++ [record] := by
    simp [recordsOf_append, hrecord]
  refine ⟨?_, ?_, ?_⟩
  · rw [SortedMap.contains, hstate]
    exact ⟨fun _ => ⟨record, by simp, hrecord⟩, fun _ => rfl⟩
  · have hcount : (states.expectedStateId node).toNat =
        min (recordsOf history node).length (UInt64.size - 1) := h.stateId
    rw [hfor, hid, StateId.toNat_successor, hcount, happend, List.length_append, List.length_singleton]
    omega
  · rw [hfor, hlast, happend, List.getLast?_concat, Option.map_some]

end NodeStates.Agree

/-! ## 2. Experiments -/

/-- A change takes a node out of the dataset. -/
def Change.Drops [Scalar R] (change : Change R) (x : Experiment R) (node : NodeId) : Prop :=
  x.dataset.contains node = true ∧ ∃ y, change.apply x = .ok y ∧ y.dataset.contains node = false

def Action.Drops [Scalar R] (x : Experiment R) (node : NodeId) : Action R → Prop
  | configure change => change.Drops x node
  | _ => False

namespace Experiment

/-- An experiment that started anew and was never reconfigured so that its dataset lost the node. -/
def Keeping [RootScalar R] (node : NodeId) : Experiment R → Prop :=
  LedTo (·.progress = none) fun x action => ¬action.Drops x node

/-- From an experiment to the next one nothing was committed, or one round was. Then all nodes but its
participants have the states they had. -/
def MovesParticipants (x y : Experiment R) : Prop :=
  (y.history = x.history ∧ y.nodeStates = x.nodeStates) ∨
    ∃ record, y.history = x.history ++ [record] ∧ ∀ node, record.participants.contains node = false →
      y.nodeStates.states.find? node = x.nodeStates.states.find? node

/-- What is known of a node agrees with the history, and nothing is known of it outside the dataset. -/
structure Tracks (node : NodeId) (x : Experiment R) : Prop where
  agree : x.nodeStates.Agree x.history node
  held : x.nodeStates.states.contains node = true → x.dataset.contains node = true

variable {x y : Experiment R} {node : NodeId}

theorem tracks_of_build [Scalar R] (s : Surroundings R σ) {catalog : Catalog} {d : Draft R}
    (hd : d.progress = none) {world world' : σ} (h : d.build s catalog world = (.ok x, world')) :
    Tracks node x := by
  obtain ⟨e, p, id, -, hp, rfl⟩ := essentials_of_build s h
  obtain ⟨-, dataset, rfl⟩ := start_of_new hd hp
  exact ⟨.start node, nofun⟩

/-- Only asking the catalog anew takes a node out of the dataset. -/
theorem resolves_of_drops [Scalar R] {change : Change R} (h : change.Drops x node) : change.Resolves := by
  obtain ⟨hnode, y, hy, hlost⟩ := h
  refine (frame_of_apply hy).nodes.resolve_right fun hsame => ?_
  have hlisted : node ∈ y.dataset.nodeIds := by
    rw [hsame.1]
    exact SortedMap.mem_keys_iff_isSome.2 hnode
  rw [show y.dataset.contains node = true from SortedMap.mem_keys_iff_isSome.1 hlisted] at hlost
  contradiction

theorem Tracks.changed [Scalar R] (h : Tracks node x) (hy : Changed x y)
    (hkeeps : x.dataset.contains node = true → y.dataset.contains node = true) : Tracks node y := by
  cases hy with
  | data catalog query nodes dataset hd =>
    have hretained : (x.nodeStates.retain dataset.contains).states.find? node =
        x.nodeStates.states.find? node := by
      refine Option.ext fun state =>
        NodeStates.find?_retain.trans (and_iff_left_of_imp fun hstate => hkeeps (h.held ?_))
      rw [SortedMap.contains, hstate, Option.isSome_some]
    refine ⟨h.agree.congr hretained, fun hknown => hkeeps (h.held ?_)⟩
    rwa [SortedMap.contains, ← hretained]
  | _ => exact ⟨h.agree, fun hknown => hkeeps (h.held hknown)⟩

/-! ## 3. Rounds -/

variable [RootScalar R] (s : Surroundings R σ)

/-- A round that completed leaves the states of all nodes but its participants. -/
theorem find?_commit_of_unlisted {world world' : σ} {completed : CompletedRound R}
    (hx : x.executeRound s world = (.ok completed, y, world')) (now : Timestamp)
    (hnode : completed.participants.contains node = false) :
    (y.commit completed now).nodeStates.states.find? node = x.nodeStates.states.find? node := by
  have hproduced := stateIds_of_completed s hx node
  rw [SortedMap.contains, Option.isSome_eq_false_iff, Option.isNone_iff_eq_none] at hnode
  obtain ⟨_, _, _, _, rfl⟩ := sameTraining_of_executeRound s hx
  show (statesAfter completed x.nodeStates).states.find? node = _
  rw [find?_statesAfter, hproduced, hnode, Option.map_none, Option.map_none, Option.none_or]

theorem agree_of_commit (h : x.nodeStates.Agree x.history node) {world world' : σ}
    {completed : CompletedRound R} (hx : x.executeRound s world = (.ok completed, y, world'))
    (now : Timestamp) :
    (y.commit completed now).nodeStates.Agree (y.commit completed now).history node := by
  have hhistory : (y.commit completed now).history = x.history ++ [.ofCompleted completed now] := by
    obtain ⟨_, _, _, _, rfl⟩ := sameTraining_of_executeRound s hx
    rfl
  rw [hhistory]
  cases hnode : completed.participants.contains node with
  | false => exact (h.congr (find?_commit_of_unlisted s hx now hnode)).append_of_unlisted hnode
  | true =>
    obtain ⟨r, hr⟩ := Option.isSome_iff_exists.1 hnode
    have hproduced := stateIds_of_completed s hx node
    rw [hr] at hproduced
    obtain ⟨_, _, _, _, rfl⟩ := sameTraining_of_executeRound s hx
    have hstate : (statesAfter completed x.nodeStates).states.find? node =
        some (stateAfter completed x.nodeStates node (x.nodeStates.expectedStateId node).successor) := by
      rw [find?_statesAfter, hproduced, Option.map_some, Option.map_some, Option.some_or]
    exact h.append_of_listed hnode hstate rfl rfl

theorem Tracks.commit (h : Tracks node x) {world world' : σ} {completed : CompletedRound R}
    (hx : x.executeRound s world = (.ok completed, y, world')) (now : Timestamp) :
    Tracks node (y.commit completed now) := by
  refine ⟨agree_of_commit s h.agree hx now, fun hknown => ?_⟩
  have hdataset : (y.commit completed now).dataset = x.dataset := by
    obtain ⟨_, _, _, _, rfl⟩ := sameTraining_of_executeRound s hx
    rfl
  rw [hdataset]
  cases hnode : completed.participants.contains node with
  | false =>
    rw [SortedMap.contains, find?_commit_of_unlisted s hx now hnode] at hknown
    exact h.held hknown
  | true =>
    -- a participant is a node of the dataset
    refine contains_of_completed s hx (SortedMap.mem_keys_iff_isSome.2 ?_)
    rw [stateIds_of_completed s hx, Option.isSome_map]
    exact hnode

theorem Tracks.runRound (h : Tracks node x) (world : σ) : Tracks node (x.runRound s world).2.1 := by
  refine runRound_preserve s (fun _ _ _ hy => ?_) fun _ _ _ now hy => h.commit s hy now
  obtain ⟨_, _, _, _, rfl⟩ := sameTraining_of_executeRound s hy
  exact { h with }

theorem movesParticipants_of_runRound (world : σ) : MovesParticipants x (x.runRound s world).2.1 := by
  refine runRound_preserve s (fun stop y world' hy => ?_) fun completed y world' now hy => ?_
  · obtain ⟨_, _, _, _, rfl⟩ := sameTraining_of_executeRound s hy
    exact Or.inl ⟨rfl, rfl⟩
  · refine Or.inr ⟨.ofCompleted completed now, ?_, fun node hnode => find?_commit_of_unlisted s hy now hnode⟩
    obtain ⟨_, _, _, _, rfl⟩ := sameTraining_of_executeRound s hy
    rfl

/-! ## 4. Actions -/

theorem Tracks.perform (h : Tracks node x) {action : Action R} (hkeeps : ¬action.Drops x node)
    (world : σ) : Tracks node (action.perform s x world).2.1 ∧
      ∀ a ∈ action.attempts s x world, Tracks node a.1 := by
  refine action.perform_preserve s (fun _ _ h => { h with }) (fun _ world h => h.runRound s world)
    (fun change y heq hy => ?_) h world
  subst heq
  refine h.changed (changed_of_apply hy) fun hnode => ?_
  by_contra hlost
  exact hkeeps ⟨hnode, y, hy, Bool.not_eq_true _ ▸ hlost⟩

theorem Keeping.tracks (h : Keeping node x) : Tracks node x := by
  induction h with
  | built s catalog d hd h => exact tracks_of_build s hd h
  | performed s action hkeeps world h ih => exact (ih.perform s hkeeps world).1

end Experiment

open Experiment in
/-- However a new experiment is run and reconfigured, its states of the nodes agree with its history. Of a
node that stays in the dataset something is known if and only if it took part in a round. Then its state is
the number of these rounds, and its last round is the latest of them, at the beginning and at the end of
every attempt. A round that completes leaves the states of all nodes but its participants, and any other
attempt leaves all states. -/
theorem node_states_agree_with_history [RootScalar R] :
    (∀ {node : NodeId} {x : Experiment R}, Keeping node x → x.nodeStates.Agree x.history node ∧
      ∀ {σ : Type} (s : Surroundings R σ) (rounds : UInt64) (increase : Bool) (world : σ),
        ∀ a ∈ (Action.run rounds increase).attempts s x world,
          a.1.nodeStates.Agree a.1.history node ∧
          (a.1.runRound s a.2).2.1.nodeStates.Agree (a.1.runRound s a.2).2.1.history node) ∧
    ∀ {σ : Type} (s : Surroundings R σ) (x : Experiment R) (world : σ),
      MovesParticipants x (x.runRound s world).2.1 := by
  refine ⟨fun {node x} h => ⟨h.tracks.agree, fun s rounds increase world a ha => ?_⟩,
    fun s x world => movesParticipants_of_runRound s world⟩
  have hkeeps : ¬(Action.run (R := R) rounds increase).Drops x node := id
  have hbegin := (h.tracks.perform s hkeeps world).2 a ha
  exact ⟨hbegin.agree, (hbegin.runRound s a.2).agree⟩

/-- The experiment after an attempt without replies and a round of both nodes, and after a round of one
while the other was not available. -/
def pairParted : Experiment ℚ :=
  (Action.performAll Busy.surroundings
    [.run 1 false, .run 1 false, .configure (.availability "right" false), .run 1 false] pairBuilt {}).2.1

open Experiment in
theorem node_states_agree_with_history_pair :
    Keeping "right" pairParted ∧ pairParted.history.map (·.participants.keys) = [["left", "right"], ["left"]] ∧
      (pairParted.nodeStates.stateFor "left").stateId = 2 ∧
      (pairParted.nodeStates.stateFor "right").stateId = 1 ∧
      (pairParted.nodeStates.stateFor "right").lastRound = some 0 ∧
      pairParted.nodeStates.Agree pairParted.history "right" := by
  have hbuilt : pairDraft.build Busy.surroundings (fun _ => .error "") {} = (.ok pairBuilt, {}) := rfl
  have hstays : ∀ x : Experiment ℚ, ¬(Change.availability "right" false).Drops x "right" :=
    fun _ hdrops => resolves_of_drops hdrops
  have hstart : Keeping "right" pairBuilt := LedTo.built _ _ pairDraft (by rfl) hbuilt
  have hkeeping : Keeping "right" pairParted :=
    LedTo.performAll Busy.surroundings (by simp [Action.Drops, hstays]) {} hstart
  exact ⟨hkeeping, by decide +kernel, by decide +kernel, by decide +kernel, by decide +kernel,
    (node_states_agree_with_history.1 hkeeping).1⟩

end Federation
