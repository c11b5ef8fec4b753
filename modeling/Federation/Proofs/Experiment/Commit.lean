import Federation.Proofs.Experiment.Attempt
import Federation.Proofs.Round.Taken
/-!
# Committing a round

A completed round is computed from the parameters and the optimizer that the experiment had, and it is
committed as a whole: each participant gets the state that it produced, all other nodes keep theirs.
-/

namespace Federation

variable {R σ : Type}

namespace Experiment

/-- A node has the state of the round if it took part, and else the one before. -/
theorem find?_statesAfter (c : CompletedRound R) (states : NodeStates R) (node : NodeId) :
    (statesAfter c states).states.find? node =
      ((c.stateIds.find? node).map (stateAfter c states node)).or (states.states.find? node) := by
  have hfold : ∀ (l : List (NodeId × StateId)) (s : NodeStates R),
      (l.foldl (fun s e => s.update e.1 (stateAfter c states e.1 e.2)) s).states =
        (l.map fun e => (e.1, stateAfter c states e.1 e.2)).foldl (fun m e => m.insert e.1 e.2)
          s.states := by
    intro l
    induction l with
    | nil => exact fun s => rfl
    | cons e l ih => exact fun s => ih _
  have hlist : c.stateIds.toList.map (fun e => (e.1, stateAfter c states e.1 e.2)) =
      (c.stateIds.map (stateAfter c states)).toList := rfl
  rw [statesAfter, hfold, hlist, SortedMap.find?_foldl_insert, ← SortedMap.find?_ofList,
    SortedMap.ofList_toList, SortedMap.find?_map]

theorem stateFor_statesAfter (c : CompletedRound R) (states : NodeStates R) (node : NodeId) :
    (statesAfter c states).stateFor node =
      ((c.stateIds.find? node).map (stateAfter c states node)).getD (states.stateFor node) := by
  rw [NodeStates.stateFor, find?_statesAfter]
  cases c.stateIds.find? node <;> rfl

theorem expectedStateId_statesAfter (c : CompletedRound R) (states : NodeStates R) (node : NodeId) :
    (statesAfter c states).expectedStateId node =
      (c.stateIds.find? node).getD (states.expectedStateId node) := by
  rw [NodeStates.expectedStateId, stateFor_statesAfter]
  cases c.stateIds.find? node <;> rfl

variable [RootScalar R] (s : Surroundings R σ)

/-- A completed round was computed from the training as it stood when the round began. -/
theorem complete_of_completed {x y : Experiment R} {world world' : σ} {completed : CompletedRound R}
    (h : x.executeRound s world = (.ok completed, y, world')) :
    ∃ (participants : NameMap (Participant R)) (secagg : Option (SecaggRound R)) (requestId : UInt64)
      (collecting : Collecting R),
      collecting.complete (x.context participants secagg requestId) = .ok completed := by
  obtain ⟨c, x₁, world₁, hprepares, hconduct⟩ := (executeRound_eq_ok s).1 h
  obtain ⟨hrun, -, -⟩ := (conduct_eq_ok s).1 hconduct
  obtain ⟨replies, -, -, -, hcomplete⟩ := (RoundContext.run_result_eq_ok s.link c world₁ completed).1 hrun
  obtain ⟨participants, secagg, requestId, rfl⟩ := context_of_prepares s hprepares
  exact ⟨participants, secagg, requestId, _, hcomplete⟩

/-- The participants of a completed round, and nobody else, produced the successors of the states that were
expected of them. -/
theorem stateIds_of_completed {x y : Experiment R} {world world' : σ} {completed : CompletedRound R}
    (h : x.executeRound s world = (.ok completed, y, world')) (node : NodeId) :
    completed.stateIds.find? node =
      (completed.participants.find? node).map fun _ => (x.nodeStates.expectedStateId node).successor := by
  obtain ⟨c, x₁, world₁, hprepares, hconduct⟩ := (executeRound_eq_ok s).1 h
  obtain ⟨hrun, -, -⟩ := (conduct_eq_ok s).1 hconduct
  obtain ⟨replies, -, -, -, hcomplete⟩ := (RoundContext.run_result_eq_ok s.link c world₁ completed).1 hrun
  obtain ⟨_, _, _, -, -, rfl⟩ := Collecting.complete_eq_ok.1 hcomplete
  simp only [SortedMap.find?_map, Collecting.find?_received, Option.map_map]
  cases hfirst : Collecting.firstMatch? c node replies with
  | none => rfl
  | some e =>
    -- the reply echoes the state that its node was asked to continue from
    obtain ⟨-, hmatching, rfl⟩ := Collecting.firstMatch?_eq_some hfirst
    obtain ⟨p, hp, hstate⟩ := Collecting.find?_participants_of_isMatching hmatching
    rw [← stateId_of_prepares s hprepares hp, hstate]
    rfl

/-- A completed round has aggregated what it received, and its optimizer has made a step from the global
parameters of the experiment. -/
theorem combined_of_completed {x y : Experiment R} {world world' : σ} {completed : CompletedRound R}
    (h : x.executeRound s world = (.ok completed, y, world')) :
    ∃ (c : RoundContext R) (collecting : Collecting R) (aggregated : Aggregated R),
      c.aggregator = x.aggregator ∧ completed.roundNumber = x.roundCurrent ∧
        collecting.aggregate c = .ok aggregated ∧
        aggregated.aggregator = completed.aggregated.aggregator ∧
        x.optimizer.step x.global aggregated.global =
          .ok (completed.aggregated.global, completed.optimizer) := by
  obtain ⟨participants, secagg, requestId, collecting, hcomplete⟩ := complete_of_completed s h
  obtain ⟨aggregated, global, optimizer, haggregated, hstep, rfl⟩ := Collecting.complete_eq_ok.1 hcomplete
  exact ⟨_, collecting, aggregated, rfl, rfl, haggregated, rfl, hstep⟩

end Experiment

end Federation
