import Federation.Proofs.Experiment.Dispatch
import Federation.Proofs.Network
/-!
# Training requests in the course of an attempt

Of the requests of an attempt only those of its round ask a node to train. What a relation between
surroundings says of the training requests that were sent is therefore about the requests of the round.
-/

namespace Federation

variable {R σ : Type}

/-- A relation between surroundings before and after some training requests were sent. It composes,
and all steps of the surroundings keep to it. -/
structure Transit (s : Surroundings R σ) (T : List (WorkRequest R) → σ → σ → Prop) : Prop where
  refl : ∀ world, T [] world world
  mono : ∀ {sent sent' : List (WorkRequest R)} {a b : σ}, T sent a b → sent ⊆ sent' → T sent' a b
  trans : ∀ {sent sent' : List (WorkRequest R)} {a b c : σ}, T sent a b → T sent' b c →
    T (sent ++ sent') a c
  send : ∀ q world, T q.work?.toList world (s.link.send q world).2
  advance : ∀ t n world, T [] world (s.link.advance t n world)
  purge : ∀ world, T [] world (s.link.purge world).2
  arm : ∀ world, T [] world (s.link.arm world)
  drawName : ∀ world, T [] world (s.drawName world).2
  drawWord : ∀ world, T [] world (s.drawWord world).2
  drawFraction : ∀ world, T [] world (s.drawFraction world).2
  save : ∀ c world, T [] world (s.save c world).2

/-- Invitations to a session are no training requests. -/
theorem filterMap_work?_of_invites {s : Surroundings R σ} {sent : List (Request R)}
    (h : ∀ q ∈ sent, ∃ x₁ selected world, Experiment.Invites s x₁ selected world q) :
    sent.filterMap Request.work? = [] := by
  rw [List.filterMap_eq_nil_iff]
  intro q hq
  obtain ⟨x₁, selected, world, hinvites⟩ := h q hq
  obtain ⟨node, -, rfl⟩ := List.mem_map.1 hinvites.invitation
  rfl

theorem mem_filterMap_work? {l : List (Request R)} {q : WorkRequest R}
    (h : q ∈ l.filterMap Request.work?) : .train q ∈ l := by
  obtain ⟨request, hmem, hwork⟩ := List.mem_filterMap.1 h
  cases request with
  | train q' =>
    obtain rfl : q' = q := Option.some.inj hwork
    exact hmem
  | setup q' => contradiction

/-- An attempt asks every participant to train from the global parameters, continuing from the state that
the experiment expects of it. -/
theorem request_of_prepares [RootScalar R] {s : Surroundings R σ} {x y : Experiment R}
    {c : RoundContext R} {world world' : σ} (h : x.Prepares s world c y world') {q : WorkRequest R}
    (hq : .train q ∈ c.requests) :
    q.requestId = c.requestId ∧ q.params = x.global ∧
      q.stateId = x.nodeStates.expectedStateId q.nodeId := by
  obtain ⟨⟨node, p⟩, hmem, heq⟩ := List.mem_map.1 hq
  obtain rfl := Request.train.inj heq
  have hstate := Experiment.stateId_of_prepares s h (SortedMap.find?_eq_some_iff.2 hmem)
  obtain ⟨participants, secagg, requestId, rfl⟩ := Experiment.context_of_prepares s h
  exact ⟨rfl, rfl, hstate⟩

namespace Transit

variable {s : Surroundings R σ} {T : List (WorkRequest R) → σ → σ → Prop} (tr : Transit s T)
include tr

/-- Of all requests that are sent the relation only counts those to train. -/
theorem counts : Dispatch s fun sent => T (sent.filterMap Request.work?) where
  refl := tr.refl
  mono h hs := tr.mono h (List.filterMap_subset _ hs)
  trans h h' := by
    rw [List.filterMap_append]
    exact tr.trans h h'
  send q world := by
    have hsend := tr.send q world
    cases q with
    | train q => exact hsend
    | setup q => exact hsend
  advance := tr.advance
  purge := tr.purge
  arm := tr.arm
  drawName := tr.drawName
  drawWord := tr.drawWord
  drawFraction := tr.drawFraction
  save := tr.save

/-- Preparing a round sends no training requests. -/
theorem prepares [Scalar R] {x y : Experiment R} {c : RoundContext R} {world world' : σ}
    (h : x.Prepares s world c y world') : T [] world world' := by
  obtain ⟨sent, htransit, hsent⟩ := tr.counts.prepares h
  rw [filterMap_work?_of_invites (s := s) fun q hq => ?_] at htransit
  · exact htransit
  · obtain ⟨x₁, selected, -, hinvites⟩ := hsent q hq
    exact ⟨x₁, selected, world, hinvites⟩

/-- A round that has sent its requests has sent no other training requests. -/
theorem dispatch {c : RoundContext R} {world world₁ world₂ : σ} {failure : Option (NodeId × String)}
    (hp : s.link.purge (s.link.arm world) = (true, world₁))
    (hs : s.link.broadcast c.requests world₁ = (failure, world₂)) :
    T (c.requests.filterMap Request.work?) world world₂ :=
  tr.counts.requested hp hs

variable [RootScalar R]

/-- An attempt sends the training requests of the round that it prepared, if any. -/
theorem executeRound (x : Experiment R) (world : σ) :
    ∃ sent, T sent world (x.executeRound s world).2.2 ∧
      ∀ q ∈ sent, ∃ c y world', x.Prepares s world c y world' ∧ .train q ∈ c.requests := by
  obtain ⟨sent, htransit, hsent⟩ := tr.counts.executeRound x world
  refine ⟨_, htransit, fun q hq => ?_⟩
  cases hsent _ (mem_filterMap_work? hq) with
  | join x₁ selected hr hinvites =>
    obtain ⟨node, -, hsetup⟩ := List.mem_map.1 hinvites.invitation
    contradiction
  | train c y world' hp hmem => exact ⟨c, y, world', hp, hmem⟩

/-- After its attempt a round sends nothing. -/
theorem runRound (x : Experiment R) (world : σ) :
    T [] (x.executeRound s world).2.2 (x.runRound s world).2.2 :=
  tr.counts.runRound x world

end Transit

end Federation
