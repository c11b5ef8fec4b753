import Federation.Experiment.Run
import Federation.Proofs.Except
import Federation.Proofs.SortedMap
/-!
# Preparing a round

Before a round runs, a secure experiment sets up a session, every selected node gets what it needs, and
the number of the attempt is drawn. The inductive predicates below list all that can come of these steps.
-/

namespace Federation

variable {R σ : Type}

namespace Experiment

/-! ## 1. Participants -/

section

variable [Scalar R] {x : Experiment R} {selected : NameSet}

/-- The experiment has a participant for each entry, or else an error for one of the selected nodes. -/
theorem participant_of_participants {m : NameMap (Participant R)}
    (h : x.participants selected = .ok m) {node : NodeId} {p : Participant R}
    (hp : m.find? node = some p) : x.participant node = .ok p := by
  rw [participants] at h
  cases hm : selected.keys.mapM fun node => (x.participant node).map fun p => (node, p) with
  | error e =>
    rw [hm] at h
    contradiction
  | ok l =>
    rw [hm] at h
    obtain rfl := Except.ok.inj h
    obtain ⟨node', -, hnode⟩ := mapM_eq_ok hm _ (SortedMap.mem_of_find?_ofList hp)
    cases hpart : x.participant node' with
    | error e =>
      rw [hpart] at hnode
      contradiction
    | ok p' =>
      rw [hpart] at hnode
      obtain ⟨rfl, rfl⟩ := Prod.mk.inj (Except.ok.inj hnode)
      exact hpart

/-- The participants are the selected nodes. -/
theorem keys_of_participants {m : NameMap (Participant R)} (h : x.participants selected = .ok m) :
    m.keys = selected.keys := by
  obtain ⟨l, hl, rfl⟩ := map_eq_ok.1 h
  have hkeys : l.map Prod.fst = selected.keys := by
    refine map_of_mapM_eq_ok hl fun node p hp => ?_
    obtain ⟨_, -, rfl⟩ := map_eq_ok.1 hp
    rfl
  have hlist := SortedMap.toList_ofList_of_ascending (SortedMap.Ascending.of_keys hkeys selected.ascending)
  exact (congrArg (List.map Prod.fst) hlist).trans hkeys

theorem participant_of_error {e : ExperimentError R} (h : x.participants selected = .error e) :
    ∃ node ∈ selected.keys, x.participant node = .error e := by
  rw [participants] at h
  cases hm : selected.keys.mapM fun node => (x.participant node).map fun p => (node, p) with
  | ok l =>
    rw [hm] at h
    contradiction
  | error e' =>
    rw [hm] at h
    obtain rfl := Except.error.inj h
    obtain ⟨node, hmem, hnode⟩ := mapM_eq_error hm
    cases hpart : x.participant node with
    | ok p =>
      rw [hpart] at hnode
      contradiction
    | error e =>
      rw [hpart] at hnode
      obtain rfl := Except.error.inj hnode
      exact ⟨node, hmem, hpart⟩

/-- A participant continues from the state that the experiment expects of it. -/
theorem stateId_of_participant {node : NodeId} {p : Participant R}
    (h : x.participant node = .ok p) : p.stateId = x.nodeStates.expectedStateId node := by
  rw [participant] at h
  split at h
  · contradiction
  · split at h
    · contradiction
    · obtain rfl := Except.ok.inj h
      rfl

end

/-! ## 2. Secure aggregation -/

section

variable (l : Link R σ) (a : SecureAggregation R) (researcher : ResearcherId)
  (experiment : ExperimentId) (name : String) (parties : NameSet)

/-- All that can come of a setup. -/
inductive SetUp (world : σ) :
    Except (Stop (SecaggError R)) SecaggSession × SecureAggregation R × σ → Prop where
  | reused (session : SecaggSession) (hr : a.reusable? parties = some session) :
    SetUp world (.ok session, a, world)
  | undelivered (node : NodeId) (reason : String) (world' : σ) (hr : a.reusable? parties = none)
    (hs : l.broadcast (SecureAggregation.setupRequests researcher experiment name parties) world =
      (some (node, reason), world')) :
    SetUp world (.error (.failed (.setupDispatch node reason)), a.clear, world')
  | unjoined (stop : Stop (SecaggError R)) (n : Nat) (world₁ : σ) (hr : a.reusable? parties = none)
    (hs : l.broadcast (SecureAggregation.setupRequests researcher experiment name parties) world =
      (none, world₁))
    (hj : Joining.run (l.watch a.clear.timeout world₁).ending (l.watch a.clear.timeout world₁).observed
      ⟨experiment, name, parties, .empty⟩ = (.error stop, n)) :
    SetUp world (.error stop, a.clear, l.advance a.clear.timeout n world₁)
  | joined (j : Joining) (n : Nat) (world₁ : σ) (hr : a.reusable? parties = none)
    (hs : l.broadcast (SecureAggregation.setupRequests researcher experiment name parties) world =
      (none, world₁))
    (hj : Joining.run (l.watch a.clear.timeout world₁).ending (l.watch a.clear.timeout world₁).observed
      ⟨experiment, name, parties, .empty⟩ = (.ok j, n)) :
    SetUp world (.ok ⟨name, parties.keys, j.publicKeys⟩,
      { a.clear with session := some ⟨name, parties.keys, j.publicKeys⟩ },
      l.advance a.clear.timeout n world₁)

theorem setUp_setup (world : σ) :
    SetUp l a researcher experiment name parties world
      (a.setup l researcher experiment name parties world) := by
  cases hr : a.reusable? parties with
  | some session => simpa [SecureAggregation.setup, hr] using .reused session hr
  | none =>
    rcases hs : l.broadcast (SecureAggregation.setupRequests researcher experiment name parties) world
      with ⟨failure, world₁⟩
    cases failure with
    | some f => simpa [SecureAggregation.setup, hr, hs] using .undelivered f.1 f.2 world₁ hr hs
    | none =>
      rcases hj : Joining.run (l.watch a.clear.timeout world₁).ending
        (l.watch a.clear.timeout world₁).observed ⟨experiment, name, parties, .empty⟩ with ⟨result, n⟩
      cases result with
      | error stop => simpa [SecureAggregation.setup, hr, hs, hj] using .unjoined stop n world₁ hr hs hj
      | ok j => simpa [SecureAggregation.setup, hr, hs, hj] using .joined j n world₁ hr hs hj

/-- A setup only replaces the session. -/
theorem setup_session (world : σ) :
    ∃ session, (a.setup l researcher experiment name parties world).2.1 = { a with session } := by
  have h := setUp_setup l a researcher experiment name parties world
  generalize a.setup l researcher experiment name parties world = result at h ⊢
  -- a session that cannot be reused is cleared first, and set only when all have joined
  cases h with
  | reused session hr => exact ⟨a.session, rfl⟩
  | undelivered => exact ⟨none, rfl⟩
  | unjoined => exact ⟨none, rfl⟩
  | joined => exact ⟨_, rfl⟩

end

variable (s : Surroundings R σ)

/-- The setup of an experiment that draws the name of the session. -/
def setupOf (x : Experiment R) (selected : NameSet) (world : σ) :
    Except (Stop (SecaggError R)) SecaggSession × SecureAggregation R × σ :=
  x.secagg.setup s.link x.researcherId x.experimentId (s.drawName world).1 selected
    (s.drawName world).2

/-- All that can come of making a round secure. -/
inductive Secured (x : Experiment R) (selected : NameSet) (world : σ) :
    Result R σ (Option (SecaggRound R)) → Prop where
  | plain (he : x.secagg.enabled = false) : Secured x selected world (.ok none, x, world)
  | failed (e : SecaggError R) (secagg : SecureAggregation R) (world' : σ)
    (hs : setupOf s x selected world = (.error (.failed e), secagg, world')) :
    Secured x selected world
      (.error (.failed (.round x.roundCurrent (.secureAggregation e))), { x with secagg }, world')
  | abandoned (secagg : SecureAggregation R) (world' : σ)
    (hs : setupOf s x selected world = (.error .abandoned, secagg, world')) :
    Secured x selected world (.error .abandoned, { x with secagg }, world')
  | secure (session : SecaggSession) (secagg : SecureAggregation R) (world' : σ)
    (hs : setupOf s x selected world = (.ok session, secagg, world')) :
    Secured x selected world
      (.ok (some ⟨session, secagg.config, (s.drawWord world').1,
        (s.drawFraction (s.drawWord world').2).1⟩), { x with secagg },
        (s.drawFraction (s.drawWord world').2).2)

theorem secured_prepareSecagg (x : Experiment R) (selected : NameSet) (world : σ) :
    Secured s x selected world (x.prepareSecagg s selected world) := by
  cases he : x.secagg.enabled with
  | false => simpa [prepareSecagg, he] using .plain he
  | true =>
    rcases hs : setupOf s x selected world with ⟨joined, secagg, world'⟩
    have hset := hs
    rw [setupOf] at hset
    rcases joined with (e | _) | session
    · simpa [prepareSecagg, he, hset] using .failed e secagg world' hs
    · simpa [prepareSecagg, he, hset] using .abandoned secagg world' hs
    · simpa [prepareSecagg, he, hset] using .secure session secagg world' hs

theorem prepareSecagg_of_disabled {x : Experiment R} (h : x.secagg.enabled = false)
    (selected : NameSet) (world : σ) :
    x.prepareSecagg s selected world = (.ok none, x, world) := by
  simp [prepareSecagg, h]

/-! ## 3. The context of a round -/

variable [Scalar R]

/-- All that can come of preparing a round. -/
inductive Prepared (x : Experiment R) (selected : NameSet) (world : σ) :
    Result R σ (RoundContext R) → Prop where
  | unsecured (stop : Stop (ExperimentError R)) (y : Experiment R) (world' : σ)
    (hs : x.prepareSecagg s selected world = (.error stop, y, world')) :
    Prepared x selected world (.error stop, y, world')
  | unsuited (secagg : Option (SecaggRound R)) (y : Experiment R) (world' : σ)
    (e : ExperimentError R) (hs : x.prepareSecagg s selected world = (.ok secagg, y, world'))
    (hp : y.participants selected = .error e) :
    Prepared x selected world (.error (.failed e), y, world')
  | ready (secagg : Option (SecaggRound R)) (y : Experiment R) (world₁ : σ)
    (participants : NameMap (Participant R))
    (hs : x.prepareSecagg s selected world = (.ok secagg, y, world₁))
    (hp : y.participants selected = .ok participants) :
    Prepared x selected world
      (.ok (y.context participants secagg (s.drawWord world₁).1), y, (s.drawWord world₁).2)

theorem prepared_prepareRound (x : Experiment R) (selected : NameSet) (world : σ) :
    Prepared s x selected world (x.prepareRound s selected world) := by
  rcases hs : x.prepareSecagg s selected world with ⟨secured, y, world₁⟩
  cases secured with
  | error stop => simpa [prepareRound, hs] using .unsecured stop y world₁ hs
  | ok secagg =>
    cases hp : y.participants selected with
    | error e => simpa [prepareRound, hs, hp] using .unsuited secagg y world₁ e hs hp
    | ok participants =>
      simpa [prepareRound, hs, hp] using .ready secagg y world₁ participants hs hp

theorem prepareRound_eq_ok {x y : Experiment R} {selected : NameSet} {world world' : σ}
    {c : RoundContext R} (h : x.prepareRound s selected world = (.ok c, y, world')) :
    ∃ secagg world₁ participants,
      x.prepareSecagg s selected world = (.ok secagg, y, world₁) ∧
        y.participants selected = .ok participants ∧
        c = y.context participants secagg (s.drawWord world₁).1 ∧
        world' = (s.drawWord world₁).2 := by
  have hp := prepared_prepareRound s x selected world
  rw [h] at hp
  cases hp with
  | ready secagg _ world₁ participants hs hp => exact ⟨secagg, world₁, participants, hs, hp, rfl, rfl⟩

theorem prepareRound_of_disabled {x : Experiment R} (h : x.secagg.enabled = false)
    (selected : NameSet) (world : σ) : (x.prepareRound s selected world).2.1 = x := by
  have hp := prepared_prepareRound s x selected world
  have hoff := prepareSecagg_of_disabled s h selected world
  generalize x.prepareRound s selected world = prepared at hp ⊢
  cases hp with
  | unsecured stop y world' hs =>
    rw [hoff] at hs
    simp at hs
  | unsuited secagg y world' e hs hp =>
    rw [hoff] at hs
    exact (congrArg (·.2.1) hs).symm
  | ready secagg y world₁ participants hs hp =>
    rw [hoff] at hs
    exact (congrArg (·.2.1) hs).symm

end Experiment

end Federation
