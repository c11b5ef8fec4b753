import Federation.Proofs.Experiment.Cancellation
import Federation.Proofs.Secagg.Doubles
import Federation.Proofs.Secagg.Setup
/-!
# The parties of a secure round

In every secure round that an experiment runs, the parties of the session, the nodes that are asked, the
parties that are named to them and the nodes whose replies are aggregated are the same.
-/

namespace Federation

variable {R σ : Type}

/-! ## 1. Collected vectors -/

namespace Collecting

/-- The masked vectors that were received, with their weights. -/
def maskedVectors (s : Collecting R) : NameMap (MaskedVector × UInt64) :=
  s.received.filterMap fun _ e => maskedVector e.1

variable [Scalar R] {c : RoundContext R} {l : Replies R}

theorem keys_received_of_complete (h : Complete c l) :
    (after c l).received.keys = c.participants.keys := by
  have hkeys : (after c l).received.keys =
      c.participants.keys.filter fun node => (firstMatch? c node l).isSome := by
    apply SortedMap.keys_filterMap
    intro node p
    exact Option.isSome_map
  rw [hkeys, List.filter_eq_self.2 h]

/-- In a secure round every reply that counts is masked. -/
theorem keys_maskedVectors (h : Sound c l) (hsecure : c.secagg.isSome = true) :
    (after c l).maskedVectors.keys = (after c l).received.keys := by
  refine SortedMap.keys_filterMap_of_isSome fun node e he => ?_
  rw [find?_received, Option.map_eq_some_iff] at he
  obtain ⟨⟨reply, t⟩, hfirst, rfl⟩ := he
  obtain ⟨v, hv⟩ := (h node reply t hfirst).masked.2 hsecure
  rw [maskedVector, hv]
  rfl

/-- Replies are collected once all are there and acceptable. -/
theorem after_of_run {ending : Ending} {observed : List (Observation R)} {s : Collecting R} {n : Nat}
    (h : run c ending observed (start c) = (.ok s, n)) :
    ∃ replies, Sound c replies ∧ Complete c replies ∧ s = after c replies := by
  have hrun := run_ofObservations c ending observed (start c)
  rw [h] at hrun
  exact ⟨_, outcome_eq_ok.1 hrun⟩

end Collecting

/-! ## 2. Prepared rounds -/

namespace Experiment

variable (s : Surroundings R σ)

/-- A setup gives a session of the selected nodes, whether an old one is used again or a new one is
joined. -/
theorem parties_of_setupOf {x : Experiment R} {selected : NameSet} {world world' : σ}
    {session : SecaggSession} {secagg : SecureAggregation R}
    (h : setupOf s x selected world = (.ok session, secagg, world')) :
    session.parties = selected.keys := by
  have hset := setUp_setup s.link x.secagg x.researcherId x.experimentId (s.drawName world).1 selected
    (s.drawName world).2
  rw [setupOf] at h
  rw [h] at hset
  cases hset with
  | reused _ hr =>
    exact (Invitation.reusable?_eq_some (i := ⟨x.experimentId, "", selected⟩).1 hr).2
  | joined => rfl

/-- A secure experiment prepares a round for a session of the selected nodes. -/
theorem parties_of_prepareSecagg {x y : Experiment R} {selected : NameSet} {world world' : σ}
    {secagg : Option (SecaggRound R)}
    (h : x.prepareSecagg s selected world = (.ok secagg, y, world')) :
    secagg.isSome = x.secagg.enabled ∧ ∀ r, secagg = some r → r.session.parties = selected.keys := by
  cases he : x.secagg.enabled with
  | false =>
    rw [prepareSecagg_of_disabled s he] at h
    obtain rfl := Except.ok.inj (Prod.mk.inj h).1
    exact ⟨rfl, nofun⟩
  | true =>
    have hsecured := secured_prepareSecagg s x selected world
    rw [h] at hsecured
    cases hsecured with
    | plain hoff =>
      rw [he] at hoff
      contradiction
    | secure session secagg world₂ hs =>
      refine ⟨rfl, fun r hr => ?_⟩
      obtain rfl := Option.some.inj hr
      exact parties_of_setupOf s hs

/-- The session of a secure round is one of its participants. -/
theorem parties_of_prepares [Scalar R] {x y : Experiment R} {world world' : σ} {c : RoundContext R}
    (h : x.Prepares s world c y world') : c.secagg.isSome = x.secagg.enabled ∧
      ∀ r, c.secagg = some r → r.session.parties = c.participants.keys := by
  obtain ⟨x₁, selected, hr, hp⟩ := h
  obtain ⟨-, rfl⟩ := checkData_eq_ok.1 hr.checked
  obtain ⟨secagg, world₁, participants, hsec, hparts, rfl, -⟩ := prepareRound_eq_ok s hp
  obtain ⟨hsecure, hparties⟩ := parties_of_prepareSecagg s hsec
  exact ⟨hsecure, fun r hr => (hparties r hr).trans (keys_of_participants hparts).symm⟩

end Experiment

/-! ## 3. Secure rounds -/

/-- From the requests of a secure round to its result, there is one set of parties. -/
structure RoundContext.SameParties [RootScalar R] (c : RoundContext R) (r : SecaggRound R)
    (l : Link R σ) (world : σ) : Prop where
  participants : c.participants.keys = r.session.parties
  addressed : c.requests.map Request.nodeId = r.session.parties
  named : ∀ q ∈ c.requests, ∃ w a, q = .train w ∧ w.secagg = some a ∧ a.parties = r.session.parties
  -- Whatever is observed, the round aggregates the vectors of the parties or none.
  collected : ∀ ending observed collected n,
    Collecting.run c ending observed (.start c) = (.ok collected, n) →
      collected.received.keys = r.session.parties ∧ collected.maskedVectors.keys = r.session.parties ∧
      collected.aggregate c = (do
        let mean ← (r.aggregate collected.maskedVectors c.global).mapError .secureAggregation
        (c.aggregator.aggregateSecure mean r.session.parties c.nodeStates).mapError .aggregation)
  completed : ∀ completed, (c.run l world).1.result = .ok completed →
    completed.participants.keys = r.session.parties ∧
      ∃ masked mean, masked.keys = r.session.parties ∧ r.aggregate masked c.global = .ok mean

section

variable [RootScalar R] {c : RoundContext R} {r : SecaggRound R}

theorem Collecting.aggregate_of_secagg (h : c.secagg = some r) (s : Collecting R) :
    s.aggregate c = (do
      let mean ← (r.aggregate s.maskedVectors c.global).mapError .secureAggregation
      (c.aggregator.aggregateSecure mean s.received.keys c.nodeStates).mapError .aggregation) := by
  rw [aggregate, h]
  rfl

theorem RoundContext.sameParties (hsecagg : c.secagg = some r)
    (hparties : r.session.parties = c.participants.keys) (l : Link R σ) (world : σ) :
    c.SameParties r l world := by
  have hsecure : c.secagg.isSome = true := by rw [hsecagg]; rfl
  have hkeys : ∀ {replies}, Collecting.Sound c replies → Collecting.Complete c replies →
      (Collecting.after c replies).received.keys = r.session.parties ∧
        (Collecting.after c replies).maskedVectors.keys = r.session.parties := by
    intro replies hs hc
    have hreceived := (Collecting.keys_received_of_complete hc).trans hparties.symm
    exact ⟨hreceived, (Collecting.keys_maskedVectors hs hsecure).trans hreceived⟩
  refine ⟨hparties.symm, ?_, fun q hq => ?_, fun ending observed collected n h => ?_,
    fun completed h => ?_⟩
  · rw [hparties, requests, List.map_map]
    rfl
  · obtain ⟨⟨node, p⟩, -, rfl⟩ := List.mem_map.1 hq
    exact ⟨_, r.arguments, rfl, congrArg (Option.map SecaggRound.arguments) hsecagg, rfl⟩
  · obtain ⟨replies, hs, hc, rfl⟩ := Collecting.after_of_run h
    obtain ⟨hreceived, hmasked⟩ := hkeys hs hc
    refine ⟨hreceived, hmasked, ?_⟩
    rw [Collecting.aggregate_of_secagg hsecagg, hreceived]
  · obtain ⟨replies, -, hs, hc, hcomplete⟩ := (run_result_eq_ok l c world completed).1 h
    obtain ⟨hreceived, hmasked⟩ := hkeys hs hc
    obtain ⟨aggregated, global, optimizer, haggregate, -, rfl⟩ := Collecting.complete_eq_ok.1 hcomplete
    rw [Collecting.aggregate_of_secagg hsecagg] at haggregate
    obtain ⟨mean, hmean, -⟩ := bind_eq_ok.1 haggregate
    exact ⟨(SortedMap.keys_map _ _).trans hreceived, _, mean, hmasked, mapError_eq_ok.1 hmean⟩

end

/-- A secure round gives a result only for one vector of each party and of nobody else, which all fit the
layout and whose weight can be divided by, and the result is their mean. As long as its random value is
defined, the round answers with the verdict: with the mean if the verification element is within the
tolerance, and else with the first thing that hinders it. In every secure round of an experiment, the
parties of the session, those that are named in the requests, and the nodes whose replies are aggregated
are the same. -/
theorem secure_result_needs_exact_parties [RootScalar R] :
    (∀ (r : SecaggRound Float) masked layout p, r.aggregate masked layout = .ok p →
      r.Unmaskable masked layout ∧ r.IsMean masked layout p) ∧
    (∀ (r : SecaggRound Float) masked layout result, r.random.isNaN = false →
      (r.aggregate masked layout = result ↔ r.Verdict masked layout result)) ∧
    ∀ {σ : Type} (s : Surroundings R σ) {x y : Experiment R} {c : RoundContext R} {world world' : σ},
      x.Prepares s world c y world' →
      c.secagg.isSome = x.secagg.enabled ∧ ∀ r, c.secagg = some r → c.SameParties r s.link world' := by
  refine ⟨fun r masked layout p h => SecaggRound.of_aggregate_eq_ok h, fun r masked layout result h => ?_,
    fun s _ _ c _ world' h => ?_⟩
  · exact SecaggRound.aggregate_eq_iff fun hu => SecaggRound.not_tolerance_lt_iff h hu
  obtain ⟨hsecure, hparties⟩ := Experiment.parties_of_prepares s h
  exact ⟨hsecure, fun r hr => RoundContext.sameParties hr (hparties r hr) s.link world'⟩

/-! ## 4. A round of two parties -/

/-- The vectors of the two parties of a round, for the values `1/4` and `-5` of weight one and the values
`1` and `1` of weight two. -/
def maskedPairVector (i : NodeId) : MaskedVector :=
  if i = "a" then ⟨[3076147563118249904, 2610545325039433085, 10141057539522990233]⟩
  else ⟨[15370596510593661008, 15836198748669069955, 8305686534188134247]⟩

def maskedPairWeight (i : NodeId) : UInt64 := UInt64.ofNat i.length

/-- What the round receives. -/
def maskedPairReceived : NameMap (MaskedVector × UInt64) :=
  SecaggRound.received ["a", "bb"] maskedPairVector maskedPairWeight

/-- A round of the two parties with a given random value. -/
def maskedPairDoubles (random : Float) : SecaggRound Float where
  session := maskedPairRound.session
  config := .standard
  nonce := 7
  random := random

def maskedPairLayout : Parameters Float := ⟨.ofList [("layer", [0.0, 0.0])]⟩

theorem unmaskable_maskedPair (random : Float) :
    (maskedPairDoubles random).Unmaskable maskedPairReceived maskedPairLayout where
  parties _ := SecaggRound.mem_keys_received
  addable := ⟨by decide, by decide⟩
  positive := by decide
  bounded := (by decide +kernel : SecaggRound.weightOf maskedPairReceived.toList ≤
    MaskConfig.standard.maxTotalWeight.toNat)

/-- With an undefined random value the mean is given out, though the verification element is not within the
tolerance. -/
theorem mean_passes_undefined_random_value :
    (∃ p, (maskedPairDoubles Float.nan).aggregate maskedPairReceived maskedPairLayout = .ok p) ∧
      ¬(maskedPairDoubles Float.nan).deviation maskedPairReceived maskedPairLayout ≤
        (maskedPairDoubles Float.nan).tolerance := by
  obtain ⟨p, -, hp⟩ := (maskedPairDoubles Float.nan).exists_isMean maskedPairReceived maskedPairLayout
  exact ⟨⟨p, SecaggRound.aggregate_of_isNaN (by decide +kernel) (unmaskable_maskedPair _) hp⟩,
    by decide +kernel⟩

/-- Both parties train in a secure round: they join the session, and then they send their vectors. -/
def maskedPairReplies (joined : Bool) : List (Reply ℚ) :=
  ["a", "bb"].map fun i =>
    if joined then
      .train { pairReply 7 i 0 with
        params := some (.masked (maskedPairVector i)), sampleCount := maskedPairWeight i }
    else .setup ⟨"experiment", "session", i, true, some (maskedPairKeys i).publicKey, none⟩

def maskedPairSurroundings : Surroundings ℚ Bool where
  link :=
    { send := fun _ joined => (none, joined)
      watch := fun _ joined => ⟨(maskedPairReplies joined).map fun r => .reply r .zero, .deadline⟩
      advance := fun _ _ _ => true
      purge := fun joined => (true, joined)
      arm := id }
  drawName joined := ("session", joined)
  drawWord joined := (7, joined)
  drawFraction joined := (1 / 2, joined)
  now _ := ⟨0, 0⟩
  save _ joined := (.error .unreadable, joined)
  prepare joined := (.ok (), joined)

def maskedPairExperiment : Experiment ℚ :=
  { pairExperiment with
    dataset := ⟨.ofList (["a", "bb"].map fun i => (i, .ofMetadata i sampleData))⟩
    secagg := ⟨true, ⟨3, 20⟩, .zero, none⟩
    initialParams := .ofLayers [("layer", [0, 0])]
    global := .ofLayers [("layer", [0, 0])] }

/-- The vectors are what the parties make of their values, the round adds them up and unmasks the mean, and
an experiment runs the same round of the same parties. -/
theorem secure_result_needs_exact_parties_pair :
    (maskedPairDoubles 0.5).arguments.mask "a" (maskedPairKeys "a") 1 [0.25, -5.0] =
        .ok (maskedPairVector "a") ∧
      (maskedPairDoubles 0.5).arguments.mask "bb" (maskedPairKeys "bb") 2 [1.0, 1.0] =
        .ok (maskedPairVector "bb") ∧
      (∃ p, (maskedPairDoubles 0.5).aggregate maskedPairReceived maskedPairLayout = .ok p ∧
        p.layout = maskedPairLayout.layout ∧ p.flatten = [0.75, -1.0 / 3.0]) ∧
      ∃ c y world, maskedPairExperiment.Prepares maskedPairSurroundings false c y world ∧
        c.secagg = some maskedPairRound ∧
        ∃ completed, (c.run maskedPairSurroundings.link world).1.result = .ok completed ∧
          completed.participants.keys = ["a", "bb"] := by
  obtain ⟨hsound, hverdict, hprepared⟩ := secure_result_needs_exact_parties (R := ℚ)
  refine ⟨by decide +kernel, by decide +kernel, ?_, ?_⟩
  · obtain ⟨p, -, hp⟩ := (maskedPairDoubles 0.5).exists_isMean maskedPairReceived maskedPairLayout
    have hclose : (maskedPairDoubles 0.5).deviation maskedPairReceived maskedPairLayout ≤
        (maskedPairDoubles 0.5).tolerance := by decide +kernel
    have hok := (hverdict (maskedPairDoubles 0.5) _ _ (.ok p) (by decide +kernel)).2
      (.mean (unmaskable_maskedPair 0.5) hclose p hp)
    obtain ⟨-, hmean⟩ := hsound _ _ _ p hok
    refine ⟨p, hok, hmean.layout_eq, hmean.flatten_eq.trans ?_⟩
    decide +kernel
  · obtain ⟨c, y, world, hp, hr, hok⟩ : ∃ c y world,
        maskedPairExperiment.Prepares maskedPairSurroundings false c y world ∧
          c.secagg = some maskedPairRound ∧
          (c.run maskedPairSurroundings.link world).1.result.isOk = true :=
      ⟨_, _, _, ⟨{ maskedPairExperiment with dataChecked := true }, .setOf ["a", "bb"], ⟨rfl, rfl, rfl⟩,
        rfl⟩, rfl, by decide +kernel⟩
    have hsame := (hprepared _ hp).2 maskedPairRound hr
    cases hresult : (c.run maskedPairSurroundings.link world).1.result with
    | error stop =>
      rw [hresult] at hok
      contradiction
    | ok completed => exact ⟨c, y, world, hp, hr, completed, hresult, (hsame.completed completed hresult).1⟩

end Federation
