import Federation.Proofs.Round.Course
/-!
# The arrival of replies

Of every participant the first matching reply counts, and what counts is combined in the order of the
nodes. So neither the order in which the replies arrive nor what is heard besides them shows in a
completed round, except in the times that the replies took.
-/

namespace Federation

variable {R : Type}

/-! ## 1. Rounds that hear the same answers -/

/-- The round as another attempt of it. -/
def RoundContext.again (c : RoundContext R) (requestId : UInt64) : RoundContext R := { c with requestId }

/-- A summary without the time that the reply took. -/
def ReplySummary.untimed [Scalar R] (s : ReplySummary R) : ReplySummary R := { s with rtimeTotal := 0 }

/-- A completed round without the times that the replies took. -/
def CompletedRound.untimed [Scalar R] (r : CompletedRound R) : CompletedRound R :=
  { r with participants := r.participants.map fun _ p => p.untimed }

theorem CompletedRound.eq_of_untimed [Scalar R] {a b : CompletedRound R} (h : a.untimed = b.untimed) :
    ∃ participants, a = { b with participants } := by
  obtain ⟨_, _, _, participants, _⟩ := a
  obtain ⟨_, _, _, _, _⟩ := b
  simp only [untimed, CompletedRound.mk.injEq] at h
  obtain ⟨rfl, rfl, rfl, -, rfl⟩ := h
  exact ⟨participants, rfl⟩

namespace Collecting

/-- Another attempt of a round hears of every node the reply that the round heard, made to its own
request. -/
def AnswersAlike (c : RoundContext R) (l : Replies R) (requestId : UInt64) (l' : Replies R) : Prop :=
  ∀ node r t, firstMatch? c node l = some (r, t) →
    ∃ t', firstMatch? (c.again requestId) node l' = some ({ r with requestId }, t')

variable {c : RoundContext R} {requestId : UInt64} {l l' : Replies R}

theorem Complete.again (hc : Complete c l) (h : AnswersAlike c l requestId l') :
    Complete (c.again requestId) l' := by
  intro node hn
  obtain ⟨⟨r, t⟩, hfirst⟩ := Option.isSome_iff_exists.1 (hc node hn)
  obtain ⟨t', hfirst'⟩ := h node r t hfirst
  rw [hfirst']
  rfl

theorem Sound.again (hs : Sound c l) (hc : Complete c l) (h : AnswersAlike c l requestId l') :
    Sound (c.again requestId) l' := by
  intro node r' t' hfirst'
  have hn : node ∈ (c.again requestId).participants.keys := mem_participants_of_firstMatch? hfirst'
  obtain ⟨⟨r, t⟩, hfirst⟩ := Option.isSome_iff_exists.1 (hc node hn)
  obtain ⟨t'', hfirst''⟩ := h node r t hfirst
  rw [hfirst''] at hfirst'
  obtain ⟨rfl, rfl⟩ := Prod.mk.inj (Option.some.inj hfirst')
  have ha := hs node r t hfirst
  exact ⟨ha.valid, ha.success, ha.masked⟩

section

variable [Scalar R] (hc : Complete c l) (h : AnswersAlike c l requestId l')
include hc h

/-- What depends neither on the number of the attempt nor on the time is the same of both received
replies. -/
theorem received_again {β : Type} (g : WorkReply R → R → Option β)
    (hg : ∀ (r : WorkReply R) x x', g { r with requestId } x = g r x') (node : NodeId) :
    ((after (c.again requestId) l').received.find? node).bind (fun e => g e.1 e.2) =
      ((after c l).received.find? node).bind fun e => g e.1 e.2 := by
  rw [find?_received, find?_received]
  cases hfirst : firstMatch? c node l with
  | some e =>
    obtain ⟨t', hfirst'⟩ := h node e.1 e.2 hfirst
    rw [hfirst']
    exact hg e.1 _ _
  | none =>
    cases hfirst' : firstMatch? (c.again requestId) node l' with
    | none => rfl
    | some e =>
      have hn : node ∈ (c.again requestId).participants.keys :=
        mem_participants_of_firstMatch? hfirst'
      have hsome := hc node hn
      rw [hfirst] at hsome
      contradiction

/-- The order in which the replies were heard does not matter, as a map forgets it. -/
theorem filterMap_received_again {β : Type} (g : WorkReply R → Option β)
    (hg : ∀ r : WorkReply R, g { r with requestId } = g r) :
    (after (c.again requestId) l').received.filterMap (fun _ e => g e.1) =
      (after c l).received.filterMap fun _ e => g e.1 := by
  apply SortedMap.ext_find?
  intro node
  rw [SortedMap.find?_filterMap, SortedMap.find?_filterMap]
  exact received_again hc h (fun r _ => g r) (fun r _ _ => hg r) node

theorem map_received_again {β : Type} (g : WorkReply R → R → β)
    (hg : ∀ (r : WorkReply R) x x', g { r with requestId } x = g r x') :
    (after (c.again requestId) l').received.map (fun _ e => g e.1 e.2) =
      (after c l).received.map fun _ e => g e.1 e.2 := by
  apply SortedMap.ext_find?
  intro node
  rw [SortedMap.find?_map, SortedMap.find?_map, Option.map_eq_bind, Option.map_eq_bind]
  exact received_again hc h (fun r x => some (g r x)) (fun r x x' => congrArg some (hg r x x')) node

theorem stateIds_again :
    (after (c.again requestId) l').received.map (fun _ e => StateId.successor e.1.stateId) =
      (after c l).received.map fun _ e => StateId.successor e.1.stateId :=
  map_received_again hc h (fun r _ => StateId.successor r.stateId) fun _ _ _ => rfl

theorem aggregate_again :
    (after (c.again requestId) l').aggregate (c.again requestId) = (after c l).aggregate c := by
  have hplain := filterMap_received_again hc h plainUpdate fun _ => rfl
  have hmasked := filterMap_received_again hc h maskedVector fun _ => rfl
  have hkeys : (after (c.again requestId) l').received.keys = (after c l).received.keys := by
    have hids := congrArg SortedMap.keys (stateIds_again hc h)
    simpa only [SortedMap.keys_map] using hids
  have hsecagg : (c.again requestId).secagg = c.secagg := rfl
  rw [aggregate, aggregate, hplain, hmasked, hkeys, hsecagg]
  rfl

end

/-- Another attempt that hears alike answers ends with the same result, but for the times. -/
theorem complete_again [RootScalar R] (hc : Complete c l) (h : AnswersAlike c l requestId l') :
    ((after (c.again requestId) l').complete (c.again requestId)).map CompletedRound.untimed =
      ((after c l).complete c).map CompletedRound.untimed := by
  have hstep : ∀ p : Parameters R, (c.again requestId).optimizer.step (c.again requestId).global p =
      c.optimizer.step c.global p := fun _ => rfl
  have hsummaries := map_received_again hc h (fun r x => (summary r x).untimed) fun _ _ _ => rfl
  rw [complete, complete, aggregate_again hc h, stateIds_again hc h]
  cases (after c l).aggregate c with
  | error e => rfl
  | ok aggregated =>
    simp only [bind, Except.bind, hstep]
    cases c.optimizer.step c.global aggregated.global with
    | error e => rfl
    | ok result =>
      simp only [Except.mapError, Except.map, pure, Except.pure, CompletedRound.untimed,
        SortedMap.map_map]
      rw [hsummaries]
      rfl

theorem complete_again_of_ok [RootScalar R] {completed : CompletedRound R} (hc : Complete c l)
    (h : AnswersAlike c l requestId l') (hok : (after c l).complete c = .ok completed) :
    ∃ completed', (after (c.again requestId) l').complete (c.again requestId) = .ok completed' ∧
      completed'.untimed = completed.untimed := by
  have hsame := complete_again hc h
  rw [hok] at hsame
  exact map_eq_ok.1 hsame

/-! ## 2. What a round discards -/

/-- Why a round that has heard some replies discards the next one. -/
inductive Discards (c : RoundContext R) (l : Replies R) : Reply R → Prop where
  | setup (r : SetupReply) : Discards c l (.setup r)
  | foreign (r : WorkReply R) (h : r.experimentId ≠ c.experimentId) : Discards c l (.train r)
  | otherRound (r : WorkReply R) (h : r.roundNumber ≠ c.roundNumber) : Discards c l (.train r)
  | otherAttempt (r : WorkReply R) (h : r.requestId ≠ c.requestId) : Discards c l (.train r)
  | outsider (r : WorkReply R) (h : r.nodeId ∉ c.participants.keys) : Discards c l (.train r)
  | otherState (r : WorkReply R) (p : Participant R) (hp : c.participants.find? r.nodeId = some p)
    (h : r.stateId ≠ p.stateId) : Discards c l (.train r)
  -- A node that has replied may send anything.
  | repeated (r : WorkReply R) (h : (firstMatch? c r.nodeId l).isSome) : Discards c l (.train r)

theorem isMatching_eq_true {r : WorkReply R} :
    c.isMatching r = true ↔ r.experimentId = c.experimentId ∧ r.roundNumber = c.roundNumber ∧
      r.requestId = c.requestId ∧ ∃ p, c.participants.find? r.nodeId = some p ∧ p.stateId = r.stateId := by
  simp only [RoundContext.isMatching, Bool.and_eq_true, beq_iff_eq, Option.map_eq_some_iff, and_assoc]

/-- A discarded reply is not the first matching one of any node. -/
theorem matching?_of_discards {reply : Reply R} (h : Discards c l reply) {node : NodeId}
    {t : Duration} {e : WorkReply R × Duration} (hm : matching? c node (reply, t) = some e) :
    (firstMatch? c node l).isSome := by
  obtain ⟨heq, hmatch, rfl⟩ := matching?_eq_some (r := e.1) (t := e.2) hm
  obtain ⟨rfl, -⟩ := Prod.mk.inj heq
  obtain ⟨he, hr, ha, p, hp, hs⟩ := isMatching_eq_true.1 hmatch
  cases h with
  | foreign _ h => exact absurd he h
  | otherRound _ h => exact absurd hr h
  | otherAttempt _ h => exact absurd ha h
  | outsider _ h => exact absurd (SortedMap.mem_keys.2 ⟨p, hp⟩) h
  | otherState _ p' hp' h =>
    rw [hp] at hp'
    obtain rfl := Option.some.inj hp'
    exact absurd hs.symm h
  | repeated _ h => exact h

/-- A reply is discarded unless it is the first matching one of its node. -/
theorem not_discards_iff {r : WorkReply R} : ¬Discards c l (.train r) ↔
    c.isMatching r = true ∧ firstMatch? c r.nodeId l = none := by
  constructor
  · intro h
    have hfirst : firstMatch? c r.nodeId l = none := by
      rw [← Option.not_isSome_iff_eq_none]
      exact fun hs => h (.repeated r hs)
    refine ⟨isMatching_eq_true.2 ⟨?_, ?_, ?_, ?_⟩, hfirst⟩
    · exact not_not.1 fun hn => h (.foreign r hn)
    · exact not_not.1 fun hn => h (.otherRound r hn)
    · exact not_not.1 fun hn => h (.otherAttempt r hn)
    · obtain ⟨p, hp⟩ := SortedMap.mem_keys.1 (not_not.1 fun hn => h (.outsider r hn))
      exact ⟨p, hp, not_not.1 fun hn => h (.otherState r p hp (Ne.symm hn))⟩
  · rintro ⟨hm, hfirst⟩ h
    have hsome := matching?_of_discards (t := .zero) h (if_pos ⟨hm, rfl⟩)
    rw [hfirst] at hsome
    contradiction

theorem firstMatch?_append_of_discards {reply : Reply R} (h : Discards c l reply) (t : Duration)
    (node : NodeId) : firstMatch? c node (l ++ [(reply, t)]) = firstMatch? c node l := by
  rw [firstMatch?_append, firstMatch?_singleton]
  cases hm : matching? c node (reply, t) with
  | none => rw [Option.or_none]
  | some e =>
    obtain ⟨e', he'⟩ := Option.isSome_iff_exists.1 (matching?_of_discards h hm)
    rw [he', Option.some_or]

/-- A round stays as it is when it discards a reply. -/
theorem handle_of_discards [Scalar R] {reply : Reply R} (h : Discards c l reply) (t : Duration) :
    handle c (after c l) reply t = .ok (after c l) := by
  cases reply with
  | setup r => rfl
  | train r =>
    have hawaits : awaits c (after c l) r = false := by
      rw [awaits_after, Bool.and_eq_false_iff, ← Bool.not_eq_true, Option.isNone_eq_false_iff]
      by_cases hm : c.isMatching r = true
      · exact Or.inr (matching?_of_discards (t := t) h (if_pos ⟨hm, rfl⟩))
      · exact Or.inl hm
    rw [handle, hawaits]
    rfl

/-! ## 3. Order and noise -/

/-- Both lists have of every participant the same first matching reply, at whatever times. -/
def SameAnswers (c : RoundContext R) (l l' : Replies R) : Prop :=
  ∀ node ∈ c.participants.keys,
    (firstMatch? c node l).map Prod.fst = (firstMatch? c node l').map Prod.fst

/-- The replies `l` are the ones that count, in their order, with discarded ones in between. -/
inductive Interspersed (c : RoundContext R) : Replies R → Replies R → Prop where
  | nil : Interspersed c [] []
  | counted {counted l : Replies R} (h : Interspersed c counted l) (r : WorkReply R) (t : Duration)
    (hr : ¬Discards c l (.train r)) :
    Interspersed c (counted ++ [(.train r, t)]) (l ++ [(.train r, t)])
  | discarded {counted l : Replies R} (h : Interspersed c counted l) (reply : Reply R) (t : Duration)
    (hr : Discards c l reply) : Interspersed c counted (l ++ [(reply, t)])

/-- The replies that count are the first matching ones of their nodes. -/
theorem Interspersed.firstMatch?_iff {counted : Replies R} (h : Interspersed c counted l)
    (node : NodeId) (r : WorkReply R) :
    (firstMatch? c node l).map Prod.fst = some r ↔
      .train r ∈ counted.map Prod.fst ∧ r.nodeId = node := by
  induction h with
  | nil => simp [firstMatch?]
  | discarded h reply t hr ih => rw [firstMatch?_append_of_discards hr, ih]
  | counted h r' t hr ih =>
    obtain ⟨hm, hfirst⟩ := not_discards_iff.1 hr
    rw [firstMatch?_append, firstMatch?_singleton, List.map_append, List.mem_append]
    by_cases hn : r'.nodeId = node
    · subst hn
      -- no earlier reply counts for this node
      rw [hfirst] at ih ⊢
      rw [matching?, if_pos ⟨hm, rfl⟩, Option.none_or]
      constructor
      · intro h
        obtain rfl : r' = r := Option.some.inj h
        exact ⟨Or.inr List.mem_cons_self, rfl⟩
      · rintro ⟨hmem | hmem, hnode⟩
        · exact absurd (ih.2 ⟨hmem, hnode⟩) (by simp)
        · obtain rfl := Reply.train.inj (List.mem_singleton.1 hmem)
          rfl
    · rw [matching?, if_neg (fun h => hn h.2), Option.or_none, ih]
      constructor
      · rintro ⟨hmem, hnode⟩
        exact ⟨Or.inl hmem, hnode⟩
      · rintro ⟨hmem | hmem, hnode⟩
        · exact ⟨hmem, hnode⟩
        · obtain rfl := Reply.train.inj (List.mem_singleton.1 hmem)
          exact absurd hnode hn

/-- Neither the order of the replies that count nor discarded ones change what counts for a node. -/
theorem sameAnswers_of_perm {counted counted' : Replies R} (h : Interspersed c counted l)
    (h' : Interspersed c counted' l') (hp : (counted.map Prod.fst).Perm (counted'.map Prod.fst)) :
    SameAnswers c l l' := by
  intro node _
  apply Option.ext
  intro r
  rw [h.firstMatch?_iff, h'.firstMatch?_iff, hp.mem_iff]

/-- Equal answers are alike answers to the same attempt. -/
theorem SameAnswers.alike (h : SameAnswers c l l') : AnswersAlike c l c.requestId l' := by
  intro node r t hfirst
  have hsame := h node (mem_participants_of_firstMatch? hfirst)
  obtain ⟨-, hm, -⟩ := firstMatch?_eq_some hfirst
  obtain ⟨-, -, hid, -⟩ := isMatching_eq_true.1 hm
  rw [hfirst] at hsame
  obtain ⟨⟨r', t'⟩, hfirst', rfl⟩ := Option.map_eq_some_iff.1 hsame.symm
  refine ⟨t', hfirst'.trans ?_⟩
  rw [← hid]

end Collecting

/-! ## 4. Completed rounds -/

/-- A round that completes announces its new global parameters. -/
theorem RoundContext.published_of_completed [RootScalar R] {σ : Type} {link : Link R σ}
    {c : RoundContext R} {world : σ} {completed : CompletedRound R}
    (h : (c.run link world).1.result = .ok completed) :
    (c.run link world).1.published = [.phase .created, .phase .requestsSent, .phase .collecting,
      .phase .complete, .model (some completed.aggregated.global)] := by
  have hrun := course_run link c world
  generalize c.run link world = outcome at h hrun ⊢
  generalize c.hears? link world = hears at hrun
  cases hrun with
  | closed => simp [RoundOutcome.failed] at h
  | undelivered => simp [RoundOutcome.failed] at h
  | listening world₁ world₂ =>
    have hcollect := collected_collect link c world₂
    generalize Collecting.run c _ _ _ = taken at hcollect
    generalize c.collect link world₂ = outcome at h hcollect ⊢
    cases hcollect with
    | abandoned n => simp at h
    | failed e n => simp [RoundOutcome.failed] at h
    | uncombined s e n hs => simp [RoundOutcome.failed] at h
    | completed s completed' n hs =>
      obtain rfl := Except.ok.inj h
      rfl

open Collecting in
/-- Two runs of a round which hear of every participant the same first matching reply complete alike:
if one completes then so does the other, with the same result but for the times of the replies. What
is heard is the same in this sense if it differs only in the order of the replies that count and in
the replies that are discarded, each of which leaves the round as it is. -/
theorem completed_round_ignores_arrival [RootScalar R] (c : RoundContext R) :
    (∀ {σ σ' : Type} (link : Link R σ) (link' : Link R σ') (world : σ) (world' : σ')
        (replies replies' : Replies R) (completed : CompletedRound R),
      c.hears? link world = some replies → c.hears? link' world' = some replies' →
      SameAnswers c replies replies' → (c.run link world).1.result = .ok completed →
      ∃ completed', (c.run link' world').1.result = .ok completed' ∧
        completed'.untimed = completed.untimed ∧
        (c.run link' world').1.published = (c.run link world).1.published) ∧
      (∀ counted counted' replies replies' : Replies R, Interspersed c counted replies →
        Interspersed c counted' replies' → (counted.map Prod.fst).Perm (counted'.map Prod.fst) →
        SameAnswers c replies replies') ∧
      ∀ (heard : Replies R) (reply : Reply R) (t : Duration), Discards c heard reply →
        handle c (after c heard) reply t = .ok (after c heard) := by
  refine ⟨?_, fun _ _ _ _ => sameAnswers_of_perm, fun _ _ t h => handle_of_discards h t⟩
  intro σ σ' link link' world world' replies replies' completed hhears hhears' hsame hok
  obtain ⟨replies₀, hhears₀, hs, hc, hcombined⟩ :=
    (RoundContext.run_result_eq_ok link c world completed).1 hok
  obtain rfl : replies = replies₀ := Option.some.inj (hhears.symm.trans hhears₀)
  obtain ⟨completed', hcombined', huntimed⟩ := complete_again_of_ok hc hsame.alike hcombined
  have hok' := (RoundContext.run_result_eq_ok link' c world' completed').2
    ⟨replies', hhears', hs.again hc hsame.alike, hc.again hsame.alike, hcombined'⟩
  refine ⟨completed', hok', huntimed, ?_⟩
  rw [RoundContext.published_of_completed hok, RoundContext.published_of_completed hok']
  obtain ⟨participants, rfl⟩ := CompletedRound.eq_of_untimed huntimed
  rfl

/-- A link over which some replies are heard before the deadline. -/
def hearingLink (replies : Replies ℚ) : Link ℚ Unit where
  send _ world := (none, world)
  watch _ _ := ⟨replies.map observation, .deadline⟩
  advance _ _ world := world
  purge world := (true, world)
  arm world := world

/-- The replies of both nodes. -/
def promptReplies : Replies ℚ :=
  [(.train (pairReply 7 "left" 1), .zero), (.train (pairReply 7 "right" 3), .zero)]

/-- The replies of both nodes, the later one first, among replies that do not count. -/
def noisyReplies : Replies ℚ :=
  [(.train (pairReply 6 "left" 5), .zero), (.train (pairReply 7 "right" 3), .zero),
    (.train (pairReply 7 "right" 9), .zero), (.train (pairReply 7 "left" 1), .ofSeconds 2)]

open Collecting in
theorem interspersed_promptReplies : Interspersed (pairRound 7) promptReplies promptReplies := by
  have hleft := Interspersed.nil.counted (pairReply 7 "left" 1) .zero
    (not_discards_iff (c := pairRound 7).2 ⟨rfl, rfl⟩)
  exact hleft.counted (pairReply 7 "right" 3) .zero (not_discards_iff.2 ⟨rfl, rfl⟩)

open Collecting in
theorem interspersed_noisyReplies : Interspersed (pairRound 7)
    [(.train (pairReply 7 "right" 3), .zero), (.train (pairReply 7 "left" 1), .ofSeconds 2)]
    noisyReplies := by
  have hattempt := Interspersed.nil.discarded (c := pairRound 7) (.train (pairReply 6 "left" 5)) .zero
    (.otherAttempt _ (by decide))
  have hright := hattempt.counted (pairReply 7 "right" 3) .zero (not_discards_iff.2 ⟨rfl, rfl⟩)
  have hagain := hright.discarded (.train (pairReply 7 "right" 9)) .zero (.repeated _ rfl)
  exact hagain.counted (pairReply 7 "left" 1) (.ofSeconds 2) (not_discards_iff.2 ⟨rfl, rfl⟩)

theorem completed_round_ignores_arrival_noisy :
    ∃ completed completed',
      ((pairRound 7).run (hearingLink promptReplies) ()).1.result = .ok completed ∧
        ((pairRound 7).run (hearingLink noisyReplies) ()).1.result = .ok completed' ∧
        completed'.untimed = completed.untimed := by
  have hok : ((pairRound 7).run (hearingLink promptReplies) ()).1.result.isOk = true := by
    decide +kernel
  rcases hrun : ((pairRound 7).run (hearingLink promptReplies) ()).1.result with stop | completed
  · rw [hrun] at hok
    contradiction
  · obtain ⟨hcomplete, hrearranged, -⟩ := completed_round_ignores_arrival (pairRound 7)
    have hsame := hrearranged _ _ _ _ interspersed_promptReplies interspersed_noisyReplies (.swap _ _ _)
    obtain ⟨completed', hrun', huntimed, -⟩ := hcomplete (hearingLink promptReplies)
      (hearingLink noisyReplies) () () _ _ completed rfl rfl hsame hrun
    exact ⟨completed, completed', rfl, hrun', huntimed⟩

end Federation
