import Federation.Proofs.Experiment.History
import Federation.Proofs.Experiment.Retry
import Federation.Proofs.Round.Taken
import Federation.Round.Channels
/-!
# Cancelled rounds

A round can be cancelled at any instant by anybody. Its listener is armed when the round begins to
create its requests, and whenever the round then looks for a reply it looks for a cancellation first. So
a cancellation since the arming fails the round as long as a reply is missing, and one before the arming
has no effect. The setup of a session comes before the arming: a cancellation in its course is lost.
-/

namespace Federation

variable {R σ : Type}

/-! ## 1. Looks -/

/-- What a controller that waits finds when it looks up: how often the round was cancelled so far, and
what is ready besides. -/
structure Look (R : Type) where
  cancellation : Cancellation := {}
  expired : Bool := false
  arrival : Arrival R := .nothing

/-- What a look means to a listener that was armed after so many cancellations. -/
def Look.moment (armed : Nat) (k : Look R) : Moment R where
  cancelled := k.cancellation.stops armed
  expired := k.expired
  arrival := k.arrival

/-- What can be observed in the course of some looks. Whether a cancellation ends the wait is up to the
controller, so what follows it is listed as well. -/
def Watch.ofLooks (armed : Nat) : List (Look R) → Watch R
  | [] => ⟨[], .abandoned⟩
  | k :: rest =>
    let cancelled := if k.cancellation.stops armed then [.cancelled] else []
    if k.expired then ⟨cancelled, .deadline⟩
    else
      match k.arrival with
      | .nothing => ⟨cancelled ++ (ofLooks armed rest).observed, (ofLooks armed rest).ending⟩
      | .reply r t =>
        ⟨cancelled ++ .reply r t :: (ofLooks armed rest).observed, (ofLooks armed rest).ending⟩
      | .closed => ⟨cancelled ++ [.closed], .abandoned⟩

/-- A round that waits heeds cancellations, so it takes from looks what it takes from their moments. -/
theorem Collecting.run_ofLooks [Scalar R] (c : RoundContext R) (armed : Nat) (looks : List (Look R))
    (state : Collecting R) :
    (run c (Watch.ofLooks armed looks).ending (Watch.ofLooks armed looks).observed state).1 =
      (run c (Watch.ofMoments (looks.map (Look.moment armed))).ending
        (Watch.ofMoments (looks.map (Look.moment armed))).observed state).1 := by
  induction looks generalizing state with
  | nil => rfl
  | cons k rest ih =>
    cases hp : state.pending.isEmpty with
    | true => rw [run_of_isEmpty hp, run_of_isEmpty hp]
    | false =>
      obtain ⟨cancellation, expired, arrival⟩ := k
      cases hc : cancellation.stops armed with
      | true =>
        -- whatever is listed after the cancellation is not taken
        have hmoments : Watch.ofMoments ((⟨cancellation, expired, arrival⟩ :: rest).map
            (Look.moment armed)) = ⟨[.cancelled], .abandoned⟩ := if_pos hc
        have hlooks : ∃ l, (Watch.ofLooks armed (⟨cancellation, expired, arrival⟩ :: rest)).observed =
            .cancelled :: l := by
          cases expired <;> cases arrival <;> simp [Watch.ofLooks, hc]
        obtain ⟨l, hl⟩ := hlooks
        rw [hmoments, hl, run_cancelled hp, run_cancelled hp]
      | false =>
        cases expired with
        | true => simp [Watch.ofLooks, Watch.ofMoments, Look.moment, hc]
        | false =>
          cases arrival with
          | nothing => simpa [Watch.ofLooks, Watch.ofMoments, Look.moment, hc] using ih state
          | closed => simp [Watch.ofLooks, Watch.ofMoments, Look.moment, hc]
          | reply r t =>
            simp only [Watch.ofLooks, Watch.ofMoments, Look.moment, hc, List.map_cons,
              Bool.false_eq_true, if_false, List.nil_append]
            cases hr : handle c state r t with
            | error e => rw [run_reply_error hp c _ _ hr, run_reply_error hp c _ _ hr]
            | ok state' =>
              rw [run_reply_ok hp c _ _ hr, run_reply_ok hp c _ _ hr]
              exact ih state'

/-! ## 2. Surroundings in which rounds are cancelled -/

/-- Surroundings in which a round may be cancelled at any instant: at every step they may count further
cancellations, and the listener keeps the count at which it was armed last. -/
structure Cancellable (s : Surroundings R σ) where
  cancellation : σ → Cancellation
  -- The count at which the listener was armed last.
  armed : σ → Nat
  looks : Duration → σ → List (Look R)
  watch : ∀ t world, s.link.watch t world = Watch.ofLooks (armed world) (looks t world)
  armed_arm : ∀ world, armed (s.link.arm world) = (cancellation world).count
  armed_purge : ∀ world, armed (s.link.purge world).2 = armed world
  armed_send : ∀ q world, armed (s.link.send q world).2 = armed world
  count_arm : ∀ world, (cancellation world).count ≤ (cancellation (s.link.arm world)).count
  count_purge : ∀ world, (cancellation world).count ≤ (cancellation (s.link.purge world).2).count
  count_send : ∀ q world, (cancellation world).count ≤ (cancellation (s.link.send q world).2).count
  count_look : ∀ t world, ∀ k ∈ looks t world, (cancellation world).count ≤ k.cancellation.count

/-- A round that begins in `world` waits from `world'` on. -/
def RoundContext.Waits (l : Link R σ) (c : RoundContext R) (world world' : σ) : Prop :=
  ∃ world₁, l.purge (l.arm world) = (true, world₁) ∧ l.broadcast c.requests world₁ = (none, world')

namespace Cancellable

variable {s : Surroundings R σ} (k : Cancellable s)

theorem sendAll (l : List (Request R)) (world : σ) :
    k.armed (s.link.sendAll l world).2 = k.armed world ∧
      (k.cancellation world).count ≤ (k.cancellation (s.link.sendAll l world).2).count := by
  induction l generalizing world with
  | nil => exact ⟨rfl, Nat.le_refl _⟩
  | cons q l ih =>
    obtain ⟨harmed, hcount⟩ := ih (s.link.send q world).2
    exact ⟨harmed.trans (k.armed_send q world), (k.count_send q world).trans hcount⟩

/-- While a round waits its listener is armed at the count at which the round began. -/
theorem armed_of_waits {c : RoundContext R} {world world' : σ} (h : c.Waits s.link world world') :
    k.armed world' = (k.cancellation world).count ∧
      (k.cancellation world).count ≤ (k.cancellation world').count := by
  obtain ⟨world₁, hp, hs⟩ := h
  have hsent : (s.link.sendAll c.requests world₁).2 = world' := congrArg Prod.snd hs
  obtain ⟨harmed, hcount⟩ := k.sendAll c.requests world₁
  rw [hsent] at harmed hcount
  have hpurge : (s.link.purge (s.link.arm world)).2 = world₁ := by rw [hp]
  have harmed₁ := k.armed_purge (s.link.arm world)
  have hcount₁ := k.count_purge (s.link.arm world)
  rw [hpurge] at harmed₁ hcount₁
  exact ⟨harmed.trans (harmed₁.trans (k.armed_arm world)),
    (k.count_arm world).trans (hcount₁.trans hcount)⟩

/-- The moments of a round that waits. -/
def moments (c : RoundContext R) (world world' : σ) : List (Moment R) :=
  (k.looks c.timeout world').map (Look.moment (k.cancellation world).count)

/-- A round that begins in `world` is cancelled in time if it never waits, or if it is cancelled while it
creates or sends its requests, or if it waits and a look before which a reply was missing finds a
cancellation since the beginning. -/
def CancelsInTime (c : RoundContext R) (world : σ) : Prop :=
  ∀ world', c.Waits s.link world world' →
    (k.cancellation world).count < (k.cancellation world').count ∨
      ∃ before look rest, k.looks c.timeout world' = before ++ look :: rest ∧
        ¬Collecting.Complete c (heard (before.map (Look.moment (k.cancellation world).count))) ∧
        (k.cancellation world).count < look.cancellation.count

/-- While the round waits it finds a cancellation since its beginning. -/
def FindsCancellation (c : RoundContext R) (world : σ) : Prop :=
  ∃ world', c.Waits s.link world world' ∧
    ∃ look ∈ k.looks c.timeout world', (k.cancellation world).count < look.cancellation.count

/-! ## 3. The round -/

theorem cancelled_iff {look : Look R} {armed : Nat} (h : armed ≤ look.cancellation.count) :
    (look.moment armed).cancelled = true ↔ armed < look.cancellation.count := by
  simp only [Look.moment, Cancellation.stops, bne_iff_ne]
  omega

/-- What is heard before a look that finds a cancellation is all that is heard. -/
theorem heard_of_split {c : RoundContext R} {world world' : σ} {before rest : List (Look R)}
    (hlooks : k.looks c.timeout world' = before ++ rest)
    (h : ∀ look ∈ rest.head?, (look.moment (k.cancellation world).count).cancelled = true) :
    heard (k.moments c world world') =
      heard (before.map (Look.moment (k.cancellation world).count)) := by
  rw [moments, hlooks, List.map_append]
  apply heard_append_of_cancelled
  intro m hm
  rw [List.head?_map] at hm
  obtain ⟨look, hlook, rfl⟩ := Option.map_eq_some_iff.1 hm
  exact h look hlook

/-- A round that is cancelled in time does not hear all its participants. -/
theorem incomplete_of_cancelsInTime {c : RoundContext R} {world world' : σ}
    (hsome : ¬Collecting.Complete c []) (hcancel : k.CancelsInTime c world)
    (h : c.Waits s.link world world') :
    ¬Collecting.Complete c (heard (k.moments c world world')) := by
  have hlook : ∀ look ∈ k.looks c.timeout world', (k.cancellation world).count ≤
      look.cancellation.count := fun look hm =>
    (k.armed_of_waits h).2.trans (k.count_look c.timeout world' look hm)
  rcases hcancel world' h with hearlier | ⟨before, look, rest, hlooks, hmissing, hcount⟩
  · -- the first look finds the cancellation
    have hlooks : k.looks c.timeout world' = [] ++ k.looks c.timeout world' := rfl
    rw [k.heard_of_split hlooks]
    · exact hsome
    · intro look hm
      have hmem := List.mem_of_head? hm
      exact (cancelled_iff (hlook look hmem)).2
        (Nat.lt_of_lt_of_le hearlier (k.count_look c.timeout world' look hmem))
  · rw [k.heard_of_split hlooks]
    · exact hmissing
    · intro look' hm
      obtain rfl : look = look' := Option.some.inj hm
      exact (cancelled_iff (Nat.le_of_lt hcount)).2 hcount

variable [RootScalar R]

/-- A round that waits does with its moments what a round does. -/
theorem collect_result {c : RoundContext R} {world world' : σ} (h : c.Waits s.link world world') :
    (c.collect s.link world').1.result =
      (Collecting.outcome c (k.moments c world world')).bind fun state =>
        (state.complete c).mapError .failed := by
  rw [RoundContext.collect_result, k.watch, Collecting.run_ofLooks, (k.armed_of_waits h).1]
  rfl

/-- A round that is cancelled in time fails. -/
theorem run_of_cancelsInTime {c : RoundContext R} {world : σ} (hsome : ¬Collecting.Complete c [])
    (hcancel : k.CancelsInTime c world) : ∃ stop, (c.run s.link world).1.result = .error stop := by
  have hcourse := RoundContext.course_run s.link c world
  generalize c.run s.link world = outcome at hcourse ⊢
  generalize c.hears? s.link world = hears at hcourse
  cases hcourse with
  | closed => exact ⟨_, rfl⟩
  | undelivered => exact ⟨_, rfl⟩
  | listening world₁ world₂ hp hs =>
    have hwaits : c.Waits s.link world world₂ := ⟨world₁, hp, hs⟩
    rw [k.collect_result hwaits]
    cases ho : Collecting.outcome c (k.moments c world world₂) with
    | error stop => exact ⟨stop, rfl⟩
    | ok state =>
      exact absurd (Collecting.outcome_eq_ok.1 ho).2.1
        (k.incomplete_of_cancelsInTime hsome hcancel hwaits)

/-- A round fails as cancelled only if it finds a cancellation since its beginning. -/
theorem findsCancellation_of_run {c : RoundContext R} {world : σ}
    (h : (c.run s.link world).1.result = .error (.failed .cancelled)) :
    k.FindsCancellation c world := by
  have hcourse := RoundContext.course_run s.link c world
  generalize c.run s.link world = outcome at h hcourse
  generalize c.hears? s.link world = hears at hcourse
  cases hcourse with
  | closed => simp [RoundOutcome.failed] at h
  | undelivered => simp [RoundOutcome.failed] at h
  | listening world₁ world₂ hp hs =>
    have hwaits : c.Waits s.link world world₂ := ⟨world₁, hp, hs⟩
    rw [k.collect_result hwaits] at h
    cases ho : Collecting.outcome c (k.moments c world world₂) with
    | ok state =>
      rw [ho] at h
      obtain ⟨e, he, heq⟩ := mapError_eq_error.1 h
      rcases Collecting.complete_eq_error he with ⟨e', rfl⟩ | ⟨e', rfl⟩
      · simp at heq
      · simp at heq
    | error stop =>
      rw [ho] at h
      obtain rfl := Except.error.inj h
      obtain ⟨before, m, rest, hmoments, -, hbreaks⟩ := Collecting.outcome_eq_failed.1 ho
      have hm : m ∈ k.moments c world world₂ := hmoments ▸ by simp
      obtain ⟨look, hlook, rfl⟩ := List.mem_map.1 hm
      have hle := (k.armed_of_waits hwaits).2.trans (k.count_look c.timeout world₂ look hlook)
      -- no other reason gives this error
      have hcancelled : (look.moment (k.cancellation world).count).cancelled = true := by
        cases hbreaks with
        | cancelled hc => exact hc
        | refused _ _ _ _ _ _ _ _ hr => cases hr
      exact ⟨world₂, hwaits, look, hlook, (cancelled_iff hle).1 hcancelled⟩

/-- Without a cancellation since the beginning a round goes on as if there were none at all. -/
theorem run_of_uncancelled {c : RoundContext R} {world world' : σ} (h : c.Waits s.link world world')
    (hnone : ¬k.FindsCancellation c world) :
    (c.run s.link world).1.result =
      (Collecting.outcome c ((k.looks c.timeout world').map fun look =>
        { expired := look.expired, arrival := look.arrival })).bind fun state =>
          (state.complete c).mapError .failed := by
  have hmoments : k.moments c world world' = (k.looks c.timeout world').map fun look =>
      { expired := look.expired, arrival := look.arrival } := by
    apply List.map_congr_left
    intro look hlook
    have hle := (k.armed_of_waits h).2.trans (k.count_look c.timeout world' look hlook)
    have hquiet : (look.moment (k.cancellation world).count).cancelled = false := by
      rw [← Bool.not_eq_true, cancelled_iff hle]
      exact fun hlt => hnone ⟨world', h, look, hlook, hlt⟩
    rw [Moment.mk.injEq]
    exact ⟨hquiet, rfl, rfl⟩
  rw [← hmoments, ← k.collect_result h]
  obtain ⟨world₁, hp, hs⟩ := h
  simp [RoundContext.run, hp, hs]

end Cancellable

namespace Experiment

/-! ## 4. The attempt -/

/-- A round that was prepared has participants, so it is not complete before it has heard of them. -/
theorem incomplete_of_prepares [Scalar R] {s : Surroundings R σ} {x y : Experiment R}
    {c : RoundContext R} {world world' : σ} (h : x.Prepares s world c y world') :
    ¬Collecting.Complete c [] := by
  obtain ⟨x₁, selected, hr, hp⟩ := h
  obtain ⟨secagg, world₁, participants, -, hparts, rfl, -⟩ := prepareRound_eq_ok s hp
  have hselect := hr.selection
  simp only [Strategy.select, bind_eq_ok, guard_eq_ok, pure, Except.pure, Except.ok.injEq] at hselect
  obtain ⟨nodes, -, hsome, rfl⟩ := hselect
  obtain ⟨node, hnode⟩ := List.exists_mem_of_ne_nil nodes.keys (mt SortedMap.isEmpty_iff.2 hsome)
  obtain ⟨l, hl, rfl⟩ := map_eq_ok.1 hparts
  obtain ⟨e, he, hpart⟩ := mem_of_mapM_eq_ok hl node hnode
  obtain ⟨p, -, rfl⟩ := map_eq_ok.1 hpart
  intro hcomplete
  have hmem : node ∈ (SortedMap.ofList l).keys :=
    SortedMap.mem_keys_ofList.2 (List.mem_map.2 ⟨(node, p), he, rfl⟩)
  exact absurd (hcomplete node hmem) (by simp [Collecting.firstMatch?])

variable [RootScalar R] {s : Surroundings R σ} (k : Cancellable s) {x : Experiment R} {world : σ}

/-- If the round that an attempt prepares is cancelled in time, the attempt fails. -/
theorem executeRound_of_cancelsInTime
    (h : ∀ c y world₁, x.Prepares s world c y world₁ → k.CancelsInTime c world₁) :
    ∃ stop, (x.executeRound s world).1 = .error stop := by
  have ha := attempt_executeRound s x world
  rcases hx : x.executeRound s world with ⟨r, y, world'⟩
  rw [hx] at ha
  cases ha with
  | inconsistent => exact ⟨_, rfl⟩
  | unselected => exact ⟨_, rfl⟩
  | interrupted => exact ⟨_, rfl⟩
  | unprepared => exact ⟨_, rfl⟩
  | forsaken => exact ⟨_, rfl⟩
  | abandoned => exact ⟨_, rfl⟩
  | conducted c x₁ _ world₁ _ _ hp hc =>
    obtain ⟨stop, hstop⟩ := k.run_of_cancelsInTime (incomplete_of_prepares hp) (h c x₁ world₁ hp)
    rw [conduct_eq, hstop] at hc
    exact ⟨_, (congrArg Prod.fst hc).symm⟩

/-- An attempt fails as cancelled only if its round finds a cancellation since its beginning. -/
theorem findsCancellation_of_executeRound {number : RoundNumber}
    (h : (x.executeRound s world).1 = .error (.failed (.round number .cancelled))) :
    ∃ c y world₁, x.Prepares s world c y world₁ ∧ k.FindsCancellation c world₁ := by
  rcases round_of_executeRound s h with ⟨_, h'⟩ | ⟨_, h'⟩ | ⟨c, y, world₁, hp, hresult⟩
  · contradiction
  · contradiction
  · exact ⟨c, y, world₁, hp, k.findsCancellation_of_run hresult⟩

end Experiment

open Experiment in
/-- A round that is cancelled after its listener is armed, while it creates or sends its requests or
before it has taken the last missing reply, ends with an error and commits nothing. A cancellation
before that, also one in the course of a secure setup, neither fails the round nor changes its result. -/
theorem round_cancelled_since_arming_fails [RootScalar R] {s : Surroundings R σ} (k : Cancellable s)
    (x : Experiment R) (world : σ) :
    ((∀ c y world₁, x.Prepares s world c y world₁ → k.CancelsInTime c world₁) →
      (∃ stop, (x.runRound s world).1 = .error stop) ∧
        SameTraining x (x.runRound s world).2.1) ∧
      (∀ number, (x.runRound s world).1 = .error (.failed (.round number .cancelled)) →
        ∃ c y world₁, x.Prepares s world c y world₁ ∧ k.FindsCancellation c world₁) ∧
      (∀ c y world₁ world₂, x.Prepares s world c y world₁ → c.Waits s.link world₁ world₂ →
        ¬k.FindsCancellation c world₁ →
        (x.executeRound s world).1 =
          ((Collecting.outcome c ((k.looks c.timeout world₂).map fun look =>
            { expired := look.expired, arrival := look.arrival })).bind fun state =>
              (state.complete c).mapError .failed).mapError (ofRoundStop c.roundNumber)) := by
  refine ⟨fun h => ?_, fun number h => ?_, fun c y world₁ world₂ hp hw hnone => ?_⟩
  · obtain ⟨stop, hstop⟩ := executeRound_of_cancelsInTime k h
    rcases hx : x.executeRound s world with ⟨r, y, world'⟩
    rw [hx] at hstop
    obtain rfl : r = .error stop := hstop
    have hround : x.runRound s world = (.error stop, y, world') := by simp [runRound, hx]
    rw [hround]
    exact ⟨⟨stop, rfl⟩, sameTraining_of_executeRound s hx⟩
  · have hround := roundRun_runRound s x world
    generalize x.runRound s world = result at h hround
    cases hround with
    | failed stop y world' hx =>
      obtain rfl := Except.error.inj h
      exact findsCancellation_of_executeRound k (congrArg Prod.fst hx)
    | committed => contradiction
    | saved => contradiction
    | unsaved => simp at h
  · rw [(executeRound_of_prepares s hp).1, conduct_eq, k.run_of_uncancelled hw hnone]

/-- Surroundings that cancel a round once. -/
structure CancelledOnce where
  -- Whether the session is set up.
  joined : Bool := false
  count : Nat := 0
  armed : Nat := 0

/-- The node joins the session with its first reply and trains with its second one. -/
def CancelledOnce.reply (world : CancelledOnce) : Reply ℚ :=
  if world.joined then .train { pairReply 1 "left" 0 with params := some (.masked ⟨[0, 0]⟩) }
  else .setup ⟨"experiment", "session", "left", true, some (.ofNat 1), none⟩

def CancelledOnce.look (world : CancelledOnce) : Look ℚ where
  cancellation := ⟨world.count⟩
  arrival := .reply world.reply .zero

/-- The round is cancelled either while the setup waits or while the round creates its requests. -/
def cancellingSurroundings (early : Bool) : Surroundings ℚ CancelledOnce where
  link :=
    { send := fun _ world => (none, world)
      watch := fun _ world => .ofLooks world.armed [world.look]
      advance := fun _ _ world =>
        { world with
          joined := true
          count := if early && !world.joined then world.count + 1 else world.count }
      purge := fun world => (true, { world with count := if early then world.count else world.count + 1 })
      arm := fun world => { world with armed := world.count } }
  drawName world := ("session", world)
  drawWord world := (1, world)
  drawFraction world := (0, world)
  now _ := ⟨0, 0⟩
  save _ world := (.error .unreadable, world)
  prepare world := (.ok (), world)

def cancellingCount (early : Bool) : Cancellable (cancellingSurroundings early) where
  cancellation world := ⟨world.count⟩
  armed := CancelledOnce.armed
  looks _ world := [world.look]
  watch _ _ := rfl
  armed_arm _ := rfl
  armed_purge _ := rfl
  armed_send _ _ := rfl
  count_arm _ := Nat.le_refl _
  count_purge world := by cases early <;> simp [cancellingSurroundings]
  count_send _ _ := Nat.le_refl _
  count_look _ world look hlook := by
    obtain rfl := List.mem_singleton.1 hlook
    exact Nat.le_refl _

/-- An experiment with one node that aggregates securely. -/
def secureSingle : Experiment ℚ :=
  { pairExperiment with
    dataset := ⟨.ofList [("left", .ofMetadata "left" sampleData)]⟩
    secagg := ⟨true, ⟨1, 16⟩, .zero, none⟩ }

open Experiment in
theorem round_cancelled_since_arming_fails_single :
    (∀ c y world₁, secureSingle.Prepares (cancellingSurroundings false) {} c y world₁ →
        (cancellingCount false).CancelsInTime c world₁) ∧
      (∃ stop, (secureSingle.runRound (cancellingSurroundings false) {}).1 = .error stop) ∧
      SameTraining secureSingle (secureSingle.runRound (cancellingSurroundings false) {}).2.1 := by
  have hcancel : ∀ c y world₁, secureSingle.Prepares (cancellingSurroundings false) {} c y world₁ →
      (cancellingCount false).CancelsInTime c world₁ := by
    intro c y world₁ _ world' hwaits
    obtain ⟨world₂, hp, hs⟩ := hwaits
    obtain rfl := (Prod.mk.inj hp).2
    have hend : ((cancellingSurroundings false).link.sendAll c.requests
        { world₁ with armed := world₁.count, count := world₁.count + 1 }).2 = world' :=
      congrArg Prod.snd hs
    have hsent := ((cancellingCount false).sendAll c.requests
      { world₁ with armed := world₁.count, count := world₁.count + 1 }).2
    rw [hend] at hsent
    exact Or.inl (Nat.lt_of_lt_of_le (Nat.lt_succ_self _) hsent)
  exact ⟨hcancel, (round_cancelled_since_arming_fails (cancellingCount false) secureSingle {}).1 hcancel⟩

/-- A cancellation while a secure setup waits is lost: the listener is armed after it, and the round
completes. -/
theorem cancellation_during_setup_is_lost :
    ((cancellingCount true).cancellation {}).count = 0 ∧
      (∃ c y world₁, secureSingle.Prepares (cancellingSurroundings true) {} c y world₁ ∧
        ((cancellingCount true).cancellation world₁).count = 1) ∧
      (secureSingle.runRound (cancellingSurroundings true) {}).1.isOk = true ∧
      (secureSingle.runRound (cancellingSurroundings true) {}).2.1.roundCurrent = 1 := by
  refine ⟨rfl, ⟨_, _, _, ⟨{ secureSingle with dataChecked := true }, .setOf ["left"],
    ⟨rfl, rfl, rfl⟩, rfl⟩, ?_⟩, ?_, ?_⟩
  · decide +kernel
  · decide +kernel
  · decide +kernel

end Federation
