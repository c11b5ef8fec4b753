import Federation.Proofs.Experiment.Preparation
import Federation.Proofs.Moments
import Federation.Proofs.Rational
import Federation.Proofs.Secagg.Joining
/-!
# Sessions that are set up

A setup gives a session of all its parties or none at all. Of a setup that fails nothing is kept, so the
next secure round starts over.
-/

namespace Federation

variable {R σ : Type}

namespace Link

/-- The link with other observations. -/
def observing (l : Link R σ) (w : Watch R) : Link R σ := { l with watch := fun _ _ => w }

theorem sendAll_observing (l : Link R σ) (w : Watch R) (requests : List (Request R)) (world : σ) :
    (l.observing w).sendAll requests world = l.sendAll requests world := by
  induction requests generalizing world with
  | nil => rfl
  | cons q rest ih =>
    simp only [sendAll, ih]
    rfl

theorem firstFailure_eq_none {failures : List (NodeId × String)} :
    firstFailure failures = none ↔ failures = [] := by
  cases failures with
  | nil => simp [firstFailure]
  | cons f rest =>
    rw [firstFailure]
    split
    · split <;> simp
    · simp

end Link

namespace Invitation

/-- The session that the parties have joined with their first answers. -/
def session (i : Invitation) (l : List (Observation R)) : SecaggSession :=
  ⟨i.sessionId, i.parties.keys, i.publicKeys l⟩

section

variable (l : Link R σ) (a : SecureAggregation R) (researcher : ResearcherId) (i : Invitation)
  (world : σ)

/-- The request of the smallest party that cannot be sent, with the reason, and the surroundings once
all requests were tried. -/
def sent : Option (NodeId × String) × σ :=
  l.broadcast (SecureAggregation.setupRequests researcher i.experimentId i.sessionId i.parties) world

/-- What is observed once the parties are invited. -/
def awaited : Watch R := l.watch a.timeout (i.sent l researcher world).2

def setup : Except (Stop (SecaggError R)) SecaggSession × SecureAggregation R × σ :=
  a.setup l researcher i.experimentId i.sessionId i.parties world

/-- What comes of a setup for which no session can be used again, and of secure aggregation. -/
def conclusion : Option (NodeId × String) → Except (Stop (SecaggError R)) Joining →
    Except (Stop (SecaggError R)) SecaggSession × SecureAggregation R
  | some (node, reason), _ => (.error (.failed (.setupDispatch node reason)), a.clear)
  | none, .error e => (.error e, a.clear)
  | none, .ok j =>
    (.ok ⟨i.sessionId, i.parties.keys, j.publicKeys⟩,
      { a with session := some ⟨i.sessionId, i.parties.keys, j.publicKeys⟩ })

end

variable {l : Link R σ} {a : SecureAggregation R} {researcher : ResearcherId} {i : Invitation}
  {world : σ}

theorem reusable?_eq_some {session : SecaggSession} : a.reusable? i.parties = some session ↔
    a.session = some session ∧ session.parties = i.parties.keys := by
  rw [SecureAggregation.reusable?, Option.filter_eq_some_iff, beq_iff_eq]

theorem reusable?_eq_none : a.reusable? i.parties = none ↔
    ∀ session, a.session = some session → session.parties ≠ i.parties.keys := by
  simp [SecureAggregation.reusable?, Option.filter_eq_none_iff]

theorem setup_of_reusable {session : SecaggSession} (h : a.session = some session)
    (hp : session.parties = i.parties.keys) :
    i.setup l a researcher world = (.ok session, a, world) := by
  simp [setup, SecureAggregation.setup, reusable?_eq_some.2 ⟨h, hp⟩]

variable (l researcher world) in
theorem setup_eq_conclusion
    (h : ∀ session, a.session = some session → session.parties ≠ i.parties.keys) :
    (i.setup l a researcher world).1 =
        (i.conclusion a (i.sent l researcher world).1 (i.wait (i.awaited l a researcher world))).1 ∧
      (i.setup l a researcher world).2.1 =
        (i.conclusion a (i.sent l researcher world).1 (i.wait (i.awaited l a researcher world))).2 := by
  have hnone := reusable?_eq_none.2 h
  have hset := Experiment.setUp_setup l a researcher i.experimentId i.sessionId i.parties world
  rw [setup]
  generalize a.setup l researcher i.experimentId i.sessionId i.parties world = outcome at hset ⊢
  cases hset with
  | reused session hr =>
    rw [hnone] at hr
    contradiction
  | undelivered node reason world' _ hs =>
    rw [sent, hs]
    exact ⟨rfl, rfl⟩
  | unjoined stop n world₁ _ hs hj =>
    have hwait : i.wait (i.awaited l a researcher world) = .error stop := by
      rw [awaited, sent, hs]
      exact congrArg Prod.fst hj
    rw [hwait, sent, hs]
    exact ⟨rfl, rfl⟩
  | joined j n world₁ _ hs hj =>
    have hwait : i.wait (i.awaited l a researcher world) = .ok j := by
      rw [awaited, sent, hs]
      exact congrArg Prod.fst hj
    rw [hwait, sent, hs]
    exact ⟨rfl, rfl⟩

theorem sent_observing (l : Link R σ) (w : Watch R) :
    i.sent (l.observing w) researcher world = i.sent l researcher world := by
  rw [sent, sent, Link.broadcast, Link.broadcast, Link.sendAll_observing]

theorem sent_eq_none : (i.sent l researcher world).1 = none ↔
    (l.sendAll (SecureAggregation.setupRequests researcher i.experimentId i.sessionId i.parties)
      world).1 = [] := by
  rw [← Link.firstFailure_eq_none]
  rfl

variable (l researcher world) in
theorem setup_observing
    (h : ∀ session, a.session = some session → session.parties ≠ i.parties.keys) (w : Watch R) :
    (i.setup (l.observing w) a researcher world).1 =
        (i.conclusion a (i.sent l researcher world).1 (i.wait w)).1 ∧
      (i.setup (l.observing w) a researcher world).2.1 =
        (i.conclusion a (i.sent l researcher world).1 (i.wait w)).2 := by
  have heq := setup_eq_conclusion (l.observing w) researcher world h
  rw [sent_observing] at heq
  exact heq

/-- How a setup fails: a request cannot be sent, or the wait for the parties does not give a session. -/
inductive Hindered (i : Invitation) (failure : Option (NodeId × String)) (w : Watch R) :
    Stop (SecaggError R) → Prop where
  | undelivered (node : NodeId) (reason : String) (hf : failure = some (node, reason)) :
    Hindered i failure w (.failed (.setupDispatch node reason))
  | unsettled (e : Stop (SecaggError R)) (hf : failure = none) (he : i.Settled w (.error e)) :
    Hindered i failure w e

/-- A session of exactly the parties of the invitation, each with the key of its first answer. -/
structure IsWhole (i : Invitation) (observed : List (Observation R)) (session : SecaggSession) :
    Prop where
  named : session.sessionId = i.sessionId
  parties : session.parties = i.parties.keys
  ascending : session.parties.Pairwise fun a b => compare a b = .lt
  keyed : session.publicKeys.keys = session.parties
  key : ∀ party ∈ session.parties, ∃ r key, i.firstAnswer? party observed = some r ∧
    r.key? = some key ∧ session.publicKeys.find? party = some key

theorem isWhole_of_complete {before : List (Observation R)} (hj : i.Unhindered before)
    (hc : i.Complete before) (rest : List (Observation R)) :
    i.IsWhole (before ++ rest) ⟨i.sessionId, i.parties.keys, i.publicKeys before⟩ where
  named := rfl
  parties := rfl
  ascending := i.parties.ascending_keys
  keyed := keys_publicKeys hj hc
  key := by
    intro party hp
    obtain ⟨r, hr⟩ := Option.isSome_iff_exists.1 (hc party hp)
    obtain ⟨key, hkey⟩ := Option.isSome_iff_exists.1 (hj.joining party hp r hr)
    refine ⟨r, key, firstAnswer?_append_of_some hr rest, hkey, ?_⟩
    rw [find?_publicKeys before hp, hr, Option.bind_some, hkey]

/-- What comes of a setup that starts over: a whole session, which is kept, or a failure, after which
there is no session. -/
theorem whole_or_hindered (failure : Option (NodeId × String)) (w : Watch R) :
    (failure = none ∧ ∃ session, i.conclusion a failure (i.wait w) =
      (.ok session, { a with session := some session }) ∧ i.IsWhole w.observed session) ∨
    ∃ e, i.conclusion a failure (i.wait w) = (.error e, a.clear) ∧ i.Hindered failure w e := by
  cases failure with
  | some f => exact Or.inr ⟨_, rfl, .undelivered f.1 f.2 rfl⟩
  | none =>
    have hset := settled_wait i w
    generalize i.wait w = result at hset ⊢
    cases result with
    | error e => exact Or.inr ⟨e, rfl, .unsettled e rfl hset⟩
    | ok j =>
      cases hset with
      | joined before rest hw hj hc =>
        rw [hw]
        exact Or.inl ⟨rfl, _, rfl, isWhole_of_complete hj hc rest⟩

/-- The session after a setup is the one before, or a whole one. -/
theorem whole_of_setup {session : SecaggSession}
    (h : (i.setup l a researcher world).2.1.session = some session) :
    a.session = some session ∨ i.IsWhole (i.awaited l a researcher world).observed session := by
  cases hr : a.reusable? i.parties with
  | some session' =>
    obtain ⟨hs, hp⟩ := reusable?_eq_some.1 hr
    rw [setup_of_reusable hs hp] at h
    exact Or.inl h
  | none =>
    rw [(setup_eq_conclusion l researcher world (reusable?_eq_none.1 hr)).2] at h
    rcases whole_or_hindered (i := i) (a := a) (i.sent l researcher world).1
      (i.awaited l a researcher world) with ⟨-, session', hc, hwhole⟩ | ⟨e, hc, -⟩
    · rw [hc] at h
      obtain rfl := Option.some.inj h
      exact Or.inr hwhole
    · rw [hc] at h
      contradiction

theorem conclusion_isOk_iff {failure : Option (NodeId × String)}
    {result : Except (Stop (SecaggError R)) Joining} :
    (∃ session, (i.conclusion a failure result).1 = .ok session) ↔
      failure = none ∧ ∃ j, result = .ok j := by
  cases failure with
  | some f => simp [conclusion]
  | none => cases result <;> simp [conclusion]

end Invitation

open Invitation in
/-- A session of exactly the parties is used again. Otherwise there is a session after the setup if and
only if every request was sent and, before anything ruled it out, every party joined; the session is
whole and is kept. After a failure there is none, and nothing that is discarded had any effect. -/
theorem setup_whole_or_nothing (l : Link R σ) (a : SecureAggregation R) (researcher : ResearcherId)
    (i : Invitation) (world : σ) :
    (∀ session, a.session = some session → session.parties = i.parties.keys →
      i.setup l a researcher world = (.ok session, a, world)) ∧
    ((∀ session, a.session = some session → session.parties ≠ i.parties.keys) →
      ((∃ session, (i.setup l a researcher world).1 = .ok session) ↔
        (l.sendAll (SecureAggregation.setupRequests researcher i.experimentId i.sessionId i.parties)
          world).1 = [] ∧
        ∃ before rest, (i.awaited l a researcher world).observed = before ++ rest ∧
          i.Unhindered before ∧ i.Complete before) ∧
      (∀ session, (i.setup l a researcher world).1 = .ok session →
        i.IsWhole (i.awaited l a researcher world).observed session ∧
          (i.setup l a researcher world).2.1 = { a with session := some session }) ∧
      (∀ e, (i.setup l a researcher world).1 = .error e →
        i.Hindered (i.sent l researcher world).1 (i.awaited l a researcher world) e ∧
          (i.setup l a researcher world).2.1 = { a with session := none }) ∧
      (∀ before o rest ending, i.Discarded before o →
        (i.setup (l.observing ⟨before ++ o :: rest, ending⟩) a researcher world).1 =
            (i.setup (l.observing ⟨before ++ rest, ending⟩) a researcher world).1 ∧
          (i.setup (l.observing ⟨before ++ o :: rest, ending⟩) a researcher world).2.1 =
            (i.setup (l.observing ⟨before ++ rest, ending⟩) a researcher world).2.1) ∧
      (∀ moments m rest, (∀ m ∈ moments, m.isQuiet = true) → m.cancelled = false →
        m.expired = true → i.Unhindered ((heard moments).map observation) →
        ¬i.Complete ((heard moments).map observation) →
        (i.sent l researcher world).1 = none →
        (i.setup (l.observing (Watch.ofMoments (moments ++ m :: rest))) a researcher world).1 =
          .error (.failed (.setupTimeout (i.missing ((heard moments).map observation)))))) ∧
    (∀ observed : List (Observation R), (i.missing observed).Pairwise (fun a b => compare a b = .lt) ∧
      ∀ party, party ∈ i.missing observed ↔
        party ∈ i.parties.keys ∧ i.firstAnswer? party observed = none) := by
  refine ⟨fun session h hp => setup_of_reusable h hp, fun h => ?_, fun observed => ⟨?_, ?_⟩⟩
  · obtain ⟨hresult, hkept⟩ :=
      setup_eq_conclusion l researcher world h
    have hcase := whole_or_hindered (i := i) (a := a) (i.sent l researcher world).1
      (i.awaited l a researcher world)
    refine ⟨?_, ?_, ?_, ?_, ?_⟩
    · rw [hresult, conclusion_isOk_iff, sent_eq_none, wait_isOk_iff]
    · intro session hok
      rw [hresult] at hok
      rw [hkept]
      rcases hcase with ⟨-, session', hc, hwhole⟩ | ⟨e, hc, -⟩
      · rw [hc] at hok ⊢
        obtain rfl := Except.ok.inj hok
        exact ⟨hwhole, rfl⟩
      · rw [hc] at hok
        contradiction
    · intro e herr
      rw [hresult] at herr
      rw [hkept]
      rcases hcase with ⟨-, session, hc, -⟩ | ⟨e', hc, hhindered⟩
      · rw [hc] at herr
        contradiction
      · rw [hc] at herr ⊢
        obtain rfl := Except.error.inj herr
        exact ⟨hhindered, rfl⟩
    · intro before o rest ending hd
      have hwith := setup_observing l researcher world h
        ⟨before ++ o :: rest, ending⟩
      rw [wait_of_discarded hd] at hwith
      have hwithout := setup_observing l researcher world h
        ⟨before ++ rest, ending⟩
      exact ⟨hwith.1.trans hwithout.1.symm, hwith.2.trans hwithout.2.symm⟩
    · intro moments m rest hquiet hc he hj hn hsent
      have hwatch : Watch.ofMoments (moments ++ m :: rest) =
          ⟨(heard moments).map observation, .deadline⟩ := by
        simp [ofMoments_append hquiet, Watch.ofMoments, hc, he]
      have hset := (setup_observing l researcher world h
        ⟨(heard moments).map observation, .deadline⟩).1
      rw [hwatch, hset, wait_of_deadline hj hn, hsent]
      rfl
  · exact i.parties.ascending_keys.filter _
  · intro party
    rw [missing, List.mem_filter, Option.isNone_iff_eq_none]

/-- A session of two nodes. -/
def pairInvitation : Invitation := ⟨"experiment", "session", SortedMap.setOf ["right", "left"]⟩

/-- A reply of a node to the invitation. -/
def pairAnswer (node : NodeId) (key : Option Crypto.Key) : Observation ℚ :=
  .reply (.setup ⟨"experiment", "session", node, key.isSome, key, none⟩) .zero

/-- The first node refuses after it has joined, and the second one joins last. -/
def pairAnswers : List (Observation ℚ) :=
  [pairAnswer "right" (some (.ofNat 1)), pairAnswer "right" none, pairAnswer "left" (some (.ofNat 2))]

def pairLink : Link ℚ Unit where
  send _ world := (none, world)
  watch _ _ := ⟨pairAnswers ++ [.closed], .deadline⟩
  advance _ _ world := world
  purge world := (true, world)
  arm world := world

theorem unhindered_pairAnswers : pairInvitation.Unhindered pairAnswers where
  fed h := by simp [pairAnswers, pairAnswer] at h
  joining party hp r hr := by
    have hkeys : pairInvitation.parties.keys = ["left", "right"] := by decide
    have hparty : party = "left" ∨ party = "right" := by
      simpa [hkeys] using hp
    rcases hparty with rfl | rfl
    · obtain rfl := Option.some.inj hr
      rfl
    · obtain rfl := Option.some.inj hr
      rfl

theorem setup_whole_or_nothing_pair :
    (∀ session : SecaggSession, (none : Option SecaggSession) = some session →
      session.parties ≠ pairInvitation.parties.keys) ∧
    ∃ session, (pairInvitation.setup pairLink ⟨true, ⟨1, 8⟩, .zero, none⟩ "researcher" ()).1 =
        .ok session ∧ session.publicKeys.find? "right" = some (Crypto.Key.ofNat 1) := by
  have hnone : ∀ session : SecaggSession, (none : Option SecaggSession) = some session →
      session.parties ≠ pairInvitation.parties.keys := nofun
  have hcomplete : pairInvitation.Complete pairAnswers := by
    unfold Invitation.Complete
    decide
  obtain ⟨hiff, hwhole, -⟩ := (setup_whole_or_nothing pairLink ⟨true, ⟨1, 8⟩, .zero, none⟩
    "researcher" pairInvitation ()).2.1 hnone
  obtain ⟨session, hok⟩ := hiff.2 ⟨rfl, pairAnswers, [.closed], rfl, unhindered_pairAnswers, hcomplete⟩
  have hkeys := (hwhole session hok).1
  obtain ⟨r, key, hr, hkey, hfound⟩ := hkeys.key "right" (hkeys.parties ▸ by decide)
  obtain rfl := Option.some.inj hr
  obtain rfl := Option.some.inj hkey
  exact ⟨hnone, session, hok, hfound⟩

end Federation
