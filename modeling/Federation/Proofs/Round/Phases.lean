import Federation.Proofs.Round.Course
/-!
# The phases of a round

A round is a machine with a state for each phase. The machine takes steps until it is done: a step
publishes the phase it is in, does the work of the phase and goes to another one. Here the machine is
spelled out with all that it leaves outside, and it is shown to do what `RoundContext.run` says.
-/

namespace Federation

variable {R σ : Type}

/-- The interfaces that a round works with, and what went through them in order. -/
structure Interfaces (R σ : Type) where
  world : σ
  events : List (Event (Publication R)) := []
  broadcasts : List (List (Request R)) := []

namespace Interfaces

def publish (c : RoundContext R) (p : Publication R) (io : Interfaces R σ) : Interfaces R σ :=
  { io with events := io.events ++ [⟨c.roundNumber, p⟩] }

def broadcast (l : Link R σ) (requests : List (Request R)) (io : Interfaces R σ) :
    Option (NodeId × String) × Interfaces R σ :=
  let (failure, world) := l.broadcast requests io.world
  (failure, { io with world, broadcasts := io.broadcasts ++ [requests] })

end Interfaces

/-- A register of all requests that a link was ever given to send. -/
structure Link.Register (l : Link R σ) where
  sent : σ → List (Request R)
  send : ∀ q world, sent (l.send q world).2 = sent world ++ [q]
  advance : ∀ t n world, sent (l.advance t n world) = sent world
  purge : ∀ world, sent (l.purge world).2 = sent world
  arm : ∀ world, sent (l.arm world) = sent world

theorem Link.Register.broadcast {l : Link R σ} (register : l.Register) (requests : List (Request R))
    (world : σ) : register.sent (l.broadcast requests world).2 = register.sent world ++ requests := by
  show register.sent (l.sendAll requests world).2 = _
  induction requests generalizing world with
  | nil => exact (List.append_nil _).symm
  | cons q rest ih =>
    show register.sent (l.sendAll rest (l.send q world).2).2 = _
    rw [ih, register.send, List.append_assoc]
    rfl

/-- A round in one of its phases. -/
inductive Machine (R : Type) where
  | created
  | requestsSent (requests : List (Request R))
  | collecting
  | complete (completed : CompletedRound R)
  | failed (e : RoundError R)

namespace Machine

def phase : Machine R → Phase
  | created => .created
  | requestsSent _ => .requestsSent
  | collecting => .collecting
  | complete _ => .complete
  | failed _ => .failed

/-- What a step leads to. -/
inductive Step (R σ : Type) where
  | next (m : Machine R) (io : Interfaces R σ)
  -- The round is over and hands back its interfaces.
  | done (result : Except (RoundError R) (CompletedRound R)) (io : Interfaces R σ)
  -- The round is given up while it waits, and its interfaces with it.
  | abandoned (io : Interfaces R σ)

namespace Step

def IsOver : Step R σ → Prop
  | next .. => False
  | _ => True

def io : Step R σ → Interfaces R σ
  | next _ io => io
  | done _ io => io
  | abandoned io => io

/-- The phase in which a round stands, or in which it ended. -/
def phase : Step R σ → Phase
  | next m _ => m.phase
  | done (.ok _) _ => .complete
  | done (.error _) _ => .failed
  | abandoned _ => .collecting

/-- What a round publishes besides its phases. -/
def models (c : RoundContext R) : Step R σ → List (Event (Publication R))
  | done (.ok completed) _ => [⟨c.roundNumber, .model (some completed.aggregated.global)⟩]
  | _ => []

/-- What a round that is over says to those who ran it. -/
inductive Gives : Step R σ → RoundOutcome R × σ → Prop where
  | done (result : Except (RoundError R) (CompletedRound R)) (io : Interfaces R σ) :
    Gives (.done result io) (⟨result.mapError .failed, io.events.map Event.event⟩, io.world)
  | abandoned (io : Interfaces R σ) :
    Gives (.abandoned io) (⟨.error .abandoned, io.events.map Event.event⟩, io.world)

end Step

section

variable [RootScalar R] (l : Link R σ) (c : RoundContext R)

/-- The work of a phase. -/
def work (io : Interfaces R σ) : Machine R → Step R σ
  | created =>
    match l.purge io.world with
    | (false, world) => .next (.failed .replyChannel) { io with world }
    | (true, world) => .next (.requestsSent c.requests) { io with world }
  | requestsSent requests =>
    match io.broadcast l requests with
    | (some (node, reason), io) => .next (.failed (.transport node reason)) io
    | (none, io) => .next .collecting io
  | collecting =>
    let w := l.watch c.timeout io.world
    let (taken, n) := Collecting.run c w.ending w.observed (.start c)
    let io := { io with world := l.advance c.timeout n io.world }
    match taken with
    | .error .abandoned => .abandoned io
    | .error (.failed e) => .next (.failed e) io
    | .ok s =>
      match s.complete c with
      | .error e => .next (.failed e) io
      | .ok completed => .next (.complete completed) io
  | complete completed =>
    .done (.ok completed) (io.publish c (.model (some completed.aggregated.global)))
  | failed e => .done (.error e) io

/-- A step publishes the phase and does its work. -/
def step (m : Machine R) (io : Interfaces R σ) : Step R σ :=
  m.work l c (io.publish c (.phase m.phase))

/-- Takes steps until the round is over, but no more than the given number. Lists the phases that were
visited. -/
def drive : Nat → Machine R → Interfaces R σ → List Phase × Step R σ
  | 0, m, io => ([], .next m io)
  | n + 1, m, io =>
    match m.step l c io with
    | .next m' io' => (m.phase :: (drive n m' io').1, (drive n m' io').2)
    | last => ([m.phase], last)

end

/-! ## 1. One step -/

/-- The phases that may follow a phase. -/
inductive Follows : Phase → Phase → Prop where
  | requestsSent : Follows .created .requestsSent
  | collecting : Follows .requestsSent .collecting
  | complete : Follows .collecting .complete
  | createdFailed : Follows .created .failed
  | requestsSentFailed : Follows .requestsSent .failed
  | collectingFailed : Follows .collecting .failed

/-- The most steps that a round takes from a phase on. -/
def stepsLeft : Phase → Nat
  | .created => 4
  | .requestsSent => 3
  | .collecting => 2
  | .complete => 1
  | .failed => 1

theorem Follows.stepsLeft_lt {p q : Phase} (h : Follows p q) : stepsLeft q < stepsLeft p := by
  cases h <;> decide

/-- The requests that a machine is about to send are those of the round. -/
def Holds (c : RoundContext R) : Machine R → Prop
  | requestsSent requests => requests = c.requests
  | _ => True

/-- What the work of a phase broadcasts. -/
def broadcastsIn (c : RoundContext R) (p : Phase) : List (List (Request R)) :=
  if p = .requestsSent then [c.requests] else []

/-- What goes through the interfaces in a phase, up to its end. -/
structure Passed (l : Link R σ) (c : RoundContext R) (p : Phase) (io io' : Interfaces R σ) : Prop where
  events : io'.events = io.events ++ [⟨c.roundNumber, .phase p⟩]
  broadcasts : io'.broadcasts = io.broadcasts ++ broadcastsIn c p
  sent : ∀ register : l.Register,
    register.sent io'.world = register.sent io.world ++ (broadcastsIn c p).flatten

/-- All that a step can do. -/
inductive Stepped (l : Link R σ) (c : RoundContext R) (io : Interfaces R σ) :
    Machine R → Step R σ → Prop where
  | next (m m' : Machine R) (io' : Interfaces R σ) (hf : Follows m.phase m'.phase) (hm : m'.Holds c)
    (hio : Passed l c m.phase io io') : Stepped l c io m (.next m' io')
  | complete (completed : CompletedRound R) (io' : Interfaces R σ) (hio : Passed l c .complete io io') :
    Stepped l c io (.complete completed)
      (.done (.ok completed) (io'.publish c (.model (some completed.aggregated.global))))
  | failed (e : RoundError R) (io' : Interfaces R σ) (hio : Passed l c .failed io io') :
    Stepped l c io (.failed e) (.done (.error e) io')
  | abandoned (io' : Interfaces R σ) (hio : Passed l c .collecting io io') (world : σ)
    (hw : (l.watch c.timeout world).ending = .abandoned) : Stepped l c io .collecting (.abandoned io')

section

variable [RootScalar R]

/-- A wait is given up only where its observations end that way. -/
theorem ending_of_abandoned {c : RoundContext R} {ending : Ending} {observed : List (Observation R)}
    {s : Collecting R} (h : (Collecting.run c ending observed s).1 = .error .abandoned) :
    ending = .abandoned := by
  induction observed generalizing s with
  | nil =>
    cases hp : s.pending.isEmpty with
    | true => simp [Collecting.run_of_isEmpty hp] at h
    | false =>
      cases ending with
      | deadline => simp [Collecting.run_deadline hp] at h
      | abandoned => rfl
  | cons o observed ih =>
    cases hp : s.pending.isEmpty with
    | true => simp [Collecting.run_of_isEmpty hp] at h
    | false =>
      cases o with
      | cancelled => simp [Collecting.run_cancelled hp] at h
      | closed => simp [Collecting.run_closed hp] at h
      | reply reply elapsed =>
        cases hh : Collecting.handle c s reply elapsed with
        | error e => simp [Collecting.run_reply_error hp c ending observed hh] at h
        | ok s₁ =>
          rw [Collecting.run_reply_ok hp c ending observed hh] at h
          exact ih h

theorem stepped_step (l : Link R σ) (c : RoundContext R) {m : Machine R} (hm : m.Holds c)
    (io : Interfaces R σ) : Stepped l c io m (m.step l c io) := by
  -- the work of all phases but one sends nothing
  have hsilent : ∀ (p : Phase) (world : σ), p ≠ .requestsSent →
      (∀ register : l.Register, register.sent world = register.sent io.world) →
      Passed l c p io { io.publish c (.phase p) with world } := by
    intro p world hp hsent
    have hnone : broadcastsIn c p = [] := if_neg hp
    refine ⟨rfl, ?_, fun register => ?_⟩
    · rw [hnone, List.append_nil]
      rfl
    · rw [hnone, List.flatten_nil, List.append_nil]
      exact hsent register
  have hidle : ∀ p : Phase, p ≠ .requestsSent → Passed l c p io (io.publish c (.phase p)) :=
    fun p hp => hsilent p io.world hp fun _ => rfl
  cases m with
  | created =>
    have hpurged : ∀ world, (l.purge io.world).2 = world →
        Passed l c .created io { io.publish c (.phase .created) with world } := by
      rintro world rfl
      exact hsilent _ _ nofun fun register => register.purge io.world
    simp only [step, work]
    split
    next heq => exact .next .created (.failed _) _ .createdFailed trivial (hpurged _ (congrArg Prod.snd heq))
    next heq => exact .next .created (.requestsSent _) _ .requestsSent rfl (hpurged _ (congrArg Prod.snd heq))
  | requestsSent requests =>
    obtain rfl : requests = c.requests := hm
    have hsent : Passed l c .requestsSent io
        { io.publish c (.phase .requestsSent) with
          world := (l.broadcast c.requests io.world).2
          broadcasts := io.broadcasts ++ [c.requests] } :=
      ⟨rfl, rfl, fun register => (register.broadcast c.requests io.world).trans
        (congrArg _ (List.append_nil c.requests).symm)⟩
    simp only [step, work, Interfaces.broadcast]
    split
    next heq =>
      obtain ⟨-, rfl⟩ := Prod.mk.inj heq
      exact .next (.requestsSent _) (.failed _) _ .requestsSentFailed trivial hsent
    next heq =>
      obtain ⟨-, rfl⟩ := Prod.mk.inj heq
      exact .next (.requestsSent _) .collecting _ .collecting trivial hsent
  | collecting =>
    have hwaited : ∀ n, Passed l c .collecting io
        { io.publish c (.phase .collecting) with world := l.advance c.timeout n io.world } :=
      fun n => hsilent _ _ nofun fun register => register.advance c.timeout n io.world
    simp only [step, work]
    split
    next heq => exact .abandoned _ (hwaited _) _ (ending_of_abandoned heq)
    next => exact .next .collecting (.failed _) _ .collectingFailed trivial (hwaited _)
    next =>
      split
      · exact .next .collecting (.failed _) _ .collectingFailed trivial (hwaited _)
      · exact .next .collecting (.complete _) _ .complete trivial (hwaited _)
  | complete completed => exact .complete completed _ (hidle _ nofun)
  | failed e => exact .failed e _ (hidle _ nofun)

end

/-! ## 2. All steps -/

/-- A machine takes steps until it is over, through the phases that are listed. -/
inductive Driven (l : Link R σ) (c : RoundContext R) :
    Machine R → Interfaces R σ → List Phase → Step R σ → Prop where
  | ended {m : Machine R} {io : Interfaces R σ} {last : Step R σ} (h : Stepped l c io m last)
    (hlast : last.IsOver) : Driven l c m io [m.phase] last
  | next {m m' : Machine R} {io io' : Interfaces R σ} {visited : List Phase} {last : Step R σ}
    (h : Stepped l c io m (.next m' io')) (hrest : Driven l c m' io' visited last) :
    Driven l c m io (m.phase :: visited) last

theorem stepsLeft_pos (p : Phase) : 0 < stepsLeft p := by
  cases p <;> decide

/-- The machine is over after as many steps as its phase allows. -/
theorem driven_drive [RootScalar R] (l : Link R σ) (c : RoundContext R) {n : Nat} {m : Machine R}
    (hm : m.Holds c) (hn : stepsLeft m.phase ≤ n) (io : Interfaces R σ) :
    Driven l c m io (m.drive l c n io).1 (m.drive l c n io).2 := by
  induction n generalizing m io with
  | zero => exact absurd hn (Nat.not_le.2 (stepsLeft_pos m.phase))
  | succ n ih =>
    have hstep := stepped_step l c hm io
    rw [drive]
    cases hs : m.step l c io with
    | next m' io' =>
      rw [hs] at hstep
      have ⟨hf, hm'⟩ : Follows m.phase m'.phase ∧ m'.Holds c := by
        cases hstep with
        | next _ _ _ hf hm' _ => exact ⟨hf, hm'⟩
      have hless := hf.stepsLeft_lt
      exact .next hstep (ih hm' (by omega) io')
    | done result io' =>
      rw [hs] at hstep
      exact .ended hstep trivial
    | abandoned io' =>
      rw [hs] at hstep
      exact .ended hstep trivial

section

variable {l : Link R σ} {c : RoundContext R} {m : Machine R} {io : Interfaces R σ}
  {visited : List Phase} {last : Step R σ}

/-- Every phase that is visited is published, and then the new parameters if the round completes. -/
theorem Driven.events (h : Driven l c m io visited last) :
    last.io.events = io.events ++ visited.map (fun p => ⟨c.roundNumber, .phase p⟩) ++ last.models c := by
  induction h with
  | ended h hlast =>
    cases h with
    | next => contradiction
    | complete completed io' hio =>
      show io'.events ++ [_] = _
      rw [hio.events]
      rfl
    | failed e io' hio => exact hio.events.trans (List.append_nil _).symm
    | abandoned io' hio => exact hio.events.trans (List.append_nil _).symm
  | next h hrest ih =>
    cases h with
    | next _ _ _ hf hm hio =>
      rw [ih, hio.events]
      simp

theorem Driven.broadcasts (h : Driven l c m io visited last) :
    last.io.broadcasts = io.broadcasts ++ visited.flatMap (broadcastsIn c) := by
  induction h with
  | ended h hlast =>
    cases h with
    | next => contradiction
    | complete completed io' hio =>
      show io'.broadcasts = _
      rw [hio.broadcasts]
      rfl
    | failed e io' hio => exact hio.broadcasts
    | abandoned io' hio => exact hio.broadcasts
  | next h hrest ih =>
    cases h with
    | next _ _ _ hf hm hio =>
      rw [ih, hio.broadcasts]
      simp

theorem Driven.sent (h : Driven l c m io visited last) (register : l.Register) :
    register.sent last.io.world =
      register.sent io.world ++ (visited.flatMap (broadcastsIn c)).flatten := by
  induction h with
  | ended h hlast =>
    rw [List.flatMap_singleton]
    cases h with
    | next => contradiction
    | complete completed io' hio => exact hio.sent register
    | failed e io' hio => exact hio.sent register
    | abandoned io' hio => exact hio.sent register
  | next h hrest ih =>
    cases h with
    | next _ _ _ hf hm hio =>
      rw [ih, hio.sent, List.flatMap_cons, List.flatten_append, List.append_assoc]

/-- A way from a phase to the end of the round, with the phases on it. -/
inductive Way (l : Link R σ) (c : RoundContext R) : Phase → List Phase → Step R σ → Prop where
  | complete (completed : CompletedRound R) (io : Interfaces R σ) :
    Way l c .complete [.complete] (.done (.ok completed) io)
  | failed (e : RoundError R) (io : Interfaces R σ) : Way l c .failed [.failed] (.done (.error e) io)
  | abandoned (io : Interfaces R σ) (world : σ)
    (hw : (l.watch c.timeout world).ending = .abandoned) :
    Way l c .collecting [.collecting] (.abandoned io)
  | next {p q : Phase} {visited : List Phase} {last : Step R σ} (hf : Follows p q)
    (hrest : Way l c q visited last) : Way l c p (p :: visited) last

theorem Driven.way (h : Driven l c m io visited last) : Way l c m.phase visited last := by
  induction h with
  | ended h hlast =>
    cases h with
    | next => contradiction
    | complete completed io' hio => exact .complete completed _
    | failed e io' hio => exact .failed e io'
    | abandoned io' hio world hw => exact .abandoned io' world hw
  | next h hrest ih =>
    cases h with
    | next _ _ _ hf hm hio => exact .next hf ih

end

/-- How a round goes: it completes, it fails in one of the phases before, or it is given up, which happens
only where the observations of a wait end that way. -/
inductive Passage (l : Link R σ) (c : RoundContext R) : List Phase → Step R σ → Prop where
  | completes (completed : CompletedRound R) (io : Interfaces R σ) :
    Passage l c [.created, .requestsSent, .collecting, .complete] (.done (.ok completed) io)
  | fails (passed : List Phase) (hp : passed = [.created] ∨ passed = [.created, .requestsSent] ∨
      passed = [.created, .requestsSent, .collecting]) (e : RoundError R) (io : Interfaces R σ) :
    Passage l c (passed ++ [.failed]) (.done (.error e) io)
  | abandoned (io : Interfaces R σ) (world : σ)
    (hw : (l.watch c.timeout world).ending = .abandoned) :
    Passage l c [.created, .requestsSent, .collecting] (.abandoned io)

section

variable {l : Link R σ} {c : RoundContext R} {visited : List Phase} {last : Step R σ}

theorem Way.of_failed (h : Way l c .failed visited last) :
    ∃ e io, visited = [.failed] ∧ last = .done (.error e) io := by
  cases h with
  | failed e io => exact ⟨e, io, rfl, rfl⟩
  | next hf => contradiction

/-- The phases of a way from the beginning are known. -/
theorem Way.passage (h : Way l c .created visited last) : Passage l c visited last := by
  cases h with
  | next hf h =>
    cases hf with
    | createdFailed =>
      obtain ⟨e, io, rfl, rfl⟩ := h.of_failed
      exact .fails [.created] (Or.inl rfl) e io
    | requestsSent =>
      cases h with
      | next hf h =>
        cases hf with
        | requestsSentFailed =>
          obtain ⟨e, io, rfl, rfl⟩ := h.of_failed
          exact .fails [.created, .requestsSent] (Or.inr (Or.inl rfl)) e io
        | collecting =>
          cases h with
          | abandoned io world hw => exact .abandoned io world hw
          | next hf h =>
            cases hf with
            | collectingFailed =>
              obtain ⟨e, io, rfl, rfl⟩ := h.of_failed
              exact .fails [.created, .requestsSent, .collecting] (Or.inr (Or.inr rfl)) e io
            | complete =>
              cases h with
              | complete completed io => exact .completes completed io
              | next hf => contradiction

end

/-! ## 3. The machine runs the round -/

section

variable [RootScalar R] {l : Link R σ} {c : RoundContext R} {m m' : Machine R}
  {io io' : Interfaces R σ}

theorem drive_of_next (h : m.step l c io = .next m' io') (n : Nat) :
    (drive l c (n + 1) m io).2 = (drive l c n m' io').2 := by
  rw [drive, h]

theorem step_created {isOpen : Bool} {world : σ} (h : l.purge io.world = (isOpen, world)) :
    step l c .created io =
      .next (if isOpen then .requestsSent c.requests else .failed .replyChannel)
        { io.publish c (.phase .created) with world } := by
  have hpublished : l.purge (io.publish c (.phase .created)).world = (isOpen, world) := h
  rw [step, phase, work, hpublished]
  cases isOpen <;> rfl

theorem step_requestsSent {requests : List (Request R)} {failure : Option (NodeId × String)} {world : σ}
    (h : l.broadcast requests io.world = (failure, world)) :
    step l c (.requestsSent requests) io =
      .next (failure.elim .collecting fun f => .failed (.transport f.1 f.2))
        { io.publish c (.phase .requestsSent) with
          world, broadcasts := io.broadcasts ++ [requests] } := by
  have hpublished : l.broadcast requests (io.publish c (.phase .requestsSent)).world =
    (failure, world) := h
  rw [step, phase, work, Interfaces.broadcast, hpublished]
  cases failure <;> rfl

end

/-- After at most five steps the round is over, and it has done what running it does. -/
theorem gives_run [RootScalar R] (l : Link R σ) (c : RoundContext R) (world : σ) :
    (drive l c 5 .created { world := l.arm world }).2.Gives (c.run l world) := by
  have h := RoundContext.course_run l c world
  generalize c.run l world = outcome at h ⊢
  generalize c.hears? l world = hears at h
  cases h with
  | closed world' hp =>
    rw [drive_of_next (step_created hp)]
    exact .done _ _
  | undelivered world₁ world' node reason hp hs =>
    rw [drive_of_next (step_created hp), if_pos rfl, drive_of_next (step_requestsSent hs)]
    exact .done _ _
  | listening world₁ world₂ hp hs =>
    rw [drive_of_next (step_created hp), if_pos rfl, drive_of_next (step_requestsSent hs)]
    have hcollect := RoundContext.collected_collect l c world₂
    rcases htaken : Collecting.run c (l.watch c.timeout world₂).ending
      (l.watch c.timeout world₂).observed (.start c) with ⟨taken, n⟩
    rw [htaken] at hcollect
    generalize c.collect l world₂ = outcome at hcollect ⊢
    simp only [Option.elim, drive, step, work, Interfaces.publish, htaken]
    cases hcollect with
    | abandoned => exact .abandoned _
    | failed e => exact .done _ _
    | uncombined s e _ hs' =>
      simp only [hs']
      exact .done _ _
    | completed s completed _ hs' =>
      simp only [hs']
      exact .done _ _

/-! ## 4. The round as a whole -/

/-- An account of a round, from its beginning in some surroundings to its end. -/
structure Account [RootScalar R] (l : Link R σ) (c : RoundContext R) (world : σ) (visited : List Phase)
    (last : Step R σ) : Prop where
  -- After five steps the round is over, and it has done what running it does.
  steps : drive l c 5 .created { world := l.arm world } = (visited, last)
  gives : last.Gives (c.run l world)
  passage : Passage l c visited last
  events : last.io.events = visited.map (fun p => ⟨c.roundNumber, .phase p⟩) ++ last.models c
  broadcasts : last.io.broadcasts = if .requestsSent ∈ visited then [c.requests] else []
  sent : ∀ register : l.Register,
    register.sent last.io.world = register.sent world ++ last.io.broadcasts.flatten

theorem Passage.flatMap_broadcastsIn {l : Link R σ} {c : RoundContext R} {visited : List Phase}
    {last : Step R σ} (h : Passage l c visited last) :
    visited.flatMap (broadcastsIn c) = if .requestsSent ∈ visited then [c.requests] else [] := by
  cases h with
  | completes => rfl
  | fails passed hp =>
    rcases hp with rfl | rfl | rfl
    · rfl
    · rfl
    · rfl
  | abandoned => rfl

theorem account_run [RootScalar R] (l : Link R σ) (c : RoundContext R) (world : σ) :
    ∃ visited last, Account l c world visited last := by
  have hdriven := driven_drive l c (n := 5) (m := .created) trivial (Nat.le_succ 4)
    { world := l.arm world }
  have hgives := gives_run l c world
  rcases hdrive : drive l c 5 .created { world := l.arm world } with ⟨visited, last⟩
  rw [hdrive] at hdriven hgives
  have hpassage := hdriven.way.passage
  refine ⟨visited, last, hdrive, hgives, hpassage, hdriven.events, ?_, fun register => ?_⟩
  · exact hdriven.broadcasts.trans hpassage.flatMap_broadcastsIn
  · rw [hdriven.sent, register.arm, hdriven.broadcasts]
    rfl

section

variable [RootScalar R] {l : Link R σ} {c : RoundContext R} {world : σ} {visited : List Phase}
  {last : Step R σ}

/-- A round publishes new parameters if and only if it completes, and they are those of its result. -/
theorem Account.model_published (h : Account l c world visited last) (model : Option (Parameters R)) :
    .model model ∈ (c.run l world).1.published ↔
      ∃ completed, (c.run l world).1.result = .ok completed ∧
        model = some completed.aggregated.global := by
  obtain ⟨-, hgives, hpassage, hevents, -, -⟩ := h
  generalize c.run l world = outcome at hgives ⊢
  cases hgives with
  | done result io =>
    rw [show io.events = _ from hevents]
    cases hpassage with
    | completes completed => simp [Step.models, Except.mapError]
    | fails passed hp e => simp [Step.models, Except.mapError]
  | abandoned io =>
    rw [show io.events = _ from hevents]
    simp [Step.models]

/-- The new parameters are the last that a round publishes. -/
theorem Account.published_of_ok (h : Account l c world visited last) {completed : CompletedRound R}
    (hok : (c.run l world).1.result = .ok completed) : (c.run l world).1.published =
      [.phase .created, .phase .requestsSent, .phase .collecting, .phase .complete,
        .model (some completed.aggregated.global)] := by
  obtain ⟨-, hgives, hpassage, hevents, -, -⟩ := h
  generalize c.run l world = outcome at hgives hok ⊢
  cases hgives with
  | done result io =>
    rw [show io.events = _ from hevents]
    cases hpassage with
    | completes completed' =>
      obtain rfl := Except.ok.inj hok
      rfl
    | fails => contradiction
  | abandoned io => contradiction

end

end Machine

/-- A round asks each participant once, in ascending order. -/
theorem RoundContext.requests_ascend (c : RoundContext R) :
    c.requests.map Request.nodeId = c.participants.keys ∧
      c.participants.keys.Pairwise (fun a b => compare a b = .lt) ∧
      ∀ q ∈ c.requests, ∃ work, q = .train work := by
  refine ⟨?_, c.participants.ascending_keys, fun q hq => ?_⟩
  · rw [requests, List.map_map]
    rfl
  · obtain ⟨e, -, rfl⟩ := List.mem_map.1 hq
    exact ⟨_, rfl⟩

end Federation
