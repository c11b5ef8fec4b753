import Federation.Proofs.Except
import Federation.Proofs.Round.Completion
/-!
# The course of a round

A round listens for replies if the channel of the replies is open and all its requests are sent. Then
the replies that it hears decide whether it completes.
-/

namespace Federation

variable {R σ : Type}

theorem mem_published_failed {phases : List Phase} {e : RoundError R} {p : Publication R}
    (h : p ∈ (RoundOutcome.failed phases e).published) : ∃ phase, p = .phase phase := by
  obtain ⟨phase, -, rfl⟩ := List.mem_map.1 h
  exact ⟨phase, rfl⟩

namespace RoundContext

/-- The replies that a round hears, unless it fails before it listens. -/
def hears? (l : Link R σ) (c : RoundContext R) (world : σ) : Option (Replies R) :=
  let (isOpen, world) := l.purge (l.arm world)
  if !isOpen then none
  else
    match l.broadcast c.requests world with
    | (some _, _) => none
    | (none, world) =>
      let w := l.watch c.timeout world
      some (heard (Moment.ofObservations w.ending w.observed))

variable [RootScalar R] (l : Link R σ) (c : RoundContext R)

/-- What becomes of a round, and what it hears. -/
inductive Course (world : σ) : RoundOutcome R × σ → Option (Replies R) → Prop where
  | closed (world' : σ) (hp : l.purge (l.arm world) = (false, world')) :
    Course world (.failed [.created] .replyChannel, world') none
  | undelivered (world₁ world' : σ) (node : NodeId) (reason : String)
    (hp : l.purge (l.arm world) = (true, world₁))
    (hs : l.broadcast c.requests world₁ = (some (node, reason), world')) :
    Course world (.failed [.created, .requestsSent] (.transport node reason), world') none
  | listening (world₁ world₂ : σ) (hp : l.purge (l.arm world) = (true, world₁))
    (hs : l.broadcast c.requests world₁ = (none, world₂)) :
    Course world (c.collect l world₂) (some (heard (Moment.ofObservations
      (l.watch c.timeout world₂).ending (l.watch c.timeout world₂).observed)))

theorem course_run (world : σ) : Course l c world (c.run l world) (c.hears? l world) := by
  rw [run, hears?]
  rcases hp : l.purge (l.arm world) with ⟨isOpen, world₁⟩
  cases isOpen with
  | false => exact .closed world₁ hp
  | true =>
    rcases hs : l.broadcast c.requests world₁ with ⟨failure, world₂⟩
    cases failure with
    | some f => simpa [hs] using .undelivered world₁ world₂ f.1 f.2 hp hs
    | none => simpa [hs] using .listening world₁ world₂ hp hs

/-- A round completes if the replies that it hears are acceptable, leave nobody out and can be
combined. -/
theorem run_result_eq_ok (world : σ) (completed : CompletedRound R) :
    (c.run l world).1.result = .ok completed ↔
      ∃ replies, c.hears? l world = some replies ∧ Collecting.Sound c replies ∧
        Collecting.Complete c replies ∧ (Collecting.after c replies).complete c = .ok completed := by
  have h := course_run l c world
  generalize c.run l world = outcome at h ⊢
  generalize c.hears? l world = hears at h ⊢
  cases h with
  | closed => simp [RoundOutcome.failed]
  | undelivered => simp [RoundOutcome.failed]
  | listening world₁ world₂ =>
    -- the observations of the watch are brought by moments, over which the outcome is known
    rw [collect_result, ← Collecting.run_ofObservations]
    generalize Moment.ofObservations _ _ = moments
    change (Collecting.outcome c moments).bind _ = _ ↔ _
    constructor
    · intro h
      cases ho : Collecting.outcome c moments with
      | error e =>
        rw [ho] at h
        contradiction
      | ok s =>
        rw [ho] at h
        obtain ⟨hs, hc, rfl⟩ := Collecting.outcome_eq_ok.1 ho
        exact ⟨_, rfl, hs, hc, mapError_eq_ok.1 h⟩
    · rintro ⟨replies, hr, hs, hc, h⟩
      obtain rfl := Option.some.inj hr
      rw [Collecting.outcome_of_complete hs hc]
      exact mapError_eq_ok.2 h

variable {l c}

/-- A round that fails only publishes phases. -/
theorem published_of_failed {world : σ} {e : RoundError R}
    (h : (c.run l world).1.result = .error (.failed e)) :
    ∀ p ∈ (c.run l world).1.published, ∃ phase, p = .phase phase := by
  have hrun := course_run l c world
  generalize c.run l world = outcome at h hrun ⊢
  generalize c.hears? l world = hears at hrun
  cases hrun with
  | closed => exact fun p => mem_published_failed
  | undelivered => exact fun p => mem_published_failed
  | listening world₁ world₂ =>
    have hcollect := collected_collect l c world₂
    generalize Collecting.run c _ _ _ = taken at hcollect
    generalize c.collect l world₂ = outcome at h hcollect ⊢
    cases hcollect with
    | abandoned n => simp at h
    | failed e n => exact fun p => mem_published_failed
    | uncombined s e n hs => exact fun p => mem_published_failed
    | completed s completed n hs => simp at h

end RoundContext

end Federation
