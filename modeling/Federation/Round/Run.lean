import Federation.Round.Collecting
import Federation.Round.Events
/-!
# Running a round

A round passes through the phases created, requests sent, collecting and complete; a failure in any
but the last one ends it in the phase failed. Each phase is published when it begins, and the new
global parameters when the round completes.
-/

namespace Federation

structure RoundOutcome (R : Type) where
  result : Except (Stop (RoundError R)) (CompletedRound R)
  -- What the round published, in order.
  published : List (Publication R)

namespace RoundOutcome

variable {R : Type}

def failed (phases : List Phase) (e : RoundError R) : RoundOutcome R :=
  ⟨.error (.failed e), (phases ++ [Phase.failed]).map .phase⟩

end RoundOutcome

namespace RoundContext

variable {R σ : Type} [RootScalar R]

def collect (l : Link R σ) (c : RoundContext R) (world : σ) : RoundOutcome R × σ :=
  let w := l.watch c.timeout world
  let (result, n) := Collecting.run c w.ending w.observed (.start c)
  let world := l.advance c.timeout n world
  let phases := [Phase.created, .requestsSent, .collecting]
  match result with
  | .error .abandoned => (⟨.error .abandoned, phases.map .phase⟩, world)
  | .error (.failed e) => (.failed phases e, world)
  | .ok s =>
    match s.complete c with
    | .error e => (.failed phases e, world)
    | .ok completed =>
      (⟨.ok completed,
        (phases ++ [Phase.complete]).map .phase ++ [.model (some completed.aggregated.global)]⟩, world)

def run (l : Link R σ) (c : RoundContext R) (world : σ) : RoundOutcome R × σ :=
  let (isOpen, world) := l.purge (l.arm world)
  if !isOpen then (.failed [.created] .replyChannel, world)
  else
    let (failure, world) := l.broadcast c.requests world
    match failure with
    | some (node, reason) => (.failed [.created, .requestsSent] (.transport node reason), world)
    | none => c.collect l world

end RoundContext

end Federation
