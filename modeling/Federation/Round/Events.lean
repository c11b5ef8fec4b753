import Federation.Parameters
/-!
# Events

A controller publishes the phases of its rounds and its new global parameters. Whoever follows it
sees the latest event of either kind.
-/

namespace Federation

inductive Phase where
  | created
  | requestsSent
  | collecting
  | complete
  | failed
  deriving DecidableEq

def Phase.name : Phase → String
  | .created => "Created"
  | .requestsSent => "RequestsSent"
  | .collecting => "Collecting"
  | .complete => "Complete"
  | .failed => "Failed"

def Phase.all : List Phase := [.created, .requestsSent, .collecting, .complete, .failed]

inductive Publication (R : Type) where
  | phase (p : Phase)
  -- New global parameters, or that there are none.
  | model (params : Option (Parameters R))

structure Event (α : Type) where
  round : RoundNumber
  event : α

structure Events (R : Type) where
  phase : Event Phase
  model : Event (Option (Parameters R))

namespace Events

variable {R : Type}

/-- The events before the first round that is run. -/
def start (round : RoundNumber) (model : Option (Parameters R)) : Events R :=
  ⟨⟨round, .created⟩, ⟨round, model⟩⟩

def publish (e : Events R) (round : RoundNumber) : Publication R → Events R
  | .phase p => { e with phase := ⟨round, p⟩ }
  | .model m => { e with model := ⟨round, m⟩ }

def publishAll (e : Events R) (round : RoundNumber) (l : List (Publication R)) : Events R :=
  l.foldl (fun e p => e.publish round p) e

end Events

end Federation
