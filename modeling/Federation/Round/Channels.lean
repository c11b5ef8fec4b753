import Federation.Message.Codec
import Federation.Round.Events
/-!
# Channels of a controller

A controller is connected to its surroundings by three kinds of channels. A `Feed` carries events and
keeps the latest one for its listeners. A `Cancellation` counts how often the running round was
cancelled; a listener heeds those that follow its arming. A `Mailbox` holds the replies that have
arrived until the controller takes them.
-/

namespace Federation

inductive News (α : Type) where
  -- Nothing at present.
  | pending
  -- Nothing any more.
  | ended
  | next (a : α)

/-! ## Events -/

structure Feed (α : Type) where
  latest : α
  -- The number of events that followed the first one.
  count : Nat := 0
  isOpen : Bool := true

namespace Feed

variable {α : Type}

def publish (f : Feed α) (a : α) : Feed α := { f with latest := a, count := f.count + 1 }

/-- What a listener learns that has seen the first `seen` of the events that followed the first one. -/
def news (f : Feed α) (seen : Nat) : News α :=
  if seen ≠ f.count then .next f.latest else if f.isOpen then .pending else .ended

end Feed

/-! ## Cancellation -/

structure Cancellation where
  count : Nat := 0
  deriving DecidableEq

namespace Cancellation

def cancel (c : Cancellation) : Cancellation := ⟨c.count + 1⟩

/-- Whether a listener that was armed after `armed` cancellations is to stop. -/
def stops (c : Cancellation) (armed : Nat) : Bool := c.count != armed

end Cancellation

/-! ## Replies -/

inductive Delivery where
  | accepted
  -- The text is no reply.
  | invalid
  -- Nobody takes replies any more.
  | closed
  deriving DecidableEq

/-- The replies on their way to the controller, the earliest one first. -/
structure Mailbox (R : Type) where
  replies : List (Reply R) := []
  -- Whether the controller still takes in replies.
  isOpen : Bool := true
  -- Whether anybody can hand in replies.
  isFed : Bool := true

namespace Mailbox

variable {R : Type}

def deliver (m : Mailbox Float) (text : String) : Delivery × Mailbox Float :=
  match Reply.decode text with
  | none => (.invalid, m)
  | some r => if m.isOpen then (.accepted, { m with replies := m.replies ++ [r] }) else (.closed, m)

def take (m : Mailbox R) : News (Reply R) × Mailbox R :=
  match m.replies with
  | r :: rest => (.next r, { m with replies := rest })
  | [] => (if m.isOpen && m.isFed then .pending else .ended, m)

end Mailbox

end Federation
