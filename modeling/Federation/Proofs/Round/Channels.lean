import Federation.Round.Channels
/-!
# Replies through the mailbox

Whatever a controller takes out of its mailbox was there before or was read out of a text that was
delivered, in the order of delivery. A text that is no reply leaves no trace.
-/

namespace Federation.Mailbox

theorem deliver_of_decode_eq_none {text : String} (h : Reply.decode text = none) (m : Mailbox Float) :
    m.deliver text = (.invalid, m) := by
  rw [deliver, h]

/-- What happens to a mailbox from outside and by the controller. -/
inductive Use where
  | deliver (text : String)
  | take
  -- The controller takes in no more replies.
  | close
  -- Nobody can hand in replies any more.
  | abandon

/-- The reply that is delivered, if there is one. -/
def Use.delivered : Use → List (Reply Float)
  | .deliver text => (Reply.decode text).toList
  | _ => []

/-- What the controller gets, and the mailbox afterwards. -/
def use (m : Mailbox Float) : Use → List (Reply Float) × Mailbox Float
  | .deliver text => ([], (m.deliver text).2)
  | .take =>
    match m.take with
    | (.next r, m) => ([r], m)
    | (_, m) => ([], m)
  | .close => ([], { m with isOpen := false })
  | .abandon => ([], { m with isFed := false })

/-- What the controller gets in the course of several uses. -/
def taken (m : Mailbox Float) : List Use → List (Reply Float)
  | [] => []
  | u :: uses => (m.use u).1 ++ (m.use u).2.taken uses

theorem use_sublist (m : Mailbox Float) (u : Use) :
    ((m.use u).1 ++ (m.use u).2.replies).Sublist (m.replies ++ u.delivered) := by
  cases u with
  | deliver text =>
    cases h : Reply.decode text with
    | none => simp [use, Use.delivered, deliver_of_decode_eq_none h, h]
    | some r =>
      by_cases hopen : m.isOpen = true
      · simp [use, deliver, Use.delivered, h, hopen]
      · simp [use, deliver, Use.delivered, h, hopen]
  | take =>
    cases h : m.replies with
    | nil => cases hopen : m.isOpen && m.isFed <;> simp [use, take, h, hopen]
    | cons r rest => simp [use, take, h, Use.delivered]
  | close => simp [use, Use.delivered]
  | abandon => simp [use, Use.delivered]

/-- The controller gets the replies that were there and those delivered, each at most once and in
order. -/
theorem taken_sublist (m : Mailbox Float) (uses : List Use) :
    (m.taken uses).Sublist (m.replies ++ uses.flatMap Use.delivered) := by
  induction uses generalizing m with
  | nil => exact List.nil_sublist _
  | cons u uses ih =>
    have hrest := (ih (m.use u).2).append_left (m.use u).1
    rw [← List.append_assoc] at hrest
    rw [List.flatMap_cons, ← List.append_assoc]
    exact hrest.trans ((use_sublist m u).append_right _)

end Federation.Mailbox
