import Federation.Link
/-!
# Moments of a wait

Several things can be ready at the moment at which a controller that waits looks up. It takes one of
them: a cancellation before the deadline, and the deadline before a reply. What it takes from a list of
moments is the watch of that list.
-/

namespace Federation

variable {R : Type}

/-- What is at the head of the channel of replies. -/
inductive Arrival (R : Type) where
  -- Nothing yet.
  | nothing
  | reply (r : Reply R) (elapsed : Duration)
  -- No reply can arrive any more.
  | closed

/-- What is ready when a controller that waits looks up. -/
structure Moment (R : Type) where
  cancelled : Bool := false
  expired : Bool := false
  arrival : Arrival R := .nothing

namespace Moment

/-- Whether a moment brings nothing but a reply, so that the wait can go on. -/
def isQuiet (m : Moment R) : Bool :=
  !m.cancelled && !m.expired && (match m.arrival with
    | .closed => false
    | _ => true)

theorem eq_of_isQuiet {m : Moment R} (h : m.isQuiet = true) :
    m = {} ∨ ∃ r t, m = { arrival := .reply r t } := by
  obtain ⟨cancelled, expired, arrival⟩ := m
  simp only [isQuiet, Bool.and_eq_true, Bool.not_eq_true'] at h
  obtain ⟨⟨rfl, rfl⟩, ha⟩ := h
  cases arrival with
  | nothing => exact Or.inl rfl
  | reply r t => exact Or.inr ⟨r, t, rfl⟩
  | closed => contradiction

end Moment

/-- Replies with the times they took, in the order in which they are heard. -/
abbrev Replies (R : Type) := List (Reply R × Duration)

/-- The observation of a reply. -/
def observation (e : Reply R × Duration) : Observation R := .reply e.1 e.2

/-- What a controller takes from moments. A controller that is still waiting after the last one is
abandoned there. -/
def Watch.ofMoments : List (Moment R) → Watch R
  | [] => ⟨[], .abandoned⟩
  | m :: rest =>
    if m.cancelled then ⟨[.cancelled], .abandoned⟩
    else if m.expired then ⟨[], .deadline⟩
    else
      match m.arrival with
      | .nothing => ofMoments rest
      | .reply r t => ⟨.reply r t :: (ofMoments rest).observed, (ofMoments rest).ending⟩
      | .closed => ⟨[.closed], .abandoned⟩

/-- The replies of the moments before the first one that is not quiet. -/
def heard : List (Moment R) → Replies R
  | [] => []
  | m :: rest =>
    if m.cancelled || m.expired then []
    else
      match m.arrival with
      | .nothing => heard rest
      | .reply r t => (r, t) :: heard rest
      | .closed => []

/-- Quiet moments only add the replies that they bring. -/
theorem ofMoments_append {before : List (Moment R)} (h : ∀ m ∈ before, m.isQuiet = true)
    (rest : List (Moment R)) :
    Watch.ofMoments (before ++ rest) =
      ⟨(heard before).map observation ++ (Watch.ofMoments rest).observed,
        (Watch.ofMoments rest).ending⟩ := by
  induction before with
  | nil => rfl
  | cons m before ih =>
    have hrest := ih fun m hm => h m (List.mem_cons_of_mem _ hm)
    rcases Moment.eq_of_isQuiet (h m List.mem_cons_self) with rfl | ⟨r, t, rfl⟩
    · simpa [Watch.ofMoments, heard] using hrest
    · simp [Watch.ofMoments, heard, hrest, observation]

theorem heard_append {before : List (Moment R)} (h : ∀ m ∈ before, m.isQuiet = true)
    (rest : List (Moment R)) : heard (before ++ rest) = heard before ++ heard rest := by
  induction before with
  | nil => rfl
  | cons m before ih =>
    have hrest := ih fun m hm => h m (List.mem_cons_of_mem _ hm)
    rcases Moment.eq_of_isQuiet (h m List.mem_cons_self) with rfl | ⟨r, t, rfl⟩
    · simpa [heard] using hrest
    · simp [heard, hrest]

/-- A controller observes the replies that are heard before anything else. -/
theorem observed_ofMoments (moments : List (Moment R)) :
    ∃ rest, (Watch.ofMoments moments).observed = (heard moments).map observation ++ rest := by
  induction moments with
  | nil => exact ⟨[], rfl⟩
  | cons m moments ih =>
    obtain ⟨cancelled, expired, arrival⟩ := m
    -- the cases follow the order in which a controller looks at what is ready
    cases cancelled with
    | true => exact ⟨[.cancelled], rfl⟩
    | false =>
      cases expired with
      | true => exact ⟨[], rfl⟩
      | false =>
        cases arrival with
        | nothing => exact ih
        | reply r t =>
          obtain ⟨rest, h⟩ := ih
          exact ⟨rest, by simp [Watch.ofMoments, heard, h, observation]⟩
        | closed => exact ⟨[.closed], rfl⟩

/-- Later moments do not change what was heard before. -/
theorem heard_append_prefix (moments rest : List (Moment R)) :
    ∃ l, heard (moments ++ rest) = heard moments ++ l := by
  induction moments with
  | nil => exact ⟨heard rest, rfl⟩
  | cons m moments ih =>
    obtain ⟨cancelled, expired, arrival⟩ := m
    cases cancelled with
    | true => exact ⟨[], rfl⟩
    | false =>
      cases expired with
      | true => exact ⟨[], rfl⟩
      | false =>
        obtain ⟨l, h⟩ := ih
        cases arrival with
        | nothing => exact ⟨l, h⟩
        | reply r t => exact ⟨l, by simp [heard, h]⟩
        | closed => exact ⟨[], rfl⟩

/-- Nothing is heard from a cancellation on. -/
theorem heard_append_of_cancelled (before : List (Moment R)) {rest : List (Moment R)}
    (h : ∀ m ∈ rest.head?, m.cancelled = true) : heard (before ++ rest) = heard before := by
  induction before with
  | nil =>
    cases rest with
    | nil => rfl
    | cons m rest => simp [heard, h m rfl]
  | cons m before ih => simp only [List.cons_append, heard, ih]

/-- Moments that bring the observations of a watch one by one. -/
def Moment.ofObservations (ending : Ending) : List (Observation R) → List (Moment R)
  | [] => if ending = .deadline then [{ expired := true }] else []
  | .cancelled :: _ => [{ cancelled := true }]
  | .closed :: _ => [{ arrival := .closed }]
  | .reply r t :: rest => { arrival := .reply r t } :: ofObservations ending rest

theorem mem_heard_ofObservations {ending : Ending} {observed : List (Observation R)}
    {e : Reply R × Duration} (h : e ∈ heard (Moment.ofObservations ending observed)) :
    .reply e.1 e.2 ∈ observed := by
  induction observed with
  | nil => cases ending <;> contradiction
  | cons o observed ih =>
    cases o with
    | cancelled => contradiction
    | closed => contradiction
    | reply r t =>
      have hcons : e ∈ (r, t) :: heard (Moment.ofObservations ending observed) := h
      rcases List.mem_cons.1 hcons with rfl | he
      · exact List.mem_cons_self
      · exact List.mem_cons_of_mem _ (ih he)

end Federation
