import Mathlib
import Federation.Proofs.Storage.Files
/-!
# A store in files answers as one in memory

Calls of a store in files are answered as a store in memory answers them, also if writes are cut off by
a crash at any point before their rename: a write that is cut off has not happened.
-/

namespace Federation

/-! ## 1. Calls -/

namespace Store

inductive Call where
  | set (id : CheckpointId) (document : String)
  | get (id : CheckpointId)
  | latest (experiment : ExperimentId)
  deriving DecidableEq

inductive Answer where
  | stored (r : Except StorageError Unit)
  | document (r : Except StorageError (Option String))
  | latest (r : Except StorageError (Option CheckpointId))
  deriving DecidableEq

/-- The experiment that a call is about. -/
def Call.experiment : Call → ExperimentId
  | .set id _ | .get id => id.experimentId
  | .latest experiment => experiment

/-- Nothing is stored or found. -/
def Answer.IsRefusal : Answer → Prop
  | .stored r => ∃ e, r = .error e
  | .document r => ∀ document, r ≠ .ok (some document)
  | .latest r => ∀ id, r ≠ .ok (some id)

variable {σ : Type} (s : Store σ)

def answer : Call → σ → Answer × σ
  | .set id document, state => (.stored (s.set id document state).1, (s.set id document state).2)
  | .get id, state => (.document (s.get id state), state)
  | .latest experiment, state => (.latest (s.latest experiment state), state)

/-- Calls with their answers, one after the other. -/
def trace : List Call → σ → List (Call × Answer)
  | [], _ => []
  | c :: calls, state => (c, (s.answer c state).1) :: trace calls (s.answer c state).2

theorem mem_of_mem_trace {calls : List Call} {state : σ} {x : Call × Answer}
    (h : x ∈ s.trace calls state) : x.1 ∈ calls := by
  induction calls generalizing state with
  | nil => contradiction
  | cons c calls ih =>
    rcases List.mem_cons.1 h with rfl | h
    · exact List.mem_cons_self
    · exact List.mem_cons_of_mem c (ih h)

end Store

/-! ## 2. Crashes -/

namespace FileTree.Step

def isRename : Step → Bool
  | .rename .. => true
  | .makeDirectories _ | .create _ | .append .. | .sync _ => false

/-- What is done of a step that is cut off. Directories are made one after the other and a text is
written from its start, other steps are done at once. -/
def part (n : Nat) : Step → Option Step
  | .makeDirectories p => some (.makeDirectories (p.take n))
  | .append p text => some (.append p (String.ofList (text.toList.take n)))
  | .create _ | .rename .. | .sync _ => none

end FileTree.Step

namespace FileStore

open FileTree

/-- Steps that are cut off after so many whole ones and a part of the next one. -/
def cutOff (whole part : Nat) (steps : List (String × Step)) : List (String × Step) :=
  steps.take whole ++ (steps[whole]?.bind fun s => (s.2.part part).map (s.1, ·)).toList

/-- The steps of a write before its rename. -/
def preparation (root : String) (id : CheckpointId) (document : String) : List (String × Step) :=
  (writeSteps root id document).takeWhile fun s => !s.2.isRename

/-- What a write leaves that a crash cuts off before its rename. -/
def crash (root : String) (id : CheckpointId) (document : String) (whole part : Nat) (t : FileTree) :
    FileTree :=
  match experimentDir root id.experimentId with
  | .error _ => t
  | .ok _ => (t.run (cutOff whole part (preparation root id document))).2

/-- A call, or a write that a crash cuts off. -/
inductive Event where
  | call (c : Store.Call)
  | crash (id : CheckpointId) (document : String) (whole part : Nat)

namespace Event

def experiment : Event → ExperimentId
  | .call c => c.experiment
  | .crash id .. => id.experimentId

def call? : Event → Option Store.Call
  | .call c => some c
  | .crash .. => none

end Event

/-- The calls among some events, with the answers of the store in files. -/
def trace (root : String) : List Event → FileTree → List (Store.Call × Store.Answer)
  | [], _ => []
  | .call c :: events, t =>
    (c, ((Store.files root).answer c t).1) :: trace root events ((Store.files root).answer c t).2
  | .crash id document whole part :: events, t =>
    trace root events (crash root id document whole part t)

variable {root : String} {rule : NameRule} {t : FileTree} {m : Memory}

theorem Preliminary.part {s s' : Step} {n : Nat} (h : Preliminary root s) (hs : s.part n = some s') :
    Preliminary root s' := by
  cases h with
  | makeDirectories h =>
    obtain rfl := Option.some.inj hs
    exact .makeDirectories ((List.take_prefix n _).trans h)
  | create id => contradiction
  | append id text =>
    obtain rfl := Option.some.inj hs
    exact .append id _
  | sync p => contradiction

theorem preliminary_of_mem_preparation {id : CheckpointId} {document : String} {s : String × Step}
    (h : s ∈ preparation root id document) : Preliminary root s.2 := by
  simp only [preparation, writeSteps, List.takeWhile, Step.isRename, Bool.not_false, Bool.not_true,
    List.mem_cons, List.not_mem_nil, or_false] at h
  rcases h with rfl | rfl | rfl | rfl
  · exact .makeDirectories (List.prefix_refl _)
  · exact .create id
  · exact .append id document
  · exact .sync _

theorem preliminary_of_mem_cutOff {steps : List (String × Step)}
    (h : ∀ s ∈ steps, Preliminary root s.2) (whole part : Nat) :
    ∀ s ∈ cutOff whole part steps, Preliminary root s.2 := by
  intro s hs
  rcases List.mem_append.1 hs with hs | hs
  · exact h s (List.mem_of_mem_take hs)
  · obtain ⟨next, hnext, hs⟩ := Option.bind_eq_some_iff.1 (Option.mem_toList.1 hs)
    obtain ⟨s', hpart, rfl⟩ := Option.map_eq_some_iff.1 hs
    exact (h next (List.mem_of_getElem? hnext)).part hpart

/-! ## 3. Refinement -/

/-- A root below which nothing stands, and that can be made. -/
structure Vacant (root : String) (t : FileTree) : Prop where
  wellFormed : t.WellFormed
  suited : Suited t.names
  clear : t.Clear (pathOf root)
  free : ∀ p, pathOf root <+: p → p ≠ pathOf root → t.entryAt p = none

theorem vacant_new (hsuited : Suited rule) (hroot : ∀ name ∈ pathOf root, rule.Takes name) :
    Vacant root { names := rule } := by
  have hnone : ∀ p, p ≠ [] → ({ names := rule } : FileTree).entryAt p = none := fun p hp => if_neg hp
  exact
    { wellFormed := ⟨fun p name hne => absurd (hnone _ (by simp)) hne,
        fun p name hne => absurd (hnone _ (by simp)) hne⟩
      suited := hsuited
      clear := ⟨hroot, fun p _ content => by by_cases hp : p = [] <;> simp [hp, hnone]⟩
      free := fun p hp hne => hnone p fun hnil => hne (by
        subst hnil
        rw [List.prefix_nil.1 hp]) }

/-- Two answers to a call agree: they are the same if the experiment can have a directory, and nothing
is stored or found if it cannot. -/
structure Agrees (root : String) (rule : NameRule) (x y : Store.Call × Store.Answer) : Prop where
  call : x.1 = y.1
  same : Nameable root rule x.1.experiment → x.2 = y.2
  refused : ¬Nameable root rule x.1.experiment → x.2.IsRefusal

theorem eq_of_agrees {l l' : List (Store.Call × Store.Answer)}
    (h : List.Forall₂ (Agrees root rule) l l')
    (hname : ∀ y ∈ l', Nameable root rule y.1.experiment) : l = l' := by
  induction h with
  | nil => rfl
  | cons hxy _ ih =>
    have hx := hname _ List.mem_cons_self
    rw [← hxy.call] at hx
    rw [Prod.ext hxy.call (hxy.same hx), ih fun y hy => hname y (List.mem_cons_of_mem _ hy)]

/-- Where nothing stands, the empty memory is mirrored. -/
theorem Vacant.mirrors (h : Vacant root t) : Mirrors root t.names t {} := by
  have hfree : ∀ e l, t.entryAt (directory root e ++ l) = none := by
    intro e l
    apply h.free
    · exact (List.prefix_append _ _).trans (List.prefix_append _ _)
    · simp [directory]
  exact
    { wellFormed := h.wellFormed
      names := rfl
      suited := h.suited
      rooted := h.clear.names
      way := by
        intro e p hp content
        rcases List.prefix_concat_iff.1 hp with heq | hp
        · have hnone : t.entryAt (directory root e) = none := by simpa using hfree e []
          have hdir : p = directory root e := heq
          simp [hdir, hnone]
        · exact h.clear.way p hp content
      temporaries := fun id => by simp [temporary, hfree]
      documents := fun id _ => hfree _ _
      rounds := fun e name round hne => absurd (hfree e [name]) hne }

namespace Mirrors

/-- What is stored for an experiment that cannot have a directory is not looked for in files. -/
theorem forget (h : Mirrors root rule t m) {id : CheckpointId}
    (hid : ¬Nameable root rule id.experimentId) (document : String) :
    Mirrors root rule t (m.set id document) :=
  { h with
    documents := by
      intro id' hid'
      have hne : id' ≠ id := by
        rintro rfl
        exact hid hid'
      rw [Memory.get_set, if_neg hne]
      exact h.documents id' hid' }

theorem crash (h : Mirrors root rule t m) (id : CheckpointId) (document : String) (whole part : Nat) :
    Mirrors root rule (FileStore.crash root id document whole part t) m := by
  rw [FileStore.crash]
  split
  · exact h
  · exact h.run (preliminary_of_mem_cutOff (fun _ => preliminary_of_mem_preparation) whole part)

/-- Both stores answer a call alike, and go on alike. -/
theorem answer (h : Mirrors root rule t m) (c : Store.Call) :
    Agrees root rule (c, ((Store.files root).answer c t).1) (c, (Memory.store.answer c m).1) ∧
      Mirrors root rule ((Store.files root).answer c t).2 (Memory.store.answer c m).2 := by
  cases c with
  | set id document =>
    by_cases hid : Nameable root rule id.experimentId
    · obtain ⟨t', hset, h'⟩ := h.set hid document
      have hfiles : (Store.files root).set id document t = (.ok (), t') := hset
      simp only [Store.answer, hfiles]
      exact ⟨⟨rfl, fun _ => rfl, fun hnot => absurd hid hnot⟩, h'⟩
    · obtain ⟨e, t', hset, h'⟩ := h.set_of_not_nameable hid document
      have hfiles : (Store.files root).set id document t = (.error e, t') := hset
      simp only [Store.answer, hfiles]
      exact ⟨⟨rfl, fun hname => absurd hname hid, fun _ => ⟨e, rfl⟩⟩, h'.forget hid document⟩
  | get id =>
    exact ⟨⟨rfl, fun hid => congrArg Store.Answer.document (h.get_eq hid),
      fun hid => h.get_of_not_nameable hid⟩, h⟩
  | latest experiment =>
    exact ⟨⟨rfl, fun hname => congrArg Store.Answer.latest (h.latest_eq hname),
      fun hname => h.latest_of_not_nameable hname⟩, h⟩

theorem trace (h : Mirrors root rule t m) (events : List Event) :
    List.Forall₂ (Agrees root rule) (FileStore.trace root events t)
      (Memory.store.trace (events.filterMap Event.call?) m) := by
  induction events generalizing t m with
  | nil => exact .nil
  | cons event events ih =>
    cases event with
    | call c =>
      obtain ⟨hagrees, h'⟩ := h.answer c
      exact .cons hagrees (ih h')
    | crash id document whole part => exact ih (h.crash id document whole part)

end Mirrors

/-- Whatever is called and wherever writes are cut off before their rename, a store in files below an
empty root answers each call as the memory does that never heard of the writes cut off. On a file system
that takes all names this holds for all experiments that the store accepts; on any file system it holds
for those whose identifiers it takes as names, and of the others nothing is ever stored or found. -/
theorem files_answer_as_memory (root : String) {t : FileTree} (h : Vacant root t)
    (events : List Event) :
    ((∀ name, t.names.Takes name) →
      (∀ e ∈ events, ∃ dir, experimentDir root e.experiment = .ok dir) →
        trace root events t = Memory.store.trace (events.filterMap Event.call?) {}) ∧
    List.Forall₂ (Agrees root t.names) (trace root events t)
      (Memory.store.trace (events.filterMap Event.call?) {}) := by
  have hagrees := h.mirrors.trace events
  refine ⟨fun htakes haccepted => eq_of_agrees hagrees fun y hy => ?_, hagrees⟩
  obtain ⟨event, hmem, hcall⟩ := List.mem_filterMap.1 (Store.mem_of_mem_trace _ hy)
  have hdir := haccepted event hmem
  cases event with
  | crash => contradiction
  | call c =>
    obtain rfl := Option.some.inj hcall
    exact ⟨hdir, htakes _⟩

/-- Two checkpoints are stored, and a write in place of the first one is cut off after its first
character. -/
def interruptedEvents : List Event :=
  [.call (.set ⟨"mnist", 999999⟩ "first"), .call (.set ⟨"mnist", 1000000⟩ "second"),
    .crash ⟨"mnist", 999999⟩ "third" 2 1, .call (.get ⟨"mnist", 999999⟩), .call (.latest "mnist"),
    .call (.latest "cifar")]

theorem files_answer_as_memory_after_crash :
    Vacant "." { names := unlimited } ∧ Vacant "." { names := .standard } ∧
      (∀ e ∈ interruptedEvents, ∃ dir, experimentDir "." e.experiment = .ok dir) ∧
      (trace "." interruptedEvents { names := unlimited }).map Prod.snd =
        [.stored (.ok ()), .stored (.ok ()), .document (.ok (some "first")),
          .latest (.ok (some ⟨"mnist", 1000000⟩)), .latest (.ok none)] ∧
      List.Forall₂ (Agrees "." .standard)
        (trace "." interruptedEvents { names := .standard })
        (Memory.store.trace (interruptedEvents.filterMap Event.call?) {}) := by
  have hvacant : Vacant "." { names := unlimited } :=
    vacant_new suited_unlimited fun name _ => takes_unlimited name
  have hstandard : Vacant "." { names := .standard } := by
    refine vacant_new suited_standard fun name hname => ?_
    -- the equations of byte arrays that this computes with come with the whole of Mathlib only
    have hpath : pathOf "." = [] := by cbv
    rw [hpath] at hname
    contradiction
  have haccepted : ∀ e ∈ interruptedEvents, ∃ dir, experimentDir "." e.experiment = .ok dir := by
    intro e he
    have hexperiment : e.experiment = "mnist" ∨ e.experiment = "cifar" := by
      simp only [interruptedEvents, List.mem_cons, List.not_mem_nil, or_false] at he
      rcases he with rfl | rfl | rfl | rfl | rfl | rfl <;> simp [Event.experiment, Store.Call.experiment]
    rcases hexperiment with heq | heq
    · exact ⟨"./mnist", by rw [heq]; decide +kernel⟩
    · exact ⟨"./cifar", by rw [heq]; decide +kernel⟩
  refine ⟨hvacant, hstandard, haccepted, ?_,
    (files_answer_as_memory "." hstandard interruptedEvents).2⟩
  rw [(files_answer_as_memory "." hvacant interruptedEvents).1 takes_unlimited haccepted]
  decide +kernel

end FileStore

end Federation
