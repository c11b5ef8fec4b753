import Federation.Proofs.Storage.FileName
import Federation.Proofs.Storage.Memory
/-!
# Checkpoints in files

The files of a store mirror a memory: the file of a checkpoint stands there, with its document, exactly
if the memory has the document. What precedes a rename leaves the mirrored memory as it is, and the
rename changes it as the memory changes when the document is stored.
-/

namespace Federation.FileStore

open FileTree

variable {root : String} {rule : NameRule} {t : FileTree} {m : Memory}

/-! ## 1. Paths -/

/-- The file to which a checkpoint is written first. -/
def temporary (root : String) (id : CheckpointId) : Path :=
  directory root id.experimentId ++ [temporaryName id.round]

/-- An experiment can have a directory: the store accepts its identifier, and the file system takes it
as a name. -/
structure Nameable (root : String) (rule : NameRule) (experiment : ExperimentId) : Prop where
  accepted : ∃ dir, experimentDir root experiment = .ok dir
  taken : rule.Takes experiment

theorem file_injective {id id' : CheckpointId} (h : file root id = file root id') : id = id' := by
  obtain ⟨experiment, round⟩ := id
  obtain ⟨experiment', round'⟩ := id'
  obtain ⟨hdir, hname⟩ := List.append_singleton_inj.1 h
  obtain ⟨-, rfl⟩ := List.append_singleton_inj.1 hdir
  obtain rfl : round = round' := fileName_injective hname
  rfl

theorem file_ne_temporary (id id' : CheckpointId) : file root id ≠ temporary root id' := by
  intro h
  exact temporaryName_ne_fileName _ _ (List.append_singleton_inj.1 h).2.symm

/-- What stands in the directory of an experiment is not on the way to one. -/
theorem not_prefix_directory {experiment experiment' : ExperimentId} {name : String} {p : Path}
    (hp : p <+: directory root experiment) : ¬directory root experiment' ++ [name] <+: p := by
  intro h
  have hle := (h.trans hp).length_le
  simp [directory] at hle

/-! ## 2. Files that mirror a memory -/

structure Mirrors (root : String) (rule : NameRule) (t : FileTree) (m : Memory) : Prop where
  wellFormed : t.WellFormed
  names : t.names = rule
  suited : Suited rule
  rooted : ∀ name ∈ pathOf root, rule.Takes name
  way : ∀ experiment p, p <+: directory root experiment → ∀ content, t.entryAt p ≠ some (.file content)
  temporaries : ∀ id, t.entryAt (temporary root id) ≠ some .directory
  documents : ∀ id, Nameable root rule id.experimentId →
    t.entryAt (file root id) = (m.get id).map .file
  -- Only files of checkpoints have names that tell a round.
  rounds : ∀ experiment name round, t.entryAt (directory root experiment ++ [name]) ≠ none →
    parseFileName name = some round → name = fileName round

namespace Mirrors

theorem clear (h : Mirrors root rule t m) {experiment : ExperimentId}
    (hname : rule.Takes experiment) : t.Clear (directory root experiment) where
  names name hmem := by
    rw [h.names]
    rcases List.mem_append.1 hmem with hmem | hmem
    · exact h.rooted name hmem
    · rw [List.mem_singleton.1 hmem]
      exact hname
  way := h.way experiment

theorem made (h : Mirrors root rule t m) {t' : FileTree} {p : Path} {experiment : ExperimentId}
    (hmade : Made t t' p) (hp : p <+: directory root experiment) (ht' : t'.WellFormed) :
    Mirrors root rule t' m := by
  have hsame : ∀ e name, t'.entryAt (directory root e ++ [name]) =
      t.entryAt (directory root e ++ [name]) := fun e name =>
    (hmade.entry _).resolve_right fun hnew => not_prefix_directory hp hnew.2.2
  exact
    { wellFormed := ht'
      names := hmade.names.trans h.names
      suited := h.suited
      rooted := h.rooted
      way := by
        intro e q hq content
        rcases hmade.entry q with heq | ⟨-, hdir, -⟩
        · rw [heq]
          exact h.way e q hq content
        · simp [hdir]
      temporaries := fun id => (hsame _ _).symm ▸ h.temporaries id
      documents := fun id hid => (hsame _ _).trans (h.documents id hid)
      rounds := fun e name round hne => h.rounds e name round ((hsame e name) ▸ hne) }

theorem put_temporary (h : Mirrors root rule t m) {id : CheckpointId} {content : String}
    (ht' : (t.put (temporary root id) (.file content)).WellFormed) :
    Mirrors root rule (t.put (temporary root id) (.file content)) m := by
  have hentry : ∀ p, (t.put (temporary root id) (.file content)).entryAt p =
      if p = temporary root id then some (.file content) else t.entryAt p :=
    fun p => entryAt_put (by simp [temporary])
  exact
    { wellFormed := ht'
      names := h.names
      suited := h.suited
      rooted := h.rooted
      way := by
        intro e p hp content'
        have hne : p ≠ temporary root id := by
          rintro rfl
          exact not_prefix_directory hp (List.prefix_refl _)
        rw [hentry, if_neg hne]
        exact h.way e p hp content'
      temporaries := by
        intro id'
        rw [hentry]
        split
        · simp
        · exact h.temporaries id'
      documents := by
        intro id' hid
        rw [hentry, if_neg (file_ne_temporary id' id)]
        exact h.documents id' hid
      rounds := by
        intro e name round hne hround
        rw [hentry] at hne
        split at hne
        next heq =>
          rw [(List.append_singleton_inj.1 heq).2, parseFileName_temporaryName] at hround
          contradiction
        next => exact h.rounds e name round hne hround }

/-- The file of a checkpoint takes the place of its document. -/
theorem put_file (h : Mirrors root rule t m) {id : CheckpointId} {document : String}
    (ht' : ((t.remove (temporary root id)).put (file root id) (.file document)).WellFormed) :
    Mirrors root rule ((t.remove (temporary root id)).put (file root id) (.file document))
      (m.set id document) := by
  have hentry : ∀ p, ((t.remove (temporary root id)).put (file root id) (.file document)).entryAt p =
      if p = file root id then some (.file document)
      else if p = temporary root id then none else t.entryAt p := fun p => by
    rw [entryAt_put (by simp [file]), entryAt_remove (by simp [temporary])]
  exact
    { wellFormed := ht'
      names := h.names
      suited := h.suited
      rooted := h.rooted
      way := by
        intro e p hp content
        have hfile : p ≠ file root id := by
          rintro rfl
          exact not_prefix_directory hp (List.prefix_refl _)
        rw [hentry, if_neg hfile]
        split
        · simp
        · exact h.way e p hp content
      temporaries := by
        intro id'
        rw [hentry, if_neg (file_ne_temporary id id').symm]
        split
        · simp
        · exact h.temporaries id'
      documents := by
        intro id' hid
        rw [hentry, Memory.get_set, if_neg (file_ne_temporary id' id)]
        by_cases heq : id' = id
        · rw [if_pos heq, if_pos (congrArg (file root) heq)]
          rfl
        · rw [if_neg heq, if_neg fun hfile => heq (file_injective hfile)]
          exact h.documents id' hid
      rounds := by
        intro e name round hne hround
        rw [hentry] at hne
        split at hne
        next heq =>
          obtain ⟨-, rfl⟩ := List.append_singleton_inj.1 heq
          rw [parseFileName_fileName, Option.some.injEq] at hround
          rw [hround]
        next =>
          split at hne
          · contradiction
          · exact h.rounds e name round hne hround }

end Mirrors

/-! ## 3. Steps before a rename -/

/-- A step on the way to a checkpoint that leaves all checkpoints as they are. -/
inductive Preliminary (root : String) : Step → Prop
  | makeDirectories {p : Path} {experiment : ExperimentId} (h : p <+: directory root experiment) :
    Preliminary root (.makeDirectories p)
  | create (id : CheckpointId) : Preliminary root (.create (temporary root id))
  | append (id : CheckpointId) (text : String) : Preliminary root (.append (temporary root id) text)
  | sync (p : Path) : Preliminary root (.sync p)

/-- So much of a document is written to its temporary file. -/
structure Written (root : String) (id : CheckpointId) (text : String) (t : FileTree) : Prop where
  dir : t.entryAt (directory root id.experimentId) = some .directory
  file : t.entryAt (temporary root id) = some (.file text)

theorem written_put {id : CheckpointId}
    (hdir : t.entryAt (directory root id.experimentId) = some .directory) (text : String) :
    Written root id text (t.put (temporary root id) (.file text)) := by
  have hput : ∀ p, (t.put (temporary root id) (.file text)).entryAt p =
      if p = temporary root id then some (.file text) else t.entryAt p :=
    fun p => entryAt_put (by simp [temporary])
  have hne : directory root id.experimentId ≠ temporary root id := by simp [temporary]
  exact ⟨by rw [hput, if_neg hne, hdir], by rw [hput, if_pos rfl]⟩

namespace Mirrors

theorem apply (h : Mirrors root rule t m) {s : Step} (hs : Preliminary root s) :
    Mirrors root rule (t.apply s).2 m := by
  have hwell := h.wellFormed.apply s
  cases hs with
  | makeDirectories hp => exact h.made (made_apply t _) hp hwell
  | create id =>
    rw [FileTree.apply] at hwell ⊢
    cases hc : t.checkTarget (temporary root id) with
    | error e => exact h
    | ok _ =>
      rw [hc] at hwell
      exact h.put_temporary hwell
  | append id text =>
    rw [FileTree.apply] at hwell ⊢
    cases hr : t.read (temporary root id) with
    | error e => exact h
    | ok content =>
      rw [hr] at hwell
      exact h.put_temporary hwell
  | sync p => exact h

theorem run (h : Mirrors root rule t m) {steps : List (String × Step)}
    (hsteps : ∀ s ∈ steps, Preliminary root s.2) : Mirrors root rule (t.run steps).2 m := by
  induction steps generalizing t with
  | nil => exact h
  | cons s steps ih =>
    have hs := h.apply (hsteps s List.mem_cons_self)
    rw [FileTree.run]
    rcases ht : t.apply s.2 with ⟨r, t'⟩
    rw [ht] at hs
    cases r with
    | error e => exact hs
    | ok _ => exact ih hs fun s' hs' => hsteps s' (List.mem_cons_of_mem s hs')

/-! ## 4. Storing a document -/

theorem makeDirectory (h : Mirrors root rule t m) {experiment : ExperimentId}
    (htaken : rule.Takes experiment) :
    ∃ t', t.apply (.makeDirectories (directory root experiment)) = (.ok (), t') ∧
      Mirrors root rule t' m ∧ t'.entryAt (directory root experiment) = some .directory := by
  obtain ⟨t', hmade, hdir⟩ := apply_makeDirectories (h.clear htaken)
  have h' := h.apply (.makeDirectories (List.prefix_refl (directory root experiment)))
  rw [hmade] at h'
  exact ⟨t', hmade, h', hdir⟩

theorem create (h : Mirrors root rule t m) {id : CheckpointId}
    (hdir : t.entryAt (directory root id.experimentId) = some .directory) :
    ∃ t', t.apply (.create (temporary root id)) = (.ok (), t') ∧ Mirrors root rule t' m ∧
      Written root id "" t' := by
  have hcreate : t.apply (.create (temporary root id)) = (.ok (), t.put (temporary root id) (.file "")) :=
    h.wellFormed.apply_create hdir (h.names.symm ▸ h.suited.temporary id.round) (h.temporaries id)
  have h' := h.apply (.create id)
  rw [hcreate] at h'
  exact ⟨_, hcreate, h', written_put hdir ""⟩

theorem append (h : Mirrors root rule t m) {id : CheckpointId} {text : String}
    (hwritten : Written root id text t) (rest : String) :
    ∃ t', t.apply (.append (temporary root id) rest) = (.ok (), t') ∧ Mirrors root rule t' m ∧
      Written root id (text ++ rest) t' := by
  have happend := h.wellFormed.apply_append hwritten.file rest
  have h' := h.apply (.append id rest)
  rw [happend] at h'
  exact ⟨_, happend, h', written_put hwritten.dir (text ++ rest)⟩

/-- The rename makes the document visible. -/
theorem rename (h : Mirrors root rule t m) {id : CheckpointId} {document : String}
    (hid : Nameable root rule id.experimentId) (hwritten : Written root id document t) :
    ∃ t', t.apply (.rename (temporary root id) (file root id)) = (.ok (), t') ∧
      Mirrors root rule t' (m.set id document) := by
  have hfree : t.entryAt (file root id) ≠ some .directory := by
    rw [h.documents id hid]
    cases m.get id <;> simp
  have htaken : t.names.Takes (fileName id.round) := h.names.symm ▸ h.suited.file id.round
  exact ⟨_, h.wellFormed.apply_rename hwritten.file hwritten.dir htaken hfree,
    h.put_file (h.wellFormed.move hwritten.file hwritten.dir htaken hfree)⟩

/-- A document that is stored is stored in both. -/
theorem set (h : Mirrors root rule t m) {id : CheckpointId} (hid : Nameable root rule id.experimentId)
    (document : String) : ∃ t', FileStore.set root id document t = (.ok (), t') ∧
      Mirrors root rule t' (m.set id document) := by
  obtain ⟨dir, haccepted⟩ := hid.accepted
  obtain ⟨t₁, hmade, h₁, hdir⟩ := h.makeDirectory hid.taken
  obtain ⟨t₂, hcreate, h₂, hempty⟩ := h₁.create hdir
  obtain ⟨t₃, happend, h₃, hwritten⟩ := h₂.append hempty document
  rw [String.empty_append] at hwritten
  obtain ⟨t₄, hrename, h₄⟩ := h₃.rename hid hwritten
  refine ⟨t₄, ?_, h₄⟩
  rw [FileStore.set, haccepted]
  simp only [writeSteps]
  rw [run_cons_of_ok hmade, ← temporary, run_cons_of_ok hcreate, run_cons_of_ok happend,
    run_cons_of_ok rfl, run_cons_of_ok hrename, run_cons_of_ok rfl]
  rfl

/-! ## 5. Finding a document -/

theorem get_eq (h : Mirrors root rule t m) {id : CheckpointId}
    (hid : Nameable root rule id.experimentId) : FileStore.get root id t = .ok (m.get id) := by
  obtain ⟨dir, haccepted⟩ := hid.accepted
  have hdocument := h.documents id hid
  rw [FileStore.get, haccepted]
  cases hm : m.get id with
  | some document =>
    rw [hm] at hdocument
    have hread : t.read (file root id) = .ok document := h.wellFormed.read_eq_ok.2 hdocument
    simp only [bind, Except.bind, hread]
    rfl
  | none =>
    rw [hm] at hdocument
    have hlook : t.look (file root id) = t.found (file root id) :=
      h.wellFormed.look_append_eq_found (h.clear hid.taken) (h.names.symm ▸ h.suited.file id.round)
    have hread : t.read (file root id) = .error .notFound := by
      rw [FileTree.read, hlook, found, hdocument]
      rfl
    simp only [bind, Except.bind, hread]
    rfl

theorem latest_eq (h : Mirrors root rule t m) {experiment : ExperimentId}
    (hname : Nameable root rule experiment) :
    FileStore.latest root experiment t = .ok (m.latest experiment) := by
  obtain ⟨dir, haccepted⟩ := hname.accepted
  have hmember : ∀ round, t.entryAt (directory root experiment ++ [fileName round]) ≠ none ↔
      m.get ⟨experiment, round⟩ ≠ none := by
    intro round
    have hdocument : t.entryAt (directory root experiment ++ [fileName round]) =
        (m.get ⟨experiment, round⟩).map .file := h.documents ⟨experiment, round⟩ hname
    rw [hdocument, Ne, Option.map_eq_none_iff]
  rw [FileStore.latest, haccepted]
  cases hdir : t.entryAt (directory root experiment) with
  | none =>
    have hlist : t.list (directory root experiment) = .error .notFound := by
      rw [list, h.wellFormed.look_eq_found (h.clear hname.taken), found, hdir]
      rfl
    have hrounds : ∀ round, round ∈ [] ↔ m.get ⟨experiment, round⟩ ≠ none := by
      intro round
      rw [← hmember]
      refine ⟨fun hm => absurd hm List.not_mem_nil, fun hsome => ?_⟩
      rw [h.wellFormed.parent _ _ hsome] at hdir
      contradiction
    simp only [bind, Except.bind, hlist, Memory.latest_eq hrounds]
    rfl
  | some entry =>
    cases entry with
    | file content => exact absurd hdir (h.way experiment _ (List.prefix_refl _) content)
    | directory =>
      obtain ⟨names, hlist, hmem⟩ := h.wellFormed.list_eq_ok hdir
      have hrounds : ∀ round, round ∈ names.filterMap parseFileName ↔
          m.get ⟨experiment, round⟩ ≠ none := by
        intro round
        rw [← hmember, List.mem_filterMap, ← hmem]
        constructor
        · rintro ⟨name, hin, hparse⟩
          rwa [← h.rounds experiment name round ((hmem name).1 hin) hparse]
        · exact fun hin => ⟨_, hin, parseFileName_fileName round⟩
      simp only [bind, Except.bind, hlist, Memory.latest_eq hrounds]
      rfl

/-! ## 6. Experiments without a directory -/

/-- A document that cannot be stored leaves the mirrored memory as it is. -/
theorem set_of_not_nameable (h : Mirrors root rule t m) {id : CheckpointId}
    (hid : ¬Nameable root rule id.experimentId) (document : String) :
    ∃ e t', FileStore.set root id document t = (.error e, t') ∧ Mirrors root rule t' m := by
  rw [FileStore.set]
  cases haccepted : experimentDir root id.experimentId with
  | error e => exact ⟨e, t, rfl, h⟩
  | ok dir =>
    have hmade := h.apply (.makeDirectories (List.prefix_refl (directory root id.experimentId)))
    cases hr : (t.apply (.makeDirectories (directory root id.experimentId))).1 with
    | ok _ =>
      have htaken := takes_of_apply hr id.experimentId (by simp [directory])
      exact absurd ⟨⟨dir, haccepted⟩, h.names ▸ htaken⟩ hid
    | error e => exact ⟨_, _, run_cons_of_error hr _ _, hmade⟩

theorem get_of_not_nameable (h : Mirrors root rule t m) {id : CheckpointId}
    (hid : ¬Nameable root rule id.experimentId) (document : String) :
    FileStore.get root id t ≠ .ok (some document) := by
  intro hget
  obtain ⟨dir, haccepted, hread⟩ := bind_eq_ok.1 hget
  split at hread
  next document' hok =>
    have hfile := h.wellFormed.read_eq_ok.1 hok
    have hmem : id.experimentId ∈ file root id := by simp [file, directory]
    have htaken := h.wellFormed.takes_of_mem (by simp [hfile]) hmem
    exact hid ⟨⟨dir, haccepted⟩, h.names ▸ htaken⟩
  next => simp [pure, Except.pure] at hread
  next => simp [throw_eq_ok] at hread

theorem latest_of_not_nameable (h : Mirrors root rule t m) {experiment : ExperimentId}
    (hname : ¬Nameable root rule experiment) (id : CheckpointId) :
    FileStore.latest root experiment t ≠ .ok (some id) := by
  intro hlatest
  obtain ⟨dir, haccepted, hlist⟩ := bind_eq_ok.1 hlatest
  split at hlist
  next names hok =>
    rw [FileTree.list] at hok
    obtain ⟨entry, hlook, -⟩ := bind_eq_ok.1 hok
    have hentry := h.wellFormed.look_eq_ok.1 hlook
    have hmem : experiment ∈ directory root experiment := by simp [directory]
    have htaken := h.wellFormed.takes_of_mem (by simp [hentry]) hmem
    exact hname ⟨⟨dir, haccepted⟩, h.names ▸ htaken⟩
  next => simp [pure, Except.pure] at hlist
  next => simp [throw_eq_ok] at hlist

end Mirrors

end Federation.FileStore
