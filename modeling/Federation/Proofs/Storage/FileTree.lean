import Mathlib.Data.List.Induction
import Federation.Proofs.Except
import Federation.Proofs.SortedMap
import Federation.Storage.FileTree
/-!
# What stands in a tree of files

In a tree that is well formed every file and every directory stands in a directory, under a name that
the file system takes. Every step keeps it so. A look at a path then finds exactly what stands there.
-/

namespace Federation

structure NameRule.Takes (r : NameRule) (name : String) : Prop where
  valid : r.invalid name = false
  short : r.tooLong name = false

namespace FileTree

/-! ## 1. Entries -/

/-- What stands at a path. -/
def entryAt (t : FileTree) (p : Path) : Option FileEntry :=
  if p = [] then some .directory else t.entries.find? p

variable {t t' : FileTree} {p q : Path} {name : String} {entry : FileEntry}

@[simp] theorem entryAt_nil : t.entryAt [] = some .directory := rfl

@[simp] theorem entryAt_append : t.entryAt (p ++ [name]) = t.entries.find? (p ++ [name]) := by
  simp [entryAt]

theorem entryAt_put (hp : p ≠ []) :
    (t.put p entry).entryAt q = if q = p then some entry else t.entryAt q := by
  by_cases hq : q = []
  · subst hq
    simp [Ne.symm hp]
  · simp only [entryAt, put, if_neg hq, SortedMap.find?_insert]

theorem entryAt_remove (hp : p ≠ []) :
    (t.remove p).entryAt q = if q = p then none else t.entryAt q := by
  by_cases hq : q = []
  · subst hq
    simp [Ne.symm hp]
  · simp only [entryAt, remove, if_neg hq, SortedMap.find?_erase]

structure WellFormed (t : FileTree) : Prop where
  parent : ∀ p name, t.entryAt (p ++ [name]) ≠ none → t.entryAt p = some .directory
  named : ∀ p name, t.entryAt (p ++ [name]) ≠ none → t.names.Takes name

/-- There is nothing in a file. -/
theorem WellFormed.parent_of_prefix (h : t.WellFormed) (hp : t.entryAt p ≠ none)
    (hq : q <+: p) (hne : q ≠ p) : t.entryAt q = some .directory := by
  induction p using List.reverseRecOn with
  | nil => exact absurd (List.prefix_nil.1 hq) hne
  | append_singleton p name ih =>
    have hparent := h.parent p name hp
    rcases List.prefix_concat_iff.1 hq with rfl | hq
    · exact absurd rfl hne
    · by_cases heq : q = p
      · rw [heq, hparent]
      · exact ih (by simp [hparent]) hq heq

theorem WellFormed.takes_of_mem (h : t.WellFormed) (hp : t.entryAt p ≠ none) (hname : name ∈ p) :
    t.names.Takes name := by
  induction p using List.reverseRecOn with
  | nil => simp at hname
  | append_singleton p name' ih =>
    rcases List.mem_append.1 hname with hname | hname
    · exact ih (by simp [h.parent p name' hp]) hname
    · rw [List.mem_singleton.1 hname]
      exact h.named p name' hp

theorem WellFormed.put (h : t.WellFormed) (hparent : t.entryAt p = some .directory)
    (hname : t.names.Takes name)
    (hkeep : t.entryAt (p ++ [name]) = some .directory → entry = .directory) :
    (t.put (p ++ [name]) entry).WellFormed := by
  have hentry : ∀ q, (t.put (p ++ [name]) entry).entryAt q =
      if q = p ++ [name] then some entry else t.entryAt q := fun q => entryAt_put (by simp)
  have hold : ∀ q, t.entryAt q = some .directory →
      (t.put (p ++ [name]) entry).entryAt q = some .directory := by
    intro q hq
    rw [hentry]
    split
    next heq => rw [hkeep (heq ▸ hq)]
    next => exact hq
  constructor
  · intro q name' hq
    rw [hentry] at hq
    split at hq
    next heq =>
      obtain ⟨rfl, -⟩ := List.append_singleton_inj.1 heq
      exact hold q hparent
    next => exact hold q (h.parent q name' hq)
  · intro q name' hq
    rw [hentry] at hq
    split at hq
    next heq =>
      obtain ⟨-, rfl⟩ := List.append_singleton_inj.1 heq
      exact hname
    next => exact h.named q name' hq

theorem WellFormed.remove (h : t.WellFormed) {content : String} (hp : p ≠ [])
    (hfile : t.entryAt p = some (.file content)) : (t.remove p).WellFormed := by
  have hentry : ∀ q, (t.remove p).entryAt q = if q = p then none else t.entryAt q :=
    fun q => entryAt_remove hp
  have hold : ∀ q name, (t.remove p).entryAt (q ++ [name]) ≠ none →
      t.entryAt (q ++ [name]) ≠ none := by
    intro q name hq
    rw [hentry] at hq
    split at hq
    · contradiction
    · exact hq
  constructor
  · intro q name hq
    have hparent := h.parent q name (hold q name hq)
    have hne : q ≠ p := by
      rintro rfl
      simp [hfile] at hparent
    rw [hentry, if_neg hne, hparent]
  · exact fun q name hq => h.named q name (hold q name hq)

/-! ## 2. Looks -/

theorem checkName_eq_ok {u : Unit} : t.checkName name = .ok u ↔ t.names.tooLong name = false := by
  simp [checkName]

theorem checkPath_eq_ok {u : Unit} :
    t.checkPath p = .ok u ↔ ∀ name ∈ p, t.names.invalid name = false := by
  simp [checkPath]

/-- The last name of a path is followed from where the others lead. -/
theorem follow_append (t : FileTree) (at_ p : Path) (entry : FileEntry) (name : String) :
    t.follow at_ entry (p ++ [name]) =
      t.follow at_ entry p >>= fun e => t.follow (at_ ++ p) e [name] := by
  induction p generalizing at_ entry with
  | nil => simp [follow, bind, Except.bind]
  | cons name' p ih =>
    cases entry with
    | file content => rfl
    | directory =>
      simp only [List.cons_append, follow]
      cases t.checkName name' with
      | error e => rfl
      | ok _ =>
        cases t.entries.find? (at_ ++ [name']) with
        | none => rfl
        | some e =>
          have heq : at_ ++ name' :: p = at_ ++ [name'] ++ p := by simp
          rw [heq]
          exact ih (at_ ++ [name']) e

theorem follow_name_eq_ok {e : FileEntry} : t.follow p entry [name] = .ok e ↔
    entry = .directory ∧ t.names.tooLong name = false ∧ t.entryAt (p ++ [name]) = some e := by
  cases entry with
  | file content => simp [follow]
  | directory =>
    simp only [follow, bind_eq_ok, checkName_eq_ok, entryAt_append, true_and]
    cases t.entries.find? (p ++ [name]) with
    | none => simp
    | some e' => simp

theorem WellFormed.follow_eq_ok (h : t.WellFormed) :
    t.follow [] .directory p = .ok entry ↔ t.entryAt p = some entry := by
  induction p using List.reverseRecOn generalizing entry with
  | nil => simp [follow]
  | append_singleton p name ih =>
    rw [follow_append, bind_eq_ok, List.nil_append]
    constructor
    · rintro ⟨e, -, hname⟩
      exact (follow_name_eq_ok.1 hname).2.2
    · intro hentry
      have hsome : t.entryAt (p ++ [name]) ≠ none := by simp [hentry]
      exact ⟨.directory, ih.2 (h.parent p name hsome),
        follow_name_eq_ok.2 ⟨rfl, (h.named p name hsome).short, hentry⟩⟩

/-- A look finds exactly what stands at the path. -/
theorem WellFormed.look_eq_ok (h : t.WellFormed) : t.look p = .ok entry ↔ t.entryAt p = some entry := by
  rw [look, bind_eq_ok]
  constructor
  · rintro ⟨-, -, hfollow⟩
    exact h.follow_eq_ok.1 hfollow
  · intro hentry
    have hsome : t.entryAt p ≠ none := by simp [hentry]
    exact ⟨(), checkPath_eq_ok.2 fun name hname => (h.takes_of_mem hsome hname).valid,
      h.follow_eq_ok.2 hentry⟩

/-- The file system takes the names of a path, and no file stands on its way. -/
structure Clear (t : FileTree) (p : Path) : Prop where
  names : ∀ name ∈ p, t.names.Takes name
  way : ∀ q, q <+: p → ∀ content, t.entryAt q ≠ some (.file content)

theorem Clear.of_prefix (h : t.Clear p) (hq : q <+: p) : t.Clear q :=
  ⟨fun name hname => h.names name (hq.subset hname), fun q' hq' => h.way q' (hq'.trans hq)⟩

theorem Clear.checkPath (h : t.Clear p) : t.checkPath p = .ok () :=
  checkPath_eq_ok.2 fun name hname => (h.names name hname).valid

/-- What a look finds on a way that is clear: what stands there, or nothing. -/
def found (t : FileTree) (p : Path) : Except SystemError FileEntry :=
  (t.entryAt p).elim (.error .notFound) .ok

theorem WellFormed.follow_append_eq_found (h : t.WellFormed)
    (hfollow : t.follow [] .directory p = t.found p) (hway : ∀ content, t.entryAt p ≠ some (.file content))
    (hname : t.names.Takes name) : t.follow [] .directory (p ++ [name]) = t.found (p ++ [name]) := by
  rw [follow_append, List.nil_append, hfollow, found, found]
  cases hp : t.entryAt p with
  | none =>
    have hnone : t.entryAt (p ++ [name]) = none := by
      by_contra hsome
      have hparent := h.parent p name hsome
      simp [hp] at hparent
    rw [hnone]
    rfl
  | some entry =>
    cases entry with
    | file content => exact absurd hp (hway content)
    | directory =>
      have hcheck : t.checkName name = .ok () := checkName_eq_ok.2 hname.short
      simp only [Option.elim, bind, Except.bind, follow, hcheck, entryAt_append]
      cases t.entries.find? (p ++ [name]) <;> rfl

theorem WellFormed.follow_eq_found (h : t.WellFormed) (hp : t.Clear p) :
    t.follow [] .directory p = t.found p := by
  induction p using List.reverseRecOn with
  | nil => rfl
  | append_singleton p name ih =>
    have hpre := List.prefix_append p [name]
    exact h.follow_append_eq_found (ih (hp.of_prefix hpre)) (hp.way p hpre)
      (hp.names name (List.mem_append_right p List.mem_cons_self))

theorem WellFormed.look_eq_found (h : t.WellFormed) (hp : t.Clear p) : t.look p = t.found p := by
  rw [look, hp.checkPath]
  exact h.follow_eq_found hp

/-- A file may stand at the end of a clear way. -/
theorem WellFormed.look_append_eq_found (h : t.WellFormed) (hp : t.Clear p)
    (hname : t.names.Takes name) : t.look (p ++ [name]) = t.found (p ++ [name]) := by
  have hcheck : t.checkPath (p ++ [name]) = .ok () := by
    refine checkPath_eq_ok.2 fun name' hname' => ?_
    rcases List.mem_append.1 hname' with hname' | hname'
    · exact (hp.names name' hname').valid
    · rw [List.mem_singleton.1 hname']
      exact hname.valid
  rw [look, hcheck]
  exact h.follow_append_eq_found (h.follow_eq_found hp) (hp.way p (List.prefix_refl p)) hname

theorem WellFormed.read_eq_ok (h : t.WellFormed) {content : String} :
    t.read p = .ok content ↔ t.entryAt p = some (.file content) := by
  rw [read, bind_eq_ok]
  constructor
  · rintro ⟨entry, hlook, hcontent⟩
    cases entry with
    | directory => simp [throw_eq_ok] at hcontent
    | file content' =>
      obtain rfl := Except.ok.inj hcontent
      exact h.look_eq_ok.1 hlook
  · exact fun hentry => ⟨_, h.look_eq_ok.2 hentry, rfl⟩

/-- A directory lists the names of what stands in it. -/
theorem WellFormed.list_eq_ok (h : t.WellFormed) (hp : t.entryAt p = some .directory) :
    ∃ names, t.list p = .ok names ∧ ∀ name, name ∈ names ↔ t.entryAt (p ++ [name]) ≠ none := by
  refine ⟨t.entries.keys.filterMap fun q => if q.dropLast = p then q.getLast? else none, ?_, ?_⟩
  · rw [list, h.look_eq_ok.2 hp]
    rfl
  · intro name
    rw [List.mem_filterMap, entryAt_append, ← Option.isSome_iff_ne_none,
      ← SortedMap.mem_keys_iff_isSome]
    constructor
    · rintro ⟨q, hq, hname⟩
      split at hname
      next heq =>
        obtain ⟨q, rfl⟩ := List.getLast?_eq_some_iff.1 hname
        rwa [← heq, List.dropLast_concat]
      next => contradiction
    · exact fun hq => ⟨p ++ [name], hq, by simp⟩

theorem WellFormed.clear_of_directory (h : t.WellFormed) (hp : t.entryAt p = some .directory) :
    t.Clear p where
  names name hname := h.takes_of_mem (by simp [hp]) hname
  way q hq content hfile := by
    by_cases hqp : q = p
    · simp [hqp, hp] at hfile
    · simp [h.parent_of_prefix (by simp [hp]) hq hqp] at hfile

/-- Only a directory can be without something that is looked for in it. -/
theorem WellFormed.directory_of_notFound (h : t.WellFormed)
    (hlook : t.look (p ++ [name]) = .error .notFound) (hp : t.look p = .ok entry) :
    entry = .directory ∧ t.names.Takes name := by
  rw [look] at hlook
  rcases bind_eq_error.1 hlook with hcheck | ⟨_, hcheck, hfollow⟩
  · rw [checkPath] at hcheck
    split at hcheck <;> simp at hcheck
  · rw [follow_append, h.follow_eq_ok.2 (h.look_eq_ok.1 hp), List.nil_append] at hfollow
    cases entry with
    | file content => simp [follow, bind, Except.bind] at hfollow
    | directory =>
      refine ⟨rfl, checkPath_eq_ok.1 hcheck name (by simp), ?_⟩
      by_contra hlong
      rw [Bool.not_eq_false] at hlong
      simp [follow, bind, Except.bind, checkName, hlong] at hfollow

/-- A file can be written in a directory, unless a directory is in its place. -/
theorem WellFormed.checkTarget_eq_ok (h : t.WellFormed) {u : Unit} : t.checkTarget p = .ok u ↔
    ∃ q name, p = q ++ [name] ∧ t.entryAt q = some .directory ∧ t.names.Takes name ∧
      t.entryAt p ≠ some .directory := by
  rcases List.eq_nil_or_concat p with rfl | ⟨q, name, rfl⟩
  · have hlook : t.look [] = .ok .directory := h.look_eq_ok.2 rfl
    simp [checkTarget, hlook]
  rw [List.concat_eq_append]
  constructor
  · intro hok
    refine ⟨q, name, rfl, ?_⟩
    rw [checkTarget] at hok
    split at hok
    next content hlook =>
      have hfile := h.look_eq_ok.1 hlook
      exact ⟨h.parent q name (by simp [hfile]), h.named q name (by simp [hfile]), by simp [hfile]⟩
    next => contradiction
    next hlook =>
      obtain ⟨e, he, -⟩ := bind_eq_ok.1 hok
      rw [List.dropLast_concat] at he
      obtain ⟨rfl, hname⟩ := h.directory_of_notFound hlook he
      refine ⟨h.look_eq_ok.1 he, hname, fun hdir => ?_⟩
      rw [h.look_eq_ok.2 hdir] at hlook
      contradiction
    next => contradiction
  · rintro ⟨q', name', heq, hdir, hname, hfree⟩
    obtain ⟨rfl, rfl⟩ := List.append_singleton_inj.1 heq
    have hlook := h.look_append_eq_found (h.clear_of_directory hdir) hname
    rw [checkTarget, hlook, found]
    cases he : t.entryAt (q ++ [name]) with
    | none =>
      simp only [Option.elim, List.dropLast_concat, h.look_eq_ok.2 hdir]
      rfl
    | some entry =>
      cases entry with
      | file content => rfl
      | directory => exact absurd he hfree

/-! ## 3. Steps -/

/-- Of two trees the second one has some directories more, all on the way of a path. -/
structure Made (t t' : FileTree) (p : Path) : Prop where
  names : t'.names = t.names
  entry : ∀ q, t'.entryAt q = t.entryAt q ∨
    t.entryAt q = none ∧ t'.entryAt q = some .directory ∧ q <+: p

theorem Made.refl : Made t t p := ⟨rfl, fun _ => Or.inl rfl⟩

theorem Made.trans {t'' : FileTree} (h : Made t t' p) (h' : Made t' t'' p) : Made t t'' p where
  names := h'.names.trans h.names
  entry q := by
    rcases h'.entry q with heq | ⟨hnone, hdir, hq⟩
    · rw [heq]
      exact h.entry q
    · rcases h.entry q with heq | ⟨-, hdir', -⟩
      · exact Or.inr ⟨heq ▸ hnone, hdir, hq⟩
      · rw [hnone] at hdir'
        contradiction

theorem Made.put (hnone : t.entryAt q = none) (hq : q <+: p) : Made t (t.put q .directory) p where
  names := rfl
  entry q' := by
    have hne : q ≠ [] := by
      rintro rfl
      simp at hnone
    rw [entryAt_put hne]
    by_cases heq : q' = q
    · subst heq
      exact Or.inr ⟨hnone, if_pos rfl, hq⟩
    · exact Or.inl (if_neg heq)

theorem made_makeDirectories (t : FileTree) (at_ p : Path) :
    Made t (t.makeDirectories at_ p).2 (at_ ++ p) := by
  induction p generalizing t at_ with
  | nil => exact .refl
  | cons name p ih =>
    have heq : at_ ++ name :: p = at_ ++ [name] ++ p := by simp
    rw [makeDirectories, heq]
    cases t.checkName name with
    | error e => exact .refl
    | ok _ =>
      cases he : t.entries.find? (at_ ++ [name]) with
      | none => exact (Made.put (by simp [he]) (List.prefix_append _ p)).trans (ih _ _)
      | some entry =>
        cases entry with
        | file content => exact .refl
        | directory => exact ih _ _

theorem WellFormed.makeDirectories (h : t.WellFormed) {at_ : Path}
    (hat : t.entryAt at_ = some .directory) (hvalid : ∀ name ∈ p, t.names.invalid name = false) :
    (t.makeDirectories at_ p).2.WellFormed := by
  induction p generalizing t at_ with
  | nil => exact h
  | cons name p ih =>
    rw [FileTree.makeDirectories]
    have hrest : ∀ name' ∈ p, t.names.invalid name' = false :=
      fun name' hname' => hvalid name' (List.mem_cons_of_mem name hname')
    cases hc : t.checkName name with
    | error e => exact h
    | ok _ =>
      have htakes : t.names.Takes name := ⟨hvalid name List.mem_cons_self, checkName_eq_ok.1 hc⟩
      cases he : t.entries.find? (at_ ++ [name]) with
      | none =>
        refine ih (h.put hat htakes fun _ => rfl) ?_ hrest
        rw [entryAt_put (by simp), if_pos rfl]
      | some entry =>
        cases entry with
        | file content => exact h
        | directory => exact ih h (by simp [he]) hrest

theorem makeDirectories_of_clear {at_ : Path} (hp : t.Clear (at_ ++ p))
    (hat : t.entryAt at_ = some .directory) : (t.makeDirectories at_ p).1 = .ok () ∧
      (t.makeDirectories at_ p).2.entryAt (at_ ++ p) = some .directory := by
  induction p generalizing t at_ with
  | nil => simpa [makeDirectories] using hat
  | cons name p ih =>
    have heq : at_ ++ name :: p = at_ ++ [name] ++ p := by simp
    have hcheck : t.checkName name = .ok () := checkName_eq_ok.2 (hp.names name (by simp)).short
    rw [makeDirectories, hcheck, heq]
    rw [heq] at hp
    cases he : t.entries.find? (at_ ++ [name]) with
    | none =>
      have hput : ∀ q, (t.put (at_ ++ [name]) .directory).entryAt q =
          if q = at_ ++ [name] then some .directory else t.entryAt q := fun q => entryAt_put (by simp)
      refine ih ⟨hp.names, fun q hq content => ?_⟩ (by rw [hput, if_pos rfl])
      rw [hput]
      split
      · simp
      · exact hp.way q hq content
    | some entry =>
      cases entry with
      | file content => exact absurd he (by simpa using hp.way _ (List.prefix_append _ p) content)
      | directory => exact ih hp (by simp [he])

theorem short_of_makeDirectories {at_ : Path} {u : Unit}
    (h : (t.makeDirectories at_ p).1 = .ok u) : ∀ name ∈ p, t.names.tooLong name = false := by
  induction p generalizing t at_ with
  | nil => simp
  | cons name p ih =>
    rw [makeDirectories] at h
    cases hc : t.checkName name with
    | error e => simp [hc] at h
    | ok _ =>
      simp only [hc] at h
      refine List.forall_mem_cons.2 ⟨checkName_eq_ok.1 hc, ?_⟩
      split at h
      · exact ih h
      · contradiction
      · have hrest := ih h
        exact hrest

theorem WellFormed.put_over (h : t.WellFormed) {content : String}
    (hp : t.entryAt p = some (.file content)) (content' : String) :
    (t.put p (.file content')).WellFormed := by
  rcases List.eq_nil_or_concat p with rfl | ⟨q, name, rfl⟩
  · simp at hp
  rw [List.concat_eq_append] at hp ⊢
  have hsome : t.entryAt (q ++ [name]) ≠ none := by simp [hp]
  exact h.put (h.parent q name hsome) (h.named q name hsome) fun hdir => by simp [hdir] at hp

theorem WellFormed.move (h : t.WellFormed) {content : String}
    (hq : t.entryAt q = some (.file content)) (hdir : t.entryAt p = some .directory)
    (hname : t.names.Takes name) (hfree : t.entryAt (p ++ [name]) ≠ some .directory) :
    ((t.remove q).put (p ++ [name]) (.file content)).WellFormed := by
  have hne : q ≠ [] := by
    rintro rfl
    simp at hq
  have hpq : p ≠ q := by
    rintro rfl
    simp [hdir] at hq
  have hkept : (t.remove q).entryAt p = some .directory := by
    rw [entryAt_remove hne, if_neg hpq, hdir]
  refine (h.remove hne hq).put hkept hname fun hd => absurd ?_ hfree
  rw [entryAt_remove hne] at hd
  split at hd
  · contradiction
  · exact hd

/-- A step keeps a tree well formed, also one that fails. -/
theorem WellFormed.apply (h : t.WellFormed) (s : Step) : (t.apply s).2.WellFormed := by
  cases s with
  | makeDirectories p =>
    rw [FileTree.apply]
    cases hc : t.checkPath p with
    | error e => exact h
    | ok _ => exact h.makeDirectories rfl (checkPath_eq_ok.1 hc)
  | create p =>
    rw [FileTree.apply]
    cases hc : t.checkTarget p with
    | error e => exact h
    | ok _ =>
      obtain ⟨q, name, rfl, hdir, hname, hfree⟩ := h.checkTarget_eq_ok.1 hc
      exact h.put hdir hname fun hd => absurd hd hfree
  | append p text =>
    rw [FileTree.apply]
    cases hr : t.read p with
    | error e => exact h
    | ok content => exact h.put_over (h.read_eq_ok.1 hr) (content ++ text)
  | rename source target =>
    rw [FileTree.apply]
    cases hr : t.read source with
    | error e => exact h
    | ok content =>
      cases hc : t.checkTarget target with
      | error e => exact h
      | ok _ =>
        obtain ⟨q, name, rfl, hdir, hname, hfree⟩ := h.checkTarget_eq_ok.1 hc
        exact h.move (h.read_eq_ok.1 hr) hdir hname hfree
  | sync p => exact h

theorem made_apply (t : FileTree) (p : Path) : Made t (t.apply (.makeDirectories p)).2 p := by
  rw [apply]
  cases t.checkPath p with
  | error e => exact .refl
  | ok _ => exact made_makeDirectories t [] p

theorem apply_makeDirectories (hp : t.Clear p) :
    ∃ t', t.apply (.makeDirectories p) = (.ok (), t') ∧ t'.entryAt p = some .directory := by
  have hclear : t.Clear ([] ++ p) := hp
  obtain ⟨hok, hdir⟩ := makeDirectories_of_clear hclear rfl
  refine ⟨(t.makeDirectories [] p).2, ?_, hdir⟩
  rw [apply, hp.checkPath]
  exact Prod.ext hok rfl

/-- Directories are made only on a way whose names the file system takes. -/
theorem takes_of_apply {u : Unit} (h : (t.apply (.makeDirectories p)).1 = .ok u) :
    ∀ name ∈ p, t.names.Takes name := by
  rw [apply] at h
  cases hc : t.checkPath p with
  | error e => simp [hc] at h
  | ok _ =>
    rw [hc] at h
    exact fun name hname => ⟨checkPath_eq_ok.1 hc name hname, short_of_makeDirectories h name hname⟩

theorem WellFormed.apply_create (h : t.WellFormed) (hdir : t.entryAt p = some .directory)
    (hname : t.names.Takes name) (hfree : t.entryAt (p ++ [name]) ≠ some .directory) :
    t.apply (.create (p ++ [name])) = (.ok (), t.put (p ++ [name]) (.file "")) := by
  have htarget : t.checkTarget (p ++ [name]) = .ok () :=
    h.checkTarget_eq_ok.2 ⟨p, name, rfl, hdir, hname, hfree⟩
  rw [FileTree.apply, htarget]

theorem WellFormed.apply_append (h : t.WellFormed) {content : String}
    (hp : t.entryAt p = some (.file content)) (text : String) :
    t.apply (.append p text) = (.ok (), t.put p (.file (content ++ text))) := by
  rw [FileTree.apply, h.read_eq_ok.2 hp]

theorem WellFormed.apply_rename (h : t.WellFormed) {content : String}
    (hsource : t.entryAt q = some (.file content)) (hdir : t.entryAt p = some .directory)
    (hname : t.names.Takes name) (hfree : t.entryAt (p ++ [name]) ≠ some .directory) :
    t.apply (.rename q (p ++ [name])) = (.ok (), (t.remove q).put (p ++ [name]) (.file content)) := by
  have htarget : t.checkTarget (p ++ [name]) = .ok () :=
    h.checkTarget_eq_ok.2 ⟨p, name, rfl, hdir, hname, hfree⟩
  rw [FileTree.apply, h.read_eq_ok.2 hsource, htarget]

theorem run_cons_of_ok {s : Step} (h : t.apply s = (.ok (), t')) (context : String)
    (rest : List (String × Step)) : t.run ((context, s) :: rest) = t'.run rest := by
  rw [run, h]

theorem run_cons_of_error {s : Step} {e : SystemError} (h : (t.apply s).1 = .error e)
    (context : String) (rest : List (String × Step)) :
    t.run ((context, s) :: rest) = (.error (.system context e), (t.apply s).2) := by
  rw [run]
  rcases hs : t.apply s with ⟨r, t'⟩
  rw [hs] at h
  obtain rfl : r = .error e := h
  rfl

end FileTree

end Federation
