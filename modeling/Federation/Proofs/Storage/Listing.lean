import Federation.Proofs.Storage.Refinement
/-!
# The latest checkpoint of a directory

The latest checkpoint of an experiment is looked for among the names in its directory, and a checkpoint is
then read by the name that the store gives it. A round can be spelled in other ways too. So the latest
checkpoint is one that can be read as long as only names given by the store spell a round.
-/

namespace Federation

theorem FileTree.WellFormed.mem_of_list {t : FileTree} (h : t.WellFormed) {p : Path} {names : List String}
    (hlist : t.list p = .ok names) (name : String) : name ∈ names ↔ t.entryAt (p ++ [name]) ≠ none := by
  obtain ⟨entry, hlook, hrest⟩ := bind_eq_ok.1 hlist
  cases entry with
  | file content => simp [throw_eq_ok] at hrest
  | directory =>
    obtain ⟨names', hlist', hmem⟩ := h.list_eq_ok (h.look_eq_ok.1 hlook)
    obtain rfl := Except.ok.inj (hlist.symm.trans hlist')
    exact hmem name

namespace FileStore

variable {root : String} {experiment : ExperimentId} {t : FileTree}

/-- Something stands under a name in the directory of an experiment. -/
def Lists (root : String) (experiment : ExperimentId) (t : FileTree) (name : String) : Prop :=
  t.entryAt (directory root experiment ++ [name]) ≠ none

/-- Only files that the store has named spell a round in the directory of an experiment. -/
def Orderly (root : String) (experiment : ExperimentId) (t : FileTree) : Prop :=
  ∀ name round, Lists root experiment t name → Spells name round →
    name = fileName round ∧
      ∃ document, t.entryAt (directory root experiment ++ [name]) = some (.file document)

theorem get_eq_some (h : t.WellFormed) {id : CheckpointId} {document : String} :
    FileStore.get root id t = .ok (some document) ↔
      (∃ dir, experimentDir root id.experimentId = .ok dir) ∧
        t.entryAt (file root id) = some (.file document) := by
  rw [FileStore.get, bind_eq_ok]
  constructor
  · rintro ⟨dir, haccepted, hread⟩
    refine ⟨⟨dir, haccepted⟩, h.read_eq_ok.1 ?_⟩
    split at hread
    next document' hok =>
      obtain rfl := Option.some.inj (Except.ok.inj hread)
      exact hok
    next => simp [pure, Except.pure] at hread
    next => simp [throw_eq_ok] at hread
  · rintro ⟨⟨dir, haccepted⟩, hfile⟩
    refine ⟨dir, haccepted, ?_⟩
    rw [h.read_eq_ok.2 hfile]
    rfl

/-- The rounds among which the latest one is found. -/
theorem mem_rounds (h : t.WellFormed) {names : List String}
    (hlist : t.list (directory root experiment) = .ok names) {round : RoundNumber} :
    round ∈ names.filterMap parseFileName ↔ ∃ name, Lists root experiment t name ∧ Spells name round := by
  simp only [List.mem_filterMap, h.mem_of_list hlist, parseFileName_eq_some, Lists]

/-- Something in the directory spells a round, so there is a latest one. -/
theorem exists_latest (h : t.WellFormed) {dir : String} (haccepted : experimentDir root experiment = .ok dir)
    {name : String} {round : RoundNumber} (hname : Lists root experiment t name)
    (hspells : Spells name round) :
    ∃ last, FileStore.latest root experiment t = .ok (some ⟨experiment, last⟩) ∧
      (∃ name', Lists root experiment t name' ∧ Spells name' last) ∧ round ≤ last := by
  obtain ⟨names, hlist, -⟩ := h.list_eq_ok (h.parent _ name hname)
  have hround := (mem_rounds h hlist).2 ⟨name, hname, hspells⟩
  cases hlast : greatest (names.filterMap parseFileName) with
  | none =>
    rw [greatest_eq_none.1 hlast] at hround
    contradiction
  | some last =>
    obtain ⟨hmem, hgreatest⟩ := greatest_eq_some hlast
    refine ⟨last, bind_eq_ok.2 ⟨dir, haccepted, ?_⟩, (mem_rounds h hlist).1 hmem, hgreatest round hround⟩
    rw [hlist]
    simp only [hlast]
    rfl

/-- The latest checkpoint is that of the greatest round that a name in the directory spells. -/
theorem latest_eq_some (h : t.WellFormed) {id : CheckpointId} :
    FileStore.latest root experiment t = .ok (some id) ↔
      (∃ dir, experimentDir root experiment = .ok dir) ∧ id.experimentId = experiment ∧
        (∃ name, Lists root experiment t name ∧ Spells name id.round) ∧
        ∀ name round, Lists root experiment t name → Spells name round → round ≤ id.round := by
  constructor
  · intro hlatest
    obtain ⟨dir, haccepted, hrest⟩ := bind_eq_ok.1 hlatest
    split at hrest
    next names hlist =>
      obtain ⟨last, hlast, rfl⟩ := Option.map_eq_some_iff.1 (Except.ok.inj hrest)
      obtain ⟨hmem, hgreatest⟩ := greatest_eq_some hlast
      exact ⟨⟨dir, haccepted⟩, rfl, (mem_rounds h hlist).1 hmem,
        fun name round hname hspells => hgreatest round ((mem_rounds h hlist).2 ⟨name, hname, hspells⟩)⟩
    next => simp [pure, Except.pure] at hrest
    next => simp [throw_eq_ok] at hrest
  · rintro ⟨⟨dir, haccepted⟩, rfl, ⟨name, hname, hspells⟩, hgreatest⟩
    obtain ⟨last, hlatest, ⟨name', hname', hspells'⟩, hle⟩ := exists_latest h haccepted hname hspells
    rw [hlatest, UInt64.le_antisymm (hgreatest name' last hname' hspells') hle]

/-- A name spells a round if its digits do, however many there are and whether or not a plus sign precedes
them; the name that the store gives is one of these. In any tree of files the latest checkpoint of an
experiment is that of the greatest round spelled in its directory, and no checkpoint that can be read is
later. If only files that the store has named spell a round there, it can be read itself. -/
theorem latest_is_greatest_spelled_round (root : String) {t : FileTree} (h : t.WellFormed)
    (experiment : ExperimentId) :
    (∀ name round, parseFileName name = some round ↔ Spells name round) ∧
    (∀ round, Spells (fileName round) round) ∧
    (∀ id, FileStore.latest root experiment t = .ok (some id) ↔
      (∃ dir, experimentDir root experiment = .ok dir) ∧ id.experimentId = experiment ∧
        (∃ name, Lists root experiment t name ∧ Spells name id.round) ∧
        ∀ name round, Lists root experiment t name → Spells name round → round ≤ id.round) ∧
    (∀ round document, FileStore.get root ⟨experiment, round⟩ t = .ok (some document) →
      ∃ id, FileStore.latest root experiment t = .ok (some id) ∧ round ≤ id.round) ∧
    (Orderly root experiment t → ∀ id, FileStore.latest root experiment t = .ok (some id) →
      ∃ document, FileStore.get root id t = .ok (some document)) := by
  refine ⟨fun _ _ => parseFileName_eq_some, spells_fileName, fun _ => latest_eq_some h, ?_, ?_⟩
  · intro round document hget
    obtain ⟨⟨dir, haccepted⟩, hfile⟩ := (get_eq_some h).1 hget
    have hname : Lists root experiment t (fileName round) := Option.ne_none_iff_exists'.2 ⟨_, hfile⟩
    obtain ⟨last, hlatest, -, hle⟩ := exists_latest h haccepted hname (spells_fileName round)
    exact ⟨_, hlatest, hle⟩
  · intro horderly id hlatest
    obtain ⟨haccepted, rfl, ⟨name, hname, hspells⟩, -⟩ := (latest_eq_some h).1 hlatest
    obtain ⟨rfl, document, hfile⟩ := horderly name id.round hname hspells
    exact ⟨document, (get_eq_some h).2 ⟨haccepted, hfile⟩⟩

/-- A directory of an experiment with files of the given names. -/
def shelf (names : List String) : FileTree :=
  names.foldl (fun t name => (t.apply (.create ["mnist", name])).2)
    ((FileTree.apply { names := unlimited } (.makeDirectories ["mnist"])).2)

theorem wellFormed_shelf (names : List String) : (shelf names).WellFormed := by
  have hfold : ∀ t : FileTree, t.WellFormed →
      (names.foldl (fun t name => (t.apply (.create ["mnist", name])).2) t).WellFormed := by
    induction names with
    | nil => exact fun t ht => ht
    | cons name names ih => exact fun t ht => ih _ (ht.apply _)
  have hvacant : Vacant "." { names := unlimited } :=
    vacant_new suited_unlimited fun name _ => takes_unlimited name
  exact hfold _ (hvacant.wellFormed.apply _)

theorem directory_here (experiment : ExperimentId) : directory "." experiment = [experiment] := by
  have hpath : pathOf "." = [] := by cbv
  rw [directory, hpath, List.nil_append]

theorem latest_is_greatest_spelled_round_million :
    FileStore.latest "." "mnist" (shelf ["round_999999.json", "round_1000000.json", "notes.txt"]) =
        .ok (some ⟨"mnist", 1000000⟩) ∧
      ∃ document, FileStore.get "." ⟨"mnist", 1000000⟩
        (shelf ["round_999999.json", "round_1000000.json", "notes.txt"]) = .ok (some document) := by
  obtain ⟨hspells, -, -, -, hreadable⟩ := latest_is_greatest_spelled_round "."
    (wellFormed_shelf ["round_999999.json", "round_1000000.json", "notes.txt"]) "mnist"
  have hlatest : FileStore.latest "." "mnist"
      (shelf ["round_999999.json", "round_1000000.json", "notes.txt"]) = .ok (some ⟨"mnist", 1000000⟩) := by
    simp only [FileStore.latest, directory_here]
    decide +kernel
  have hkeys : (shelf ["round_999999.json", "round_1000000.json", "notes.txt"]).entries.keys =
      [["mnist"], ["mnist", "notes.txt"], ["mnist", "round_1000000.json"],
        ["mnist", "round_999999.json"]] := by
    decide +kernel
  refine ⟨hlatest, hreadable ?_ _ hlatest⟩
  intro name round hname hround
  rw [Lists, directory_here, FileTree.entryAt_append, ← Option.isSome_iff_ne_none,
    ← SortedMap.mem_keys_iff_isSome, hkeys] at hname
  rw [directory_here]
  have hparsed := (hspells name round).2 hround
  have hothers : parseFileName "notes.txt" = none := by decide +kernel
  have hmillion : parseFileName "round_1000000.json" = some 1000000 := by decide +kernel
  have hbefore : parseFileName "round_999999.json" = some 999999 := by decide +kernel
  simp only [List.mem_cons, List.not_mem_nil, or_false, List.singleton_append, List.cons.injEq,
    reduceCtorEq, and_true, true_and, and_false, false_or] at hname
  rcases hname with rfl | rfl | rfl
  · cases hothers.symm.trans hparsed
  · obtain rfl := Option.some.inj (hmillion.symm.trans hparsed)
    exact ⟨by decide +kernel, "", by decide +kernel⟩
  · obtain rfl := Option.some.inj (hbefore.symm.trans hparsed)
    exact ⟨by decide +kernel, "", by decide +kernel⟩

/-- A round that is spelled in another way hides the checkpoints that can be read. -/
theorem latest_may_not_be_readable :
    parseFileName "round_7.json" = some 7 ∧ fileName 7 ≠ "round_7.json" ∧
      FileStore.latest "." "mnist" (shelf ["round_000003.json", "round_7.json"]) =
        .ok (some ⟨"mnist", 7⟩) ∧
      FileStore.get "." ⟨"mnist", 7⟩ (shelf ["round_000003.json", "round_7.json"]) = .ok none ∧
      FileStore.get "." ⟨"mnist", 3⟩ (shelf ["round_000003.json", "round_7.json"]) = .ok (some "") := by
  simp only [FileStore.latest, FileStore.get, file, directory_here]
  decide +kernel

end FileStore

end Federation
