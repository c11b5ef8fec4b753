import Federation.Proofs.Dataset
/-!
# What a query is resolved to

A node takes part if it is inside the filter and lists one dataset. The nodes of a listing can be gathered
one after the other: a node that takes part gets its record, and the first one that lists several datasets
ends it. As a listing ascends, that is the smallest one, so the order in which the nodes are looked at says
which of several errors counts.
-/

namespace Federation

namespace FederatedDataset

/-! ## 1. Node by node -/

/-- A filter lets a node pass. Without a filter every node does. -/
def Inside (nodes : Option NameSet) (node : NodeId) : Prop := ∀ names ∈ nodes, node ∈ names.keys

theorem admits_iff {nodes : Option NameSet} {node : NodeId} :
    admits nodes node = true ↔ Inside nodes node := by
  cases nodes with
  | none => simp [admits, Inside]
  | some names => simp [admits, Inside, SortedMap.contains, SortedMap.mem_keys_iff_isSome]

/-- Takes over what a node lists. -/
def take (nodes : Option NameSet) (records : NameMap NodeRecord) (e : NodeId × List DatasetMetadata) :
    Except DatasetError (NameMap NodeRecord) :=
  if !admits nodes e.1 then .ok records
  else
    match e.2 with
    | [] => .ok records
    | [m] => .ok (records.insert e.1 (.ofMetadata e.1 m))
    | datasets => .error (.ambiguity e.1 (datasets.map (·.datasetId)))

/-- The dataset of a listing, gathered node by node. -/
def gather (listing : Listing) (nodes : Option NameSet) : Except DatasetError FederatedDataset := do
  let records ← listing.toList.foldlM (take nodes) .empty
  if records.isEmpty then throw .noMatch
  return ⟨records⟩

/-- Whether a node inside the filter lists several datasets. -/
def several (nodes : Option NameSet) (e : NodeId × List DatasetMetadata) : Bool :=
  admits nodes e.1 && 2 ≤ e.2.length

variable {nodes : Option NameSet} {l : List (NodeId × List DatasetMetadata)} {records : NameMap NodeRecord}
  {e : NodeId × List DatasetMetadata}

/-- What has been gathered of a part of a listing. -/
structure Gathered (nodes : Option NameSet) (l : List (NodeId × List DatasetMetadata))
    (records : NameMap NodeRecord) : Prop where
  single : l.find? (several nodes) = none
  records : ∀ node record, records.find? node = some record ↔
    Inside nodes node ∧ ∃ m, (node, [m]) ∈ l ∧ record = .ofMetadata node m

/-- What ends the gathering. -/
def Ended (nodes : Option NameSet) (l : List (NodeId × List DatasetMetadata)) (error : DatasetError) : Prop :=
  ∃ e, l.find? (several nodes) = some e ∧ error = .ambiguity e.1 (e.2.map (·.datasetId))

theorem Ended.append {error : DatasetError} (h : Ended nodes l error)
    (l' : List (NodeId × List DatasetMetadata)) : Ended nodes (l ++ l') error := by
  obtain ⟨first, hfound, rfl⟩ := h
  exact ⟨first, by rw [List.find?_append, hfound, Option.some_or], rfl⟩

/-- A node that does not take part leaves what has been gathered. -/
theorem Gathered.skip (h : Gathered nodes l records) (hone : several nodes e = false)
    (he : ∀ m, e.2 = [m] → ¬Inside nodes e.1) : Gathered nodes (l ++ [e]) records where
  single := by rw [List.find?_append, h.single, Option.none_or, List.find?_singleton, hone]; rfl
  records node record := by
    rw [h.records]
    refine and_congr_right fun hinside => exists_congr fun m => and_congr_left fun _ => ?_
    rw [List.mem_append, List.mem_singleton]
    refine ⟨Or.inl, fun hmem => hmem.resolve_right ?_⟩
    rintro rfl
    exact he m rfl hinside

/-- A node that takes part gets its record, if it has none yet. -/
theorem Gathered.insert (h : Gathered nodes l records) {node : NodeId} (hnew : node ∉ l.map Prod.fst)
    (hinside : Inside nodes node) (m : DatasetMetadata) :
    Gathered nodes (l ++ [(node, [m])]) (records.insert node (.ofMetadata node m)) where
  single := by
    rw [List.find?_append, h.single, Option.none_or, List.find?_singleton, several, Bool.and_comm]
    rfl
  records other record := by
    rw [SortedMap.find?_insert]
    by_cases hother : other = node
    · subst hother
      rw [if_pos rfl, Option.some.injEq]
      constructor
      · rintro rfl
        exact ⟨hinside, m, by simp, rfl⟩
      · rintro ⟨-, m', hmem, rfl⟩
        rcases List.mem_append.1 hmem with hmem | hmem
        · exact absurd (List.mem_map_of_mem hmem) hnew
        · rw [List.mem_singleton] at hmem
          simp_all
    · rw [if_neg hother, h.records]
      simp [hother]

/-- One step: a node is taken over, or it lists several datasets. -/
theorem Gathered.take (h : Gathered nodes l records) (hnew : e.1 ∉ l.map Prod.fst) :
    Yields (Gathered nodes (l ++ [e])) (Ended nodes (l ++ [e])) (take nodes records e) := by
  obtain ⟨node, datasets⟩ := e
  rw [FederatedDataset.take]
  cases hadmits : admits nodes node with
  | false =>
    refine h.skip (by simp [several, hadmits]) fun _ _ hinside => ?_
    rw [← admits_iff, hadmits] at hinside
    contradiction
  | true =>
    match datasets with
    | [] => exact h.skip (by simp [several]) nofun
    | [m] => exact h.insert hnew (admits_iff.1 hadmits) m
    | m :: m' :: rest =>
      refine ⟨(node, m :: m' :: rest), ?_, rfl⟩
      rw [List.find?_append, h.single, Option.none_or, List.find?_singleton]
      simp [several, hadmits]

variable (nodes) in
/-- All steps: what is gathered of a listing, or the first node that lists several datasets. -/
theorem gathered_foldlM (hl : (l.map Prod.fst).Nodup) :
    Yields (Gathered nodes l) (Ended nodes l) (l.foldlM (take nodes) .empty) := by
  -- nodes are added at the end, so what was gathered before stays
  induction l using List.reverseRecOn with
  | nil => exact ⟨rfl, fun node record => by simp⟩
  | append_singleton l e ih =>
    rw [List.map_append, List.nodup_append] at hl
    have hnew : e.1 ∉ l.map Prod.fst := fun hmem => hl.2.2 e.1 hmem e.1 (by simp) rfl
    have hbefore := (ih hl.1).mono (fun _ h => h) fun _ hended => hended.append [e]
    rw [List.foldlM_append]
    refine hbefore.bind fun records hgathered => ?_
    rw [List.foldlM_cons]
    exact (hgathered.take hnew).bind fun _ h => h

/-! ## 2. Listings -/

variable {listing : Listing} {node : NodeId} {datasets : List DatasetMetadata}

/-- A node inside the filter lists the datasets. -/
def Offers (listing : Listing) (nodes : Option NameSet) (node : NodeId) (datasets : List DatasetMetadata) :
    Prop :=
  Inside nodes node ∧ listing.find? node = some datasets

/-- What a listing is resolved to. -/
inductive Resolved (listing : Listing) (nodes : Option NameSet) : Except DatasetError FederatedDataset → Prop
    where
  | ambiguous (node : NodeId) (datasets : List DatasetMetadata) (h : Offers listing nodes node datasets)
    (hseveral : 2 ≤ datasets.length)
    (hleast : ∀ other datasets', Offers listing nodes other datasets' → 2 ≤ datasets'.length →
      compare other node ≠ .lt) :
    Resolved listing nodes (.error (.ambiguity node (datasets.map (·.datasetId))))
  | noMatch (h : ∀ node datasets, Offers listing nodes node datasets → datasets = []) :
    Resolved listing nodes (.error .noMatch)
  | found (d : FederatedDataset)
    (hone : ∀ node datasets, Offers listing nodes node datasets → datasets.length ≤ 1)
    (hsome : ∃ node m, Offers listing nodes node [m])
    (hrecords : ∀ node record, d.get? node = some record ↔
      ∃ m, Offers listing nodes node [m] ∧ record = ⟨node, m.datasetId, m.sampleCount, true, m⟩) :
    Resolved listing nodes (.ok d)

theorem mem_toList_several {e : NodeId × List DatasetMetadata} :
    e ∈ listing.toList ∧ several nodes e = true ↔ Offers listing nodes e.1 e.2 ∧ 2 ≤ e.2.length := by
  rw [several, Bool.and_eq_true, admits_iff, decide_eq_true_eq, Offers, SortedMap.find?_eq_some_iff,
    SortedMap.toList, and_left_comm, and_assoc]

/-- The first node that lists several datasets is the smallest one. -/
theorem find?_several_eq_some :
    listing.toList.find? (several nodes) = some (node, datasets) ↔
      Offers listing nodes node datasets ∧ 2 ≤ datasets.length ∧
        ∀ other datasets', Offers listing nodes other datasets' → 2 ≤ datasets'.length →
          compare other node ≠ .lt := by
  rw [SortedMap.find?_eq_some_iff_least Prod.fst (l := listing.toList) listing.ascending, ← and_assoc,
    mem_toList_several, and_assoc]
  refine and_congr_right fun _ => and_congr_right fun _ => ⟨fun h other datasets' ho hs hlt => ?_,
    fun h e he hlt => ?_⟩
  · obtain ⟨hmem, hseveral⟩ := mem_toList_several (e := (other, datasets')).2 ⟨ho, hs⟩
    rw [h _ hmem hlt] at hseveral
    contradiction
  · by_contra hseveral
    obtain ⟨ho, hs⟩ := mem_toList_several.1 ⟨he, Bool.of_not_eq_false hseveral⟩
    exact h e.1 e.2 ho hs hlt

theorem find?_several_eq_none :
    listing.toList.find? (several nodes) = none ↔
      ∀ node datasets, Offers listing nodes node datasets → datasets.length ≤ 1 := by
  rw [List.find?_eq_none]
  constructor
  · intro h node datasets ho
    by_contra hs
    obtain ⟨hmem, hseveral⟩ := mem_toList_several (e := (node, datasets)).2 ⟨ho, Nat.lt_of_not_le hs⟩
    exact h _ hmem hseveral
  · intro h e he hseveral
    obtain ⟨ho, hs⟩ := mem_toList_several.1 ⟨he, hseveral⟩
    exact absurd (h e.1 e.2 ho) (Nat.not_le.2 hs)

/-- What has been gathered of a whole listing is a record for each node that lists one dataset. -/
theorem Gathered.find?_eq_some_iff (h : Gathered nodes listing.toList records) {record : NodeRecord} :
    records.find? node = some record ↔
      ∃ m, Offers listing nodes node [m] ∧ record = .ofMetadata node m := by
  rw [h.records, ← exists_and_left]
  refine exists_congr fun m => ?_
  rw [Offers, SortedMap.find?_eq_some_iff, and_assoc]
  rfl

theorem Gathered.resolved (h : Gathered nodes listing.toList records) :
    Resolved listing nodes (if records.isEmpty then .error .noMatch else .ok ⟨records⟩) := by
  have hone := find?_several_eq_none.1 h.single
  by_cases hempty : records.isEmpty = true
  · rw [if_pos hempty]
    refine .noMatch fun node datasets ho => ?_
    match datasets, hone node datasets ho with
    | [], _ => rfl
    | [m], _ =>
      have hnone := SortedMap.isEmpty_iff_find?.1 hempty node
      rw [h.find?_eq_some_iff.2 ⟨m, ho, rfl⟩] at hnone
      contradiction
  · rw [if_neg hempty]
    rw [SortedMap.isEmpty_iff_find?, not_forall] at hempty
    obtain ⟨node, hnode⟩ := hempty
    obtain ⟨record, hrecord⟩ := Option.ne_none_iff_exists'.1 hnode
    obtain ⟨m, ho, -⟩ := h.find?_eq_some_iff.1 hrecord
    exact .found ⟨records⟩ hone ⟨node, m, ho⟩ fun _ _ => h.find?_eq_some_iff

/-- A listing is resolved to what is gathered of it. -/
theorem resolved_gather (listing : Listing) (nodes : Option NameSet) :
    Resolved listing nodes (gather listing nodes) := by
  have h := gathered_foldlM nodes (l := listing.toList) listing.nodup_keys
  rw [gather]
  cases hfold : listing.toList.foldlM (take nodes) .empty with
  | error error =>
    obtain ⟨⟨node, datasets⟩, hfound, rfl⟩ := h.of_eq_error hfold
    obtain ⟨hoffers, hseveral, hleast⟩ := find?_several_eq_some.1 hfound
    exact .ambiguous node datasets hoffers hseveral hleast
  | ok records => exact (h.of_eq_ok hfold).resolved

/-- The records of the nodes inside the filter, made of the first dataset of each. -/
def firsts (listing : Listing) (nodes : Option NameSet) : NameMap NodeRecord :=
  (listing.filter fun node _ => admits nodes node).filterMap fun node datasets =>
    datasets.head?.map (NodeRecord.ofMetadata node)

theorem find?_firsts {record : NodeRecord} :
    (firsts listing nodes).find? node = some record ↔
      ∃ m rest, Offers listing nodes node (m :: rest) ∧ record = .ofMetadata node m := by
  rw [firsts, SortedMap.find?_filterMap, SortedMap.find?_filter, Option.bind_eq_some_iff]
  constructor
  · rintro ⟨datasets, hdatasets, hhead⟩
    obtain ⟨hlisted, hadmits⟩ := Option.filter_eq_some_iff.1 hdatasets
    obtain ⟨m, hm, rfl⟩ := Option.map_eq_some_iff.1 hhead
    obtain ⟨rest, rfl⟩ := List.head?_eq_some_iff.1 hm
    exact ⟨m, rest, ⟨admits_iff.1 hadmits, hlisted⟩, rfl⟩
  · rintro ⟨m, rest, ⟨hinside, hlisted⟩, rfl⟩
    exact ⟨m :: rest, Option.filter_eq_some_iff.2 ⟨hlisted, admits_iff.2 hinside⟩, rfl⟩

theorem ofListing_eq (listing : Listing) (nodes : Option NameSet) :
    ofListing listing nodes =
      match listing.toList.find? (several nodes) with
      | some (node, datasets) => .error (.ambiguity node (datasets.map (·.datasetId)))
      | none => if (firsts listing nodes).isEmpty then .error .noMatch else .ok ⟨firsts listing nodes⟩ := by
  have hinside : (listing.filter fun node _ => admits nodes node).toList.find? (fun e => 2 ≤ e.2.length) =
      listing.toList.find? (several nodes) := by
    refine List.find?_filter.trans (congrArg (List.find? · listing.toList) (funext fun e => ?_))
    rw [several, Bool.decide_and, Bool.decide_eq_true, Bool.decide_eq_true]
  rw [← hinside]
  rfl

/-- Only one answer fits what a listing is resolved to. -/
theorem ofListing_of_resolved {result : Except DatasetError FederatedDataset}
    (h : Resolved listing nodes result) : ofListing listing nodes = result := by
  rw [ofListing_eq]
  cases h with
  | ambiguous node datasets h hseveral hleast => rw [find?_several_eq_some.2 ⟨h, hseveral, hleast⟩]
  | noMatch h =>
    rw [find?_several_eq_none.2 fun node datasets ho => by simp [h node datasets ho]]
    refine if_pos (SortedMap.isEmpty_iff_find?.2 fun node => Option.eq_none_iff_forall_ne_some.2 ?_)
    intro record hrecord
    obtain ⟨m, rest, ho, -⟩ := find?_firsts.1 hrecord
    exact absurd (h node _ ho) (List.cons_ne_nil m rest)
  | found d hone hsome hrecords =>
    have hd : (⟨firsts listing nodes⟩ : FederatedDataset) = d := by
      refine ext_get? fun node => Option.ext fun record => ?_
      rw [hrecords]
      refine find?_firsts.trans (exists_congr fun m => ⟨?_, fun ⟨ho, heq⟩ => ⟨[], ho, heq⟩⟩)
      rintro ⟨rest, ho, heq⟩
      obtain rfl : rest = [] := by simpa using hone node _ ho
      exact ⟨ho, heq⟩
    have hfull : ¬(firsts listing nodes).isEmpty = true := by
      rw [SortedMap.isEmpty_iff_find?]
      intro hnone
      obtain ⟨node, m, ho⟩ := hsome
      have hfirst := find?_firsts.2 ⟨m, [], ho, rfl⟩
      rw [hnone node] at hfirst
      contradiction
    rw [find?_several_eq_none.2 hone, ← hd]
    exact if_neg hfull

/-- Filtering the listing as a whole gives the same as going through it node by node. -/
theorem ofListing_eq_gather (listing : Listing) (nodes : Option NameSet) :
    ofListing listing nodes = gather listing nodes :=
  ofListing_of_resolved (resolved_gather listing nodes)

theorem ofListing_eq_iff {result : Except DatasetError FederatedDataset} :
    ofListing listing nodes = result ↔ Resolved listing nodes result := by
  constructor
  · rintro rfl
    rw [ofListing_eq_gather]
    exact resolved_gather listing nodes
  · exact ofListing_of_resolved

/-! ## 3. Queries -/

variable {catalog : Catalog} {query : DatasetQuery} {d : FederatedDataset}

/-- What is listed for a query: what the catalog answers, or the one dataset that is given for each node. -/
inductive Lists (catalog : Catalog) (nodes : Option NameSet) : DatasetQuery → Listing → Prop where
  | answer (tags : NameSet) (listing : Listing) (hsome : tags.keys ≠ [])
    (h : catalog ⟨tags, nodes⟩ = .ok listing) : Lists catalog nodes (.tags tags) listing
  | explicit (data : NameMap DatasetMetadata) (listing : Listing)
    (h : ∀ node, listing.find? node = (data.find? node).map fun m => [m]) :
    Lists catalog nodes (.explicit data) listing

/-- What a query is resolved to. The catalog is asked only if there is a tag, and its answer is restricted to
the filter in any case. -/
inductive Resolution (catalog : Catalog) (nodes : Option NameSet) :
    DatasetQuery → Except DatasetError FederatedDataset → Prop where
  | undefinedQuery (tags : NameSet) (h : tags.keys = []) :
    Resolution catalog nodes (.tags tags) (.error .undefinedQuery)
  | catalog (tags : NameSet) (hsome : tags.keys ≠ []) (reason : String)
    (h : catalog ⟨tags, nodes⟩ = .error reason) :
    Resolution catalog nodes (.tags tags) (.error (.catalog reason))
  | listed (query : DatasetQuery) (listing : Listing) (hl : Lists catalog nodes query listing)
    (result : Except DatasetError FederatedDataset) (h : Resolved listing nodes result) :
    Resolution catalog nodes query result

theorem listing_eq_ok : FederatedDataset.listing catalog query nodes = .ok listing ↔
    Lists catalog nodes query listing := by
  cases query with
  | tags tags =>
    rw [FederatedDataset.listing]
    by_cases hempty : tags.isEmpty = true
    · rw [if_pos hempty]
      refine ⟨nofun, fun h => ?_⟩
      cases h with
      | answer _ _ hsome => exact absurd (SortedMap.isEmpty_iff.1 hempty) hsome
    · rw [if_neg hempty, mapError_eq_ok]
      rw [SortedMap.isEmpty_iff] at hempty
      refine ⟨fun h => .answer tags listing hempty h, fun h => ?_⟩
      cases h with
      | answer _ _ _ h => exact h
  | explicit data =>
    have hdata : ∀ node, (data.map fun _ m => [m]).find? node = (data.find? node).map fun m => [m] :=
      fun node => SortedMap.find?_map _ _ node
    rw [FederatedDataset.listing, Except.ok.injEq]
    constructor
    · rintro rfl
      exact .explicit data _ hdata
    · intro h
      cases h with
      | explicit _ _ h => exact SortedMap.ext_find? fun node => (hdata node).trans (h node).symm

/-- Only one answer fits what a query is resolved to. -/
theorem resolve_of_resolution {result : Except DatasetError FederatedDataset}
    (h : Resolution catalog nodes query result) : resolve catalog query nodes = result := by
  cases h with
  | undefinedQuery tags h =>
    rw [resolve, FederatedDataset.listing, if_pos (SortedMap.isEmpty_iff.2 h)]
    rfl
  | catalog tags hsome reason h =>
    rw [resolve, FederatedDataset.listing, if_neg (mt SortedMap.isEmpty_iff.1 hsome), h]
    rfl
  | listed _ listing hl _ h =>
    rw [resolve, listing_eq_ok.2 hl]
    exact ofListing_eq_iff.2 h

theorem exists_resolution (catalog : Catalog) (query : DatasetQuery) (nodes : Option NameSet) :
    ∃ result, Resolution catalog nodes query result := by
  cases hlisting : FederatedDataset.listing catalog query nodes with
  | ok listing => exact ⟨_, .listed query listing (listing_eq_ok.1 hlisting) _ (ofListing_eq_iff.1 rfl)⟩
  | error e =>
    cases query with
    | explicit data => contradiction
    | tags tags =>
      by_cases hsome : tags.keys = []
      · exact ⟨_, .undefinedQuery tags hsome⟩
      · rw [FederatedDataset.listing, if_neg (mt SortedMap.isEmpty_iff.1 hsome)] at hlisting
        obtain ⟨reason, hreason, -⟩ := mapError_eq_error.1 hlisting
        exact ⟨_, .catalog tags hsome reason hreason⟩

theorem resolve_eq_iff {result : Except DatasetError FederatedDataset} :
    resolve catalog query nodes = result ↔ Resolution catalog nodes query result := by
  constructor
  · rintro rfl
    obtain ⟨result, h⟩ := exists_resolution catalog query nodes
    rwa [resolve_of_resolution h]
  · exact resolve_of_resolution

/-- Whatever is resolved is made of the data of its node. -/
theorem made_of_resolve (h : resolve catalog query nodes = .ok d) {record : NodeRecord}
    (hr : d.get? node = some record) : ∃ m, record = .ofMetadata node m := by
  cases resolve_eq_iff.1 h with
  | listed _ listing _ _ hresolved =>
    cases hresolved with
    | found _ _ _ hrecords =>
      obtain ⟨m, -, hm⟩ := (hrecords node record).1 hr
      exact ⟨m, hm⟩

theorem named_of_resolve (h : resolve catalog query nodes = .ok d) : d.Named := by
  intro node record hr
  obtain ⟨m, rfl⟩ := made_of_resolve h hr
  rfl

/-- Who is resolved is available. -/
theorem available_of_resolve (h : resolve catalog query nodes = .ok d) {record : NodeRecord}
    (hr : d.get? node = some record) : record.available = true := by
  obtain ⟨m, rfl⟩ := made_of_resolve h hr
  rfl

theorem allAvailable_of_resolve (h : resolve catalog query nodes = .ok d) : d.allAvailable = d := by
  refine ext_get? fun node => ?_
  rw [get?_allAvailable]
  cases hr : d.get? node with
  | none => rfl
  | some record =>
    have havailable := available_of_resolve h hr
    rw [Option.map_some, ← havailable]

end FederatedDataset

end Federation
