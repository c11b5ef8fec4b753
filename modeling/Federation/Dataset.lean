import Federation.Failure
import Federation.SortedMap
import Federation.Text.Quoted
/-!
# Federated datasets

A federated dataset gives every participating node the one dataset it trains on. It is resolved from
a catalog by tags, or from an explicit mapping, and restricted to the nodes of a filter. Once it is
resolved only the availability of its nodes changes.
-/

namespace Federation

structure DatasetMetadata where
  datasetId : String
  tags : List String
  sampleCount : UInt64
  -- The kind of data, such as `csv` or `images`.
  dataType : String
  shape : List UInt64
  -- The types of the columns of a table.
  dtypes : List String
  deriving DecidableEq

structure NodeRecord where
  nodeId : NodeId
  datasetId : String
  sampleCount : UInt64
  -- Whether the node takes part in rounds at present.
  available : Bool
  metadata : DatasetMetadata
  deriving DecidableEq

def NodeRecord.ofMetadata (node : NodeId) (m : DatasetMetadata) : NodeRecord :=
  ⟨node, m.datasetId, m.sampleCount, true, m⟩

inductive DatasetQuery where
  -- The datasets that carry all of the tags.
  | tags (tags : NameSet)
  -- The given dataset of each node.
  | explicit (data : NameMap DatasetMetadata)

structure CatalogQuery where
  tags : NameSet
  -- The nodes to ask, all if missing.
  nodes : Option NameSet

/-- The datasets of each node. -/
abbrev Listing := NameMap (List DatasetMetadata)

/-- A catalog lists the datasets that match a query, or fails with a reason. -/
abbrev Catalog := CatalogQuery → Except String Listing

inductive DatasetError where
  | ambiguity (node : NodeId) (datasets : List String)
  | noMatch
  | undefinedQuery
  | dataQuality (reason : String)
  | catalog (reason : String)
  deriving DecidableEq

instance : Failure DatasetError where
  kind
    | .ambiguity .. => "Ambiguity"
    | .noMatch => "NoMatch"
    | .undefinedQuery => "UndefinedQuery"
    | .dataQuality _ => "DataQuality"
    | .catalog _ => "Catalog"
  message?
    | .ambiguity node datasets =>
      s!"{node} holds several datasets matching the query: " ++
        Text.bracketed (datasets.map Text.quoted) ++ "."
    | .noMatch => "No node holds a dataset matching the query."
    | .undefinedQuery => "The query has no tags."
    | .dataQuality reason => s!"The datasets are inconsistent: {reason}."
    | .catalog reason => s!"The catalog failed: {reason}."

structure FederatedDataset where
  records : NameMap NodeRecord
  deriving DecidableEq

namespace FederatedDataset

/-- The dataset without nodes. -/
def empty : FederatedDataset := ⟨.empty⟩

def admits (nodes : Option NameSet) (node : NodeId) : Bool := nodes.all fun s => s.contains node

/-- The nodes of a listing inside a filter that hold one dataset. A node inside the filter with
several datasets is refused, and so is a listing that leaves no node. -/
def ofListing (listing : Listing) (nodes : Option NameSet) : Except DatasetError FederatedDataset :=
  let inside := listing.filter fun node _ => admits nodes node
  match inside.toList.find? fun e => 2 ≤ e.2.length with
  | some (node, datasets) => .error (.ambiguity node (datasets.map (·.datasetId)))
  | none =>
    let records := inside.filterMap fun node datasets =>
      datasets.head?.map (NodeRecord.ofMetadata node)
    if records.isEmpty then .error .noMatch else .ok ⟨records⟩

def listing (catalog : Catalog) (query : DatasetQuery) (nodes : Option NameSet) :
    Except DatasetError Listing :=
  match query with
  | .tags tags =>
    if tags.isEmpty then .error .undefinedQuery
    else (catalog ⟨tags, nodes⟩).mapError .catalog
  | .explicit data => .ok (data.map fun _ m => [m])

/-- Resolves a query, restricted to the nodes of a filter. -/
def resolve (catalog : Catalog) (query : DatasetQuery) (nodes : Option NameSet) :
    Except DatasetError FederatedDataset := do
  ofListing (← listing catalog query nodes) nodes

def get? (d : FederatedDataset) (node : NodeId) : Option NodeRecord := d.records.find? node

def contains (d : FederatedDataset) (node : NodeId) : Bool := d.records.contains node

/-- The nodes in ascending order. -/
def nodeIds (d : FederatedDataset) : List NodeId := d.records.keys

def size (d : FederatedDataset) : Nat := d.records.size

/-- Changes whether a node is available. A node outside of the dataset changes nothing. -/
def withAvailability (d : FederatedDataset) (node : NodeId) (available : Bool) : FederatedDataset :=
  ⟨d.records.map fun id r => if id = node then { r with available } else r⟩

/-- The text of a column count, which a table may lack. -/
def columnsText (m : DatasetMetadata) : String := Text.maybe ((m.shape[1]?).map toString)

/-- Why a record does not go with the data of another node. Tables agree on the number and on the
types of their columns; data of any other kind agrees on the kind alone. -/
def conflict? (first : DatasetMetadata) (r : NodeRecord) : Option String :=
  let other := r.metadata
  if other.dataType ≠ first.dataType then
    some s!"{r.nodeId} holds {other.dataType} data, expected {first.dataType}"
  else if first.dataType ≠ "csv" then none
  else if other.shape[1]? ≠ first.shape[1]? then
    some s!"{r.nodeId} holds a table of {columnsText other} columns, expected {columnsText first}"
  else if other.dtypes ≠ first.dtypes then
    some (s!"{r.nodeId} holds columns of types " ++ Text.bracketed (other.dtypes.map Text.quoted) ++
      ", expected " ++ Text.bracketed (first.dtypes.map Text.quoted))
  else none

/-- Refuses datasets of different kinds. Every record is compared with the first one. -/
def checkQuality (d : FederatedDataset) : Except DatasetError Unit :=
  match d.records.values with
  | [] => .ok ()
  | first :: rest =>
    match rest.findSome? (conflict? first.metadata) with
    | some reason => .error (.dataQuality reason)
    | none => .ok ()

end FederatedDataset

end Federation
