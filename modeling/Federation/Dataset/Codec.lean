import Federation.Dataset
import Federation.Json.Schema
/-!
# Datasets as JSON

Metadata, records and queries as they stand in documents. A federated dataset is the object of its
records.
-/

namespace Federation

namespace DatasetMetadata

def toJson (m : DatasetMetadata) : Json :=
  .obj [("dataset_id", .str m.datasetId), ("tags", .list .str m.tags),
    ("sample_count", .word m.sampleCount), ("data_type", .str m.dataType),
    ("shape", .list .word m.shape), ("dtypes", .list .str m.dtypes)]

/-- Reads metadata. All but the name and the number of samples may be missing. -/
def ofJson? (j : Json) : Option DatasetMetadata := do
  let r ← j.asRecord? ["dataset_id", "tags", "sample_count", "data_type", "shape", "dtypes"] false
  return {
    datasetId := ← r.required "dataset_id" Json.asString?
    tags := ← r.withDefault "tags" [] (Json.asList? Json.asString?)
    sampleCount := ← r.required "sample_count" Json.asWord?
    dataType := ← r.withDefault "data_type" "" Json.asString?
    shape := ← r.withDefault "shape" [] (Json.asList? Json.asWord?)
    dtypes := ← r.withDefault "dtypes" [] (Json.asList? Json.asString?) }

end DatasetMetadata

namespace NodeRecord

def toJson (r : NodeRecord) : Json :=
  .obj [("node_id", .str r.nodeId), ("dataset_id", .str r.datasetId),
    ("sample_count", .word r.sampleCount), ("available", .bool r.available),
    ("metadata", r.metadata.toJson)]

def ofJson? (j : Json) : Option NodeRecord := do
  let r ← j.asRecord? ["node_id", "dataset_id", "sample_count", "available", "metadata"] false
  return {
    nodeId := ← r.required "node_id" Json.asString?
    datasetId := ← r.required "dataset_id" Json.asString?
    sampleCount := ← r.required "sample_count" Json.asWord?
    available := ← r.required "available" Json.asBool?
    metadata := ← r.required "metadata" DatasetMetadata.ofJson? }

end NodeRecord

namespace DatasetQuery

/-- A query, named by its kind. -/
def toJson : DatasetQuery → Json
  | .tags l => .case "tags" (.names l)
  | .explicit data => .case "explicit" (.map DatasetMetadata.toJson data)

def ofJson? (j : Json) : Option DatasetQuery := do
  let (name, content) ← j.asChoice?
  let content ← content
  if name = "tags" then return .tags (← content.asNames?)
  else if name = "explicit" then return .explicit (← content.asMap? DatasetMetadata.ofJson?)
  else none

end DatasetQuery

namespace FederatedDataset

def toJson (d : FederatedDataset) : Json := .map NodeRecord.toJson d.records

def ofJson? (j : Json) : Option FederatedDataset := (j.asMap? NodeRecord.ofJson?).map mk

end FederatedDataset

end Federation
