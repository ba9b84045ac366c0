import Mcplica.Builds.Diff

/-! # Dumped models

`model_dump(mode="json", by_alias=True)` of the models in the canonical API. -/

namespace Mcplica.Builds.Value

open Mcplica.Library Mcplica.Contracts

mutual

/-- Nothing is left out. -/
def modelDump : Value → Json
  | .leaf dumped => dumped
  | .model fields => .object (dumpFields fields)
  | .mapping entries => .object (dumpFields entries)
  | .sequence items => .array (dumpItems items)

def dumpFields : List (Text × Value) → JsonObject
  | [] => []
  | (name, value) :: rest => (name, modelDump value) :: dumpFields rest

def dumpItems : List Value → List Json
  | [] => []
  | item :: rest => modelDump item :: dumpItems rest

end

/-- `exclude`: the fields of the model itself are left out, not those of the models inside. -/
def without (excluded : List Text) : Value → Value
  | .model fields => .model (fields.filter fun field => !excluded.contains field.1)
  | value => value

theorem dumpItems_eq_map (items : List Value) : dumpItems items = items.map modelDump := by
  induction items with
  | nil => rfl
  | cons item rest ih => rw [dumpItems, ih, List.map_cons]

theorem dumpFields_eq_map (fields : List (Text × Value)) :
    dumpFields fields = fields.map fun field => (field.1, field.2.modelDump) := by
  induction fields with
  | nil => rfl
  | cons field rest ih => rw [dumpFields, ih, List.map_cons]

mutual

theorem modelDump_ofJson : ∀ document : Json, (ofJson document).modelDump = document
  | .object fields => congrArg Json.object (dumpFields_ofFields fields)
  | .array items => congrArg Json.array (dumpItems_ofItems items)
  | .null | .bool _ | .number .. | .string _ => rfl

theorem dumpFields_ofFields : ∀ fields : JsonObject, dumpFields (ofFields fields) = fields
  | [] => rfl
  | (key, value) :: rest =>
    congrArg₂ (fun value rest => (key, value) :: rest) (modelDump_ofJson value) (dumpFields_ofFields rest)

theorem dumpItems_ofItems : ∀ items : List Json, dumpItems (ofItems items) = items
  | [] => rfl
  | item :: rest => congrArg₂ List.cons (modelDump_ofJson item) (dumpItems_ofItems rest)

end

/-! ## Models -/

def ofServer (server : CanonicalServer) : Value :=
  .model [("key", text server.key), ("url", text server.url), ("description", optional text server.description),
    ("source_ref", ofSourceRef server.sourceRef)]

/-- The metadata of an operation that was parsed: no analysis has filled in more than a title and a description. -/
def ofSemantic (operation : CanonicalOperation) : Value :=
  .model [("title", optional text operation.semanticTitle), ("description", optional text operation.semanticDescription),
    ("category", .leaf .null), ("keywords", texts []), ("documentation_chunk_ids", texts []),
    ("relationship_hints", texts []), ("confidence", .leaf .null), ("provenance", .leaf .null)]

def ofOperationProvenance (provenance : OperationProvenance) : Value :=
  .model [("operation", ofSourceRef provenance.operation),
    ("executable_fields", .mapping (provenance.executableFields.map fun (name, ref) => (name, ofSourceRef ref)))]

def ofOperation (operation : CanonicalOperation) : Value :=
  .model [("key", text operation.key), ("source_operation_id", optional text operation.sourceOperationId),
    ("tool_name_seed", text operation.toolNameSeed), ("method", text operation.method.value),
    ("path_template", text operation.pathTemplate), ("server_ref", optional text operation.serverRef),
    ("server_candidates", texts operation.serverCandidates), ("summary", optional text operation.summary),
    ("description", optional text operation.description),
    ("parameters", .sequence (operation.parameters.map ofParameter)),
    ("request_body", optional ofRequestBody operation.requestBody),
    ("responses", .sequence (operation.responses.map ofResponse)),
    ("security", .sequence (operation.security.map ofSecurityRequirement)), ("tags", texts operation.tags),
    ("semantic", ofSemantic operation), ("provenance", ofOperationProvenance operation.provenance)]

end Mcplica.Builds.Value
