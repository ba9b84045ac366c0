import Mcplica.Contracts.Canonical
import Mcplica.Library.Checks

/-! # The difference of two builds

`diff_builds` compares the operations, schemas, security schemes and documents of two canonical APIs by the canonical JSON
of what they say, without where it comes from. -/

namespace Mcplica.Builds

open Mcplica.Library Mcplica.Contracts

/-! ## Enrichment -/

structure SemanticProvenance where
  provider : Text
  model : Text
  promptTemplateId : Text
  promptTemplateVersion : Text
  contextSha256 : Text
  retrievedChunkIds : List Text

structure OperationEnrichment where
  operationKey : Text
  title : Option Text
  description : Option Text
  category : Option Text
  keywords : List Text
  documentationChunkIds : List Text
  relationshipHints : List Text
  /-- A number between zero and one. -/
  confidence : Json
  warnings : List Text
  provenance : SemanticProvenance

/-- The operations of an `EnrichmentSnapshot`. -/
abbrev EnrichmentSnapshot := List (Text × OperationEnrichment)

/-! ## Values -/

/-- A Python value: the fields of a model stand under their aliases, and what no container is has been dumped. -/
inductive Value where
  | leaf (dumped : Json)
  | model (fields : List (Text × Value))
  | mapping (entries : List (Text × Value))
  | sequence (items : List Value)

namespace Value

def text (value : Text) : Value :=
  .leaf (.string value)

def bool (value : Bool) : Value :=
  .leaf (.bool value)

def optional {α : Type} (make : α → Value) (value : Option α) : Value :=
  (value.map make).getD (.leaf .null)

def texts (values : List Text) : Value :=
  .sequence (values.map text)

mutual

/-- A JSON document is made of dictionaries and lists. -/
def ofJson : Json → Value
  | .object fields => .mapping (ofFields fields)
  | .array items => .sequence (ofItems items)
  | value => .leaf value

def ofFields : JsonObject → List (Text × Value)
  | [] => []
  | (key, value) :: rest => (key, ofJson value) :: ofFields rest

def ofItems : List Json → List Value
  | [] => []
  | item :: rest => ofJson item :: ofItems rest

end

/-- The fields of models that are left out. -/
def isProvenance (name : Text) : Bool :=
  name = "source_ref" || name = "provenance"

mutual

/-- `_semantic_jsonable` -/
def semanticJsonable : Value → Json
  | .leaf dumped => dumped
  | .model fields => .object (semanticFields fields)
  | .mapping entries => .object (semanticEntries entries)
  | .sequence items => .array (semanticItems items)

def semanticFields : List (Text × Value) → JsonObject
  | [] => []
  | (name, value) :: rest =>
    if isProvenance name then semanticFields rest else (name, semanticJsonable value) :: semanticFields rest

def semanticEntries : List (Text × Value) → JsonObject
  | [] => []
  | (key, value) :: rest => (key, semanticJsonable value) :: semanticEntries rest

def semanticItems : List Value → List Json
  | [] => []
  | item :: rest => semanticJsonable item :: semanticItems rest

end

/-- `_semantic_serialized` -/
def semanticSerialized (value : Value) : Text :=
  value.semanticJsonable.canonical

mutual

/-- Nothing is left out of a JSON document, whatever its properties are called. -/
theorem semanticJsonable_ofJson : ∀ document : Json, (ofJson document).semanticJsonable = document
  | .object fields => congrArg Json.object (semanticEntries_ofFields fields)
  | .array items => congrArg Json.array (semanticItems_ofItems items)
  | .null | .bool _ | .number .. | .string _ => rfl

theorem semanticEntries_ofFields : ∀ fields : JsonObject, semanticEntries (ofFields fields) = fields
  | [] => rfl
  | (key, value) :: rest =>
    congrArg₂ (fun value rest => (key, value) :: rest) (semanticJsonable_ofJson value) (semanticEntries_ofFields rest)

theorem semanticItems_ofItems : ∀ items : List Json, semanticItems (ofItems items) = items
  | [] => rfl
  | item :: rest => congrArg₂ List.cons (semanticJsonable_ofJson item) (semanticItems_ofItems rest)

end

/-! ### Models -/

def ofSourceRef (ref : SourceRef) : Value :=
  .model [("source_version_id", text ref.sourceVersionId), ("pointer", text ref.pointer)]

def ofSchema (schema : JsonObject) : Value :=
  ofJson (.object schema)

def ofParameter (parameter : CanonicalParameter) : Value :=
  .model [("name", text parameter.name), ("location", text parameter.location.value),
    ("required", bool parameter.required), ("schema", ofSchema parameter.schema),
    ("description", optional text parameter.description), ("style", optional text parameter.style),
    ("explode", optional bool parameter.explode), ("allow_reserved", bool parameter.allowReserved),
    ("source_ref", ofSourceRef parameter.sourceRef)]

def ofMediaType (media : CanonicalMediaType) : Value :=
  .model [("media_type", text media.mediaType), ("schema", ofSchema media.schema),
    ("examples", .sequence (media.examples.map ofJson)), ("source_ref", ofSourceRef media.sourceRef)]

def ofRequestBody (body : CanonicalRequestBody) : Value :=
  .model [("required", bool body.required), ("description", optional text body.description),
    ("content", .sequence (body.content.map ofMediaType)), ("source_ref", ofSourceRef body.sourceRef)]

def ofResponse (response : CanonicalResponse) : Value :=
  .model [("status_code", text response.statusCode), ("description", optional text response.description),
    ("content", .sequence (response.content.map ofMediaType)), ("source_ref", ofSourceRef response.sourceRef)]

def ofSecurityRequirement (requirement : CanonicalSecurityRequirement) : Value :=
  .model [("scheme_scopes", .mapping (requirement.schemeScopes.map fun (scheme, scopes) => (scheme, texts scopes))),
    ("source_ref", ofSourceRef requirement.sourceRef)]

def ofSecurityScheme (scheme : CanonicalSecurityScheme) : Value :=
  .model [("type", text scheme.type.value), ("scheme", optional text scheme.scheme),
    ("location", optional (fun location => text location.value) scheme.location), ("name", optional text scheme.name),
    ("token_url", optional text scheme.tokenUrl), ("scopes", texts scheme.scopes),
    ("source_ref", ofSourceRef scheme.sourceRef)]

def ofCanonicalSchema (schema : CanonicalSchema) : Value :=
  .model [("key", text schema.key), ("schema", ofSchema schema.schema), ("source_ref", ofSourceRef schema.sourceRef)]

def ofSemanticProvenance (provenance : SemanticProvenance) : Value :=
  .model [("provider", text provenance.provider), ("model", text provenance.model),
    ("prompt_template_id", text provenance.promptTemplateId),
    ("prompt_template_version", text provenance.promptTemplateVersion),
    ("context_sha256", text provenance.contextSha256), ("retrieved_chunk_ids", texts provenance.retrievedChunkIds)]

def ofEnrichment (enrichment : OperationEnrichment) : Value :=
  .model [("operation_key", text enrichment.operationKey), ("title", optional text enrichment.title),
    ("description", optional text enrichment.description), ("category", optional text enrichment.category),
    ("keywords", texts enrichment.keywords), ("documentation_chunk_ids", texts enrichment.documentationChunkIds),
    ("relationship_hints", texts enrichment.relationshipHints), ("confidence", .leaf enrichment.confidence),
    ("warnings", texts enrichment.warnings), ("provenance", ofSemanticProvenance enrichment.provenance)]

end Value

/-! ## Comparison -/

/-- `_effective_server` -/
def effectiveServer (api : CanonicalApi) (operation : CanonicalOperation) : Value :=
  match operation.serverRef with
  | none => .leaf .null
  | some ref =>
    match (dictBy CanonicalServer.key api.servers).lookup ref with
    | none => .mapping [("missing_server_ref", .text ref)]
    | some server => .mapping [("url", .text server.url)]

/-- `_operation_security` -/
def operationSecurity (api : CanonicalApi) (operation : CanonicalOperation) : Value :=
  let referenced := operation.security.flatMap fun requirement => requirement.schemeScopes.map Prod.fst
  let schemes := (Text.sorted referenced.dedup).filterMap fun key =>
    (api.securitySchemes.lookup key).map fun scheme => (key, Value.ofSecurityScheme scheme)
  .mapping [("requirements", .sequence (operation.security.map Value.ofSecurityRequirement)), ("schemes", .mapping schemes)]

/-- What is compared of an operation, under the names that a change is reported with. -/
def operationAspects (api : CanonicalApi) (operation : CanonicalOperation) : List (Text × Value) :=
  [("method", .text operation.method.value),
    ("path", .text operation.pathTemplate),
    ("server", effectiveServer api operation),
    ("parameters", .sequence (operation.parameters.map Value.ofParameter)),
    ("request_body", .optional Value.ofRequestBody operation.requestBody),
    ("responses", .sequence (operation.responses.map Value.ofResponse)),
    ("security", operationSecurity api operation),
    ("source_semantics", .sequence [.optional .text operation.summary, .optional .text operation.description,
      .texts operation.tags])]

def differs (left right : Value) : Bool :=
  left.semanticSerialized ≠ right.semanticSerialized

def changedNames (current previous : List (Text × Value)) : List Text :=
  ((current.zip previous).filter fun fields => differs fields.1.2 fields.2.2).map fun fields => fields.1.1

/-- `_operation_changes` -/
def operationChanges (currentApi : CanonicalApi) (current : CanonicalOperation) (previousApi : CanonicalApi)
    (previous : CanonicalOperation) : List Text :=
  changedNames (operationAspects currentApi current) (operationAspects previousApi previous)

/-- `_changed_mapping` -/
def changedMapping {α : Type} (make : α → Value) (current previous : List (Text × α)) : List Text :=
  (Text.sorted (current.map Prod.fst ++ previous.map Prod.fst).dedup).filter fun key =>
    differs (.optional make (current.lookup key)) (.optional make (previous.lookup key))

/-- `_changed_documents` -/
def changedDocuments (current previous : CanonicalApi) : List Text :=
  let currentHashes := current.documentationRefs.map DocumentationRef.contentSha256
  let previousHashes := previous.documentationRefs.map DocumentationRef.contentSha256
  let changed := (current.documentationRefs ++ previous.documentationRefs).filter fun item =>
    currentHashes.contains item.contentSha256 != previousHashes.contains item.contentSha256
  Text.sorted (changed.map DocumentationRef.sourceVersionId).dedup

/-! ## The difference -/

structure OperationChange where
  operationKey : Text
  changes : List Text
  deriving Repr, DecidableEq

structure BuildDiff where
  addedOperations : List Text := []
  removedOperations : List Text := []
  changedOperations : List OperationChange := []
  unchangedOperations : List Text := []
  changedSchemas : List Text := []
  changedSecurity : List Text := []
  changedDocuments : List Text := []
  deriving Repr, DecidableEq

def operationsByKey (api : CanonicalApi) : List (Text × CanonicalOperation) :=
  dictBy CanonicalOperation.key api.operations

def keysOf (api : CanonicalApi) : List Text :=
  (operationsByKey api).map Prod.fst

/-- One round of the loop over the operations of both builds. -/
def commonChange (current previous : CanonicalApi) (currentEnrichment previousEnrichment : Option EnrichmentSnapshot)
    (key : Text) : Option OperationChange := do
  let operation ← (operationsByKey current).lookup key
  let before ← (operationsByKey previous).lookup key
  let currentSemantic := currentEnrichment.bind (List.lookup key)
  let previousSemantic := previousEnrichment.bind (List.lookup key)
  let fields := operationChanges current operation previous before
  let semantic := if differs (.optional .ofEnrichment currentSemantic) (.optional .ofEnrichment previousSemantic) then
    [("semantic_enrichment" : Text)] else []
  return ⟨key, fields ++ semantic⟩

/-- The operations of both builds, each with what has changed in it. Both lookups of a round succeed. -/
def commonChanges (current previous : CanonicalApi) (currentEnrichment previousEnrichment : Option EnrichmentSnapshot) :
    List OperationChange :=
  (Text.sorted ((keysOf current).filter (keysOf previous).contains)).filterMap
    (commonChange current previous currentEnrichment previousEnrichment)

def diffBuilds (current : CanonicalApi) (previous : Option CanonicalApi)
    (currentEnrichment previousEnrichment : Option EnrichmentSnapshot) : BuildDiff :=
  match previous with
  | none => {
      addedOperations := Text.sorted (keysOf current)
      changedSchemas := Text.sorted (current.schemas.map Prod.fst)
      changedSecurity := Text.sorted (current.securitySchemes.map Prod.fst)
      changedDocuments := Text.sorted (current.documentationRefs.map DocumentationRef.sourceVersionId) }
  | some previous =>
    let common := commonChanges current previous currentEnrichment previousEnrichment
    { addedOperations := Text.sorted ((keysOf current).filter (!(keysOf previous).contains ·))
      removedOperations := Text.sorted ((keysOf previous).filter (!(keysOf current).contains ·))
      changedOperations := common.filter (!·.changes.isEmpty)
      unchangedOperations := (common.filter (·.changes.isEmpty)).map OperationChange.operationKey
      changedSchemas := changedMapping Value.ofCanonicalSchema current.schemas previous.schemas
      changedSecurity := changedMapping Value.ofSecurityScheme current.securitySchemes previous.securitySchemes
      changedDocuments := changedDocuments current previous }

/-! ## What a change means -/

/-- The texts that are compared for an operation of a build. -/
def comparedAspects (api : CanonicalApi) (enrichment : Option EnrichmentSnapshot) (key : Text) : Option (List Text) :=
  ((operationsByKey api).lookup key).map fun operation =>
    (operationAspects api operation).map (·.2.semanticSerialized) ++
      [(Value.optional .ofEnrichment (enrichment.bind (List.lookup key))).semanticSerialized]

def BuildDiff.changedKeys (diff : BuildDiff) : List Text :=
  diff.changedOperations.map OperationChange.operationKey

theorem differs_comm (left right : Value) : differs left right = differs right left := by
  unfold differs
  exact decide_eq_decide.mpr ne_comm

@[simp] theorem differs_self (value : Value) : differs value value = false := by
  unfold differs
  exact decide_eq_false (not_not_intro rfl)

theorem differs_eq_false {left right : Value} :
    differs left right = false ↔ left.semanticSerialized = right.semanticSerialized := by
  unfold differs
  rw [decide_eq_false_iff_not, not_not]

theorem changedNames_cons (first other : Text × Value) (rest others : List (Text × Value)) :
    changedNames (first :: rest) (other :: others) =
      (if differs first.2 other.2 then [first.1] else []) ++ changedNames rest others := by
  unfold changedNames
  rw [List.zip_cons_cons, List.filter_cons]
  split <;> rfl

theorem changedNames_comm {current previous : List (Text × Value)}
    (sameNames : current.map Prod.fst = previous.map Prod.fst) :
    changedNames current previous = changedNames previous current := by
  induction current generalizing previous with
  | nil => cases previous with
    | nil => rfl
    | cons _ _ => cases sameNames
  | cons first rest ih =>
    cases previous with
    | nil => cases sameNames
    | cons other others =>
      obtain ⟨sameName, sameNames⟩ := List.cons.inj sameNames
      rw [changedNames_cons, changedNames_cons, ih sameNames, differs_comm, sameName]

theorem changedNames_eq_nil {current previous : List (Text × Value)}
    (sameNames : current.map Prod.fst = previous.map Prod.fst) : changedNames current previous = [] ↔
      current.map (·.2.semanticSerialized) = previous.map (·.2.semanticSerialized) := by
  induction current generalizing previous with
  | nil => cases previous with
    | nil => exact iff_of_true rfl rfl
    | cons _ _ => cases sameNames
  | cons first rest ih =>
    cases previous with
    | nil => cases sameNames
    | cons other others =>
      rw [changedNames_cons, List.append_eq_nil_iff, ih (List.cons.inj sameNames).2, List.map_cons,
        List.map_cons, List.cons.injEq, ← differs_eq_false]
      cases differs first.2 other.2 <;> simp

/-- A round of the loop finds a change exactly where something that is compared differs. -/
theorem exists_commonChange {current previous : CanonicalApi} {key : Text}
    (currentEnrichment previousEnrichment : Option EnrichmentSnapshot)
    (isCurrent : key ∈ keysOf current) (isPrevious : key ∈ keysOf previous) :
    ∃ change, commonChange current previous currentEnrichment previousEnrichment key = some change ∧
      change.operationKey = key ∧ (change.changes = [] ↔
        comparedAspects current currentEnrichment key = comparedAspects previous previousEnrichment key) := by
  obtain ⟨operation, found⟩ := Option.isSome_iff_exists.mp (lookup_isSome.mpr isCurrent)
  obtain ⟨before, foundBefore⟩ := Option.isSome_iff_exists.mp (lookup_isSome.mpr isPrevious)
  unfold commonChange comparedAspects
  rw [found, foundBefore]
  refine ⟨_, rfl, rfl, ?_⟩
  have sameNames : (operationAspects current operation).map Prod.fst = (operationAspects previous before).map Prod.fst := rfl
  rw [Option.map_some, Option.map_some, Option.some.injEq, List.append_eq_nil_iff, operationChanges,
    changedNames_eq_nil sameNames, List.append_singleton_inj, ← differs_eq_false]
  cases differs _ _ <;> simp

theorem commonChange_comm (current previous : CanonicalApi)
    (currentEnrichment previousEnrichment : Option EnrichmentSnapshot) (key : Text) :
    commonChange previous current previousEnrichment currentEnrichment key =
      commonChange current previous currentEnrichment previousEnrichment key := by
  unfold commonChange operationChanges
  cases (operationsByKey current).lookup key with
  | none => cases (operationsByKey previous).lookup key <;> rfl
  | some operation =>
    cases (operationsByKey previous).lookup key with
    | none => rfl
    | some before =>
      have sameNames : (operationAspects previous before).map Prod.fst = (operationAspects current operation).map Prod.fst :=
        rfl
      show some _ = some _
      rw [changedNames_comm sameNames, differs_comm]

/-! ## The partition -/

theorem nodup_keysOf (api : CanonicalApi) : (keysOf api).Nodup :=
  (keys_dictBy CanonicalOperation.key api.operations).1

theorem mem_keysOf {api : CanonicalApi} {key : Text} : key ∈ keysOf api ↔ key ∈ api.operationKeys :=
  (keys_dictBy CanonicalOperation.key api.operations).2 key

theorem keys_filterMap {make : Text → Option OperationChange} {keys : List Text}
    (found : ∀ key ∈ keys, ∃ change, make key = some change ∧ change.operationKey = key) :
    (keys.filterMap make).map OperationChange.operationKey = keys := by
  induction keys with
  | nil => rfl
  | cons key rest ih =>
    obtain ⟨⟨change, made, sameKey⟩, others⟩ := List.forall_mem_cons.mp found
    rw [List.filterMap_cons_some made, List.map_cons, sameKey, ih others]

/-- Every operation of either build is listed once, in one of the four lists. -/
structure BuildDiff.Partitions (diff : BuildDiff) (current previous : CanonicalApi) : Prop where
  distinct : (diff.addedOperations ++ diff.removedOperations ++ diff.changedKeys ++ diff.unchangedOperations).Nodup
  covers : ∀ key, key ∈ diff.addedOperations ++ diff.removedOperations ++ diff.changedKeys ++ diff.unchangedOperations ↔
    key ∈ current.operationKeys ∨ key ∈ previous.operationKeys

/-- Nothing is reported but unchanged operations. -/
structure BuildDiff.NoChange (diff : BuildDiff) : Prop where
  added : diff.addedOperations = []
  removed : diff.removedOperations = []
  changed : diff.changedOperations = []
  schemas : diff.changedSchemas = []
  security : diff.changedSecurity = []
  documents : diff.changedDocuments = []

/-- What is added in one direction is removed in the other, and the rest is the same. -/
structure BuildDiff.Mirrors (swapped diff : BuildDiff) : Prop where
  added : swapped.addedOperations = diff.removedOperations
  removed : swapped.removedOperations = diff.addedOperations
  changed : swapped.changedOperations = diff.changedOperations
  unchanged : swapped.unchangedOperations = diff.unchangedOperations
  schemas : swapped.changedSchemas = diff.changedSchemas
  security : swapped.changedSecurity = diff.changedSecurity
  documents : swapped.changedDocuments = diff.changedDocuments

section

variable (current previous : CanonicalApi) (currentEnrichment previousEnrichment : Option EnrichmentSnapshot)

theorem keys_commonChanges :
    (commonChanges current previous currentEnrichment previousEnrichment).map OperationChange.operationKey =
      Text.sorted ((keysOf current).filter (keysOf previous).contains) := by
  apply keys_filterMap
  intro key member
  obtain ⟨isCurrent, isPrevious⟩ := List.mem_filter.mp (Text.mem_sorted.mp member)
  obtain ⟨change, made, sameKey, -⟩ := exists_commonChange currentEnrichment previousEnrichment isCurrent
    (List.contains_iff_mem.mp isPrevious)
  exact ⟨change, made, sameKey⟩

/-- The key of a change is one of both builds, and it has changed if something differs that is compared. -/
theorem compared_of_commonChanges {change : OperationChange}
    (member : change ∈ commonChanges current previous currentEnrichment previousEnrichment) :
    change.changes = [] ↔ comparedAspects current currentEnrichment change.operationKey =
      comparedAspects previous previousEnrichment change.operationKey := by
  obtain ⟨key, isCommon, made⟩ := List.mem_filterMap.mp member
  obtain ⟨isCurrent, isPrevious⟩ := List.mem_filter.mp (Text.mem_sorted.mp isCommon)
  obtain ⟨other, alsoMade, rfl, compared⟩ := exists_commonChange currentEnrichment previousEnrichment isCurrent
    (List.contains_iff_mem.mp isPrevious)
  cases made.symm.trans alsoMade
  exact compared

theorem commonChanges_comm : commonChanges previous current previousEnrichment currentEnrichment =
    commonChanges current previous currentEnrichment previousEnrichment := by
  have sameKeys : Text.sorted ((keysOf previous).filter (keysOf current).contains) =
      Text.sorted ((keysOf current).filter (keysOf previous).contains) := by
    apply Text.sorted_eq_of_perm
    apply (List.perm_ext_iff_of_nodup ((nodup_keysOf previous).filter _) ((nodup_keysOf current).filter _)).mpr
    intro key
    rw [List.mem_filter, List.mem_filter, List.contains_iff_mem, List.contains_iff_mem, and_comm]
  unfold commonChanges
  rw [sameKeys]
  exact List.filterMap_congr fun key _ => commonChange_comm current previous currentEnrichment previousEnrichment key

/-- The four lists are the operations of the current build and those that only the previous one has. -/
theorem perm_diffBuilds :
    let diff := diffBuilds current (some previous) currentEnrichment previousEnrichment
    (diff.addedOperations ++ diff.removedOperations ++ diff.changedKeys ++ diff.unchangedOperations).Perm
      (keysOf current ++ (keysOf previous).filter (!(keysOf current).contains ·)) := by
  intro diff
  have common : (diff.changedKeys ++ diff.unchangedOperations).Perm
      ((keysOf current).filter (keysOf previous).contains) := by
    have both := List.perm_append_comm.trans (List.filter_append_perm (fun change => change.changes.isEmpty)
      (commonChanges current previous currentEnrichment previousEnrichment))
    have keys := both.map OperationChange.operationKey
    rw [List.map_append, keys_commonChanges] at keys
    exact keys.trans (Text.perm_sortedBy id _)
  have added : diff.addedOperations.Perm ((keysOf current).filter (!(keysOf previous).contains ·)) :=
    Text.perm_sortedBy id _
  have removed : diff.removedOperations.Perm ((keysOf previous).filter (!(keysOf current).contains ·)) :=
    Text.perm_sortedBy id _
  have own : (diff.addedOperations ++ (diff.changedKeys ++ diff.unchangedOperations)).Perm (keysOf current) :=
    (added.append common).trans
      (List.perm_append_comm.trans (List.filter_append_perm (keysOf previous).contains (keysOf current)))
  have regrouped : (diff.removedOperations ++ (diff.changedKeys ++ diff.unchangedOperations)).Perm
      ((diff.changedKeys ++ diff.unchangedOperations) ++ diff.removedOperations) := List.perm_append_comm
  have whole : (diff.addedOperations ++ (diff.removedOperations ++ (diff.changedKeys ++ diff.unchangedOperations))).Perm
      (keysOf current ++ (keysOf previous).filter (!(keysOf current).contains ·)) := by
    apply (regrouped.append_left diff.addedOperations).trans
    rw [← List.append_assoc]
    exact own.append removed
  simpa only [List.append_assoc] using whole

theorem partitions_diffBuilds :
    (diffBuilds current (some previous) currentEnrichment previousEnrichment).Partitions current previous := by
  have listed := perm_diffBuilds current previous currentEnrichment previousEnrichment
  constructor
  · rw [listed.nodup_iff, List.nodup_append]
    refine ⟨nodup_keysOf current, (nodup_keysOf previous).filter _, ?_⟩
    rintro key isCurrent _ isRemoved rfl
    have notCurrent := (List.mem_filter.mp isRemoved).2
    rw [List.contains_iff_mem.mpr isCurrent] at notCurrent
    cases notCurrent
  · intro key
    rw [listed.mem_iff, List.mem_append, List.mem_filter, ← mem_keysOf, ← mem_keysOf]
    by_cases isCurrent : key ∈ keysOf current
    · exact iff_of_true (.inl isCurrent) (.inl isCurrent)
    · have missing : (keysOf current).contains key = false := by simpa using isCurrent
      rw [missing]
      exact or_congr_right (and_iff_left rfl)

theorem changedMapping_comm {α : Type} (make : α → Value) (current previous : List (Text × α)) :
    changedMapping make previous current = changedMapping make current previous := by
  have sameKeys : Text.sorted (previous.map Prod.fst ++ current.map Prod.fst).dedup =
      Text.sorted (current.map Prod.fst ++ previous.map Prod.fst).dedup :=
    Text.sorted_eq_of_perm (List.perm_append_comm.dedup)
  unfold changedMapping
  rw [sameKeys]
  exact List.filter_congr fun key _ => differs_comm _ _

theorem changedDocuments_comm : changedDocuments previous current = changedDocuments current previous := by
  unfold changedDocuments
  apply Text.sorted_eq_of_perm
  apply List.Perm.dedup
  apply List.Perm.map
  apply (List.perm_append_comm.filter _).trans
  rw [List.filter_congr fun item _ => bne_comm]

theorem mirrors_diffBuilds : (diffBuilds previous (some current) previousEnrichment currentEnrichment).Mirrors
    (diffBuilds current (some previous) currentEnrichment previousEnrichment) where
  added := rfl
  removed := rfl
  changed := congrArg (List.filter _) (commonChanges_comm current previous currentEnrichment previousEnrichment)
  unchanged := congrArg (fun common => (common.filter (·.changes.isEmpty)).map OperationChange.operationKey)
    (commonChanges_comm current previous currentEnrichment previousEnrichment)
  schemas := changedMapping_comm _ _ _
  security := changedMapping_comm _ _ _
  documents := changedDocuments_comm _ _

theorem changedMapping_self {α : Type} (make : α → Value) (current : List (Text × α)) :
    changedMapping make current current = [] :=
  List.filter_eq_nil_iff.mpr fun key _ => by simp

theorem noChange_diffBuilds : (diffBuilds current (some current) currentEnrichment currentEnrichment).NoChange where
  added := by
    apply Text.sorted_eq_nil.mpr
    exact List.filter_eq_nil_iff.mpr fun key member => by simpa using member
  removed := by
    apply Text.sorted_eq_nil.mpr
    exact List.filter_eq_nil_iff.mpr fun key member => by simpa using member
  changed := by
    apply List.filter_eq_nil_iff.mpr
    intro change member
    have noChange := (compared_of_commonChanges current current currentEnrichment currentEnrichment member).mpr rfl
    simp [noChange]
  schemas := changedMapping_self _ _
  security := changedMapping_self _ _
  documents := by
    apply Text.sorted_eq_nil.mpr
    simp

/-- The difference of two builds puts every operation into one list, as changed only if something differs that is
compared. It does not matter which of the builds comes first, and a build does not differ from itself. -/
theorem diff_is_partition :
    (diffBuilds current (some previous) currentEnrichment previousEnrichment).Partitions current previous ∧
      (∀ key ∈ (diffBuilds current (some previous) currentEnrichment previousEnrichment).changedKeys,
        comparedAspects current currentEnrichment key ≠ comparedAspects previous previousEnrichment key) ∧
      (∀ key ∈ (diffBuilds current (some previous) currentEnrichment previousEnrichment).unchangedOperations,
        comparedAspects current currentEnrichment key = comparedAspects previous previousEnrichment key) ∧
      (diffBuilds previous (some current) previousEnrichment currentEnrichment).Mirrors
        (diffBuilds current (some previous) currentEnrichment previousEnrichment) ∧
      (diffBuilds current (some current) currentEnrichment currentEnrichment).NoChange := by
  refine ⟨partitions_diffBuilds .., ?_, ?_, mirrors_diffBuilds .., noChange_diffBuilds ..⟩
  · intro key member
    obtain ⟨change, isChanged, rfl⟩ := List.mem_map.mp member
    obtain ⟨isCommon, hasChanges⟩ := List.mem_filter.mp isChanged
    intro same
    rw [(compared_of_commonChanges _ _ _ _ isCommon).mpr same] at hasChanges
    cases hasChanges
  · intro key member
    obtain ⟨change, isUnchanged, rfl⟩ := List.mem_map.mp member
    obtain ⟨isCommon, noChanges⟩ := List.mem_filter.mp isUnchanged
    exact (compared_of_commonChanges _ _ _ _ isCommon).mp (List.isEmpty_iff.mp noChanges)

end

end Mcplica.Builds
