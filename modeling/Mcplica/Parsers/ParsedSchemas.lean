import Mcplica.Parsers.DataPositions
import Mcplica.Parsers.OpenApi

/-! # The schemas of parsed operations

Every schema in an operation that `parse_openapi` returns comes from `_schema`, which leaves no reference as it was
written: what is left under `$ref` is a reference to a generated definition. -/

namespace Mcplica.Parsers

open Mcplica.Library
open Mcplica.Contracts
open Mcplica.Domain

/-! ## Normalization keeps references -/

section Normalization

variable {holds : Json → Prop} {fields schema : JsonObject} {key : Text} {value : Json} {location : Text}

theorem everyReferenceOfFields_pop (every : EveryReferenceOfFields holds fields) :
    EveryReferenceOfFields holds (Json.pop fields key) := by
  rw [everyReferenceOfFields_iff] at every ⊢
  exact fun field member => every field (List.mem_of_mem_filter member)

theorem everyReferenceOfFields_set (every : EveryReferenceOfFields holds fields) (notReference : key ≠ "$ref")
    (inside : EveryReference holds value) : EveryReferenceOfFields holds (Json.set fields key value) := by
  rw [everyReferenceOfFields_iff] at every ⊢
  intro field member
  rcases Json.mem_set member with rfl | old
  · exact ⟨fun same => absurd same notReference, inside⟩
  · exact every field old

theorem everyReference_get (every : EveryReferenceOfFields holds fields) (found : Json.get fields key = some value) :
    EveryReference holds value :=
  (everyReferenceOfFields_iff.mp every _ (Json.mem_of_get found)).2

theorem everyReference_exclusiveBound {keyword inclusive : Text} {mark : SchemaTransformation} {result : Traced JsonObject}
    (notReference : keyword ≠ "$ref") (every : EveryReferenceOfFields holds fields)
    (ran : exclusiveBound location keyword inclusive mark fields = .ok result) : EveryReferenceOfFields holds result.1 := by
  unfold exclusiveBound at ran
  split at ran
  · split at ran
    · cases ran
      exact everyReferenceOfFields_set (everyReferenceOfFields_pop (everyReferenceOfFields_pop every)) notReference trivial
    · cases ran
  · cases ran
    exact everyReferenceOfFields_pop every
  · cases ran
    exact every

theorem everyReference_exampleAsExamples (every : EveryReferenceOfFields holds fields) :
    EveryReferenceOfFields holds (exampleAsExamples location fields).1 := by
  unfold exampleAsExamples
  split
  · exact every
  · rename_i value found
    have rest : EveryReferenceOfFields holds (Json.pop fields "example") := everyReferenceOfFields_pop every
    dsimp only
    split
    · exact rest
    · exact everyReferenceOfFields_set rest (by decide)
        (everyReference_array.mpr fun item member => List.mem_singleton.mp member ▸ everyReference_get every found)

theorem everyReference_nullableAsChoice (every : EveryReferenceOfFields holds fields) :
    EveryReferenceOfFields holds (nullableAsChoice location fields).1 := by
  have rest : EveryReferenceOfFields holds (Json.pop fields "nullable") := everyReferenceOfFields_pop every
  unfold nullableAsChoice
  dsimp only
  split
  · refine everyReferenceOfFields_append ?_ ⟨fun same => absurd same (by decide), ?_, trivial⟩
    · rw [everyReferenceOfFields_iff] at rest ⊢
      intro field member
      obtain ⟨keyword, -, found⟩ := List.mem_filterMap.mp member
      obtain ⟨item, isItem, rfl⟩ := Option.map_eq_some_iff.mp found
      exact rest _ (Json.mem_of_get isItem)
    · have popped : ∀ (keywords : List Text) (schema : JsonObject), EveryReferenceOfFields holds schema →
          EveryReferenceOfFields holds (keywords.foldl Json.pop schema) := by
        intro keywords
        induction keywords with
        | nil => exact fun _ same => same
        | cons keyword others ih =>
          exact fun schema inside => ih _ (everyReferenceOfFields_pop inside)
      rw [everyReference_array]
      intro item member
      rcases List.mem_cons.mp member with rfl | later
      · exact popped _ _ rest
      · rw [List.mem_singleton.mp later]
        exact ⟨fun same => absurd same (by decide), trivial, trivial⟩
  · exact rest

/-- What every value that is put together from normalized fields may refer to. -/
def FieldsKeep (holds : Json → Prop) (fields : List (Text × Except SourceError (Traced Json))) : Prop :=
  ∀ field ∈ fields, ∀ value, field.2 = .ok value → (field.1 = "$ref" → holds value.1) ∧ EveryReference holds value.1

theorem everyReference_normalizeKeywords {results : List (Text × Except SourceError (Traced Json))}
    {result : Traced JsonObject} (keeps : FieldsKeep holds results)
    (ran : normalizeKeywords location results = .ok result) : EveryReferenceOfFields holds result.1 := by
  unfold normalizeKeywords at ran
  simp only [bind_eq_ok] at ran
  obtain ⟨values, normalized, minimum, isMinimum, maximum, isMaximum, ran⟩ := ran
  have start : EveryReferenceOfFields holds values.1 := by
    unfold normalizedFields at normalized
    simp only [bind_eq_ok] at normalized
    obtain ⟨traces, -, entries, areEntries, normalized⟩ := normalized
    cases normalized
    rw [everyReferenceOfFields_iff]
    intro field member
    obtain ⟨source, isSource, made⟩ := exists_of_forall₂_right (mapM_eq_ok.mp areEntries) member
    obtain ⟨value, isValue, rfl⟩ := map_eq_ok.mp made
    exact keeps source isSource value isValue
  have bounded := everyReference_exclusiveBound (by decide) (everyReference_exclusiveBound (by decide) start isMinimum)
    isMaximum
  cases ran
  exact everyReference_nullableAsChoice (everyReference_exampleAsExamples bounded)

/-- The members `$ref` are texts, so that normalization leaves them as they are. -/
def OfTexts (holds : Json → Prop) : Prop :=
  ∀ value, holds value → ∃ text, value = .string text

mutual

theorem everyReference_normalizeNode (texts : OfTexts holds) : ∀ {node : Json} {location : Text} {result : Traced Json},
    EveryReference holds node → normalizeNode node location = .ok result →
      EveryReference holds result.1 ∧ (holds node → holds result.1)
  | .object fields, location, result, every, ran => by
    rw [normalizeNode, bind_eq_ok] at ran
    obtain ⟨schema, normalized, isResult⟩ := ran
    cases isResult
    refine ⟨everyReference_normalizeKeywords (fieldsKeep_normalizeFields texts every) normalized, fun impossible => ?_⟩
    obtain ⟨text, isText⟩ := texts _ impossible
    cases isText
  | .array _, _, _, every, ran
  | .null, _, _, every, ran
  | .bool _, _, _, every, ran
  | .number _ _, _, _, every, ran
  | .string _, _, _, every, ran => by
    cases ran
    exact ⟨every, id⟩

theorem fieldsKeep_normalizeFields (texts : OfTexts holds) : ∀ {fields : JsonObject} {location : Text},
    EveryReferenceOfFields holds fields → FieldsKeep holds (normalizeFields fields location)
  | [], _, _ => fun _ member => (List.not_mem_nil member).elim
  | (key, value) :: rest, location, every => by
    intro field member result isResult
    rw [normalizeFields] at member
    rcases List.mem_cons.mp member with rfl | later
    · -- a member `$ref` is no place of subschemas
      by_cases isReference : key = "$ref"
      · subst isReference
        have isData : positionOf30 "$ref" = .data := by decide
        rw [isData] at isResult
        cases isResult
        exact ⟨every.1, every.2.1⟩
      · refine ⟨fun same => absurd same isReference, ?_⟩
        dsimp only at isResult
        split at isResult
        · exact everyReference_normalizeMap texts every.2.1 isResult
        · exact everyReference_normalizeArray texts every.2.1 isResult
        · exact (everyReference_normalizeNode texts every.2.1 isResult).1
        · cases isResult
          exact every.2.1
    · exact fieldsKeep_normalizeFields texts every.2.2 field later result isResult

theorem everyReference_normalizeMap (texts : OfTexts holds) : ∀ {node : Json} {location : Text} {result : Traced Json},
    EveryReference holds node → normalizeMap node location = .ok result → EveryReference holds result.1
  | .object entries, _, _, every, ran => by
    rw [normalizeMap, bind_eq_ok] at ran
    obtain ⟨normalized, areNormalized, isResult⟩ := ran
    cases isResult
    exact everyReference_normalizeEntries texts every areNormalized
  | .array _, _, _, every, ran
  | .null, _, _, every, ran
  | .bool _, _, _, every, ran
  | .number _ _, _, _, every, ran
  | .string _, _, _, every, ran => by
    cases ran
    exact every

theorem everyReference_normalizeEntries (texts : OfTexts holds) : ∀ {entries : JsonObject} {location : Text}
    {result : Traced JsonObject}, EveryReferenceOfFields holds entries → normalizeEntries entries location = .ok result →
      EveryReferenceOfFields holds result.1
  | [], _, _, _, ran => by
    cases ran
    trivial
  | (name, item) :: rest, _, _, every, ran => by
    rw [normalizeEntries, bind_eq_ok] at ran
    obtain ⟨first, isFirst, ran⟩ := ran
    obtain ⟨others, areOthers, isResult⟩ := bind_eq_ok.mp ran
    cases isResult
    have here := everyReference_normalizeNode texts every.2.1 isFirst
    exact ⟨fun isReference => here.2 (every.1 isReference), here.1,
      everyReference_normalizeEntries texts every.2.2 areOthers⟩

theorem everyReference_normalizeArray (texts : OfTexts holds) : ∀ {node : Json} {location : Text} {result : Traced Json},
    EveryReference holds node → normalizeArray node location = .ok result → EveryReference holds result.1
  | .array items, _, _, every, ran => by
    rw [normalizeArray, bind_eq_ok] at ran
    obtain ⟨normalized, areNormalized, isResult⟩ := ran
    cases isResult
    exact everyReference_normalizeItems texts every areNormalized
  | .object _, _, _, every, ran
  | .null, _, _, every, ran
  | .bool _, _, _, every, ran
  | .number _ _, _, _, every, ran
  | .string _, _, _, every, ran => by
    cases ran
    exact every

theorem everyReference_normalizeItems (texts : OfTexts holds) : ∀ {items : List Json} {location : Text} {index : Nat}
    {result : Traced (List Json)}, EveryReferenceOfItems holds items → normalizeItems items location index = .ok result →
      EveryReferenceOfItems holds result.1
  | [], _, _, _, _, ran => by
    cases ran
    trivial
  | item :: rest, _, _, _, every, ran => by
    rw [normalizeItems, bind_eq_ok] at ran
    obtain ⟨first, isFirst, ran⟩ := ran
    obtain ⟨others, areOthers, isResult⟩ := bind_eq_ok.mp ran
    cases isResult
    exact ⟨(everyReference_normalizeNode texts every.1 isFirst).1, everyReference_normalizeItems texts every.2 areOthers⟩

end

end Normalization

/-! ## What is left under `$ref` -/

section Executable

variable {libraries : ParserLibraries} {scope : ReferenceScope} {fuel : Nat} {sourceFormat : SourceFormat} {value : Json}
  {context : OpenApiContext} {location : Text}

/-- A reference to a definition that was generated for a place. -/
def IsGeneratedReference (sha256 : Text → Text) (value : Json) : Prop :=
  ∃ place : ReferenceTarget, value = definitionReference (openApiKey sha256 place)

theorem isGeneratedReference_ofTexts (sha256 : Text → Text) : OfTexts (IsGeneratedReference sha256) := by
  rintro value ⟨place, rfl⟩
  exact ⟨_, rfl⟩

theorem everyReference_materializeSchema {schema : JsonObject}
    (materialized : materializeSchema libraries.sha256 scope fuel value context location = .ok schema) :
    EveryReferenceOfFields (IsGeneratedReference libraries.sha256) schema := by
  cases value with
  | object fields =>
    rw [materializeSchema_eq] at materialized
    obtain ⟨places, after, arePlaces, run, added⟩ := materializeWith_eq_ok.mp materialized
    rw [addDefinitions_eq_ok added]
    refine everyReference_of_explores arePlaces run fun key isKey => ?_
    obtain ⟨place, rfl⟩ := (run.keys_of_places _ isKey).resolve_left List.not_mem_nil
    exact ⟨place, rfl⟩
  | null | bool | number | string | array =>
    obtain ⟨_, isObject, -⟩ := bind_eq_ok.mp (attributed_eq_ok.mp materialized)
    cases isObject

/-- No reference of an executable schema is one of the source. -/
theorem everyReference_schemaOf {result : Traced JsonObject}
    (parsed : schemaOf libraries scope fuel sourceFormat value context location = .ok result) :
    EveryReferenceOfFields (IsGeneratedReference libraries.sha256) result.1 := by
  simp only [schemaOf, bind_eq_ok] at parsed
  obtain ⟨schema, materialized, ⟨executable, trace⟩, isExecutable, passed, -, isResult⟩ := parsed
  have every := everyReference_materializeSchema materialized
  cases isResult
  unfold executableSchema at isExecutable
  split at isExecutable
  · obtain ⟨⟨normalized, rewrites⟩, isNormalized, isExecutable⟩ := bind_eq_ok.mp isExecutable
    have kept : EveryReferenceOfFields (IsGeneratedReference libraries.sha256) normalized :=
      everyReference_normalizeKeywords (fieldsKeep_normalizeFields (isGeneratedReference_ofTexts _) every) isNormalized
    cases isExecutable
    dsimp only
    split
    · exact kept
    · exact everyReferenceOfFields_set kept (by decide) trivial
  · obtain ⟨-, isExecutable⟩ := check_bind_eq_ok.mp isExecutable
    cases isExecutable
    exact every

end Executable

/-! ## Where the schemas of an operation come from -/

section Operations

variable (libraries : ParserLibraries) (scope : ReferenceScope) (fuel : Nat) (sourceFormat : SourceFormat)

/-- The schema is what `_schema` returns, or what stands for the content of a parameter. -/
def IsParsedSchema (schema : JsonObject) : Prop :=
  schema = [Json.entry "x-mcplica-unsupported" (.text "parameter-content")] ∨
    ∃ value context location trace, schemaOf libraries scope fuel sourceFormat value context location = .ok (schema, trace)

variable {libraries scope fuel sourceFormat}

theorem mem_tracedList {α : Type} {results : List (Traced α)} {value : α} :
    value ∈ (tracedList results).1 ↔ ∃ trace, (value, trace) ∈ results := by
  simp [tracedList]

theorem IsParsedSchema.everyReference {schema : JsonObject} (isParsed : IsParsedSchema libraries scope fuel sourceFormat schema) :
    EveryReference (IsGeneratedReference libraries.sha256) (.object schema) := by
  rcases isParsed with rfl | ⟨value, context, location, trace, parsed⟩
  · exact ⟨fun same => absurd same (by decide), trivial, trivial⟩
  · exact everyReference_schemaOf parsed

theorem isParsed_mediaTypes {content : Option Json} {context : OpenApiContext} {location : Text}
    {result : Traced (List CanonicalMediaType)}
    (ran : mediaTypes libraries scope fuel sourceFormat content context location = .ok result) :
    ∀ media ∈ result.1, IsParsedSchema libraries scope fuel sourceFormat media.schema := by
  intro media member
  unfold mediaTypes at ran
  split at ran
  · cases ran
    cases member
  · cases ran
    cases member
  · obtain ⟨results, areResults, ran⟩ := bind_eq_ok.mp ran
    cases ran
    obtain ⟨trace, isResult⟩ := mem_tracedList.mp member
    obtain ⟨entry, -, made⟩ := exists_of_forall₂_right (mapM_eq_ok.mp areResults) isResult
    unfold mediaTypeOf at made
    dsimp only at made
    split at made
    · obtain ⟨⟨schema, rewrites⟩, isSchema, made⟩ := bind_eq_ok.mp made
      cases made
      exact .inr ⟨_, _, _, _, isSchema⟩
    · cases made
  · cases ran

theorem isParsed_parametersOf {item operation : Resolved} {inherited : List Json} {place : Text}
    {result : Traced (List CanonicalParameter)}
    (ran : parametersOf libraries scope fuel sourceFormat item operation inherited place = .ok result) :
    ∀ parameter ∈ result.1, IsParsedSchema libraries scope fuel sourceFormat parameter.schema := by
  intro parameter member
  simp only [parametersOf, bind_eq_ok] at ran
  obtain ⟨own, -, merged, -, results, areResults, ran⟩ := ran
  cases ran
  obtain ⟨trace, isResult⟩ := mem_tracedList.mp member
  obtain ⟨⟨⟨name, place⟩, resolved⟩, -, made⟩ := exists_of_forall₂_right (mapM_eq_ok.mp areResults) isResult
  simp only [canonicalParameter, bind_eq_ok] at made
  obtain ⟨-, -, ⟨schema, rewrites⟩, isSchema, -, -, made⟩ := made
  cases made
  unfold parameterSchema at isSchema
  split at isSchema
  · cases isSchema
    exact .inl rfl
  · exact .inr ⟨_, _, _, _, isSchema⟩

theorem isParsed_requestBodyOf {operation : Resolved} {result : Traced (Option CanonicalRequestBody)}
    (ran : requestBodyOf libraries scope fuel sourceFormat operation = .ok result) :
    ∀ body ∈ result.1, ∀ media ∈ body.content, IsParsedSchema libraries scope fuel sourceFormat media.schema := by
  intro body isBody
  unfold requestBodyOf at ran
  split at ran
  · cases ran
    cases isBody
  · simp only [bind_eq_ok] at ran
    obtain ⟨resolved, -, ⟨content, trace⟩, isContent, ran⟩ := ran
    split at ran
    · cases ran
    · cases ran
      cases isBody
      exact isParsed_mediaTypes isContent

theorem isParsed_responsesOf {operation : Resolved} {place : Text} {result : Traced (List CanonicalResponse)}
    (ran : responsesOf libraries scope fuel sourceFormat operation place = .ok result) :
    result.1 ≠ [] ∧ ∀ response ∈ result.1,
      (∃ raw place resolved, scope.resolveIn fuel operation raw place = .ok resolved ∧
        response.sourceRef = resolved.sourceRef) ∧
      ∀ media ∈ response.content, IsParsedSchema libraries scope fuel sourceFormat media.schema := by
  unfold responsesOf at ran
  split at ran
  · obtain ⟨results, areResults, ran⟩ := bind_eq_ok.mp ran
    cases ran
    have related := mapM_eq_ok.mp areResults
    constructor
    · cases related
      exact List.cons_ne_nil _ _
    · intro response member
      obtain ⟨trace, isResult⟩ := mem_tracedList.mp member
      obtain ⟨entry, -, made⟩ := exists_of_forall₂_right related isResult
      simp only [responseOf, bind_eq_ok] at made
      obtain ⟨resolved, resolves, ⟨content, rewrites⟩, isContent, made⟩ := made
      cases made
      exact ⟨⟨_, _, resolved, resolves, rfl⟩, isParsed_mediaTypes isContent⟩
  · cases ran

variable (libraries scope fuel sourceFormat) in
/-- What an operation is made from is read of the node that it resolves to. -/
structure ReadsOperation (path : PathContext) (head : OperationHead) (body : OperationBody) : Prop where
  item : ∃ raw place, scope.resolveRoot fuel raw place = .ok path.item
  resolved : ∃ raw place, scope.resolveIn fuel path.item raw place = .ok head.resolved
  body : ∃ trace, operationBody libraries scope fuel sourceFormat path head = .ok (body, trace)

variable (libraries scope fuel sourceFormat) in
def IsParsedOperation (operation : CanonicalOperation) : Prop :=
  ∃ path servers head selected body, ReadsOperation libraries scope fuel sourceFormat path head body ∧
    operation = canonicalOperation libraries scope path servers head selected body

theorem IsParsedOperation.schemas {operation : CanonicalOperation}
    (isParsed : IsParsedOperation libraries scope fuel sourceFormat operation) :
    ∀ schema ∈ operation.schemas, IsParsedSchema libraries scope fuel sourceFormat schema := by
  obtain ⟨path, servers, head, selected, body, ⟨-, -, trace, ran⟩, rfl⟩ := isParsed
  simp only [operationBody, bind_eq_ok] at ran
  obtain ⟨parameters, areParameters, requestBody, isRequestBody, responses, areResponses, security, -, tags, -, ran⟩ := ran
  cases ran
  intro schema member
  unfold CanonicalOperation.schemas at member
  simp only [canonicalOperation, List.mem_append, List.mem_map, List.mem_flatMap, Option.mem_toList] at member
  rcases member with (⟨parameter, isParameter, rfl⟩ | ⟨media, ⟨own, isOwn, isMedia⟩, rfl⟩) |
    ⟨media, ⟨response, isResponse, isMedia⟩, rfl⟩
  · exact isParsed_parametersOf areParameters parameter isParameter
  · exact isParsed_requestBodyOf isRequestBody own isOwn media isMedia
  · exact ((isParsed_responsesOf areResponses).2 response isResponse).2 media isMedia

variable {routing : ProjectRoutingConfiguration} {globalServerKeys : List Text}

theorem isParsed_parseMethod {path : PathContext} {state next : OperationsState} {entry : Text × Json}
    (isItem : ∃ raw place, scope.resolveRoot fuel raw place = .ok path.item)
    (before : ∀ operation ∈ state.operations, IsParsedOperation libraries scope fuel sourceFormat operation)
    (ran : parseMethod libraries scope fuel sourceFormat routing globalServerKeys path state entry = .ok next) :
    ∀ operation ∈ next.operations, IsParsedOperation libraries scope fuel sourceFormat operation := by
  unfold parseMethod at ran
  dsimp only at ran
  split at ran
  · cases ran
    exact before
  · simp only [bind_eq_ok] at ran
    obtain ⟨⟨head, servers, operationIds⟩, isHead, selected, -, ⟨body, trace⟩, isBody, -, -, ran⟩ := ran
    cases ran
    intro operation member
    rcases List.mem_append.mp member with old | new
    · exact before operation old
    · simp only [operationHead, bind_eq_ok] at isHead
      obtain ⟨resolved, resolves, _, -, ⟨_, _⟩, -, isHead⟩ := isHead
      cases isHead
      exact ⟨path, _, _, selected, body, ⟨isItem, ⟨_, _, resolves⟩, trace, isBody⟩, List.mem_singleton.mp new⟩

theorem isParsed_parsePath {state next : OperationsState} {entry : Text × Json}
    (before : ∀ operation ∈ state.operations, IsParsedOperation libraries scope fuel sourceFormat operation)
    (ran : parsePath libraries scope fuel sourceFormat routing globalServerKeys state entry = .ok next) :
    ∀ operation ∈ next.operations, IsParsedOperation libraries scope fuel sourceFormat operation := by
  simp only [parsePath, bind_eq_ok] at ran
  obtain ⟨item, isItem, parameters, -, ⟨serverKeys, servers⟩, -, ran⟩ := ran
  exact foldlM_induction
    (fun _ state => ∀ operation ∈ state.operations, IsParsedOperation libraries scope fuel sourceFormat operation)
    before (fun _ _ _ _ kept step => isParsed_parseMethod ⟨_, _, isItem⟩ kept step) ran

/-! ### A single document -/

/-- Where no reference leaves its document, a node resolves to one of the same version. -/
theorem resolve_sourceVersionId (stays : ∀ reference document version target,
      scope.target reference document version = .ok target → target.sourceVersionId = version) :
    ∀ {fuel : Nat} {seen : List (Uuid × Text)} {value : Json} {document : JsonObject} {version : Uuid} {place : Text}
      {resolved : Resolved}, scope.resolve fuel seen value document version place = .ok resolved →
      resolved.sourceVersionId = version := by
  intro fuel
  induction fuel with
  | zero =>
    intro seen value document version place resolved ran
    unfold ReferenceScope.resolve at ran
    rw [attributed_eq_ok] at ran
    split at ran
    · split at ran
      · cases ran
        rfl
      · obtain ⟨target, -, ran⟩ := bind_eq_ok.mp ran
        split at ran <;> cases ran
      · cases ran
    · cases ran
  | succ fuel ih =>
    intro seen value document version place resolved ran
    unfold ReferenceScope.resolve at ran
    rw [attributed_eq_ok] at ran
    split at ran
    · split at ran
      · cases ran
        rfl
      · obtain ⟨target, isTarget, ran⟩ := bind_eq_ok.mp ran
        split at ran
        · cases ran
        · obtain ⟨node, -, ran⟩ := bind_eq_ok.mp ran
          exact (ih ran).trans (stays _ _ _ _ isTarget)
      · cases ran
    · cases ran

/-- Every operation has responses, all of which are written in the only document. -/
theorem IsParsedOperation.responses {operation : CanonicalOperation} (stays : ∀ reference document version target,
      scope.target reference document version = .ok target → target.sourceVersionId = version)
    (isParsed : IsParsedOperation libraries scope fuel sourceFormat operation) :
    operation.responses ≠ [] ∧
      ∀ response ∈ operation.responses, response.sourceRef.sourceVersionId = Text.ofUuid scope.rootSourceVersionId := by
  obtain ⟨path, servers, head, selected, body, ⟨⟨_, _, isItem⟩, ⟨_, _, isResolved⟩, trace, ran⟩, rfl⟩ := isParsed
  simp only [operationBody, bind_eq_ok] at ran
  obtain ⟨parameters, -, requestBody, -, responses, areResponses, security, -, tags, -, ran⟩ := ran
  cases ran
  obtain ⟨someResponse, each⟩ := isParsed_responsesOf areResponses
  refine ⟨someResponse, fun response member => ?_⟩
  obtain ⟨⟨_, _, resolved, resolves, isRef⟩, -⟩ := each response member
  have sameVersion : resolved.sourceVersionId = scope.rootSourceVersionId :=
    (resolve_sourceVersionId stays resolves).trans
      ((resolve_sourceVersionId stays isResolved).trans (resolve_sourceVersionId stays isItem))
  rw [isRef]
  exact congrArg Text.ofUuid sameVersion

end Operations

/-- What is known of a canonical API that was parsed. -/
structure IsParsedApi (libraries : ParserLibraries) (scope : ReferenceScope) (fuel : Nat) (api : CanonicalApi) : Prop where
  operations : ∀ operation ∈ api.operations, IsParsedOperation libraries scope fuel api.sourceFormat operation
  schemas : ∃ components trace, componentsField scope.rootDocument "components" "OpenAPI components must be an object" =
    .ok components ∧ componentSchemas libraries scope fuel api.sourceFormat components = .ok (api.schemas, trace)
  checked : api.check = true

theorem isParsedApi_of_parseScope {libraries : ParserLibraries} {scope : ReferenceScope} {load : Text → Option JsonObject}
    {fuel : Nat} {request : ParseRequest} {api : CanonicalApi}
    (parsed : parseScope libraries scope load fuel request = .ok api) : IsParsedApi libraries scope fuel api := by
  unfold parseScope at parsed
  obtain ⟨header, -, parsed⟩ := bind_eq_ok.mp parsed
  obtain ⟨⟨globalServerKeys, servers⟩, -, parsed⟩ := bind_eq_ok.mp parsed
  obtain ⟨components, areComponents, parsed⟩ := bind_eq_ok.mp parsed
  obtain ⟨schemes, -, parsed⟩ := bind_eq_ok.mp parsed
  obtain ⟨⟨schemas, trace⟩, areSchemas, parsed⟩ := bind_eq_ok.mp parsed
  obtain ⟨state, ran, parsed⟩ := bind_eq_ok.mp parsed
  obtain ⟨-, parsed⟩ := check_bind_eq_ok.mp parsed
  obtain ⟨passed, isApi⟩ := check_bind_eq_ok.mp parsed
  have operations := foldlM_induction
    (fun _ state => ∀ operation ∈ state.operations, IsParsedOperation libraries scope fuel header.sourceFormat operation)
    (fun _ impossible => (List.not_mem_nil impossible).elim) (fun _ _ _ _ kept step => isParsed_parsePath kept step) ran
  have checked := ensure_eq_ok.mp passed
  obtain rfl := Except.ok.inj isApi
  exact ⟨operations, ⟨components, trace, areComponents, areSchemas⟩, checked⟩

theorem isParsedApi_of_parseOpenApi {libraries : ParserLibraries} {fuel : Nat} {request : ParseRequest}
    {external : ExternalDocuments} {document : JsonObject} {api : CanonicalApi}
    (parsed : parseOpenApi libraries fuel request external document = .ok api) :
    IsParsedApi libraries
      ((OpenApiReferenceResolver.mk document request.sourceVersionId external).scope libraries.unicode) fuel api :=
  isParsedApi_of_parseScope parsed

/-- No reference in an operation is one of the source. -/
theorem IsParsedApi.everyReference {libraries : ParserLibraries} {scope : ReferenceScope} {fuel : Nat} {api : CanonicalApi}
    (isParsed : IsParsedApi libraries scope fuel api) : ∀ operation ∈ api.operations, ∀ schema ∈ operation.schemas,
      EveryReference (IsGeneratedReference libraries.sha256) (.object schema) :=
  fun operation member schema isSchema => ((isParsed.operations operation member).schemas schema isSchema).everyReference

/-- Without captured documents no reference leaves the document. -/
theorem target_sourceVersionId {document : JsonObject} {version : Uuid} {unicode : Unicode} (reference : Text)
    (inside : JsonObject) (insideVersion : Uuid) (target : ReferenceTarget)
    (located : ((OpenApiReferenceResolver.mk document version []).scope unicode).target reference inside insideVersion =
      .ok target) : target.sourceVersionId = insideVersion := by
  have located : (OpenApiReferenceResolver.mk document version []).referenceTarget unicode reference inside insideVersion =
      .ok target := located
  unfold OpenApiReferenceResolver.referenceTarget at located
  obtain ⟨⟨documentRef, fragment⟩, -, located⟩ := bind_eq_ok.mp located
  dsimp only at located
  split at located
  · cases located
    rfl
  · obtain ⟨external, isExternal, -⟩ := bind_eq_ok.mp located
    unfold OpenApiReferenceResolver.externalDocument at isExternal
    obtain ⟨parsed, -, isExternal⟩ := bind_eq_ok.mp isExternal
    have nothing : (documentCandidates documentRef parsed).findSome? (List.lookup · ([] : ExternalDocuments)) = none :=
      List.findSome?_eq_none_iff.mpr fun _ _ => rfl
    dsimp only at isExternal
    rw [nothing] at isExternal
    cases isExternal

theorem IsParsedApi.nodup_operationKeys {libraries : ParserLibraries} {scope : ReferenceScope} {fuel : Nat}
    {api : CanonicalApi} (isParsed : IsParsedApi libraries scope fuel api) : api.operationKeys.Nodup := by
  have checked := isParsed.checked
  simp only [CanonicalApi.check, Bool.and_eq_true, decide_eq_true_eq] at checked
  exact checked.1.1.2

end Mcplica.Parsers
