import Mcplica.Contracts.Canonical
import Mcplica.Parsers.Identifiers
import Mcplica.Parsers.Materialization
import Mcplica.Parsers.References

/-! # OpenAPI schemas

References of an OpenAPI document and the schemas behind them: `resolve` and `materialize_schema` of the resolver, the
rewriting of OpenAPI 3.0 schemas to draft 2020-12, and the dialects that OpenAPI 3.1 schemas may declare. -/

namespace Mcplica.Parsers

open Mcplica.Library
open Mcplica.Contracts
open Mcplica.Domain

inductive SpecificationOutcome where
  | valid
  /-- `Unresolvable`, `Unretrievable` or `KeyError` -/
  | unresolved
  | invalid (jsonPath : Option Text) (message : Text)
  deriving Repr, DecidableEq

/-- The libraries that the parsers call. -/
structure ParserLibraries extends Platform where
  /-- `hashlib.sha256(text.encode()).hexdigest()` -/
  sha256 : Text → Text
  /-- The message of the `SchemaError` that `check_schema` raises. -/
  schemaError : JsonObject → Text
  /-- `OpenAPIV30SpecValidator` and `OpenAPIV31SpecValidator`; the function loads a document from its URI. -/
  validateSpecification : SourceFormat → JsonObject → (Text → Option JsonObject) → SpecificationOutcome

/-- `_json_object` -/
def jsonObject (location : Text) : Json → Except SourceError JsonObject
  | .object fields => .ok fields
  | _ => sourceParseError (("Expected a JSON object at " : Text) ++ location)

/-! ## References -/

/-- What the parser uses of its resolver: where a reference leads that stands in a document of a version. -/
structure ReferenceScope where
  rootDocument : JsonObject
  rootSourceVersionId : Uuid
  target : Text → JsonObject → Uuid → Except SourceError ReferenceTarget

def OpenApiReferenceResolver.scope (resolver : OpenApiReferenceResolver) (unicode : Unicode) : ReferenceScope where
  rootDocument := resolver.rootDocument
  rootSourceVersionId := resolver.rootSourceVersionId
  target := resolver.referenceTarget unicode

structure Resolved where
  value : JsonObject
  document : JsonObject
  sourceVersionId : Uuid
  pointer : Text

def Resolved.sourceRef (resolved : Resolved) : SourceRef :=
  ⟨Text.ofUuid resolved.sourceVersionId, resolved.pointer⟩

namespace ReferenceScope

variable (scope : ReferenceScope)

/-- `resolve`; an empty document counts as none, so the root takes its place. -/
def resolve : Nat → List (Uuid × Text) → Json → JsonObject → Uuid → Text → Except SourceError Resolved
  | fuel, seen, value, document, sourceVersionId, place =>
    let document := if document.isEmpty then scope.rootDocument else document
    attributed sourceVersionId place <|
      match value with
      | .object fields =>
        match Json.get fields "$ref" with
        | none => .ok ⟨fields, document, sourceVersionId, place⟩
        | some (.string (first :: rest)) => do
          let target ← scope.target (first :: rest) document sourceVersionId
          if seen.contains (target.sourceVersionId, target.pointer) then
            referenceResolutionError (("Circular non-schema $ref: " : Text) ++ first :: rest)
          else
            match fuel with
            | 0 => .error .unfinished
            | fuel + 1 =>
              let node ← attributed target.sourceVersionId target.pointer (pointer target.document target.pointer)
              resolve fuel ((target.sourceVersionId, target.pointer) :: seen) node target.document target.sourceVersionId
                target.pointer
        | some _ => referenceResolutionError (("Invalid $ref at " : Text) ++ place)
      | _ => referenceResolutionError (("Expected an object at " : Text) ++ place)

/-- A node of the root document. -/
def resolveRoot (fuel : Nat) (value : Json) (place : Text) : Except SourceError Resolved :=
  scope.resolve fuel [] value scope.rootDocument scope.rootSourceVersionId place

/-- A node of the document that another one was resolved in. -/
def resolveIn (fuel : Nat) (outer : Resolved) (value : Json) (place : Text) : Except SourceError Resolved :=
  scope.resolve fuel [] value outer.document outer.sourceVersionId place

end ReferenceScope

/-! ## Materialization -/

structure OpenApiContext where
  document : JsonObject
  sourceVersionId : Uuid

def Resolved.context (resolved : Resolved) : OpenApiContext :=
  ⟨resolved.document, resolved.sourceVersionId⟩

/-- The name of the definition that a reference is replaced with. -/
def openApiKey (sha256 : Text → Text) (place : ReferenceTarget) : Text :=
  ("mcplica_ref_" : Text) ++ (sha256 (Text.ofUuid place.sourceVersionId ++ ':' :: place.pointer)).take 20

def openApiParser (sha256 : Text → Text) (scope : ReferenceScope) (location : Text) :
    Materializer OpenApiContext ReferenceTarget (Uuid × Text) where
  descent := ⟨true, fun _ => .schema⟩
  invalid := .parse .referenceResolution (("Invalid schema $ref at " : Text) ++ location) none none
  locate context reference := scope.target reference context.document context.sourceVersionId
  schemaAt place := attributed place.sourceVersionId place.pointer do
    let node ← pointer place.document place.pointer
    jsonObject place.pointer node
  unreadable _ error := error
  context place := ⟨place.document, place.sourceVersionId⟩
  key := openApiKey sha256
  identity place := (place.sourceVersionId, place.pointer)
  attributing context := SourceError.attribute context.sourceVersionId location

/-- `{**fields, **others}` -/
def mergeFields (fields others : JsonObject) : JsonObject :=
  others.foldl (fun merged field => Json.set merged field.1 field.2) fields

/-- The generated definitions take the place of those of the same name. -/
def addDefinitions (location : Text) (materialized definitions : JsonObject) : Except SourceError JsonObject :=
  if definitions.isEmpty then .ok materialized
  else
    match Json.get materialized "$defs" with
    | none | some .null => .ok (Json.set materialized "$defs" (.object definitions))
    | some (.object existing) => .ok (Json.set materialized "$defs" (.object (mergeFields existing definitions)))
    | some _ => sourceParseError (("JSON Schema $defs at " : Text) ++ location ++ (" must be an object" : Text))

/-- `materialize_schema` -/
def materializeSchema (sha256 : Text → Text) (scope : ReferenceScope) (fuel : Nat) (value : Json) (context : OpenApiContext)
    (location : Text) : Except SourceError JsonObject :=
  attributed context.sourceVersionId location do
    let root ← jsonObject location value
    let (materialized, definitions) ← (openApiParser sha256 scope location).walk fuel [] context (.object root) []
    let materialized ← jsonObject location materialized
    addDefinitions location materialized definitions

/-! ## OpenAPI 3.0 schemas -/

abbrev Transformations := List (Text × SchemaTransformation)

/-- A value with the rewrites that made it. -/
abbrev Traced (α : Type) := α × Transformations

def schemaMapsOf30 : List Text :=
  ["properties", "patternProperties", "dependentSchemas", "$defs", "definitions"]

def schemaArraysOf30 : List Text :=
  ["allOf", "anyOf", "oneOf", "prefixItems"]

def singleSchemasOf30 : List Text :=
  ["items", "additionalProperties", "contains", "propertyNames", "not", "if", "then", "else", "unevaluatedItems",
    "unevaluatedProperties"]

def positionOf30 (key : Text) : Position :=
  if schemaMapsOf30.contains key then .schemaMap
  else if schemaArraysOf30.contains key then .schemas
  else if singleSchemasOf30.contains key then .schema
  else .data

/-- The values under the keywords, normalized one keyword after the other in the order of the source. -/
def normalizedFields (fields : List (Text × Except SourceError (Traced Json))) : Except SourceError (Traced JsonObject) := do
  let traces ← (schemaMapsOf30 ++ schemaArraysOf30 ++ singleSchemasOf30).mapM fun keyword =>
    match fields.lookup keyword with
    | some value => value.map Prod.snd
    | none => .ok []
  let values ← fields.mapM fun field => field.2.map fun value => (field.1, value.1)
  return (values, traces.flatten)

/-- A boolean `exclusiveMinimum` or `exclusiveMaximum` makes the bound beside it exclusive. -/
def exclusiveBound (location keyword inclusive : Text) (mark : SchemaTransformation) (schema : JsonObject) :
    Except SourceError (Traced JsonObject) :=
  match Json.get schema keyword with
  | some (.bool true) =>
    match Json.get schema inclusive with
    | some (.number value literal) =>
      .ok (Json.set (Json.pop (Json.pop schema keyword) inclusive) keyword (.number value literal), [(location, mark)])
    | _ =>
      .error (.parse .sourceParse (("OpenAPI 3.0 " : Text) ++ keyword ++ ("=true at " : Text) ++ location ++
        (" requires a numeric " : Text) ++ inclusive) none (some location))
  | some (.bool false) => .ok (Json.pop schema keyword, [(location, mark)])
  | _ => .ok (schema, [])

def exampleAsExamples (location : Text) (schema : JsonObject) : JsonObject × Transformations :=
  match Json.get schema "example" with
  | none => (schema, [])
  | some value =>
    let schema := Json.pop schema "example"
    (if (Json.get schema "examples").isSome then schema else Json.set schema "examples" (.array [value]),
      [(location, .example)])

def nullableRootKeywords : List Text :=
  ["$schema", "$id", "$anchor", "$dynamicAnchor", "$defs"]

/-- A nullable schema becomes a choice; the keywords of a resource stay at its root. -/
def nullableAsChoice (location : Text) (schema : JsonObject) : JsonObject × Transformations :=
  let nullable := (Json.get schema "nullable").filter fun value => !(value matches .null)
  let schema := Json.pop schema "nullable"
  let trace : Transformations := if nullable.isSome then [(location, .nullable)] else []
  match nullable with
  | some (.bool true) =>
    let root := nullableRootKeywords.filterMap fun key => (Json.get schema key).map (key, ·)
    let inner := nullableRootKeywords.foldl Json.pop schema
    (root ++ [Json.entry "anyOf" (.array [.object inner, .object [Json.entry "type" (.text "null")]])], trace)
  | _ => (schema, trace)

/-- What `normalize` does with a node after its subschemas. -/
def normalizeKeywords (location : Text) (fields : List (Text × Except SourceError (Traced Json))) :
    Except SourceError (Traced JsonObject) := do
  let (schema, inner) ← normalizedFields fields
  let (schema, minimum) ← exclusiveBound location "exclusiveMinimum" "minimum" .exclusiveMinimum schema
  let (schema, maximum) ← exclusiveBound location "exclusiveMaximum" "maximum" .exclusiveMaximum schema
  let (schema, examples) := exampleAsExamples location schema
  let (schema, nullable) := nullableAsChoice location schema
  return (schema, inner ++ minimum ++ maximum ++ examples ++ nullable)

mutual

/-- `nested_schema` -/
def normalizeNode : Json → Text → Except SourceError (Traced Json)
  | .object fields, location => do
    let (schema, trace) ← normalizeKeywords location (normalizeFields fields location)
    return (.object schema, trace)
  | node, _ => .ok (node, [])

def normalizeFields : JsonObject → Text → List (Text × Except SourceError (Traced Json))
  | [], _ => []
  | (key, value) :: rest, location =>
    (key,
      match positionOf30 key with
      | .schemaMap => normalizeMap value (location ++ '/' :: key)
      | .schemas => normalizeArray value (location ++ '/' :: key)
      | .schema => normalizeNode value (location ++ '/' :: key)
      | .data => .ok (value, [])) :: normalizeFields rest location

/-- `schema_map` -/
def normalizeMap : Json → Text → Except SourceError (Traced Json)
  | .object entries, location => do
    let (entries, trace) ← normalizeEntries entries location
    return (.object entries, trace)
  | value, _ => .ok (value, [])

def normalizeEntries : JsonObject → Text → Except SourceError (Traced JsonObject)
  | [], _ => .ok ([], [])
  | (name, item) :: rest, location => do
    let (item, first) ← normalizeNode item (location ++ '/' :: pointerToken name)
    let (rest, others) ← normalizeEntries rest location
    return ((name, item) :: rest, first ++ others)

/-- `schema_array` -/
def normalizeArray : Json → Text → Except SourceError (Traced Json)
  | .array items, location => do
    let (items, trace) ← normalizeItems items location 0
    return (.array items, trace)
  | value, _ => .ok (value, [])

def normalizeItems : List Json → Text → Nat → Except SourceError (Traced (List Json))
  | [], _, _ => .ok ([], [])
  | item :: rest, location, index => do
    let (item, first) ← normalizeNode item (location ++ '/' :: Text.ofNat index)
    let (rest, others) ← normalizeItems rest location (index + 1)
    return (item :: rest, first ++ others)

end

/-- `_normalize_openapi_30_schema` -/
def normalizeOpenApi30Schema (schema : JsonObject) (location : Text) : Except SourceError (Traced JsonObject) :=
  normalizeKeywords location (normalizeFields schema location)

/-! ## Dialects of OpenAPI 3.1 -/

def canonicalSchemaDialect : Text :=
  "https://json-schema.org/draft/2020-12/schema"

def openApi30SchemaDialect : Text :=
  "openapi-3.0-schema-object"

def openApi31SchemaDialect : Text :=
  "https://spec.openapis.org/oas/3.1/dialect/base"

def isSupportedDialect (dialect : Text) : Bool :=
  [openApi31SchemaDialect, canonicalSchemaDialect].contains (Text.stripEnd "#" dialect)

/-- A check that is made for every keyword of a node, and the order in which the keywords come. -/
def inOrder (keywords : List Text) (checks : List (Text × Except SourceError Unit)) : Except SourceError Unit :=
  keywords.forM fun keyword => (checks.lookup keyword).getD (.ok ())

def singleSchemasOf31 : List Text :=
  singleSchemasOf30 ++ [("contentSchema" : Text)]

def positionOf31 (key : Text) : Position :=
  if singleSchemasOf31.contains key then .schema else positionOf30 key

def rejectDialect (location : Text) (fields : JsonObject) : Except SourceError Unit :=
  match Json.get fields "$schema" with
  | some (.string dialect) =>
    ensure (isSupportedDialect dialect)
      (.parse .sourceParse (("Unsupported JSON Schema dialect at " : Text) ++ location) none (some location))
  | _ => .ok ()

mutual

/-- `_reject_unsupported_schema_resources` -/
def rejectUnsupportedSchemaResources : Json → Text → Except SourceError Unit
  | .object fields, location => do
    rejectDialect location fields
    inOrder (schemaMapsOf30 ++ schemaArraysOf30 ++ singleSchemasOf31) (rejectInFields fields location)
  | _, _ => .ok ()

def rejectInFields : JsonObject → Text → List (Text × Except SourceError Unit)
  | [], _ => []
  | (key, value) :: rest, location =>
    (key,
      match positionOf31 key with
      | .schemaMap => rejectInMap value (location ++ '/' :: pointerToken key)
      | .schemas => rejectInArray value (location ++ '/' :: pointerToken key)
      | .schema => rejectUnsupportedSchemaResources value (location ++ '/' :: pointerToken key)
      | .data => .ok ()) :: rejectInFields rest location

def rejectInMap : Json → Text → Except SourceError Unit
  | .object entries, location => rejectInEntries entries location
  | _, _ => .ok ()

def rejectInEntries : JsonObject → Text → Except SourceError Unit
  | [], _ => .ok ()
  | (name, item) :: rest, location => do
    rejectUnsupportedSchemaResources item (location ++ '/' :: pointerToken name)
    rejectInEntries rest location

def rejectInArray : Json → Text → Except SourceError Unit
  | .array items, location => rejectInItems items location 0
  | _, _ => .ok ()

def rejectInItems : List Json → Text → Nat → Except SourceError Unit
  | [], _, _ => .ok ()
  | item :: rest, location, index => do
    rejectUnsupportedSchemaResources item (location ++ '/' :: Text.ofNat index)
    rejectInItems rest location (index + 1)

end

/-! ### The schemas of a whole document -/

def rejectInContent (content : Option Json) (location : Text) : Except SourceError Unit :=
  match content with
  | some (.object entries) => entries.forM fun (mediaType, media) =>
    match media with
    | .object fields =>
      match Json.get fields "schema" with
      | some schema => rejectUnsupportedSchemaResources schema (location ++ '/' :: pointerToken mediaType ++ ("/schema" : Text))
      | none => .ok ()
    | _ => .ok ()
  | _ => .ok ()

/-- `parameter` and `header` -/
def rejectInParameter (parameter : Json) (location : Text) : Except SourceError Unit :=
  match parameter with
  | .object fields => do
    match Json.get fields "schema" with
      | some schema => rejectUnsupportedSchemaResources schema (location ++ ("/schema" : Text))
      | none => .ok ()
    rejectInContent (Json.get fields "content") (location ++ ("/content" : Text))
  | _ => .ok ()

def rejectInParameters (parameters : Option Json) (location : Text) : Except SourceError Unit :=
  match parameters with
  | some (.array items) => items.zipIdx.forM fun (item, index) =>
    rejectInParameter item (location ++ ("/parameters/" : Text) ++ Text.ofNat index)
  | _ => .ok ()

def rejectInRequestBody (body : Option Json) (location : Text) : Except SourceError Unit :=
  match body with
  | some (.object fields) => rejectInContent (Json.get fields "content") (location ++ ("/content" : Text))
  | _ => .ok ()

def rejectInResponse (response : Json) (location : Text) : Except SourceError Unit :=
  match response with
  | .object fields => do
    rejectInContent (Json.get fields "content") (location ++ ("/content" : Text))
    match Json.get fields "headers" with
    | some (.object headers) =>
      headers.forM fun (name, header) => rejectInParameter header (location ++ ("/headers/" : Text) ++ pointerToken name)
    | _ => .ok ()
  | _ => .ok ()

def rejectInResponses (responses : Option Json) (location : Text) : Except SourceError Unit :=
  match responses with
  | some (.object entries) => entries.forM fun (status, response) =>
    rejectInResponse response (location ++ ("/responses/" : Text) ++ pointerToken status)
  | _ => .ok ()

def dialectMethods : List Text :=
  ["get", "put", "post", "delete", "options", "head", "patch", "trace"]

mutual

def rejectInPathItem : Json → Text → Except SourceError Unit
  | .object fields, location => do
    rejectInParameters (Json.get fields "parameters") location
    inOrder dialectMethods (rejectInMethods fields location)
  | _, _ => .ok ()

def rejectInMethods : JsonObject → Text → List (Text × Except SourceError Unit)
  | [], _ => []
  | (method, operation) :: rest, location =>
    (method, rejectInOperation operation (location ++ '/' :: method)) :: rejectInMethods rest location

def rejectInOperation : Json → Text → Except SourceError Unit
  | .object fields, location => do
    rejectInParameters (Json.get fields "parameters") location
    rejectInRequestBody (Json.get fields "requestBody") (location ++ ("/requestBody" : Text))
    rejectInResponses (Json.get fields "responses") location
    inOrder ["callbacks"] (rejectInOperationFields fields location)
  | _, _ => .ok ()

/-- Only what stands under `callbacks` is run. -/
def rejectInOperationFields : JsonObject → Text → List (Text × Except SourceError Unit)
  | [], _ => []
  | (key, value) :: rest, location =>
    (key, rejectInCallbacks value (location ++ '/' :: key)) :: rejectInOperationFields rest location

def rejectInCallbacks : Json → Text → Except SourceError Unit
  | .object entries, location => rejectInCallbackEntries entries location
  | _, _ => .ok ()

def rejectInCallbackEntries : JsonObject → Text → Except SourceError Unit
  | [], _ => .ok ()
  | (name, callback) :: rest, location => do
    rejectInCallback callback (location ++ '/' :: pointerToken name)
    rejectInCallbackEntries rest location

def rejectInCallback : Json → Text → Except SourceError Unit
  | .object expressions, location => rejectInExpressions expressions location
  | _, _ => .ok ()

def rejectInExpressions : JsonObject → Text → Except SourceError Unit
  | [], _ => .ok ()
  | (expression, item) :: rest, location => do
    rejectInPathItem item (location ++ '/' :: pointerToken expression)
    rejectInExpressions rest location

end

/-- The entries of a collection, if it is one. -/
def rejectInCollection (collection : Option Json) (location : Text) (visitor : Json → Text → Except SourceError Unit) :
    Except SourceError Unit :=
  match collection with
  | some (.object entries) => entries.forM fun (name, item) => visitor item (location ++ '/' :: pointerToken name)
  | _ => .ok ()

/-- `_reject_unsupported_document_schema_dialects` -/
def rejectUnsupportedDocumentSchemaDialects (document : JsonObject) : Except SourceError Unit := do
  match Json.get document "components" with
    | some (.object components) => do
      rejectInCollection (Json.get components "schemas") "#/components/schemas" rejectUnsupportedSchemaResources
      rejectInCollection (Json.get components "parameters") "#/components/parameters" rejectInParameter
      rejectInCollection (Json.get components "headers") "#/components/headers" rejectInParameter
      rejectInCollection (Json.get components "requestBodies") "#/components/requestBodies" fun body location =>
        rejectInRequestBody (some body) location
      rejectInCollection (Json.get components "responses") "#/components/responses" rejectInResponse
      rejectInCollection (Json.get components "callbacks") "#/components/callbacks" rejectInCallback
      rejectInCollection (Json.get components "pathItems") "#/components/pathItems" rejectInPathItem
    | _ => .ok ()
  rejectInCollection (Json.get document "paths") "#/paths" rejectInPathItem
  rejectInCollection (Json.get document "webhooks") "#/webhooks" rejectInPathItem

/-! ## `_schema` -/

section Schema

variable (libraries : ParserLibraries) (scope : ReferenceScope) (fuel : Nat) (sourceFormat : SourceFormat)

def executableSchema (location : Text) (schema : JsonObject) : Except SourceError (Traced JsonObject) :=
  if sourceFormat = .openapi30 then do
    let (schema, trace) ← normalizeOpenApi30Schema schema location
    return (if (Json.get schema "$schema").isSome then schema else
      Json.set schema "$schema" (.string canonicalSchemaDialect), trace)
  else do
    rejectUnsupportedSchemaResources (.object schema) location
    return (schema, [])

/-- `_schema`; a missing value is the empty schema. -/
def schemaOf (value : Json) (context : OpenApiContext) (location : Text) : Except SourceError (Traced JsonObject) := do
  let value := if value matches .null then .object [] else value
  let schema ← materializeSchema libraries.sha256 scope fuel value context location
  let (schema, trace) ← executableSchema sourceFormat location schema
  ensure (libraries.checkSchema schema)
    (.parse .sourceParse (("Invalid JSON Schema at " : Text) ++ location ++ (": " : Text) ++ libraries.schemaError schema)
      (some context.sourceVersionId) (some location))
  return (schema, trace)

end Schema

end Mcplica.Parsers
