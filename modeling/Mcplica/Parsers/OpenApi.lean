import Mcplica.Parsers.OpenApiServers

/-! # The OpenAPI parser

`parse_openapi`: an OpenAPI document with its captured dependencies becomes a canonical API. -/

namespace Mcplica.Parsers

open Mcplica.Library
open Mcplica.Contracts
open Mcplica.Domain

/-- The results of a list with the rewrites of all of them. -/
def tracedList {α : Type} (results : List (Traced α)) : Traced (List α) :=
  (results.map Prod.fst, results.flatMap Prod.snd)

/-! ## The document -/

/-- What is known of a document that passed the checks before it is read. -/
structure OpenApiHeader where
  sourceFormat : SourceFormat
  sourceSchemaDialect : Text
  info : JsonObject
  title : Text
  paths : JsonObject

/-- `load_captured`; `none` where it raises. -/
def loadCaptured (unicode : Unicode) (captured : ExternalDocuments) (uri : Text) : Option JsonObject := do
  let (documentRef, _) ← urldefrag unicode uri
  let parsed ← urlsplit unicode documentRef
  let external ← (documentCandidates documentRef parsed).findSome? (List.lookup · captured)
  return external.document

def sourceFormatOf (document : JsonObject) : Except SourceError SourceFormat :=
  let unsupported := sourceParseError "Supported OpenAPI sources must declare version 3.0.x or 3.1.x"
  match Json.get document "openapi" with
  | some (.string version) =>
    if version.startsWith "3.0." then .ok .openapi30
    else if version.startsWith "3.1." then .ok .openapi31
    else unsupported
  | _ => unsupported

def infoOf (document : JsonObject) : Except SourceError (JsonObject × Text) :=
  let missing := sourceParseError "OpenAPI info.title is required"
  match Json.get document "info" with
  | some (.object info) =>
    match Json.get info "title" with
    | some (.string title) => .ok (info, title)
    | _ => missing
  | _ => missing

def pathsOf (document : JsonObject) : Except SourceError JsonObject :=
  match Json.get document "paths" with
  | some (.object (path :: paths)) => .ok (path :: paths)
  | _ => sourceParseError "OpenAPI paths must be a non-empty object"

def unsupportedDocumentDialect : SourceError :=
  .parse .sourceParse "OpenAPI document declares an unsupported JSON Schema dialect" none (some "#/jsonSchemaDialect")

/-- The checks of a 3.1 document that come before the validator of the specification. -/
def rejectDeclaredDialects (sourceFormat : SourceFormat) (document : JsonObject) : Except SourceError Unit :=
  if sourceFormat = .openapi31 then do
    match Json.get document "jsonSchemaDialect" with
      | some (.string dialect) => ensure (isSupportedDialect dialect) unsupportedDocumentDialect
      | _ => .ok ()
    rejectUnsupportedDocumentSchemaDialects document
  else
    .ok ()

def sourceSchemaDialectOf (unicode : Unicode) (sourceFormat : SourceFormat) (document : JsonObject) :
    Except SourceError Text :=
  if sourceFormat = .openapi30 then .ok openApi30SchemaDialect
  else do
    let declared := ((Json.get document "jsonSchemaDialect").filter Json.truthy).map (Json.str unicode)
    let dialect := declared.getD openApi31SchemaDialect
    ensure (isSupportedDialect dialect) unsupportedDocumentDialect
    return dialect

/-- `_validate_openapi_spec`; the location stands in the details of the error. -/
def validateOpenApiSpec (libraries : ParserLibraries) (sourceFormat : SourceFormat) (document : JsonObject)
    (load : Text → Option JsonObject) (sourceVersionId : Uuid) : Except SourceError Unit :=
  match libraries.validateSpecification sourceFormat document load with
  | .valid => .ok ()
  | .unresolved =>
    referenceResolutionError
      "OpenAPI contains an external reference that was not captured as an immutable source dependency"
  | .invalid jsonPath message =>
    let location := (jsonPath.filter (· ≠ [])).getD "$"
    .error (.parse .sourceParse (("OpenAPI specification validation failed at " : Text) ++ location ++ (": " : Text) ++
      message) (some sourceVersionId) (some location))

def readHeader (libraries : ParserLibraries) (load : Text → Option JsonObject) (sourceVersionId : Uuid)
    (document : JsonObject) : Except SourceError OpenApiHeader := do
  let sourceFormat ← sourceFormatOf document
  let (info, title) ← infoOf document
  let paths ← pathsOf document
  rejectDeclaredDialects sourceFormat document
  validateOpenApiSpec libraries sourceFormat document load sourceVersionId
  let sourceSchemaDialect ← sourceSchemaDialectOf libraries.unicode sourceFormat document
  return { sourceFormat, sourceSchemaDialect, info, title, paths }

/-! ## Media types -/

section Operations

variable (libraries : ParserLibraries) (scope : ReferenceScope) (fuel : Nat) (sourceFormat : SourceFormat)

/-- The value of every example that has one. -/
def exampleValues (media : JsonObject) : List Json :=
  match Json.get media "examples" with
  | some (.object examples) => examples.filterMap fun entry =>
    match entry.2 with
    | .object fields => Json.get fields "value"
    | _ => none
  | _ => (Json.get media "example").toList

def mediaTypeOf (context : OpenApiContext) (location : Text) (entry : Text × Json) :
    Except SourceError (Traced CanonicalMediaType) :=
  let place := location ++ '/' :: pointerToken entry.1
  match entry.2 with
  | .object media => do
    let (schema, trace) ← schemaOf libraries scope fuel sourceFormat ((Json.get media "schema").getD (.object [])) context
      (place ++ ("/schema" : Text))
    let sourceRef := ⟨Text.ofUuid context.sourceVersionId, place⟩
    return ({ mediaType := entry.1, schema, examples := exampleValues media, sourceRef }, trace)
  | _ => sourceParseError (("Media definition at " : Text) ++ place ++ (" must be an object" : Text))

/-- `_media_types` -/
def mediaTypes (content : Option Json) (context : OpenApiContext) (location : Text) :
    Except SourceError (Traced (List CanonicalMediaType)) :=
  match content with
  | none | some .null => .ok ([], [])
  | some (.object entries) => do
    let results ← entries.mapM (mediaTypeOf libraries scope fuel sourceFormat context location)
    return tracedList results
  | some _ => sourceParseError (("Media content at " : Text) ++ location ++ (" must be an object" : Text))

/-! ## Parameters -/

/-- A parameter where it is written, with the node it is written in. -/
structure ParameterInput where
  raw : Json
  outer : Resolved
  place : Text

def parameterInputsOf (outer : Resolved) (raw : List Json) : List ParameterInput :=
  raw.zipIdx.map fun (item, index) => ⟨item, outer, outer.pointer ++ ("/parameters/" : Text) ++ Text.ofNat index⟩

def parameterLocation (value : Option Json) : Option ParameterLocation :=
  match value with
  | some (.string text) => [.path, .query, .header, .cookie].find? fun location => location.value = text
  | _ => none

abbrev MergedParameters := List ((Text × ParameterLocation) × Resolved)

/-- A parameter of the operation takes the place of the inherited one of the same name and location. -/
def mergeParameter (merged : MergedParameters) (input : ParameterInput) : Except SourceError MergedParameters := do
  let resolved ← scope.resolveIn fuel input.outer input.raw input.place
  match Json.get resolved.value "name", parameterLocation (Json.get resolved.value "in") with
  | some (.string name), some location => return setEntry merged (name, location) resolved
  | _, _ => sourceParseError (("Invalid parameter at " : Text) ++ input.place)

/-- A parameter with content has no schema of its own. -/
def parameterSchema (parameter : Resolved) : Except SourceError (Traced JsonObject) :=
  match Json.get parameter.value "content", Json.get parameter.value "schema" with
  | some _, none => .ok ([Json.entry "x-mcplica-unsupported" (.text "parameter-content")], [])
  | _, schema => schemaOf libraries scope fuel sourceFormat (schema.getD (.object [])) parameter.context
    (parameter.pointer ++ ("/schema" : Text))

def flagOf (fields : JsonObject) (key : Text) : Bool :=
  ((Json.get fields key).map Json.truthy).getD false

/-- The model of a parameter refuses an empty name. -/
def canonicalParameter (entry : (Text × ParameterLocation) × Resolved) :
    Except SourceError (Traced CanonicalParameter) := do
  let ((name, location), parameter) := entry
  let required := flagOf parameter.value "required"
  ensure (location ≠ .path || required)
    (.parse .sourceParse (("Path parameter " : Text) ++ name.repr libraries.unicode ++ (" must be required" : Text)) none
      (some parameter.pointer))
  let (schema, trace) ← parameterSchema libraries scope fuel sourceFormat parameter
  ensure (name ≠ []) .value
  let canonical : CanonicalParameter := {
    name, location, required, schema
    description := optionalStr libraries.unicode parameter.value "description"
    style := ((Json.get parameter.value "style").filter Json.truthy).map (Json.str libraries.unicode)
    explode := ((Json.get parameter.value "explode").filter fun value => !(value matches .null)).map Json.truthy
    allowReserved := flagOf parameter.value "allowReserved"
    sourceRef := parameter.sourceRef }
  return (canonical, trace)

/-- The list under a key; what counts as false is an empty one. -/
def listField (fields : JsonObject) (key message : Text) : Except SourceError (List Json) :=
  match Json.get fields key with
  | none => .ok []
  | some (.array items) => .ok items
  | some value => if value.truthy then sourceParseError message else .ok []

def parametersOf (item operation : Resolved) (inherited : List Json) (operationPointer : Text) :
    Except SourceError (Traced (List CanonicalParameter)) := do
  let own ← listField operation.value "parameters"
    (("Operation parameters at " : Text) ++ operationPointer ++ (" must be an array" : Text))
  let merged ← (parameterInputsOf item inherited ++ parameterInputsOf operation own).foldlM (mergeParameter scope fuel) []
  let results ← merged.mapM (canonicalParameter libraries scope fuel sourceFormat)
  return tracedList results

/-! ## Bodies, responses and security -/

def requestBodyOf (operation : Resolved) : Except SourceError (Traced (Option CanonicalRequestBody)) :=
  match Json.get operation.value "requestBody" with
  | none => .ok (none, [])
  | some raw => do
    let body ← scope.resolveIn fuel operation raw (operation.pointer ++ ("/requestBody" : Text))
    let (content, trace) ← mediaTypes libraries scope fuel sourceFormat (Json.get body.value "content") body.context
      (body.pointer ++ ("/content" : Text))
    if content.isEmpty then
      sourceParseError (("Request body at " : Text) ++ body.pointer ++ (" must define content" : Text))
    else
      let canonical : CanonicalRequestBody := {
        required := flagOf body.value "required"
        description := optionalStr libraries.unicode body.value "description"
        content
        sourceRef := body.sourceRef }
      return (some canonical, trace)

def responseOf (operation : Resolved) (entry : Text × Json) : Except SourceError (Traced CanonicalResponse) := do
  let response ← scope.resolveIn fuel operation entry.2
    (operation.pointer ++ ("/responses/" : Text) ++ pointerToken entry.1)
  let (content, trace) ← mediaTypes libraries scope fuel sourceFormat (Json.get response.value "content") response.context
    (response.pointer ++ ("/content" : Text))
  let description := optionalStr libraries.unicode response.value "description"
  return ({ statusCode := entry.1, description, content, sourceRef := response.sourceRef }, trace)

def responsesOf (operation : Resolved) (operationPointer : Text) :
    Except SourceError (Traced (List CanonicalResponse)) :=
  match Json.get operation.value "responses" with
  | some (.object (first :: rest)) => do
    let results ← (first :: rest).mapM (responseOf libraries scope fuel sourceFormat operation)
    return tracedList results
  | _ => sourceParseError (("Operation at " : Text) ++ operationPointer ++ (" requires responses" : Text))

def schemeScopesOf (entry : Text × Json) : Except SourceError (Text × List Text) :=
  match entry.2 with
  | .array scopes => .ok (entry.1, scopes.map (Json.str libraries.unicode))
  | _ => sourceParseError "Security requirement scopes must be an array"

def requirementOf (sourceVersionId : Uuid) (place operationPointer : Text) (raw : Json × Nat) :
    Except SourceError CanonicalSecurityRequirement :=
  match raw.1 with
  | .object fields => do
    let schemeScopes ← fields.mapM (schemeScopesOf libraries)
    return { schemeScopes, sourceRef := ⟨Text.ofUuid sourceVersionId, place ++ '/' :: Text.ofNat raw.2⟩ }
  | _ =>
    sourceParseError (("Security requirement at " : Text) ++ operationPointer ++ ("/security/" : Text) ++ Text.ofNat raw.2 ++
      (" must be an object" : Text))

/-- The requirements of the operation, else those of the document. -/
def securityOf (operation : Resolved) (operationPointer : Text) : Except SourceError (List CanonicalSecurityRequirement) := do
  let message := ("Security at " : Text) ++ operationPointer ++ (" must be an array" : Text)
  if (Json.get operation.value "security").isSome then
    let raw ← listField operation.value "security" message
    raw.zipIdx.mapM (requirementOf libraries operation.sourceVersionId (operation.pointer ++ ("/security" : Text))
      operationPointer)
  else
    let raw ← listField scope.rootDocument "security" message
    raw.zipIdx.mapM (requirementOf libraries scope.rootSourceVersionId "#/security" operationPointer)

def tagsOf (operation : Resolved) (operationPointer : Text) : Except SourceError (List Text) :=
  let message := ("Tags at " : Text) ++ operationPointer ++ (" must be text values" : Text)
  match Json.get operation.value "tags" with
  | none => .ok []
  | some (.array tags) => tags.mapM fun tag =>
    match tag with
    | .string text => .ok text
    | _ => sourceParseError message
  | some _ => sourceParseError message

/-! ## Operations -/

/-- A path with the node that its item resolves to. -/
structure PathContext where
  path : Text
  place : Text
  item : Resolved
  parameters : List Json
  serverKeys : List Text

/-- What is known of an operation when its server is chosen. -/
structure OperationHead where
  method : HttpMethod
  methodName : Text
  place : Text
  resolved : Resolved
  operationId : Option Text
  key : Text
  candidates : List Text
  /-- The candidates are the servers of the document. -/
  inheritsServers : Bool

/-- What is read of an operation after its server is chosen. -/
structure OperationBody where
  parameters : List CanonicalParameter
  requestBody : Option CanonicalRequestBody
  responses : List CanonicalResponse
  security : List CanonicalSecurityRequirement
  tags : List Text

structure OperationsState where
  servers : List CanonicalServer
  operationIds : List Text := []
  operations : List CanonicalOperation := []
  transformations : Transformations := []

/-- `HttpMethod(name.upper())` for a name of `HTTP_METHODS` -/
def httpMethodOf (name : Text) : Option HttpMethod :=
  [.get, .post, .put, .patch, .delete, .head, .options, .trace].find? fun method =>
    (HttpMethod.value method).map Char.toLower = name

def operationIdOf (operation : Resolved) : Option Text :=
  ((Json.get operation.value "operationId").filter Json.truthy).map fun value => Text.strip (value.str libraries.unicode)

/-- An operation id may stand in a document once. -/
def claimOperationId (known : List Text) (operationId : Option Text) : Except SourceError (List Text) :=
  match operationId.filter (· ≠ []) with
  | none => .ok known
  | some operationId =>
    if known.contains operationId then
      sourceParseError (("Duplicate OpenAPI operationId: " : Text) ++ operationId)
    else
      .ok (known ++ [operationId])

def firstNonEmpty (first second : List Text) : List Text :=
  if first = [] then second else first

def operationHead (baseUrl : Option Text) (globalServerKeys : List Text) (path : PathContext) (method : HttpMethod)
    (methodName : Text) (raw : Json) (state : OperationsState) :
    Except SourceError (OperationHead × List CanonicalServer × List Text) := do
  let resolved ← scope.resolveIn fuel path.item raw (path.item.pointer ++ '/' :: methodName)
  let operationId := operationIdOf libraries resolved
  let operationIds ← claimOperationId state.operationIds operationId
  let (serverKeys, servers) ← registerServers libraries baseUrl (Json.get resolved.value "servers")
    (resolved.pointer ++ ("/servers" : Text)) resolved.sourceVersionId state.servers
  let head : OperationHead := {
    method, methodName, resolved, operationId
    place := path.place ++ '/' :: methodName
    key := operationKey libraries.sha256 libraries.unicode methodName path.path operationId
    candidates := firstNonEmpty serverKeys (firstNonEmpty path.serverKeys globalServerKeys)
    inheritsServers := serverKeys.isEmpty && path.serverKeys.isEmpty }
  return (head, servers, operationIds)

/-- The server of an operation: its mapping, else the active server of the project where the servers of the document
are inherited, else the only candidate. -/
def selectServer (routing : ProjectRoutingConfiguration) (head : OperationHead) : Except SourceError (Option Text) :=
  let configured := (routing.serverMappings.lookup head.key).or
    (if head.inheritsServers then routing.activeServerRef else none)
  let selected := configured.or (match head.candidates with
    | [only] => some only
    | _ => none)
  if selected.all head.candidates.contains then .ok selected
  else sourceParseError "Configured server selection is not applicable to the OpenAPI operation"

def operationBody (path : PathContext) (head : OperationHead) : Except SourceError (Traced OperationBody) := do
  let (parameters, first) ← parametersOf libraries scope fuel sourceFormat path.item head.resolved path.parameters head.place
  let (requestBody, second) ← requestBodyOf libraries scope fuel sourceFormat head.resolved
  let (responses, third) ← responsesOf libraries scope fuel sourceFormat head.resolved head.place
  let security ← securityOf libraries scope head.resolved head.place
  let tags ← tagsOf head.resolved head.place
  return ({ parameters, requestBody, responses, security, tags }, first ++ second ++ third)

/-- Where the server of an operation is written. -/
def serverProvenance (servers : List CanonicalServer) (selected : Option Text) : List (Text × SourceRef) :=
  match selected with
  | some ref => ((servers.find? fun server => server.key = ref).map fun server =>
    (("server_ref" : Text), server.sourceRef)).toList
  | none => []

def canonicalOperation (path : PathContext) (servers : List CanonicalServer) (head : OperationHead)
    (selected : Option Text) (body : OperationBody) : CanonicalOperation where
  key := head.key
  sourceOperationId := head.operationId
  toolNameSeed := toolNameSeed head.methodName path.path head.operationId
  method := head.method
  pathTemplate := path.path
  serverRef := selected
  serverCandidates := head.candidates
  summary := optionalStr libraries.unicode head.resolved.value "summary"
  description := optionalStr libraries.unicode head.resolved.value "description"
  parameters := body.parameters
  requestBody := body.requestBody
  responses := body.responses
  security := body.security
  tags := body.tags
  provenance := {
    operation := head.resolved.sourceRef
    executableFields := [
      (("method" : Text), ⟨Text.ofUuid path.item.sourceVersionId, path.item.pointer ++ '/' :: head.methodName⟩),
      (("path_template" : Text), ⟨Text.ofUuid scope.rootSourceVersionId, path.place⟩)] ++ serverProvenance servers selected }

variable (routing : ProjectRoutingConfiguration) (globalServerKeys : List Text)

/-- The body of the loop over a path item. -/
def parseMethod (path : PathContext) (state : OperationsState) (entry : Text × Json) : Except SourceError OperationsState :=
  let methodName := entry.1.casefold libraries.unicode
  match httpMethodOf methodName with
  | none => .ok state
  | some method => do
    let (head, servers, operationIds) ← operationHead libraries scope fuel routing.defaultBaseUrl globalServerKeys path method
      methodName entry.2 state
    let selected ← selectServer routing head
    let (body, trace) ← operationBody libraries scope fuel sourceFormat path head
    let operation := canonicalOperation libraries scope path servers head selected body
    ensure operation.check .value
    let operations := state.operations ++ [operation]
    return { servers, operationIds, operations, transformations := state.transformations ++ trace }

/-- The body of the loop over the paths. -/
def parsePath (state : OperationsState) (entry : Text × Json) : Except SourceError OperationsState := do
  let place := ("#/paths/" : Text) ++ pointerToken entry.1
  let item ← scope.resolveRoot fuel entry.2 place
  let parameters ← listField item.value "parameters"
    (("Path parameters at " : Text) ++ place ++ (" must be an array" : Text))
  let (serverKeys, servers) ← registerServers libraries routing.defaultBaseUrl (Json.get item.value "servers")
    (item.pointer ++ ("/servers" : Text)) item.sourceVersionId state.servers
  let path : PathContext := { path := entry.1, place, item, parameters, serverKeys }
  item.value.foldlM (parseMethod libraries scope fuel sourceFormat routing globalServerKeys path) { state with servers }

/-- The component schemas, each under its key. -/
def componentSchemas (components : JsonObject) : Except SourceError (Traced (List (Text × CanonicalSchema))) := do
  let raw ← componentsField components "schemas" "OpenAPI component schemas must be an object"
  let results ← raw.mapM fun (name, value) => do
    let place := ("#/components/schemas/" : Text) ++ pointerToken name
    let (schema, trace) ← schemaOf libraries scope fuel sourceFormat value ⟨scope.rootDocument, scope.rootSourceVersionId⟩ place
    let key := schemaKey libraries.sha256 name
    let sourceRef := ⟨Text.ofUuid scope.rootSourceVersionId, place⟩
    return (({ key, schema, sourceRef } : CanonicalSchema), trace)
  let (schemas, trace) := tracedList results
  return (schemas.foldl (fun entries schema => setEntry entries schema.key schema) [], trace)

end Operations

/-! ## The whole -/

def SchemaTransformation.value : SchemaTransformation → Text
  | .nullable => "nullable"
  | .exclusiveMinimum => "exclusiveMinimum"
  | .exclusiveMaximum => "exclusiveMaximum"
  | .example => "example"

/-- `sorted(schema_transformations)`: by pointer, then by transformation. -/
def sortedTransformations (transformations : Transformations) : Transformations :=
  Text.sortedBy Prod.fst (Text.sortedBy (fun entry => SchemaTransformation.value entry.2) transformations.dedup)

structure ParseRequest where
  projectId : Uuid
  sourceVersionId : Uuid
  contentSha256 : Text
  routing : ProjectRoutingConfiguration := {}

/-- The checks of the parsed operations against the whole of the document. -/
def checkOperations (routing : ProjectRoutingConfiguration) (schemes : List (Text × CanonicalSecurityScheme))
    (state : OperationsState) : Except SourceError Unit := do
  ensure (!state.operations.isEmpty) (.parse .sourceParse "OpenAPI source contains no executable operations" none none)
  ensure (!state.servers.isEmpty)
    (.parse .sourceParse "OpenAPI source has no server URL and the Project has no default base URL" none none)
  ensure (routing.serverMappings.all fun entry => state.operations.any fun operation => operation.key = entry.1)
    (.parse .sourceParse "Configured server mappings reference unknown OpenAPI operations" none none)
  ensure (state.operations.all fun operation => operation.security.all fun requirement =>
      requirement.schemeScopes.all fun scheme => (schemes.lookup scheme.1).isSome)
    (.parse .sourceParse "Operation security requirements reference undefined security schemes" none none)

/-- The active server of the project, else the only server. -/
def activeServerRefOf (routing : ProjectRoutingConfiguration) (servers : List CanonicalServer) : Option Text :=
  routing.activeServerRef.or (match servers with
    | [only] => some only.key
    | _ => none)

/-- `parse_openapi` after the references of the document are given a meaning. -/
def parseScope (libraries : ParserLibraries) (scope : ReferenceScope) (load : Text → Option JsonObject) (fuel : Nat)
    (request : ParseRequest) : Except SourceError CanonicalApi := do
  let document := scope.rootDocument
  let header ← readHeader libraries load scope.rootSourceVersionId document
  let (globalServerKeys, servers) ← globalServers libraries document scope.rootSourceVersionId request.routing.defaultBaseUrl
  let components ← componentsField document "components" "OpenAPI components must be an object"
  let schemes ← securitySchemes libraries scope fuel components
    (oauthRelativeBase request.routing.defaultBaseUrl globalServerKeys servers)
  let (schemas, trace) ← componentSchemas libraries scope fuel header.sourceFormat components
  let state ← header.paths.foldlM
    (parsePath libraries scope fuel header.sourceFormat request.routing globalServerKeys) { servers }
  checkOperations request.routing schemes state
  let api : CanonicalApi := {
    projectId := Text.ofUuid request.projectId
    sourceFormat := header.sourceFormat
    title := header.title
    version := optionalStr libraries.unicode header.info "version"
    description := optionalStr libraries.unicode header.info "description"
    servers := state.servers
    activeServerRef := activeServerRefOf request.routing state.servers
    securitySchemes := schemes
    schemas
    operations := state.operations
    sourceVersionIds := [Text.ofUuid scope.rootSourceVersionId]
    sourceFingerprint := request.contentSha256
    schemaDialect := some {
      source := header.sourceSchemaDialect
      transformations := sortedTransformations (trace ++ state.transformations) } }
  ensure api.check .value
  return api

/-- `parse_openapi` -/
def parseOpenApi (libraries : ParserLibraries) (fuel : Nat) (request : ParseRequest) (external : ExternalDocuments)
    (document : JsonObject) : Except SourceError CanonicalApi :=
  let resolver : OpenApiReferenceResolver := ⟨document, request.sourceVersionId, external⟩
  parseScope libraries (resolver.scope libraries.unicode) (loadCaptured libraries.unicode external) fuel request

/-! ### A small document -/

/-- Libraries that accept every document and schema, and a digest that is the text itself. -/
def plainParserLibraries : ParserLibraries :=
  { plainPlatform with
    sha256 := id
    schemaError := fun _ => []
    validateSpecification := fun _ _ _ => .valid }

/-- A document of one operation that has no schemas. -/
def itemsDocument : JsonObject := [
  Json.entry "openapi" (.text "3.1.0"),
  Json.entry "info" (.object [Json.entry "title" (.text "Items")]),
  Json.entry "servers" (.array [.object [Json.entry "url" (.text "https://api.example.com")]]),
  Json.entry "paths" (.object [
    Json.entry "/items" (.object [
      Json.entry "get" (.object [
        Json.entry "operationId" (.text "listItems"),
        Json.entry "responses" (.object [Json.entry "200" (.object [Json.entry "description" (.text "OK")])])])])])]

def plainSha256 : Text :=
  List.replicate 64 'a'

example : (parseOpenApi plainParserLibraries 4 ⟨1, 2, plainSha256, {}⟩ [] itemsDocument).toOption.map
    (fun api => api.operations.map fun operation => (operation.key, operation.serverRef)) =
      some [(("op_listItems" : Text), some ("server_https://api.exam" : Text))] := by
  decide +kernel

/-! ## What the result depends on -/

/-- The configurations are read alike; the order of the mappings does not matter. -/
structure SameRouting (left right : ProjectRoutingConfiguration) : Prop where
  defaultBaseUrl : left.defaultBaseUrl = right.defaultBaseUrl
  activeServerRef : left.activeServerRef = right.activeServerRef
  serverMappings : ∀ key, left.serverMappings.lookup key = right.serverMappings.lookup key

section Dependence

variable {left right : ProjectRoutingConfiguration}

/-- The same keys are mapped. -/
theorem SameRouting.all_keys (same : SameRouting left right) (holds : Text → Bool) :
    (left.serverMappings.all fun entry => holds entry.1) = right.serverMappings.all fun entry => holds entry.1 := by
  have mapped : ∀ key, key ∈ left.serverMappings.map Prod.fst ↔ key ∈ right.serverMappings.map Prod.fst := by
    intro key
    rw [← lookup_isSome, ← lookup_isSome, same.serverMappings key]
  rw [Bool.eq_iff_iff, List.all_eq_true, List.all_eq_true]
  constructor
  · intro all entry member
    obtain ⟨other, isOther, sameKey⟩ := List.mem_map.mp ((mapped entry.1).mpr (List.mem_map_of_mem member))
    exact sameKey ▸ all other isOther
  · intro all entry member
    obtain ⟨other, isOther, sameKey⟩ := List.mem_map.mp ((mapped entry.1).mp (List.mem_map_of_mem member))
    exact sameKey ▸ all other isOther

theorem selectServer_congr (same : SameRouting left right) : selectServer left = selectServer right := by
  funext head
  unfold selectServer
  rw [same.activeServerRef, same.serverMappings head.key]

theorem parseMethod_congr (same : SameRouting left right) :
    (fun libraries scope fuel sourceFormat => parseMethod libraries scope fuel sourceFormat left) =
      fun libraries scope fuel sourceFormat => parseMethod libraries scope fuel sourceFormat right := by
  funext libraries scope fuel sourceFormat globalServerKeys path state entry
  unfold parseMethod
  rw [same.defaultBaseUrl, selectServer_congr same]

theorem parsePath_congr (same : SameRouting left right) (libraries : ParserLibraries) (scope : ReferenceScope) (fuel : Nat)
    (sourceFormat : SourceFormat) (globalServerKeys : List Text) :
    parsePath libraries scope fuel sourceFormat left globalServerKeys =
      parsePath libraries scope fuel sourceFormat right globalServerKeys := by
  funext state entry
  have methods := congrFun (congrFun (congrFun (congrFun (parseMethod_congr same) libraries) scope) fuel) sourceFormat
  unfold parsePath
  rw [same.defaultBaseUrl, methods]

theorem checkOperations_congr (same : SameRouting left right) : checkOperations left = checkOperations right := by
  funext schemes state
  unfold checkOperations
  rw [same.all_keys fun key => state.operations.any fun operation => operation.key = key]

theorem activeServerRefOf_congr (same : SameRouting left right) : activeServerRefOf left = activeServerRefOf right := by
  funext servers
  unfold activeServerRefOf
  rw [same.activeServerRef]

theorem parseScope_congr (same : SameRouting left right) (libraries : ParserLibraries) (scope : ReferenceScope)
    (load : Text → Option JsonObject) (fuel : Nat) (request : ParseRequest) :
    parseScope libraries scope load fuel { request with routing := left } =
      parseScope libraries scope load fuel { request with routing := right } := by
  simp only [parseScope, same.defaultBaseUrl, parsePath_congr same, checkOperations_congr same,
    activeServerRefOf_congr same]

/-- The dependencies are only looked up. -/
theorem parseOpenApi_congr {external others : ExternalDocuments} (same : SameRouting left right)
    (lookups : ∀ key, external.lookup key = others.lookup key) (libraries : ParserLibraries) (fuel : Nat)
    (request : ParseRequest) (document : JsonObject) :
    parseOpenApi libraries fuel { request with routing := left } external document =
      parseOpenApi libraries fuel { request with routing := right } others document := by
  have sameTable : (fun key => List.lookup key external) = fun key => List.lookup key others := funext lookups
  have sameScope : (OpenApiReferenceResolver.mk document request.sourceVersionId external).scope libraries.unicode =
      (OpenApiReferenceResolver.mk document request.sourceVersionId others).scope libraries.unicode := by
    unfold OpenApiReferenceResolver.scope
    congr 1
    funext reference inDocument version
    unfold OpenApiReferenceResolver.referenceTarget OpenApiReferenceResolver.externalDocument
    simp only [sameTable]
  have sameLoader : loadCaptured libraries.unicode external = loadCaptured libraries.unicode others := by
    funext uri
    unfold loadCaptured
    simp only [sameTable]
  show parseScope libraries ((OpenApiReferenceResolver.mk document request.sourceVersionId external).scope libraries.unicode)
      (loadCaptured libraries.unicode external) fuel { request with routing := left } = _
  rw [sameScope, sameLoader]
  exact parseScope_congr same libraries _ _ fuel request

end Dependence

end Mcplica.Parsers
