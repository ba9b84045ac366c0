import Mcplica.Contracts.Inventory
import Mcplica.Parsers.Inventory
import Mcplica.Parsers.OpenApi

/-! # The API Inventory parser

`parse_api_inventory`: an inventory that its models accept becomes a canonical API. -/

namespace Mcplica.Parsers

open Mcplica.Library
open Mcplica.Contracts
open Mcplica.Domain

/-- The place of the first error and its message, as pydantic reports them. -/
structure InventoryError where
  location : Text
  message : Text

/-- `ApiInventory.model_validate`, which checks the declared types and bounds of the fields. What is proved of the parser
holds for whatever inventory is read. -/
abbrev InventoryReader := JsonObject → Except InventoryError ApiInventory

section Inventory

variable (libraries : ParserLibraries) (fuel : Nat) (sourceVersionId : Uuid)

/-- `_ref` -/
def inventoryRef (place : Text) : SourceRef :=
  ⟨Text.ofUuid sourceVersionId, place⟩

/-! ## Servers -/

/-- The model of a server normalizes a URL that was accepted before. -/
def inventoryServer (entry : InventoryServer × Nat) : Except SourceError CanonicalServer := do
  let url ← orValueError (libraries.urls.normalize entry.1.url)
  return {
    key := entry.1.id, url
    description := entry.1.description
    sourceRef := inventoryRef sourceVersionId (("#/servers/" : Text) ++ Text.ofNat entry.2) }

def projectDefaultServer (url : Text) : Except SourceError CanonicalServer :=
  match (libraries.urls.parse url).bind libraries.urls.normalize with
  | some url => .ok {
      key := "project_default", url
      description := some "Project default base URL"
      sourceRef := inventoryRef sourceVersionId "#/x-mcplica-project-default-base-url" }
  | none => sourceParseError "Project default base URL is invalid"

def inventoryServers (inventory : ApiInventory) (baseUrl : Option Text) : Except SourceError (List CanonicalServer) := do
  let servers ← inventory.servers.zipIdx.mapM (inventoryServer libraries sourceVersionId)
  match servers, baseUrl.filter (· ≠ []) with
  | [], some url =>
    let server ← projectDefaultServer libraries sourceVersionId url
    return [server]
  | [], none => sourceParseError "API Inventory has no server and the Project has no default base URL"
  | servers, _ => return servers

/-! ## Schemas -/

/-- `_materialize_schema` and `_validate_schema` -/
def inventorySchema (inventory : ApiInventory) (schema : JsonObject) (place : Text) : Except SourceError JsonObject := do
  let materialized ← materializeInventorySchema libraries.unicode (stableDigest libraries.sha256 20) inventory.schemas
    sourceVersionId place fuel schema
  ensure (libraries.checkSchema materialized)
    (.parse .sourceParse (("Invalid JSON Schema at " : Text) ++ place ++ (": " : Text) ++ libraries.schemaError materialized)
      none (some place))
  return materialized

def inventorySchemas (inventory : ApiInventory) : Except SourceError (List (Text × CanonicalSchema)) := do
  let schemas ← inventory.schemas.mapM fun (name, raw) => do
    let place := ("#/schemas/" : Text) ++ pointerToken name
    let schema ← inventorySchema libraries fuel sourceVersionId inventory raw place
    let sourceRef := inventoryRef sourceVersionId place
    return ({ key := schemaKey libraries.sha256 name, schema, sourceRef } : CanonicalSchema)
  return schemas.foldl (fun entries schema => setEntry entries schema.key schema) []

/-! ## Operations -/

variable (inventory : ApiInventory)

def inventoryScheme (entry : Text × InventorySecurityScheme) : Text × CanonicalSecurityScheme :=
  (entry.1, {
    type := entry.2.type
    scheme := entry.2.scheme
    location := entry.2.location
    name := entry.2.name
    tokenUrl := entry.2.tokenUrl
    scopes := entry.2.scopes
    sourceRef := inventoryRef sourceVersionId (("#/security_schemes/" : Text) ++ pointerToken entry.1) })

def inventoryParameter (place : Text) (entry : InventoryParameter × Nat) : Except SourceError CanonicalParameter := do
  let (parameter, index) := entry
  let place := place ++ ("/parameters/" : Text) ++ Text.ofNat index
  let schema ← inventorySchema libraries fuel sourceVersionId inventory parameter.schema (place ++ ("/schema" : Text))
  return {
    name := parameter.name
    location := parameter.location
    required := parameter.required
    schema
    description := parameter.description
    style := parameter.style
    explode := parameter.explode
    allowReserved := parameter.allowReserved
    sourceRef := inventoryRef sourceVersionId place }

def inventoryRequestBody (place : Text) (body : InventoryRequestBody) : Except SourceError CanonicalRequestBody := do
  let place := place ++ ("/request_body" : Text)
  let sourceRef := inventoryRef sourceVersionId place
  let schema ← inventorySchema libraries fuel sourceVersionId inventory body.schema (place ++ ("/schema" : Text))
  return {
    required := body.required
    description := body.description
    content := [{ mediaType := body.contentType, schema, sourceRef }]
    sourceRef }

def inventoryResponse (place : Text) (entry : Text × InventoryResponse) : Except SourceError CanonicalResponse := do
  let place := place ++ ("/responses/" : Text) ++ pointerToken entry.1
  let sourceRef := inventoryRef sourceVersionId place
  let content ← entry.2.content.toList.mapM fun (mediaType, raw) => do
    let schema ← inventorySchema libraries fuel sourceVersionId inventory raw (place ++ ("/schema" : Text))
    return ({ mediaType, schema, sourceRef } : CanonicalMediaType)
  return { statusCode := entry.1, description := entry.2.description, content, sourceRef }

def inventoryRequirement (place : Text) (entry : List (Text × List Text) × Nat) : CanonicalSecurityRequirement where
  schemeScopes := entry.1
  sourceRef := inventoryRef sourceVersionId (place ++ ("/security/" : Text) ++ Text.ofNat entry.2)

def inventoryOperationBody (place : Text) (operation : InventoryOperation) : Except SourceError OperationBody := do
  let parameters ← operation.parameters.zipIdx.mapM (inventoryParameter libraries fuel sourceVersionId inventory place)
  let requestBody ← match operation.requestBody with
    | some body => (inventoryRequestBody libraries fuel sourceVersionId inventory place body).map some
    | none => .ok none
  let responses ← (Text.sortedBy Prod.fst operation.responses).mapM
    (inventoryResponse libraries fuel sourceVersionId inventory place)
  let security := operation.security.zipIdx.map (inventoryRequirement sourceVersionId place)
  return { parameters, requestBody, responses, security, tags := operation.tags }

def inventoryOperationKey (operation : InventoryOperation) : Text :=
  operationKey libraries.sha256 libraries.unicode operation.method.value operation.path operation.operationId

def inventoryCandidates (serverKeys : List Text) (operation : InventoryOperation) : List Text :=
  match operation.ownServer with
  | some server => [server]
  | none => Text.sorted serverKeys

/-- The server of an operation: its own, else its mapping, else the active server of the project, else the only
candidate. -/
def selectInventoryServer (routing : ProjectRoutingConfiguration) (candidates : List Text) (key : Text)
    (operation : InventoryOperation) : Except SourceError (Option Text) :=
  let mapped := (routing.serverMappings.lookup key).filter (· ≠ [])
  let configured := (operation.ownServer.or mapped).or routing.activeServerRef
  let selected := configured.or (match candidates with
    | [only] => some only
    | _ => none)
  if selected.all candidates.contains then .ok selected
  else sourceParseError "Configured server selection is not applicable to the API Inventory operation"

def inventoryOperation (routing : ProjectRoutingConfiguration) (serverKeys : List Text) (entry : InventoryOperation × Nat) :
    Except SourceError CanonicalOperation := do
  let (operation, index) := entry
  let place := ("#/operations/" : Text) ++ Text.ofNat index
  let body ← inventoryOperationBody libraries fuel sourceVersionId inventory place operation
  let key := inventoryOperationKey libraries operation
  let candidates := inventoryCandidates serverKeys operation
  let selected ← selectInventoryServer routing candidates key operation
  let provenance := selected.toList.map fun _ =>
    (("server_ref" : Text), inventoryRef sourceVersionId (place ++ ("/server_id" : Text)))
  let canonical : CanonicalOperation := {
    key
    sourceOperationId := operation.operationId
    toolNameSeed := toolNameSeed operation.method.value operation.path operation.operationId
    method := operation.method
    pathTemplate := operation.path
    serverRef := selected
    serverCandidates := candidates
    summary := operation.summary
    description := operation.description
    parameters := body.parameters
    requestBody := body.requestBody
    responses := body.responses
    security := body.security
    tags := body.tags
    provenance := {
      operation := inventoryRef sourceVersionId place
      executableFields := [
        (("method" : Text), inventoryRef sourceVersionId (place ++ ("/method" : Text))),
        (("path_template" : Text), inventoryRef sourceVersionId (place ++ ("/path" : Text)))] ++ provenance } }
  ensure canonical.check .value
  return canonical

end Inventory

/-! ## The whole -/

def checkInventoryOperations (routing : ProjectRoutingConfiguration) (schemes : List (Text × CanonicalSecurityScheme))
    (operations : List CanonicalOperation) : Except SourceError Unit := do
  ensure (routing.serverMappings.all fun entry => operations.any fun operation => operation.key = entry.1)
    (.parse .sourceParse "Configured server mappings reference unknown API Inventory operations" none none)
  ensure (operations.all fun operation => operation.security.all fun requirement =>
      requirement.schemeScopes.all fun scheme => (schemes.lookup scheme.1).isSome)
    (.parse .sourceParse "Operation security requirements reference undefined security schemes" none none)

/-- `active_server_ref or …`: the empty text counts as no reference. -/
def inventoryActiveServerRef (routing : ProjectRoutingConfiguration) (servers : List CanonicalServer) : Option Text :=
  (routing.activeServerRef.filter (· ≠ [])).or (match servers with
    | [only] => some only.key
    | _ => none)

/-- `parse_api_inventory` of an inventory that its models accept -/
def parseInventory (libraries : ParserLibraries) (fuel : Nat) (request : ParseRequest) (inventory : ApiInventory) :
    Except SourceError CanonicalApi := do
  let servers ← inventoryServers libraries request.sourceVersionId inventory request.routing.defaultBaseUrl
  let serverKeys := servers.map CanonicalServer.key
  ensure (request.routing.activeServerRef.all serverKeys.contains)
    (.parse .sourceParse "Configured active server does not exist in API Inventory" none none)
  let schemas ← inventorySchemas libraries fuel request.sourceVersionId inventory
  let operations ← inventory.operations.zipIdx.mapM
    (inventoryOperation libraries fuel request.sourceVersionId inventory request.routing serverKeys)
  let schemes := inventory.securitySchemes.map (inventoryScheme request.sourceVersionId)
  checkInventoryOperations request.routing schemes operations
  let api : CanonicalApi := {
    projectId := Text.ofUuid request.projectId
    sourceFormat := .apiInventory
    title := inventory.name
    version := inventory.version
    description := inventory.description
    servers
    activeServerRef := inventoryActiveServerRef request.routing servers
    securitySchemes := schemes
    schemas
    operations
    sourceVersionIds := [Text.ofUuid request.sourceVersionId]
    sourceFingerprint := request.contentSha256 }
  ensure api.check .value
  return api

/-- `parse_api_inventory` -/
def parseApiInventory (libraries : ParserLibraries) (readInventory : InventoryReader) (fuel : Nat) (request : ParseRequest)
    (document : JsonObject) : Except SourceError CanonicalApi :=
  match readInventory document with
  | .ok inventory => parseInventory libraries fuel request inventory
  | .error error =>
    .error (.parse .sourceParse (("Invalid API Inventory at " : Text) ++
      (if error.location = [] then ("root" : Text) else error.location) ++ (": " : Text) ++ error.message) none (some error.location))

/-! ## What the result depends on -/

section Dependence

variable {left right : ProjectRoutingConfiguration}

theorem selectInventoryServer_congr (same : SameRouting left right) :
    selectInventoryServer left = selectInventoryServer right := by
  funext candidates key operation
  unfold selectInventoryServer
  rw [same.activeServerRef, same.serverMappings key]

theorem inventoryOperation_congr (same : SameRouting left right) (libraries : ParserLibraries) (fuel : Nat)
    (sourceVersionId : Uuid) (inventory : ApiInventory) (serverKeys : List Text) :
    inventoryOperation libraries fuel sourceVersionId inventory left serverKeys =
      inventoryOperation libraries fuel sourceVersionId inventory right serverKeys := by
  funext entry
  unfold inventoryOperation
  rw [selectInventoryServer_congr same]

theorem parseInventory_congr (same : SameRouting left right) (libraries : ParserLibraries) (fuel : Nat)
    (request : ParseRequest) (inventory : ApiInventory) :
    parseInventory libraries fuel { request with routing := left } inventory =
      parseInventory libraries fuel { request with routing := right } inventory := by
  have checks : checkInventoryOperations left = checkInventoryOperations right := by
    funext schemes operations
    unfold checkInventoryOperations
    rw [same.all_keys fun key => operations.any fun operation => operation.key = key]
  have active : inventoryActiveServerRef left = inventoryActiveServerRef right := by
    funext servers
    unfold inventoryActiveServerRef
    rw [same.activeServerRef]
  simp only [parseInventory, same.defaultBaseUrl, same.activeServerRef, inventoryOperation_congr same, checks, active]

theorem parseApiInventory_congr (same : SameRouting left right) (libraries : ParserLibraries)
    (readInventory : InventoryReader) (fuel : Nat) (request : ParseRequest) (document : JsonObject) :
    parseApiInventory libraries readInventory fuel { request with routing := left } document =
      parseApiInventory libraries readInventory fuel { request with routing := right } document := by
  unfold parseApiInventory
  cases readInventory document with
  | ok inventory => exact parseInventory_congr same libraries fuel request inventory
  | error error => rfl

end Dependence

end Mcplica.Parsers
