import Mcplica.Contracts.Validation

/-! # The canonical API

The models of `mcp_contracts.canonical` as far as the compiler and the build validator read them. -/

namespace Mcplica.Contracts

open Mcplica.Library

inductive ParameterLocation where
  | path
  | query
  | header
  | cookie
  deriving Repr, DecidableEq

def ParameterLocation.value : ParameterLocation → Text
  | path => "path"
  | query => "query"
  | header => "header"
  | cookie => "cookie"

/-- `ParameterTarget(location.value)`; cookies have no target. -/
def ParameterLocation.target : ParameterLocation → Option ParameterTarget
  | path => some .path
  | query => some .query
  | header => some .header
  | cookie => none

inductive SecuritySchemeType where
  | httpBearer
  | httpBasic
  | apiKey
  | oauth2ClientCredentials
  | staticHeaders
  | unsupported
  deriving Repr, DecidableEq

def SecuritySchemeType.value : SecuritySchemeType → Text
  | httpBearer => "http_bearer"
  | httpBasic => "http_basic"
  | apiKey => "api_key"
  | oauth2ClientCredentials => "oauth2_client_credentials"
  | staticHeaders => "static_headers"
  | unsupported => "unsupported"

structure SourceRef where
  sourceVersionId : Text
  pointer : Text
  deriving Repr, DecidableEq

inductive SourceFormat where
  | openapi30
  | openapi31
  | apiInventory
  deriving Repr, DecidableEq

structure CanonicalServer where
  key : Text
  url : Text
  description : Option Text := none
  sourceRef : SourceRef
  deriving Repr, DecidableEq

inductive SecurityLocation where
  | header
  | query
  | cookie
  deriving Repr, DecidableEq

def SecurityLocation.value : SecurityLocation → Text
  | header => "header"
  | query => "query"
  | cookie => "cookie"

structure CanonicalSecurityScheme where
  type : SecuritySchemeType
  scheme : Option Text := none
  location : Option SecurityLocation := none
  name : Option Text := none
  tokenUrl : Option Text := none
  scopes : List Text := []
  sourceRef : SourceRef
  deriving Repr, DecidableEq

structure CanonicalSchema where
  key : Text
  schema : JsonObject
  sourceRef : SourceRef

structure CanonicalParameter where
  name : Text
  location : ParameterLocation
  required : Bool := false
  schema : JsonObject
  description : Option Text := none
  style : Option Text := none
  explode : Option Bool := none
  allowReserved : Bool := false
  sourceRef : SourceRef

structure CanonicalMediaType where
  mediaType : Text
  schema : JsonObject
  examples : List Json := []
  sourceRef : SourceRef

structure CanonicalRequestBody where
  required : Bool := false
  description : Option Text := none
  content : List CanonicalMediaType
  sourceRef : SourceRef

structure CanonicalResponse where
  statusCode : Text
  description : Option Text := none
  content : List CanonicalMediaType := []
  sourceRef : SourceRef

/-- The schemes that are needed together, each with its scopes. -/
structure CanonicalSecurityRequirement where
  schemeScopes : List (Text × List Text)
  sourceRef : SourceRef
  deriving Repr, DecidableEq

structure OperationProvenance where
  operation : SourceRef
  executableFields : List (Text × SourceRef) := []
  deriving Repr, DecidableEq

structure CanonicalOperation where
  key : Text
  sourceOperationId : Option Text := none
  toolNameSeed : Text
  method : HttpMethod
  pathTemplate : Text
  serverRef : Option Text
  serverCandidates : List Text
  summary : Option Text := none
  description : Option Text := none
  parameters : List CanonicalParameter := []
  requestBody : Option CanonicalRequestBody := none
  responses : List CanonicalResponse := []
  security : List CanonicalSecurityRequirement := []
  tags : List Text := []
  semanticTitle : Option Text := none
  semanticDescription : Option Text := none
  provenance : OperationProvenance

namespace CanonicalOperation

def pathParameters (operation : CanonicalOperation) : List Text :=
  (operation.parameters.filter (·.location = .path)).map CanonicalParameter.name

/-- Every schema that stands in the operation. -/
def schemas (operation : CanonicalOperation) : List JsonObject :=
  operation.parameters.map CanonicalParameter.schema ++
    (operation.requestBody.toList.flatMap CanonicalRequestBody.content).map CanonicalMediaType.schema ++
    (operation.responses.flatMap CanonicalResponse.content).map CanonicalMediaType.schema

/-- The validators of the model. -/
def check (operation : CanonicalOperation) : Bool :=
  operation.pathTemplate.startsWith "/" && !operation.serverCandidates.isEmpty &&
    match pathParameterNames operation.pathTemplate with
    | .ok names => names.all operation.pathParameters.contains && operation.pathParameters.all names.contains
    | .error _ => false

structure Valid (operation : CanonicalOperation) : Prop where
  rooted : operation.pathTemplate.startsWith "/" = true
  candidates : operation.serverCandidates ≠ []
  pathParametersRequired : ∀ parameter ∈ operation.parameters, parameter.location = .path → parameter.required = true
  /-- The placeholders of the path are the path parameters. -/
  placeholders : ∃ names, pathParameterNames operation.pathTemplate = .ok names ∧
    ∀ name, name ∈ names ↔ name ∈ operation.pathParameters
  body : ∀ body ∈ operation.requestBody, body.content ≠ []
  dictionaries : ∀ schema ∈ operation.schemas, (Json.object schema).WellFormed

end CanonicalOperation

structure DocumentationRef where
  sourceVersionId : Text
  contentSha256 : Text
  title : Option Text := none
  deriving Repr, DecidableEq

inductive SchemaTransformation where
  | nullable
  | exclusiveMinimum
  | exclusiveMaximum
  | example
  deriving Repr, DecidableEq

/-- The dialect of the source's schemas and the rewrites that made them Draft 2020-12, each with its place. -/
structure SchemaDialectProvenance where
  source : Text
  transformations : List (Text × SchemaTransformation) := []
  deriving Repr, DecidableEq

structure CanonicalApi where
  projectId : Text
  sourceFormat : SourceFormat
  title : Text
  version : Option Text := none
  description : Option Text := none
  servers : List CanonicalServer
  activeServerRef : Option Text := none
  securitySchemes : List (Text × CanonicalSecurityScheme) := []
  schemas : List (Text × CanonicalSchema) := []
  operations : List CanonicalOperation
  documentationRefs : List DocumentationRef := []
  sourceVersionIds : List Text
  sourceFingerprint : Text
  schemaDialect : Option SchemaDialectProvenance := none

namespace CanonicalApi

def serverKeys (api : CanonicalApi) : List Text :=
  api.servers.map CanonicalServer.key

def operationKeys (api : CanonicalApi) : List Text :=
  api.operations.map CanonicalOperation.key

/-- What `validate_references_and_uniqueness` asks of an operation. -/
def checkOperation (api : CanonicalApi) (operation : CanonicalOperation) : Bool :=
  operation.serverCandidates.all api.serverKeys.contains &&
    (operation.serverRef.all fun ref => api.serverKeys.contains ref && operation.serverCandidates.contains ref) &&
    operation.security.all fun requirement => requirement.schemeScopes.all fun scheme =>
      (api.securitySchemes.lookup scheme.1).isSome

/-- The validators of the model. -/
def check (api : CanonicalApi) : Bool :=
  !api.servers.isEmpty && !api.operations.isEmpty && decide api.serverKeys.Nodup &&
    api.activeServerRef.all api.serverKeys.contains && decide api.operationKeys.Nodup &&
    api.operations.all api.checkOperation && isSha256 api.sourceFingerprint

/-- What the validators of the models guarantee of a canonical API. -/
structure Valid (urls : AnyHttpUrl) (api : CanonicalApi) : Prop where
  servers : ∀ server ∈ api.servers, ∃ url, urls.Parsed url ∧ urls.normalize url = some server.url
  serverKeys : api.serverKeys.Nodup
  operationKeys : api.operationKeys.Nodup
  operations : ∀ operation ∈ api.operations, operation.Valid
  serverRefs : ∀ operation ∈ api.operations, ∀ ref, operation.serverRef = some ref → ref ∈ api.serverKeys
  tokenUrls : ∀ scheme ∈ api.securitySchemes, ∀ url, scheme.2.tokenUrl = some url → urls.Parsed url
  sourceFingerprint : isSha256 api.sourceFingerprint = true

end CanonicalApi

end Mcplica.Contracts
