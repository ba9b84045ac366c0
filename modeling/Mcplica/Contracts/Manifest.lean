import Mcplica.Contracts.Json
import Mcplica.Contracts.Urls
import Mcplica.Library.Checks

/-! # The manifest

The models of `mcp_contracts.manifest` with their validators. -/

namespace Mcplica.Contracts

open Mcplica.Library

inductive HttpMethod where
  | get
  | post
  | put
  | patch
  | delete
  | head
  | options
  | trace
  deriving Repr, DecidableEq

def HttpMethod.value : HttpMethod → Text
  | get => "GET"
  | post => "POST"
  | put => "PUT"
  | patch => "PATCH"
  | delete => "DELETE"
  | head => "HEAD"
  | options => "OPTIONS"
  | trace => "TRACE"

inductive ParameterTarget where
  | path
  | query
  | header
  deriving Repr, DecidableEq

def ParameterTarget.value : ParameterTarget → Text
  | path => "path"
  | query => "query"
  | header => "header"

/-! ## Servers -/

structure ServerDefinition where
  id : Text
  url : Text
  description : Option Text

/-- A field of the type `AnyHttpUrl` holds a URL that was parsed. -/
def AnyHttpUrl.Parsed (urls : AnyHttpUrl) (url : Text) : Prop :=
  ∃ value, urls.parse value = some url

def ServerDefinition.make (urls : AnyHttpUrl) (id url : Text) (description : Option Text) :
    Except Text ServerDefinition := do
  let url ← obtain? (urls.normalize url) "Input should be a valid URL"
  return ⟨id, url, description⟩

/-! ## Authentication profiles -/

inductive AuthType where
  | none
  | bearer
  | apiKey
  | basic
  | oauth2ClientCredentials
  | staticHeader
  deriving Repr, DecidableEq

def AuthType.value : AuthType → Text
  | none => "none"
  | bearer => "bearer"
  | apiKey => "api_key"
  | basic => "basic"
  | oauth2ClientCredentials => "oauth2_client_credentials"
  | staticHeader => "static_header"

inductive TokenAuthMethod where
  | clientSecretBasic
  | clientSecretPost
  deriving Repr, DecidableEq

def TokenAuthMethod.value : TokenAuthMethod → Text
  | clientSecretBasic => "client_secret_basic"
  | clientSecretPost => "client_secret_post"

inductive CredentialLocation where
  | header
  | query
  deriving Repr, DecidableEq

structure AuthProfile where
  id : Text
  type : AuthType
  credentialRef : Option Text := none
  tokenUrl : Option Text := none
  scopes : List Text := []
  tokenAuthMethod : TokenAuthMethod := .clientSecretBasic
  location : Option CredentialLocation := none
  name : Option Text := none
  headerPrefix : Option Text := none

def isHeaderNameCharacter (character : Char) : Bool :=
  character.isAlphanum || ("!#$%&'*+.^_`|~-" : Text).contains character

def isHeaderName (text : Text) : Bool :=
  text ≠ [] && text.all isHeaderNameCharacter

def forbiddenAuthHeaders : List Text :=
  ["connection", "content-length", "content-type", "cookie", "host", "keep-alive", "proxy-authenticate",
    "proxy-authorization", "set-cookie", "te", "trailer", "transfer-encoding", "upgrade"].map String.toList

def lineBreaks : Text := ['\r', '\n', Char.ofNat 0]

namespace AuthProfile

/-- The fields that the profile's type requires and that are not set. -/
def missing (profile : AuthProfile) : List Text :=
  (match profile.type with
    | .apiKey => (if profile.location.isNone then [("location" : Text)] else []) ++
        (if profile.name.isNone then [("name" : Text)] else [])
    | .oauth2ClientCredentials => if profile.tokenUrl.isNone then [("token_url" : Text)] else []
    | .staticHeader => if profile.name.isNone then [("name" : Text)] else []
    | .none | .bearer | .basic => []) ++
    (if profile.type ≠ .none && (profile.credentialRef.getD []) = [] then [("credential_ref" : Text)] else [])

def validateAuthFields (unicode : Unicode) (profile : AuthProfile) : Except Text Unit := do
  let kind := profile.type.value
  ensure (profile.missing = [])
    (kind ++ (" auth profile is missing: " : Text) ++ Text.join ", " profile.missing)
  ensure (!(profile.type = .none && profile.credentialRef.isSome))
    ("none auth profile cannot reference credentials" : Text)
  ensure (!(profile.type ≠ .oauth2ClientCredentials && (profile.tokenUrl.isSome || profile.scopes ≠ [])))
    (kind ++ (" auth profile cannot contain OAuth configuration" : Text))
  ensure (!(profile.type ≠ .apiKey && (profile.location.isSome || profile.headerPrefix.isSome)))
    (kind ++ (" auth profile cannot contain API-key configuration" : Text))
  ensure (!(profile.type ≠ .apiKey && profile.type ≠ .staticHeader && profile.name.isSome))
    (kind ++ (" auth profile cannot contain a header/query name" : Text))
  ensure (profile.credentialRef.all fun ref => ref.length ≤ 200 && !Text.includesAny ref lineBreaks)
    ("auth profile credential reference is invalid" : Text)
  ensure (profile.name.all fun name => name ≠ [] && !Text.includesAny name lineBreaks)
    ("auth profile name is invalid" : Text)
  ensure (profile.name.all fun name =>
      !((profile.location = some .header || profile.type = .staticHeader) &&
        (!isHeaderName name || forbiddenAuthHeaders.contains (name.casefold unicode))))
    ("auth profile contains a forbidden header name" : Text)
  ensure (profile.headerPrefix.all fun value => !Text.includesAny value lineBreaks)
    ("API-key prefix contains forbidden characters" : Text)

end AuthProfile

/-! ## Request mappings -/

structure ParameterMapping where
  toolField : Text
  sourceName : Text
  target : ParameterTarget
  required : Bool := false
  style : Option Text := none
  explode : Option Bool := none
  allowReserved : Bool := false

structure MultipartFileMapping where
  partName : Text
  contentField : Text
  filenameField : Option Text := none
  contentTypeField : Option Text := none
  defaultFilename : Text := "upload.bin"
  defaultContentType : Text := "application/octet-stream"
  required : Bool := false

inductive SupportedMediaType where
  | json
  | formUrlencoded
  | multipart
  deriving Repr, DecidableEq

def SupportedMediaType.value : SupportedMediaType → Text
  | json => "application/json"
  | formUrlencoded => "application/x-www-form-urlencoded"
  | multipart => "multipart/form-data"

structure RequestBodyMapping where
  toolField : Text := "body"
  mediaType : SupportedMediaType := .json
  required : Bool := false
  multipartFiles : List MultipartFileMapping := []

structure RequestMapping where
  serverRef : Text
  method : HttpMethod
  path : Text
  parameters : List ParameterMapping := []
  body : Option RequestBodyMapping := none

/-! ## Responses -/

structure ResponseDefinition where
  statusCode : Text
  mediaType : Option Text := none
  schema : Option JsonObject := none
  description : Option Text := none

def isStatusPattern : Text → Bool
  | [first, second, third] =>
    ("12345" : Text).contains first &&
      ((second.isDigit && third.isDigit) || (second = 'X' && third = 'X'))
  | _ => false

def normalizeStatusCode (unicode : Unicode) (value : Text) : Except Text Text :=
  let normalized := value.strip
  if normalized.casefold unicode = "default" then .ok "default"
  else
    let normalized := normalized.upper unicode
    if isStatusPattern normalized then .ok normalized
    else .error "response status must be an HTTP code, class wildcard, or default"

def normalizeMediaType (unicode : Unicode) (value : Text) : Except Text Text :=
  let normalized := (Text.strip (value.takeWhile (· ≠ ';'))).casefold unicode
  if normalized = [] || !normalized.contains '/' || Text.includesAny normalized lineBreaks then
    .error "response media type is invalid"
  else
    .ok normalized

def ResponseDefinition.make (unicode : Unicode) (statusCode : Text) (mediaType : Option Text)
    (schema : Option JsonObject) (description : Option Text) : Except Text ResponseDefinition := do
  let statusCode ← normalizeStatusCode unicode statusCode
  let mediaType ← mediaType.mapM (normalizeMediaType unicode)
  return ⟨statusCode, mediaType, schema, description⟩

/-! ## Tools -/

structure MCPTool where
  name : Text
  title : Text
  description : Text
  inputSchema : JsonObject
  outputSchema : Option JsonObject := none
  responses : List ResponseDefinition := []
  operationKey : Text
  requestMapping : RequestMapping
  securityProfileRef : Option Text := none
  timeoutMs : Int := 30000
  maxResponseBytes : Int := 2000000
  enabled : Bool := true
  maxRequestBytes : Int := 10000000
  provenance : JsonObject := []

def isToolName (name : Text) : Bool :=
  match name with
  | [] => false
  | first :: rest => (first.isLower || first = '_') && rest.length ≤ 127 &&
      rest.all fun character => character.isLower || character.isDigit || character = '_'

def MCPTool.validate (tool : MCPTool) : Except Text Unit := do
  ensure (isToolName tool.name) ("String should match pattern" : Text)
  ensure (tool.requestMapping.path.startsWith "/") ("String should match pattern" : Text)
  ensure (100 ≤ tool.timeoutMs && tool.timeoutMs ≤ 300000) ("timeout_ms is out of range" : Text)
  ensure (1024 ≤ tool.maxResponseBytes && tool.maxResponseBytes ≤ 50000000)
    ("max_response_bytes is out of range" : Text)
  ensure (1024 ≤ tool.maxRequestBytes && tool.maxRequestBytes ≤ 100000000)
    ("max_request_bytes is out of range" : Text)

/-! ## The whole -/

structure MCPResource where
  uri : Text
  name : Text
  description : Option Text := none
  mimeType : Text := "text/markdown"
  content : Text
  provenance : JsonObject := []

structure RuntimeSecurity where
  allowedUpstreamHosts : List Text
  defaultTimeoutMs : Int := 30000
  defaultMaxResponseBytes : Int := 2000000

structure ManifestProject where
  id : Text
  name : Text
  slug : Text

structure BuildMetadata where
  buildId : Text
  sourceVersionIds : List Text
  sourceDigest : Text
  canonicalSha256 : Text
  createdAt : Text
  compilerVersion : Text
  promptBundleVersion : Option Text := none
  analysisModel : Option Text := none
  validationModel : Option Text := none
  embeddingModel : Option Text := none

def isSha256 (text : Text) : Bool :=
  text.length = 64 && text.all fun character => ("0123456789abcdef" : Text).contains character

structure MCPManifest where
  manifestId : Text
  project : ManifestProject
  runtimeCompatibility : Text
  servers : List ServerDefinition
  authProfiles : List AuthProfile := []
  tools : List MCPTool
  resources : List MCPResource := []
  security : RuntimeSecurity
  build : BuildMetadata

namespace MCPManifest

def enabledTools (manifest : MCPManifest) : List MCPTool :=
  manifest.tools.filter MCPTool.enabled

def serverIds (manifest : MCPManifest) : List Text :=
  manifest.servers.map ServerDefinition.id

def authIds (manifest : MCPManifest) : List Text :=
  manifest.authProfiles.map AuthProfile.id

def toolNames (manifest : MCPManifest) : List Text :=
  manifest.tools.map MCPTool.name

def validateReferences (manifest : MCPManifest) : Except Text Unit := do
  ensure (decide manifest.serverIds.Nodup) ("manifest server IDs must be unique" : Text)
  ensure (decide manifest.authIds.Nodup) ("manifest auth profile IDs must be unique" : Text)
  ensure (decide manifest.toolNames.Nodup) ("manifest tool names must be unique" : Text)
  forM manifest.tools fun tool => do
    ensure (manifest.serverIds.contains tool.requestMapping.serverRef)
      (("tool " : Text) ++ tool.name ++ (" references unknown server" : Text))
    ensure (tool.securityProfileRef.all fun ref => ref = [] || manifest.authIds.contains ref)
      (("tool " : Text) ++ tool.name ++ (" references unknown auth profile" : Text))

def validateFields (manifest : MCPManifest) : Except Text Unit := do
  ensure (isSha256 manifest.manifestId) ("String should match pattern" : Text)
  ensure (!manifest.servers.isEmpty) ("List should have at least 1 item" : Text)
  ensure (!manifest.security.allowedUpstreamHosts.isEmpty) ("List should have at least 1 item" : Text)
  ensure (100 ≤ manifest.security.defaultTimeoutMs && manifest.security.defaultTimeoutMs ≤ 300000)
    ("default_timeout_ms is out of range" : Text)
  ensure (1024 ≤ manifest.security.defaultMaxResponseBytes && manifest.security.defaultMaxResponseBytes ≤ 50000000)
    ("default_max_response_bytes is out of range" : Text)
  ensure (!manifest.build.sourceVersionIds.isEmpty) ("List should have at least 1 item" : Text)
  ensure (isSha256 manifest.build.sourceDigest && isSha256 manifest.build.canonicalSha256)
    ("String should match pattern" : Text)

/-- The manifest is a value of the model: its fields and those of its parts passed their validators. -/
structure Accepted (unicode : Unicode) (urls : AnyHttpUrl) (manifest : MCPManifest) : Prop where
  servers : ∀ server ∈ manifest.servers, ∃ url, urls.Parsed url ∧ urls.normalize url = some server.url
  authProfiles : ∀ profile ∈ manifest.authProfiles,
    profile.validateAuthFields unicode = .ok () ∧ ∀ url, profile.tokenUrl = some url → urls.Parsed url
  responses : ∀ tool ∈ manifest.tools, ∀ response ∈ tool.responses,
    (∃ value, normalizeStatusCode unicode value = .ok response.statusCode) ∧
      ∀ mediaType, response.mediaType = some mediaType →
        ∃ value, normalizeMediaType unicode value = .ok mediaType
  tools : ∀ tool ∈ manifest.tools, tool.validate = .ok ()
  fields : manifest.validateFields = .ok ()
  references : manifest.validateReferences = .ok ()

end MCPManifest

end Mcplica.Contracts
