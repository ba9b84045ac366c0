import Mcplica.Contracts.Canonical

/-! # The manifest compiler

`app.compilers.mcp.compiler`: one tool for every operation that is not excluded, its authentication
profile, the servers it needs and their hosts. -/

namespace Mcplica.Compilers

open Mcplica.Library Mcplica.Contracts
open Mcplica.Contracts.Json (entry)

inductive CompileFailure where
  | compilation (message : Text) (details : JsonObject)
  | validation (message : Text)

/-- An error of a model's validator, or a `ValueError`. -/
def validated {α : Type} : Except Text α → Except CompileFailure α
  | .ok value => .ok value
  | .error message => .error (.validation message)

@[simp] theorem validated_eq_ok {α : Type} {result : Except Text α} {value : α} :
    validated result = .ok value ↔ result = .ok value := by
  cases result <;> simp [validated]

/-- A SHA-256 digest in hexadecimal. -/
structure Sha256 where
  hexdigest : Text
  isHex : isSha256 hexdigest = true

/-- `hashlib.sha256` on UTF-8 text and on the canonical JSON of two models. -/
structure Hashing where
  ofText : Text → Sha256
  ofApi : CanonicalApi → Sha256
  ofManifest : MCPManifest → Sha256

/-- A hashing for examples. -/
def zeroHashing : Hashing :=
  let zeros : Sha256 := ⟨List.replicate 64 '0', by decide⟩
  ⟨fun _ => zeros, fun _ => zeros, fun _ => zeros⟩

structure BuildSecuritySelection where
  schemeName : Text
  credentialRef : Text
  scopes : List Text := []
  tokenAuthMethod : TokenAuthMethod := .clientSecretBasic

structure CompilerOptions where
  projectId : Text
  projectName : Text
  projectSlug : Text
  buildId : Text
  createdAt : Text
  resources : List MCPResource := []
  sourceDigest : Option Text := none
  canonicalDigest : Option Text := none
  compilerVersion : Text := "1.0.0-rc.2"
  runtimeCompatibility : Text := ">=1.0.0-rc.2,<2.0"
  promptBundleVersion : Option Text := none
  analysisModel : Option Text := none
  validationModel : Option Text := none
  embeddingModel : Option Text := none
  timeoutMs : Int := 30000
  maxRequestBytes : Int := 10000000
  maxResponseBytes : Int := 2000000

/-- Unlike the contract's, this list has no `content-type`. -/
def forbiddenCallerHeaders : List Text :=
  ["authorization", "connection", "content-length", "cookie", "host", "keep-alive", "proxy-authenticate",
    "proxy-authorization", "set-cookie", "te", "trailer", "transfer-encoding", "upgrade"].map String.toList

def compileError (operation : CanonicalOperation) (message : Text) : CompileFailure :=
  .compilation (operation.method.value ++ ' ' :: operation.pathTemplate ++ (": " : Text) ++ message)
    [entry "operation_key" (.string operation.key), entry "source_pointer" (.string operation.provenance.operation.pointer)]

/-- The `or` of optional texts. -/
def orElse (first : Option Text) (second : Option Text) : Option Text :=
  match first with
  | some text => if text = [] then second else some text
  | none => second

section

variable (platform : Platform) (hashing : Hashing)

/-! ## Authentication profiles -/

def undefinedScheme (name message : Text) : CompileFailure :=
  .compilation (("Security scheme " : Text) ++ name.repr platform.unicode ++ message) []

def profileId (name : Text) (selection : BuildSecuritySelection) : Text :=
  let identity := Json.object [entry "scheme" (.string name), entry "credential_ref" (.string selection.credentialRef),
    entry "scopes" (.array (selection.scopes.map .string)),
    entry "token_auth_method" (.string selection.tokenAuthMethod.value)]
  ("auth_" : Text) ++ (hashing.ofText identity.canonical).hexdigest.take 16

def makeProfile (profile : AuthProfile) : Except CompileFailure AuthProfile := do
  validated (profile.validateAuthFields platform.unicode)
  return profile

def profile (name : Text) (scheme : CanonicalSecurityScheme) (selection : BuildSecuritySelection) :
    Except CompileFailure AuthProfile :=
  let id := profileId hashing name selection
  let credentialRef := some selection.credentialRef
  match scheme.type with
  | .httpBearer => makeProfile platform { id, type := .bearer, credentialRef }
  | .httpBasic => makeProfile platform { id, type := .basic, credentialRef }
  | .apiKey =>
    let location : Option CredentialLocation := match scheme.location with
      | some .header => some .header
      | some .query => some .query
      | some .cookie | none => none
    if location.isNone || (scheme.name.getD []) = [] then
      .error (undefinedScheme platform name " is not executable")
    else
      makeProfile platform { id, type := .apiKey, credentialRef, location, name := scheme.name }
  | .oauth2ClientCredentials =>
    if scheme.tokenUrl.isNone then .error (undefinedScheme platform name " has no token URL")
    else
      makeProfile platform {
        id
        type := .oauth2ClientCredentials
        credentialRef
        tokenUrl := scheme.tokenUrl
        scopes := selection.scopes
        tokenAuthMethod := selection.tokenAuthMethod }
  | .staticHeaders =>
    if (scheme.name.getD []) = [] then .error (undefinedScheme platform name " has no header name")
    else makeProfile platform { id, type := .staticHeader, credentialRef, name := scheme.name }
  | .unsupported => .error (undefinedScheme platform name " is unsupported")

def anonymousAllowed (operation : CanonicalOperation) : Bool :=
  operation.security.isEmpty || operation.security.any fun requirement => requirement.schemeScopes.isEmpty

/-- The profile of an operation, if it needs one. -/
def operationProfile (api : CanonicalApi) (selections : Text → Option BuildSecuritySelection)
    (operation : CanonicalOperation) : Except CompileFailure (Option AuthProfile) :=
  match selections operation.key with
  | none =>
    if anonymousAllowed operation then .ok none
    else .error (compileError operation "security alternative is unresolved")
  | some selection => do
    ensure (!anonymousAllowed operation)
      (compileError operation "anonymous operation has an unnecessary credential")
    let name := selection.schemeName
    let requiredScopes ← obtain?
      ((operation.security.find? fun requirement =>
        requirement.schemeScopes.length = 1 && (requirement.schemeScopes.lookup name).isSome).bind fun requirement =>
          requirement.schemeScopes.lookup name)
      (compileError operation "security selection is not a declared alternative")
    ensure (requiredScopes = [] || Text.sorted requiredScopes.dedup = selection.scopes)
      (compileError operation "OAuth security selection changed required scopes")
    let scheme ← obtain? (api.securitySchemes.lookup name) (undefinedScheme platform name " is not defined")
    let made ← profile platform hashing name scheme selection
    return some made

/-- `_auth_profiles`: the profiles by id, and for every operation that has one the id of its profile. -/
def authProfiles (api : CanonicalApi) (selections : Text → Option BuildSecuritySelection)
    (operations : List CanonicalOperation) :
    Except CompileFailure (List AuthProfile × List (Text × Text)) := do
  let made ← (Text.sortedBy CanonicalOperation.key operations).mapM fun operation => do
    let profile ← operationProfile platform hashing api selections operation
    return (operation.key, profile)
  let given := made.filterMap fun (key, profile) => profile.map fun profile => (key, profile)
  -- `setdefault` keeps the first profile of an id.
  let ids := (given.map fun (_, profile) => profile.id).reverse.dedup.reverse
  let profiles := (Text.sorted ids).filterMap fun id => (given.map Prod.snd).find? fun profile => profile.id = id
  return (profiles, given.map fun (key, profile) => (key, profile.id))

/-! ## Fields -/

/-- The names `base`, `base_2`, `base_3` and so on. -/
def numberedNames (base : Text) (count : Nat) : List Text :=
  base :: (List.range count).map fun index => base ++ '_' :: Text.ofNat (index + 2)

/-- The first of the numbered names that is free; one more than the used ones is enough to look at. -/
def freeName (base : Text) (used : List Text) : Text :=
  ((numberedNames base used.length).find? fun candidate => !used.contains candidate).getD base

def uniqueFieldName (name : Text) (location : ParameterLocation) (used : List Text) : Text :=
  freeName (if used.contains name then location.value ++ '_' :: name else name) used

def addDefinition (operation : CanonicalOperation) (definitions : JsonObject) (field : Text × Json) :
    Except CompileFailure JsonObject :=
  match Json.get definitions field.1 with
  | none | some .null => .ok (Json.set definitions field.1 field.2)
  | some existing =>
    if existing.same field.2 then .ok (Json.set definitions field.1 field.2)
    else .error (compileError operation
      (("conflicting JSON Schema definition " : Text) ++ field.1.repr platform.unicode))

/-- The schema without its `$defs`, and the definitions with them. -/
def hoistDefinitions (operation : CanonicalOperation) (schema definitions : JsonObject) :
    Except CompileFailure (JsonObject × JsonObject) :=
  match Json.get schema "$defs" with
  | none | some .null => .ok (Json.pop schema "$defs", definitions)
  | some (.object rawDefinitions) => do
    let definitions ← rawDefinitions.foldlM (addDefinition platform operation) definitions
    return (Json.pop schema "$defs", definitions)
  | some _ => .error (compileError operation "JSON Schema $defs must be an object")

structure RequestFields where
  properties : JsonObject := []
  definitions : JsonObject := []
  required : List Text := []
  mappings : List ParameterMapping := []
  usedFields : List Text := []

def describe (schema : JsonObject) (description : Option Text) : JsonObject :=
  match description with
  | some text =>
    if text ≠ [] && (Json.get schema "description").isNone then Json.set schema "description" (.string text)
    else schema
  | none => schema

/-- A credential takes the place of the caller's `Authorization` header. -/
def replacedByCredential (hasCredential : Bool) (parameter : CanonicalParameter) : Bool :=
  parameter.location = .header && parameter.name.casefold platform.unicode = "authorization" && hasCredential

def addField (operation : CanonicalOperation) (fields : RequestFields) (parameter : CanonicalParameter)
    (target : ParameterTarget) : Except CompileFailure RequestFields := do
  let fieldName := uniqueFieldName parameter.name parameter.location fields.usedFields
  let (schema, definitions) ← hoistDefinitions platform operation parameter.schema fields.definitions
  let schema := describe schema parameter.description
  let schema := if schema.isEmpty then [entry "type" (.text "string")] else schema
  let mapping : ParameterMapping := {
    toolField := fieldName
    sourceName := parameter.name
    target
    required := parameter.required
    style := parameter.style
    explode := parameter.explode
    allowReserved := parameter.allowReserved }
  return {
    properties := Json.set fields.properties fieldName (.object schema)
    definitions
    required := if parameter.required then fields.required ++ [fieldName] else fields.required
    mappings := fields.mappings ++ [mapping]
    usedFields := fieldName :: fields.usedFields }

def addParameter (operation : CanonicalOperation) (hasCredential : Bool) (fields : RequestFields)
    (parameter : CanonicalParameter) : Except CompileFailure RequestFields := do
  let shown := parameter.name.repr platform.unicode
  match Json.get parameter.schema "x-mcplica-unsupported" with
  | some (.string unsupported) => .error (compileError operation
      (("parameter " : Text) ++ shown ++ (" uses unsupported construct " : Text) ++ unsupported.repr platform.unicode))
  | _ =>
    match parameter.location.target with
    | none => .error (compileError operation "cookie parameters are not supported")
    | some target =>
      if parameter.location = .header && forbiddenCallerHeaders.contains (parameter.name.casefold platform.unicode) then
        if replacedByCredential platform hasCredential parameter then return fields
        else .error (compileError operation
          (("caller-controlled header " : Text) ++ shown ++ (" is forbidden" : Text)))
      else
        addField platform operation fields parameter target

/-- By location, then by name without case. -/
def parameterBefore (left right : CanonicalParameter) : Bool :=
  if left.location = right.location then
    Text.le (left.name.casefold platform.unicode) (right.name.casefold platform.unicode)
  else
    Text.le left.location.value right.location.value

def parameterFields (operation : CanonicalOperation) (hasCredential : Bool) : Except CompileFailure RequestFields :=
  (operation.parameters.insertionSort fun left right => parameterBefore platform left right).foldlM
    (addParameter platform operation hasCredential) {}

/-! ## Bodies -/

def isText (value : Option Json) (expected : Text) : Bool :=
  match value with
  | some (.string actual) => actual = expected
  | _ => false

def isBinary (fields : JsonObject) : Bool :=
  isText (Json.get fields "type") "string" && isText (Json.get fields "format") "binary"

def multipartFiles (media : CanonicalMediaType) : List MultipartFileMapping :=
  match Json.get media.schema "properties" with
  | some (.object properties) =>
    let requiredNames := match Json.get media.schema "required" with
      | some (.array items) => items.filterMap fun (item : Json) => match item with
        | .string name => some name
        | _ => none
      | _ => []
    (Text.sortedBy Prod.fst properties).filterMap fun (name, schema) => match schema with
      | .object fields =>
        if isBinary fields then some {
          partName := name
          contentField := name
          defaultFilename := name ++ (".bin" : Text)
          required := requiredNames.contains name }
        else none
      | _ => none
  | _ => []

def supportedMediaTypes : List SupportedMediaType :=
  [.json, .formUrlencoded, .multipart]

/-- The last entry for a media type wins, as in a dictionary. -/
def selectRequestMedia (operation : CanonicalOperation) (body : CanonicalRequestBody) :
    Except CompileFailure CanonicalMediaType :=
  let entry (mediaType : SupportedMediaType) := body.content.reverse.find? fun item =>
    item.mediaType.casefold platform.unicode = mediaType.value
  let declared := Text.sorted (body.content.map fun item => item.mediaType.casefold platform.unicode).dedup
  obtain? (supportedMediaTypes.findSome? entry)
    (compileError operation (("unsupported request media types: " : Text) ++
      (if declared.isEmpty then ("none" : Text) else Text.join ", " declared)))

def encodeBinary : Json → Json
  | .object fields =>
    if isBinary fields then .object (Json.set fields "contentEncoding" (.text "base64")) else .object fields
  | value => value

def encodeBinaryProperties (schema : JsonObject) : JsonObject :=
  match Json.get schema "properties" with
  | some (.object properties) =>
    Json.set schema "properties" (.object (properties.map fun (name, value) => (name, encodeBinary value)))
  | _ => schema

def literalMediaType (mediaType : Text) : Option SupportedMediaType :=
  supportedMediaTypes.find? fun supported => supported.value = mediaType

def addBody (operation : CanonicalOperation) (fields : RequestFields) (body : CanonicalRequestBody) :
    Except CompileFailure (RequestFields × RequestBodyMapping) := do
  let media ← selectRequestMedia platform operation body
  let bodyField := uniqueFieldName "body" .query fields.usedFields
  let (schema, definitions) ← hoistDefinitions platform operation media.schema fields.definitions
  let schema := if media.mediaType = SupportedMediaType.multipart.value then encodeBinaryProperties schema else schema
  let mediaType ← obtain? (literalMediaType media.mediaType) (.validation "Input should be a supported media type")
  return ({ fields with
      properties := Json.set fields.properties bodyField (.object schema)
      definitions
      required := if body.required then fields.required ++ [bodyField] else fields.required
      usedFields := bodyField :: fields.usedFields },
    { toolField := bodyField, mediaType, required := body.required, multipartFiles := multipartFiles media })

/-- The fields of a tool and the mapping of its body. -/
def requestFields (operation : CanonicalOperation) (hasCredential : Bool) :
    Except CompileFailure (RequestFields × Option RequestBodyMapping) := do
  let fields ← parameterFields platform operation hasCredential
  match operation.requestBody with
  | none => return (fields, none)
  | some body => do
    let (fields, mapping) ← addBody platform operation fields body
    return (fields, some mapping)

def inputSchema (fields : RequestFields) : JsonObject :=
  [entry "type" (.text "object"), entry "properties" (.object fields.properties), entry "additionalProperties" (.bool false)] ++
    (if fields.required.isEmpty then []
      else [entry "required" (.array ((Text.sorted fields.required.dedup).map .string))]) ++
    (if fields.definitions.isEmpty then [] else [entry "$defs" (.object fields.definitions)])

/-! ## Responses -/

structure ResponseFields where
  definitions : List ResponseDefinition := []
  successBodySchemas : List JsonObject := []
  envelopeDefinitions : JsonObject := []

def responseCanBeSuccess (statusCode : Text) : Bool :=
  let normalized := statusCode.upper platform.unicode
  normalized = "DEFAULT" || normalized.startsWith "2"

def supportedResponseMedia (mediaType : Text) : Bool :=
  mediaType = "application/json" || mediaType.endsWith "+json" || mediaType.startsWith "text/"

def normalizedMedia (mediaType : Text) : Text :=
  (Text.strip (mediaType.takeWhile (· ≠ ';'))).casefold platform.unicode

def addMedia (operation : CanonicalOperation) (response : CanonicalResponse) (fields : ResponseFields)
    (media : CanonicalMediaType) : Except CompileFailure ResponseFields := do
  let mediaType := normalizedMedia platform media.mediaType
  let success := responseCanBeSuccess platform response.statusCode
  ensure (!(success && !supportedResponseMedia mediaType))
    (compileError operation (("successful response media type " : Text) ++ mediaType.repr platform.unicode ++
      (" is unsupported" : Text)))
  let definition ← validated
    (ResponseDefinition.make platform.unicode response.statusCode (some mediaType) (some media.schema) response.description)
  let fields := { fields with definitions := fields.definitions ++ [definition] }
  if success then
    let envelope : JsonObject :=
      if !media.schema.isEmpty then media.schema
      else if mediaType.startsWith "text/" then [entry "type" (.text "string")]
      else []
    let (envelope, envelopeDefinitions) ← hoistDefinitions platform operation envelope fields.envelopeDefinitions
    return { fields with successBodySchemas := fields.successBodySchemas ++ [envelope], envelopeDefinitions }
  else
    return fields

def addResponse (operation : CanonicalOperation) (fields : ResponseFields) (response : CanonicalResponse) :
    Except CompileFailure ResponseFields :=
  if response.content.isEmpty then do
    let definition ← validated
      (ResponseDefinition.make platform.unicode response.statusCode none none response.description)
    return { fields with
      definitions := fields.definitions ++ [definition]
      successBodySchemas :=
        if responseCanBeSuccess platform response.statusCode then
          fields.successBodySchemas ++ [[entry "type" (.text "null")]]
        else fields.successBodySchemas }
  else
    (Text.sortedBy CanonicalMediaType.mediaType response.content).foldlM (addMedia platform operation response) fields

def responseFields (operation : CanonicalOperation) : Except CompileFailure ResponseFields :=
  (Text.sortedBy CanonicalResponse.statusCode operation.responses).foldlM (addResponse platform operation) {}

/-- The schemas with the first of those that have the same canonical text. -/
def uniqueSchemas : List JsonObject → List JsonObject
  | [] => []
  | schema :: rest => schema :: (uniqueSchemas rest).filter fun other =>
      (Json.object other).canonical ≠ (Json.object schema).canonical

def responseEnvelopeSchema (fields : ResponseFields) : Option JsonObject :=
  match uniqueSchemas fields.successBodySchemas with
  | [] => none
  | first :: others =>
    let bodySchema : Json :=
      if others.isEmpty then .object first else .object [entry "anyOf" (.array ((first :: others).map .object))]
    some ([entry "type" (.text "object"), entry "additionalProperties" (.bool false),
      entry "required" (.array [.text "status", .text "contentType", .text "body"]),
      entry "properties" (.object [
        entry "status" (.object [entry "type" (.text "integer"), entry "minimum" (.integer 200), entry "maximum" (.integer 299)]),
        entry "contentType" (.object [entry "type" (.text "string")]),
        entry "body" (bodySchema)])] ++
      (if fields.envelopeDefinitions.isEmpty then [] else [entry "$defs" (.object fields.envelopeDefinitions)]))

/-! ## Tools -/

def compileTool (options : CompilerOptions) (profileRefs : List (Text × Text)) (toolName : Text)
    (operation : CanonicalOperation) : Except CompileFailure MCPTool := do
  let serverRef ← obtain? operation.serverRef (compileError operation
    "upstream server selection is unresolved; configure an applicable server mapping")
  let authRef := profileRefs.lookup operation.key
  let (fields, body) ← requestFields platform operation authRef.isSome
  let responses ← responseFields platform operation
  let spaced : Text := toolName.map fun character => if character = '_' then ' ' else character
  let tool : MCPTool := {
    name := toolName
    title := (orElse operation.semanticTitle operation.summary |> (orElse · none)).getD (spaced.title platform.unicode)
    description := (orElse operation.semanticDescription (orElse operation.description (orElse operation.summary none))).getD
      (operation.method.value ++ ' ' :: operation.pathTemplate)
    inputSchema := inputSchema fields
    outputSchema := responseEnvelopeSchema responses
    responses := responses.definitions
    operationKey := operation.key
    requestMapping := {
      serverRef
      method := operation.method
      path := operation.pathTemplate
      parameters := fields.mappings
      body }
    securityProfileRef := authRef
    timeoutMs := options.timeoutMs
    maxRequestBytes := options.maxRequestBytes
    maxResponseBytes := options.maxResponseBytes
    provenance := [entry "source_version_id" (.string operation.provenance.operation.sourceVersionId),
      entry "source_pointer" (.string operation.provenance.operation.pointer)] }
  validated tool.validate
  return tool

/-- The operations in the order in which they are named: by seed, then by key. -/
def namingOrder (operations : List CanonicalOperation) : List CanonicalOperation :=
  (Text.sorted (operations.map CanonicalOperation.toolNameSeed).dedup).flatMap fun seed =>
    Text.sortedBy CanonicalOperation.key (operations.filter fun operation => operation.toolNameSeed = seed)

def addToolName (operations : List CanonicalOperation) (named : List (Text × Text)) (operation : CanonicalOperation) :
    Except CompileFailure (List (Text × Text)) := do
  let seed := operation.toolNameSeed
  let used := named.map Prod.snd
  let shared := 1 < (operations.filter fun other => other.toolNameSeed = seed).length
  let suffix := (hashing.ofText operation.key).hexdigest.take 8
  let candidate := if shared || used.contains seed then seed.take 110 ++ '_' :: suffix else seed
  ensure (!used.contains candidate) (compileError operation "stable tool-name collision")
  return named ++ [(operation.key, candidate)]

def toolNames (operations : List CanonicalOperation) : Except CompileFailure (List (Text × Text)) :=
  (namingOrder operations).foldlM (addToolName hashing operations) []

/-! ## The manifest -/

def executableOperations (api : CanonicalApi) (excluded : List Text) : List CanonicalOperation :=
  api.operations.filter fun operation => !excluded.contains operation.key

/-- The servers that the operations refer to, or all of them when none refers to one. -/
def selectedServers (api : CanonicalApi) (operations : List CanonicalOperation) : List CanonicalServer :=
  let referenced := operations.filterMap CanonicalOperation.serverRef
  if referenced.isEmpty then api.servers else api.servers.filter fun server => referenced.contains server.key

def manifestServers (api : CanonicalApi) (operations : List CanonicalOperation) :
    Except CompileFailure (List ServerDefinition) :=
  (Text.sortedBy CanonicalServer.key (selectedServers api operations)).mapM fun server =>
    validated (ServerDefinition.make platform.urls server.key server.url server.description)

def upstreamHost (server : ServerDefinition) : Except CompileFailure Text := do
  let parsed ← obtain? (urlsplit platform.unicode server.url) (.validation "Invalid IPv6 URL")
  let hostname ← obtain? (parsed.hostname platform.unicode)
    (.compilation (("Server " : Text) ++ server.id.repr platform.unicode ++ (" has an invalid URL" : Text)) [])
  obtain? (normalizedHost platform.unicode hostname) (.validation "label empty or too long")

def manifestDigest (options : CompilerOptions) (api : CanonicalApi) : Text :=
  (orElse options.canonicalDigest none).getD (hashing.ofApi api).hexdigest

def namedTool (options : CompilerOptions) (profileRefs names : List (Text × Text)) (operation : CanonicalOperation) :
    Except CompileFailure MCPTool :=
  compileTool platform options profileRefs ((names.lookup operation.key).getD []) operation

def compileManifest (options : CompilerOptions) (api : CanonicalApi)
    (selections : Text → Option BuildSecuritySelection) (excluded : List Text) : Except CompileFailure MCPManifest := do
  ensure (api.projectId = options.projectId)
    (.compilation "Canonical project identity does not match compiler input" [])
  let unknown := excluded.filter fun key => !api.operationKeys.contains key
  ensure unknown.isEmpty
    (.compilation "Exclusions reference operations absent from the canonical snapshot"
      [entry "operation_keys" (.array ((Text.sorted unknown.dedup).map .string))])
  let executable := executableOperations api excluded
  let (profiles, profileRefs) ← authProfiles platform hashing api selections executable
  let names ← toolNames hashing executable
  let tools ← (Text.sortedBy CanonicalOperation.key executable).mapM (namedTool platform options profileRefs names)
  let missing := (executable.filterMap CanonicalOperation.serverRef).filter fun ref => !api.serverKeys.contains ref
  ensure missing.isEmpty
    (.compilation "Executable operations reference undefined servers"
      [entry "server_refs" (.array ((Text.sorted missing.dedup).map .string))])
  let servers ← manifestServers platform api executable
  let hosts ← servers.mapM (upstreamHost platform)
  let manifest : MCPManifest := {
    manifestId := []
    project := ⟨options.projectId, options.projectName, options.projectSlug⟩
    runtimeCompatibility := options.runtimeCompatibility
    servers
    authProfiles := profiles
    tools
    resources := options.resources
    security := {
      allowedUpstreamHosts := Text.sorted hosts.dedup
      defaultTimeoutMs := options.timeoutMs
      defaultMaxResponseBytes := options.maxResponseBytes }
    build := {
      buildId := options.buildId
      sourceVersionIds := api.sourceVersionIds
      sourceDigest := (orElse options.sourceDigest none).getD api.sourceFingerprint
      canonicalSha256 := manifestDigest hashing options api
      createdAt := options.createdAt
      compilerVersion := options.compilerVersion
      promptBundleVersion := options.promptBundleVersion
      analysisModel := options.analysisModel
      validationModel := options.validationModel
      embeddingModel := options.embeddingModel } }
  -- The digest is over everything but the id itself.
  let manifest := { manifest with manifestId := (hashing.ofManifest manifest).hexdigest }
  validated manifest.validateFields
  validated manifest.validateReferences
  return manifest

end

end Mcplica.Compilers
