import Mcplica.Contracts.Manifest
import Mcplica.Contracts.Schemas

/-! # The manifest contract

`validate_manifest_contract`: what the generic runtime expects of a manifest. -/

namespace Mcplica.Contracts

open Mcplica.Library

/-- The libraries that the contract, the compiler and the runtime call. -/
structure Platform where
  unicode : Unicode
  urls : AnyHttpUrl
  /-- `Version(version) in SpecifierSet(specifier)`; `none` when one of them is invalid. -/
  supports : Text → Text → Option Bool
  metaSchema : MetaSchema

/-- `Draft202012Validator.check_schema` does not raise. -/
def Platform.checkSchema (platform : Platform) (schema : JsonObject) : Bool :=
  platform.metaSchema.check (.object schema)

def plainPlatform : Platform :=
  ⟨asciiUnicode, plainUrls, fun _ _ => some true, draft202012⟩

def forbiddenCallerHeaders : List Text :=
  ["authorization", "connection", "content-length", "content-type", "cookie", "host", "keep-alive",
    "proxy-authenticate", "proxy-authorization", "set-cookie", "te", "trailer", "transfer-encoding",
    "upgrade"].map String.toList

/-! ## Paths -/

def isControlCharacter (character : Char) : Bool :=
  character.toNat < 32 || character.toNat = 127

def hasEncodedSeparator (path : Text) : Bool :=
  let lowered : Text := path.map Char.toLower
  lowered.includes "%2f" || lowered.includes "%5c"

def hasDotSegment (path : Text) : Bool :=
  (path.splitOn '/').any fun segment => segment = "." || segment = ".."

def validateOperationPath (path : Text) : Except Text Unit := do
  ensure (path.startsWith "/" && !path.startsWith "//")
    ("manifest operation paths must be origin-relative" : Text)
  ensure (!(path.any isControlCharacter || path.contains '\\'))
    ("manifest operation path contains forbidden characters" : Text)
  ensure (!(path.contains '?' || path.contains '#'))
    ("manifest operation path cannot contain query or fragment data" : Text)
  ensure (!hasEncodedSeparator path)
    ("manifest operation path cannot contain encoded path separators" : Text)
  ensure (!hasDotSegment path.unquote)
    ("manifest operation path cannot contain dot segments" : Text)

/-- The scan of `path_parameter_names`; inside an expression it carries the name read so far. -/
def scanPath : Option Text → Text → Except Text (List Text)
  | none, [] => .ok []
  | some _, [] => .error "path template contains an unmatched opening brace"
  | none, character :: rest =>
    if character = '}' then .error "path template contains an unmatched closing brace"
    else if character = '{' then scanPath (some []) rest
    else scanPath none rest
  | some name, character :: rest =>
    if character ≠ '}' then scanPath (some (name ++ [character])) rest
    else if name = [] || name.contains '{' || name.contains '/' then
      .error "path template contains an invalid parameter expression"
    else do
      let names ← scanPath none rest
      return name :: names

def pathParameterNames (path : Text) : Except Text (List Text) :=
  scanPath none path

section

variable (platform : Platform)

def validateRuntimeCompatibility (specifier runtimeVersion : Text) : Except Text Unit := do
  let compatible ← obtain? (platform.supports specifier runtimeVersion)
    ("manifest runtime compatibility range is invalid" : Text)
  ensure compatible ("manifest is incompatible with this runtime version" : Text)

/-! ## Hosts -/

def normalizeAllowedHost (value : Text) : Except Text Text := do
  ensure (!(value.includes "://" || Text.includesAny value (("/?#@\\" : Text) ++ lineBreaks)))
    ("manifest allowed upstream hosts must contain host names only" : Text)
  let parsed ← obtain? (urlsplit platform.unicode ("//" ++ value)) ("Invalid IPv6 URL" : Text)
  let hostname ← obtain? (parsed.hostname platform.unicode)
    ("manifest contains an invalid allowed upstream host" : Text)
  ensure (parsed.port = .absent) ("manifest contains an invalid allowed upstream host" : Text)
  obtain? (normalizedHost platform.unicode hostname)
    ("manifest contains an invalid allowed upstream host" : Text)

/-- A URL without user information, query and fragment. -/
def SplitResult.isBare (parsed : SplitResult) : Bool :=
  (parsed.username.getD []) = [] && (parsed.password.getD []) = [] && parsed.query = [] && parsed.fragment = []

def SplitResult.isHttp (parsed : SplitResult) : Bool :=
  parsed.scheme = "http" || parsed.scheme = "https"

theorem SplitResult.isHttp_iff {parsed : SplitResult} :
    parsed.isHttp = true ↔ parsed.scheme = "http" ∨ parsed.scheme = "https" := by
  rw [SplitResult.isHttp, Bool.or_eq_true, decide_eq_true_eq, decide_eq_true_eq]

/-- The host of a server, as the allowlist has to name it. -/
def serverHost (server : ServerDefinition) : Except Text Text := do
  let parsed ← obtain? (urlsplit platform.unicode server.url) ("Invalid IPv6 URL" : Text)
  let invalid := ("server " : Text) ++ server.id.repr platform.unicode ++ (" has an invalid HTTP URL" : Text)
  ensure parsed.isHttp invalid
  let hostname ← obtain? (parsed.hostname platform.unicode) invalid
  ensure parsed.isBare
    (("server " : Text) ++ server.id.repr platform.unicode ++ (" URL contains forbidden components" : Text))
  obtain? (normalizedHost platform.unicode hostname) ("label empty or too long" : Text)

/-! ## Schema references -/

def decodeToken (raw : Text) : Text :=
  Text.replacePair '~' '0' '~' (Text.replacePair '~' '1' '/' raw.unquote)

def followTokens (label : Text) : Json → List Text → Except Text Unit
  | _, [] => .ok ()
  | .object fields, token :: rest =>
    match Json.get fields token with
    | some value => followTokens label value rest
    | none => .error (label ++ (" contains an unresolved local JSON Schema reference" : Text))
  | .array items, token :: rest =>
    if token.isDigit platform.unicode then
      match token.int platform.unicode with
      | none => .error (("invalid literal for int() with base 10: " : Text) ++ token.repr platform.unicode)
      | some index =>
        match items[index]? with
        | some value => followTokens label value rest
        | none => .error (label ++ (" contains an unresolved local JSON Schema reference" : Text))
    else .error (label ++ (" contains an unresolved local JSON Schema reference" : Text))
  | _, _ :: _ => .error (label ++ (" contains an unresolved local JSON Schema reference" : Text))

def resolveLocalSchemaReference (root : JsonObject) (label reference : Text) : Except Text Unit := do
  if reference = "#" then
    return ()
  ensure (reference.startsWith "#/") (label ++ (" contains an unsupported local JSON Schema anchor" : Text))
  followTokens platform label (.object root) (((reference.drop 2).splitOn '/').map decodeToken)

def validateLocalSchemaReferences (schema : JsonObject) (label : Text) : Except Text Unit :=
  forM (Json.object schema).references fun reference =>
    match reference with
    | .string reference => do
      ensure (reference.startsWith "#") (label ++ (" contains a non-local JSON Schema reference" : Text))
      resolveLocalSchemaReference platform schema label reference
    | _ => .error (label ++ (" contains a non-local JSON Schema reference" : Text))

/-! ## Tools -/

def MCPTool.label (tool : MCPTool) : Text :=
  ("tool " : Text) ++ tool.name.repr platform.unicode

def isObjectSchema (schema : JsonObject) : Bool :=
  match Json.get schema "type" with
  | some (.string kind) => kind = "object"
  | _ => false

def validateToolReferences (manifest : MCPManifest) (tool : MCPTool) : Except Text Unit := do
  let label := tool.label platform
  ensure (manifest.serverIds.contains tool.requestMapping.serverRef)
    (label ++ (" references an unknown server" : Text))
  ensure (tool.securityProfileRef.all fun ref => ref = [] || manifest.authIds.contains ref)
    (label ++ (" references an unknown auth profile" : Text))

def validateToolSchemas (tool : MCPTool) : Except Text Unit := do
  let label := tool.label platform
  ensure (isObjectSchema tool.inputSchema) (label ++ (" input schema must be object-shaped" : Text))
  ensure (tool.outputSchema.all isObjectSchema) (label ++ (" output schema must be object-shaped" : Text))
  validateLocalSchemaReferences platform tool.inputSchema (label ++ (" input schema" : Text))
  forM tool.outputSchema.toList fun schema =>
    validateLocalSchemaReferences platform schema (label ++ (" output schema" : Text))
  forM tool.responses fun response => forM response.schema.toList fun schema =>
    validateLocalSchemaReferences platform schema (label ++ (" response schema" : Text))

/-- The values that occur more than once, in the order of their first occurrence. -/
def repeated {α : Type} [DecidableEq α] (values : List α) : List α :=
  (values.filter fun value => 1 < values.count value).reverse.dedup.reverse

theorem repeated_eq_nil {α : Type} [DecidableEq α] {values : List α} : repeated values = [] ↔ values.Nodup := by
  simp only [repeated, List.reverse_eq_nil_iff, List.dedup_eq_nil, List.filter_eq_nil_iff, decide_eq_true_eq,
    not_lt, List.nodup_iff_count_le_one]
  constructor
  · intro once value
    by_cases member : value ∈ values
    · exact once value member
    · rw [List.count_eq_zero_of_not_mem member]
      exact Nat.zero_le 1
  · exact fun once value _ => once value

def mappedFields (mapping : RequestMapping) : List Text :=
  mapping.parameters.map ParameterMapping.toolField ++ mapping.body.toList.map RequestBodyMapping.toolField

/-- Where a parameter goes. -/
def destination (parameter : ParameterMapping) : ParameterTarget × Text :=
  (parameter.target, parameter.sourceName.lower platform.unicode)

def validateMappedFields (tool : MCPTool) : Except Text Unit := do
  let label := tool.label platform
  let fields := mappedFields tool.requestMapping
  ensure (repeated fields = [])
    (label ++ (" maps fields more than once: " : Text) ++ Text.reprList platform.unicode (repeated fields))
  let destinations := repeated (tool.requestMapping.parameters.map (destination platform))
  ensure (destinations = [])
    (label ++ (" maps destinations more than once: " : Text) ++
      Text.reprList platform.unicode (destinations.map fun (target, name) => target.value ++ ':' :: name))

/-- The dictionary of the properties, which is empty when there is none. -/
def schemaProperties (schema : JsonObject) : Option JsonObject :=
  match Json.get schema "properties" with
  | none => some []
  | some (.object properties) => some properties
  | some _ => none

def validateParameter (tool : MCPTool) (properties : JsonObject) (parameter : ParameterMapping) :
    Except Text Unit := do
  let label := tool.label platform
  ensure (Json.get properties parameter.toolField).isSome
    (label ++ (" maps absent schema field " : Text) ++ parameter.toolField.repr platform.unicode)
  let placeholder : Text := '{' :: parameter.sourceName ++ ['}']
  ensure (!(parameter.target = .path && !tool.requestMapping.path.includes placeholder))
    (label ++ (" path is missing " : Text) ++ placeholder)
  ensure (!(parameter.target = .header &&
      forbiddenCallerHeaders.contains (parameter.sourceName.lower platform.unicode)))
    (label ++ (" maps a forbidden caller header" : Text))
  let simple := parameter.style = none || parameter.style = some ("simple" : Text)
  ensure (!(parameter.target = .path && !simple)) (label ++ (" has unsupported path serialization" : Text))
  ensure (!(parameter.target = .header && !simple)) (label ++ (" has unsupported header serialization" : Text))
  ensure (!(parameter.target ≠ .query && parameter.allowReserved))
    ("allow_reserved is valid only for query parameters" : Text)

def pathSources (mapping : RequestMapping) : List Text :=
  (mapping.parameters.filter (·.target = .path)).map ParameterMapping.sourceName

def validateToolMapping (tool : MCPTool) : Except Text Unit := do
  let label := tool.label platform
  let mapping := tool.requestMapping
  validateOperationPath mapping.path
  validateMappedFields platform tool
  let properties ← obtain? (schemaProperties tool.inputSchema)
    (label ++ (" schema properties must be an object" : Text))
  let unmapped := Text.sorted ((properties.map Prod.fst).filter fun field => !(mappedFields mapping).contains field)
  ensure (unmapped = [])
    (label ++ (" has unmapped input fields: " : Text) ++ Text.reprList platform.unicode unmapped)
  forM mapping.parameters (validateParameter platform tool properties)
  let unresolved ← pathParameterNames mapping.path
  ensure (unresolved.all (pathSources mapping).contains && (pathSources mapping).all unresolved.contains)
    (label ++ (" path placeholders do not match mappings" : Text))
  forM mapping.body.toList fun body => do
    ensure (Json.get properties body.toolField).isSome
      (label ++ (" maps absent body field " : Text) ++ body.toolField.repr platform.unicode)
    ensure (decide (body.multipartFiles.map MultipartFileMapping.contentField).Nodup)
      (label ++ (" has duplicate multipart file mappings" : Text))

def validateTool (manifest : MCPManifest) (tool : MCPTool) : Except Text Unit := do
  validateToolReferences platform manifest tool
  validateToolSchemas platform tool
  validateToolMapping platform tool

/-! ## The contract -/

def validateUnique (label : Text) (values : List Text) : Except Text Unit :=
  let duplicates := Text.sorted (repeated values)
  ensure (duplicates = [])
    (("manifest contains duplicate " : Text) ++ label ++ (": " : Text) ++ Text.reprList platform.unicode duplicates)

def validateManifestContract (manifest : MCPManifest) (runtimeVersion : Text) : Except Text Unit := do
  validateRuntimeCompatibility platform manifest.runtimeCompatibility runtimeVersion
  validateUnique platform "server ids" manifest.serverIds
  validateUnique platform "auth profile ids" manifest.authIds
  validateUnique platform "tool names" manifest.toolNames
  validateUnique platform "resource URIs" (manifest.resources.map MCPResource.uri)
  let serverHosts ← manifest.servers.mapM (serverHost platform)
  let allowedHosts ← manifest.security.allowedUpstreamHosts.mapM (normalizeAllowedHost platform)
  ensure (allowedHosts.all serverHosts.contains && serverHosts.all allowedHosts.contains)
    ("manifest upstream host allowlist must match configured API servers" : Text)
  forM manifest.tools (validateTool platform manifest)

end

end Mcplica.Contracts
