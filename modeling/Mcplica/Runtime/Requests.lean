import Mcplica.Runtime.Policy

/-! # Building a request

`build_request`: the arguments of a call become the path, the query, the headers and the body of the upstream
request, and the authentication is added last. -/

namespace Mcplica.Runtime

open Mcplica.Library Mcplica.Contracts

structure MultipartPart where
  name : Text
  content : List Nat
  filename : Option Text := none
  contentType : Option Text := none

structure BuiltRequest where
  method : Text
  url : Text
  headers : List (Text × Text)
  query : List QueryParameter
  jsonBody : Option Json := none
  formBody : Option (List (Text × Text)) := none
  multipartBody : Option (List MultipartPart) := none

structure AuthInjection where
  headers : List (Text × Text) := []
  query : List (Text × Text) := []

section

variable (platform : Platform)

/-! ## Values -/

mutual

/-- `repr` of a JSON value in Python. -/
def pythonRepr : Json → Text
  | .null => "None"
  | .bool true => "True"
  | .bool false => "False"
  | .number _ literal => literal
  | .string value => value.repr platform.unicode
  | .array items => ("[" : Text) ++ Text.join ", " (pythonReprItems items) ++ ("]" : Text)
  | .object fields => Char.ofNat 0x7b :: Text.join ", " (pythonReprFields fields) ++ [Char.ofNat 0x7d]

def pythonReprItems : List Json → List Text
  | [] => []
  | item :: rest => pythonRepr item :: pythonReprItems rest

def pythonReprFields : JsonObject → List Text
  | [] => []
  | (key, value) :: rest => (key.repr platform.unicode ++ (": " : Text) ++ pythonRepr value) :: pythonReprFields rest

end

/-- `str` of a JSON value in Python. -/
def pythonStr : Json → Text
  | .string value => value
  | value => pythonRepr platform value

def scalar (field : Text) : Json → Except Text Text
  | .null => .ok []
  | .bool true => .ok "true"
  | .bool false => .ok "false"
  | .string value => .ok value
  | .number _ literal => .ok literal
  | .array _ | .object _ =>
    .error (("Field " : Text) ++ field.repr platform.unicode ++ (" cannot be serialized as a scalar" : Text))

def arrayValues (field : Text) (items : List Json) : Except Text (List Text) :=
  items.mapM (scalar platform field)

def objectValues (field : Text) (fields : JsonObject) : Except Text (List (Text × Text)) :=
  (Text.sortedBy Prod.fst fields).mapM fun (name, value) => do
    let text ← scalar platform field value
    return (name, text)

/-- The style of a parameter and whether it is exploded. -/
def serialization (parameter : ParameterMapping) : Text × Bool :=
  let style := parameter.style.getD []
  if parameter.target = .query then (if style = [] then "form" else style, parameter.explode.getD true)
  else (if style = [] then "simple" else style, parameter.explode.getD false)

def encodePathValue (text : Text) : Except Text Text := do
  ensure (!(text = "." || text = ".." || Text.includesAny text lineBreaks))
    ("Path parameter contains an unsafe value" : Text)
  return Text.quote [] text

/-- The components of all pairs, one after another. -/
def flattened (items : List (Text × Text)) : List Text :=
  items.flatMap fun (name, value) => [name, value]

def pathValue (parameter : ParameterMapping) (value : Json) : Except Text Text := do
  let (style, explode) := serialization parameter
  ensure (style = "simple") ("Path parameters support only simple serialization" : Text)
  match value with
  | .array items => do
    let texts ← items.mapM fun item => encodePathValue (pythonStr platform item)
    return Text.join "," texts
  | .object fields => do
    let items ← objectValues platform parameter.toolField fields
    if explode then
      let texts ← items.mapM fun (name, item) => do
        let name ← encodePathValue name
        let item ← encodePathValue item
        return name ++ '=' :: item
      return Text.join "," texts
    else
      let texts ← (flattened items).mapM encodePathValue
      return Text.join "," texts
  | value => do
    let text ← scalar platform parameter.toolField value
    encodePathValue text

def styleDelimiter (style : Text) : Option Text :=
  if style = "form" then some ","
  else if style = "spaceDelimited" then some " "
  else if style = "pipeDelimited" then some "|"
  else none

def queryValues (parameter : ParameterMapping) (value : Json) : Except Text (List QueryParameter) :=
  let (style, explode) := serialization parameter
  let made (name value : Text) : QueryParameter := ⟨name, value, parameter.allowReserved⟩
  match value with
  | .array items => do
    let values ← arrayValues platform parameter.toolField items
    if style = "form" && explode then return values.map (made parameter.sourceName)
    else
      let delimiter ← obtain? (styleDelimiter style) ("Array query parameter uses an unsupported style" : Text)
      return [made parameter.sourceName (Text.join delimiter values)]
  | .object fields => do
    let items ← objectValues platform parameter.toolField fields
    if style = "deepObject" then
      return items.map fun (key, item) => made (parameter.sourceName ++ '[' :: key ++ [']']) item
    else if style = "form" && explode then return items.map fun (key, item) => made key item
    else
      let delimiter ← obtain? (styleDelimiter style) ("Object query parameter uses an unsupported style" : Text)
      return [made parameter.sourceName (Text.join delimiter (flattened items))]
  | value => do
    ensure (styleDelimiter style).isSome ("Scalar query parameter uses an unsupported style" : Text)
    let text ← scalar platform parameter.toolField value
    return [made parameter.sourceName text]

def headerValue (parameter : ParameterMapping) (value : Json) : Except Text Text := do
  let (style, explode) := serialization parameter
  ensure (style = "simple") ("Header parameters support only simple serialization" : Text)
  match value with
  | .array items => do
    let values ← arrayValues platform parameter.toolField items
    return Text.join "," values
  | .object fields => do
    let items ← objectValues platform parameter.toolField fields
    if explode then return Text.join "," (items.map fun (name, item) => name ++ '=' :: item)
    else return Text.join "," (flattened items)
  | value => scalar platform parameter.toolField value

def validateHeader (name value : Text) : Except Text Unit := do
  ensure (isHeaderName name) ("Manifest contains an invalid header name" : Text)
  ensure (!Text.includesAny value lineBreaks) ("Header value contains forbidden characters" : Text)

/-! ## Parameters -/

/-- What the parameters read so far have made of the path, the query and the headers. -/
structure RequestParts where
  path : Text
  query : List QueryParameter
  headers : List (Text × Text)

def acceptHeader : Text × Text :=
  ("Accept", "application/json, text/plain;q=0.9, */*;q=0.1")

def placeholder (name : Text) : Text :=
  '{' :: name ++ ['}']

def addArgument (parts : RequestParts) (parameter : ParameterMapping) (value : Json) : Except Text RequestParts :=
  match parameter.target with
  | .path => do
    ensure (parts.path.includes (placeholder parameter.sourceName)) ("Manifest path mapping is inconsistent" : Text)
    let encoded ← pathValue platform parameter value
    return { parts with path := Text.replace (placeholder parameter.sourceName) encoded parts.path }
  | .query => do
    let values ← queryValues platform parameter value
    return { parts with query := parts.query ++ values }
  | .header => do
    ensure (!forbiddenCallerHeaders.contains (parameter.sourceName.lower platform.unicode))
      ("Caller-controlled security header is forbidden" : Text)
    let text ← headerValue platform parameter value
    validateHeader parameter.sourceName text
    return { parts with headers := parts.headers ++ [(parameter.sourceName, text)] }

def addParameter (arguments : JsonObject) (parts : RequestParts) (parameter : ParameterMapping) :
    Except Text RequestParts :=
  match Json.get arguments parameter.toolField with
  | none =>
    if parameter.required then
      .error (("Missing required field " : Text) ++ parameter.toolField.repr platform.unicode)
    else .ok parts
  | some value => addArgument platform parts parameter value

/-! ## Bodies -/

def formFields (body : Json) : Except Text (List (Text × Text)) :=
  match body with
  | .object fields => do
    let groups ← fields.mapM fun (name, value) => match value with
      | .array items => items.mapM fun item => do
        let text ← scalar platform name item
        return (name, text)
      | value => do
        let text ← scalar platform name value
        return [(name, text)]
    return groups.flatten
  | _ => .error "Form body must be an object"

def isMediaTypeCharacter (character : Char) : Bool :=
  character.isAlphanum || ("!#$&^_.+-" : Text).contains character

def isMediaType (text : Text) : Bool :=
  match Text.partition '/' text with
  | (type, some subtype) =>
    type ≠ [] && type.all isMediaTypeCharacter && subtype ≠ [] && subtype.all isMediaTypeCharacter
  | (_, none) => false

/-- A text of the body, or the default when no field names it. -/
def namedText (values : JsonObject) (field : Option Text) (default : Text) : Option Json :=
  match field with
  | some field => Json.get values field
  | none => some (.string default)

/-- The text, if it is one and passes the check. -/
def requireText (value : Option Json) (valid : Text → Bool) (error : Text) : Except Text Text :=
  match value with
  | some (.string text) => if valid text then .ok text else .error error
  | _ => .error error

def multipartFile (values : JsonObject) (mapping : MultipartFileMapping) :
    Except Text (Option (MultipartPart × List Text)) :=
  match Json.get values mapping.contentField with
  | none | some .null =>
    if mapping.required then
      .error (("Missing multipart file field " : Text) ++ mapping.contentField.repr platform.unicode)
    else .ok none
  | some (.string encoded) => do
    let content ← obtain? (Text.base64Decode encoded) ("Multipart file content is not valid base64" : Text)
    let filename ← requireText (namedText values mapping.filenameField mapping.defaultFilename) (· ≠ [])
      "Multipart filename must be non-empty text"
    ensure (!Text.includesAny filename (lineBreaks ++ ("/\\\"" : Text)))
      ("Multipart filename contains forbidden characters" : Text)
    let contentType ← requireText (namedText values mapping.contentTypeField mapping.defaultContentType) isMediaType
      "Multipart content type is invalid"
    let consumed := mapping.contentField :: (mapping.filenameField.toList ++ mapping.contentTypeField.toList).filter (· ≠ [])
    return some (⟨mapping.partName, content, some filename, some contentType⟩, consumed)
  | some _ => .error "Multipart file content must be base64 text"

def multipartParts (mapping : RequestBodyMapping) (body : Json) : Except Text (List MultipartPart) :=
  match body with
  | .object values => do
    let files ← mapping.multipartFiles.mapM (multipartFile platform values)
    let consumed := files.flatMap fun file => match file with
      | some (_, fields) => fields
      | none => []
    let groups ← (values.filter fun (name, _) => !consumed.contains name).mapM fun (name, value) => match value with
      | .array items => items.mapM fun item => do
        let text ← scalar platform name item
        return (⟨name, Text.utf8 text, none, none⟩ : MultipartPart)
      | value => do
        let text ← scalar platform name value
        return [⟨name, Text.utf8 text, none, none⟩]
    return files.filterMap (Option.map Prod.fst) ++ groups.flatten
  | _ => .error "Multipart body must be an object"

structure RequestBody where
  jsonBody : Option Json := none
  formBody : Option (List (Text × Text)) := none
  multipartBody : Option (List MultipartPart) := none
  /-- The `Content-Type` header, which is written here except for multipart bodies. -/
  contentType : Option Text := none

def buildBody (arguments : JsonObject) (mapping : Option RequestBodyMapping) : Except Text RequestBody :=
  match mapping with
  | none => .ok {}
  | some mapping =>
    match Json.get arguments mapping.toolField with
    | none =>
      if mapping.required then
        .error (("Missing required request body field " : Text) ++ mapping.toolField.repr platform.unicode)
      else .ok {}
    | some body =>
      match mapping.mediaType with
      | .json => .ok { jsonBody := some body, contentType := some SupportedMediaType.json.value }
      | .formUrlencoded => do
        let fields ← formFields platform body
        return { formBody := some fields, contentType := some SupportedMediaType.formUrlencoded.value }
      | .multipart => do
        let parts ← multipartParts platform mapping body
        return { multipartBody := some parts }

/-! ## Authentication -/

def conflict : Text := "Caller mapping conflicts with upstream authentication"

def addAuthHeader (headers : List (Text × Text)) (header : Text × Text) : Except Text (List (Text × Text)) := do
  validateHeader header.1 header.2
  ensure (!(headers.map fun existing => existing.1.lower platform.unicode).contains (header.1.lower platform.unicode))
    conflict
  return headers ++ [header]

def addAuthQuery (query : List QueryParameter) (parameter : Text × Text) : Except Text (List QueryParameter) := do
  ensure (!(query.map QueryParameter.name).contains parameter.1) conflict
  return query ++ [⟨parameter.1, parameter.2, false⟩]

/-- `_apply_auth` -/
def applyAuth (headers : List (Text × Text)) (query : List QueryParameter) (auth : AuthInjection) :
    Except Text (List (Text × Text) × List QueryParameter) := do
  let headers ← auth.headers.foldlM (addAuthHeader platform) headers
  let query ← auth.query.foldlM addAuthQuery query
  return (headers, query)

/-! ## The whole -/

def buildRequest (tool : MCPTool) (arguments : JsonObject) (policy : UpstreamUrlPolicy) (auth : AuthInjection) :
    Except Text BuiltRequest := do
  let mapping := tool.requestMapping
  let undeclared := (arguments.map Prod.fst).filter fun field => !(mappedFields mapping).contains field
  ensure undeclared.isEmpty
    (("Undeclared tool arguments are forbidden: " : Text) ++ Text.reprList platform.unicode (Text.sorted undeclared))
  let parts ← mapping.parameters.foldlM (addParameter platform arguments) ⟨mapping.path, [], [acceptHeader]⟩
  ensure (!(parts.path.contains '{' || parts.path.contains '}')) ("Not all path parameters were resolved" : Text)
  let body ← buildBody platform arguments mapping.body
  let bodyHeaders := body.contentType.toList.map fun contentType => (("Content-Type" : Text), contentType)
  let (headers, query) ← applyAuth platform (parts.headers ++ bodyHeaders) parts.query auth
  let url ← policy.resolve mapping.serverRef parts.path
  return {
    method := mapping.method.value
    url
    headers
    query
    jsonBody := body.jsonBody
    formBody := body.formBody
    multipartBody := body.multipartBody }

end

/-! ## Inversion -/

variable {platform : Platform}

/-- What one parameter can do. -/
inductive ParameterStep (platform : Platform) (arguments : JsonObject) (parts : RequestParts) (parameter : ParameterMapping) :
    RequestParts → Prop where
  | absent (missing : Json.get arguments parameter.toolField = none) (optional : parameter.required = false) :
      ParameterStep platform arguments parts parameter parts
  | path {value : Json} {encoded : Text} (given : Json.get arguments parameter.toolField = some value)
      (target : parameter.target = .path) (includes : parts.path.includes (placeholder parameter.sourceName) = true)
      (isEncoded : pathValue platform parameter value = .ok encoded) :
      ParameterStep platform arguments parts parameter
        { parts with path := Text.replace (placeholder parameter.sourceName) encoded parts.path }
  | query {value : Json} {values : List QueryParameter} (given : Json.get arguments parameter.toolField = some value)
      (target : parameter.target = .query) (isValues : queryValues platform parameter value = .ok values) :
      ParameterStep platform arguments parts parameter { parts with query := parts.query ++ values }
  | header {value : Json} {text : Text} (given : Json.get arguments parameter.toolField = some value)
      (target : parameter.target = .header)
      (allowed : forbiddenCallerHeaders.contains (parameter.sourceName.lower platform.unicode) = false)
      (isText : headerValue platform parameter value = .ok text)
      (valid : validateHeader parameter.sourceName text = .ok ()) :
      ParameterStep platform arguments parts parameter
        { parts with headers := parts.headers ++ [(parameter.sourceName, text)] }

theorem parameterStep_iff {arguments : JsonObject} {parts next : RequestParts} {parameter : ParameterMapping} :
    addParameter platform arguments parts parameter = .ok next ↔ ParameterStep platform arguments parts parameter next := by
  constructor
  · intro step
    unfold addParameter at step
    split at step
    · rename_i missing
      split at step
      · cases step
      · rename_i optional
        cases step
        exact .absent missing (by simpa using optional)
    · rename_i value given
      unfold addArgument at step
      split at step
      · rename_i target
        simp only [bind_eq_ok, ensure_eq_ok] at step
        obtain ⟨-, includes, encoded, isEncoded, same⟩ := step
        cases same
        exact .path given target includes isEncoded
      · rename_i target
        simp only [bind_eq_ok] at step
        obtain ⟨values, isValues, same⟩ := step
        cases same
        exact .query given target isValues
      · rename_i target
        simp only [bind_eq_ok, ensure_eq_ok] at step
        obtain ⟨-, allowed, text, isText, _, valid, same⟩ := step
        cases same
        exact .header given target (by simpa using allowed) isText valid
  · intro step
    cases step with
    | absent missing optional => simp [addParameter, missing, optional]
    | path given target includes isEncoded =>
      simp [addParameter, given, addArgument, target, includes, isEncoded, ensure, bind, Except.bind, pure, Except.pure]
    | query given target isValues =>
      simp [addParameter, given, addArgument, target, isValues, bind, Except.bind, pure, Except.pure]
    | header given target allowed isText valid =>
      simp only [addParameter, given, addArgument, target, bind_eq_ok, ensure_eq_ok]
      exact ⟨(), by rw [allowed]; rfl, _, isText, (), valid, rfl⟩

/-- The parts of a built request. -/
structure Built (platform : Platform) (tool : MCPTool) (arguments : JsonObject) (policy : UpstreamUrlPolicy)
    (auth : AuthInjection) (request : BuiltRequest) (parts : RequestParts) (body : RequestBody) : Prop where
  declared : ∀ field ∈ arguments.map Prod.fst, field ∈ mappedFields tool.requestMapping
  parameters : tool.requestMapping.parameters.foldlM (addParameter platform arguments)
    ⟨tool.requestMapping.path, [], [acceptHeader]⟩ = .ok parts
  complete : '{' ∉ parts.path ∧ '}' ∉ parts.path
  isBody : buildBody platform arguments tool.requestMapping.body = .ok body
  headers : auth.headers.foldlM (addAuthHeader platform) (parts.headers ++
    body.contentType.toList.map fun contentType => (("Content-Type" : Text), contentType)) = .ok request.headers
  query : auth.query.foldlM addAuthQuery parts.query = .ok request.query
  url : policy.resolve tool.requestMapping.serverRef parts.path = .ok request.url

theorem built_of_buildRequest {tool : MCPTool} {arguments : JsonObject} {policy : UpstreamUrlPolicy} {auth : AuthInjection}
    {request : BuiltRequest} (built : buildRequest platform tool arguments policy auth = .ok request) :
    ∃ parts body, Built platform tool arguments policy auth request parts body := by
  simp only [buildRequest, applyAuth, bind_eq_ok, ensure_eq_ok] at built
  obtain ⟨-, declared, parts, isParts, -, complete, body, isBody, ⟨headers, query⟩,
    ⟨merged, isMerged, mergedQuery, isMergedQuery, same⟩, url, isUrl, isRequest⟩ := built
  cases same
  cases isRequest
  refine ⟨parts, body, ?_, isParts, by simpa using complete, isBody, isMerged, isMergedQuery, isUrl⟩
  intro field member
  by_contra undeclared
  have listed : field ∈ (arguments.map Prod.fst).filter fun field => !(mappedFields tool.requestMapping).contains field :=
    List.mem_filter.mpr ⟨member, by simpa using undeclared⟩
  rw [List.isEmpty_iff.mp declared] at listed
  cases listed

end Mcplica.Runtime
