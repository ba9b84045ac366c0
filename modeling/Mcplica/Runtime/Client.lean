import Mcplica.Runtime.Requests

/-! # Sending a request

`ApiClient.execute` up to the request that goes out: the query is appended to the URL and one of the three bodies is
handed to `httpx`. -/

namespace Mcplica.Runtime

open Mcplica.Library Mcplica.Contracts

/-- What `httpx` makes of the bodies it is given. -/
structure Httpx where
  /-- `json.dumps` -/
  dumps : Json → Text
  multipart : List MultipartPart → List Nat

/-- The body of `build_request(json=value)`; `None` is the default of the argument and sends none. -/
def Httpx.json (httpx : Httpx) : Json → Option (List Nat)
  | .null => none
  | value => some (Text.utf8 (httpx.dumps value))

def quotePlus (text : Text) : Text :=
  (Text.quote " " text).map fun character => if character = ' ' then '+' else character

def urlencode (fields : List (Text × Text)) : Text :=
  Text.join "&" (fields.map fun (name, value) => quotePlus name ++ '=' :: quotePlus value)

structure OutboundRequest where
  method : Text
  url : Text
  headers : List (Text × Text)
  content : Option (List Nat)

/-- `json_body` is `None` when it was never set. -/
def BuiltRequest.outbound (httpx : Httpx) (request : BuiltRequest) : OutboundRequest where
  method := request.method
  url := appendQuery request.url request.query
  headers := request.headers
  content :=
    match request.multipartBody, request.formBody with
    | some parts, _ => some (httpx.multipart parts)
    | none, some fields => some (Text.utf8 (urlencode fields))
    | none, none => httpx.json (request.jsonBody.getD .null)

structure ApiClient where
  policy : UpstreamUrlPolicy
  maxRequestBytes : Nat
  /-- The addresses that the name server gives for the host of a URL are allowed. -/
  addressesAllowed : Text → Except Text Unit

/-- `execute` up to `client.send`: the request that is sent. -/
def ApiClient.send (platform : Platform) (httpx : Httpx) (client : ApiClient) (request : BuiltRequest)
    (maxRequestBytes : Nat) : Except Text OutboundRequest := do
  let _ ← client.policy.assertUrlIsAllowlisted platform request.url
  client.addressesAllowed request.url
  let outbound := request.outbound httpx
  ensure (outbound.content.all fun content => content.length ≤ min client.maxRequestBytes maxRequestBytes)
    ("The upstream request exceeded its configured limit" : Text)
  return outbound

/-! ## The query -/

/-- The pairs of a query: pieces between the ampersands, each cut at its first equals sign. -/
def queryPairs (query : Text) : List (Text × Text) :=
  (query.splitOn '&').map fun piece =>
    (Text.unquote (Text.partition '=' piece).1, Text.unquote ((Text.partition '=' piece).2.getD []))

/-- The characters that separate the parts of a query are encoded in every name and value. -/
theorem not_mem_quote_separator {separator : Char} (isSeparator : separator = '&' ∨ separator = '#') (allowReserved : Bool)
    (text : Text) : separator ∉ Text.quote (if allowReserved then reservedSafe else []) text := by
  rcases isSeparator with rfl | rfl
  · cases allowReserved <;> exact Text.not_mem_quote (by decide) (by decide) (by decide)
  · cases allowReserved <;> exact Text.not_mem_quote (by decide) (by decide) (by decide)

theorem unquote_quote_reserved (allowReserved : Bool) (text : Text) :
    Text.unquote (Text.quote (if allowReserved then reservedSafe else []) text) = text := by
  cases allowReserved <;> exact Text.unquote_quote (by decide) (by decide) text

variable {parameter : QueryParameter}

theorem not_mem_encodeQueryParameter {separator : Char} (isSeparator : separator = '&' ∨ separator = '#') :
    separator ∉ encodeQueryParameter parameter := by
  unfold encodeQueryParameter
  rw [List.mem_append, List.mem_cons, not_or, not_or]
  refine ⟨not_mem_quote_separator isSeparator false parameter.name, ?_,
    not_mem_quote_separator isSeparator parameter.allowReserved parameter.value⟩
  rcases isSeparator with rfl | rfl <;> decide

theorem partition_encodeQueryParameter : Text.partition '=' (encodeQueryParameter parameter) =
    (Text.quote [] parameter.name, some (Text.quote (if parameter.allowReserved then reservedSafe else []) parameter.value)) :=
  Text.partition_append_cons (Text.not_mem_quote (by decide) (by decide) (by decide)) _

theorem queryPairs_encoded {parameters : List QueryParameter} (some_ : parameters ≠ []) :
    queryPairs (Text.join "&" (parameters.map encodeQueryParameter)) =
      parameters.map fun parameter => (parameter.name, parameter.value) := by
  have pieces : (Text.join "&" (parameters.map encodeQueryParameter)).splitOn '&' = parameters.map encodeQueryParameter := by
    refine List.splitOn_intercalate '&' ?_ (by simpa using some_)
    intro piece member
    obtain ⟨parameter, -, rfl⟩ := List.mem_map.mp member
    exact not_mem_encodeQueryParameter (.inl rfl)
  rw [queryPairs, pieces, List.map_map]
  refine List.map_congr_left fun parameter _ => ?_
  have name := unquote_quote_reserved false parameter.name
  have value := unquote_quote_reserved parameter.allowReserved parameter.value
  simp only [Function.comp_apply, partition_encodeQueryParameter, Option.getD_some]
  rw [value]
  exact congrArg (·, parameter.value) name

/-- The query of a URL gives back the parameters it was made from, in order, whatever their names and values are. -/
theorem query_of_appendQuery (url : Text) (parameters : List QueryParameter) (noQuery : '?' ∉ url) (noFragment : '#' ∉ url) :
    (Text.partition '?' (appendQuery url parameters)).1 = url ∧
      ((Text.partition '?' (appendQuery url parameters)).2.elim [] queryPairs =
        parameters.map fun parameter => (parameter.name, parameter.value)) ∧
      '#' ∉ appendQuery url parameters := by
  unfold appendQuery
  by_cases none_ : parameters = []
  · subst none_
    show (Text.partition '?' url).1 = url ∧ (Text.partition '?' url).2.elim [] queryPairs = [] ∧ '#' ∉ url
    rw [Text.partition_of_not_mem noQuery]
    exact ⟨rfl, rfl, noFragment⟩
  · rw [if_neg (by simpa using none_), Text.partition_append_cons noQuery]
    refine ⟨rfl, queryPairs_encoded none_, ?_⟩
    rw [List.mem_append, List.mem_cons, not_or, not_or]
    refine ⟨noFragment, by decide, ?_⟩
    intro member
    rcases Text.mem_join member with inSeparator | ⟨piece, isPiece, inPiece⟩
    · revert inSeparator
      decide
    · obtain ⟨parameter, -, rfl⟩ := List.mem_map.mp isPiece
      exact not_mem_encodeQueryParameter (.inr rfl) inPiece

/-- Delimiters in a name and, with reserved characters allowed, in a value. -/
theorem query_of_delimiters :
    (Text.partition '?' (appendQuery "https://api.example.com/pets" [⟨"a&b", "c=d#e?f%26", true⟩, ⟨"a&b", "é+/", false⟩])).2.elim []
      queryPairs = [(("a&b" : Text), ("c=d#e?f%26" : Text)), ("a&b", "é+/")] :=
  (query_of_appendQuery "https://api.example.com/pets" [⟨"a&b", "c=d#e?f%26", true⟩, ⟨"a&b", "é+/", false⟩]
    (by decide) (by decide)).2.1

/-! ## The JSON body -/

section Body

variable {platform : Platform} {httpx : Httpx} {client : ApiClient} {tool : MCPTool} {arguments : JsonObject}
  {policy : UpstreamUrlPolicy} {auth : AuthInjection} {request : BuiltRequest} {outbound : OutboundRequest}
  {mapping : RequestBodyMapping} {value : Json}

theorem outbound_of_send {maxRequestBytes : Nat} (sent : client.send platform httpx request maxRequestBytes = .ok outbound) :
    outbound = request.outbound httpx := by
  simp only [ApiClient.send, bind_eq_ok, ensure_eq_ok] at sent
  obtain ⟨-, -, -, -, -, -, same⟩ := sent
  exact (Except.ok.inj same).symm

theorem buildBody_json (isJson : mapping.mediaType = .json) (given : Json.get arguments mapping.toolField = some value) :
    buildBody platform arguments (some mapping) =
      .ok { jsonBody := some value, contentType := some SupportedMediaType.json.value } := by
  simp only [buildBody, given, isJson]

/-- A request carries the bodies that `buildBody` makes. -/
theorem bodies_of_buildRequest {body : RequestBody} (isBody : buildBody platform arguments tool.requestMapping.body = .ok body)
    (built : buildRequest platform tool arguments policy auth = .ok request) :
    request.jsonBody = body.jsonBody ∧ request.formBody = body.formBody ∧ request.multipartBody = body.multipartBody := by
  simp only [buildRequest, bind_eq_ok] at built
  obtain ⟨_, _, parts, _, _, _, other, isOther, ⟨headers, query⟩, _, url, _, same⟩ := built
  cases isBody.symm.trans isOther
  cases same
  exact ⟨rfl, rfl, rfl⟩

/-- A value that a JSON body mapping takes is the body of the request, unless it is `null`: `None` says both that there
is no body and that the body is `null`. -/
theorem json_body_sent_iff {maxRequestBytes : Nat} (hasBody : tool.requestMapping.body = some mapping)
    (isJson : mapping.mediaType = .json) (given : Json.get arguments mapping.toolField = some value)
    (built : buildRequest platform tool arguments policy auth = .ok request)
    (sent : client.send platform httpx request maxRequestBytes = .ok outbound) :
    outbound.content = some (Text.utf8 (httpx.dumps value)) ↔ value ≠ .null := by
  have isBody : buildBody platform arguments tool.requestMapping.body =
      .ok { jsonBody := some value, contentType := some SupportedMediaType.json.value } := by
    rw [hasBody]
    exact buildBody_json isJson given
  obtain ⟨jsonBody, formBody, multipartBody⟩ := bodies_of_buildRequest isBody built
  have content : outbound.content = httpx.json value := by
    rw [outbound_of_send sent, BuiltRequest.outbound, jsonBody, formBody, multipartBody]
    rfl
  rw [content]
  cases value <;> simp [Httpx.json]

end Body

def createTool : MCPTool where
  name := "create"
  title := "create"
  description := "Create"
  inputSchema := []
  operationKey := "create"
  requestMapping := { serverRef := "main", method := .post, path := "/pets", body := some {} }

def createPolicy : UpstreamUrlPolicy where
  origins := [("main", ⟨"https", "api.example.com", 443, []⟩)]
  allowedPrivateHosts := []
  allowedDevelopmentHosts := []

/-- What is sent for a body: the outcome of building the request and of sending it. -/
def sentBody (body : Json) : Except Text (Option (List Nat)) := do
  let request ← buildRequest plainPlatform createTool [("body", body)] createPolicy {}
  let outbound ← ApiClient.send plainPlatform ⟨Json.canonical, fun _ => []⟩ ⟨createPolicy, 1000, fun _ => .ok ()⟩ request 1000
  return outbound.content

/-- A body that is `null` is not sent. -/
theorem null_body_not_sent :
    ¬ ∀ (platform : Platform) (httpx : Httpx) (client : ApiClient) (tool : MCPTool) (arguments : JsonObject)
      (policy : UpstreamUrlPolicy) (auth : AuthInjection) (request : BuiltRequest) (outbound : OutboundRequest)
      (mapping : RequestBodyMapping) (value : Json) (maxRequestBytes : Nat), tool.requestMapping.body = some mapping →
      mapping.mediaType = .json → Json.get arguments mapping.toolField = some value →
      buildRequest platform tool arguments policy auth = .ok request →
      client.send platform httpx request maxRequestBytes = .ok outbound →
      outbound.content = some (Text.utf8 (httpx.dumps value)) := by
  intro always
  have sent : sentBody .null = .ok none := by decide +kernel
  simp only [sentBody, bind_eq_ok] at sent
  obtain ⟨request, built, outbound, isSent, same⟩ := sent
  have content := always _ _ _ _ _ _ _ _ _ {} .null _ rfl rfl rfl built isSent
  rw [Except.ok.inj same] at content
  cases content

/-- A body that is `false` is sent. -/
theorem false_body_sent : ∃ request outbound,
    buildRequest plainPlatform createTool [("body", .bool false)] createPolicy {} = .ok request ∧
      ApiClient.send plainPlatform ⟨Json.canonical, fun _ => []⟩ ⟨createPolicy, 1000, fun _ => .ok ()⟩ request 1000 =
        .ok outbound ∧
      outbound.content = some (Text.utf8 "false") := by
  have sent : (sentBody (.bool false)).isOk = true := by decide +kernel
  obtain ⟨content, isContent⟩ := exists_ok_of_isOk sent
  simp only [sentBody, bind_eq_ok] at isContent
  obtain ⟨request, built, outbound, isSent, -⟩ := isContent
  have hasBody : createTool.requestMapping.body = some ({} : RequestBodyMapping) := rfl
  have given : Json.get [("body", .bool false)] ({} : RequestBodyMapping).toolField = some (.bool false) := rfl
  exact ⟨request, outbound, built, isSent, (json_body_sent_iff hasBody rfl given built isSent).mpr (by simp)⟩

end Mcplica.Runtime
