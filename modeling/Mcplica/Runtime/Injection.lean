import Mcplica.Runtime.Requests

/-! # Arguments and authentication

What a caller sends reaches the names and the values of headers and query parameters, but never those of the
upstream authentication. -/

namespace Mcplica.Runtime

open Mcplica.Library Mcplica.Contracts

variable {platform : Platform}

def headerNames (platform : Platform) (headers : List (Text × Text)) : List Text :=
  headers.map fun header => header.1.lower platform.unicode

/-- The headers of a request whose names the injection uses. -/
def authHeaders (platform : Platform) (auth : AuthInjection) (request : BuiltRequest) : List (Text × Text) :=
  request.headers.filter fun header => (headerNames platform auth.headers).contains (header.1.lower platform.unicode)

/-- The query parameters of a request whose names the injection uses. -/
def authQuery (auth : AuthInjection) (request : BuiltRequest) : List QueryParameter :=
  request.query.filter fun parameter => (auth.query.map Prod.fst).contains parameter.name

/-- The headers that are written whatever the caller sends. -/
def isFixedHeader (header : Text × Text) : Prop :=
  header = acceptHeader ∨ ∃ mediaType : SupportedMediaType, header = (("Content-Type" : Text), mediaType.value)

/-- The request carries the injection, every part of it once. -/
structure CarriesAuth (platform : Platform) (auth : AuthInjection) (request : BuiltRequest) : Prop where
  headers : authHeaders platform auth request = auth.headers
  headersOnce : (headerNames platform auth.headers).Nodup
  query : authQuery auth request = auth.query.map fun parameter => ⟨parameter.1, parameter.2, false⟩
  queryOnce : (auth.query.map Prod.fst).Nodup
  forbidden : ∀ header ∈ request.headers, forbiddenCallerHeaders.contains (header.1.lower platform.unicode) = true →
    header ∈ auth.headers ∨ isFixedHeader header

/-! ## Merging -/

structure HeadersMerged (platform : Platform) (before added after : List (Text × Text)) : Prop where
  result : after = before ++ added
  apart : ∀ name ∈ headerNames platform added, name ∉ headerNames platform before
  once : (headerNames platform added).Nodup

theorem headersMerged_of_foldlM {before after : List (Text × Text)} {added : List (Text × Text)}
    (ran : added.foldlM (addAuthHeader platform) before = .ok after) : HeadersMerged platform before added after := by
  refine foldlM_induction (fun read state => HeadersMerged platform before read state) ?_ ?_ ran
  · exact ⟨(List.append_nil before).symm, (fun _ member => by cases member), List.nodup_nil⟩
  · intro read state header next merged step
    simp only [addAuthHeader, check_bind_eq_ok, ensure_eq_ok] at step
    obtain ⟨-, fresh, same⟩ := step
    cases same
    have absent : header.1.lower platform.unicode ∉ headerNames platform (before ++ read) := by
      rw [merged.result] at fresh
      simpa [headerNames] using fresh
    simp only [headerNames, List.map_append, List.mem_append, not_or] at absent
    refine ⟨by rw [merged.result, List.append_assoc], ?_, ?_⟩
    · intro name member
      simp only [headerNames, List.map_append, List.mem_append, List.map_cons, List.map_nil, List.mem_singleton] at member
      rcases member with old | rfl
      · exact merged.apart name old
      · exact absent.1
    · simp only [headerNames, List.map_append, List.map_cons, List.map_nil]
      exact merged.once.append (List.nodup_singleton _) (by simpa [headerNames] using absent.2)

structure QueryMerged (before : List QueryParameter) (added : List (Text × Text)) (after : List QueryParameter) : Prop where
  result : after = before ++ added.map fun parameter => ⟨parameter.1, parameter.2, false⟩
  apart : ∀ name ∈ added.map Prod.fst, name ∉ before.map QueryParameter.name
  once : (added.map Prod.fst).Nodup

theorem queryMerged_of_foldlM {before after : List QueryParameter} {added : List (Text × Text)}
    (ran : added.foldlM addAuthQuery before = .ok after) : QueryMerged before added after := by
  refine foldlM_induction (fun read state => QueryMerged before read state) ?_ ?_ ran
  · exact ⟨(List.append_nil before).symm, (fun _ member => by cases member), List.nodup_nil⟩
  · intro read state parameter next merged step
    simp only [addAuthQuery, check_bind_eq_ok, ensure_eq_ok] at step
    obtain ⟨fresh, same⟩ := step
    cases same
    have absent : parameter.1 ∉ before.map QueryParameter.name ∧ parameter.1 ∉ read.map Prod.fst := by
      rw [merged.result] at fresh
      simpa [Function.comp_def] using fresh
    refine ⟨by rw [merged.result]; simp, ?_, ?_⟩
    · intro name member
      simp only [List.map_append, List.mem_append, List.map_cons, List.map_nil, List.mem_singleton] at member
      rcases member with old | rfl
      · exact merged.apart name old
      · exact absent.1
    · simp only [List.map_append, List.map_cons, List.map_nil]
      exact merged.once.append (List.nodup_singleton _) (by simpa using absent.2)

/-! ## The caller's headers -/

/-- No header of the parameters is one of the forbidden ones. -/
theorem callerHeaders_allowed {arguments : JsonObject} {parameters : List ParameterMapping} {path : Text}
    {parts : RequestParts}
    (ran : parameters.foldlM (addParameter platform arguments) ⟨path, [], [acceptHeader]⟩ = .ok parts) :
    ∀ header ∈ parts.headers, forbiddenCallerHeaders.contains (header.1.lower platform.unicode) = true →
      header = acceptHeader := by
  refine foldlM_induction (fun _ state => ∀ header ∈ RequestParts.headers state,
    forbiddenCallerHeaders.contains (header.1.lower platform.unicode) = true → header = acceptHeader) ?_ ?_ ran
  · intro header member _
    exact List.mem_singleton.mp member
  · intro _ state parameter next holds step
    cases parameterStep_iff.mp step with
    | absent | path | query => exact holds
    | header given target allowed isText valid =>
      intro header member isForbidden
      rcases List.mem_append.mp member with old | isNew
      · exact holds header old isForbidden
      · rw [List.mem_singleton.mp isNew, allowed] at isForbidden
        cases isForbidden

theorem buildBody_contentType {arguments : JsonObject} {mapping : Option RequestBodyMapping} {body : RequestBody}
    (built : buildBody platform arguments mapping = .ok body) {contentType : Text}
    (given : body.contentType = some contentType) : ∃ mediaType : SupportedMediaType, contentType = mediaType.value := by
  unfold buildBody at built
  split at built
  · cases built
    cases given
  · split at built
    · split at built
      · cases built
      · cases built
        cases given
    · split at built
      · cases built
        exact ⟨.json, (Option.some.inj given).symm⟩
      · simp only [bind_eq_ok] at built
        obtain ⟨_, -, same⟩ := built
        cases same
        exact ⟨.formUrlencoded, (Option.some.inj given).symm⟩
      · simp only [bind_eq_ok] at built
        obtain ⟨_, -, same⟩ := built
        cases same
        cases given

/-! ## Requests -/

theorem carriesAuth_of_built {tool : MCPTool} {arguments : JsonObject} {policy : UpstreamUrlPolicy} {auth : AuthInjection}
    {request : BuiltRequest} (built : buildRequest platform tool arguments policy auth = .ok request) :
    CarriesAuth platform auth request := by
  obtain ⟨parts, body, built⟩ := built_of_buildRequest built
  have headersMerged := headersMerged_of_foldlM built.headers
  have queryMerged := queryMerged_of_foldlM built.query
  refine ⟨?_, headersMerged.once, ?_, queryMerged.once, ?_⟩
  · unfold authHeaders
    rw [headersMerged.result, List.filter_append]
    refine (congrArg₂ _ (List.filter_eq_nil_iff.mpr ?_) (List.filter_eq_self.mpr ?_)).trans (List.nil_append _)
    · intro header member isAuth
      exact headersMerged.apart _ (List.contains_iff_mem.mp isAuth) (List.mem_map_of_mem member)
    · intro header member
      exact List.contains_iff_mem.mpr (List.mem_map_of_mem member)
  · unfold authQuery
    rw [queryMerged.result, List.filter_append]
    refine (congrArg₂ _ (List.filter_eq_nil_iff.mpr ?_) (List.filter_eq_self.mpr ?_)).trans (List.nil_append _)
    · intro parameter member isAuth
      exact queryMerged.apart _ (List.contains_iff_mem.mp isAuth) (List.mem_map_of_mem member)
    · intro parameter member
      obtain ⟨added, isAdded, rfl⟩ := List.mem_map.mp member
      exact List.contains_iff_mem.mpr (List.mem_map_of_mem isAdded)
  · intro header member isForbidden
    rw [headersMerged.result, List.mem_append, List.mem_append] at member
    rcases member with (fromCaller | fromBody) | fromAuth
    · exact .inr (.inl (callerHeaders_allowed built.parameters header fromCaller isForbidden))
    · obtain ⟨contentType, given, rfl⟩ := List.mem_map.mp fromBody
      obtain ⟨mediaType, rfl⟩ := buildBody_contentType built.isBody (Option.mem_toList.mp given)
      exact .inr (.inr ⟨mediaType, rfl⟩)
    · exact .inl fromAuth

/-- Two calls of a tool, with whatever arguments: both requests carry the injected headers and query parameters, each
exactly once, with the same values, and no other forbidden header. -/
theorem arguments_never_touch_authentication {tool : MCPTool} {policy : UpstreamUrlPolicy} {auth : AuthInjection}
    {first second : JsonObject} {left right : BuiltRequest}
    (builtFirst : buildRequest platform tool first policy auth = .ok left)
    (builtSecond : buildRequest platform tool second policy auth = .ok right) :
    CarriesAuth platform auth left ∧ CarriesAuth platform auth right ∧
      authHeaders platform auth left = authHeaders platform auth right ∧ authQuery auth left = authQuery auth right := by
  have carriesLeft := carriesAuth_of_built builtFirst
  have carriesRight := carriesAuth_of_built builtSecond
  refine ⟨carriesLeft, carriesRight, ?_, ?_⟩
  · rw [carriesLeft.headers, carriesRight.headers]
  · rw [carriesLeft.query, carriesRight.query]

/-! ## An exploded object beside an API key -/

def searchTool : MCPTool where
  name := "search"
  title := "search"
  description := "Search"
  inputSchema := []
  operationKey := "search"
  requestMapping := {
    serverRef := "main"
    method := .get
    path := "/pets"
    parameters := [{ toolField := "filter", sourceName := "filter", target := .query }] }

def searchPolicy : UpstreamUrlPolicy where
  origins := [("main", ⟨"https", "api.example.com", 443, []⟩)]
  allowedPrivateHosts := []
  allowedDevelopmentHosts := []

def searchAuth : AuthInjection where
  headers := [("X-Api-Key", "secret")]
  query := [("key", "secret")]

/-- The arguments of a search with one filter. -/
def filterBy (name value : Text) : JsonObject :=
  [("filter", .object [(name, .string value)])]

/-- A search whose filter is a query parameter of its own, and one without a filter. -/
theorem search_keeps_authentication :
    ∃ left right, buildRequest plainPlatform searchTool (filterBy "Key" "mine") searchPolicy searchAuth = .ok left ∧
      buildRequest plainPlatform searchTool [] searchPolicy searchAuth = .ok right ∧
      authHeaders plainPlatform searchAuth left = authHeaders plainPlatform searchAuth right ∧
      authQuery searchAuth left = authQuery searchAuth right := by
  have firstBuilds : (buildRequest plainPlatform searchTool (filterBy "Key" "mine") searchPolicy searchAuth).isOk = true := by
    decide +kernel
  have secondBuilds : (buildRequest plainPlatform searchTool [] searchPolicy searchAuth).isOk = true := by
    decide +kernel
  obtain ⟨left, isLeft⟩ := exists_ok_of_isOk firstBuilds
  obtain ⟨right, isRight⟩ := exists_ok_of_isOk secondBuilds
  obtain ⟨-, -, sameHeaders, sameQuery⟩ := arguments_never_touch_authentication isLeft isRight
  exact ⟨left, right, isLeft, isRight, sameHeaders, sameQuery⟩

end Mcplica.Runtime
