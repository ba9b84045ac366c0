import Mcplica.Contracts.Validation

/-! # Starting the runtime

What `build_app` constructs from a manifest: the policies for its servers and for its OAuth token
endpoints, and the tool executor. The contract does not check all that the constructors check, and the
main result says which manifests of those it accepts can be served. -/

namespace Mcplica.Runtime

open Mcplica.Library Mcplica.Contracts

/-! ## Upstream origins -/

structure AllowedOrigin where
  scheme : Text
  hostname : Text
  port : Nat
  basePath : Text

/-- `port` of a split URL with the default of its scheme; `none` where reading it raises. -/
def effectivePort (scheme : Text) : SplitResult.Port → Option Nat
  | .number value => some value
  | .absent => some (if scheme = "https" then 443 else 80)
  | .invalid => none

def isSafeBasePath (basePath : Text) : Bool :=
  !(basePath.unquote.contains '\\' || hasDotSegment basePath.unquote || hasEncodedSeparator basePath)

section

variable (platform : Platform)

def AllowedOrigin.fromUrl (value : Text) : Except Text AllowedOrigin := do
  let parsed ← obtain? (urlsplit platform.unicode value) ("Invalid IPv6 URL" : Text)
  ensure parsed.isHttp ("upstream URL must be absolute HTTP(S)" : Text)
  let hostname ← obtain? (parsed.hostname platform.unicode) ("upstream URL must be absolute HTTP(S)" : Text)
  ensure parsed.isBare ("upstream URL contains forbidden components" : Text)
  let port ← obtain? (effectivePort parsed.scheme parsed.port) ("upstream URL has an invalid port" : Text)
  let basePath := Text.stripEnd "/" parsed.path
  ensure (isSafeBasePath basePath) ("upstream base URL contains unsafe path segments" : Text)
  let hostname ← obtain? (normalizedHost platform.unicode hostname) ("label empty or too long" : Text)
  return ⟨parsed.scheme, hostname, port, basePath⟩

/-- The host lists of the secret bundle. Its validator has stored them normalized. -/
structure RuntimeNetworkPolicy where
  allowedPrivateHosts : List Text
  allowedDevelopmentHosts : List Text
  normalized : ∀ host ∈ allowedPrivateHosts ++ allowedDevelopmentHosts,
    (normalizedHost platform.unicode host).isSome = true

structure UpstreamUrlPolicy where
  origins : List (Text × AllowedOrigin)
  allowedPrivateHosts : List Text
  allowedDevelopmentHosts : List Text

def normalizeHosts (hosts : List Text) : Except Text (List Text) :=
  hosts.mapM fun host => obtain? (normalizedHost platform.unicode host) ("label empty or too long" : Text)

def namedOrigin (server : ServerDefinition) : Except Text (Text × AllowedOrigin) := do
  let origin ← AllowedOrigin.fromUrl platform server.url
  return (server.id, origin)

def UpstreamUrlPolicy.make (network : RuntimeNetworkPolicy platform) (servers : List ServerDefinition) :
    Except Text UpstreamUrlPolicy := do
  let origins ← servers.mapM (namedOrigin platform)
  -- The dictionary of the origins has an entry for every server.
  ensure (decide (servers.map ServerDefinition.id).Nodup) ("server identifiers must be unique" : Text)
  let privateHosts ← normalizeHosts platform network.allowedPrivateHosts
  let developmentHosts ← normalizeHosts platform network.allowedDevelopmentHosts
  return ⟨origins, privateHosts, developmentHosts⟩

/-! ## The executor -/

structure CompiledResponseDefinition where
  definition : ResponseDefinition
  /-- The schema of the validator, if there is one. -/
  validator : Option JsonObject

def responseIdentity (definition : ResponseDefinition) : Text × Option Text :=
  (definition.statusCode, definition.mediaType)

/-- The loop of `compile_response_contract` with the identities it has seen. -/
def compileResponses (tool : MCPTool) (identities : List (Text × Option Text)) :
    List ResponseDefinition → Except Text (List CompiledResponseDefinition)
  | [] => .ok []
  | definition :: rest => do
    ensure (!identities.contains (responseIdentity definition))
      (("Tool " : Text) ++ tool.name.repr platform.unicode ++ (" has duplicate response dispatch definitions" : Text))
    ensure (definition.schema.all fun schema => platform.checkSchema schema)
      (("Tool " : Text) ++ tool.name.repr platform.unicode ++ (" has an invalid response schema" : Text))
    let compiled ← compileResponses tool (responseIdentity definition :: identities) rest
    return ⟨definition, definition.schema⟩ :: compiled

def compileResponseContract (tool : MCPTool) : Except Text (List CompiledResponseDefinition) :=
  compileResponses platform tool [] tool.responses

structure PreparedTool where
  tool : MCPTool
  responses : List CompiledResponseDefinition

def prepareTool (tool : MCPTool) : Except Text PreparedTool := do
  ensure (platform.checkSchema tool.inputSchema)
    (("Tool " : Text) ++ tool.name.repr platform.unicode ++ (" has an invalid input schema" : Text))
  let responses ← compileResponseContract platform tool
  return ⟨tool, responses⟩

/-- `ToolExecutor.__init__`: the enabled tools, whose names are distinct, by name. -/
def prepareTools (manifest : MCPManifest) : Except Text (List PreparedTool) :=
  manifest.enabledTools.mapM (prepareTool platform)

/-! ## The application -/

def oauthTokenId (profile : AuthProfile) : Text :=
  ("oauth-token-" : Text) ++ profile.id

/-- The profiles whose token endpoint the runtime calls, each with the URL. -/
def tokenEndpoints (manifest : MCPManifest) : List (AuthProfile × Text) :=
  manifest.authProfiles.filterMap fun profile =>
    if profile.type = .oauth2ClientCredentials then profile.tokenUrl.map fun url => (profile, url) else none

structure RuntimeApp where
  apiPolicy : UpstreamUrlPolicy
  oauthPolicy : UpstreamUrlPolicy
  tools : List PreparedTool

def tokenServer (endpoint : AuthProfile × Text) : Except Text ServerDefinition :=
  ServerDefinition.make platform.urls (oauthTokenId endpoint.1) endpoint.2 none

def buildApp (network : RuntimeNetworkPolicy platform) (manifest : MCPManifest) : Except Text RuntimeApp := do
  let apiPolicy ← UpstreamUrlPolicy.make platform network manifest.servers
  let tokenServers ← (tokenEndpoints manifest).mapM (tokenServer platform)
  let oauthPolicy ← UpstreamUrlPolicy.make platform network (manifest.servers ++ tokenServers)
  let tools ← prepareTools platform manifest
  return ⟨apiPolicy, oauthPolicy, tools⟩

/-! ## What the constructors check -/

/-- What `AllowedOrigin.from_url` asks of a URL. -/
structure Reachable (url : Text) : Prop where
  split : ∃ parsed, urlsplit platform.unicode url = some parsed ∧ parsed.isHttp = true ∧ parsed.isBare = true ∧
    parsed.port ≠ .invalid ∧ isSafeBasePath (Text.stripEnd "/" parsed.path) = true ∧
    ∃ hostname, parsed.hostname platform.unicode = some hostname ∧
      (normalizedHost platform.unicode hostname).isSome = true

variable {platform}

theorem succeeds_fromUrl_iff {url : Text} :
    Succeeds (AllowedOrigin.fromUrl platform url) ↔ Reachable platform url := by
  simp only [AllowedOrigin.fromUrl, succeeds_bind, obtain?_eq_ok, ensure_eq_ok, succeeds_pure]
  constructor
  · rintro ⟨parsed, split, -, http, hostname, named, -, bare, port, valid, -, safe, host, normalized, -⟩
    refine ⟨parsed, split, http, bare, ?_, safe, hostname, named, by rw [normalized]; rfl⟩
    intro invalid
    rw [invalid] at valid
    cases valid
  · rintro ⟨parsed, split, http, bare, valid, safe, hostname, named, normalized⟩
    obtain ⟨host, isHost⟩ := Option.isSome_iff_exists.mp normalized
    have portRead : ∃ port, effectivePort parsed.scheme parsed.port = some port := by
      cases given : parsed.port with
      | absent => exact ⟨_, rfl⟩
      | number value => exact ⟨value, rfl⟩
      | invalid => exact absurd given valid
    obtain ⟨port, isPort⟩ := portRead
    exact ⟨parsed, split, (), http, hostname, named, (), bare, port, isPort, (), safe, host, isHost, trivial⟩

theorem succeeds_normalizeHosts {hosts : List Text}
    (normalized : ∀ host ∈ hosts, (normalizedHost platform.unicode host).isSome = true) :
    Succeeds (normalizeHosts platform hosts) := by
  refine succeeds_mapM.mpr fun host member => ?_
  simp [normalized host member]

theorem succeeds_policy_iff {network : RuntimeNetworkPolicy platform} {servers : List ServerDefinition} :
    Succeeds (UpstreamUrlPolicy.make platform network servers) ↔
      (∀ server ∈ servers, Reachable platform server.url) ∧ (servers.map ServerDefinition.id).Nodup := by
  have origins : Succeeds (servers.mapM (namedOrigin platform)) ↔
      ∀ server ∈ servers, Reachable platform server.url := by
    rw [succeeds_mapM]
    refine forall₂_congr fun server _ => ?_
    rw [← succeeds_fromUrl_iff, namedOrigin, succeeds_bind_pure]
  have privateHosts : Succeeds (normalizeHosts platform network.allowedPrivateHosts) :=
    succeeds_normalizeHosts fun host member => network.normalized host (List.mem_append_left _ member)
  have developmentHosts : Succeeds (normalizeHosts platform network.allowedDevelopmentHosts) :=
    succeeds_normalizeHosts fun host member => network.normalized host (List.mem_append_right _ member)
  simp only [UpstreamUrlPolicy.make, succeeds_bind, ensure_eq_ok, succeeds_pure, and_true, decide_eq_true_eq]
  rw [← origins]
  constructor
  · rintro ⟨named, isNamed, -, unique, -⟩
    exact ⟨⟨named, isNamed⟩, unique⟩
  · rintro ⟨⟨named, isNamed⟩, unique⟩
    exact ⟨named, isNamed, (), unique, privateHosts.imp fun _ ran => ⟨ran, developmentHosts⟩⟩

theorem succeeds_compileResponses_iff {tool : MCPTool} {identities : List (Text × Option Text)}
    {definitions : List ResponseDefinition} :
    Succeeds (compileResponses platform tool identities definitions) ↔
      (definitions.map responseIdentity).Nodup ∧ (∀ definition ∈ definitions, responseIdentity definition ∉ identities) ∧
      ∀ definition ∈ definitions, ∀ schema, definition.schema = some schema → platform.checkSchema schema = true := by
  induction definitions generalizing identities with
  | nil => simp [compileResponses]
  | cons definition rest ih =>
    have schemaChecked : (definition.schema.all fun schema => platform.checkSchema schema) = true ↔
        ∀ schema, definition.schema = some schema → platform.checkSchema schema = true := by
      cases definition.schema <;> simp
    simp only [compileResponses, succeeds_ensure_bind, succeeds_bind_pure, ih, schemaChecked,
      Bool.not_eq_true', List.contains_eq_mem, decide_eq_false_iff_not]
    simp only [List.map_cons, List.nodup_cons, List.forall_mem_cons, List.mem_map]
    simp only [List.mem_cons, not_or, forall_and]
    constructor
    · rintro ⟨fresh, checked, unique, ⟨different, others⟩, othersChecked⟩
      refine ⟨⟨?_, unique⟩, ⟨fresh, others⟩, checked, othersChecked⟩
      rintro ⟨other, member, same⟩
      exact different other member same
    · rintro ⟨⟨different, unique⟩, ⟨fresh, others⟩, checked, othersChecked⟩
      exact ⟨fresh, checked, unique, ⟨fun other member same => different ⟨other, member, same⟩, others⟩, othersChecked⟩

theorem succeeds_prepareTool_iff {tool : MCPTool} (input : platform.checkSchema tool.inputSchema = true)
    (responses : ∀ response ∈ tool.responses, ∀ schema, response.schema = some schema →
      platform.checkSchema schema = true) :
    Succeeds (prepareTool platform tool) ↔ (tool.responses.map responseIdentity).Nodup := by
  simp only [prepareTool, succeeds_ensure_bind, succeeds_bind_pure, compileResponseContract,
    succeeds_compileResponses_iff]
  constructor
  · rintro ⟨-, unique, -⟩
    exact unique
  · intro unique
    exact ⟨input, unique, fun _ _ => List.not_mem_nil, responses⟩

/-! ## What the contract guarantees -/

/-- The server URLs of an accepted manifest can only fail in their port and their path. -/
theorem reachable_of_serverHost {server : ServerDefinition} (checked : Succeeds (serverHost platform server)) :
    Reachable platform server.url ↔ ∀ parsed, urlsplit platform.unicode server.url = some parsed →
      parsed.port ≠ .invalid ∧ isSafeBasePath (Text.stripEnd "/" parsed.path) = true := by
  simp only [serverHost, succeeds_bind, obtain?_eq_ok, ensure_eq_ok, succeeds_obtain?] at checked
  obtain ⟨parsed, split, -, http, hostname, named, -, bare, normalized⟩ := checked
  constructor
  · rintro ⟨other, otherSplit, -, -, port, safe, -⟩ again same
    rw [otherSplit, Option.some.injEq] at same
    exact same ▸ ⟨port, safe⟩
  · intro sound
    obtain ⟨port, safe⟩ := sound parsed split
    exact ⟨parsed, split, http, bare, port, safe, hostname, named, normalized⟩

theorem serverHosts_of_contract {manifest : MCPManifest} {runtimeVersion : Text}
    (contract : validateManifestContract platform manifest runtimeVersion = .ok ()) :
    ∀ server ∈ manifest.servers, Succeeds (serverHost platform server) := by
  simp only [validateManifestContract, bind_eq_ok] at contract
  obtain ⟨-, -, -, -, -, -, -, -, -, -, hosts, ran, -⟩ := contract
  exact succeeds_mapM.mp ⟨hosts, ran⟩

theorem unique_ids_of_accepted {manifest : MCPManifest}
    (accepted : manifest.Accepted platform.unicode platform.urls) :
    manifest.serverIds.Nodup ∧ manifest.authIds.Nodup := by
  have references := accepted.references
  simp only [MCPManifest.validateReferences, bind_eq_ok, ensure_eq_ok, decide_eq_true_eq] at references
  obtain ⟨-, servers, -, profiles, -⟩ := references
  exact ⟨servers, profiles⟩

/-! ## Token endpoints -/

theorem oauthTokenId_injective {left right : AuthProfile} (same : oauthTokenId left = oauthTokenId right) :
    left.id = right.id :=
  List.append_cancel_left same

theorem nodup_tokenIds {manifest : MCPManifest} (unique : manifest.authIds.Nodup) :
    ((tokenEndpoints manifest).map fun endpoint => oauthTokenId endpoint.1).Nodup := by
  have apart : manifest.authProfiles.Pairwise fun left right => left.id ≠ right.id := List.pairwise_map.mp unique
  refine List.pairwise_map.mpr (apart.filterMap _ ?_)
  intro left right different first isFirst second isSecond same
  have owner : ∀ {profile : AuthProfile} {endpoint : AuthProfile × Text},
      (if profile.type = .oauth2ClientCredentials then profile.tokenUrl.map fun url => (profile, url) else none) =
        some endpoint → endpoint.1 = profile := by
    intro profile endpoint isEndpoint
    split at isEndpoint
    · obtain ⟨url, -, rfl⟩ := Option.map_eq_some_iff.mp isEndpoint
      rfl
    · cases isEndpoint
  apply different
  rw [← owner isFirst, ← owner isSecond]
  exact oauthTokenId_injective same

theorem tokenServers_succeed {manifest : MCPManifest}
    (accepted : manifest.Accepted platform.unicode platform.urls) :
    ∃ servers, (tokenEndpoints manifest).mapM (tokenServer platform) = .ok servers := by
  refine succeeds_mapM.mpr fun endpoint member => ?_
  obtain ⟨profile, profileMember, isEndpoint⟩ := List.mem_filterMap.mp member
  split at isEndpoint
  · obtain ⟨url, given, rfl⟩ := Option.map_eq_some_iff.mp isEndpoint
    obtain ⟨value, parsed⟩ := (accepted.authProfiles profile profileMember).2 url given
    simp only [tokenServer, ServerDefinition.make, succeeds_bind_pure, succeeds_obtain?]
    exact platform.urls.reparses parsed
  · cases isEndpoint

/-! ## Which manifests start -/

/-- What the contract leaves open. -/
structure Startable (platform : Platform) (manifest : MCPManifest) : Prop where
  /-- The path of a server has no backslash, dot segment or encoded separator, and its port is one. -/
  servers : ∀ server ∈ manifest.servers, ∀ parsed, urlsplit platform.unicode server.url = some parsed →
    parsed.port ≠ .invalid ∧ isSafeBasePath (Text.stripEnd "/" parsed.path) = true
  /-- Token endpoints meet all that is asked of servers. -/
  tokenUrls : ∀ endpoint ∈ tokenEndpoints manifest, ∀ url, platform.urls.normalize endpoint.2 = some url →
    Reachable platform url
  tokenIds : ∀ endpoint ∈ tokenEndpoints manifest, oauthTokenId endpoint.1 ∉ manifest.serverIds
  /-- No enabled tool declares two responses for one status and media type. -/
  responses : ∀ tool ∈ manifest.enabledTools, (tool.responses.map responseIdentity).Nodup

/-- The policy for the token endpoints, over the servers and one more server for each endpoint. -/
theorem succeeds_oauthPolicy_iff {network : RuntimeNetworkPolicy platform} {manifest : MCPManifest}
    {tokenServers : List ServerDefinition} (unique : manifest.serverIds.Nodup ∧ manifest.authIds.Nodup)
    (made : (tokenEndpoints manifest).mapM (tokenServer platform) = .ok tokenServers) :
    Succeeds (UpstreamUrlPolicy.make platform network (manifest.servers ++ tokenServers)) ↔
      (∀ server ∈ manifest.servers, Reachable platform server.url) ∧
      (∀ endpoint ∈ tokenEndpoints manifest, ∀ url, platform.urls.normalize endpoint.2 = some url →
        Reachable platform url) ∧
      ∀ endpoint ∈ tokenEndpoints manifest, oauthTokenId endpoint.1 ∉ manifest.serverIds := by
  have urlOf : ∀ {endpoint server}, tokenServer platform endpoint = .ok server ↔
      ∃ url, platform.urls.normalize endpoint.2 = some url ∧ server = ⟨oauthTokenId endpoint.1, url, none⟩ := by
    intro endpoint server
    simp only [tokenServer, ServerDefinition.make, bind_eq_ok, obtain?_eq_ok]
    constructor
    · rintro ⟨url, given, isServer⟩
      exact ⟨url, given, by cases isServer; rfl⟩
    · rintro ⟨url, given, isServer⟩
      exact ⟨url, given, by rw [isServer]; rfl⟩
  have ids : tokenServers.map ServerDefinition.id = (tokenEndpoints manifest).map fun endpoint => oauthTokenId endpoint.1 := by
    refine map_of_mapM made fun endpoint server isServer => ?_
    obtain ⟨url, -, rfl⟩ := urlOf.mp isServer
    rfl
  have urls : (∀ server ∈ tokenServers, Reachable platform server.url) ↔
      ∀ endpoint ∈ tokenEndpoints manifest, ∀ url, platform.urls.normalize endpoint.2 = some url →
        Reachable platform url := by
    constructor
    · intro reachable endpoint member url given
      obtain ⟨server, serverMember, isServer⟩ := exists_of_mapM_source made member
      obtain ⟨other, otherGiven, rfl⟩ := urlOf.mp isServer
      rw [given, Option.some.injEq] at otherGiven
      rw [otherGiven]
      exact reachable _ serverMember
    · intro reachable server member
      obtain ⟨endpoint, endpointMember, isServer⟩ := exists_of_mapM_result made member
      obtain ⟨url, given, rfl⟩ := urlOf.mp isServer
      exact reachable endpoint endpointMember url given
  rw [succeeds_policy_iff, List.map_append, ids, ← urls]
  have disjoint : (manifest.servers.map ServerDefinition.id ++
      (tokenEndpoints manifest).map fun endpoint => oauthTokenId endpoint.1).Nodup ↔
      ∀ endpoint ∈ tokenEndpoints manifest, oauthTokenId endpoint.1 ∉ manifest.serverIds := by
    rw [List.nodup_append]
    constructor
    · rintro ⟨-, -, apart⟩ endpoint member clash
      exact apart _ clash _ (List.mem_map_of_mem member) rfl
    · intro free
      refine ⟨unique.1, nodup_tokenIds unique.2, ?_⟩
      rintro id isServer other isToken rfl
      obtain ⟨endpoint, member, rfl⟩ := List.mem_map.mp isToken
      exact free endpoint member isServer
  rw [disjoint]
  simp only [List.forall_mem_append, and_assoc]

/-- A manifest that the model and the contract accept, with schemas that pass the meta-schema, can be
served exactly when it meets what the contract leaves open. -/
theorem contract_valid_manifest_starts_iff (platform : Platform) (network : RuntimeNetworkPolicy platform)
    (manifest : MCPManifest) (runtimeVersion : Text)
    (accepted : manifest.Accepted platform.unicode platform.urls)
    (contract : validateManifestContract platform manifest runtimeVersion = .ok ())
    (schemas : ∀ tool ∈ manifest.tools, platform.checkSchema tool.inputSchema = true ∧
      ∀ response ∈ tool.responses, ∀ schema, response.schema = some schema →
        platform.checkSchema schema = true) :
    Succeeds (buildApp platform network manifest) ↔ Startable platform manifest := by
  have unique := unique_ids_of_accepted accepted
  have hosts := serverHosts_of_contract contract
  obtain ⟨tokenServers, made⟩ := tokenServers_succeed accepted
  have servers : (∀ server ∈ manifest.servers, Reachable platform server.url) ↔
      ∀ server ∈ manifest.servers, ∀ parsed, urlsplit platform.unicode server.url = some parsed →
        parsed.port ≠ .invalid ∧ isSafeBasePath (Text.stripEnd "/" parsed.path) = true :=
    forall₂_congr fun server member => reachable_of_serverHost (hosts server member)
  have tools : Succeeds (prepareTools platform manifest) ↔
      ∀ tool ∈ manifest.enabledTools, (tool.responses.map responseIdentity).Nodup := by
    rw [prepareTools, succeeds_mapM]
    refine forall₂_congr fun tool member => ?_
    have declared := schemas tool (List.mem_of_mem_filter member)
    exact succeeds_prepareTool_iff declared.1 declared.2
  have api : Succeeds (UpstreamUrlPolicy.make platform network manifest.servers) ↔
      (∀ server ∈ manifest.servers, Reachable platform server.url) ∧ manifest.serverIds.Nodup := succeeds_policy_iff
  have oauth : Succeeds (UpstreamUrlPolicy.make platform network (manifest.servers ++ tokenServers)) ↔ _ :=
    succeeds_oauthPolicy_iff unique made
  simp only [buildApp, succeeds_bind, made, Except.ok.injEq, succeeds_pure, and_true]
  constructor
  · rintro ⟨apiPolicy, -, others, same, oauthPolicy, isOauth, isTools⟩
    rw [← same] at isOauth
    obtain ⟨reachable, tokenUrls, tokenIds⟩ := oauth.mp ⟨oauthPolicy, isOauth⟩
    exact ⟨servers.mp reachable, tokenUrls, tokenIds, tools.mp isTools⟩
  · intro startable
    have reachable := servers.mpr startable.servers
    obtain ⟨apiPolicy, isApi⟩ := api.mpr ⟨reachable, unique.1⟩
    obtain ⟨oauthPolicy, isOauth⟩ := oauth.mpr ⟨reachable, startable.tokenUrls, startable.tokenIds⟩
    exact ⟨apiPolicy, isApi, tokenServers, rfl, oauthPolicy, isOauth, tools.mpr startable.responses⟩

end

/-! ## A contract that is too weak -/

def closedNetwork : RuntimeNetworkPolicy plainPlatform :=
  ⟨[], [], fun _ member => by cases member⟩

/-- One tool without arguments and the given responses. -/
def sampleManifest (responses : List ResponseDefinition) : MCPManifest where
  manifestId := List.replicate 64 'a'
  project := ⟨"p1", "Pets", "pets"⟩
  runtimeCompatibility := ">=1.0.0-rc.2,<2.0"
  servers := [⟨"main", "https://api.example.com/", none⟩]
  tools := [{
    name := "list_pets"
    title := "List Pets"
    description := "GET /pets"
    inputSchema := [("type", .text "object"), ("properties", .object []), ("additionalProperties", .bool false)]
    responses
    operationKey := "op1"
    requestMapping := { serverRef := "main", method := .get, path := "/pets" } }]
  security := { allowedUpstreamHosts := ["api.example.com"] }
  build := {
    buildId := "b1"
    sourceVersionIds := ["v1"]
    sourceDigest := List.replicate 64 'b'
    canonicalSha256 := List.replicate 64 'c'
    createdAt := "2026-01-01T00:00:00+00:00"
    compilerVersion := "1.0.0-rc.2" }

def okResponse : ResponseDefinition :=
  { statusCode := "200", mediaType := some "application/json", schema := some [("type", .text "object")] }

theorem sampleManifest_accepted {responses : List ResponseDefinition}
    (known : ∀ response ∈ responses, response = okResponse) :
    (sampleManifest responses).Accepted plainPlatform.unicode plainPlatform.urls where
  servers := by
    intro server member
    rw [List.mem_singleton.mp member]
    exact ⟨"https://api.example.com/", ⟨"https://api.example.com/", by decide⟩, by decide⟩
  authProfiles _ member := by cases member
  responses := by
    intro tool member response responseMember
    rw [List.mem_singleton.mp member] at responseMember
    rw [known response responseMember]
    exact ⟨⟨"200", by decide⟩, fun mediaType given => ⟨"application/json", by cases given; decide⟩⟩
  tools := by
    intro tool member
    rw [List.mem_singleton.mp member]
    rfl
  fields := rfl
  references := rfl

theorem sampleManifest_schemas {responses : List ResponseDefinition}
    (known : ∀ response ∈ responses, response = okResponse) :
    ∀ tool ∈ (sampleManifest responses).tools, plainPlatform.checkSchema tool.inputSchema = true ∧
      ∀ response ∈ tool.responses, ∀ schema, response.schema = some schema →
        plainPlatform.checkSchema schema = true := by
  intro tool member
  rw [List.mem_singleton.mp member]
  refine ⟨rfl, ?_⟩
  intro response responseMember schema given
  rw [known response responseMember] at given
  cases given
  rfl

/-- The contract accepts a tool that declares one response twice, and the runtime does not start. -/
theorem duplicate_response_stops_runtime :
    ¬ ∀ (platform : Platform) (network : RuntimeNetworkPolicy platform) (manifest : MCPManifest)
      (runtimeVersion : Text), manifest.Accepted platform.unicode platform.urls →
      validateManifestContract platform manifest runtimeVersion = .ok () →
      (∀ tool ∈ manifest.tools, platform.checkSchema tool.inputSchema = true ∧
        ∀ response ∈ tool.responses, ∀ schema, response.schema = some schema →
          platform.checkSchema schema = true) →
      Succeeds (buildApp platform network manifest) := by
  intro always
  have known : ∀ response ∈ [okResponse, okResponse], response = okResponse := by simp
  obtain ⟨app, built⟩ := always plainPlatform closedNetwork (sampleManifest [okResponse, okResponse]) "1.0.0"
    (sampleManifest_accepted known) (by decide +kernel) (sampleManifest_schemas known)
  have raised : (buildApp plainPlatform closedNetwork (sampleManifest [okResponse, okResponse])).isOk = false := by
    decide +kernel
  rw [built] at raised
  cases raised

/-- With the response declared once it starts. -/
theorem single_response_starts :
    Succeeds (buildApp plainPlatform closedNetwork (sampleManifest [okResponse])) := by
  refine (contract_valid_manifest_starts_iff plainPlatform closedNetwork (sampleManifest [okResponse]) "1.0.0"
    (sampleManifest_accepted (by simp)) (by decide +kernel) (sampleManifest_schemas (by simp))).mpr ?_
  have split : ∃ parsed, urlsplit plainPlatform.unicode "https://api.example.com/" = some parsed ∧
      parsed.port = .absent ∧ parsed.path = "/" := ⟨_, rfl, by decide, by decide⟩
  refine ⟨?_, (fun _ member => by cases member), (fun _ member => by cases member), ?_⟩
  · intro server member parsed isParsed
    rw [List.mem_singleton.mp member] at isParsed
    obtain ⟨other, isOther, port, path⟩ := split
    rw [isOther, Option.some.injEq] at isParsed
    rw [← isParsed, port, path]
    exact ⟨by decide, by decide⟩
  · intro tool member
    rw [List.mem_singleton.mp (List.mem_of_mem_filter member)]
    decide

end Mcplica.Runtime
