import Mcplica.Compilers.Tools
import Mcplica.Contracts.Hosts
import Mcplica.Validators.Build

/-! # The compiler and its gate

When `validate_build` finds no error in a manifest that `compile_manifest` returned. -/

namespace Mcplica.Compilers

open Mcplica.Library Mcplica.Contracts Mcplica.Validators
open Mcplica.Contracts.Json (entry)

variable {platform : Platform} {hashing : Hashing} {options : CompilerOptions} {api : CanonicalApi}
  {selections : Text → Option BuildSecuritySelection} {excluded : List Text} {manifest : MCPManifest}

/-! ## The compiled manifest -/

structure CompiledManifest (platform : Platform) (hashing : Hashing) (options : CompilerOptions) (api : CanonicalApi)
    (selections : Text → Option BuildSecuritySelection) (excluded : List Text) (manifest : MCPManifest)
    (profileRefs names : List (Text × Text)) (hosts : List Text) : Prop where
  excludedKnown : ∀ key ∈ excluded, key ∈ api.operationKeys
  profiles : ∃ profiles, authProfiles platform hashing api selections (executableOperations api excluded) =
    .ok (profiles, profileRefs)
  tools : (Text.sortedBy CanonicalOperation.key (executableOperations api excluded)).mapM
    (namedTool platform options profileRefs names) = .ok manifest.tools
  servers : manifestServers platform api (executableOperations api excluded) = .ok manifest.servers
  upstream : manifest.servers.mapM (upstreamHost platform) = .ok hosts
  allowed : manifest.security.allowedUpstreamHosts = Text.sorted hosts.dedup
  resources : manifest.resources = options.resources
  sourceVersionIds : manifest.build.sourceVersionIds = api.sourceVersionIds
  digest : manifest.build.canonicalSha256 = manifestDigest hashing options api
  references : manifest.validateReferences = .ok ()

theorem compileManifest_spec (compiled : compileManifest platform hashing options api selections excluded = .ok manifest) :
    ∃ profileRefs names hosts,
      CompiledManifest platform hashing options api selections excluded manifest profileRefs names hosts := by
  simp only [compileManifest, bind_eq_ok, ensure_eq_ok, validated_eq_ok] at compiled
  obtain ⟨-, -, -, known, ⟨profiles, profileRefs⟩, isProfiles, names, -, tools, isTools, -, -, servers, isServers, hosts,
    isHosts, -, -, _, references, same⟩ := compiled
  cases same
  refine ⟨profileRefs, names, hosts, ?_, ⟨profiles, isProfiles⟩, isTools, isServers, isHosts, rfl, rfl, rfl, rfl, references⟩
  intro key member
  by_contra absent
  have listed : key ∈ excluded.filter fun key => !api.operationKeys.contains key :=
    List.mem_filter.mpr ⟨member, by simpa using absent⟩
  rw [List.isEmpty_iff.mp known] at listed
  cases listed

/-- An operation has a profile exactly when a selection was made for it. -/
theorem lookup_profileRefs {operations : List CanonicalOperation} {profiles : List AuthProfile}
    {profileRefs : List (Text × Text)}
    (made : authProfiles platform hashing api selections operations = .ok (profiles, profileRefs))
    {operation : CanonicalOperation} (member : operation ∈ operations) :
    (profileRefs.lookup operation.key).isSome = (selections operation.key).isSome := by
  simp only [authProfiles, bind_eq_ok] at made
  obtain ⟨entries, ran, same⟩ := made
  cases same
  -- The profile of an entry depends on the key alone.
  have entrySome : ∀ entry ∈ entries, entry.2.isSome = (selections entry.1).isSome := by
    intro entry isEntry
    obtain ⟨source, -, isMade⟩ := exists_of_mapM_result ran isEntry
    rw [bind_eq_ok] at isMade
    obtain ⟨profile, isProfile, same⟩ := isMade
    cases same
    unfold operationProfile at isProfile
    split at isProfile
    · rename_i unselected
      split at isProfile
      · cases isProfile
        rw [unselected]
        rfl
      · cases isProfile
    · rename_i selection selected
      simp only [bind_eq_ok] at isProfile
      obtain ⟨_, _, _, _, _, _, _, _, _, _, same⟩ := isProfile
      cases same
      rw [selected]
      rfl
  obtain ⟨entry, isEntry, isMade⟩ := exists_of_mapM_source ran (Text.mem_sortedBy.mpr member)
  have key : entry.1 = operation.key := by
    rw [bind_eq_ok] at isMade
    obtain ⟨profile, -, same⟩ := isMade
    cases same
    rfl
  apply Bool.eq_iff_iff.mpr
  rw [List.lookup_isSome_iff]
  simp only [List.mem_map, List.mem_filterMap, beq_iff_eq]
  constructor
  · rintro ⟨_, ⟨_, ⟨other, isOther, found⟩, rfl⟩, sameKey⟩
    obtain ⟨profile, isProfile, rfl⟩ := Option.map_eq_some_iff.mp found
    have selected := entrySome other isOther
    rw [isProfile, ← sameKey] at selected
    exact selected.symm
  · intro selected
    have isProfile := entrySome entry isEntry
    rw [key, selected] at isProfile
    obtain ⟨profile, isProfile⟩ := Option.isSome_iff_exists.mp isProfile
    refine ⟨(entry.1, profile.id), ⟨(entry.1, profile), ⟨entry, isEntry, ?_⟩, rfl⟩, key.symm⟩
    rw [isProfile]
    rfl

/-! ## Tools and their operations -/

section Tools

variable {profileRefs names : List (Text × Text)} {hosts : List Text}

theorem CompiledManifest.tool_spec
    (compiled : CompiledManifest platform hashing options api selections excluded manifest profileRefs names hosts)
    {tool : MCPTool} (member : tool ∈ manifest.tools) :
    ∃ operation ∈ executableOperations api excluded, ∃ fields body responses,
      CompiledTool platform (profileRefs.lookup operation.key) operation tool fields body responses := by
  obtain ⟨operation, isOperation, made⟩ := exists_of_mapM_result compiled.tools member
  obtain ⟨fields, body, responses, spec⟩ := compileTool_spec made
  exact ⟨operation, Text.mem_sortedBy.mp isOperation, fields, body, responses, spec⟩

theorem CompiledManifest.operation_spec
    (compiled : CompiledManifest platform hashing options api selections excluded manifest profileRefs names hosts)
    {operation : CanonicalOperation} (member : operation ∈ executableOperations api excluded) :
    ∃ tool ∈ manifest.tools, ∃ fields body responses,
      CompiledTool platform (profileRefs.lookup operation.key) operation tool fields body responses := by
  obtain ⟨tool, isTool, made⟩ := exists_of_mapM_source compiled.tools (Text.mem_sortedBy.mpr member)
  obtain ⟨fields, body, responses, spec⟩ := compileTool_spec made
  exact ⟨tool, isTool, fields, body, responses, spec⟩

/-- The tools stand for the executable operations, each for one. -/
theorem CompiledManifest.operationKeys
    (compiled : CompiledManifest platform hashing options api selections excluded manifest profileRefs names hosts) :
    manifest.tools.map MCPTool.operationKey =
      (Text.sortedBy CanonicalOperation.key (executableOperations api excluded)).map CanonicalOperation.key := by
  refine map_of_mapM compiled.tools fun operation tool made => ?_
  obtain ⟨_, _, _, spec⟩ := compileTool_spec made
  exact spec.operationKey

theorem CompiledManifest.generatedKeys_perm
    (compiled : CompiledManifest platform hashing options api selections excluded manifest profileRefs names hosts) :
    (generatedKeys manifest).Perm (expectedKeys api excluded) := by
  have allEnabled : manifest.enabledTools = manifest.tools := by
    refine List.filter_eq_self.mpr fun tool member => ?_
    obtain ⟨_, _, _, _, _, spec⟩ := compiled.tool_spec member
    exact spec.enabled
  have expected : expectedKeys api excluded = (executableOperations api excluded).map CanonicalOperation.key := by
    rw [expectedKeys, CanonicalApi.operationKeys, List.filter_map]
    rfl
  rw [generatedKeys, allEnabled, compiled.operationKeys, expected]
  exact (Text.perm_sortedBy _ _).map _

/-- What the manifest's own validator says about a tool. -/
theorem CompiledManifest.tool_known
    (compiled : CompiledManifest platform hashing options api selections excluded manifest profileRefs names hosts)
    {tool : MCPTool} (member : tool ∈ manifest.tools) :
    tool.requestMapping.serverRef ∈ manifest.serverIds ∧
      (tool.securityProfileRef.all fun ref => ref = [] || manifest.authIds.contains ref) = true := by
  have references := compiled.references
  simp only [MCPManifest.validateReferences, bind_eq_ok, ensure_eq_ok, forM_eq_ok, exists_const_unit] at references
  have known := references.2.2.2 tool member
  exact ⟨List.contains_iff_mem.mp known.1, known.2⟩

end Tools

/-! ## The condition -/

/-- What the gate asks of the compiler's input and the compiler does not look at. -/
structure PassesGate (platform : Platform) (options : CompilerOptions) (api : CanonicalApi)
    (selections : Text → Option BuildSecuritySelection) (excluded : List Text) : Prop where
  resources : (options.resources.map MCPResource.uri).Nodup
  /-- The URLs of the servers have no user information, query or fragment, and their hosts are plain. -/
  servers : ∀ server ∈ selectedServers api (executableOperations api excluded), ∀ url parsed host,
    platform.urls.normalize server.url = some url → urlsplit platform.unicode url = some parsed →
      parsed.hostname platform.unicode = some host → parsed.isBare = true ∧ PlainHost host
  operations : ∀ operation ∈ executableOperations api excluded,
    Servable platform (selections operation.key).isSome operation
  /-- No credential replaces a required header. -/
  credentials : ∀ operation ∈ executableOperations api excluded, ∀ parameter ∈ operation.parameters,
    parameter.required = true → replacedByCredential platform (selections operation.key).isSome parameter = false

/-! ## Servers -/

section Servers

variable {profileRefs names : List (Text × Text)} {hosts : List Text}

/-- A server of the manifest with the host that its URL names. -/
structure Hosted (platform : Platform) (server : ServerDefinition) (parsed : SplitResult) (host name : Text) : Prop where
  url : ∃ value, platform.urls.parse value = some server.url
  parts : urlsplit platform.unicode server.url = some parsed
  isHost : parsed.hostname platform.unicode = some host
  isName : normalizedHost platform.unicode host = some name

theorem CompiledManifest.hosted
    (compiled : CompiledManifest platform hashing options api selections excluded manifest profileRefs names hosts) :
    List.Forall₂ (fun server name => ∃ parsed host, Hosted platform server parsed host name) manifest.servers hosts := by
  have fromUrls : ∀ server ∈ manifest.servers, ∃ value, platform.urls.parse value = some server.url := by
    intro server isServer
    obtain ⟨source, -, isMade⟩ := exists_of_mapM_result compiled.servers isServer
    simp only [validated_eq_ok, ServerDefinition.make, bind_eq_ok, obtain?_eq_ok] at isMade
    obtain ⟨url, isUrl, same⟩ := isMade
    cases same
    exact ⟨_, isUrl⟩
  have ran := (List.forall₂_and_left _ _).mpr ⟨fromUrls, mapM_eq_ok.mp compiled.upstream⟩
  refine ran.imp fun server name isServer => ?_
  obtain ⟨url, made⟩ := isServer
  simp only [upstreamHost, bind_eq_ok, obtain?_eq_ok] at made
  obtain ⟨parsed, parts, host, isHost, isName⟩ := made
  exact ⟨parsed, host, url, parts, isHost, isName⟩

theorem Hosted.named {server : ServerDefinition} {parsed : SplitResult} {host name : Text}
    (hosted : Hosted platform server parsed host name) : Named platform.unicode host name := by
  obtain ⟨value, isUrl⟩ := hosted.url
  exact ⟨hostText_of_urlsplit (platform.urls.ascii isUrl) hosted.parts hosted.isHost, hosted.isName⟩

theorem Hosted.serverHost_iff {server : ServerDefinition} {parsed : SplitResult} {host name result : Text}
    (hosted : Hosted platform server parsed host name) :
    serverHost platform server = .ok result ↔ parsed.isBare = true ∧ result = name := by
  obtain ⟨value, isUrl⟩ := hosted.url
  simp only [serverHost, bind_eq_ok, obtain?_eq_ok, ensure_eq_ok, hosted.parts, Option.some.injEq, exists_eq_left',
    isHttp_of_parse isUrl hosted.parts, hosted.isHost, hosted.isName, exists_const_unit, true_and]
  exact and_congr_right fun _ => eq_comm

theorem Hosted.serverHostname {server : ServerDefinition} {parsed : SplitResult} {host name : Text}
    (hosted : Hosted platform server parsed host name) :
    serverHostname platform server.url = some (host.casefold platform.unicode) := by
  simp only [Validators.serverHostname, hosted.parts, hosted.isHost, Option.bind_eq_bind, Option.bind_some]
  rfl

/-- The URLs of the servers are bare and their hosts plain. -/
def PlainServers (platform : Platform) (servers : List ServerDefinition) : Prop :=
  ∀ server ∈ servers, ∀ parsed host, urlsplit platform.unicode server.url = some parsed →
    parsed.hostname platform.unicode = some host → parsed.isBare = true ∧ PlainHost host

/-- The hosts of the servers, in their order. -/
theorem exists_hosts {servers : List ServerDefinition}
    (hosted : List.Forall₂ (fun server name => ∃ parsed host, Hosted platform server parsed host name) servers hosts) :
    ∃ sources, List.Forall₂ (Named platform.unicode) sources hosts ∧
      List.Forall₂ (fun server source => ∃ parsed name, Hosted platform server parsed source name) servers sources := by
  induction hosted with
  | nil => exact ⟨[], .nil, .nil⟩
  | cons first _ ih =>
    obtain ⟨parsed, host, isHosted⟩ := first
    obtain ⟨sources, named, rest⟩ := ih
    exact ⟨host :: sources, .cons isHosted.named named, .cons ⟨parsed, _, isHosted⟩ rest⟩

theorem mapM_serverHost_iff {servers : List ServerDefinition} {results : List Text}
    (hosted : List.Forall₂ (fun server name => ∃ parsed host, Hosted platform server parsed host name) servers hosts) :
    servers.mapM (serverHost platform) = .ok results ↔ results = hosts ∧
      ∀ server ∈ servers, ∀ parsed, urlsplit platform.unicode server.url = some parsed → parsed.isBare = true := by
  rw [mapM_eq_ok]
  induction hosted generalizing results with
  | nil => simp
  | cons first _ ih =>
    obtain ⟨parsed, host, isHosted⟩ := first
    cases results with
    | nil => simp
    | cons result results =>
      simp only [List.forall₂_cons, isHosted.serverHost_iff, ih, List.cons.injEq, List.forall_mem_cons,
        isHosted.parts, Option.some.injEq, forall_eq']
      tauto

/-- The two readings of the allowlist, of the contract and of the build validator. -/
theorem allowlist_iff {servers : List ServerDefinition}
    (hosted : List.Forall₂ (fun server name => ∃ parsed host, Hosted platform server parsed host name) servers hosts) :
    ∃ folded, servers.mapM (fun server => serverHostname platform server.url) = some folded ∧
      (((∃ serverHosts, servers.mapM (serverHost platform) = .ok serverHosts ∧
          ∃ read, (Text.sorted hosts.dedup).mapM (normalizeAllowedHost platform) = .ok read ∧
            (read.all serverHosts.contains && serverHosts.all read.contains) = true) ∧
        sameSet (Text.sorted hosts.dedup) folded = true) ↔ PlainServers platform servers) := by
  obtain ⟨sources, named, fromServers⟩ := exists_hosts hosted
  refine ⟨sources.map (Text.casefold platform.unicode), ?_, ?_⟩
  · clear named hosted
    induction fromServers with
    | nil => rfl
    | cons first _ ih =>
      obtain ⟨parsed, name, isHosted⟩ := first
      rw [List.mapM_cons, isHosted.serverHostname, ih]
      rfl
  · have agree := allowlist_matches_iff named
    constructor
    · rintro ⟨⟨serverHosts, ran, read⟩, same⟩ server member parsed host parts isHost
      obtain ⟨rfl, bare⟩ := (mapM_serverHost_iff hosted).mp ran
      refine ⟨bare server member parsed parts, ?_⟩
      obtain ⟨source, isSource, _, _, isHosted⟩ := exists_of_forall₂_left fromServers member
      have sameParts := isHosted.parts
      rw [parts, Option.some.injEq] at sameParts
      subst sameParts
      have sameHost := isHosted.isHost
      rw [isHost, Option.some.injEq] at sameHost
      subst sameHost
      exact agree.mp ⟨read, same⟩ host isSource
    · intro plain
      have allPlain : ∀ host ∈ sources, PlainHost host := by
        intro host member
        obtain ⟨server, isServer, parsed, name, isHosted⟩ := exists_of_forall₂_right fromServers member
        exact (plain server isServer parsed host isHosted.parts isHosted.isHost).2
      obtain ⟨read, same⟩ := agree.mpr allPlain
      refine ⟨⟨hosts, (mapM_serverHost_iff hosted).mpr ⟨rfl, ?_⟩, read⟩, same⟩
      intro server member parsed parts
      obtain ⟨_, _, parsed', host, isHosted⟩ := exists_of_forall₂_left hosted member
      have sameParts := isHosted.parts
      rw [parts, Option.some.injEq] at sameParts
      subst sameParts
      exact (plain server member parsed host parts isHosted.isHost).1

theorem CompiledManifest.plainServers_iff
    (compiled : CompiledManifest platform hashing options api selections excluded manifest profileRefs names hosts) :
    PlainServers platform manifest.servers ↔
      ∀ server ∈ selectedServers api (executableOperations api excluded), ∀ url parsed host,
        platform.urls.normalize server.url = some url → urlsplit platform.unicode url = some parsed →
          parsed.hostname platform.unicode = some host → parsed.isBare = true ∧ PlainHost host := by
  constructor
  · intro plain server selected url parsed host isUrl
    obtain ⟨definition, isDefinition, made⟩ := exists_of_mapM_source compiled.servers (Text.mem_sortedBy.mpr selected)
    simp only [validated_eq_ok, ServerDefinition.make, bind_eq_ok, obtain?_eq_ok, isUrl, Option.some.injEq,
      exists_eq_left'] at made
    cases made
    exact plain _ isDefinition parsed host
  · intro each definition isDefinition parsed host
    obtain ⟨server, selected, made⟩ := exists_of_mapM_result compiled.servers isDefinition
    simp only [validated_eq_ok, ServerDefinition.make, bind_eq_ok, obtain?_eq_ok] at made
    obtain ⟨url, isUrl, same⟩ := made
    cases same
    exact each server (Text.mem_sortedBy.mp selected) url parsed host isUrl

end Servers

/-! ## The contract -/

section Contract

variable {profileRefs names : List (Text × Text)} {hosts : List Text} {runtimeVersion : Text}

theorem validateUnique_iff {label : Text} {values : List Text} : validateUnique platform label values = .ok () ↔ values.Nodup := by
  simp only [validateUnique, ensure_eq_ok, decide_eq_true_eq, Text.sorted_eq_nil, repeated_eq_nil]

theorem CompiledManifest.contract_iff
    (compiled : CompiledManifest platform hashing options api selections excluded manifest profileRefs names hosts)
    (supported : platform.supports manifest.runtimeCompatibility runtimeVersion = some true) :
    validateManifestContract platform manifest runtimeVersion = .ok () ↔
      (options.resources.map MCPResource.uri).Nodup ∧
      (∃ serverHosts, manifest.servers.mapM (serverHost platform) = .ok serverHosts ∧
        ∃ read, (Text.sorted hosts.dedup).mapM (normalizeAllowedHost platform) = .ok read ∧
          (read.all serverHosts.contains && serverHosts.all read.contains) = true) ∧
      ∀ tool ∈ manifest.tools, validateTool platform manifest tool = .ok () := by
  have references := compiled.references
  simp only [MCPManifest.validateReferences, bind_eq_ok, ensure_eq_ok, forM_eq_ok, exists_const_unit,
    decide_eq_true_eq] at references
  have compatible : validateRuntimeCompatibility platform manifest.runtimeCompatibility runtimeVersion = .ok () := by
    rw [validateRuntimeCompatibility, supported]
    rfl
  simp only [validateManifestContract, check_bind_eq_ok, compatible, true_and]
  rw [validateUnique_iff, validateUnique_iff, validateUnique_iff, validateUnique_iff, compiled.resources, compiled.allowed]
  simp only [references, true_and]
  refine and_congr_right fun _ => ?_
  simp only [bind_eq_ok, ensure_eq_ok, forM_eq_ok, exists_const_unit]
  constructor
  · rintro ⟨serverHosts, ran, read, isRead, same, tools⟩
    exact ⟨⟨serverHosts, ran, read, isRead, same⟩, tools⟩
  · rintro ⟨⟨serverHosts, ran, read, isRead, same⟩, tools⟩
    exact ⟨serverHosts, ran, read, isRead, same, tools⟩

end Contract

/-! ## Findings -/

/-- No finding is an error. -/
def NoErrors (findings : List ValidationFinding) : Prop :=
  ∀ finding ∈ findings, finding.severity ≠ .error

theorem noErrors_append {first second : List ValidationFinding} :
    NoErrors (first ++ second) ↔ NoErrors first ∧ NoErrors second :=
  List.forall_mem_append

theorem noErrors_nil : NoErrors [] := fun _ member => by cases member

/-- An error is not found when its condition does not hold. -/
theorem noErrors_findingIf {condition : Bool} {finding : ValidationFinding} (isError : finding.severity = .error) :
    NoErrors (findingIf condition finding) ↔ condition = false := by
  cases condition <;> simp [NoErrors, findingIf, isError]

theorem noErrors_findingIf_false {condition : Bool} {finding : ValidationFinding} (never : condition = false) :
    NoErrors (findingIf condition finding) := by
  rw [never]
  exact noErrors_nil

theorem noErrors_contractFindings {runtimeVersion : Text} : NoErrors (contractFindings platform manifest runtimeVersion) ↔
    validateManifestContract platform manifest runtimeVersion = .ok () := by
  unfold contractFindings
  split
  · rename_i passed
    exact ⟨fun _ => passed, fun _ => noErrors_nil⟩
  · rename_i message failed
    rw [failed]
    simp [NoErrors]

section Mapping

variable {operation : CanonicalOperation} {tool : MCPTool} {authRef : Option Text} {fields : RequestFields}
  {body : Option RequestBodyMapping} {responses : ResponseFields}

theorem target_value {location : ParameterLocation} {target : ParameterTarget} (isTarget : location.target = some target) :
    target.value = location.value := by
  cases location <;> cases isTarget <;> rfl

theorem location_value_injective {left right : ParameterLocation} (same : left.value = right.value) : left = right := by
  revert same
  cases left <;> cases right <;> decide

/-- A required parameter is dropped exactly when a credential replaces it. -/
theorem droppedParameters_iff (compiled : CompiledTool platform authRef operation tool fields body responses) :
    droppedParameters operation tool = [] ↔
      ∀ parameter ∈ operation.parameters, parameter.required = true →
        replacedByCredential platform authRef.isSome parameter = false := by
  have requestOf := requestFields_spec compiled.request
  simp only [droppedParameters, List.filter_eq_nil_iff, Bool.not_eq_true', Bool.not_eq_false, List.contains_iff_mem]
  constructor
  · intro kept parameter member isRequired
    by_contra replaced
    rw [Bool.not_eq_false] at replaced
    have isHeader : parameter.location = .header := by
      simp only [replacedByCredential, Bool.and_eq_true, decide_eq_true_eq] at replaced
      exact replaced.1.1
    have isSource : (parameter.location.value, parameter.name) ∈ sourceRequired operation := by
      refine List.mem_map.mpr ⟨parameter, List.mem_filter.mpr ⟨member, ?_⟩, rfl⟩
      simp [isRequired, isHeader]
    -- Whatever else is mapped to the same header would be replaced too.
    obtain ⟨mapping, isMapping, same⟩ := List.mem_map.mp (kept _ isSource)
    rw [compiled.parameters] at isMapping
    obtain ⟨other, isCaller, repeats⟩ := exists_parameter_of_mapping requestOf (List.mem_of_mem_filter isMapping)
    rw [Prod.mk.injEq, target_value repeats.target, repeats.name] at same
    have notReplaced := (List.mem_filter.mp isCaller).2
    have sameLocation := location_value_injective same.1
    simp only [replacedByCredential, sameLocation, same.2] at notReplaced
    simp only [replacedByCredential] at replaced
    rw [replaced] at notReplaced
    cases notReplaced
  · intro each source isSource
    obtain ⟨parameter, isRequired, rfl⟩ := List.mem_map.mp isSource
    obtain ⟨member, isRequired⟩ := List.mem_filter.mp isRequired
    simp only [Bool.and_eq_true] at isRequired
    have isCaller : parameter ∈ callerParameters platform authRef.isSome operation.parameters :=
      List.mem_filter.mpr ⟨member, by rw [each parameter member isRequired.1]; rfl⟩
    obtain ⟨mapping, isMapping, repeats⟩ := exists_mapping_of_parameter requestOf isCaller
    refine List.mem_map.mpr ⟨mapping, List.mem_filter.mpr ⟨?_, ?_⟩, ?_⟩
    · rw [compiled.parameters]
      exact isMapping
    · rw [repeats.required]
      exact isRequired.1
    · rw [target_value repeats.target, repeats.name]

theorem dropsBody_eq_false (compiled : CompiledTool platform authRef operation tool fields body responses) :
    dropsBody operation tool = false := by
  have required := (requestFields_spec compiled.request).bodyRequired
  unfold dropsBody
  rw [compiled.body]
  cases given : operation.requestBody with
  | none => rfl
  | some source =>
    rw [given] at required
    obtain ⟨mapping, isMapping, same⟩ := Option.map_eq_some_iff.mp required
    rw [isMapping]
    show (source.required && !mapping.required) = false
    rw [same]
    exact Bool.and_not_self _

/-- Of the findings about a compiled tool only a dropped parameter can be an error. -/
theorem noErrors_mappingFindings (schemasPass : ∀ schema ∈ operation.schemas, platform.checkSchema schema = true)
    (compiled : CompiledTool platform authRef operation tool fields body responses)
    (knownServer : tool.requestMapping.serverRef ∈ manifest.serverIds)
    (knownProfile : (tool.securityProfileRef.all fun ref => ref = [] || manifest.authIds.contains ref) = true) :
    NoErrors (mappingFindings platform manifest operation tool) ↔
      ∀ parameter ∈ operation.parameters, parameter.required = true →
        replacedByCredential platform authRef.isSome parameter = false := by
  have requestOf := requestFields_spec compiled.request
  have responsesOf := responseFields_spec compiled.response
  have inputPasses : platform.checkSchema tool.inputSchema = true := by
    obtain ⟨propertiesPass, definitionsPass⟩ := requestOf.passes schemasPass
    rw [compiled.inputSchema]
    exact checkSchema_inputSchema propertiesPass definitionsPass
  have outputPasses : ∀ schema ∈ tool.outputSchema.toList, platform.checkSchema schema = true := by
    intro schema member
    rw [compiled.outputSchema, Option.mem_toList] at member
    refine (checkSchema_envelope (responsesOf.passes ?_) member).1
    intro media isMedia
    obtain ⟨response, isResponse, inResponse⟩ := mem_orderedMedia.mp isMedia
    refine schemasPass _ (List.mem_append_right _ (List.mem_map_of_mem ?_))
    exact List.mem_flatMap.mpr ⟨response, isResponse, inResponse⟩
  rw [← droppedParameters_iff compiled]
  have sameServer : (decide (some tool.requestMapping.serverRef ≠ operation.serverRef)) = false := by
    rw [compiled.server]
    simp
  have listed : (!manifest.serverIds.contains tool.requestMapping.serverRef) = false := by simpa using knownServer
  have profileKnown : (tool.securityProfileRef.any fun ref => ref ≠ [] && !manifest.authIds.contains ref) = false := by
    revert knownProfile
    cases tool.securityProfileRef with
    | none => exact fun _ => rfl
    | some ref =>
      intro known
      rw [Option.any_some]
      rw [Option.all_some] at known
      by_cases isEmpty : ref = []
      · simp [isEmpty]
      · simpa [isEmpty] using known
  have sparse : ∀ condition (finding : ValidationFinding), finding.severity = .warning → NoErrors (findingIf condition finding) := by
    intro condition finding isWarning
    cases condition <;> simp [NoErrors, findingIf, isWarning]
  have outputs : NoErrors (tool.outputSchema.toList.flatMap fun schema =>
      schemaFindings platform schema tool.operationKey "output") := by
    intro finding member
    obtain ⟨schema, isSchema, found⟩ := List.mem_flatMap.mp member
    rw [schemaFindings, outputPasses schema isSchema] at found
    cases found
  unfold mappingFindings
  simp only [noErrors_append]
  constructor
  · intro ⟨⟨⟨⟨⟨_, dropped⟩, _⟩, _⟩, _⟩, _⟩
    have kept := (noErrors_findingIf rfl).mp dropped
    simpa using kept
  · intro kept
    refine ⟨⟨⟨⟨⟨⟨⟨⟨⟨?_, ?_⟩, ?_⟩, ?_⟩, ?_⟩, ?_⟩, ?_⟩, ?_⟩, outputs⟩, sparse _ _ rfl⟩
    · exact noErrors_findingIf_false (by simpa using compiled.method)
    · exact noErrors_findingIf_false (by simpa using compiled.path)
    · exact noErrors_findingIf_false sameServer
    · exact noErrors_findingIf_false listed
    · exact noErrors_findingIf_false profileKnown
    · exact noErrors_findingIf_false (by rw [kept]; rfl)
    · exact noErrors_findingIf_false (dropsBody_eq_false compiled)
    · exact noErrors_findingIf_false (by rw [inputPasses]; rfl)

end Mapping

/-! ## Coverage -/

section Coverage

variable {profileRefs names : List (Text × Text)} {hosts : List Text}

theorem CompiledManifest.coverageFindings_eq_nil (valid : api.Valid platform.urls)
    (compiled : CompiledManifest platform hashing options api selections excluded manifest profileRefs names hosts) :
    coverageFindings api manifest excluded = [] := by
  have perm := compiled.generatedKeys_perm
  have unique : (generatedKeys manifest).Nodup := perm.nodup_iff.mpr (valid.operationKeys.filter _)
  have known : excluded.filter (fun key => !api.operationKeys.contains key) = [] := by
    refine List.filter_eq_nil_iff.mpr fun key member => ?_
    simpa using compiled.excludedKnown key member
  have covered : (expectedKeys api excluded).filter (fun key => !(generatedKeys manifest).contains key) = [] := by
    refine List.filter_eq_nil_iff.mpr fun key member => ?_
    simpa using perm.mem_iff.mpr member
  have expected : (generatedKeys manifest).dedup.filter (fun key => !(expectedKeys api excluded).contains key) = [] := by
    refine List.filter_eq_nil_iff.mpr fun key member => ?_
    simpa using perm.mem_iff.mp (List.mem_dedup.mp member)
  unfold coverageFindings
  dsimp only
  rw [known, repeated_eq_nil.mpr unique, covered, expected]
  rfl

theorem coveragePercent_self (count : Nat) : coveragePercent count count = 10000 := by
  unfold coveragePercent
  split
  · rfl
  · rename_i positive
    have quotient : count * 10000 / count = 10000 := Nat.mul_div_cancel_left 10000 (Nat.pos_of_ne_zero positive)
    have remainder : count * 10000 % count = 0 := Nat.mul_mod_right count 10000
    unfold roundedPercent
    simp only [quotient, remainder]
    simp

theorem sameSet_self (values : List Text) : sameSet values values = true := by
  simp [sameSet]

/-- The operation of a tool is the one with its key. -/
theorem find?_operation (valid : api.Valid platform.urls) {operation : CanonicalOperation}
    (member : operation ∈ executableOperations api excluded) :
    api.operations.find? (fun other => other.key = operation.key) = some operation := by
  have inApi := List.mem_of_mem_filter member
  cases found : api.operations.find? (fun other => other.key = operation.key) with
  | none => simpa using List.find?_eq_none.mp found operation inApi
  | some other =>
    have sameKey : other.key = operation.key := by simpa using List.find?_some found
    rw [List.inj_on_of_nodup_map valid.operationKeys (List.mem_of_find?_eq_some found) inApi sameKey]

end Coverage

/-! ## The gate -/

section Gate

variable {profileRefs names : List (Text × Text)} {hosts : List Text} {runtimeVersion : Text}

theorem CompiledManifest.credential
    (compiled : CompiledManifest platform hashing options api selections excluded manifest profileRefs names hosts)
    {operation : CanonicalOperation} (member : operation ∈ executableOperations api excluded) :
    (profileRefs.lookup operation.key).isSome = (selections operation.key).isSome := by
  obtain ⟨profiles, isProfiles⟩ := compiled.profiles
  exact lookup_profileRefs isProfiles member

theorem CompiledManifest.tools_servable_iff (valid : api.Valid platform.urls)
    (schemasPass : ∀ operation ∈ api.operations, ∀ schema ∈ operation.schemas, platform.checkSchema schema = true)
    (compiled : CompiledManifest platform hashing options api selections excluded manifest profileRefs names hosts) :
    (∀ tool ∈ manifest.tools, validateTool platform manifest tool = .ok ()) ↔
      ∀ operation ∈ executableOperations api excluded, Servable platform (selections operation.key).isSome operation := by
  constructor
  · intro each operation member
    obtain ⟨tool, isTool, _, _, _, spec⟩ := compiled.operation_spec member
    have known := compiled.tool_known isTool
    have inApi := List.mem_of_mem_filter member
    rw [← compiled.credential member]
    exact (validateTool_iff (valid.operations _ inApi) (schemasPass _ inApi) spec known.1 known.2).mp (each tool isTool)
  · intro each tool isTool
    obtain ⟨operation, member, _, _, _, spec⟩ := compiled.tool_spec isTool
    have known := compiled.tool_known isTool
    have inApi := List.mem_of_mem_filter member
    refine (validateTool_iff (valid.operations _ inApi) (schemasPass _ inApi) spec known.1 known.2).mpr ?_
    rw [compiled.credential member]
    exact each operation member

theorem CompiledManifest.noErrors_toolFindings (valid : api.Valid platform.urls)
    (schemasPass : ∀ operation ∈ api.operations, ∀ schema ∈ operation.schemas, platform.checkSchema schema = true)
    (compiled : CompiledManifest platform hashing options api selections excluded manifest profileRefs names hosts) :
    NoErrors (manifest.tools.flatMap (toolFindings platform api manifest)) ↔
      ∀ operation ∈ executableOperations api excluded, ∀ parameter ∈ operation.parameters, parameter.required = true →
        replacedByCredential platform (selections operation.key).isSome parameter = false := by
  have one : ∀ tool ∈ manifest.tools, ∀ operation ∈ executableOperations api excluded, ∀ fields body responses,
      CompiledTool platform (profileRefs.lookup operation.key) operation tool fields body responses →
      (NoErrors (toolFindings platform api manifest tool) ↔ ∀ parameter ∈ operation.parameters,
        parameter.required = true → replacedByCredential platform (selections operation.key).isSome parameter = false) := by
    intro tool isTool operation member fields body responses spec
    have known := compiled.tool_known isTool
    unfold toolFindings
    rw [spec.operationKey, find?_operation valid member, ← compiled.credential member]
    exact noErrors_mappingFindings (schemasPass _ (List.mem_of_mem_filter member)) spec known.1 known.2
  constructor
  · intro noError operation member
    obtain ⟨tool, isTool, _, _, _, spec⟩ := compiled.operation_spec member
    refine (one tool isTool operation member _ _ _ spec).mp fun finding found => ?_
    exact noError finding (List.mem_flatMap.mpr ⟨tool, isTool, found⟩)
  · intro each finding found
    obtain ⟨tool, isTool, found⟩ := List.mem_flatMap.mp found
    obtain ⟨operation, member, _, _, _, spec⟩ := compiled.tool_spec isTool
    exact (one tool isTool operation member _ _ _ spec).mpr (each operation member) finding found

/-- Only the contract, the tools and the allowlist can make `validate_build` report an error. -/
theorem CompiledManifest.noErrors_validateBuild (valid : api.Valid platform.urls)
    (compiled : CompiledManifest platform hashing options api selections excluded manifest profileRefs names hosts)
    (supported : platform.supports manifest.runtimeCompatibility runtimeVersion = some true) {folded : List Text}
    (isFolded : manifest.servers.mapM (fun server => serverHostname platform server.url) = some folded) :
    (∃ findings, validateBuild platform api manifest excluded (manifestDigest hashing options api) runtimeVersion =
        some findings ∧ NoErrors findings) ↔
      validateManifestContract platform manifest runtimeVersion = .ok () ∧
      NoErrors (manifest.tools.flatMap (toolFindings platform api manifest)) ∧
      sameSet (Text.sorted hosts.dedup) folded = true := by
  have duplicates : (Text.sorted (repeated manifest.toolNames)).isEmpty = true := by
    have references := compiled.references
    simp only [MCPManifest.validateReferences, bind_eq_ok, ensure_eq_ok, forM_eq_ok, exists_const_unit,
      decide_eq_true_eq] at references
    rw [repeated_eq_nil.mpr references.2.2.1]
    rfl
  unfold validateBuild
  rw [isFolded]
  simp only [Option.bind_eq_bind, Option.bind_some, Option.pure_def, Option.some.injEq, exists_eq_left', noErrors_append,
    noErrors_contractFindings, compiled.coverageFindings_eq_nil valid, duplicates, compiled.allowed, compiled.digest,
    compiled.sourceVersionIds, sameSet_self, supported, compiled.generatedKeys_perm.length_eq, coveragePercent_self]
  constructor
  · rintro ⟨⟨⟨⟨⟨⟨⟨⟨contract, -⟩, -⟩, tools⟩, hosts⟩, -⟩, -⟩, -⟩, -⟩
    refine ⟨contract, tools, ?_⟩
    simpa using (noErrors_findingIf rfl).mp hosts
  · rintro ⟨contract, tools, hosts⟩
    refine ⟨⟨⟨⟨⟨⟨⟨⟨contract, noErrors_nil⟩, ?_⟩, tools⟩, ?_⟩, ?_⟩, ?_⟩, ?_⟩, ?_⟩
    · exact noErrors_findingIf_false rfl
    · exact noErrors_findingIf_false (by rw [hosts]; rfl)
    · exact noErrors_findingIf_false (by simp)
    · exact noErrors_findingIf_false rfl
    · exact noErrors_findingIf_false (by simp)
    · exact noErrors_findingIf_false (by simp)

end Gate

/-- `validate_build` reports no error for a compiled manifest exactly when the input meets what the contract asks
and the compiler does not look at. -/
theorem compiled_manifest_passes_gate_iff {runtimeVersion : Text} (valid : api.Valid platform.urls)
    (schemasPass : ∀ operation ∈ api.operations, ∀ schema ∈ operation.schemas, platform.checkSchema schema = true)
    (isCompiled : compileManifest platform hashing options api selections excluded = .ok manifest)
    (supported : platform.supports manifest.runtimeCompatibility runtimeVersion = some true) :
    (∃ findings, validateBuild platform api manifest excluded (manifestDigest hashing options api) runtimeVersion =
        some findings ∧ NoErrors findings) ↔ PassesGate platform options api selections excluded := by
  obtain ⟨profileRefs, names, hosts, compiled⟩ := compileManifest_spec isCompiled
  obtain ⟨folded, isFolded, matching⟩ := allowlist_iff compiled.hosted
  rw [compiled.noErrors_validateBuild valid supported isFolded, compiled.contract_iff supported,
    compiled.tools_servable_iff valid schemasPass, compiled.noErrors_toolFindings valid schemasPass]
  rw [compiled.plainServers_iff] at matching
  constructor
  · rintro ⟨⟨resources, read, servable⟩, credentials, same⟩
    exact ⟨resources, matching.mp ⟨read, same⟩, servable, credentials⟩
  · intro passes
    obtain ⟨read, same⟩ := matching.mpr passes.servers
    exact ⟨⟨passes.resources, read, passes.operations⟩, passes.credentials, same⟩

/-! ## A header that the compiler lets through -/

def petsOptions : CompilerOptions :=
  { projectId := "p1", projectName := "Pets", projectSlug := "pets", buildId := "b1", createdAt := "2026-01-01T00:00:00+00:00" }

def petsHeader (name : Text) : CanonicalParameter where
  name
  location := .header
  schema := [entry "type" (.text "string")]
  sourceRef := ⟨"v1", "#/paths/~1pets/get/parameters/0"⟩

/-- One operation with one optional header. -/
def petsOperation (header : Text) : CanonicalOperation where
  key := "op1"
  toolNameSeed := "list_pets"
  method := .get
  pathTemplate := "/pets"
  serverRef := some "main"
  serverCandidates := ["main"]
  parameters := [petsHeader header]
  responses := [{
    statusCode := "200"
    content := [{
      mediaType := "application/json"
      schema := [entry "type" (.text "object")]
      sourceRef := ⟨"v1", "#/paths/~1pets/get/responses/200/content/application~1json"⟩ }]
    sourceRef := ⟨"v1", "#/paths/~1pets/get/responses/200"⟩ }]
  provenance := ⟨⟨"v1", "#/paths/~1pets/get"⟩, []⟩

def petsApi (header : Text) : CanonicalApi where
  projectId := "p1"
  sourceFormat := .openapi31
  title := "Pets"
  servers := [⟨"main", "https://api.example.com/", none, ⟨"v1", "#/servers/0"⟩⟩]
  operations := [petsOperation header]
  sourceVersionIds := ["v1"]
  sourceFingerprint := List.replicate 64 'b'

theorem petsApi_valid (header : Text) : (petsApi header).Valid plainPlatform.urls where
  servers := by
    intro server member
    rw [List.mem_singleton.mp member]
    exact ⟨"https://api.example.com/", ⟨"https://api.example.com/", by decide⟩, by decide⟩
  serverKeys := List.nodup_singleton _
  operationKeys := List.nodup_singleton _
  operations := by
    intro operation member
    rw [List.mem_singleton.mp member]
    refine ⟨rfl, (fun nothing => by cases nothing), ?_, ⟨[], rfl, ?_⟩, (fun _ member => by cases member), ?_⟩
    · intro parameter isParameter isPath
      rw [List.mem_singleton.mp isParameter] at isPath
      cases isPath
    · intro name
      rfl
    · intro schema isSchema
      simp only [CanonicalOperation.schemas, petsOperation, Option.toList_none, List.flatMap_nil, List.map_nil,
        List.append_nil, List.map_cons, List.flatMap_cons, List.singleton_append, List.mem_cons, List.not_mem_nil,
        or_false] at isSchema
      rcases isSchema with rfl | rfl
      · exact ⟨List.nodup_singleton _, trivial, trivial⟩
      · exact ⟨List.nodup_singleton _, trivial, trivial⟩
  serverRefs := by
    intro operation member ref isRef
    rw [List.mem_singleton.mp member] at isRef
    cases isRef
    exact List.mem_singleton.mpr rfl
  tokenUrls _ member := by cases member
  sourceFingerprint := show isSha256 (List.replicate 64 'b') = true by decide

theorem petsApi_schemas (header : Text) : ∀ operation ∈ (petsApi header).operations, ∀ schema ∈ operation.schemas,
    plainPlatform.checkSchema schema = true := by
  intro operation member schema isSchema
  rw [List.mem_singleton.mp member] at isSchema
  simp only [CanonicalOperation.schemas, petsOperation, Option.toList_none, List.flatMap_nil, List.map_nil,
    List.append_nil, List.map_cons, List.flatMap_cons, List.singleton_append, List.mem_cons, List.not_mem_nil,
    or_false] at isSchema
  rcases isSchema with rfl | rfl
  · rfl
  · rfl

def gateReportsError (header : Text) : Bool :=
  match compileManifest plainPlatform zeroHashing petsOptions (petsApi header) (fun _ => none) [] with
  | .error _ => false
  | .ok manifest =>
    (validateBuild plainPlatform (petsApi header) manifest [] (manifestDigest zeroHashing petsOptions (petsApi header))
      "1.0.0").any fun findings => findings.any fun finding => finding.severity = .error

/-- A header parameter `Content-Type` compiles, and the gate refuses the manifest. -/
theorem content_type_parameter_fails_gate :
    ¬ ∀ (platform : Platform) (hashing : Hashing) (options : CompilerOptions) (api : CanonicalApi)
      (selections : Text → Option BuildSecuritySelection) (excluded : List Text) (manifest : MCPManifest)
      (runtimeVersion : Text), api.Valid platform.urls →
      (∀ operation ∈ api.operations, ∀ schema ∈ operation.schemas, platform.checkSchema schema = true) →
      compileManifest platform hashing options api selections excluded = .ok manifest →
      platform.supports manifest.runtimeCompatibility runtimeVersion = some true →
      ∃ findings, validateBuild platform api manifest excluded (manifestDigest hashing options api) runtimeVersion =
        some findings ∧ NoErrors findings := by
  intro always
  have reported : gateReportsError "Content-Type" = true := by decide +kernel
  unfold gateReportsError at reported
  split at reported
  · cases reported
  · rename_i manifest isCompiled
    obtain ⟨findings, isFindings, noErrors⟩ := always _ _ _ _ _ _ manifest "1.0.0" (petsApi_valid "Content-Type")
      (petsApi_schemas "Content-Type") isCompiled rfl
    rw [isFindings, Option.any_some, List.any_eq_true] at reported
    obtain ⟨finding, member, isError⟩ := reported
    exact noErrors finding member (by simpa using isError)

/-- Another header passes. -/
theorem request_id_parameter_passes_gate :
    ∃ manifest, compileManifest plainPlatform zeroHashing petsOptions (petsApi "X-Request-Id") (fun _ => none) [] =
        .ok manifest ∧
      ∃ findings, validateBuild plainPlatform (petsApi "X-Request-Id") manifest []
        (manifestDigest zeroHashing petsOptions (petsApi "X-Request-Id")) "1.0.0" = some findings ∧ NoErrors findings := by
  have compiles : (compileManifest plainPlatform zeroHashing petsOptions (petsApi "X-Request-Id") (fun _ => none) []).isOk =
      true := by decide +kernel
  cases isCompiled : compileManifest plainPlatform zeroHashing petsOptions (petsApi "X-Request-Id") (fun _ => none) [] with
  | error failure =>
    rw [isCompiled] at compiles
    cases compiles
  | ok manifest =>
    refine ⟨manifest, rfl, (compiled_manifest_passes_gate_iff (petsApi_valid "X-Request-Id")
      (petsApi_schemas "X-Request-Id") isCompiled rfl).mpr ⟨List.nodup_nil, ?_, ?_, ?_⟩⟩
    · intro server member url parsed host isUrl parts isHost
      rw [List.mem_singleton.mp member] at isUrl
      have expected : plainPlatform.urls.normalize "https://api.example.com/" = some ("https://api.example.com/" : Text) := by
        decide
      have expectedParts : urlsplit plainPlatform.unicode "https://api.example.com/" =
          some ⟨"https", "api.example.com", "/", [], []⟩ := by decide
      rw [expected, Option.some.injEq] at isUrl
      subst isUrl
      rw [expectedParts, Option.some.injEq] at parts
      subst parts
      have expectedHost : SplitResult.hostname plainPlatform.unicode ⟨"https", "api.example.com", "/", [], []⟩ =
          some ("api.example.com" : Text) := by decide
      rw [expectedHost, Option.some.injEq] at isHost
      subst isHost
      exact ⟨by decide, by decide, Text.forall_of_all (by decide)⟩
    · intro operation member
      rw [List.mem_singleton.mp member]
      have only : ∀ parameter ∈ callerParameters plainPlatform false (petsOperation "X-Request-Id").parameters,
          parameter = petsHeader "X-Request-Id" :=
        fun parameter isCaller => List.mem_singleton.mp (List.mem_of_mem_filter isCaller)
      refine ⟨by decide +kernel, by decide +kernel, ?_, ?_, ?_⟩
      · intro parameter isCaller _
        rw [only parameter isCaller]
        decide
      · intro parameter isCaller _
        rw [only parameter isCaller]
        exact ⟨.inl rfl, rfl⟩
      · have resolve : (toolSchemas plainPlatform false (petsOperation "X-Request-Id")).all (fun schema =>
            (validateLocalSchemaReferences plainPlatform schema []).isOk) = true := by decide +kernel
        intro schema isSchema
        have passed := List.all_eq_true.mp resolve schema isSchema
        refine (@validateLocalSchemaReferences_iff plainPlatform schema []).mp ?_
        cases checked : validateLocalSchemaReferences plainPlatform schema [] with
        | error message =>
          rw [checked] at passed
          cases passed
        | ok _ => rfl
    · intro operation member parameter isParameter isRequired
      rw [List.mem_singleton.mp member] at isParameter
      rw [List.mem_singleton.mp isParameter] at isRequired
      cases isRequired

end Mcplica.Compilers
