import Mcplica.Builds.CredentialMapping
import Mcplica.Sources.Discovery

/-! # Readiness of a build

`app.services.builds.readiness` evaluates the security alternatives of the discovery as the build's mapping
evaluates those of the canonical API, and `BuildService.create` asks it, and the routing of the discovery, before
a build is requested. -/

namespace Mcplica.Builds

open Mcplica.Domain Mcplica.Library Mcplica.Contracts Mcplica.Deployments Mcplica.Compilers Mcplica.Sources
open Mcplica.Contracts.Json (entry)

/-- The columns of a credential that the readiness reads. -/
structure CredentialRecord where
  id : Uuid
  schemeType : CredentialScheme
  metadata : JsonObject
  revokedAt : Option Instant

namespace CredentialRecord

def candidate (credential : CredentialRecord) : CredentialCandidate :=
  ⟨credential.id, credential.schemeType, credential.metadata⟩

def snapshot (credential : CredentialRecord) : BuildCredentialSnapshot :=
  ⟨credential.id, credential.schemeType, credential.metadata⟩

end CredentialRecord

def activeCredentials (credentials : List CredentialRecord) : List CredentialRecord :=
  credentials.filter fun credential => credential.revokedAt.isNone

structure CredentialMappingReadiness where
  required : Bool
  complete : Bool
  boundSchemeNames : List Text
  unresolvedOperationKeys : List Text
  deriving Repr, DecidableEq

/-- `_scheme_spec` on a row of the discovery, where types and locations are texts. -/
def discoveredSchemeSpec (scheme : SecuritySchemeDiscoveryRecord) : AuthSchemeSpec :=
  let byType : List (Text × CredentialScheme) := [
    ("http_bearer", .bearer), ("http_basic", .basic),
    ("oauth2_client_credentials", .oauth2ClientCredentials), ("static_headers", .staticHeaders)]
  let byLocation : List (Text × CredentialScheme) := [("header", .apiKeyHeader), ("query", .apiKeyQuery)]
  let isApiKey := decide (scheme.type = "api_key")
  { name := scheme.name
    expectedCredentialScheme :=
      if isApiKey then scheme.location.bind fun location => byLocation.lookup location else byType.lookup scheme.type
    parameterName := if isApiKey then scheme.parameterName else none
    advertisedScopes := scheme.advertisedScopes
    oauth := scheme.type = "oauth2_client_credentials" }

section

variable (unicode : Unicode)

/-- What is selected for an operation, if anything. -/
def requirementSelection (schemes : List (Text × AuthSchemeSpec)) (active : List CredentialCandidate)
    (operation : OperationSecurityRequirementRecord) : Except MappingFailure (Text × Option AuthSelectionPlan) := do
  let (selection, _) ← selectAuthAlternative unicode schemes active operation.alternatives
  return (operation.operationKey, selection)

def credentialMappingReadiness (discovery : SourceConfigurationDiscovery) (credentials : List CredentialRecord) :
    Except MappingFailure CredentialMappingReadiness := do
  let active := (activeCredentials credentials).map CredentialRecord.candidate
  let schemes := discovery.securitySchemes.map fun scheme => (scheme.name, discoveredSchemeSpec scheme)
  let operations := discovery.securityRequirements.filter fun operation => !operation.anonymousAllowed
  let selections ← operations.mapM (requirementSelection unicode schemes active)
  let unresolved := (selections.filter fun (_, selection) => selection.isNone).map Prod.fst
  let bound := selections.filterMap fun (_, selection) => selection.map AuthSelectionPlan.schemeName
  return {
    required := !operations.isEmpty
    complete := unresolved.isEmpty
    boundSchemeNames := Text.sorted bound.dedup
    unresolvedOperationKeys := Text.sorted unresolved }

/-! ## The gates of a build request -/

inductive GateFailure where
  /-- `InvalidStateError` -/
  | invalidState (message : Text) (details : JsonObject)
  | mapping (failure : MappingFailure)

def routingGate (discovery : SourceConfigurationDiscovery) : Except GateFailure Unit :=
  ensure discovery.routingComplete (.invalidState "Every operation must resolve to one applicable upstream server" [
    entry "reason_code" (.text "ROUTING_INCOMPLETE"),
    entry "remediation" (.text "Resolve ambiguous server selections before building.")])

def credentialGate (discovery : SourceConfigurationDiscovery) (credentials : List CredentialRecord) :
    Except GateFailure Unit := do
  let readiness ← (credentialMappingReadiness unicode discovery credentials).mapError .mapping
  ensure readiness.complete (.invalidState "Upstream credential mapping is incomplete or ambiguous" [
    entry "reason_code" (.text "CREDENTIAL_MAPPING_INCOMPLETE"),
    entry "operation_keys" (.array (readiness.unresolvedOperationKeys.map .string)),
    entry "remediation" (.text
      "Bind exactly one compatible active credential for every required operation security alternative.")])

/-- The two checks that `BuildService.create` makes on the discovery. -/
def buildGates (discovery : SourceConfigurationDiscovery) (credentials : List CredentialRecord) :
    Except GateFailure Unit := do
  routingGate discovery
  credentialGate unicode discovery (activeCredentials credentials)

end

section

variable {platform : Platform} {project : ProjectRoutingConfiguration} {canonical : CanonicalApi}
  {credentials : List CredentialRecord} {operation : CanonicalOperation}

/-! ## The two representations -/

theorem discoveredSchemeSpec_row (name : Text) (scheme : CanonicalSecurityScheme) :
    discoveredSchemeSpec (securitySchemeRow canonical name scheme) = schemeSpec name scheme := by
  obtain ⟨type, _, location, _, _, _, _⟩ := scheme
  cases type with
  | apiKey =>
    cases location with
    | none => rfl
    | some location => cases location <;> rfl
  | _ => rfl

theorem lookup_discovered (unique : (canonical.securitySchemes.map Prod.fst).Nodup) (name : Text) :
    ((discoverConfiguration project canonical).securitySchemes.map fun scheme =>
      (scheme.name, discoveredSchemeSpec scheme)).lookup name = (schemeSpecs canonical).lookup name := by
  have rows : ((discoverConfiguration project canonical).securitySchemes.map fun scheme =>
      (scheme.name, discoveredSchemeSpec scheme)) =
        (Text.sortedBy Prod.fst canonical.securitySchemes).map fun entry => (entry.1, schemeSpec entry.1 entry.2) := by
    rw [discoverConfiguration, List.map_map]
    refine List.map_congr_left fun scheme _ => ?_
    rw [Function.comp_apply, discoveredSchemeSpec_row]
    rfl
  have sorted := Text.perm_sortedBy Prod.fst canonical.securitySchemes
  rw [rows]
  refine lookup_perm (sorted.map _) ?_ name
  rw [List.map_map]
  exact (sorted.map Prod.fst).nodup_iff.mpr unique

theorem select_discovered (unique : (canonical.securitySchemes.map Prod.fst).Nodup)
    (available : List CredentialCandidate) (operation : CanonicalOperation) :
    selectAuthAlternative platform.unicode
      ((discoverConfiguration project canonical).securitySchemes.map fun scheme =>
        (scheme.name, discoveredSchemeSpec scheme)) available (securityRequirementRow operation).alternatives =
      selectAuthAlternative platform.unicode (schemeSpecs canonical) available (alternatives operation) := by
  have rewritten : (securityRequirementRow operation).alternatives =
      (alternatives operation).map (Text.sortedBy Prod.fst) := List.map_map.symm
  rw [rewritten]
  exact selectAuthAlternative_congr (lookup_discovered unique) (Text.perm_sortedBy Prod.fst) _

/-- The operations whose alternatives the readiness evaluates. -/
theorem discovered_requirements : (discoverConfiguration project canonical).securityRequirements.filter
      (fun row => !row.anonymousAllowed) =
    (canonical.operations.filter fun operation => !anonymousAllowed operation).map securityRequirementRow := by
  rw [discoverConfiguration, List.filter_map, List.filter_filter]
  congr 1
  refine List.filter_congr fun operation _ => ?_
  simp only [anonymousAllowed, securityRequirementRow, offersAnonymous, Function.comp_apply, Bool.not_or]
  exact Bool.and_comm _ _

theorem requirementSelection_eq_ok {schemes : List (Text × AuthSchemeSpec)} {active : List CredentialCandidate}
    {row : OperationSecurityRequirementRecord} {result : Text × Option AuthSelectionPlan} :
    requirementSelection platform.unicode schemes active row = .ok result ↔
      ∃ selection rejections, selectAuthAlternative platform.unicode schemes active row.alternatives =
        .ok (selection, rejections) ∧ result = (row.operationKey, selection) := by
  simp only [requirementSelection, bind_eq_ok, pure, Except.pure, Except.ok.injEq]
  constructor
  · rintro ⟨⟨selection, rejections⟩, selected, rfl⟩
    exact ⟨selection, rejections, selected, rfl⟩
  · rintro ⟨selection, rejections, selected, rfl⟩
    exact ⟨_, selected, rfl⟩

/-- The readiness is complete when every operation that needs a credential has one. -/
theorem readiness_complete (unique : (canonical.securitySchemes.map Prod.fst).Nodup) :
    (∃ readiness, credentialMappingReadiness platform.unicode (discoverConfiguration project canonical) credentials =
        .ok readiness ∧ readiness.complete = true) ↔
      ∀ operation ∈ canonical.operations, anonymousAllowed operation = false →
        CredentialResolved platform.unicode canonical ((activeCredentials credentials).map CredentialRecord.candidate)
          operation := by
  unfold credentialMappingReadiness
  simp only [discovered_requirements, bind_eq_ok, pure, Except.pure, Except.ok.injEq]
  constructor
  · rintro ⟨_, ⟨selections, ran, rfl⟩, complete⟩ operation member secured
    have isRow : securityRequirementRow operation ∈
        (canonical.operations.filter fun operation => !anonymousAllowed operation).map securityRequirementRow := by
      refine List.mem_map_of_mem (List.mem_filter.mpr ⟨member, ?_⟩)
      rw [secured]
      rfl
    obtain ⟨_, isSelection, made⟩ := exists_of_mapM_source ran isRow
    obtain ⟨selection, rejections, selected, rfl⟩ := requirementSelection_eq_ok.mp made
    rw [select_discovered unique] at selected
    cases selection with
    | some plan => exact ⟨plan, rejections, selected⟩
    | none =>
      rw [List.isEmpty_iff, List.map_eq_nil_iff, List.filter_eq_nil_iff] at complete
      exact absurd rfl (complete _ isSelection)
  · intro resolved
    have rows : ∀ row ∈ (canonical.operations.filter fun operation => !anonymousAllowed operation).map
        securityRequirementRow, ∃ plan rejections, selectAuthAlternative platform.unicode
          ((discoverConfiguration project canonical).securitySchemes.map fun scheme =>
            (scheme.name, discoveredSchemeSpec scheme))
          ((activeCredentials credentials).map CredentialRecord.candidate) row.alternatives =
            .ok (some plan, rejections) := by
      intro row isRow
      obtain ⟨operation, member, rfl⟩ := List.mem_map.mp isRow
      rw [List.mem_filter, Bool.not_eq_true'] at member
      obtain ⟨plan, rejections, selected⟩ := resolved operation member.1 member.2
      exact ⟨plan, rejections, (select_discovered unique _ _).trans selected⟩
    obtain ⟨selections, ran⟩ := succeeds_mapM.mpr fun row isRow => by
      obtain ⟨plan, rejections, selected⟩ := rows row isRow
      exact ⟨_, requirementSelection_eq_ok.mpr ⟨_, _, selected, rfl⟩⟩
    refine ⟨_, ⟨selections, ran, rfl⟩, ?_⟩
    rw [List.isEmpty_iff, List.map_eq_nil_iff, List.filter_eq_nil_iff]
    intro selection isSelection
    obtain ⟨row, isRow, made⟩ := exists_of_mapM_result ran isSelection
    obtain ⟨plan, rejections, selected⟩ := rows row isRow
    obtain ⟨_, _, again, rfl⟩ := requirementSelection_eq_ok.mp made
    rw [selected] at again
    cases again
    simp

/-- The readiness of the discovery is complete exactly when the mapping of the build, without exclusions, exists. -/
theorem readiness_predicts_mapping (unique : (canonical.securitySchemes.map Prod.fst).Nodup) :
    (∃ readiness, credentialMappingReadiness platform.unicode (discoverConfiguration project canonical) credentials =
        .ok readiness ∧ readiness.complete = true) ↔
      Succeeds (mapCredentials platform.unicode canonical ((activeCredentials credentials).map CredentialRecord.snapshot)
        []) := by
  rw [readiness_complete unique, succeeds_mapCredentials, List.map_map]
  have everything : executableOperations canonical [] = canonical.operations := List.filter_eq_self.mpr fun _ _ => rfl
  rw [everything]
  rfl

/-! ## The gates and the exclusions -/

theorem routingComplete_iff : (discoverConfiguration project canonical).routingComplete = true ↔
    ∀ operation ∈ canonical.operations, (operationRouting project canonical operation).resolved = true := by
  simp [discoverConfiguration]

theorem activeCredentials_idempotent : activeCredentials (activeCredentials credentials) = activeCredentials credentials := by
  simp [activeCredentials, List.filter_filter]

theorem succeeds_buildGates (unique : (canonical.securitySchemes.map Prod.fst).Nodup) :
    Succeeds (buildGates platform.unicode (discoverConfiguration project canonical) credentials) ↔
      ∀ operation ∈ canonical.operations, (operationRouting project canonical operation).resolved = true ∧
        (anonymousAllowed operation = false → CredentialResolved platform.unicode canonical
          ((activeCredentials credentials).map CredentialRecord.candidate) operation) := by
  have credentialPasses : Succeeds (credentialGate platform.unicode (discoverConfiguration project canonical)
      (activeCredentials credentials)) ↔ ∀ operation ∈ canonical.operations, anonymousAllowed operation = false →
        CredentialResolved platform.unicode canonical ((activeCredentials credentials).map CredentialRecord.candidate)
          operation := by
    have complete := @readiness_complete platform project canonical (activeCredentials credentials) unique
    rw [activeCredentials_idempotent] at complete
    rw [← complete, credentialGate]
    simp only [succeeds_bind, mapError_eq_ok, succeeds_ensure]
  unfold buildGates routingGate
  rw [succeeds_ensure_bind, routingComplete_iff, credentialPasses, ← forall₂_and]

/-- When everything that is not excluded is routed and mapped, the gates of a build pass exactly when the excluded
operations are routed and mapped as well. -/
theorem gates_pass_iff_excluded_resolve {excluded : List Text} (unique : (canonical.securitySchemes.map Prod.fst).Nodup)
    (routed : ∀ operation ∈ executableOperations canonical excluded,
      (operationRouting project canonical operation).resolved = true)
    (mapped : Succeeds (mapCredentials platform.unicode canonical
      ((activeCredentials credentials).map CredentialRecord.snapshot) excluded)) :
    Succeeds (buildGates platform.unicode (discoverConfiguration project canonical) credentials) ↔
      ∀ operation ∈ canonical.operations, operation.key ∈ excluded →
        (operationRouting project canonical operation).resolved = true ∧
        (anonymousAllowed operation = false → CredentialResolved platform.unicode canonical
          ((activeCredentials credentials).map CredentialRecord.candidate) operation) := by
  rw [succeeds_buildGates unique]
  rw [succeeds_mapCredentials, List.map_map] at mapped
  constructor
  · intro passes operation member _
    exact passes operation member
  · intro excludedResolve operation member
    by_cases isExcluded : operation.key ∈ excluded
    · exact excludedResolve operation member isExcluded
    · have executable : operation ∈ executableOperations canonical excluded := by
        rw [executableOperations, List.mem_filter]
        exact ⟨member, by simpa using isExcluded⟩
      exact ⟨routed operation executable, mapped operation executable⟩

end

/-! ## An excluded operation in the way -/

def oauthRecord : CredentialRecord :=
  ⟨20, .oauth2ClientCredentials, [], none⟩

/-- The one alternative of the operation has its credential. -/
theorem scoped_readiness_predicts :
    (∃ readiness, credentialMappingReadiness plainPlatform.unicode (discoverConfiguration {} (scopedApi [["read"]]))
        [oauthRecord] = .ok readiness ∧ readiness.complete = true) ∧
      Succeeds (mapCredentials plainPlatform.unicode (scopedApi [["read"]]) [oauthCredential] []) := by
  have unique : ((scopedApi [["read"]]).securitySchemes.map Prod.fst).Nodup := List.nodup_singleton _
  have mapped : Succeeds (mapCredentials plainPlatform.unicode (scopedApi [["read"]]) [oauthCredential] []) := ⟨_, rfl⟩
  exact ⟨(@readiness_predicts_mapping plainPlatform {} (scopedApi [["read"]]) [oauthRecord] unique).mpr mapped, mapped⟩

/-- A second operation asks for a scope that is not advertised. -/
def adminOperation : CanonicalOperation :=
  { scopedOperation [["admin"]] with
    key := "op_admin", pathTemplate := "/admin", provenance := ⟨⟨"v1", "#/paths/~1admin/get"⟩, []⟩ }

def adminApi : CanonicalApi :=
  { scopedApi [["read"]] with operations := [scopedOperation [["read"]], adminOperation] }

/-- The operation without a credential is excluded, and the build is refused all the same. -/
theorem excluded_operation_blocks :
    (∀ operation ∈ executableOperations adminApi ["op_admin"], (operationRouting {} adminApi operation).resolved = true) ∧
    Succeeds (mapCredentials plainPlatform.unicode adminApi [oauthCredential] ["op_admin"]) ∧
    ¬ Succeeds (buildGates plainPlatform.unicode (discoverConfiguration {} adminApi) [oauthRecord]) := by
  refine ⟨by decide, ⟨_, rfl⟩, ?_⟩
  rintro ⟨_, passes⟩
  have refused : (buildGates plainPlatform.unicode (discoverConfiguration {} adminApi) [oauthRecord]).isOk = false := rfl
  rw [passes] at refused
  cases refused

/-- An excluded operation that has a server and a credential is not in the way. -/
theorem resolved_exclusion_passes :
    Succeeds (buildGates plainPlatform.unicode (discoverConfiguration {} (scopedApi [["read"]])) [oauthRecord]) := by
  have unique : ((scopedApi [["read"]]).securitySchemes.map Prod.fst).Nodup := List.nodup_singleton _
  refine (@gates_pass_iff_excluded_resolve plainPlatform {} (scopedApi [["read"]]) [oauthRecord] ["op_items"] unique
    (by decide) ⟨[], rfl⟩).mpr fun operation member _ => ?_
  rw [List.mem_singleton.mp member]
  exact ⟨by decide, fun _ => ⟨_, _, rfl⟩⟩

end Mcplica.Builds
