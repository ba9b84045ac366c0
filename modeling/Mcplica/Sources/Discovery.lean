import Mcplica.Compilers.Compiler
import Mcplica.Domain.Sources

/-! # Source configuration discovery

The part of `SourceService.discover_configuration` that turns a canonical API, parsed without the project's
selections, into what the user sees: the servers, the server of every operation, the security schemes and what
every operation requires of them. -/

namespace Mcplica.Sources

open Mcplica.Domain Mcplica.Library Mcplica.Contracts Mcplica.Compilers

inductive ServerScope where
  | root
  | path
  | operation
  | projectDefault
  | inventory
  deriving Repr, DecidableEq

structure ServerCandidateRecord where
  ref : Text
  url : Text
  description : Option Text
  scope : ServerScope
  sourcePointer : Text
  applicableOperationKeys : List Text

structure OperationServerRoutingRecord where
  operationKey : Text
  method : Text
  path : Text
  candidateRefs : List Text
  selectedServerRef : Option Text
  configuredServerRef : Option Text
  selectionRequired : Bool
  selectionError : Option Text

structure SecuritySchemeDiscoveryRecord where
  name : Text
  type : Text
  location : Option Text
  parameterName : Option Text
  tokenUrl : Option Text
  advertisedScopes : List Text
  applicableOperationKeys : List Text
  optionalForAllOperations : Bool
  sourcePointer : Text

structure OperationSecurityRequirementRecord where
  operationKey : Text
  alternatives : List (List (Text × List Text))
  anonymousAllowed : Bool

structure SourceConfigurationDiscovery where
  servers : List ServerCandidateRecord
  operations : List OperationServerRoutingRecord
  securitySchemes : List SecuritySchemeDiscoveryRecord
  securityRequirements : List OperationSecurityRequirementRecord
  routingComplete : Bool

/-! ## Servers -/

/-- `_server_scope` -/
def serverScope (pointer : Text) (sourceFormat : SourceFormat) : ServerScope :=
  if Text.includes pointer "x-mcplica-project-default-base-url" then .projectDefault
  else if sourceFormat = .apiInventory then .inventory
  else
    let parts := pointer.splitOn '/'
    if !parts.contains "paths" then .root
    else if parts.idxOf ("servers" : Text) ≥ parts.idxOf ("paths" : Text) + 3 then .operation
    else .path

/-- `_inherited_active_server_ref` -/
def inheritedActiveServerRef (candidateRefs : List Text) (servers : List CanonicalServer) (sourceFormat : SourceFormat)
    (activeServerRef : Option Text) : Option Text :=
  let scopeOf (ref : Text) : Option ServerScope :=
    (servers.find? fun server => server.key = ref).map fun server => serverScope server.sourceRef.pointer sourceFormat
  let inherited : ServerScope := if sourceFormat = .apiInventory then .inventory else .root
  activeServerRef.filter fun active =>
    candidateRefs.contains active && candidateRefs.length > 1 &&
      candidateRefs.all fun ref => scopeOf ref = some inherited

def notApplicable : Text :=
  "Configured server is not applicable to this operation"

/-- One row of the routing table: a mapping of the operation comes before the active server of the project. -/
def operationRouting (project : ProjectRoutingConfiguration) (canonical : CanonicalApi) (operation : CanonicalOperation) :
    OperationServerRoutingRecord :=
  let configured := (project.serverMappings.lookup operation.key).orElse fun _ =>
    inheritedActiveServerRef operation.serverCandidates canonical.servers canonical.sourceFormat project.activeServerRef
  let selectionError := if configured.any fun ref => !operation.serverCandidates.contains ref then some notApplicable
    else none
  let selected := if selectionError.isSome then none else orElse configured operation.serverRef
  { operationKey := operation.key
    method := operation.method.value
    path := operation.pathTemplate
    candidateRefs := operation.serverCandidates
    selectedServerRef := selected
    configuredServerRef := configured
    selectionRequired := selected.isNone
    selectionError }

/-- The operation resolves to one server. -/
def OperationServerRoutingRecord.resolved (row : OperationServerRoutingRecord) : Bool :=
  row.selectedServerRef.isSome && row.selectionError.isNone

def serverCandidate (canonical : CanonicalApi) (server : CanonicalServer) : ServerCandidateRecord where
  ref := server.key
  url := server.url
  description := server.description
  scope := serverScope server.sourceRef.pointer canonical.sourceFormat
  sourcePointer := server.sourceRef.pointer
  applicableOperationKeys := Text.sorted <| canonical.operations.flatMap fun operation =>
    (operation.serverCandidates.filter (· = server.key)).map fun _ => operation.key

/-! ## Security -/

def requires (operation : CanonicalOperation) (name : Text) : Bool :=
  operation.security.any fun requirement => (requirement.schemeScopes.lookup name).isSome

def offersAnonymous (operation : CanonicalOperation) : Bool :=
  operation.security.any fun requirement => requirement.schemeScopes.isEmpty

def securitySchemeRow (canonical : CanonicalApi) (name : Text) (scheme : CanonicalSecurityScheme) :
    SecuritySchemeDiscoveryRecord :=
  let operations := canonical.operations.filter fun operation => requires operation name
  { name
    type := scheme.type.value
    location := scheme.location.map SecurityLocation.value
    parameterName := scheme.name
    tokenUrl := scheme.tokenUrl
    advertisedScopes := scheme.scopes
    applicableOperationKeys := Text.sorted (operations.map CanonicalOperation.key)
    optionalForAllOperations := !operations.isEmpty && operations.all offersAnonymous
    sourcePointer := scheme.sourceRef.pointer }

def securityRequirementRow (operation : CanonicalOperation) : OperationSecurityRequirementRecord where
  operationKey := operation.key
  alternatives := operation.security.map fun requirement => Text.sortedBy Prod.fst requirement.schemeScopes
  anonymousAllowed := offersAnonymous operation

/-- What the discovery derives from the canonical API; the fingerprint of the configuration is left out. -/
def discoverConfiguration (project : ProjectRoutingConfiguration) (canonical : CanonicalApi) : SourceConfigurationDiscovery :=
  let operations := canonical.operations.map (operationRouting project canonical)
  { servers := canonical.servers.map (serverCandidate canonical)
    operations
    securitySchemes := (Text.sortedBy Prod.fst canonical.securitySchemes).map fun (name, scheme) =>
      securitySchemeRow canonical name scheme
    securityRequirements := (canonical.operations.filter fun operation => !operation.security.isEmpty).map
      securityRequirementRow
    routingComplete := operations.all OperationServerRoutingRecord.resolved }

end Mcplica.Sources
