import Mcplica.Contracts.Canonical

/-! # The build validator

`app.validators.build.validate_build`: the findings about a manifest and the canonical API it was
compiled from. -/

namespace Mcplica.Validators

open Mcplica.Library Mcplica.Contracts
open Mcplica.Contracts.Json (entry)

inductive FindingSeverity where
  | info
  | warning
  | error
  deriving Repr, DecidableEq

inductive FindingCode where
  | runtimeManifestInvalid
  | exclusionUnknownOperation
  | duplicateOperationMapping
  | expectedOperationMissing
  | unexpectedToolOperation
  | duplicateToolName
  | methodChanged
  | pathChanged
  | serverChanged
  | serverUnknown
  | authProfileUnknown
  | requiredParameterDropped
  | requiredBodyDropped
  | invalidJsonSchema
  | sparseSourceDescription
  | upstreamAllowlistMismatch
  | canonicalHashMismatch
  | sourceBindingMismatch
  | runtimeIncompatible
  | coverageIncomplete
  deriving Repr, DecidableEq

structure ValidationFinding where
  code : FindingCode
  severity : FindingSeverity
  stage : Text
  message : Text
  operationKey : Option Text := none
  sourceRef : Option SourceRef := none
  details : JsonObject := []

/-- The finding, if its condition holds. -/
def findingIf (condition : Bool) (finding : ValidationFinding) : List ValidationFinding :=
  if condition then [finding] else []

/-- Percent in hundredths, rounded half to even; `expected` is not zero. -/
def roundedPercent (expected generated : Nat) : Nat :=
  let scaled := generated * 10000
  let quotient := scaled / expected
  let remainder := scaled % expected
  if expected < 2 * remainder || (2 * remainder = expected && quotient % 2 = 1) then quotient + 1 else quotient

/-- `coverage_percent`, in hundredths of a percent. -/
def coveragePercent (expected generated : Nat) : Nat :=
  if expected = 0 then (if generated = 0 then 10000 else 0) else roundedPercent expected generated

section

variable (platform : Platform)

/-! ## One tool -/

def mappingFinding (operation : CanonicalOperation) (code : FindingCode) (message : String)
    (details : JsonObject := []) : ValidationFinding where
  code := code
  severity := .error
  stage := "compiler"
  message := message
  operationKey := some operation.key
  sourceRef := some operation.provenance.operation
  details := details

/-- Required parameters that may come from the caller, each with its location. -/
def sourceRequired (operation : CanonicalOperation) : List (Text × Text) :=
  (operation.parameters.filter fun parameter => parameter.required && parameter.location ≠ .cookie).map
    fun parameter => (parameter.location.value, parameter.name)

def mappedRequired (tool : MCPTool) : List (Text × Text) :=
  (tool.requestMapping.parameters.filter ParameterMapping.required).map
    fun mapping => (mapping.target.value, mapping.sourceName)

def droppedParameters (operation : CanonicalOperation) (tool : MCPTool) : List (Text × Text) :=
  (sourceRequired operation).filter fun parameter => !(mappedRequired tool).contains parameter

def dropsBody (operation : CanonicalOperation) (tool : MCPTool) : Bool :=
  operation.requestBody.any fun body => body.required && !tool.requestMapping.body.any RequestBodyMapping.required

def schemaFindings (schema : JsonObject) (operationKey : Text) (direction : Text) : List ValidationFinding :=
  findingIf (!platform.checkSchema schema) {
    code := .invalidJsonSchema
    severity := .error
    stage := "manifest"
    message := ("Generated " : Text) ++ direction ++ (" JSON Schema is invalid" : Text)
    operationKey := some operationKey }

/-- The findings about a tool whose operation is known. -/
def mappingFindings (manifest : MCPManifest) (operation : CanonicalOperation) (tool : MCPTool) :
    List ValidationFinding :=
  let mapping := tool.requestMapping
  let dropped := droppedParameters operation tool
  findingIf (mapping.method ≠ operation.method) (mappingFinding operation .methodChanged "HTTP method changed") ++
  findingIf (mapping.path ≠ operation.pathTemplate) (mappingFinding operation .pathChanged "Path template changed") ++
  findingIf (some mapping.serverRef ≠ operation.serverRef)
    (mappingFinding operation .serverChanged "Upstream server mapping changed") ++
  findingIf (!manifest.serverIds.contains mapping.serverRef)
    (mappingFinding operation .serverUnknown "Tool references unknown server") ++
  findingIf (tool.securityProfileRef.any fun ref => ref ≠ [] && !manifest.authIds.contains ref)
    (mappingFinding operation .authProfileUnknown "Tool references unknown authentication profile") ++
  findingIf (!dropped.isEmpty)
    (mappingFinding operation .requiredParameterDropped "One or more required parameters were dropped"
      [entry "missing" (.array ((Text.sorted (dropped.map fun (location, name) => location ++ ':' :: name).dedup).map
        .string))]) ++
  findingIf (dropsBody operation tool)
    (mappingFinding operation .requiredBodyDropped "Required request body became optional or absent") ++
  schemaFindings platform tool.inputSchema tool.operationKey "input" ++
  tool.outputSchema.toList.flatMap (fun schema => schemaFindings platform schema tool.operationKey "output") ++
  findingIf ((operation.description.getD []) = [] && (operation.summary.getD []) = []) {
    code := .sparseSourceDescription
    severity := .warning
    stage := "semantic"
    message := "Source operation has no summary or description"
    operationKey := some operation.key
    sourceRef := some operation.provenance.operation }

def toolFindings (canonical : CanonicalApi) (manifest : MCPManifest) (tool : MCPTool) : List ValidationFinding :=
  match canonical.operations.find? fun operation => operation.key = tool.operationKey with
  | none => []
  | some operation => mappingFindings platform manifest operation tool

/-! ## Coverage -/

def coverageFinding (code : FindingCode) (message : Text) (operationKey : Text) (sourceRef : Option SourceRef) :
    ValidationFinding where
  code := code
  severity := .error
  stage := "coverage"
  message := message
  operationKey := some operationKey
  sourceRef := sourceRef

def expectedKeys (canonical : CanonicalApi) (excluded : List Text) : List Text :=
  canonical.operationKeys.filter fun key => !excluded.contains key

def generatedKeys (manifest : MCPManifest) : List Text :=
  manifest.enabledTools.map MCPTool.operationKey

def coverageFindings (canonical : CanonicalApi) (manifest : MCPManifest) (excluded : List Text) :
    List ValidationFinding :=
  let expected := expectedKeys canonical excluded
  let generated := generatedKeys manifest
  (Text.sorted (excluded.filter fun key => !canonical.operationKeys.contains key)).map (fun key =>
    coverageFinding .exclusionUnknownOperation
      (("Exclusion references unknown operation " : Text) ++ key) key none) ++
  (Text.sorted (repeated generated)).map (fun key =>
    coverageFinding .duplicateOperationMapping
      (("Operation maps to " : Text) ++ Text.ofNat (generated.count key) ++ (" generated tools" : Text)) key none) ++
  (Text.sorted (expected.filter fun key => !generated.contains key)).map (fun key =>
    coverageFinding .expectedOperationMissing "Expected source operation has no generated MCP tool" key
      ((canonical.operations.find? fun operation => operation.key = key).map fun operation => operation.provenance.operation)) ++
  (Text.sorted (generated.dedup.filter fun key => !expected.contains key)).map (fun key =>
    coverageFinding .unexpectedToolOperation "Generated tool maps to an excluded or unknown operation" key none)

/-! ## The manifest -/

/-- `_server_hostname`: the host without case; `none` where it raises. -/
def serverHostname (url : Text) : Option Text := do
  let parsed ← urlsplit platform.unicode url
  let hostname ← parsed.hostname platform.unicode
  return hostname.casefold platform.unicode

def sameSet (left right : List Text) : Bool :=
  left.all right.contains && right.all left.contains

def contractFindings (manifest : MCPManifest) (runtimeVersion : Text) : List ValidationFinding :=
  match validateManifestContract platform manifest runtimeVersion with
  | .ok () => []
  | .error message => [{
      code := .runtimeManifestInvalid
      severity := .error
      stage := "manifest"
      message }]

/-- `validate_build`; `none` where it raises because a server URL has no host. -/
def validateBuild (canonical : CanonicalApi) (manifest : MCPManifest) (excluded : List Text)
    (canonicalSha256 runtimeVersion : Text) : Option (List ValidationFinding) := do
  let hosts ← manifest.servers.mapM fun server => serverHostname platform server.url
  let duplicates := Text.sorted (repeated manifest.toolNames)
  let expected := (expectedKeys canonical excluded).length
  let generated := (generatedKeys manifest).length
  return contractFindings platform manifest runtimeVersion ++
    coverageFindings canonical manifest excluded ++
    findingIf (!duplicates.isEmpty) {
      code := .duplicateToolName
      severity := .error
      stage := "manifest"
      message := "Manifest tool names are not unique"
      details := [entry "tool_names" (.array (duplicates.map .string))] } ++
    manifest.tools.flatMap (toolFindings platform canonical manifest) ++
    findingIf (!sameSet manifest.security.allowedUpstreamHosts hosts) {
      code := .upstreamAllowlistMismatch
      severity := .error
      stage := "security"
      message := "Runtime upstream host allowlist does not exactly match manifest servers" } ++
    findingIf (manifest.build.canonicalSha256 ≠ canonicalSha256) {
      code := .canonicalHashMismatch
      severity := .error
      stage := "manifest"
      message := "Manifest canonical hash does not match the immutable snapshot" } ++
    findingIf (!sameSet manifest.build.sourceVersionIds canonical.sourceVersionIds) {
      code := .sourceBindingMismatch
      severity := .error
      stage := "manifest"
      message := "Manifest source versions do not match the canonical snapshot" } ++
    findingIf (platform.supports manifest.runtimeCompatibility runtimeVersion ≠ some true) {
      code := .runtimeIncompatible
      severity := .error
      stage := "protocol"
      message := "Configured generic runtime version is outside manifest compatibility"
      details := [entry "runtime_version" (.string runtimeVersion)] } ++
    findingIf (coveragePercent expected generated ≠ 10000) {
      code := .coverageIncomplete
      severity := .error
      stage := "coverage"
      message := "Expected operation coverage is not 100 percent"
      details := [entry "expected_operations" (.integer expected), entry "generated_tools" (.integer generated)] }

end

end Mcplica.Validators
