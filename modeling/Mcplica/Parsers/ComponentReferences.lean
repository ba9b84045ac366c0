import Mcplica.Parsers.ParsedSchemas

/-! # References to component schemas

Which operations of a document refer to a component schema, said of the document as it is written: from the schemas of
their parameters, request bodies and responses, directly or through other schemas. -/

namespace Mcplica.Parsers

open Mcplica.Library
open Mcplica.Contracts
open Mcplica.Domain

/-! ## Operations as they are written -/

/-- A node is resolved with some number of steps. -/
def ReferenceScope.ResolvesIn (scope : ReferenceScope) (outer : Resolved) (raw : Json) (place : Text) (resolved : Resolved) :
    Prop :=
  ∃ fuel, scope.resolveIn fuel outer raw place = .ok resolved

/-- An operation of a document: the nodes that its path item and the operation resolve to. -/
structure WrittenOperation where
  path : Text
  methodName : Text
  item : Resolved
  resolved : Resolved

namespace WrittenOperation

variable (operation : WrittenOperation)

def key (libraries : ParserLibraries) : Text :=
  operationKey libraries.sha256 libraries.unicode operation.methodName operation.path
    (operationIdOf libraries operation.resolved)

/-- The operation stands under its path and method. -/
def StandsIn (libraries : ParserLibraries) (scope : ReferenceScope) : Prop :=
  ∃ paths rawItem name raw, Json.get scope.rootDocument "paths" = some (.object paths) ∧ (operation.path, rawItem) ∈ paths ∧
    (∃ fuel, scope.resolveRoot fuel rawItem (("#/paths/" : Text) ++ pointerToken operation.path) = .ok operation.item) ∧
    (name, raw) ∈ operation.item.value ∧ name.casefold libraries.unicode = operation.methodName ∧
    (httpMethodOf operation.methodName).isSome ∧
    scope.ResolvesIn operation.item raw (operation.item.pointer ++ '/' :: operation.methodName) operation.resolved

end WrittenOperation

/-! ## Their schemas -/

/-- The schema of a media type, a parameter or a header. -/
def schemaField (node : Json) : Option JsonObject :=
  match node with
  | .object fields =>
    match Json.get fields "schema" with
    | some (.object schema) => some schema
    | _ => none
  | _ => none

def contentSchemas (fields : JsonObject) : List JsonObject :=
  match Json.get fields "content" with
  | some (.object media) => media.filterMap fun entry => schemaField entry.2
  | _ => []

/-- A parameter or a header has a schema or a content. -/
def parameterSchemas (fields : JsonObject) : List JsonObject :=
  (schemaField (.object fields)).toList ++ contentSchemas fields

/-- The parameters that are written for the path and for the operation; one of the operation replaces an inherited one. -/
def WrittenOperation.parameterInputs (operation : WrittenOperation) : List ParameterInput :=
  let written (node : Resolved) : List Json :=
    match Json.get node.value "parameters" with
    | some (.array items) => items
    | _ => []
  parameterInputsOf operation.item (written operation.item) ++
    parameterInputsOf operation.resolved (written operation.resolved)

section References

variable (scope : ReferenceScope) (operation : WrittenOperation)

/-- The schemas that stand in an operation, each with the document it stands in. -/
inductive SchemaIn : OpenApiContext → JsonObject → Prop
  | parameter {fuel : Nat} {merged : MergedParameters} {name : Text} {location : ParameterLocation} {parameter : Resolved}
      {schema : JsonObject} (areMerged : operation.parameterInputs.foldlM (mergeParameter scope fuel) [] = .ok merged)
      (member : ((name, location), parameter) ∈ merged) (isSchema : schema ∈ parameterSchemas parameter.value) :
      SchemaIn parameter.context schema
  | requestBody {raw : Json} {body : Resolved} {schema : JsonObject}
      (written : Json.get operation.resolved.value "requestBody" = some raw)
      (resolves : scope.ResolvesIn operation.resolved raw (operation.resolved.pointer ++ ("/requestBody" : Text)) body)
      (isSchema : schema ∈ contentSchemas body.value) : SchemaIn body.context schema
  | response {responses : JsonObject} {statusCode : Text} {raw : Json} {response : Resolved} {schema : JsonObject}
      (written : Json.get operation.resolved.value "responses" = some (.object responses))
      (member : (statusCode, raw) ∈ responses)
      (resolves : scope.ResolvesIn operation.resolved raw
        (operation.resolved.pointer ++ ("/responses/" : Text) ++ pointerToken statusCode) response)
      (isSchema : schema ∈ contentSchemas response.value) : SchemaIn response.context schema
  | header {responses headers : JsonObject} {statusCode name : Text} {raw rawHeader : Json} {response header : Resolved}
      {schema : JsonObject} (written : Json.get operation.resolved.value "responses" = some (.object responses))
      (member : (statusCode, raw) ∈ responses)
      (resolves : scope.ResolvesIn operation.resolved raw
        (operation.resolved.pointer ++ ("/responses/" : Text) ++ pointerToken statusCode) response)
      (areHeaders : Json.get response.value "headers" = some (.object headers)) (isHeader : (name, rawHeader) ∈ headers)
      (headerResolves : scope.ResolvesIn response rawHeader (response.pointer ++ ("/headers/" : Text) ++ pointerToken name)
        header)
      (isSchema : schema ∈ parameterSchemas header.value) : SchemaIn header.context schema

/-- The place is that of a component schema of the document. -/
def IsComponent (place : ReferenceTarget) (name : Text) : Prop :=
  place.sourceVersionId = scope.rootSourceVersionId ∧
    (place.pointer.splitOn '/').map unescapePointerToken = [("#" : Text), ("components" : Text), ("schemas" : Text), name]

/-- A schema of the operation refers to the component, or to a schema through which it is reached. -/
def RefersTo (name : Text) : Prop :=
  ∃ context schema place, SchemaIn scope operation context schema ∧ Referenced scope context schema place ∧
    IsComponent scope place name

end References

/-- The key is that of an operation of the document that refers to the component. -/
def KeyRefersTo (libraries : ParserLibraries) (scope : ReferenceScope) (key name : Text) : Prop :=
  ∃ operation : WrittenOperation, operation.StandsIn libraries scope ∧ operation.key libraries = key ∧
    RefersTo scope operation name

/-- The names of the component schemas. -/
def componentNames (document : JsonObject) : List Text :=
  match Json.get document "components" with
  | some (.object components) =>
    match Json.get components "schemas" with
    | some (.object schemas) => schemas.map Prod.fst
    | _ => []
  | _ => []

end Mcplica.Parsers
