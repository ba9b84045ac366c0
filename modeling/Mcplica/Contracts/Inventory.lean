import Mcplica.Contracts.Canonical

/-! # API Inventories

The models of `mcp_contracts.inventory`, with what their validators guarantee. -/

namespace Mcplica.Contracts

open Mcplica.Library

structure InventoryServer where
  id : Text
  url : Text
  description : Option Text := none

structure InventorySecurityScheme where
  type : SecuritySchemeType
  scheme : Option Text := none
  location : Option SecurityLocation := none
  name : Option Text := none
  tokenUrl : Option Text := none
  scopes : List Text := []

structure InventoryParameter where
  name : Text
  location : ParameterLocation
  required : Bool := false
  schema : JsonObject
  description : Option Text := none
  style : Option Text := none
  explode : Option Bool := none
  allowReserved : Bool := false

structure InventoryRequestBody where
  contentType : Text := "application/json"
  required : Bool := false
  description : Option Text := none
  schema : JsonObject

/-- The content type and the schema come together. -/
structure InventoryResponse where
  content : Option (Text × JsonObject) := none
  description : Option Text := none

structure InventoryOperation where
  operationId : Option Text := none
  method : HttpMethod
  path : Text
  serverId : Option Text := none
  summary : Option Text := none
  description : Option Text := none
  parameters : List InventoryParameter := []
  requestBody : Option InventoryRequestBody := none
  responses : List (Text × InventoryResponse)
  security : List (List (Text × List Text)) := []
  tags : List Text := []

/-- The server that the operation names, if it names one. -/
def InventoryOperation.ownServer (operation : InventoryOperation) : Option Text :=
  operation.serverId.filter (· ≠ [])

structure ApiInventory where
  name : Text
  version : Option Text := none
  description : Option Text := none
  servers : List InventoryServer := []
  securitySchemes : List (Text × InventorySecurityScheme) := []
  schemas : List (Text × JsonObject) := []
  operations : List InventoryOperation
  serverIds : (servers.map InventoryServer.id).Nodup
  knownServers : ∀ operation ∈ operations, ∀ server, operation.ownServer = some server →
    server ∈ servers.map InventoryServer.id

end Mcplica.Contracts
