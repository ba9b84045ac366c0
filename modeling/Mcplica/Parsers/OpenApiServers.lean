import Mcplica.Parsers.OpenApiSchemas

/-! # Servers and security schemes of an OpenAPI document

`register_servers` and `_security_scheme`, with the URLs they resolve against the base URL of the project. -/

namespace Mcplica.Parsers

open Mcplica.Library
open Mcplica.Contracts
open Mcplica.Domain

/-- The text of a field, unless it is absent or null. -/
def optionalStr (unicode : Unicode) (fields : JsonObject) (key : Text) : Option Text :=
  ((Json.get fields key).filter fun value => !(value matches .null)).map (Json.str unicode)

section Servers

variable (libraries : ParserLibraries)

/-- `_http_url` -/
def httpUrl (url location : Text) : Except SourceError Text :=
  match libraries.urls.parse url with
  | some parsed => .ok parsed
  | none => sourceParseError (("Expected an absolute HTTP URL at " : Text) ++ location)

/-- `_resolve_relative_url` -/
def resolveRelativeUrl (value : Text) (baseUrl : Option Text) (location : Text) : Except SourceError Text := do
  let parsed ← orValueError (urlsplit libraries.unicode value)
  if parsed.scheme ≠ [] && parsed.netloc ≠ [] then return value
  else
    match baseUrl with
    | none => sourceParseError (("Relative URL at " : Text) ++ location ++ (" requires the Project default base URL" : Text))
    | some baseUrl => orValueError (urljoin libraries.unicode (Text.stripEnd "/" baseUrl ++ ['/']) value)

/-! ## Servers -/

/-- One variable of a server URL is replaced by its default. -/
def substituteVariable (location : Text) (url : Text) (entry : Text × Json) : Except SourceError Text :=
  let missing := sourceParseError (("OpenAPI server variable " : Text) ++ entry.1.repr libraries.unicode ++ (" at " : Text) ++
    location ++ (" requires a default" : Text))
  match entry.2 with
  | .object fields =>
    match Json.get fields "default" with
    | some value =>
      .ok (Text.replace (Char.ofNat 0x7b :: entry.1 ++ [Char.ofNat 0x7d]) (value.str libraries.unicode) url)
    | none => missing
  | _ => missing

/-- `_server_url` -/
def serverUrl (raw : JsonObject) (location : Text) (baseUrl : Option Text) : Except SourceError Text := do
  let url ← match Json.get raw "url" with
    | some (.string (first :: rest)) => .ok (first :: rest)
    | _ => sourceParseError (("OpenAPI server at " : Text) ++ location ++ (" must define url" : Text))
  let entries ← match Json.get raw "variables" with
    | none | some .null => .ok []
    | some (.object entries) => .ok entries
    | some _ => sourceParseError (("OpenAPI server variables at " : Text) ++ location ++ (" must be an object" : Text))
  let resolved ← entries.foldlM (substituteVariable libraries location) url
  if resolved.contains (Char.ofNat 0x7b) || resolved.contains (Char.ofNat 0x7d) then
    sourceParseError (("OpenAPI server at " : Text) ++ location ++ (" has unresolved variables" : Text))
  else do
    let url ← resolveRelativeUrl libraries resolved baseUrl location
    return Text.stripEnd "/" url

/-- A server as its model normalizes it. -/
def canonicalServer (key url location : Text) (description : Option Text) (sourceRef : SourceRef) :
    Except SourceError CanonicalServer := do
  let parsed ← httpUrl libraries url location
  let url ← orValueError (libraries.urls.normalize parsed)
  return { key, url, description, sourceRef }

/-- `servers.setdefault(server.key, server)` -/
def registerServer (servers : List CanonicalServer) (server : CanonicalServer) : List CanonicalServer :=
  if servers.any fun known => known.key = server.key then servers else servers ++ [server]

/-- The server at a place of a list of servers, under the key of its URL. -/
def readServer (baseUrl : Option Text) (sourceVersionId : Uuid) (location : Text) (raw : Json) :
    Except SourceError CanonicalServer :=
  match raw with
  | .object fields => do
    let url ← serverUrl libraries fields location baseUrl
    canonicalServer libraries (serverKey libraries.sha256 url) url location
      (optionalStr libraries.unicode fields "description") ⟨Text.ofUuid sourceVersionId, location⟩
  | _ => sourceParseError (("OpenAPI server at " : Text) ++ location ++ (" must be an object" : Text))

/-- `register_servers`: the keys of the listed servers, and all servers known so far. -/
def registerServers (baseUrl : Option Text) (raw : Option Json) (location : Text) (sourceVersionId : Uuid)
    (servers : List CanonicalServer) : Except SourceError (List Text × List CanonicalServer) :=
  match raw with
  | none | some .null => .ok ([], servers)
  | some (.array items) => do
    let read ← items.zipIdx.mapM fun (item, index) =>
      readServer libraries baseUrl sourceVersionId (location ++ '/' :: Text.ofNat index) item
    return (read.map CanonicalServer.key, read.foldl registerServer servers)
  | some _ => sourceParseError (("OpenAPI servers at " : Text) ++ location ++ (" must be an array" : Text))

/-- The servers of the whole document; without any, the base URL of the project is one. -/
def globalServers (document : JsonObject) (sourceVersionId : Uuid) (baseUrl : Option Text) :
    Except SourceError (List Text × List CanonicalServer) := do
  let (keys, servers) ← registerServers libraries baseUrl (Json.get document "servers") "#/servers" sourceVersionId []
  match keys, baseUrl.filter (· ≠ []) with
  | [], some url =>
    let location : Text := "#/x-mcplica-project-default-base-url"
    let server ← canonicalServer libraries (serverKey libraries.sha256 url) url location
      (some "Project default base URL") ⟨Text.ofUuid sourceVersionId, location⟩
    return ([server.key], [server])
  | keys, _ => return (keys, servers)

/-! ## Security schemes -/

def unsupportedScheme (scheme : Option Text) (sourceRef : SourceRef) : CanonicalSecurityScheme :=
  { type := .unsupported, scheme, sourceRef }

def httpScheme (raw : JsonObject) (sourceRef : SourceRef) : CanonicalSecurityScheme :=
  let scheme := (((Json.get raw "scheme").map (Json.str libraries.unicode)).getD []).casefold libraries.unicode
  let type : SecuritySchemeType :=
    if scheme = "bearer" then .httpBearer else if scheme = "basic" then .httpBasic else .unsupported
  { type, scheme := if scheme = [] then none else some scheme, sourceRef }

def securityLocation (value : Option Json) : Option SecurityLocation :=
  match value with
  | some (.string text) =>
    if text = "header" then some .header else if text = "query" then some .query
    else if text = "cookie" then some .cookie else none
  | _ => none

/-- The model of the scheme refuses an empty name. -/
def apiKeyScheme (raw : JsonObject) (sourceRef : SourceRef) : Except SourceError CanonicalSecurityScheme :=
  match securityLocation (Json.get raw "in"), Json.get raw "name" with
  | some location, some (.string name) =>
    if name = [] then .error .value else .ok { type := .apiKey, location := some location, name := some name, sourceRef }
  | _, _ => .ok (unsupportedScheme (some "apiKey") sourceRef)

def objectField (fields : JsonObject) (key : Text) : JsonObject :=
  match Json.get fields key with
  | some (.object inner) => inner
  | _ => []

def oauth2Scheme (raw : JsonObject) (sourceRef : SourceRef) (baseUrl : Option Text) :
    Except SourceError CanonicalSecurityScheme :=
  let clientCredentials := objectField (objectField raw "flows") "clientCredentials"
  let location := sourceRef.pointer ++ ("/flows/clientCredentials/tokenUrl" : Text)
  match Json.get clientCredentials "tokenUrl" with
  | some (.string tokenUrl) => do
    let resolved ← resolveRelativeUrl libraries tokenUrl baseUrl location
    let parsed ← httpUrl libraries resolved location
    let scopes := Text.sorted ((objectField clientCredentials "scopes").map Prod.fst)
    return { type := .oauth2ClientCredentials, tokenUrl := some parsed, scopes, sourceRef }
  | _ => .ok (unsupportedScheme (some "oauth2") sourceRef)

/-- `_security_scheme` -/
def securityScheme (raw : JsonObject) (sourceRef : SourceRef) (baseUrl : Option Text) :
    Except SourceError CanonicalSecurityScheme :=
  match Json.get raw "type" with
  | some (.string type) =>
    if type = "http" then .ok (httpScheme libraries raw sourceRef)
    else if type = "apiKey" then apiKeyScheme raw sourceRef
    else if type = "oauth2" then oauth2Scheme libraries raw sourceRef baseUrl
    else .ok (unsupportedScheme (some type) sourceRef)
  | none | some .null => .ok (unsupportedScheme none sourceRef)
  | some type => .ok (unsupportedScheme (some (type.str libraries.unicode)) sourceRef)

/-- Token URLs are relative to the base URL of the project, else to the only server of the document. -/
def oauthRelativeBase (baseUrl : Option Text) (keys : List Text) (servers : List CanonicalServer) : Option Text :=
  match baseUrl, keys with
  | some baseUrl, _ => some baseUrl
  | none, [key] => (servers.find? fun server => server.key = key).map CanonicalServer.url
  | none, _ => none

/-- A field of the components that is a dictionary of definitions; a value that counts as false is an empty one. -/
def componentsField (fields : JsonObject) (key message : Text) : Except SourceError JsonObject :=
  match Json.get fields key with
  | none => .ok []
  | some (.object entries) => .ok entries
  | some value => if value.truthy then sourceParseError message else .ok []

def securitySchemes (scope : ReferenceScope) (fuel : Nat) (components : JsonObject) (baseUrl : Option Text) :
    Except SourceError (List (Text × CanonicalSecurityScheme)) := do
  let raw ← componentsField components "securitySchemes" "OpenAPI securitySchemes must be an object"
  raw.mapM fun (name, value) => do
    let resolved ← scope.resolveRoot fuel value (("#/components/securitySchemes/" : Text) ++ pointerToken name)
    let scheme ← securityScheme libraries resolved.value resolved.sourceRef baseUrl
    return (name, scheme)

end Servers

end Mcplica.Parsers
