import Mcplica.Contracts.RuntimeSecrets
import Mcplica.Runtime.Requests

/-! # Upstream authentication

`UpstreamAuthManager`: the credentials of the mounted bundle have to match the profiles of the enabled tools, and
the profile of a tool decides what is injected into its requests. -/

namespace Mcplica.Runtime

open Mcplica.Library Mcplica.Contracts

section

variable (platform : Platform) (manifest : MCPManifest) (credentials : List (Text × UpstreamCredential))

/-! ## The configuration -/

/-- The credential of a profile, when its type is that of the profile. -/
def matchingCredential (profile : AuthProfile) : Option UpstreamCredential :=
  (credentials.lookup (profile.credentialRef.getD [])).filter fun credential => credential.type.authType = profile.type

/-- One round over the referenced profiles; the credentials required so far are carried along. -/
def requireCredential (required : List Text) (profileId : Text) : Except Text (List Text) := do
  let profile ← obtain? (manifest.profile? profileId) ("Manifest references an unknown auth profile" : Text)
  if profile.type = .none then return required
  let _ ← obtain? (matchingCredential credentials profile)
    (("Credential material for auth profile " : Text) ++ profileId.repr platform.unicode ++
      (" is missing or mismatched" : Text))
  return profile.credentialRef.getD [] :: required

/-- The referenced profiles that use a credential. -/
def credentialProfiles (credentialRef : Text) : List AuthProfile :=
  (manifest.requiredProfileIds.filterMap manifest.profile?).filter fun profile =>
    profile.credentialRef = some credentialRef

def checkStaticHeaders (credentialRef : Text) : Except Text Unit := do
  let credential ← obtain? (credentials.lookup credentialRef) ("KeyError" : Text)
  if credential.type = .staticHeader then
    let expectedNames := ((credentialProfiles manifest credentialRef).filterMap AuthProfile.name).map
      (Text.casefold platform.unicode)
    let actualNames := (credential.headers.getD []).map fun header => header.1.casefold platform.unicode
    ensure (actualNames.all expectedNames.contains && expectedNames.all actualNames.contains)
      ("Static-header credential does not exactly match enabled profiles" : Text)

def validateConfiguration : Except Text Unit := do
  let required ← manifest.requiredProfileIds.foldlM (requireCredential platform manifest credentials) []
  let keys := credentials.map Prod.fst
  ensure (keys.all required.contains && required.all keys.contains)
    ("Runtime secret bundle does not exactly match enabled tool credentials" : Text)
  forM required (checkStaticHeaders platform manifest credentials)

/-! ## The injection -/

/-- `_oauth_token`: the cached token of a profile or the one that its token endpoint answers. -/
abbrev OAuthTokens := AuthProfile → UpstreamCredential → Except Text Text

def notConfigured : Text := "Runtime authentication is not configured correctly"

def buildInjection (oauthToken : OAuthTokens) (profile : AuthProfile) (credential : UpstreamCredential) :
    Except Text AuthInjection :=
  match profile.type with
  | .bearer => do
    let token ← obtain? credential.token ("AssertionError" : Text)
    return { headers := [("Authorization", ("Bearer " : Text) ++ token)] }
  | .apiKey => do
    ensure ((profile.name.getD []) ≠ [] && profile.location.isSome && credential.apiKey.isSome)
      ("API-key auth profile is incomplete" : Text)
    let value := profile.headerPrefix.getD [] ++ credential.apiKey.getD []
    if profile.location = some .header then return { headers := [(profile.name.getD [], value)] }
    return { query := [(profile.name.getD [], value)] }
  | .basic => do
    ensure (credential.username.isSome && credential.password.isSome) ("Basic auth profile is incomplete" : Text)
    let raw := credential.username.getD [] ++ ':' :: credential.password.getD []
    return { headers := [("Authorization", ("Basic " : Text) ++ Text.base64Encode (Text.utf8 raw))] }
  | .oauth2ClientCredentials => do
    let token ← oauthToken profile credential
    return { headers := [("Authorization", ("Bearer " : Text) ++ token)] }
  | .staticHeader => do
    ensure ((profile.name.getD []) ≠ [] && credential.headers.isSome) ("Static-header auth profile is incomplete" : Text)
    let name := profile.name.getD []
    let header ← obtain? ((credential.headers.getD []).find? fun header =>
        header.1.lower platform.unicode = name.lower platform.unicode)
      ("Static-header credential is missing its value" : Text)
    return { headers := [(name, header.2)] }
  | .none => .error "Unsupported upstream authentication profile"

def injectionFor (oauthToken : OAuthTokens) : Option Text → Except Text AuthInjection
  | none => .ok {}
  | some profileId => do
    let profile ← obtain? (manifest.profile? profileId) ("Manifest references an unknown auth profile" : Text)
    if profile.type = .none then return {}
    let credential ← obtain? (matchingCredential credentials profile) notConfigured
    buildInjection platform oauthToken profile credential

end

end Mcplica.Runtime
