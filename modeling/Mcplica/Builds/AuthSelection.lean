import Mcplica.Library.Uuid
import Mcplica.Deployments.Credentials
import Mcplica.Compilers.Compiler

/-! # The choice of a security alternative

`app.services.builds.auth_selection`: the first alternative of an operation that names one scheme and for
which exactly one credential of the project is left. -/

namespace Mcplica.Builds

open Mcplica.Domain Mcplica.Library Mcplica.Contracts Mcplica.Deployments Mcplica.Compilers
open Mcplica.Contracts.Json (entry)

/-- A security requirement as a dictionary from scheme names to scopes. -/
abbrev SecurityAlternative := List (Text × List Text)

structure AuthSchemeSpec where
  name : Text
  expectedCredentialScheme : Option CredentialScheme
  parameterName : Option Text := none
  advertisedScopes : List Text := []
  oauth : Bool := false

structure CredentialCandidate where
  id : Uuid
  schemeType : CredentialScheme
  metadata : JsonObject

structure AuthSelectionPlan where
  schemeName : Text
  credentialId : Uuid
  scopes : List Text
  tokenAuthMethod : TokenAuthMethod
  deriving Repr, DecidableEq

inductive RejectionReason where
  | combinedRequirementUnsupported
  | undefined
  | missing
  | ambiguous
  deriving Repr, DecidableEq

def RejectionReason.value : RejectionReason → Text
  | combinedRequirementUnsupported => "combined_requirement_unsupported"
  | undefined => "undefined"
  | missing => "missing"
  | ambiguous => "ambiguous"

structure AuthAlternativeRejection where
  reason : RejectionReason
  securityScheme : Option Text := none
  compatibleCredentialIds : List Uuid := []
  deriving Repr, DecidableEq

inductive MappingFailure where
  /-- `TypeError`: a list or a dictionary is looked for in a set. -/
  | unhashable
  | compilation (message : Text) (details : JsonObject)

/-! ## Compatible credentials -/

/-- `raw.split() if isinstance(raw, str) else []` on the scope of a credential. -/
def defaultScopes (metadata : JsonObject) : List Text :=
  match Json.get metadata "scope" with
  | some (.string scope) => words scope
  | _ => []

/-- `metadata.get("token_auth_method", "client_secret_basic") in {...}` -/
def knownTokenAuthMethod (metadata : JsonObject) : Except MappingFailure Bool :=
  match Json.get metadata "token_auth_method" with
  | none => .ok true
  | some (.string method) =>
    .ok (method = TokenAuthMethod.clientSecretBasic.value || method = TokenAuthMethod.clientSecretPost.value)
  | some (.array _) | some (.object _) => .error .unhashable
  | some _ => .ok false

def tokenAuthMethod (metadata : JsonObject) : TokenAuthMethod :=
  if isText (Json.get metadata "token_auth_method") TokenAuthMethod.clientSecretPost.value then .clientSecretPost
  else .clientSecretBasic

/-- `set(scopes) <= advertised` -/
def AuthSchemeSpec.advertises (scheme : AuthSchemeSpec) (scopes : List Text) : Bool :=
  scopes.all fun scope => scheme.advertisedScopes.contains scope

section

variable (unicode : Unicode)

/-- `_explicit_scheme_name` -/
def explicitSchemeName (metadata : JsonObject) : Option Text :=
  match Json.get metadata "security_scheme" with
  | some (.string value) => if Text.strip value = [] then none else some ((Text.strip value).casefold unicode)
  | _ => none

/-- The credential is not bound to another scheme and carries the parameter the scheme names. -/
def describesScheme (credential : CredentialCandidate) (scheme : AuthSchemeSpec) : Bool :=
  (explicitSchemeName unicode credential.metadata).all (· = scheme.name.casefold unicode) &&
    scheme.parameterName.all fun name =>
      textHas (Json.get credential.metadata "name") fun configured => configured.casefold unicode = name.casefold unicode

def credentialIsCompatible (credential : CredentialCandidate) (scheme : AuthSchemeSpec) (requiredScopes : List Text) :
    Except MappingFailure Bool :=
  if scheme.expectedCredentialScheme ≠ some credential.schemeType then .ok false
  else if !describesScheme unicode credential scheme then .ok false
  else if !scheme.oauth then .ok requiredScopes.isEmpty
  else if !scheme.advertises requiredScopes then .ok false
  else if !scheme.advertises (defaultScopes credential.metadata) then .ok false
  else knownTokenAuthMethod credential.metadata

/-- The candidates that name the scheme, if there are any. -/
def preferBound (schemeName : Text) (candidates : List CredentialCandidate) : List CredentialCandidate :=
  let explicitlyBound := candidates.filter fun credential =>
    explicitSchemeName unicode credential.metadata = some (schemeName.casefold unicode)
  if explicitlyBound.isEmpty then candidates else explicitlyBound

/-! ## One alternative after the other -/

def selectionPlan (scheme : AuthSchemeSpec) (schemeName : Text) (requiredScopes : List Text)
    (credential : CredentialCandidate) : AuthSelectionPlan where
  schemeName
  credentialId := credential.id
  scopes :=
    if scheme.oauth then
      Text.sorted (if requiredScopes.isEmpty then defaultScopes credential.metadata else requiredScopes).dedup
    else []
  tokenAuthMethod := tokenAuthMethod credential.metadata

variable (schemes : List (Text × AuthSchemeSpec)) (credentials : List CredentialCandidate)

/-- One round of the loop over the alternatives. -/
def judgeAlternative : SecurityAlternative → Except MappingFailure (AuthAlternativeRejection ⊕ AuthSelectionPlan)
  | [(schemeName, requiredScopes)] =>
    match schemes.lookup schemeName with
    | none => .ok (.inl ⟨.undefined, some schemeName, []⟩)
    | some scheme => do
      let compatible ← filterChecked (fun credential => credentialIsCompatible unicode credential scheme requiredScopes)
        credentials
      match preferBound unicode schemeName compatible with
      | [credential] => return .inr (selectionPlan scheme schemeName requiredScopes credential)
      | candidates => return .inl ⟨if candidates.isEmpty then .missing else .ambiguous, some schemeName,
          Text.sortedBy Text.ofUuid (candidates.map CredentialCandidate.id)⟩
  | _ => .ok (.inl ⟨.combinedRequirementUnsupported, none, []⟩)

def selectAuthAlternative : List SecurityAlternative →
    Except MappingFailure (Option AuthSelectionPlan × List AuthAlternativeRejection)
  | [] => .ok (none, [])
  | alternative :: rest => do
    match ← judgeAlternative unicode schemes credentials alternative with
    | .inr plan => return (some plan, [])
    | .inl rejection =>
      let (plan, rejections) ← selectAuthAlternative rest
      return (plan, rejection :: rejections)

/-- Exactly one credential is left for the alternative, which names one scheme. -/
def Selectable (alternative : SecurityAlternative) : Prop :=
  ∃ plan, judgeAlternative unicode schemes credentials alternative = .ok (.inr plan)

end

section

variable {unicode : Unicode} {schemes : List (Text × AuthSchemeSpec)} {credentials : List CredentialCandidate}
  {scheme : AuthSchemeSpec} {schemeName : Text} {requiredScopes : List Text} {plan : AuthSelectionPlan}

theorem AuthSchemeSpec.advertises_iff {scopes : List Text} :
    scheme.advertises scopes = true ↔ ∀ scope ∈ scopes, scope ∈ scheme.advertisedScopes := by
  simp [advertises]

/-! ## What a selected alternative says -/

/-- The scopes can be asked of the scheme, whatever the credential. -/
def AuthSchemeSpec.Admits (scheme : AuthSchemeSpec) (scopes : List Text) : Prop :=
  if scheme.oauth = true then ∀ scope ∈ scopes, scope ∈ scheme.advertisedScopes else scopes = []

/-- The scopes of an alternative decide only whether they are admitted. -/
theorem credentialIsCompatible_congr {otherScopes : List Text} (first : scheme.Admits requiredScopes)
    (second : scheme.Admits otherScopes) (credential : CredentialCandidate) :
    credentialIsCompatible unicode credential scheme requiredScopes =
      credentialIsCompatible unicode credential scheme otherScopes := by
  unfold AuthSchemeSpec.Admits at first second
  unfold credentialIsCompatible
  by_cases oauth : scheme.oauth = true
  · rw [if_pos oauth] at first second
    rw [AuthSchemeSpec.advertises_iff.mpr first, AuthSchemeSpec.advertises_iff.mpr second, oauth]
    rfl
  · rw [if_neg oauth] at first second
    rw [first, second]

theorem credentialIsCompatible_of_not_admits (refused : ¬ scheme.Admits requiredScopes)
    (credential : CredentialCandidate) : credentialIsCompatible unicode credential scheme requiredScopes = .ok false := by
  unfold AuthSchemeSpec.Admits at refused
  unfold credentialIsCompatible
  by_cases oauth : scheme.oauth = true
  · rw [if_pos oauth, ← AuthSchemeSpec.advertises_iff, Bool.not_eq_true] at refused
    simp [oauth, refused]
  · rw [if_neg oauth] at refused
    simp [oauth, refused]

theorem advertises_of_compatible {credential : CredentialCandidate} (oauth : scheme.oauth = true)
    (compatible : credentialIsCompatible unicode credential scheme requiredScopes = .ok true) :
    scheme.advertises requiredScopes = true ∧ scheme.advertises (defaultScopes credential.metadata) = true := by
  unfold credentialIsCompatible at compatible
  simp only [oauth, Bool.not_true, Bool.false_eq_true, if_false] at compatible
  split at compatible
  · cases compatible
  split at compatible
  · cases compatible
  split at compatible
  · cases compatible
  split at compatible
  · cases compatible
  · rename_i required default
    simpa using And.intro required default

theorem mem_of_mem_preferBound {candidates : List CredentialCandidate} {credential : CredentialCandidate}
    (member : credential ∈ preferBound unicode schemeName candidates) : credential ∈ candidates := by
  simp only [preferBound] at member
  split at member
  · exact member
  · exact (List.mem_filter.mp member).1

theorem judgeAlternative_eq_selected {alternative : SecurityAlternative} :
    judgeAlternative unicode schemes credentials alternative = .ok (.inr plan) ↔
      ∃ name scopes scheme compatible credential, alternative = [(name, scopes)] ∧ schemes.lookup name = some scheme ∧
        filterChecked (fun credential => credentialIsCompatible unicode credential scheme scopes) credentials =
          .ok compatible ∧ preferBound unicode name compatible = [credential] ∧
        plan = selectionPlan scheme name scopes credential := by
  unfold judgeAlternative
  constructor
  · intro judged
    split at judged
    · rename_i name scopes
      split at judged
      · cases judged
      · rename_i scheme found
        obtain ⟨compatible, filtered, judged⟩ := bind_eq_ok.mp judged
        split at judged
        · rename_i credential bound
          cases judged
          exact ⟨name, scopes, scheme, compatible, credential, rfl, found, filtered, bound, rfl⟩
        · cases judged
    · cases judged
  · rintro ⟨name, scopes, scheme, compatible, credential, rfl, found, filtered, bound, rfl⟩
    simp only [found, filtered, bind, Except.bind, bound]
    rfl

/-- The plan of a selected alternative has its scheme, and scopes that the scheme advertises. -/
theorem selected_spec (judged : judgeAlternative unicode schemes credentials [(schemeName, requiredScopes)] =
    .ok (.inr plan)) : ∃ scheme, schemes.lookup schemeName = some scheme ∧ plan.schemeName = schemeName ∧
      scheme.Admits requiredScopes ∧ scheme.Admits plan.scopes ∧
      (requiredScopes ≠ [] → plan.scopes = Text.sorted requiredScopes.dedup) := by
  obtain ⟨_, _, scheme, compatible, credential, isAlternative, found, filtered, bound, rfl⟩ :=
    judgeAlternative_eq_selected.mp judged
  cases isAlternative
  have member := mem_of_mem_preferBound (bound ▸ List.mem_singleton_self credential)
  have isCompatible := (mem_filterChecked filtered member).2
  have admits : scheme.Admits requiredScopes := by
    by_contra refused
    rw [credentialIsCompatible_of_not_admits refused] at isCompatible
    cases isCompatible
  refine ⟨scheme, found, rfl, admits, ?_, ?_⟩
  · by_cases oauth : scheme.oauth = true
    · obtain ⟨required, default⟩ := advertises_of_compatible oauth isCompatible
      rw [AuthSchemeSpec.advertises_iff] at required default
      simp only [AuthSchemeSpec.Admits, selectionPlan, if_pos oauth]
      intro scope isScope
      rw [Text.mem_sorted, List.mem_dedup] at isScope
      split at isScope
      · exact default scope isScope
      · exact required scope isScope
    · simp [AuthSchemeSpec.Admits, selectionPlan, oauth]
  · intro needed
    have oauth : scheme.oauth = true := by
      by_contra plain
      rw [AuthSchemeSpec.Admits, if_neg plain] at admits
      exact needed admits
    simp [selectionPlan, oauth, needed]

/-- An alternative over the same scheme is selected as well, unless its scopes are not admitted. -/
theorem selectable_of_admits {otherScopes : List Text} (found : schemes.lookup schemeName = some scheme)
    (selectable : Selectable unicode schemes credentials [(schemeName, requiredScopes)])
    (admits : scheme.Admits otherScopes) : Selectable unicode schemes credentials [(schemeName, otherScopes)] := by
  obtain ⟨plan, judged⟩ := selectable
  obtain ⟨_, sameFound, -, required, -⟩ := selected_spec judged
  rw [found, Option.some.injEq] at sameFound
  subst sameFound
  obtain ⟨_, _, _, compatible, credential, isAlternative, isFound, filtered, bound, -⟩ :=
    judgeAlternative_eq_selected.mp judged
  cases isAlternative
  rw [found, Option.some.injEq] at isFound
  subst isFound
  refine ⟨selectionPlan scheme schemeName otherScopes credential, judgeAlternative_eq_selected.mpr
    ⟨_, _, _, compatible, credential, rfl, found, ?_, bound, rfl⟩⟩
  rw [← filtered]
  exact congrArg (filterChecked · credentials) (funext (credentialIsCompatible_congr admits required))

/-! ## The first that can be selected -/

theorem selectAuthAlternative_eq_some {alternatives : List SecurityAlternative}
    {rejections : List AuthAlternativeRejection} :
    selectAuthAlternative unicode schemes credentials alternatives = .ok (some plan, rejections) ↔
      ∃ before alternative after, alternatives = before ++ alternative :: after ∧
        List.Forall₂ (fun earlier rejection => judgeAlternative unicode schemes credentials earlier = .ok (.inl rejection))
          before rejections ∧ judgeAlternative unicode schemes credentials alternative = .ok (.inr plan) := by
  induction alternatives generalizing rejections with
  | nil =>
    constructor
    · intro selected
      cases selected
    · rintro ⟨before, alternative, after, isSplit, -⟩
      cases before <;> cases isSplit
  | cons first rest ih =>
    rw [selectAuthAlternative, bind_eq_ok]
    constructor
    · rintro ⟨judgement, judged, selected⟩
      cases judgement with
      | inr _ =>
        cases selected
        exact ⟨[], first, rest, rfl, .nil, judged⟩
      | inl rejection =>
        obtain ⟨⟨_, later⟩, chosenLater, isResult⟩ := bind_eq_ok.mp selected
        cases isResult
        obtain ⟨before, alternative, after, rfl, rejected, chosen⟩ := ih.mp chosenLater
        exact ⟨first :: before, alternative, after, rfl, .cons judged rejected, chosen⟩
    · rintro ⟨before, alternative, after, isSplit, rejected, chosen⟩
      cases rejected with
      | nil =>
        cases isSplit
        exact ⟨_, chosen, rfl⟩
      | cons judged rejected =>
        cases isSplit
        refine ⟨_, judged, bind_eq_ok.mpr ⟨_, ih.mpr ⟨_, _, _, rfl, rejected, chosen⟩, rfl⟩⟩

/-- What was selected is the plan of the first alternative that can be selected. -/
theorem selected_unique {before after : List SecurityAlternative} {alternative : SecurityAlternative}
    {alternatives : List SecurityAlternative} {rejections : List AuthAlternativeRejection} {chosen : AuthSelectionPlan}
    (isSplit : alternatives = before ++ alternative :: after)
    (rejected : ∀ earlier ∈ before, ¬ Selectable unicode schemes credentials earlier)
    (judged : judgeAlternative unicode schemes credentials alternative = .ok (.inr plan))
    (selected : selectAuthAlternative unicode schemes credentials alternatives = .ok (some chosen, rejections)) :
    chosen = plan := by
  induction before generalizing alternatives rejections with
  | nil =>
    subst isSplit
    simp only [List.nil_append, selectAuthAlternative, judged, bind, Except.bind, pure, Except.pure] at selected
    cases selected
    rfl
  | cons first rest ih =>
    subst isSplit
    rw [List.cons_append, selectAuthAlternative, bind_eq_ok] at selected
    obtain ⟨judgement, isJudged, selected⟩ := selected
    cases judgement with
    | inr _ => exact absurd ⟨_, isJudged⟩ (rejected first List.mem_cons_self)
    | inl rejection =>
      obtain ⟨⟨_, later⟩, chosenLater, isResult⟩ := bind_eq_ok.mp selected
      cases isResult
      exact ih rfl (fun earlier member => rejected earlier (List.mem_cons_of_mem _ member)) chosenLater

/-! ## Other ways to write the same alternatives -/

/-- Only the entries of the schemes count, and an alternative may list its own in any order. -/
theorem judgeAlternative_congr {others : List (Text × AuthSchemeSpec)} {alternative other : SecurityAlternative}
    (same : ∀ name, schemes.lookup name = others.lookup name) (reordered : alternative.Perm other) :
    judgeAlternative unicode schemes credentials alternative = judgeAlternative unicode others credentials other := by
  unfold judgeAlternative
  match alternative, other, reordered with
  | [], other, reordered => rw [List.nil_perm.mp reordered]
  | [single], other, reordered =>
    rw [List.singleton_perm.mp reordered]
    simp only [same]
  | _ :: _ :: _, [], reordered => exact absurd reordered.length_eq (by simp)
  | _ :: _ :: _, [_], reordered => exact absurd reordered.length_eq (by simp)
  | _ :: _ :: _, _ :: _ :: _, _ => rfl

theorem selectAuthAlternative_congr {others : List (Text × AuthSchemeSpec)} {rewrite : SecurityAlternative → SecurityAlternative}
    (same : ∀ name, schemes.lookup name = others.lookup name)
    (reordered : ∀ alternative, (rewrite alternative).Perm alternative) (alternatives : List SecurityAlternative) :
    selectAuthAlternative unicode schemes credentials (alternatives.map rewrite) =
      selectAuthAlternative unicode others credentials alternatives := by
  induction alternatives with
  | nil => rfl
  | cons alternative rest ih =>
    rw [List.map_cons, selectAuthAlternative, selectAuthAlternative, judgeAlternative_congr same (reordered alternative),
      ih]

end

end Mcplica.Builds
