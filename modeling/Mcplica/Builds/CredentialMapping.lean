import Mcplica.Builds.AuthSelection

/-! # Credential mapping

`app.services.builds.credential_mapping`: one credential for every operation that needs one, and when the
compiler accepts the choice. The compiler finds the alternative again by the name of its scheme alone. -/

namespace Mcplica.Builds

open Mcplica.Domain Mcplica.Library Mcplica.Contracts Mcplica.Deployments Mcplica.Compilers
open Mcplica.Contracts.Json (entry)

structure BuildCredentialSnapshot where
  id : Uuid
  schemeType : CredentialScheme
  metadata : JsonObject

def BuildCredentialSnapshot.candidate (credential : BuildCredentialSnapshot) : CredentialCandidate :=
  ⟨credential.id, credential.schemeType, credential.metadata⟩

/-- The credential that goes with a scheme, if one does. -/
def expectedCredentialScheme (scheme : CanonicalSecurityScheme) : Option CredentialScheme :=
  match scheme.type with
  | .httpBearer => some .bearer
  | .httpBasic => some .basic
  | .oauth2ClientCredentials => some .oauth2ClientCredentials
  | .staticHeaders => some .staticHeaders
  | .apiKey => match scheme.location with
    | some .header => some .apiKeyHeader
    | some .query => some .apiKeyQuery
    | some .cookie | none => none
  | .unsupported => none

def schemeSpec (name : Text) (scheme : CanonicalSecurityScheme) : AuthSchemeSpec where
  name
  expectedCredentialScheme := expectedCredentialScheme scheme
  parameterName := if scheme.type = .apiKey then scheme.name else none
  advertisedScopes := scheme.scopes
  oauth := scheme.type = .oauth2ClientCredentials

def schemeSpecs (api : CanonicalApi) : List (Text × AuthSchemeSpec) :=
  api.securitySchemes.map fun (name, scheme) => (name, schemeSpec name scheme)

def alternatives (operation : CanonicalOperation) : List SecurityAlternative :=
  operation.security.map CanonicalSecurityRequirement.schemeScopes

def AuthAlternativeRejection.details (rejection : AuthAlternativeRejection) : Json :=
  .object <|
    [entry "reason" (.string rejection.reason.value)] ++
    (rejection.securityScheme.toList.map fun name => entry "security_scheme" (.string name)) ++
    (if rejection.compatibleCredentialIds.isEmpty then []
      else [entry "compatible_credential_ids"
        (.array (rejection.compatibleCredentialIds.map fun id => .string (Text.ofUuid id)))])

def AuthSelectionPlan.selection (plan : AuthSelectionPlan) : BuildSecuritySelection where
  schemeName := plan.schemeName
  credentialRef := Text.ofUuid plan.credentialId
  scopes := plan.scopes
  tokenAuthMethod := plan.tokenAuthMethod

section

variable (unicode : Unicode)

def noExecutableMapping (operation : CanonicalOperation) (rejections : List AuthAlternativeRejection) : MappingFailure :=
  let summary : Text := if rejections.any (·.reason = .ambiguous) then "ambiguous" else "missing"
  .compilation
    (("Operation " : Text) ++ operation.key.repr unicode ++ (" has no executable credential mapping (" : Text) ++
      summary ++ (")" : Text))
    [entry "operation_key" (.string operation.key),
      entry "alternatives" (.array (rejections.map AuthAlternativeRejection.details))]

/-- The entry of an operation that needs a credential. -/
def mapOperation (schemes : List (Text × AuthSchemeSpec)) (available : List CredentialCandidate)
    (operation : CanonicalOperation) : Except MappingFailure (Text × BuildSecuritySelection) := do
  let (selection, rejections) ← selectAuthAlternative unicode schemes available (alternatives operation)
  let plan ← obtain? selection (noExecutableMapping unicode operation rejections)
  return (operation.key, plan.selection)

/-- `map_credentials`; the keys of the operations are distinct, so that no entry is written twice. -/
def mapCredentials (canonical : CanonicalApi) (credentials : List BuildCredentialSnapshot)
    (excludedOperationKeys : List Text) : Except MappingFailure (List (Text × BuildSecuritySelection)) :=
  let available := credentials.map BuildCredentialSnapshot.candidate
  let schemes := schemeSpecs canonical
  (canonical.operations.filter fun operation =>
    !excludedOperationKeys.contains operation.key && !anonymousAllowed operation).mapM
      (mapOperation unicode schemes available)

/-! ## The condition for the compiler -/

/-- Before the first alternative that can be selected stands another one over the same scheme, whose scopes the
scheme does not admit. -/
def Shadowed (canonical : CanonicalApi) (credentials : List BuildCredentialSnapshot) (operation : CanonicalOperation) :
    Prop :=
  let selectable := Selectable unicode (schemeSpecs canonical) (credentials.map BuildCredentialSnapshot.candidate)
  ∃ before name scopes after, alternatives operation = before ++ [(name, scopes)] :: after ∧
    (∀ earlier ∈ before, ¬ selectable earlier) ∧ selectable [(name, scopes)] ∧
    ∃ otherScopes, [(name, otherScopes)] ∈ before ∧
      ∃ scheme, canonical.securitySchemes.lookup name = some scheme ∧ ¬ (schemeSpec name scheme).Admits otherScopes

end

/-- What the compiler raises when a selection does not fit its operation. -/
def selectionErrors (operation : CanonicalOperation) : List CompileFailure :=
  [compileError operation "anonymous operation has an unnecessary credential",
    compileError operation "security selection is not a declared alternative",
    compileError operation "OAuth security selection changed required scopes"]

section

variable {platform : Platform} {hashing : Hashing} {canonical : CanonicalApi}
  {credentials : List BuildCredentialSnapshot} {excluded : List Text}
  {selections : List (Text × BuildSecuritySelection)} {operation : CanonicalOperation}

theorem lookup_schemeSpecs (name : Text) : (schemeSpecs canonical).lookup name =
    (canonical.securitySchemes.lookup name).map (schemeSpec name) := by
  unfold schemeSpecs
  induction canonical.securitySchemes with
  | nil => rfl
  | cons first rest ih =>
    rw [List.map_cons, List.lookup_cons, List.lookup_cons]
    by_cases same : name = first.1
    · simp [same]
    · have different : (name == first.1) = false := by simpa using same
      simpa [different] using ih

/-! ## The entries of the mapping -/

theorem mapOperation_eq_ok {schemes : List (Text × AuthSchemeSpec)} {available : List CredentialCandidate}
    {mapped : Text × BuildSecuritySelection} :
    mapOperation platform.unicode schemes available operation = .ok mapped ↔
      ∃ plan rejections, selectAuthAlternative platform.unicode schemes available (alternatives operation) =
        .ok (some plan, rejections) ∧ mapped = (operation.key, plan.selection) := by
  simp only [mapOperation, bind_eq_ok, obtain?_eq_ok, pure, Except.pure, Except.ok.injEq]
  constructor
  · rintro ⟨⟨selection, rejections⟩, selected, plan, isPlan, rfl⟩
    cases isPlan
    exact ⟨plan, rejections, selected, rfl⟩
  · rintro ⟨plan, rejections, selected, rfl⟩
    exact ⟨_, selected, plan, rfl, rfl⟩

theorem mem_mapCredentials {key : Text} {selection : BuildSecuritySelection}
    (mapped : mapCredentials platform.unicode canonical credentials excluded = .ok selections)
    (member : (key, selection) ∈ selections) : ∃ operation ∈ executableOperations canonical excluded,
      operation.key = key ∧ anonymousAllowed operation = false := by
  obtain ⟨operation, isOperation, made⟩ := exists_of_mapM_result mapped member
  obtain ⟨_, _, -, isEntry⟩ := mapOperation_eq_ok.mp made
  cases isEntry
  rw [List.mem_filter, Bool.and_eq_true, Bool.not_eq_true', Bool.not_eq_true'] at isOperation
  refine ⟨operation, ?_, rfl, isOperation.2.2⟩
  rw [executableOperations, List.mem_filter, isOperation.2.1]
  exact ⟨isOperation.1, rfl⟩

theorem nodup_mapCredentials (unique : canonical.operationKeys.Nodup)
    (mapped : mapCredentials platform.unicode canonical credentials excluded = .ok selections) :
    (selections.map Prod.fst).Nodup := by
  have keys : selections.map Prod.fst = List.map CanonicalOperation.key _ :=
    map_of_mapM mapped fun operation result made => by
      obtain ⟨_, _, -, rfl⟩ := mapOperation_eq_ok.mp made
      rfl
  rw [keys]
  exact unique.sublist (List.filter_sublist.map _)

/-- An operation that needs no credential has none. -/
theorem lookup_of_anonymous (unique : canonical.operationKeys.Nodup)
    (mapped : mapCredentials platform.unicode canonical credentials excluded = .ok selections)
    (member : operation ∈ executableOperations canonical excluded) (anonymous : anonymousAllowed operation = true) :
    selections.lookup operation.key = none := by
  refine lookup_eq_none_of_not_mem fun isKey => ?_
  obtain ⟨⟨key, selection⟩, isEntry, same⟩ := List.mem_map.mp isKey
  obtain ⟨other, isOther, otherKey, secured⟩ := mem_mapCredentials mapped isEntry
  have sameOperation : other = operation := List.inj_on_of_nodup_map unique (List.mem_filter.mp isOther).1
    (List.mem_filter.mp member).1 (otherKey.trans same)
  rw [sameOperation, anonymous] at secured
  cases secured

/-- Every other operation has the plan of the first alternative that can be selected. -/
theorem lookup_of_secured (unique : canonical.operationKeys.Nodup)
    (mapped : mapCredentials platform.unicode canonical credentials excluded = .ok selections)
    (member : operation ∈ executableOperations canonical excluded) (secured : anonymousAllowed operation = false) :
    ∃ plan rejections, selectAuthAlternative platform.unicode (schemeSpecs canonical)
        (credentials.map BuildCredentialSnapshot.candidate) (alternatives operation) = .ok (some plan, rejections) ∧
      selections.lookup operation.key = some plan.selection := by
  rw [executableOperations, List.mem_filter, Bool.not_eq_true'] at member
  have isMapped : operation ∈ canonical.operations.filter fun operation =>
      !excluded.contains operation.key && !anonymousAllowed operation := by
    rw [List.mem_filter, member.2, secured]
    exact ⟨member.1, rfl⟩
  obtain ⟨result, isResult, made⟩ := exists_of_mapM_source mapped isMapped
  obtain ⟨plan, rejections, selected, rfl⟩ := mapOperation_eq_ok.mp made
  exact ⟨plan, rejections, selected, lookup_of_mem (nodup_mapCredentials unique mapped) isResult⟩

/-- One of the operation's alternatives is selected. -/
def CredentialResolved (unicode : Unicode) (canonical : CanonicalApi) (available : List CredentialCandidate)
    (operation : CanonicalOperation) : Prop :=
  ∃ plan rejections, selectAuthAlternative unicode (schemeSpecs canonical) available (alternatives operation) =
    .ok (some plan, rejections)

/-- The mapping exists when every operation that needs a credential has one. -/
theorem succeeds_mapCredentials : Succeeds (mapCredentials platform.unicode canonical credentials excluded) ↔
    ∀ operation ∈ executableOperations canonical excluded, anonymousAllowed operation = false →
      CredentialResolved platform.unicode canonical (credentials.map BuildCredentialSnapshot.candidate) operation := by
  have each : ∀ operation, Succeeds (mapOperation platform.unicode (schemeSpecs canonical)
      (credentials.map BuildCredentialSnapshot.candidate) operation) ↔
        CredentialResolved platform.unicode canonical (credentials.map BuildCredentialSnapshot.candidate) operation := by
    intro operation
    constructor
    · rintro ⟨mapped, ran⟩
      obtain ⟨plan, rejections, selected, -⟩ := mapOperation_eq_ok.mp ran
      exact ⟨plan, rejections, selected⟩
    · rintro ⟨plan, rejections, selected⟩
      exact ⟨_, mapOperation_eq_ok.mpr ⟨plan, rejections, selected, rfl⟩⟩
  unfold mapCredentials executableOperations
  simp only [succeeds_mapM, each, List.mem_filter, Bool.and_eq_true, Bool.not_eq_true', and_imp]

/-! ## The compiler's checks -/

/-- The errors of a profile do not name the operation. -/
theorem details_of_profile_error {name : Text} {scheme : CanonicalSecurityScheme} {selection : BuildSecuritySelection}
    {message : Text} {details : JsonObject}
    (raised : profile platform hashing name scheme selection = .error (.compilation message details)) : details = [] := by
  have made : ∀ made : AuthProfile, makeProfile platform made ≠ .error (.compilation message details) := by
    intro made
    unfold makeProfile
    cases made.validateAuthFields platform.unicode <;> simp [validated, bind, Except.bind, pure, Except.pure]
  have chosen : ∀ (condition : Prop) [Decidable condition] (text : Text) (profile : AuthProfile),
      (if condition then .error (undefinedScheme platform name text) else makeProfile platform profile) =
        Except.error (CompileFailure.compilation message details) → details = [] := by
    intro condition _ text profile raised
    split at raised
    · cases raised
      rfl
    · exact absurd raised (made profile)
  unfold profile at raised
  cases type : scheme.type <;> simp only [type] at raised
  case httpBearer => exact absurd raised (made _)
  case httpBasic => exact absurd raised (made _)
  case apiKey => exact chosen _ _ _ raised
  case oauth2ClientCredentials => exact chosen _ _ _ raised
  case staticHeaders => exact chosen _ _ _ raised
  case unsupported =>
    cases raised
    rfl

/-- The compiler reads the required scopes from the first requirement over the scheme alone. -/
theorem find_requirement {before after : List SecurityAlternative} {name : Text} {scopes : List Text}
    (isSplit : alternatives operation = before ++ [(name, scopes)] :: after)
    (fresh : ∀ otherScopes, [(name, otherScopes)] ∉ before) :
    ((operation.security.find? fun requirement =>
        requirement.schemeScopes.length = 1 && (requirement.schemeScopes.lookup name).isSome).bind fun requirement =>
      requirement.schemeScopes.lookup name) = some scopes := by
  obtain ⟨earlier, others, security, rfl, isRest⟩ := List.map_eq_append_iff.mp isSplit
  obtain ⟨requirement, later, rfl, single, -⟩ := List.map_eq_cons_iff.mp isRest
  have notEarlier : ∀ requirement ∈ earlier,
      ¬ (requirement.schemeScopes.length = 1 && (requirement.schemeScopes.lookup name).isSome) = true := by
    intro requirement member isSingle
    rw [Bool.and_eq_true, decide_eq_true_iff] at isSingle
    obtain ⟨⟨other, otherScopes⟩, only⟩ := List.length_eq_one_iff.mp isSingle.1
    have named := lookup_isSome.mp isSingle.2
    rw [only, List.map_singleton, List.mem_singleton] at named
    cases named
    exact fresh otherScopes (only ▸ List.mem_map_of_mem member)
  rw [security, List.find?_append, List.find?_eq_none.mpr notEarlier, Option.none_or, List.find?_cons_of_pos]
  · simp [single]
  · simp [single]

variable {name : Text} {scopes : List Text} {plan : AuthSelectionPlan} {choose : Text → Option BuildSecuritySelection}
  {before after : List SecurityAlternative}

theorem operationProfile_eq (secured : anonymousAllowed operation = false)
    (chosen : choose operation.key = some plan.selection) (isName : plan.schemeName = name)
    (isSplit : alternatives operation = before ++ [(name, scopes)] :: after)
    (fresh : ∀ otherScopes, [(name, otherScopes)] ∉ before) :
    operationProfile platform hashing canonical choose operation = (do
      ensure (scopes = [] || Text.sorted scopes.dedup = plan.scopes)
        (compileError operation "OAuth security selection changed required scopes")
      let scheme ← obtain? (canonical.securitySchemes.lookup name) (undefinedScheme platform name " is not defined")
      let made ← profile platform hashing name scheme plan.selection
      return some made) := by
  unfold operationProfile
  rw [chosen]
  subst isName
  simp only [secured, AuthSelectionPlan.selection, find_requirement isSplit fresh]
  rfl

/-- A selection of the first alternative over its scheme passes; only its profile may still be refused. -/
theorem details_of_error (secured : anonymousAllowed operation = false)
    (chosen : choose operation.key = some plan.selection)
    (judged : judgeAlternative platform.unicode (schemeSpecs canonical)
      (credentials.map BuildCredentialSnapshot.candidate) [(name, scopes)] = .ok (.inr plan))
    (isSplit : alternatives operation = before ++ [(name, scopes)] :: after)
    (fresh : ∀ otherScopes, [(name, otherScopes)] ∉ before) {message : Text} {details : JsonObject}
    (raised : operationProfile platform hashing canonical choose operation = .error (.compilation message details)) :
    details = [] := by
  obtain ⟨spec, found, isName, -, -, required⟩ := selected_spec judged
  rw [lookup_schemeSpecs, Option.map_eq_some_iff] at found
  obtain ⟨scheme, isScheme, rfl⟩ := found
  have unchanged : (scopes = [] || Text.sorted scopes.dedup = plan.scopes) = true := by
    rw [Bool.or_eq_true, decide_eq_true_iff, decide_eq_true_iff]
    by_cases needed : scopes = []
    · exact .inl needed
    · exact .inr (required needed).symm
  rw [operationProfile_eq secured chosen isName isSplit fresh, isScheme, unchanged] at raised
  cases made : profile platform hashing name scheme plan.selection with
  | ok _ => simp [made, ensure, obtain?, bind, Except.bind, pure, Except.pure] at raised
  | error failure =>
    simp only [made, ensure, obtain?, bind, Except.bind, if_true, Except.error.injEq] at raised
    exact details_of_profile_error (made.trans (congrArg Except.error raised))

/-- The scopes of an alternative that its scheme does not admit are not those of a selection. -/
theorem changed_of_not_admits {scheme : AuthSchemeSpec} {otherScopes : List Text} (planned : scheme.Admits plan.scopes)
    (refused : ¬ scheme.Admits otherScopes) :
    (otherScopes = [] || Text.sorted otherScopes.dedup = plan.scopes) = false := by
  rw [Bool.or_eq_false_iff, decide_eq_false_iff_not, decide_eq_false_iff_not]
  constructor
  · rintro rfl
    exact refused (by simp [AuthSchemeSpec.Admits])
  · intro same
    apply refused
    unfold AuthSchemeSpec.Admits at planned ⊢
    rw [← same] at planned
    simpa using planned

theorem operationProfile_of_shadowed (secured : anonymousAllowed operation = false)
    (chosen : choose operation.key = some plan.selection)
    (rejected : ∀ earlier ∈ before, ¬ Selectable platform.unicode (schemeSpecs canonical)
      (credentials.map BuildCredentialSnapshot.candidate) earlier)
    (judged : judgeAlternative platform.unicode (schemeSpecs canonical)
      (credentials.map BuildCredentialSnapshot.candidate) [(name, scopes)] = .ok (.inr plan))
    (isSplit : alternatives operation = before ++ [(name, scopes)] :: after)
    {otherScopes : List Text} (shadow : [(name, otherScopes)] ∈ before) :
    operationProfile platform hashing canonical choose operation =
      .error (compileError operation "OAuth security selection changed required scopes") := by
  obtain ⟨spec, found, isName, -, planned, -⟩ := selected_spec judged
  -- The compiler sees the first of the alternatives over this scheme.
  obtain ⟨first, firstScopes, rest, isFirst, fresh⟩ : ∃ first firstScopes rest,
      before = first ++ [(name, firstScopes)] :: rest ∧ ∀ scopes, [(name, scopes)] ∉ first := by
    clear rejected isSplit
    induction before with
    | nil => cases shadow
    | cons alternative rest ih =>
      by_cases single : ∃ scopes, alternative = [(name, scopes)]
      · obtain ⟨firstScopes, rfl⟩ := single
        exact ⟨[], firstScopes, rest, rfl, fun _ member => by cases member⟩
      · have later : [(name, otherScopes)] ∈ rest := by
          rcases List.mem_cons.mp shadow with isHead | later
          · exact absurd ⟨otherScopes, isHead.symm⟩ single
          · exact later
        obtain ⟨first, firstScopes, rest, rfl, fresh⟩ := ih later
        refine ⟨alternative :: first, firstScopes, rest, rfl, fun scopes member => ?_⟩
        rcases List.mem_cons.mp member with isHead | isLater
        · exact single ⟨scopes, isHead.symm⟩
        · exact fresh scopes isLater
  have refused : ¬ spec.Admits firstScopes := by
    intro admits
    exact rejected [(name, firstScopes)] (by rw [isFirst]; simp) (selectable_of_admits found ⟨plan, judged⟩ admits)
  rw [isFirst, List.append_assoc, List.cons_append] at isSplit
  rw [operationProfile_eq secured chosen isName isSplit fresh, changed_of_not_admits planned refused]
  rfl

/-! ## All operations -/

theorem authProfiles_error {operations : List CanonicalOperation} {failure : CompileFailure}
    (raised : authProfiles platform hashing canonical choose operations = .error failure) :
    ∃ operation ∈ operations, operationProfile platform hashing canonical choose operation = .error failure := by
  rcases bind_eq_error.mp raised with failed | ⟨_, -, finished⟩
  · obtain ⟨operation, member, failed⟩ := exists_of_mapM_error failed
    refine ⟨operation, Text.mem_sortedBy.mp member, ?_⟩
    rcases bind_eq_error.mp failed with profiled | ⟨_, -, finished⟩
    · exact profiled
    · cases finished
  · cases finished

/-- The whole list of profiles is not made when one of them is refused. -/
theorem not_succeeds_authProfiles {operations : List CanonicalOperation} {failure : CompileFailure}
    (member : operation ∈ operations)
    (raised : operationProfile platform hashing canonical choose operation = .error failure) :
    ¬ Succeeds (authProfiles platform hashing canonical choose operations) := by
  rintro ⟨profiles, made⟩
  obtain ⟨results, ran, -⟩ := bind_eq_ok.mp made
  obtain ⟨result, -, isMade⟩ := exists_of_mapM_source ran (Text.mem_sortedBy.mpr member)
  rw [raised] at isMade
  cases isMade

theorem authProfiles_singleton {failure : CompileFailure}
    (raised : operationProfile platform hashing canonical choose operation = .error failure) :
    authProfiles platform hashing canonical choose [operation] = .error failure := by
  simp [authProfiles, Text.sortedBy, raised, bind, Except.bind]

/-- No operation that was selected for is shadowed. -/
def Unshadowed (unicode : Unicode) (canonical : CanonicalApi) (credentials : List BuildCredentialSnapshot)
    (excluded : List Text) : Prop :=
  ∀ operation ∈ executableOperations canonical excluded, anonymousAllowed operation = false →
    ¬ Shadowed unicode canonical credentials operation

/-- Whichever of the executable operations are compiled, none of their selections is refused as such. -/
def SelectionsAccepted (platform : Platform) (hashing : Hashing) (canonical : CanonicalApi)
    (selections : List (Text × BuildSecuritySelection)) (excluded : List Text) : Prop :=
  ∀ operations ⊆ executableOperations canonical excluded, ∀ operation, ∀ failure ∈ selectionErrors operation,
    authProfiles platform hashing canonical (fun key => selections.lookup key) operations ≠ .error failure

theorem selections_accepted_of_unshadowed (unique : canonical.operationKeys.Nodup)
    (mapped : mapCredentials platform.unicode canonical credentials excluded = .ok selections)
    (clear : Unshadowed platform.unicode canonical credentials excluded) :
    SelectionsAccepted platform hashing canonical selections excluded := by
  intro operations within other failure isError raised
  obtain ⟨operation, member, failed⟩ := authProfiles_error raised
  have executable := within member
  by_cases secured : anonymousAllowed operation = false
  · obtain ⟨plan, rejections, selected, chosen⟩ := lookup_of_secured unique mapped executable secured
    obtain ⟨before, alternative, after, isSplit, rejected, judged⟩ := selectAuthAlternative_eq_some.mp selected
    obtain ⟨name, scopes, _, _, _, rfl, -⟩ := judgeAlternative_eq_selected.mp judged
    have notSelectable : ∀ earlier ∈ before, ¬ Selectable platform.unicode (schemeSpecs canonical)
        (credentials.map BuildCredentialSnapshot.candidate) earlier := by
      rintro earlier isEarlier ⟨_, isSelected⟩
      obtain ⟨rejection, -, isRejected⟩ := exists_of_forall₂_left rejected isEarlier
      rw [isSelected] at isRejected
      cases isRejected
    obtain ⟨spec, found, -⟩ := selected_spec judged
    rw [lookup_schemeSpecs, Option.map_eq_some_iff] at found
    obtain ⟨scheme, isScheme, rfl⟩ := found
    have fresh : ∀ otherScopes, [(name, otherScopes)] ∉ before := by
      intro otherScopes shadow
      refine clear operation executable secured ⟨before, name, scopes, after, isSplit, notSelectable, ⟨plan, judged⟩,
        otherScopes, shadow, scheme, isScheme, fun admits => ?_⟩
      exact notSelectable _ shadow (selectable_of_admits (by rw [lookup_schemeSpecs, isScheme]; rfl) ⟨plan, judged⟩ admits)
    simp only [selectionErrors, compileError, List.mem_cons, List.not_mem_nil, or_false] at isError
    rcases isError with rfl | rfl | rfl <;> cases details_of_error secured chosen judged isSplit fresh failed
  · have none := lookup_of_anonymous unique mapped executable (by simpa using secured)
    simp [operationProfile, none, secured] at failed

/-- The compiler takes every selection of the mapping exactly when no operation is shadowed, and compiles none of
the operations when one is. -/
theorem selections_accepted_iff (unique : canonical.operationKeys.Nodup)
    (mapped : mapCredentials platform.unicode canonical credentials excluded = .ok selections) :
    (SelectionsAccepted platform hashing canonical selections excluded ↔
      Unshadowed platform.unicode canonical credentials excluded) ∧
    (Succeeds (authProfiles platform hashing canonical (fun key => selections.lookup key)
        (executableOperations canonical excluded)) → Unshadowed platform.unicode canonical credentials excluded) := by
  have refused : ∀ operation ∈ executableOperations canonical excluded, anonymousAllowed operation = false →
      Shadowed platform.unicode canonical credentials operation →
      operationProfile platform hashing canonical (fun key => selections.lookup key) operation =
        .error (compileError operation "OAuth security selection changed required scopes") := by
    rintro operation executable secured ⟨before, name, scopes, after, isSplit, rejected, ⟨plan, judged⟩, _, shadow, -⟩
    obtain ⟨chosenPlan, rejections, selected, chosen⟩ := lookup_of_secured unique mapped executable secured
    have same := selected_unique isSplit rejected judged selected
    subst same
    exact operationProfile_of_shadowed secured chosen rejected judged isSplit shadow
  refine ⟨⟨fun accepted operation executable secured shadowed => ?_, selections_accepted_of_unshadowed unique mapped⟩,
    fun succeeds operation executable secured shadowed => ?_⟩
  · have raised := authProfiles_singleton (refused operation executable secured shadowed)
    have within : [operation] ⊆ executableOperations canonical excluded := by
      intro other member
      rw [List.mem_singleton.mp member]
      exact executable
    exact accepted [operation] within operation _ (by simp [selectionErrors]) raised
  · exact not_succeeds_authProfiles executable (refused operation executable secured shadowed) succeeds

end

/-! ## Two alternatives over one scheme -/

/-- An operation with alternatives over one OAuth scheme, given by their scopes. -/
def scopedOperation (alternatives : List (List Text)) : CanonicalOperation where
  key := "op_items"
  toolNameSeed := "get_items"
  method := .get
  pathTemplate := "/items"
  serverRef := some "main"
  serverCandidates := ["main"]
  security := alternatives.map fun scopes => ⟨[("oauth", scopes)], ⟨"v1", "#/paths/~1items/get/security/0"⟩⟩
  provenance := ⟨⟨"v1", "#/paths/~1items/get"⟩, []⟩

def scopedApi (alternatives : List (List Text)) : CanonicalApi where
  projectId := "p1"
  sourceFormat := .openapi31
  title := "Items"
  servers := [⟨"main", "https://api.example.com/", none, ⟨"v1", "#/servers/0"⟩⟩]
  securitySchemes := [("oauth", {
    type := .oauth2ClientCredentials
    tokenUrl := some "https://auth.example.com/token"
    scopes := ["read"]
    sourceRef := ⟨"v1", "#/components/securitySchemes/oauth"⟩ })]
  operations := [scopedOperation alternatives]
  sourceVersionIds := ["v1"]
  sourceFingerprint := List.replicate 64 'b'

def oauthCredential : BuildCredentialSnapshot :=
  ⟨20, .oauth2ClientCredentials, []⟩

/-- The mapping falls back on the second alternative, and the compiler holds it against the first. -/
theorem scoped_selection_refused :
    ∃ selections, mapCredentials plainPlatform.unicode (scopedApi [["admin"], ["read"]]) [oauthCredential] [] =
      .ok selections ∧
    authProfiles plainPlatform zeroHashing (scopedApi [["admin"], ["read"]]) (fun key => selections.lookup key)
        (executableOperations (scopedApi [["admin"], ["read"]]) []) =
      .error (compileError (scopedOperation [["admin"], ["read"]]) "OAuth security selection changed required scopes") :=
  ⟨_, rfl, rfl⟩

/-- The first of the two alternatives is selected, and nothing stands before it. -/
theorem scoped_selection_accepted :
    ∃ selections, mapCredentials plainPlatform.unicode (scopedApi [["read"], ["admin"]]) [oauthCredential] [] =
        .ok selections ∧
      SelectionsAccepted plainPlatform zeroHashing (scopedApi [["read"], ["admin"]]) selections [] := by
  have mapped : mapCredentials plainPlatform.unicode (scopedApi [["read"], ["admin"]]) [oauthCredential] [] =
      .ok [("op_items", ⟨"oauth", Text.ofUuid 20, ["read"], .clientSecretBasic⟩)] := rfl
  have clear : Unshadowed plainPlatform.unicode (scopedApi [["read"], ["admin"]]) [oauthCredential] [] := by
    rintro operation executable - ⟨before, name, scopes, after, isSplit, notSelectable, -, _, shadow, -⟩
    rw [List.mem_singleton.mp (List.mem_filter.mp executable).1] at isSplit
    cases before with
    | nil => cases shadow
    | cons first rest =>
      have isFirst : first = [(("oauth" : Text), [("read" : Text)])] := (List.cons.inj isSplit).1.symm
      refine notSelectable first List.mem_cons_self ?_
      rw [isFirst]
      exact ⟨_, rfl⟩
  have unique : (scopedApi [["read"], ["admin"]]).operationKeys.Nodup := List.nodup_singleton _
  exact ⟨_, mapped, (selections_accepted_iff unique mapped).1.mpr clear⟩

end Mcplica.Builds
