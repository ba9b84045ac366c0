import Mcplica.Library.SingleFlight
import Mcplica.Library.Uuid
import Mcplica.Contracts.Canonical
import Mcplica.Domain.Sources

/-! # Concurrent canonicalization

`CanonicalizationService.canonicalize`: the checks before the cache key, and the calls of one process that share its
cache, its failures and its table of computations in flight. What `_canonicalize_uncached` returns or raises is up to
the environment here. A call yields to the others before it looks its key up, while it computes and while it waits for
another call; from the look-up to the entry in the table it does not. -/

namespace Mcplica.Canonicalization

open Mcplica.Domain Mcplica.Library Mcplica.Contracts
open Mcplica.Contracts.Json (entry)

structure CacheKey where
  projectId : Uuid
  sourceFingerprint : Text
  configurationFingerprint : Text
  maxSourceBytes : Nat
  deriving Repr, DecidableEq

inductive CanonicalizationError where
  | notFound (message : Text)
  | source (error : SourceError)
  /-- A `SourceParseError` with a reason code. -/
  | untrustworthyBindings (message reasonCode : Text)
  deriving Repr, DecidableEq

structure CanonicalizationRequest where
  projectId : Uuid
  bindings : List BoundSourceVersion
  maxSourceBytes : Nat
  routing : Option ProjectRoutingConfiguration := none

/-- `hashlib.sha256(...).hexdigest()` of a text, and of a value that is written as JSON with sorted keys. -/
structure Digests where
  ofText : Text → Text
  ofJson : Json → Text

/-! ## The cache key -/

def byVersionId (bindings : List BoundSourceVersion) : List BoundSourceVersion :=
  Text.sortedBy (fun binding => Text.ofUuid binding.versionId) bindings

def optionalText (value : Option Text) : Json :=
  (value.map Json.string).getD .null

section

variable (unicode : Unicode) (digests : Digests)

/-- `_source_fingerprint` -/
def sourceFingerprint (bindings : List BoundSourceVersion) : Text :=
  digests.ofText <| (byVersionId bindings).flatMap fun binding =>
    Text.ofUuid binding.versionId ++ Char.ofNat 0 :: binding.contentSha256 ++ ['\n']

def bindingIdentity (binding : BoundSourceVersion) : Option Json := do
  let aliases ← binding.effectiveDependencyAliases unicode
  return .object [
    entry "source_id" (.string (Text.ofUuid binding.source.id)),
    entry "source_version_id" (.string (Text.ofUuid binding.versionId)),
    entry "kind" (.string binding.source.kind.value),
    entry "name" (.string binding.source.name),
    entry "source_url" (optionalText binding.source.sourceUrl),
    entry "is_primary" (.bool binding.source.isPrimary),
    entry "dependency_aliases" (.array ((Text.sorted aliases).map .string))]

/-- `source_configuration_fingerprint`; `none` where an alias cannot be derived. -/
def sourceConfigurationFingerprint (bindings : List BoundSourceVersion) (routing : ProjectRoutingConfiguration) :
    Option Text := do
  let identities ← (byVersionId bindings).mapM (bindingIdentity unicode)
  return digests.ofJson (.object [
    entry "source_bindings" (.array identities),
    entry "default_base_url" (optionalText routing.defaultBaseUrl),
    entry "active_server_ref" (optionalText routing.activeServerRef),
    entry "server_mappings" (.object (routing.serverMappings.map fun (key, ref) => (key, .string ref)))])

/-- The checks of a call and its cache key; `project` is the row of its project when it is read. -/
def CanonicalizationRequest.cacheKey (request : CanonicalizationRequest) (project : Option ProjectRoutingConfiguration) :
    Except CanonicalizationError CacheKey := do
  ensure (decide (request.bindings.map BoundSourceVersion.versionId).Nodup)
    (.source (.parse .sourceParse "Source version bindings must be unique" none none))
  let project ← obtain? project (.notFound "Project was not found")
  ensure (request.bindings.all fun binding => binding.source.projectId = request.projectId)
    (.source (.parse .sourceParse "One or more source versions do not belong to the Project" none none))
  ensure (request.bindings.all BoundSourceVersion.bindingMetadataTrustworthy)
    (.untrustworthyBindings "Historical Build source identity cannot be proven; create a new Build"
      "BUILD_SOURCE_BINDINGS_UNTRUSTWORTHY")
  let configuration ← obtain? (sourceConfigurationFingerprint unicode digests request.bindings
    (request.routing.getD project)) (.source .value)
  return ⟨request.projectId, sourceFingerprint digests request.bindings, configuration, request.maxSourceBytes⟩

end

/-! ## The calls of a process -/

/-- `_FAILURE_COOLDOWN_SECONDS`, in the nanoseconds of the monotonic clock. -/
def failureCooldown : Nat := 15 * 1000000000

/-- `_CACHE_LIMIT` -/
def cacheLimit : Nat := 128

abbrev Flights := SingleFlight.State CacheKey CanonicalApi CanonicalizationError

structure CanonicalizationService where
  flights : Flights := {}
  requests : Nat → Option CanonicalizationRequest := fun _ => none

inductive CanonicalizationStep where
  | advance (nanoseconds : Nat)
  | canonicalize (call : Nat) (request : CanonicalizationRequest)
  /-- The call checks its request against the row of its project, which it has read, and looks its key up. -/
  | lookUp (call : Nat) (project : Option ProjectRoutingConfiguration)
  /-- `_canonicalize_uncached` returns or raises. -/
  | finish (call : Nat) (outcome : Except CanonicalizationError CanonicalApi)
  | resume (call : Nat)
  | cancel (call : Nat)

namespace CanonicalizationService

section

variable (unicode : Unicode) (digests : Digests)

/-- What a step means for the shared tables, if anything. -/
def flight (service : CanonicalizationService) : CanonicalizationStep →
    Option (SingleFlight.Action CacheKey CanonicalApi CanonicalizationError)
  | .advance nanoseconds => some (.advance nanoseconds)
  | .canonicalize call _ => some (.arrive call)
  | .lookUp call project => (service.requests call).map fun request =>
      .lookUp call (request.cacheKey unicode digests project)
  | .finish call outcome => some (.finish call outcome)
  | .resume call => some (.resume call)
  | .cancel call => some (.cancel call)

/-- A call keeps the request it was made with. -/
def accept (requests : Nat → Option CanonicalizationRequest) : CanonicalizationStep → Nat → Option CanonicalizationRequest
  | .canonicalize call request => Function.update requests call ((requests call).or (some request))
  | _ => requests

def step (service : CanonicalizationService) (action : CanonicalizationStep) : CanonicalizationService where
  flights := match service.flight unicode digests action with
    | some flight => SingleFlight.step failureCooldown cacheLimit service.flights flight
    | none => service.flights
  requests := accept service.requests action

/-- The key is one that the checks of the call's request give. -/
def HasKey (service : CanonicalizationService) (call : Nat) (key : CacheKey) : Prop :=
  ∃ request project, service.requests call = some request ∧ request.cacheKey unicode digests project = .ok key

/-- What holds between the calls of a process after the given steps. -/
structure SingleFlightLaw (actions : List CanonicalizationStep) (service : CanonicalizationService) : Prop where
  /-- At most one computation for a key is running. -/
  single : ∀ key first second, service.flights.calls first = .leading key → service.flights.calls second = .leading key →
    first = second
  returned : ∀ call key result, service.flights.calls call = .returned key result →
    service.HasKey unicode digests call key ∧
      ∃ computation ∈ service.flights.log, computation.key = key ∧ computation.outcome = .ok result
  /-- The error is recent, or that of the computation the call was waiting for. -/
  raised : ∀ call key failure time awaited, service.flights.calls call = .raised key failure time awaited →
    service.HasKey unicode digests call key ∧
      ∃ computation ∈ service.flights.log, computation.key = key ∧ computation.outcome = .error failure ∧
        computation.time ≤ time ∧ (time - computation.time < failureCooldown ∨ awaited = some computation.leader)
  /-- Before it has a key, a call raises only what its own checks raise. -/
  refused : ∀ call failure, service.flights.calls call = .refused failure →
    ∃ request project, service.requests call = some request ∧ request.cacheKey unicode digests project = .error failure
  /-- A call ends as cancelled only when it was cancelled itself. -/
  cancelled : ∀ call, service.flights.calls call = .cancelled → .cancel call ∈ actions
  /-- A follower waits for a call that computes its key, or goes on as soon as it is resumed. -/
  moves : ∀ call key leader, service.flights.calls call = .following key leader →
    service.flights.calls leader = .leading key ∨
      (service.step unicode digests (.resume call)).flights.calls call ≠ .following key leader
  empty : (∀ call key, service.flights.calls call ≠ .leading key) → service.flights.inflight = []

/-- What is known of a call's key, its refusal and its cancellation. -/
structure Owned (actions : List CanonicalizationStep) (service : CanonicalizationService) : Prop where
  key : ∀ call key, (service.flights.calls call).key? = some key → service.HasKey unicode digests call key
  refused : ∀ call failure, service.flights.calls call = .refused failure →
    ∃ request project, service.requests call = some request ∧ request.cacheKey unicode digests project = .error failure
  cancelled : ∀ call, service.flights.calls call = .cancelled → .cancel call ∈ actions

end

variable {unicode : Unicode} {digests : Digests} {service : CanonicalizationService}

theorem accept_of_some {call : Nat} {request : CanonicalizationRequest} (known : service.requests call = some request)
    (action : CanonicalizationStep) : (service.step unicode digests action).requests call = some request := by
  cases action with
  | canonicalize other asked =>
    show Function.update service.requests other ((service.requests other).or (some asked)) call = some request
    rw [Function.update_apply]
    split
    · rename_i same
      rw [← same, known]
      rfl
    · exact known
  | _ => exact known

theorem sound_step (sound : SingleFlight.Sound failureCooldown service.flights) (action : CanonicalizationStep) :
    SingleFlight.Sound failureCooldown (service.step unicode digests action).flights := by
  unfold step
  cases service.flight unicode digests action with
  | none => exact sound
  | some flight => exact sound.step (by decide) flight

/-- A look-up in the tables is one of the service's, with the key that the checks give. -/
theorem flight_eq_lookUp {action : CanonicalizationStep} {call : Nat} {key : Except CanonicalizationError CacheKey}
    (isFlight : service.flight unicode digests action = some (.lookUp call key)) :
    ∃ request project, service.requests call = some request ∧ request.cacheKey unicode digests project = key := by
  cases action with
  | lookUp other project =>
    obtain ⟨request, known, same⟩ := Option.map_eq_some_iff.mp isFlight
    cases same
    exact ⟨request, project, known, rfl⟩
  | _ => cases isFlight

theorem flight_eq_cancel {action : CanonicalizationStep} {call : Nat}
    (isFlight : service.flight unicode digests action = some (.cancel call)) : action = .cancel call := by
  cases action with
  | lookUp other project =>
    obtain ⟨_, -, same⟩ := Option.map_eq_some_iff.mp isFlight
    cases same
  | cancel other =>
    cases isFlight
    rfl
  | _ => cases isFlight

theorem standing_step (action : CanonicalizationStep) (call : Nat) :
    (service.step unicode digests action).flights.calls call = service.flights.calls call ∨
      ∃ flight, service.flight unicode digests action = some flight ∧
        SingleFlight.Moves service.flights flight call ((service.step unicode digests action).flights.calls call) := by
  unfold step
  cases service.flight unicode digests action with
  | none => exact .inl rfl
  | some flight =>
    rcases SingleFlight.call_step flight call with same | moves
    · exact .inl same
    · exact .inr ⟨flight, rfl, moves⟩

theorem owned_step {actions : List CanonicalizationStep} (owned : Owned unicode digests actions service)
    (action : CanonicalizationStep) :
    Owned unicode digests (actions ++ [action]) (service.step unicode digests action) := by
  have known : ∀ call key, service.HasKey unicode digests call key →
      (service.step unicode digests action).HasKey unicode digests call key := by
    rintro call key ⟨request, project, asked, isKey⟩
    exact ⟨request, project, accept_of_some asked action, isKey⟩
  constructor
  · intro call key hasKey
    rcases standing_step action call with same | ⟨flight, isFlight, moves⟩
    · rw [same] at hasKey
      exact known call key (owned.key call key hasKey)
    · rcases moves.key key hasKey with before | rfl
      · exact known call key (owned.key call key before)
      · exact known call key (flight_eq_lookUp isFlight)
  · intro call failure isRefused
    have asked : ∃ request project, service.requests call = some request ∧
        request.cacheKey unicode digests project = .error failure := by
      rcases standing_step action call with same | ⟨flight, isFlight, moves⟩
      · exact owned.refused call failure (same ▸ isRefused)
      · rw [moves.refused failure isRefused] at isFlight
        exact flight_eq_lookUp isFlight
    obtain ⟨request, project, asked, refuses⟩ := asked
    exact ⟨request, project, accept_of_some asked action, refuses⟩
  · intro call isCancelled
    rcases standing_step action call with same | ⟨flight, isFlight, moves⟩
    · exact List.mem_append_left _ (owned.cancelled call (same ▸ isCancelled))
    · rw [moves.cancelled isCancelled] at isFlight
      rw [flight_eq_cancel isFlight]
      exact List.mem_append_right _ (List.mem_singleton_self _)

theorem run_owned (actions : List CanonicalizationStep) :
    Owned unicode digests actions (run (step unicode digests) {} actions) := by
  induction actions using List.reverseRecOn with
  | nil => exact ⟨nofun, nofun, nofun⟩
  | append_singleton actions action ih =>
    rw [run_append]
    exact owned_step ih action

/-- Whatever the order of calls, cancellations, failures and clock advances: one computation at a time for a key,
results and errors of one's own key, and an empty table when no call computes. -/
theorem canonicalization_single_flight (actions : List CanonicalizationStep) :
    SingleFlightLaw unicode digests actions (run (step unicode digests) {} actions) := by
  have sound : SingleFlight.Sound failureCooldown (run (step unicode digests) {} actions).flights :=
    run_invariant (fun service : CanonicalizationService => SingleFlight.Sound failureCooldown service.flights)
      (fun _ action sound => sound_step sound action) SingleFlight.Sound.initial actions
  have owned := @run_owned unicode digests actions
  refine ⟨fun _ _ _ => sound.leader_unique, ?_, ?_, owned.refused, owned.cancelled, ?_, sound.inflight_eq_nil⟩
  · intro call key result returned
    have justified := sound.calls call
    rw [returned] at justified
    exact ⟨owned.key call key (by rw [returned]; rfl), justified⟩
  · intro call key failure time awaited raised
    have justified := sound.calls call
    rw [raised] at justified
    exact ⟨owned.key call key (by rw [raised]; rfl), justified⟩
  · intro call key leader follows
    exact @SingleFlight.Sound.follower_moves _ _ _ _ _ cacheLimit _ _ _ sound _ follows

/-! ## Errors of another kind -/

def plainDigests : Digests :=
  ⟨id, Json.canonical⟩

/-- A call for a project without sources. -/
def emptyRequest : CanonicalizationRequest :=
  { projectId := 1, bindings := [], maxSourceBytes := 10 }

/-- The second call follows the first, and is resumed twenty seconds after the first failed. -/
def lateRun : List CanonicalizationStep :=
  [.canonicalize 1 emptyRequest, .canonicalize 2 emptyRequest, .lookUp 1 (some {}), .lookUp 2 (some {}),
    .finish 1 (.error (.source (.parse .sourceParse "A build requires exactly one primary executable source" none none))),
    .advance (20 * 1000000000), .resume 2]

/-- A follower that the event loop resumes late raises the error of its leader all the same, and a call for a project
that is gone raises an error of no computation. -/
theorem late_follower_and_refused_call :
    (∃ key failure, (run (step asciiUnicode plainDigests) {} lateRun).flights.calls 2 =
        .raised key failure (20 * 1000000000) (some 1)) ∧
    (∀ computation ∈ (run (step asciiUnicode plainDigests) {} lateRun).flights.log,
      failureCooldown ≤ 20 * 1000000000 - computation.time) ∧
    (run (step asciiUnicode plainDigests) {} [.canonicalize 1 emptyRequest, .lookUp 1 none]).flights.calls 1 =
      .refused (.notFound "Project was not found") ∧
    (run (step asciiUnicode plainDigests) {} [.canonicalize 1 emptyRequest, .lookUp 1 none]).flights.log = [] := by
  refine ⟨⟨_, _, rfl⟩, ?_, rfl, rfl⟩
  intro computation member
  have times : (run (step asciiUnicode plainDigests) {} lateRun).flights.log.map SingleFlight.Computation.time = [0] := rfl
  have time : computation.time ∈ [0] := times ▸ List.mem_map_of_mem member
  rw [List.mem_singleton.mp time]
  decide

end CanonicalizationService

end Mcplica.Canonicalization
