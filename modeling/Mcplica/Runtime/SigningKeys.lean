import Mathlib.Tactic.Linarith
import Mathlib.Tactic.NormNum
import Mcplica.Contracts.Json
import Mcplica.Library.Checks
import Mcplica.Library.Refresh

/-! # Signing keys

`OidcJwksClient`: the keys of the identity provider are cached, and one lock is held while they are fetched. A caller that
misses a key forces a refresh, at most once in half a minute if the fetch succeeds. -/

namespace Mcplica.Runtime.SigningKeys

open Mcplica.Library Mcplica.Contracts

/-! ## The endpoint -/

def maxJwksKeys : Nat := 100

def minForcedRefreshSeconds : ℚ := 30

/-- One round of the loop over the values of `keys`. -/
def addKey (keys : List (Text × JsonObject)) : Json → Except Text (List (Text × JsonObject))
  | .object key =>
    match Json.get key "kid" with
    | some (.string keyId) =>
      if keyId = [] then .ok keys
      else if (keys.lookup keyId).isSome then .error "OIDC JWKS response contains duplicate key identifiers"
      else .ok (keys ++ [(keyId, key)])
    | _ => .ok keys
  | _ => .ok keys

def readKeys (payload : JsonObject) : Except Text (List (Text × JsonObject)) :=
  match Json.get payload "keys" with
  | some (.array values) => do
    ensure (values.length ≤ maxJwksKeys) ("OIDC JWKS response contains too many keys" : Text)
    let keys ← values.foldlM addKey []
    ensure (!keys.isEmpty) ("OIDC JWKS response contains no usable keys" : Text)
    return keys
  | _ => .error "OIDC JWKS response does not contain keys"

/-- `_cache_ttl`; `none` where `float` raises. -/
def cacheTtl (unicode : Unicode) (cacheControl : Text) : Option ℚ :=
  let directives := (cacheControl.splitOn ',').map Text.strip
  let named (directive : Text) : Text := (Text.partition '=' directive).1.lower unicode
  if directives.any fun directive => named directive = ("no-cache" : Text) || named directive = ("no-store" : Text) then
    some 0
  else
    let maxAge (directive : Text) : Option Text :=
      (Text.partition '=' directive).2.filter fun value =>
        named directive = ("max-age" : Text) && value.isDigit unicode
    match directives.findSome? maxAge with
    | some value => (value.int unicode).map fun seconds => min 3600 (seconds : ℚ)
    | none => some 300

/-! ## The cache -/

structure CachedJwks where
  keys : List (Text × JsonObject)
  expiresAt : ℚ

structure JwksCache where
  cache : Option CachedJwks := none
  lastRefresh : ℚ := 0

structure KeyRequest where
  keyId : Text
  forceRefresh : Bool

structure FetchedKeys where
  keys : List (Text × JsonObject)
  ttl : ℚ

/-- The keys of a cache that has not expired, for a caller that does not force a refresh. -/
def unexpired (request : KeyRequest) (cell : JwksCache) (now : ℚ) : Option (List (Text × JsonObject)) :=
  if request.forceRefresh then none
  else (cell.cache.filter fun cache => cache.expiresAt > now).map CachedJwks.keys

/-- What a caller gets whose forced refresh comes too soon. -/
def throttled (request : KeyRequest) (cell : JwksCache) (now : ℚ) : Option (List (Text × JsonObject)) :=
  if request.forceRefresh ∧ now - cell.lastRefresh < minForcedRefreshSeconds then
    some ((cell.cache.map CachedJwks.keys).getD [])
  else none

/-- `get_key`; an outcome is the payload of the key set and its `cache-control` header. -/
def getKey (unicode : Unicode) :
    Refresh.Protocol Unit KeyRequest JwksCache (Option (JsonObject × Text)) FetchedKeys (Option JsonObject) where
  key _ := ()
  initial := {}
  peek request cell now := (unexpired request cell now).map (·.lookup request.keyId)
  enter request cell now := ((unexpired request cell now).or (throttled request cell now)).map (·.lookup request.keyId)
  success outcome := do
    let (payload, cacheControl) ← outcome
    let ttl ← cacheTtl unicode cacheControl
    let keys ← (readKeys payload).toOption
    return ⟨keys, ttl⟩
  store fetched now := ⟨if fetched.ttl > 0 then some ⟨fetched.keys, now + fetched.ttl⟩ else none, now⟩
  answer request fetched := fetched.keys.lookup request.keyId

abbrev State := Refresh.State Unit KeyRequest JwksCache FetchedKeys (Option JsonObject)

abbrev Action := Refresh.Action KeyRequest (Option (JsonObject × Text))

abbrev Event := Refresh.Event KeyRequest FetchedKeys (Option JsonObject)

/-! ## What is returned -/

/-- Every key that is returned is one of the last fetch that succeeded, and without force of one that has just ended or
whose lifetime has not. -/
def ReturnsLatest (unicode : Unicode) (state : State) : Prop :=
  ∀ call request key time older, .answered call request (some key) time :: older <:+ state.log →
    ∃ fetched completed, Refresh.latest (getKey unicode) () older = some (fetched, completed) ∧
      fetched.keys.lookup request.keyId = some key ∧
      (request.forceRefresh = false → time = completed ∨ time < completed + fetched.ttl)

/-- When fetches have started that a forced refresh has caused, the last one first. -/
def forcedStarts : List Event → List ℚ
  | [] => []
  | .started _ request time :: older => if request.forceRefresh then time :: forcedStarts older else forcedStarts older
  | .succeeded .. :: older | .failed .. :: older | .answered .. :: older => forcedStarts older

/-- Any two of these fetches are half a minute apart. -/
def Throttled (state : State) : Prop :=
  (forcedStarts state.log).Pairwise fun later earlier => earlier + minForcedRefreshSeconds ≤ later

/-- No fetch fails that a forced refresh has caused. -/
def ForcedFetchesSucceed (unicode : Unicode) (state : State) : Action → Prop
  | .finish call outcome => ∀ request, state.calls call = .fetching request → request.forceRefresh = true →
      ((getKey unicode).success outcome).isSome = true
  | .cancel call => ∀ request, state.calls call = .fetching request → request.forceRefresh = false
  | _ => True

variable {unicode : Unicode} {state next : State} {action : Action}

/-- The cache holds the keys of the last successful fetch. -/
theorem cache_eq_some {older : List Event} {cached : CachedJwks}
    (isCached : (Refresh.cellAt (getKey unicode) older ()).cache = some cached) :
    ∃ fetched completed, Refresh.latest (getKey unicode) () older = some (fetched, completed) ∧
      cached = ⟨fetched.keys, completed + fetched.ttl⟩ := by
  unfold Refresh.cellAt at isCached
  cases isLatest : Refresh.latest (getKey unicode) () older with
  | none =>
    rw [isLatest] at isCached
    cases isCached
  | some last =>
    obtain ⟨fetched, completed⟩ := last
    rw [isLatest] at isCached
    have isStored : (if fetched.ttl > 0 then some (⟨fetched.keys, completed + fetched.ttl⟩ : CachedJwks) else none) =
      some cached := isCached
    split at isStored
    · exact ⟨fetched, completed, rfl, (Option.some.inj isStored).symm⟩
    · cases isStored

theorem of_unexpired {older : List Event} {request : KeyRequest} {keys : List (Text × JsonObject)} {time : ℚ}
    (isUnexpired : unexpired request (Refresh.cellAt (getKey unicode) older ()) time = some keys) :
    ∃ fetched completed, Refresh.latest (getKey unicode) () older = some (fetched, completed) ∧ fetched.keys = keys ∧
      time < completed + fetched.ttl := by
  unfold unexpired at isUnexpired
  split at isUnexpired
  · cases isUnexpired
  obtain ⟨cached, isCached, rfl⟩ := Option.map_eq_some_iff.mp isUnexpired
  obtain ⟨isCached, inTime⟩ := Option.filter_eq_some_iff.mp isCached
  obtain ⟨fetched, completed, isLatest, rfl⟩ := cache_eq_some isCached
  exact ⟨fetched, completed, isLatest, rfl, of_decide_eq_true inTime⟩

theorem of_throttled {older : List Event} {request : KeyRequest} {keys : List (Text × JsonObject)} {time : ℚ}
    (isThrottled : throttled request (Refresh.cellAt (getKey unicode) older ()) time = some keys) :
    request.forceRefresh = true ∧ (keys = [] ∨ ∃ fetched completed,
      Refresh.latest (getKey unicode) () older = some (fetched, completed) ∧ fetched.keys = keys) := by
  unfold throttled at isThrottled
  split at isThrottled
  · rename_i forced
    refine ⟨forced.1, ?_⟩
    cases isCached : (Refresh.cellAt (getKey unicode) older ()).cache with
    | none =>
      rw [isCached] at isThrottled
      exact .inl (Option.some.inj isThrottled).symm
    | some cached =>
      rw [isCached] at isThrottled
      obtain ⟨fetched, completed, isLatest, rfl⟩ := cache_eq_some isCached
      exact .inr ⟨fetched, completed, isLatest, Option.some.inj isThrottled⟩
  · cases isThrottled

theorem returnsLatest (sound : Refresh.Sound (getKey unicode) state) : ReturnsLatest unicode state := by
  intro call request key time older isSuffix
  have fromUnexpired {keys : List (Text × JsonObject)}
      (isUnexpired : unexpired request (Refresh.cellAt (getKey unicode) older ()) time = some keys)
      (found : keys.lookup request.keyId = some key) : ∃ fetched completed,
        Refresh.latest (getKey unicode) () older = some (fetched, completed) ∧
          fetched.keys.lookup request.keyId = some key ∧
          (request.forceRefresh = false → time = completed ∨ time < completed + fetched.ttl) := by
    obtain ⟨fetched, completed, isLatest, rfl, inTime⟩ := of_unexpired isUnexpired
    exact ⟨fetched, completed, isLatest, found, fun _ => .inr inTime⟩
  rcases sound.answers call request (some key) time older isSuffix with peeked | entered | ⟨fetched, isLatest, found⟩
  · obtain ⟨keys, isUnexpired, found⟩ := Option.map_eq_some_iff.mp peeked
    exact fromUnexpired isUnexpired found
  · obtain ⟨keys, isKeys, found⟩ := Option.map_eq_some_iff.mp entered
    rcases Option.or_eq_some_iff.mp isKeys with isUnexpired | ⟨-, isThrottled⟩
    · exact fromUnexpired isUnexpired found
    · obtain ⟨forced, rfl | ⟨fetched, completed, isLatest, rfl⟩⟩ := of_throttled isThrottled
      · cases found
      · exact ⟨fetched, completed, isLatest, found, fun unforced => absurd (forced.symm.trans unforced) (by decide)⟩
  · exact ⟨fetched, time, isLatest, found, fun _ => .inl rfl⟩

/-! ## The throttle -/

/-- The time of the last refresh is not before any forced start, except for one that is in flight. -/
structure Spaced (state : State) : Prop where
  throttled : Throttled state
  settled : ∀ time ∈ forcedStarts state.log, time ≤ (state.cells ()).lastRefresh ∨
    ∃ call request, state.calls call = .fetching request ∧ request.forceRefresh = true

theorem forcedStarts_forced {call : Nat} {request : KeyRequest} {time : ℚ} (forced : request.forceRefresh = true)
    (older : List Event) : forcedStarts (.started call request time :: older) = time :: forcedStarts older :=
  if_pos forced

theorem forcedStarts_unforced {call : Nat} {request : KeyRequest} {time : ℚ} (unforced : ¬ request.forceRefresh = true)
    (older : List Event) : forcedStarts (.started call request time :: older) = forcedStarts older :=
  if_neg unforced

theorem time_le_of_forcedStart {log : List Event} {clock time : ℚ} (past : ∀ event ∈ log, event.time ≤ clock)
    (member : time ∈ forcedStarts log) : time ≤ clock := by
  induction log with
  | nil => cases member
  | cons event older ih =>
    have pastOlder : ∀ event ∈ older, event.time ≤ clock := fun other isOther => past other (List.mem_cons_of_mem _ isOther)
    cases event with
    | started call request started =>
      by_cases forced : request.forceRefresh = true
      · rw [forcedStarts_forced forced] at member
        rcases List.mem_cons.mp member with rfl | isOld
        · exact past _ List.mem_cons_self
        · exact ih pastOlder isOld
      · rw [forcedStarts_unforced forced] at member
        exact ih pastOlder member
    | succeeded | failed | answered => exact ih pastOlder member

/-- A forced refresh fetches half a minute after the last refresh at the earliest. -/
theorem waited_of_enter {request : KeyRequest} {cell : JwksCache} {now : ℚ} (forced : request.forceRefresh = true)
    (fetches : (getKey unicode).enter request cell now = none) : cell.lastRefresh + minForcedRefreshSeconds ≤ now := by
  by_contra early
  have tooSoon : request.forceRefresh = true ∧ now - cell.lastRefresh < minForcedRefreshSeconds :=
    ⟨forced, by linarith⟩
  have isThrottled : throttled request cell now ≠ none := by
    rw [throttled, if_pos tooSoon]
    exact Option.some_ne_none _
  have isNone := Option.map_eq_none_iff.mp fetches
  exact isThrottled (Option.or_eq_none_iff.mp isNone).2

namespace Spaced

theorem initial (clock : ℚ) : Spaced (Refresh.initialState (getKey unicode) clock) :=
  ⟨List.Pairwise.nil, fun _ member => by cases member⟩

/-- The calls that fetch go on fetching. -/
theorem settled_of_calls (spaced : Spaced state) {next : State} (sameLog : forcedStarts next.log = forcedStarts state.log)
    (sameCells : next.cells = state.cells)
    (fetching : ∀ call request, state.calls call = .fetching request → next.calls call = .fetching request) :
    Spaced next := by
  refine ⟨?_, fun time member => ?_⟩
  · unfold Throttled
    rw [sameLog]
    exact spaced.throttled
  · rw [sameLog] at member
    rw [sameCells]
    refine (spaced.settled time member).imp_right ?_
    rintro ⟨call, request, fetches, forced⟩
    exact ⟨call, request, fetching call request fetches, forced⟩

theorem setCall (spaced : Spaced state) {call : Nat} {value : Refresh.Call KeyRequest}
    (idle : ∀ request, state.calls call ≠ .fetching request) : Spaced (state.setCall call value) := by
  refine spaced.settled_of_calls rfl rfl fun other request fetches => ?_
  have different : other ≠ call := by
    rintro rfl
    exact idle request fetches
  exact (Refresh.setCall_of_ne different).trans fetches

/-- No forced fetch is in flight while the lock is free. -/
theorem settled_of_free (spaced : Spaced state) (sound : Refresh.Sound (getKey unicode) state) (free : state.holders () = none) :
    ∀ time ∈ forcedStarts state.log, time ≤ (state.cells ()).lastRefresh := by
  intro time member
  refine (spaced.settled time member).resolve_right ?_
  rintro ⟨call, request, fetches, -⟩
  have holds := sound.exclusive call request fetches
  rw [show state.holders ((getKey unicode).key request) = none from free] at holds
  cases holds

theorem begin (spaced : Spaced state) (sound : Refresh.Sound (getKey unicode) state) {call : Nat} {request : KeyRequest}
    (free : state.holders () = none) (fetches : (getKey unicode).enter request (state.cells ()) state.clock = none) :
    Spaced (state.begin (getKey unicode) call request) := by
  have settled := spaced.settled_of_free sound free
  by_cases forced : request.forceRefresh = true
  · have waited := waited_of_enter forced fetches
    have log : forcedStarts (state.begin (getKey unicode) call request).log = state.clock :: forcedStarts state.log :=
      forcedStarts_forced forced state.log
    refine ⟨?_, fun time member => ?_⟩
    · unfold Throttled
      rw [log]
      exact List.pairwise_cons.mpr ⟨fun time member => by linarith [settled time member], spaced.throttled⟩
    · rw [log] at member
      rcases List.mem_cons.mp member with rfl | isOld
      · exact .inr ⟨call, request, Refresh.setCall_self, forced⟩
      · exact .inl (settled time isOld)
  · have log : forcedStarts (state.begin (getKey unicode) call request).log = forcedStarts state.log :=
      forcedStarts_unforced forced state.log
    refine ⟨?_, fun time member => ?_⟩
    · unfold Throttled
      rw [log]
      exact spaced.throttled
    · rw [log] at member
      exact .inl (settled time member)

theorem succeed (spaced : Spaced state) (sound : Refresh.Sound (getKey unicode) state) (call : Nat) (request : KeyRequest)
    (fetched : FetchedKeys) : Spaced (state.succeed (getKey unicode) call request fetched) := by
  refine ⟨spaced.throttled, fun time member => .inl ?_⟩
  have refreshed : (state.succeed (getKey unicode) call request fetched).cells () =
      (getKey unicode).store fetched state.clock := by
    show Function.update state.cells () ((getKey unicode).store fetched state.clock) () = _
    rw [Function.update_self]
  rw [refreshed]
  exact time_le_of_forcedStart sound.past member

/-- A fetch that nobody has forced may fail. -/
theorem fail (spaced : Spaced state) {call : Nat} {request : KeyRequest} (fetches : state.calls call = .fetching request)
    (unforced : request.forceRefresh = false) : Spaced (state.fail (getKey unicode) call request) := by
  refine ⟨spaced.throttled, fun time member => ?_⟩
  refine (spaced.settled time member).imp_right ?_
  rintro ⟨other, otherRequest, alsoFetches, forced⟩
  have different : other ≠ call := by
    rintro rfl
    cases fetches.symm.trans alsoFetches
    rw [unforced] at forced
    cases forced
  exact ⟨other, otherRequest, (Refresh.setCall_of_ne different).trans alsoFetches, forced⟩

theorem move (spaced : Spaced state) (sound : Refresh.Sound (getKey unicode) state)
    (succeeds : ForcedFetchesSucceed unicode state action) (moves : Refresh.Moves (getKey unicode) state action next) :
    Spaced next := by
  cases moves with
  | nothing => exact spaced
  | advance => exact ⟨spaced.throttled, spaced.settled⟩
  | idle idle _ => exact spaced.setCall idle
  | peeked absent _ => exact (spaced.setCall fun request => by rw [absent]; exact nofun).settled_of_calls rfl rfl fun _ _ => id
  | entered waits _ => exact (spaced.setCall fun request => by rw [waits]; exact nofun).settled_of_calls rfl rfl fun _ _ => id
  | begun _ free fetches => exact spaced.begin sound free fetches
  | succeeded fetches _ => exact spaced.succeed sound _ _ _
  | @raised call request outcome fetches raises =>
    refine spaced.fail fetches (Bool.not_eq_true _ ▸ fun forced => ?_)
    have isSuccess := succeeds request fetches forced
    rw [raises] at isSuccess
    cases isSuccess
  | cancelled fetches => exact spaced.fail fetches (succeeds _ fetches)

end Spaced

/-! ## Every run -/

def runKeys (unicode : Unicode) (clock : ℚ) (actions : List Action) : State :=
  run (Refresh.step (getKey unicode)) (Refresh.initialState (getKey unicode) clock) actions

theorem spaced_of_run {clock : ℚ} {actions : List Action}
    (succeed : Along (Refresh.step (getKey unicode)) (ForcedFetchesSucceed unicode)
      (Refresh.initialState (getKey unicode) clock) actions) : Spaced (runKeys unicode clock actions) := by
  have preserved : ∀ state action, ForcedFetchesSucceed unicode state action →
      Refresh.Sound (getKey unicode) state ∧ Spaced state →
      Refresh.Sound (getKey unicode) (Refresh.step (getKey unicode) state action) ∧
        Spaced (Refresh.step (getKey unicode) state action) := by
    rintro state action succeeds ⟨sound, spaced⟩
    exact ⟨sound.step action, spaced.move sound succeeds (Refresh.moves_step _ state action)⟩
  exact (run_invariant_along preserved ⟨.initialState clock, .initial clock⟩ succeed).2

/-- One fetch is in flight and every key that is returned is one of the last successful fetch. In a run in which no fetch
fails that a forced refresh has caused, any two of these start half a minute apart. -/
theorem signing_keys_of_every_run (unicode : Unicode) (clock : ℚ) (actions : List Action) :
    (∀ first second request other, (runKeys unicode clock actions).calls first = .fetching request →
      (runKeys unicode clock actions).calls second = .fetching other → first = second) ∧
    ReturnsLatest unicode (runKeys unicode clock actions) ∧
    (Along (Refresh.step (getKey unicode)) (ForcedFetchesSucceed unicode) (Refresh.initialState (getKey unicode) clock)
      actions → Throttled (runKeys unicode clock actions)) := by
  have sound := @Refresh.Sound.run _ _ _ _ _ _ _ (getKey unicode) clock actions
  exact ⟨fun first second request other fetches alsoFetches => sound.fetch_unique fetches alsoFetches rfl,
    returnsLatest sound, fun succeed => (spaced_of_run succeed).throttled⟩

/-! ## A failing provider -/

def signingKey : JsonObject :=
  [("kid", .text "a"), ("kty", .text "RSA")]

def keySet : JsonObject :=
  [("keys", .array [.object signingKey])]

def fiveMinutes : Text :=
  "max-age=300"

theorem cacheTtl_fiveMinutes : cacheTtl asciiUnicode fiveMinutes = some 300 := by
  have read : cacheTtl asciiUnicode fiveMinutes = some (min 3600 ((300 : Nat) : ℚ)) := rfl
  rw [read]
  norm_num

theorem readKeys_keySet : (readKeys keySet).toOption = some [(("a" : Text), signingKey)] := rfl

/-- A known key, and then two tokens with unknown keys; the endpoint answers the first of them with `outcome`. -/
def unknownKeys (outcome : Option (JsonObject × Text)) : List Action :=
  [.arrive 1 ⟨"a", false⟩, .acquire 1, .finish 1 (some (keySet, fiveMinutes)), .advance 200,
    .arrive 2 ⟨"b", false⟩, .arrive 3 ⟨"b", true⟩, .acquire 3, .finish 3 outcome,
    .arrive 4 ⟨"c", false⟩, .arrive 5 ⟨"c", true⟩, .acquire 5]

theorem forced_fetches_at_once : forcedStarts (runKeys asciiUnicode 100 (unknownKeys none)).log = [200, 200] := by
  have clock : max (100 : ℚ) 200 = 200 := by norm_num
  have fresh : (200 : ℚ) < 100 + 300 := by norm_num
  have waited : ¬ (200 : ℚ) - 100 < minForcedRefreshSeconds := by
    unfold minForcedRefreshSeconds
    norm_num
  simp [runKeys, unknownKeys, Refresh.step, Refresh.initialState, getKey, unexpired, throttled, cacheTtl_fiveMinutes,
    readKeys_keySet, Refresh.State.setCall, Refresh.State.begin, Refresh.State.succeed, Refresh.State.reply,
    Refresh.State.hold, Refresh.State.record, Refresh.State.keep, Refresh.State.fail, Option.filter, clock, fresh, waited, forcedStarts]

/-- Two forced refreshes fetch at the same time when the first of them fails. -/
theorem failed_refresh_not_throttled : ¬ Throttled (runKeys asciiUnicode 100 (unknownKeys none)) := by
  intro isThrottled
  unfold Throttled at isThrottled
  rw [forced_fetches_at_once, List.pairwise_cons] at isThrottled
  have apart := isThrottled.1 200 (List.mem_singleton_self _)
  unfold minForcedRefreshSeconds at apart
  norm_num at apart

/-- While the endpoint answers, the second unknown key has to wait. -/
theorem answered_refresh_throttled : Throttled (runKeys asciiUnicode 100 (unknownKeys (some (keySet, fiveMinutes)))) := by
  refine (signing_keys_of_every_run asciiUnicode 100 _).2.2 ?_
  have succeeds (call : Nat) (state : State) :
      ForcedFetchesSucceed asciiUnicode state (.finish call (some (keySet, fiveMinutes))) := by
    intro request _ _
    simp [getKey, cacheTtl_fiveMinutes, readKeys_keySet]
  unfold unknownKeys
  simp only [along_cons, along_nil, and_true]
  exact ⟨trivial, trivial, succeeds 1 _, trivial, trivial, trivial, trivial, succeeds 3 _, trivial, trivial, trivial⟩

end Mcplica.Runtime.SigningKeys
