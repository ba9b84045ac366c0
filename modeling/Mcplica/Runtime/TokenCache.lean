import Mathlib.Tactic.Linarith
import Mathlib.Tactic.NormNum
import Mcplica.Contracts.Json
import Mcplica.Library.Refresh

/-! # The OAuth token cache

`UpstreamAuthManager._oauth_token`: a token is kept for each profile until shortly before it expires, and the profile's lock
is held while a new one is fetched. -/

namespace Mcplica.Runtime.TokenCache

open Mcplica.Library Mcplica.Contracts

/-! ## The token endpoint -/

structure OAuthAccessToken where
  value : Text
  expiresInSeconds : ℚ

/-- A token as the endpoint grants it. -/
structure TokenGrant where
  value : Text
  expiresIn : ℚ
  positive : 0 < expiresIn

/-- The lifetime is cut to a day. -/
def TokenGrant.token (grant : TokenGrant) : OAuthAccessToken :=
  ⟨grant.value, min grant.expiresIn 86400⟩

/-- The end of `fetch_client_credentials`: the answer of the endpoint, `none` when it raises. -/
def readGrant (unicode : Unicode) (payload : JsonObject) : Option TokenGrant :=
  let tokenType := (Json.get payload "token_type").getD (.text "Bearer")
  let expiresIn := (Json.get payload "expires_in").getD (.integer 300)
  match Json.get payload "access_token", tokenType, expiresIn with
  | some (.string token), .string tokenType, .number expiresIn _ =>
    if token = [] || token.length > 16384 || tokenType.lower unicode ≠ ("bearer" : Text) then none
    else if positive : 0 < expiresIn then some ⟨token, expiresIn, positive⟩
    else none
  | _, _, _ => none

/-! ## The cache -/

structure CachedToken where
  value : Text
  refreshAt : ℚ

def cacheEntry (token : OAuthAccessToken) (now : ℚ) : CachedToken :=
  let safetyMargin := min 30 (max 1 (token.expiresInSeconds / 10))
  ⟨token.value, now + max 1 (token.expiresInSeconds - safetyMargin)⟩

/-- The cached token of a profile as long as it is not to be refreshed. -/
def freshToken (cached : Option CachedToken) (now : ℚ) : Option Text :=
  match cached with
  | some cached => if cached.refreshAt > now then some cached.value else none
  | none => none

/-- `_oauth_token` of a profile; an outcome is the payload of a successful answer of the token endpoint. -/
def oauthToken (unicode : Unicode) :
    Refresh.Protocol Text Text (Option CachedToken) (Option JsonObject) TokenGrant Text where
  key profileId := profileId
  initial := none
  peek _ := freshToken
  enter _ := freshToken
  success outcome := outcome.bind (readGrant unicode)
  store grant now := some (cacheEntry grant.token now)
  answer _ grant := grant.value

abbrev State := Refresh.State Text Text (Option CachedToken) TokenGrant Text

abbrev Action := Refresh.Action Text (Option JsonObject)

/-! ## Lifetimes -/

/-- How long a granted token is handed out from the cache. -/
def TokenGrant.kept (grant : TokenGrant) : ℚ :=
  max 1 (grant.token.expiresInSeconds - min 30 (max 1 (grant.token.expiresInSeconds / 10)))

/-- The lower bound of one second outlives exactly the tokens that live shorter. -/
theorem TokenGrant.kept_le_iff (grant : TokenGrant) : grant.kept ≤ grant.expiresIn ↔ 1 ≤ grant.expiresIn := by
  constructor
  · exact (le_max_left _ _).trans
  · intro long
    have margin : (0 : ℚ) ≤ min 30 (max 1 (grant.token.expiresInSeconds / 10)) :=
      le_min (by norm_num) ((zero_le_one).trans (le_max_left _ _))
    exact max_le long ((sub_le_self _ margin).trans (min_le_left _ _))

theorem freshToken_cacheEntry {grant : TokenGrant} {completed time : ℚ} {value : Text}
    (fresh : freshToken (some (cacheEntry grant.token completed)) time = some value) :
    grant.value = value ∧ time < completed + grant.kept := by
  unfold freshToken at fresh
  dsimp only at fresh
  split at fresh
  · rename_i inTime
    cases fresh
    exact ⟨rfl, inTime⟩
  · cases fresh

/-! ## What is handed out -/

/-- Every token that is handed out is the one the last successful fetch of its profile gave, and lives. -/
def HandsOutLive (unicode : Unicode) (state : State) : Prop :=
  ∀ call profileId value time older, .answered call profileId value time :: older <:+ state.log →
    ∃ grant completed, Refresh.latest (oauthToken unicode) profileId older = some (grant, completed) ∧
      grant.value = value ∧ time < completed + grant.expiresIn

/-- The token endpoint grants no token for less than a second. -/
def Lasting (unicode : Unicode) (state : State) (action : Action) : Prop :=
  Refresh.Yields (oauthToken unicode) (fun grant => 1 ≤ grant.expiresIn) state action

variable {unicode : Unicode} {state : State}

theorem live_of_fresh {older : List (Refresh.Event Text TokenGrant Text)} {profileId value : Text} {time : ℚ}
    (lasting : ∀ grant completed, Refresh.latest (oauthToken unicode) profileId older = some (grant, completed) →
      1 ≤ grant.expiresIn)
    (fresh : freshToken (Refresh.cellAt (oauthToken unicode) older profileId) time = some value) :
    ∃ grant completed, Refresh.latest (oauthToken unicode) profileId older = some (grant, completed) ∧
      grant.value = value ∧ time < completed + grant.expiresIn := by
  unfold Refresh.cellAt at fresh
  cases isLatest : Refresh.latest (oauthToken unicode) profileId older with
  | none =>
    rw [isLatest] at fresh
    cases fresh
  | some last =>
    obtain ⟨grant, completed⟩ := last
    rw [isLatest] at fresh
    obtain ⟨sameValue, inTime⟩ := freshToken_cacheEntry fresh
    have kept := grant.kept_le_iff.mpr (lasting grant completed isLatest)
    exact ⟨grant, completed, rfl, sameValue, inTime.trans_le (by linarith)⟩

theorem handsOutLive (sound : Refresh.Sound (oauthToken unicode) state)
    (lasting : Refresh.Recorded (fun grant : TokenGrant => 1 ≤ grant.expiresIn) state) : HandsOutLive unicode state := by
  intro call profileId value time older isSuffix
  have fromOlder : ∀ event ∈ older, event ∈ state.log :=
    fun event member => isSuffix.subset (List.mem_cons_of_mem _ member)
  have lastingOlder : ∀ grant completed,
      Refresh.latest (oauthToken unicode) profileId older = some (grant, completed) → 1 ≤ grant.expiresIn := by
    intro grant completed isLatest
    obtain ⟨fetcher, request, member⟩ := Refresh.mem_of_latest isLatest
    exact lasting fetcher request grant completed (fromOlder _ member)
  rcases sound.answers call profileId value time older isSuffix with peeked | entered | ⟨grant, isLatest, sameValue⟩
  · exact live_of_fresh lastingOlder peeked
  · exact live_of_fresh lastingOlder entered
  · exact ⟨grant, time, isLatest, sameValue, lt_add_of_pos_right time grant.positive⟩

/-! ## Every run -/

def runTokens (unicode : Unicode) (clock : ℚ) (actions : List Action) : State :=
  run (Refresh.step (oauthToken unicode)) (Refresh.initialState (oauthToken unicode) clock) actions

/-- A profile has one fetch in flight, and a run in which no token is granted for less than a second hands out no token
that has expired. -/
theorem tokens_of_every_run (unicode : Unicode) (clock : ℚ) (actions : List Action) :
    (∀ first second profileId, (runTokens unicode clock actions).calls first = .fetching profileId →
      (runTokens unicode clock actions).calls second = .fetching profileId → first = second) ∧
    (Along (Refresh.step (oauthToken unicode)) (Lasting unicode) (Refresh.initialState (oauthToken unicode) clock) actions →
      HandsOutLive unicode (runTokens unicode clock actions)) := by
  have sound := @Refresh.Sound.run _ _ _ _ _ _ _ (oauthToken unicode) clock actions
  refine ⟨fun first second profileId fetches alsoFetches => sound.fetch_unique fetches alsoFetches rfl, fun lasting => ?_⟩
  exact handsOutLive sound (.run lasting)

/-! ## A token of half a second -/

def grantPayload (expiresIn : ℚ) : JsonObject :=
  [("access_token", .text "secret"), ("token_type", .text "Bearer"), ("expires_in", .number expiresIn "")]

def requestTwice (expiresIn : ℚ) : List Action :=
  [.arrive 1 "crm", .acquire 1, .finish 1 (some (grantPayload expiresIn)), .advance (3 / 4), .arrive 2 "crm"]

theorem readGrant_payload {expiresIn : ℚ} (positive : 0 < expiresIn) :
    readGrant asciiUnicode (grantPayload expiresIn) = some ⟨"secret", expiresIn, positive⟩ :=
  dif_pos positive

/-- The second call comes before the token is to be refreshed. -/
theorem log_requestTwice {grant : TokenGrant} (isSecret : grant.value = "secret") (kept : 3 / 4 < grant.kept) :
    (runTokens asciiUnicode 0 (requestTwice grant.expiresIn)).log =
      [.answered 2 "crm" "secret" (3 / 4), .answered 1 "crm" "secret" 0, .succeeded 1 "crm" grant 0,
        .started 1 "crm" 0] := by
  have read : readGrant asciiUnicode (grantPayload grant.expiresIn) = some grant := by
    rw [readGrant_payload grant.positive, ← isSecret]
  have clock : max (0 : ℚ) (3 / 4) = 3 / 4 := by norm_num
  have refresh : (cacheEntry grant.token 0).refreshAt > 3 / 4 := by
    show 0 + grant.kept > 3 / 4
    rwa [zero_add]
  have cached : (cacheEntry grant.token 0).value = "secret" := isSecret
  simp [runTokens, requestTwice, Refresh.step, Refresh.initialState, oauthToken, freshToken, read, Refresh.State.setCall,
    Refresh.State.begin, Refresh.State.succeed, Refresh.State.reply, Refresh.State.hold, Refresh.State.record,
    Refresh.State.keep, clock, refresh, cached, isSecret]

def hourGrant : TokenGrant :=
  ⟨"secret", 3600, by norm_num⟩

def halfSecondGrant : TokenGrant :=
  ⟨"secret", 1 / 2, by norm_num⟩

theorem hour_token_lives : HandsOutLive asciiUnicode (runTokens asciiUnicode 0 (requestTwice 3600)) := by
  refine (tokens_of_every_run asciiUnicode 0 (requestTwice 3600)).2 ?_
  have yields (state : State) : Lasting asciiUnicode state (.finish 1 (some (grantPayload 3600))) := by
    intro grant isGrant
    have isHour : some hourGrant = some grant := (readGrant_payload hourGrant.positive).symm.trans isGrant
    cases isHour
    show (1 : ℚ) ≤ 3600
    norm_num
  exact along_cons.mpr ⟨trivial, along_cons.mpr ⟨trivial, along_cons.mpr ⟨yields _, along_cons.mpr ⟨trivial,
    along_cons.mpr ⟨trivial, along_nil⟩⟩⟩⟩⟩

/-- A token that lives for half a second is handed out three quarters of a second after it was fetched. -/
theorem half_second_token_outlived : ¬ HandsOutLive asciiUnicode (runTokens asciiUnicode 0 (requestTwice (1 / 2))) := by
  intro live
  have log := @log_requestTwice halfSecondGrant rfl (lt_of_lt_of_le (by norm_num) (le_max_left _ _))
  obtain ⟨grant, completed, isLatest, -, inTime⟩ := live 2 "crm" "secret" (3 / 4) _ ⟨[], log.symm⟩
  have isGrant : some (halfSecondGrant, (0 : ℚ)) = some (grant, completed) := isLatest
  cases isGrant
  have inTime : (3 : ℚ) / 4 < 0 + 1 / 2 := inTime
  norm_num at inTime

end Mcplica.Runtime.TokenCache
