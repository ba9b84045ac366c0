import Mcplica.Library.Checks
import Mcplica.Library.Ledger
import Mcplica.Library.Text

/-! # The spool budget of multipart requests

`MultipartSpoolLimitMiddleware` lets a request through to the application downstream while its bytes are counted against a
common budget. No statement between the acquisition and the release of the lock of the budget suspends, so a reservation
or a release is one step. What the server and the application do is an action: the application may receive whenever it
runs, may catch what `limited_receive` raises, and may return, raise or be cancelled at any time. -/

namespace Mcplica.Core

open Mcplica.Library

abbrev Bytes := List UInt8

structure BodyRejected where
  statusCode : Nat
  code : Text
  message : Text
  deriving Repr, DecidableEq

def payloadTooLarge : BodyRejected :=
  ⟨413, "PAYLOAD_TOO_LARGE", "Multipart request is too large"⟩

def uploadCapacityExhausted : BodyRejected :=
  ⟨503, "UPLOAD_CAPACITY_EXHAUSTED", "Multipart upload capacity is temporarily exhausted"⟩

def invalidContentLength : BodyRejected :=
  ⟨400, "INVALID_CONTENT_LENGTH", "Content-Length is invalid"⟩

/-! ## The headers -/

/-- The names and values of the headers, each byte as a character. -/
abbrev RawHeaders := List (Text × Text)

def lowerBytes (bytes : Text) : Text :=
  bytes.map Char.toLower

def isMultipart (headers : RawHeaders) : Bool :=
  match headers.find? fun (name, _) => lowerBytes name = "content-type" with
  | some (_, value) => (lowerBytes value).startsWith "multipart/form-data"
  | none => false

def isByteSpace (character : Char) : Bool :=
  (9 ≤ character.toNat && character.toNat ≤ 13) || character.toNat = 32

/-- `int` of a text that is all ASCII. -/
def asciiInt (text : Text) : Option Int :=
  let stripped : Text := (text.dropWhile isByteSpace).rdropWhile isByteSpace
  let (negative, unsigned) : Bool × Text :=
    match stripped with
    | '-' :: rest => (true, rest)
    | '+' :: rest => (false, rest)
    | _ => (false, stripped)
  let groups := unsigned.splitOn '_'
  let digits : Text := groups.flatten
  -- More digits than this are refused.
  if groups.all Text.isDigits && digits.length ≤ 4300 then
    some (if negative then -(digits.digitsValue : Int) else digits.digitsValue)
  else
    none

def contentLength (headers : RawHeaders) : Except BodyRejected (Option Nat) :=
  match (headers.filter fun (name, _) => lowerBytes name = "content-length").map Prod.snd with
  | [] => .ok none
  | first :: rest => do
    ensure (rest.all (· = first)) invalidContentLength
    ensure (Text.isAscii first) invalidContentLength
    let value ← obtain? (asciiInt first) invalidContentLength
    ensure (0 ≤ value) invalidContentLength
    return some value.toNat

/-! ## The budget -/

structure MultipartSpoolLimit where
  requestMaxBytes : Nat
  capacityBytes : Nat
  positive : 1 ≤ requestMaxBytes
  fits : requestMaxBytes ≤ capacityBytes

/-- `_SpoolBudget.reserve` -/
def reserve (capacity reservedBytes amount : Nat) : Option Nat :=
  if capacity < reservedBytes + amount then none else some (reservedBytes + amount)

/-- `_SpoolBudget.release` -/
def release (reservedBytes amount : Nat) : Nat :=
  reservedBytes - amount

/-! ## A request -/

inductive Phase where
  /-- The application downstream runs. -/
  | running
  /-- The answer that refuses the body is being sent; the reservation is released afterwards. -/
  | rejecting (rejection : BodyRejected)
  deriving Repr, DecidableEq

structure Request where
  id : Nat
  reserved : Nat
  consumed : Nat := 0
  responseStarted : Bool := false
  phase : Phase := .running
  /-- What came from the server and what was handed on; no step reads them. -/
  received : Bytes := []
  delivered : Bytes := []
  deriving Repr, DecidableEq

instance : Row Request Nat := ⟨Request.id⟩

structure Spool where
  reservedBytes : Nat := 0
  requests : Table Request := .empty

variable (middleware : MultipartSpoolLimit)

/-- `__call__` before the application is called: the budget and what is reserved at first. -/
def admitRequest (reservedBytes : Nat) (headers : RawHeaders) : Except BodyRejected (Nat × Nat) := do
  let declared ← contentLength headers
  ensure (declared.all (· ≤ middleware.requestMaxBytes)) payloadTooLarge
  let reserved := declared.getD 0
  if reserved = 0 then
    return (reservedBytes, 0)
  else do
    let reservedBytes ← obtain? (reserve middleware.capacityBytes reservedBytes reserved) uploadCapacityExhausted
    return (reservedBytes, reserved)

/-- `limited_receive` of a chunk: what it raises, the budget and the request afterwards. -/
def limitedReceive (reservedBytes : Nat) (request : Request) (chunk : Bytes) : Except BodyRejected Unit × Nat × Request :=
  let consumed := request.consumed + chunk.length
  let counted := { request with consumed, received := request.received ++ chunk }
  if consumed > middleware.requestMaxBytes then (.error payloadTooLarge, reservedBytes, counted)
  else if consumed > request.reserved then
    let additional := consumed - request.reserved
    match reserve middleware.capacityBytes reservedBytes additional with
    | none => (.error uploadCapacityExhausted, reservedBytes, counted)
    | some reservedBytes =>
      (.ok (), reservedBytes,
        { counted with reserved := request.reserved + additional, delivered := request.delivered ++ chunk })
  else (.ok (), reservedBytes, { counted with delivered := request.delivered ++ chunk })

/-! ## The system -/

/-- How the application ends. -/
inductive Ending where
  | returned
  | rejected (rejection : BodyRejected)
  /-- Any other exception, a cancellation among them. -/
  | raised
  deriving Repr, DecidableEq

inductive Action where
  /-- The middleware is called. -/
  | arrive (id : Nat) (headers : RawHeaders)
  /-- A chunk of the body reaches `limited_receive`. -/
  | chunk (id : Nat) (body : Bytes)
  /-- Another message does, such as a disconnect. -/
  | message (id : Nat)
  /-- The application sends the start of its response. -/
  | startResponse (id : Nat)
  | finish (id : Nat) (ending : Ending)
  /-- The answer of a refused request is sent, or sending it has failed or was cancelled. -/
  | answered (id : Nat)

theorem id_limitedReceive (reservedBytes : Nat) (request : Request) (chunk : Bytes) :
    (limitedReceive middleware reservedBytes request chunk).2.2.id = request.id := by
  unfold limitedReceive
  dsimp only
  split
  · rfl
  · split
    · split <;> rfl
    · rfl

namespace Spool

def running? (spool : Spool) (id : Nat) : Option Request :=
  (spool.requests.get? id).filter fun request => request.phase = .running

def receive (spool : Spool) (request : Request) (body : Bytes) : Spool where
  reservedBytes := (limitedReceive middleware spool.reservedBytes request body).2.1
  requests := spool.requests.update (fun other => Row.key other = Row.key request)
    (fun other => (limitedReceive middleware spool.reservedBytes other body).2.2)
    (fun other => id_limitedReceive middleware spool.reservedBytes other body)

/-- The `finally` of `__call__`. -/
def leave (spool : Spool) (request : Request) : Spool where
  reservedBytes := release spool.reservedBytes request.reserved
  requests := spool.requests.delete fun other => Row.key other = Row.key request

/-- The application is done; a refusal is answered unless the response has started. -/
def finish (spool : Spool) (request : Request) : Ending → Spool
  | .rejected rejection =>
    if request.responseStarted then spool.leave request
    else { spool with requests := spool.requests.update (fun other => Row.key other = Row.key request) fun other =>
      { other with phase := .rejecting rejection } }
  | .returned | .raised => spool.leave request

def arrive (spool : Spool) (id : Nat) (headers : RawHeaders) : Option Spool := do
  let (reservedBytes, reserved) ← (admitRequest middleware spool.reservedBytes headers).toOption
  let requests ← spool.requests.insert { id, reserved }
  return ⟨reservedBytes, requests⟩

def step (spool : Spool) : Action → Spool
  | .arrive id headers => if isMultipart headers then (spool.arrive middleware id headers).getD spool else spool
  | .chunk id body => (spool.running? id).elim spool fun request => spool.receive middleware request body
  | .message _ => spool
  | .startResponse id =>
    { spool with requests := spool.requests.update (fun other => Row.key other = id) fun other =>
        { other with responseStarted := true } }
  | .finish id ending => (spool.running? id).elim spool fun request => spool.finish request ending
  | .answered id =>
    match spool.requests.get? id with
    | some request => if request.phase = .running then spool else spool.leave request
    | none => spool

end Spool

/-! ## The invariant -/

/-- What a request has been given lies within its limit and its reservation. -/
structure WithinBudget (middleware : MultipartSpoolLimit) (request : Request) : Prop where
  counted : request.received.length = request.consumed
  deliveredSome : request.delivered.length ≤ request.consumed
  limit : request.delivered.length ≤ middleware.requestMaxBytes
  reservation : request.delivered.length ≤ request.reserved

structure Sound (middleware : MultipartSpoolLimit) (spool : Spool) : Prop where
  total : spool.reservedBytes = spool.requests.total Request.reserved
  capacity : spool.reservedBytes ≤ middleware.capacityBytes
  requests : ∀ request ∈ spool.requests, WithinBudget middleware request

variable {middleware} {spool : Spool} {request : Request} {id reservedBytes : Nat} {chunk : Bytes}

theorem reserve_eq_some {capacity reservedBytes amount next : Nat} :
    reserve capacity reservedBytes amount = some next ↔ reservedBytes + amount ≤ capacity ∧ next = reservedBytes + amount := by
  unfold reserve
  split
  · exact iff_of_false nofun (by omega)
  · rw [Option.some.injEq]
    omega

/-- A chunk fits into the limit of its request and, beyond what is reserved, into the capacity. -/
def Fits (middleware : MultipartSpoolLimit) (reservedBytes : Nat) (request : Request) (chunk : Bytes) : Prop :=
  request.consumed + chunk.length ≤ middleware.requestMaxBytes ∧
    (request.consumed + chunk.length ≤ request.reserved ∨
      reservedBytes + (request.consumed + chunk.length - request.reserved) ≤ middleware.capacityBytes)

/-- A chunk that fits is handed on, with a larger reservation where it is needed. -/
theorem limitedReceive_of_fits (fits : Fits middleware reservedBytes request chunk) :
    limitedReceive middleware reservedBytes request chunk =
      (.ok (), reservedBytes + (request.consumed + chunk.length - request.reserved),
        { request with
          consumed := request.consumed + chunk.length
          received := request.received ++ chunk
          reserved := max request.reserved (request.consumed + chunk.length)
          delivered := request.delivered ++ chunk }) := by
  obtain ⟨limit, room⟩ := fits
  unfold limitedReceive
  dsimp only
  rw [if_neg (by omega)]
  by_cases more : request.consumed + chunk.length > request.reserved
  · have reserved : reserve middleware.capacityBytes reservedBytes (request.consumed + chunk.length - request.reserved) =
        some (reservedBytes + (request.consumed + chunk.length - request.reserved)) :=
      reserve_eq_some.mpr ⟨room.resolve_left (by omega), rfl⟩
    have larger : request.reserved + (request.consumed + chunk.length - request.reserved) =
        max request.reserved (request.consumed + chunk.length) := by omega
    rw [if_pos more, reserved]
    dsimp only
    rw [larger]
  · have same : max request.reserved (request.consumed + chunk.length) = request.reserved := by omega
    have nothing : request.consumed + chunk.length - request.reserved = 0 := by omega
    rw [if_neg more, same, nothing]
    rfl

/-- Any other chunk is counted and dropped. -/
theorem limitedReceive_of_not_fits (tooMuch : ¬ Fits middleware reservedBytes request chunk) :
    ∃ rejection, limitedReceive middleware reservedBytes request chunk =
      (.error rejection, reservedBytes,
        { request with consumed := request.consumed + chunk.length, received := request.received ++ chunk }) := by
  unfold limitedReceive
  dsimp only
  by_cases limit : request.consumed + chunk.length > middleware.requestMaxBytes
  · exact ⟨_, if_pos limit⟩
  · have noRoom : ¬ (request.consumed + chunk.length ≤ request.reserved ∨
        reservedBytes + (request.consumed + chunk.length - request.reserved) ≤ middleware.capacityBytes) :=
      fun room => tooMuch ⟨not_lt.mp limit, room⟩
    obtain ⟨more, full⟩ := not_or.mp noRoom
    have refused : reserve middleware.capacityBytes reservedBytes (request.consumed + chunk.length - request.reserved) =
        none := if_pos (not_le.mp full)
    rw [if_neg limit, if_pos (not_le.mp more), refused]
    exact ⟨_, rfl⟩

theorem admit_spec {reserved next : Nat} {headers : RawHeaders}
    (admitted : admitRequest middleware reservedBytes headers = .ok (next, reserved)) :
    next = reservedBytes + reserved ∧ (reserved = 0 ∨ next ≤ middleware.capacityBytes) := by
  simp only [admitRequest, bind_eq_ok] at admitted
  obtain ⟨declared, -, -, -, admitted⟩ := admitted
  split at admitted
  · cases admitted
    exact ⟨rfl, .inl rfl⟩
  · simp only [bind_eq_ok, obtain?_eq_ok] at admitted
    obtain ⟨enlarged, isReserved, same⟩ := admitted
    cases same
    obtain ⟨fits, rfl⟩ := reserve_eq_some.mp isReserved
    exact ⟨rfl, .inr fits⟩

/-- What is added to the budget is what the reservation grows by. -/
theorem budget_limitedReceive (capacity : reservedBytes ≤ middleware.capacityBytes) (request : Request) (chunk : Bytes) :
    (limitedReceive middleware reservedBytes request chunk).2.1 + request.reserved =
        reservedBytes + (limitedReceive middleware reservedBytes request chunk).2.2.reserved ∧
      (limitedReceive middleware reservedBytes request chunk).2.1 ≤ middleware.capacityBytes := by
  by_cases fits : Fits middleware reservedBytes request chunk
  · have room := fits.2
    rw [limitedReceive_of_fits fits]
    dsimp only
    omega
  · obtain ⟨rejection, dropped⟩ := limitedReceive_of_not_fits fits
    rw [dropped]
    exact ⟨rfl, capacity⟩

theorem WithinBudget.init (id reserved : Nat) : WithinBudget middleware { id, reserved } :=
  ⟨rfl, le_refl _, Nat.zero_le _, Nat.zero_le _⟩

theorem WithinBudget.receive (within : WithinBudget middleware request) (reservedBytes : Nat) (chunk : Bytes) :
    WithinBudget middleware (limitedReceive middleware reservedBytes request chunk).2.2 := by
  obtain ⟨counted, deliveredSome, limit, reservation⟩ := within
  by_cases fits : Fits middleware reservedBytes request chunk
  · rw [limitedReceive_of_fits fits]
    have atMost := fits.1
    constructor <;> simp only [List.length_append] <;> omega
  · obtain ⟨rejection, dropped⟩ := limitedReceive_of_not_fits fits
    rw [dropped]
    constructor <;> simp only [List.length_append] <;> omega

theorem mem_of_running? (found : spool.running? id = some request) : request ∈ spool.requests :=
  Table.mem_of_get? (Option.filter_eq_some_iff.mp found).1

namespace Sound

theorem init : Sound middleware {} :=
  ⟨rfl, Nat.zero_le _, fun request member => absurd member (Table.not_mem_empty request)⟩

theorem arrive (sound : Sound middleware spool) {headers : RawHeaders} {next : Spool}
    (arrived : spool.arrive middleware id headers = some next) : Sound middleware next := by
  simp only [Spool.arrive, Option.bind_eq_bind, Option.bind_eq_some_iff, toOption_eq_some] at arrived
  obtain ⟨⟨reservedBytes, reserved⟩, admitted, requests, inserted, same⟩ := arrived
  cases same
  obtain ⟨rfl, fits⟩ := admit_spec admitted
  have capacity := sound.capacity
  refine ⟨?_, ?_, ?_⟩
  · rw [Table.total_insert inserted, sound.total]
  · show spool.reservedBytes + reserved ≤ _
    omega
  · intro request member
    rcases (Table.mem_insert inserted).mp member with isOld | rfl
    · exact sound.requests request isOld
    · exact .init id reserved

/-- The rows of a table after an assignment to one of them. -/
theorem requests_update (sound : Sound middleware spool) {where_ : Request → Bool} {change : Request → Request}
    (keeps : ∀ request, Row.key (change request) = Row.key request)
    (kept : ∀ request, WithinBudget middleware request → WithinBudget middleware (change request)) :
    ∀ request ∈ spool.requests.update where_ change keeps, WithinBudget middleware request := by
  intro request member
  obtain ⟨old, isOld, rfl⟩ := Table.mem_update.mp member
  split
  · exact kept old (sound.requests old isOld)
  · exact sound.requests old isOld

theorem receive (sound : Sound middleware spool) (member : request ∈ spool.requests) (body : Bytes) :
    Sound middleware (spool.receive middleware request body) := by
  obtain ⟨conserved, capacity⟩ := budget_limitedReceive sound.capacity request body
  refine ⟨?_, capacity, ?_⟩
  · have changed := @Table.total_update _ _ _ spool.requests Request.reserved request _ member
      (fun other => (limitedReceive middleware spool.reservedBytes other body).2.2)
      (fun other => id_limitedReceive middleware spool.reservedBytes other body)
    rw [← sound.total] at changed
    have isTotal : (limitedReceive middleware spool.reservedBytes request body).2.1 = Table.total _ _ :=
      Nat.add_right_cancel (conserved.trans changed.symm)
    exact isTotal
  · exact sound.requests_update (fun other => id_limitedReceive middleware spool.reservedBytes other body)
      fun _ within => within.receive spool.reservedBytes body

theorem leave (sound : Sound middleware spool) (member : request ∈ spool.requests) :
    Sound middleware (spool.leave request) := by
  have changed := @Table.total_delete _ _ _ spool.requests Request.reserved request _ member
  rw [← sound.total] at changed
  exact ⟨(Nat.eq_sub_of_add_eq changed).symm, (Nat.sub_le _ _).trans sound.capacity,
    fun other isOther => sound.requests other (Table.mem_delete.mp isOther).1⟩

/-- A step that only notes something about requests. -/
theorem note (sound : Sound middleware spool) {where_ : Request → Bool} {change : Request → Request}
    {keeps : ∀ request, Row.key (change request) = Row.key request}
    (reserved : ∀ request, (change request).reserved = request.reserved)
    (kept : ∀ request, WithinBudget middleware request → WithinBudget middleware (change request)) :
    Sound middleware { spool with requests := spool.requests.update where_ change keeps } where
  total := by
    show spool.reservedBytes = (spool.requests.update where_ change keeps).total Request.reserved
    rw [Table.total_update_of_eq reserved, sound.total]
  capacity := sound.capacity
  requests := sound.requests_update keeps kept

theorem finish (sound : Sound middleware spool) (member : request ∈ spool.requests) (ending : Ending) :
    Sound middleware (spool.finish request ending) := by
  cases ending with
  | returned | raised => exact sound.leave member
  | rejected rejection =>
    by_cases started : request.responseStarted = true
    · rw [Spool.finish, if_pos started]
      exact sound.leave member
    · rw [Spool.finish, if_neg started]
      exact sound.note (fun _ => rfl) fun _ within => ⟨within.counted, within.deliveredSome, within.limit, within.reservation⟩

theorem step (sound : Sound middleware spool) (action : Action) : Sound middleware (spool.step middleware action) := by
  cases action with
  | arrive id headers =>
    show Sound middleware (if isMultipart headers then (spool.arrive middleware id headers).getD spool else spool)
    split
    · cases arrived : spool.arrive middleware id headers with
      | none => exact sound
      | some next => exact sound.arrive arrived
    · exact sound
  | chunk id body =>
    show Sound middleware ((spool.running? id).elim spool fun request => spool.receive middleware request body)
    cases found : spool.running? id with
    | none => exact sound
    | some request => exact sound.receive (mem_of_running? found) body
  | message id => exact sound
  | startResponse id =>
    exact sound.note (fun _ => rfl) fun _ within => ⟨within.counted, within.deliveredSome, within.limit, within.reservation⟩
  | finish id ending =>
    show Sound middleware ((spool.running? id).elim spool fun request => spool.finish request ending)
    cases found : spool.running? id with
    | none => exact sound
    | some request => exact sound.finish (mem_of_running? found) ending
  | answered id =>
    show Sound middleware (match spool.requests.get? id with
      | some request => if request.phase = .running then spool else spool.leave request
      | none => spool)
    split
    · rename_i request found
      split
      · exact sound
      · exact sound.leave (Table.mem_of_get? found)
    · exact sound

end Sound

/-! ## Prefixes -/

/-- No bytes are handed on to an application that has received after bytes of its request were dropped. -/
def Seamless (middleware : MultipartSpoolLimit) (spool : Spool) : Action → Prop
  | .chunk id body => ∀ request, spool.running? id = some request → request.delivered.length < request.received.length →
      body = [] ∨ ¬ Fits middleware spool.reservedBytes request body
  | _ => True

/-- What an application was given are the first bytes of what its request has received. -/
def DeliversPrefixes (spool : Spool) : Prop :=
  ∀ request ∈ spool.requests, request.delivered <+: request.received

namespace DeliversPrefixes

theorem of_subset (delivers : DeliversPrefixes spool) {next : Spool}
    (kept : ∀ request ∈ next.requests, ∃ old ∈ spool.requests, request.delivered = old.delivered ∧
      request.received = old.received) : DeliversPrefixes next := by
  intro request member
  obtain ⟨old, isOld, sameDelivered, sameReceived⟩ := kept request member
  rw [sameDelivered, sameReceived]
  exact delivers old isOld

theorem note (delivers : DeliversPrefixes spool) {where_ : Request → Bool} {change : Request → Request}
    {keeps : ∀ request, Row.key (change request) = Row.key request}
    (delivered : ∀ request, (change request).delivered = request.delivered)
    (received : ∀ request, (change request).received = request.received) :
    DeliversPrefixes { spool with requests := spool.requests.update where_ change keeps } := by
  refine delivers.of_subset fun request member => ?_
  obtain ⟨old, isOld, rfl⟩ := (@Table.mem_update _ _ _ spool.requests where_ change keeps request).mp member
  refine ⟨old, isOld, ?_⟩
  split
  · exact ⟨delivered old, received old⟩
  · exact ⟨rfl, rfl⟩

theorem leave (delivers : DeliversPrefixes spool) (request : Request) : DeliversPrefixes (spool.leave request) :=
  delivers.of_subset fun other member => ⟨other, (Table.mem_delete.mp member).1, rfl, rfl⟩

theorem finish (delivers : DeliversPrefixes spool) (request : Request) (ending : Ending) :
    DeliversPrefixes (spool.finish request ending) := by
  cases ending with
  | returned | raised => exact delivers.leave request
  | rejected rejection =>
    by_cases started : request.responseStarted = true
    · rw [Spool.finish, if_pos started]
      exact delivers.leave request
    · rw [Spool.finish, if_neg started]
      exact delivers.note (fun _ => rfl) fun _ => rfl

theorem arrive (delivers : DeliversPrefixes spool) {headers : RawHeaders} {next : Spool}
    (arrived : spool.arrive middleware id headers = some next) : DeliversPrefixes next := by
  simp only [Spool.arrive, Option.bind_eq_bind, Option.bind_eq_some_iff] at arrived
  obtain ⟨⟨reservedBytes, reserved⟩, -, requests, inserted, same⟩ := arrived
  cases same
  intro request member
  rcases (Table.mem_insert inserted).mp member with isOld | rfl
  · exact delivers request isOld
  · exact List.prefix_rfl

theorem receive (delivers : DeliversPrefixes spool) (member : request ∈ spool.requests) {body : Bytes}
    (seamless : request.delivered.length < request.received.length →
      body = [] ∨ ¬ Fits middleware spool.reservedBytes request body) :
    DeliversPrefixes (spool.receive middleware request body) := by
  intro next isNext
  obtain ⟨old, isOld, rfl⟩ := (@Table.mem_update _ _ _ spool.requests _ _
    (fun other => id_limitedReceive middleware spool.reservedBytes other body) next).mp isNext
  by_cases same : Row.key old = Row.key request
  · cases Table.eq_of_key isOld member same
    rw [if_pos (decide_eq_true rfl)]
    have isPrefix := delivers request member
    by_cases fits : Fits middleware spool.reservedBytes request body
    · rw [limitedReceive_of_fits fits]
      show request.delivered ++ body <+: request.received ++ body
      by_cases complete : request.delivered.length < request.received.length
      · rw [(seamless complete).resolve_right (not_not.mpr fits), List.append_nil, List.append_nil]
        exact isPrefix
      · rw [isPrefix.eq_of_length_le (not_lt.mp complete)]
    · obtain ⟨rejection, dropped⟩ := limitedReceive_of_not_fits fits
      rw [dropped]
      exact isPrefix.trans (List.prefix_append _ _)
  · rw [if_neg (by simpa using same)]
    exact delivers old isOld

theorem step (delivers : DeliversPrefixes spool) (action : Action) (seamless : Seamless middleware spool action) :
    DeliversPrefixes (spool.step middleware action) := by
  cases action with
  | arrive id headers =>
    show DeliversPrefixes (if isMultipart headers then (spool.arrive middleware id headers).getD spool else spool)
    split
    · cases arrived : spool.arrive middleware id headers with
      | none => exact delivers
      | some next => exact delivers.arrive arrived
    · exact delivers
  | chunk id body =>
    show DeliversPrefixes ((spool.running? id).elim spool fun request => spool.receive middleware request body)
    cases found : spool.running? id with
    | none => exact delivers
    | some request => exact delivers.receive (mem_of_running? found) (seamless request found)
  | message id => exact delivers
  | startResponse id => exact delivers.note (fun _ => rfl) fun _ => rfl
  | finish id ending =>
    show DeliversPrefixes ((spool.running? id).elim spool fun request => spool.finish request ending)
    cases found : spool.running? id with
    | none => exact delivers
    | some request => exact delivers.finish request ending
  | answered id =>
    show DeliversPrefixes (match spool.requests.get? id with
      | some request => if request.phase = .running then spool else spool.leave request
      | none => spool)
    split
    · split
      · exact delivers
      · exact delivers.leave _
    · exact delivers

end DeliversPrefixes

/-! ## Every run -/

def runSpool (middleware : MultipartSpoolLimit) (actions : List Action) : Spool :=
  run (Spool.step middleware) {} actions

/-- The budget of every run is the sum of what its requests hold, and no request is given more than it may have. A run in
which no application is given bytes after a gap hands on prefixes. -/
theorem spool_budget_of_every_run (middleware : MultipartSpoolLimit) (actions : List Action) :
    Sound middleware (runSpool middleware actions) ∧
    ((runSpool middleware actions).requests = .empty → (runSpool middleware actions).reservedBytes = 0) ∧
    (Along (Spool.step middleware) (Seamless middleware) {} actions → DeliversPrefixes (runSpool middleware actions)) := by
  have sound : Sound middleware (runSpool middleware actions) :=
    run_invariant (Sound middleware) (fun _ action sound => sound.step action) .init actions
  refine ⟨sound, ?_, ?_⟩
  · intro idle
    rw [sound.total, idle]
    rfl
  · exact run_invariant_along (fun _ action seamless delivers => DeliversPrefixes.step delivers action seamless)
      fun request member => absurd member (Table.not_mem_empty request)

def tenBytes : MultipartSpoolLimit :=
  ⟨10, 10, by decide, by decide⟩

def multipartHeaders : RawHeaders :=
  [("Content-Type", "multipart/form-data; boundary=part")]

/-- The first request declares its length, and the second one is refused the byte that is over. -/
def sharedActions : List Action :=
  [.arrive 1 (("Content-Length", "8") :: multipartHeaders), .arrive 2 multipartHeaders, .chunk 1 [1, 2, 3],
    .chunk 2 [97, 98], .chunk 2 [99]]

/-- Both requests are given a prefix of what they received, while they are running. -/
theorem undeclared_request_delivers_prefix :
    (runSpool tenBytes sharedActions).requests.rows.map (fun request => (request.delivered, request.received)) =
      [([1, 2, 3], [1, 2, 3]), ([97, 98], [97, 98, 99])] ∧
    DeliversPrefixes (runSpool tenBytes sharedActions) := by
  refine ⟨rfl, (spool_budget_of_every_run tenBytes sharedActions).2.2 (along_cons.mpr ⟨trivial, along_cons.mpr ⟨trivial,
    along_cons.mpr ⟨?_, along_cons.mpr ⟨?_, along_cons.mpr ⟨?_, along_nil⟩⟩⟩⟩⟩)⟩
  · intro request found gap
    cases found
    exact absurd gap (lt_irrefl _)
  · intro request found gap
    cases found
    exact absurd gap (lt_irrefl _)
  · intro request found gap
    cases found
    exact absurd gap (lt_irrefl _)

/-- The second request is refused a chunk while the first one holds the budget, and is given the next one. -/
def gapActions : List Action :=
  [.arrive 1 (("Content-Length", "8") :: multipartHeaders), .arrive 2 multipartHeaders, .chunk 2 [97, 98], .chunk 2 [99],
    .finish 1 .returned, .chunk 2 [100]]

theorem chunk_delivered_after_gap :
    (runSpool tenBytes gapActions).requests.rows.map (fun request => (request.delivered, request.received)) =
      [([97, 98, 100], [97, 98, 99, 100])] ∧
    ¬ DeliversPrefixes (runSpool tenBytes gapActions) := by
  have row : (runSpool tenBytes gapActions).requests.rows =
      [{ id := 2
         reserved := 4
         consumed := 4
         received := [97, 98, 99, 100]
         delivered := [97, 98, 100] }] := rfl
  refine ⟨by rw [row]; rfl, fun delivers => ?_⟩
  have isPrefix := delivers _ (Table.mem_rows.mp (row ▸ List.mem_singleton_self _))
  exact absurd isPrefix (by decide)

end Mcplica.Core
