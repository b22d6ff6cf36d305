import Mathlib.Algebra.Order.Field.Rat
import NewApi.Common.Text

/-!
# The limits on model requests (middleware/model-rate-limit.go)

On Redis and in memory. Times and windows are whole seconds.
-/

namespace NewApi.Middleware

structure Key (α : Type) where
  value : α
  expireAt : Option ℤ := none

namespace Key

variable {α : Type} {now deadline : ℤ} {value : α}

/-- What a command finds at `now`; a key is there up to the second at which it expires. -/
def live (now : ℤ) (key : Option (Key α)) : Option (Key α) :=
  key.filter fun k => k.expireAt.all fun deadline => decide (now ≤ deadline)

def expire (now seconds : ℤ) (key : Option (Key α)) : Option (Key α) :=
  (live now key).map fun k => { k with expireAt := some (now + seconds) }

@[simp] theorem live_none : live now (none : Option (Key α)) = none := rfl

@[simp] theorem live_persistent : live now (some ⟨value, none⟩) = some ⟨value, none⟩ := rfl

theorem live_of_le (h : now ≤ deadline) :
    live now (some ⟨value, some deadline⟩) = some ⟨value, some deadline⟩ := by
  simp [live, Option.filter, h]

theorem live_of_lt (h : deadline < now) : live now (some ⟨value, some deadline⟩) = none := by
  simp [live, Option.filter, h]

end Key

structure Bucket where
  tokens : ℚ
  lastTime : ℤ

structure LimiterConfig where
  capacity : ℤ
  rate : ℚ
  requested : ℤ
  expiration : ℤ

def refilled (c : LimiterConfig) (now : ℤ) (key : Option (Key Bucket)) : ℚ :=
  match Key.live now key with
  | none => c.capacity
  | some k => min c.capacity (k.value.tokens + (now - k.value.lastTime) * c.rate)

/-- `rate_limit.lua`. -/
def rateLimitScript (c : LimiterConfig) (now : ℤ) (key : Option (Key Bucket)) :
    Bool × Option (Key Bucket) :=
  let tokens := refilled c now key
  let allowed := decide (c.requested ≤ tokens)
  (allowed, some {
    value := ⟨if allowed then tokens - c.requested else tokens, now⟩
    expireAt :=
      if 0 < c.expiration then some (now + c.expiration)
      -- `HMSET` leaves the time to live of the key as it is
      else (Key.live now key).bind Key.expireAt })

structure Redis where
  lists : Text → Option (Key (List ℤ)) := fun _ => none
  buckets : Text → Option (Key Bucket) := fun _ => none

namespace Redis

def setList (db : Redis) (name : Text) (key : Option (Key (List ℤ))) : Redis :=
  { db with lists := Function.update db.lists name key }

def setBucket (db : Redis) (name : Text) (key : Option (Key Bucket)) : Redis :=
  { db with buckets := Function.update db.buckets name key }

end Redis

def stamps (now : ℤ) (key : Option (Key (List ℤ))) : List ℤ :=
  match Key.live now key with
  | none => []
  | some k => k.value

/-- `none` is an error: the oldest stamp does not parse. -/
def checkRedisRateLimit (maxCount : ℕ) (window now : ℤ) (key : Option (Key (List ℤ))) :
    Option Bool × Option (Key (List ℤ)) :=
  if maxCount = 0 ∨ (stamps now key).length < maxCount then (some true, key)
  else
    match (stamps now key).getLast? with
    | none => (none, key)
    | some oldTime =>
      if now - oldTime < window then (some false, Key.expire now window key) else (some true, key)

def recordRedisRequest (maxCount : ℕ) (window now : ℤ) (key : Option (Key (List ℤ))) :
    Option (Key (List ℤ)) :=
  if maxCount = 0 then key
  else some ⟨(now :: stamps now key).take maxCount, some (now + window)⟩

structure Setup where
  userId : ℤ
  window : ℤ
  windowText : Text
  canonical : Bool
  totalMaxCount : ℕ
  successMaxCount : ℕ

structure Request where
  arrival : ℤ
  finish : ℤ
  status : ℕ

inductive Outcome
  | checkFailed
  | tooManyRequests (message : Text)
  | served (status : ℕ)

def Outcome.rejected : Outcome → Bool
  | .tooManyRequests _ => true
  | _ => false

def totalMessage (c : Setup) : Text :=
  "您已达到总请求数限制：".toList ++ c.windowText ++ "内最多请求".toList ++
    fmtInt c.totalMaxCount ++ "次，包括失败次数，请检查您的请求是否正确".toList

def successMessage (c : Setup) : Text :=
  "您已达到请求数限制：".toList ++ c.windowText ++ "内最多请求".toList ++
    fmtInt c.successMaxCount ++ "次".toList

def legacyTotalKey (c : Setup) : Text := "rateLimit:".toList ++ fmtInt c.userId

def redisTotalKey (c : Setup) : Text :=
  if c.canonical then "rateLimit:MRRL:v2:".toList ++ fmtInt c.userId else legacyTotalKey c

def redisSuccessKey (c : Setup) : Text :=
  (if c.canonical then "rateLimit:MRRLS:v2:" else "rateLimit:MRRLS:").toList ++ fmtInt c.userId

def totalConfig (canonical : Bool) (totalMaxCount window : ℤ) : LimiterConfig :=
  if canonical then ⟨totalMaxCount, totalMaxCount / window, 1, window⟩
  else ⟨totalMaxCount * window, totalMaxCount, window, 0⟩

def rateLimitKeyExpiration : ℤ := 20 * 60

def expireLegacyTotal (c : Setup) (now : ℤ) (db : Redis) : Redis :=
  if c.canonical then
    db.setBucket (legacyTotalKey c)
      (Key.expire now (min c.window rateLimitKeyExpiration) (db.buckets (legacyTotalKey c)))
  else db

def redisRateLimitHandler (c : Setup) (r : Request) (db : Redis) : Outcome × Redis :=
  let now := r.arrival
  let db := expireLegacyTotal c now db
  let successKey := redisSuccessKey c
  let checked := checkRedisRateLimit c.successMaxCount c.window now (db.lists successKey)
  let db := db.setList successKey checked.2
  match checked.1 with
  | none => (.checkFailed, db)
  | some false => (.tooManyRequests (successMessage c), db)
  | some true =>
    let total :=
      if 0 < c.totalMaxCount then
        rateLimitScript (totalConfig c.canonical c.totalMaxCount c.window) now
          (db.buckets (redisTotalKey c))
      else (true, db.buckets (redisTotalKey c))
    let db := db.setBucket (redisTotalKey c) total.2
    if total.1 = false then (.tooManyRequests (totalMessage c), db)
    else if r.status < 400 then
      (.served r.status, db.setList successKey
        (recordRedisRequest c.successMaxCount c.window r.finish (db.lists successKey)))
    else (.served r.status, db)

/-- The requests under each key; a key that is not in the map has none. -/
abbrev InMemoryRateLimiter := Text → List ℤ

namespace InMemoryRateLimiter

def request (l : InMemoryRateLimiter) (key : Text) (maxRequestNum : ℕ) (duration now : ℤ) :
    Bool × InMemoryRateLimiter :=
  let active := (l key).dropWhile fun stamp => decide (duration ≤ now - stamp)
  if maxRequestNum ≤ active.length then (false, Function.update l key active)
  else (true, Function.update l key (active ++ [now]))

end InMemoryRateLimiter

def memoryTotalKey (c : Setup) : Text := "MRRL".toList ++ fmtInt c.userId

def memorySuccessKey (c : Setup) : Text := "MRRLS".toList ++ fmtInt c.userId

def checkKey (c : Setup) : Text := memorySuccessKey c ++ "_check".toList

def memoryRateLimitHandler (c : Setup) (r : Request) (l : InMemoryRateLimiter) :
    Outcome × InMemoryRateLimiter :=
  let total := if 0 < c.totalMaxCount then
      l.request (memoryTotalKey c) c.totalMaxCount c.window r.arrival
    else (true, l)
  if total.1 = false then (.tooManyRequests (totalMessage c), total.2)
  else
    let checked := total.2.request (checkKey c) c.successMaxCount c.window r.arrival
    if checked.1 = false then (.tooManyRequests (successMessage c), checked.2)
    else
      (.served r.status,
        if r.status < 400 then
          (checked.2.request (memorySuccessKey c) c.successMaxCount c.window r.finish).2
        else checked.2)

end NewApi.Middleware
