import Mathlib.Algebra.Ring.Int.Defs
import Mathlib.Data.List.Sort
import NewApi.Model.BillingQuota

/-!
# Subscriptions: quota reset and pre-consume (model/subscription.go)

`PreConsumeUserSubscription` walks the active subscriptions in one transaction, resets those that are
due and charges the first that has room.
-/

namespace NewApi.Model

open NewApi.Service (Call SubscriptionPreConsumeResult SubscriptionPlanInfo)
open Fallible

inductive ResetPeriod where
  | never
  | daily
  | weekly
  | monthly
  | custom
  deriving DecidableEq, Repr

def normalizeResetPeriod (period : Text) : ResetPeriod :=
  let period := trimSpace period
  if period = "daily".toList then .daily
  else if period = "weekly".toList then .weekly
  else if period = "monthly".toList then .monthly
  else if period = "custom".toList then .custom
  else .never

/-- Go's `int64`. -/
def wrapInt64 (n : ℤ) : ℤ := (n + 2 ^ 63) % 2 ^ 64 - 2 ^ 63

/-- `time.Duration(seconds) * time.Second` in whole seconds: the product is an `int64`
number of nanoseconds. -/
def durationSeconds (seconds : ℤ) : ℤ := wrapInt64 (seconds * 1000000000) / 1000000000

/-- `time.Unix(base, 0).Add(d).Unix()` for a duration of `seconds`: Go counts the seconds of a
time from the year 1 in an `int64`, and `Add` stops at its ends. -/
def addSeconds (base seconds : ℤ) : ℤ :=
  let ext := wrapInt64 (base + 62135596800)
  let sum := wrapInt64 (ext + seconds)
  let ext' :=
    if decide (ext < sum) = decide (0 < seconds) then sum
    else if 0 < seconds then 9223372036854775807
    else -9223372036854775807
  wrapInt64 (ext' - 62135596800)

/-- `calcNextResetTime`; 0 means that there is no further reset. -/
def calcNextResetTime (cal : Calendar) (base : ℤ) (plan : SubscriptionPlan) (endUnix : ℤ) : ℤ :=
  let clamp (next : ℤ) := if 0 < endUnix ∧ endUnix < next then 0 else next
  match normalizeResetPeriod plan.quotaResetPeriod with
  | .never => 0
  | .daily => clamp (cal.nextDay base)
  | .weekly => clamp (cal.nextMonday base)
  | .monthly => clamp (cal.nextMonth base)
  | .custom =>
    if plan.quotaResetCustomSeconds ≤ 0 then 0
    else clamp (addSeconds base (durationSeconds plan.quotaResetCustomSeconds))

/-- The catch-up loop of a reset: `base` runs over the reset times up to `now`. It has no
result when the fuel runs out first. -/
def catchUp (cal : Calendar) (plan : SubscriptionPlan) (endUnix now : ℤ) :
    ℕ → ℤ → ℤ → Option (ℤ × ℤ)
  | 0, _, _ => none
  | n + 1, base, next =>
    if 0 < next ∧ next ≤ now then
      catchUp cal plan endUnix now n next (calcNextResetTime cal next plan endUnix)
    else some (base, next)

def resetBase (sub : UserSubscription) : ℤ :=
  if sub.lastResetTime ≤ 0 then sub.startTime else sub.lastResetTime

/-- What `maybeResetUserSubscriptionWithPlanTx` saves: nothing, or the row with its reset
times set and, if a reset was passed, its used amount cleared. -/
def dueReset (env : Env) (plan : SubscriptionPlan) (sub : UserSubscription) :
    Option (Option UserSubscription) :=
  if 0 < sub.nextResetTime ∧ env.dbTimestamp < sub.nextResetTime then some none
  else if normalizeResetPeriod plan.quotaResetPeriod = .never then some none
  else
    let next := calcNextResetTime env.calendar (resetBase sub) plan sub.endTime
    match catchUp env.calendar plan sub.endTime env.dbTimestamp env.resetFuel (resetBase sub)
        next with
    | none => none
    | some (last, next') =>
      if 0 < next ∧ next ≤ env.dbTimestamp then
        some (some { sub with amountUsed := 0, lastResetTime := last, nextResetTime := next' })
      else if sub.nextResetTime = 0 ∧ 0 < next' then
        some (some { sub with lastResetTime := last, nextResetTime := next' })
      else some none

def Tables.saveSubscription (sub : UserSubscription) (t : Tables) : Tables :=
  { t with subscriptions := t.subscriptions.save sub }

/-- `maybeResetUserSubscriptionWithPlanTx`; a loop without end is an error here. -/
def maybeResetUserSubscriptionWithPlanTx (env : Env) (sub : UserSubscription)
    (plan : SubscriptionPlan) : Call Db UserSubscription := fun w =>
  match dueReset env plan sub with
  | none => (.error (GoError.new "reset does not end".toList), w)
  | some none => (.ok sub, w)
  | some (some sub') =>
    match Db.exec (Tables.saveSubscription sub') w with
    | (.error e, w) => (.error e, w)
    | (.ok _, w) => (.ok sub', w)

/-- `getSubscriptionPlanByIdTx`, without its cache. -/
def getSubscriptionPlanByIdTx (id : ℤ) : Call Db SubscriptionPlan := fun w =>
  if id ≤ 0 then (.error (GoError.new "invalid plan id".toList), w)
  else
    Db.query (fun t => match t.plans.find id with
      | some plan => .ok plan
      | none => .error errRecordNotFound) w

def activeSubscriptions (t : Tables) (userId now : ℤ) : List UserSubscription :=
  t.subscriptions.rows.filter fun s =>
    decide (s.userId = userId) && decide (s.status = .active) && decide (now < s.endTime)

def hasActiveUserSubscription (env : Env) (userId : ℤ) : Call Db Bool := fun w =>
  if userId ≤ 0 then (.error (GoError.new "invalid userId".toList), w)
  else Db.query (fun t => .ok (!(activeSubscriptions t userId env.timestamp).isEmpty)) w

def userActiveSubscriptionsAllowWalletOverflow (env : Env) (userId : ℤ) : Call Db Bool := fun w =>
  if userId ≤ 0 then (.error (GoError.new "invalid userId".toList), w)
  else
    Db.query (fun t => .ok ((activeSubscriptions t userId env.timestamp).all
      (·.allowWalletOverflow))) w

/-- `GetUserQuota` from the database: a missing user reads as quota 0. -/
def getUserQuota (id : ℤ) : Call Db ℤ :=
  Db.query fun t => .ok (((t.users.find id).map User.quota).getD 0)

/-- `GetSubscriptionPlanInfoByUserSubscriptionId`, without its cache. -/
def getSubscriptionPlanInfoByUserSubscriptionId (userSubscriptionId : ℤ) :
    Call Db SubscriptionPlanInfo := fun w =>
  if userSubscriptionId ≤ 0 then (.error (GoError.new "invalid userSubscriptionId".toList), w)
  else
    match Db.query (fun t => match t.subscriptions.find userSubscriptionId with
        | some sub => .ok sub
        | none => .error errRecordNotFound) w with
    | (.error e, w) => (.error e, w)
    | (.ok sub, w) =>
      match getSubscriptionPlanByIdTx sub.planId w with
      | (.error e, w) => (.error e, w)
      | (.ok plan, w) => (.ok ⟨sub.planId, plan.title⟩, w)

def errAlreadyRefunded : GoError := GoError.new "subscription pre-consume already refunded".toList

def findRecord (requestId : Text) : Call Db SubscriptionPreConsumeRecord :=
  Db.query fun t => match t.records.find requestId with
    | some r => .ok r
    | none => .error errRecordNotFound

def createRecord (record : SubscriptionPreConsumeRecord) : Call Db Unit := fun w =>
  match Db.statement w with
  | (.error e, w) => (.error e, w)
  | (.ok _, w) =>
    match w.tables.records.insert record with
    | none => (.error (GoError.new "duplicated key not allowed".toList), w)
    | some records => (.ok (), { w with tables := { w.tables with records := records } })

/-- The charge of one subscription. A record that another request inserted in between is
taken over. -/
def chargeSubscription (requestId : Text) (userId amount : ℤ) (sub : UserSubscription) :
    Call Db SubscriptionPreConsumeResult := fun w =>
  match createRecord ⟨requestId, userId, sub.id, amount, .consumed⟩ w with
  | (.error err, w) =>
    match findRecord requestId w with
    | (.error _, w) => (.error err, w)
    | (.ok dup, w) =>
      if dup.status = .refunded then (.error errAlreadyRefunded, w)
      else (.ok ⟨sub.id, dup.preConsumed, sub.amountTotal, sub.amountUsed⟩, w)
  | (.ok _, w) =>
    match Db.exec (Tables.saveSubscription { sub with amountUsed := sub.amountUsed + amount }) w with
    | (.error e, w) => (.error e, w)
    | (.ok _, w) => (.ok ⟨sub.id, amount, sub.amountTotal, sub.amountUsed + amount⟩, w)

def consumeFirst (env : Env) (requestId : Text) (userId amount : ℤ) :
    List UserSubscription → Call Db SubscriptionPreConsumeResult
  | [], w =>
    (.error (GoError.new ("subscription quota insufficient, need=".toList ++ fmtInt amount)), w)
  | candidate :: rest, w =>
    match getSubscriptionPlanByIdTx candidate.planId w with
    | (.error e, w) => (.error e, w)
    | (.ok plan, w) =>
      match maybeResetUserSubscriptionWithPlanTx env candidate plan w with
      | (.error e, w) => (.error e, w)
      | (.ok sub, w) =>
        if 0 < sub.amountTotal ∧ sub.amountTotal - sub.amountUsed < amount then
          consumeFirst env requestId userId amount rest w
        else chargeSubscription requestId userId amount sub w

/-- `Order("end_time asc, id asc")`. -/
def endsBefore (a b : UserSubscription) : Prop :=
  a.endTime < b.endTime ∨ a.endTime = b.endTime ∧ a.id ≤ b.id

instance : DecidableRel endsBefore := fun a b =>
  inferInstanceAs (Decidable (a.endTime < b.endTime ∨ a.endTime = b.endTime ∧ a.id ≤ b.id))

def resumeRecord (existing : SubscriptionPreConsumeRecord) :
    Call Db SubscriptionPreConsumeResult := fun w =>
  if existing.status = .refunded then (.error errAlreadyRefunded, w)
  else
    match Db.query (fun t => match t.subscriptions.find existing.userSubscriptionId with
        | some sub => .ok sub
        | none => .error errRecordNotFound) w with
    | (.error e, w) => (.error e, w)
    | (.ok sub, w) => (.ok ⟨sub.id, existing.preConsumed, sub.amountTotal, sub.amountUsed⟩, w)

/-- The transaction of `PreConsumeUserSubscription`. A failing candidate query is reported
as a missing subscription. -/
def preConsumeTx (env : Env) (requestId : Text) (userId amount : ℤ) :
    Call Db SubscriptionPreConsumeResult := fun w =>
  match Db.query (fun t => .ok (t.records.find requestId)) w with
  | (.error e, w) => (.error e, w)
  | (.ok (some existing), w) => resumeRecord existing w
  | (.ok none, w) =>
    match Db.query (fun t => .ok
        ((activeSubscriptions t userId env.dbTimestamp).insertionSort endsBefore)) w with
    | (.error _, w) => (.error (GoError.new "no active subscription".toList), w)
    | (.ok [], w) => (.error (GoError.new "no active subscription".toList), w)
    | (.ok subs, w) => consumeFirst env requestId userId amount subs w

def preConsumeUserSubscription (env : Env) (requestId : Text) (userId amount : ℤ) :
    Call Db SubscriptionPreConsumeResult := fun w =>
  if userId ≤ 0 then (.error (GoError.new "invalid userId".toList), w)
  else if trimSpace requestId = [] then (.error (GoError.new "requestId is empty".toList), w)
  else if amount ≤ 0 then (.error (GoError.new "amount must be > 0".toList), w)
  else Db.transaction (preConsumeTx env requestId userId amount) w

/-- `postConsumeUserSubscriptionDeltaTx`: a negative result is floored at 0. -/
def postConsumeUserSubscriptionDeltaTx (userSubscriptionId delta : ℤ) : Call Db Unit := fun w =>
  if userSubscriptionId ≤ 0 then (.error (GoError.new "invalid userSubscriptionId".toList), w)
  else if delta = 0 then (.ok (), w)
  else
    match Db.query (fun t => match t.subscriptions.find userSubscriptionId with
        | some sub => .ok sub
        | none => .error errRecordNotFound) w with
    | (.error e, w) => (.error e, w)
    | (.ok sub, w) =>
      let newUsed := max 0 (sub.amountUsed + delta)
      if 0 < sub.amountTotal ∧ sub.amountTotal < newUsed then
        (.error ⟨[.subscriptionQuotaExceeded], "subscription quota exceeded, used=".toList ++
          fmtInt newUsed ++ " total=".toList ++ fmtInt sub.amountTotal, none⟩, w)
      else Db.exec (Tables.saveSubscription { sub with amountUsed := newUsed }) w

def postConsumeUserSubscriptionDelta (userSubscriptionId delta : ℤ) : Call Db Unit := fun w =>
  if userSubscriptionId ≤ 0 then (.error (GoError.new "invalid userSubscriptionId".toList), w)
  else if delta = 0 then (.ok (), w)
  else Db.transaction (postConsumeUserSubscriptionDeltaTx userSubscriptionId delta) w

def Tables.saveRecord (record : SubscriptionPreConsumeRecord) (t : Tables) : Tables :=
  { t with records := t.records.save record }

def refundPreConsumeTx (requestId : Text) : Call Db Unit := fun w =>
  match findRecord requestId w with
  | (.error e, w) => (.error e, w)
  | (.ok record, w) =>
    let markRefunded := Db.exec (Tables.saveRecord { record with status := .refunded })
    if record.status = .refunded then (.ok (), w)
    else if record.preConsumed ≤ 0 then markRefunded w
    else
      match postConsumeUserSubscriptionDeltaTx record.userSubscriptionId (-record.preConsumed) w with
      | (.error e, w) => (.error e, w)
      | (.ok _, w) => markRefunded w

def refundSubscriptionPreConsume (requestId : Text) : Call Db Unit := fun w =>
  if trimSpace requestId = [] then (.error (GoError.new "requestId is empty".toList), w)
  else Db.transaction (refundPreConsumeTx requestId) w

end NewApi.Model
