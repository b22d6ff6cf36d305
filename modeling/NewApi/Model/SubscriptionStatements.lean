import NewApi.Lib.Interleaving
import NewApi.Lib.ReadCommitted
import NewApi.Model.Subscription

/-!
# Concurrent changes of `amount_used` (model/subscription.go, task_refund.go, billing_outbox.go)

Three of the transactions read a row without a lock and later `Save` the whole struct; the other two
lock first or update in SQL.
-/

namespace NewApi.Model.Usage

open Transition

structure Charge where
  requestId : Text
  userId : ℤ
  amount : ℤ
  deriving DecidableEq, Repr

inductive Op where
  | preConsume (req : Charge)
  | postConsumeDelta (userSubscriptionId delta : ℤ)
  | refundPreConsume (requestId : Text)
  | refundQuota (subscriptionId quota : ℤ)
  | violationFee (useSubscription : Bool) (subscriptionId quota : ℤ)
  deriving DecidableEq, Repr

structure Setup where
  op : ℕ → Op
  env : ℕ → Env
  ids : List ℤ
  plan : ℤ → Option SubscriptionPlan

structure Store where
  subs : ℤ → Row ℕ UserSubscription
  records : Text → Row ℕ (Option SubscriptionPreConsumeRecord)
  /-- The committed consumptions and, as negative amounts, the committed refunds. -/
  log : List (ℤ × ℤ)

inductive Pc where
  | start
  | readResumed (existing : SubscriptionPreConsumeRecord)
  | listActive (req : Charge)
  | readPlan (req : Charge) (candidates : List UserSubscription)
  | saveReset (req : Charge) (sub : UserSubscription) (rest : List UserSubscription)
  | insertRecord (req : Charge) (sub : UserSubscription)
  | readDuplicate (req : Charge)
  | saveCharge (req : Charge) (sub : UserSubscription)
  | readSub (record : SubscriptionPreConsumeRecord)
  | saveDelta (sub : UserSubscription) (delta : ℤ)
      (record : Option SubscriptionPreConsumeRecord)
  | saveRecord (record : SubscriptionPreConsumeRecord) (charge : Option (ℤ × ℤ))
  | updateLocked (sub : UserSubscription) (quota : ℤ)
  | others (charge : Option (ℤ × ℤ))
  | commit (charge : Option (ℤ × ℤ))
  | done
  deriving DecidableEq, Repr

inductive Action where
  | run
  | fail
  deriving DecidableEq, Repr

namespace Store

def writeSub (s : Store) (i : ℕ) (k : ℤ) (v : UserSubscription) : Store :=
  { s with subs := Function.update s.subs k ((s.subs k).write i v) }

def saveRecord (s : Store) (i : ℕ) (r : SubscriptionPreConsumeRecord) : Store :=
  { s with records :=
      Function.update s.records r.requestId ((s.records r.requestId).write i (some r)) }

def commit (s : Store) (i : ℕ) (charge : Option (ℤ × ℤ)) : Store :=
  { subs := fun k => (s.subs k).commit i
    records := fun r => (s.records r).commit i
    log := charge.toList ++ s.log }

def abort (s : Store) (i : ℕ) : Store :=
  { s with
    subs := fun k => (s.subs k).abort i
    records := fun r => (s.records r).abort i }

end Store

variable (c : Setup) (i : ℕ) (s : Store)

def rollback : Option (Store × Pc) := some (s.abort i, .done)

def lacksRoom (sub : UserSubscription) (amount : ℤ) : Prop :=
  0 < sub.amountTotal ∧ sub.amountTotal - sub.amountUsed < amount

instance (sub : UserSubscription) (amount : ℤ) : Decidable (lacksRoom sub amount) :=
  inferInstanceAs (Decidable (_ ∧ _))

def exceeds (sub : UserSubscription) (newUsed : ℤ) : Prop :=
  0 < sub.amountTotal ∧ sub.amountTotal < newUsed

instance (sub : UserSubscription) (newUsed : ℤ) : Decidable (exceeds sub newUsed) :=
  inferInstanceAs (Decidable (_ ∧ _))

def chargeOrSkip (req : Charge) (sub : UserSubscription) (rest : List UserSubscription) : Pc :=
  if lacksRoom sub req.amount then .readPlan req rest else .insertRecord req sub

/-- `postConsumeUserSubscriptionDeltaTx` up to its `Save`. -/
def selectForDelta (k delta : ℤ) (record : Option SubscriptionPreConsumeRecord) :
    Option (Store × Pc) :=
  if k ∈ c.ids then
    let sub := (s.subs k).select i
    if exceeds sub (max 0 (sub.amountUsed + delta)) then rollback i s
    else some (s, .saveDelta sub delta record)
  else rollback i s

def first : Op → Option (Store × Pc)
  | .preConsume req =>
    if req.userId ≤ 0 ∨ trimSpace req.requestId = [] ∨ req.amount ≤ 0 then some (s, .done)
    else
      match (s.records req.requestId).select i with
      | some existing =>
        if existing.status = .refunded then rollback i s else some (s, .readResumed existing)
      | none => some (s, .listActive req)
  | .postConsumeDelta k delta =>
    if k ≤ 0 ∨ delta = 0 then some (s, .done) else selectForDelta c i s k delta none
  | .refundPreConsume requestId =>
    if trimSpace requestId = [] then some (s, .done)
    else
      match (s.records requestId).select i with
      | none => rollback i s
      | some record =>
        if record.status = .refunded then some (s, .commit none)
        else if record.preConsumed ≤ 0 then some (s, .saveRecord record none)
        else if record.userSubscriptionId ≤ 0 then rollback i s
        else some (s, .readSub record)
  | .refundQuota k quota =>
    if k ≤ 0 ∨ quota < 0 then rollback i s
    else if quota = 0 then some (s, .others none)
    else if k ∈ c.ids then
      if (s.subs k).free i then
        let sub := (s.subs k).select i
        if quota ≤ sub.amountUsed then
          some (s.writeSub i k { sub with amountUsed := sub.amountUsed - quota },
            .others (some (k, -quota)))
        else rollback i s
      else none
    else rollback i s
  | .violationFee useSubscription k quota =>
    if quota ≤ 0 then some (s, .done)
    else if useSubscription = false then some (s, .others none)
    else if k ≤ 0 then rollback i s
    else if k ∈ c.ids then
      if (s.subs k).free i then
        let sub := (s.subs k).select i
        if exceeds sub (sub.amountUsed + quota) then rollback i s
        else some (s.writeSub i k sub, .updateLocked sub quota)
      else none
    else rollback i s

def listActive (userId : ℤ) : List UserSubscription :=
  ((c.ids.map fun k => (s.subs k).select i).filter fun v =>
    decide (v.userId = userId) && decide (v.status = .active) &&
      decide ((c.env i).dbTimestamp < v.endTime)).insertionSort endsBefore

/-- `tx.Save(&sub)`: every column of the struct in memory. -/
def save (v : UserSubscription) (pc : Pc) : Option (Store × Pc) :=
  if (s.subs v.id).free i then some (s.writeSub i v.id v, pc) else none

def statement : Pc → Option (Store × Pc)
  | .start => first c i s (c.op i)
  | .readResumed existing =>
    if existing.userSubscriptionId ∈ c.ids then some (s, .commit none) else rollback i s
  | .listActive req =>
    match listActive c i s req.userId with
    | [] => rollback i s
    | subs => some (s, .readPlan req subs)
  | .readPlan _ [] => rollback i s
  | .readPlan req (candidate :: rest) =>
    match c.plan candidate.planId with
    | none => rollback i s
    | some plan =>
      match dueReset (c.env i) plan candidate with
      | none => none
      | some none => some (s, chargeOrSkip req candidate rest)
      | some (some sub) => some (s, .saveReset req sub rest)
  | .saveReset req sub rest => save i s sub (chargeOrSkip req sub rest)
  | .insertRecord req sub =>
    if (s.records req.requestId).free i then
      match (s.records req.requestId).select i with
      | some _ => some (s, .readDuplicate req)
      | none => some (s.saveRecord i ⟨req.requestId, req.userId, sub.id, req.amount, .consumed⟩,
          .saveCharge req sub)
    else none
  | .readDuplicate req =>
    match (s.records req.requestId).select i with
    | some dup => if dup.status = .refunded then rollback i s else some (s, .commit none)
    | none => rollback i s
  | .saveCharge req sub =>
    save i s { sub with amountUsed := sub.amountUsed + req.amount }
      (.commit (some (sub.id, req.amount)))
  | .readSub record =>
    selectForDelta c i s record.userSubscriptionId (-record.preConsumed) (some record)
  | .saveDelta sub delta record =>
    save i s { sub with amountUsed := max 0 (sub.amountUsed + delta) }
      (match record with
      | none => .commit (some (sub.id, delta))
      | some record => .saveRecord record (some (sub.id, delta)))
  | .saveRecord record charge =>
    if (s.records record.requestId).free i then
      some (s.saveRecord i { record with status := .refunded }, .commit charge)
    else none
  | .updateLocked sub quota =>
    let row := s.subs sub.id
    if row.free i then
      some (s.writeSub i sub.id { row.select i with amountUsed := sub.amountUsed + quota },
        .others (some (sub.id, quota)))
    else none
  | .others charge => some (s, .commit charge)
  | .commit charge => some (s.commit i charge, .done)
  | .done => none

def step : Pc → Action → Option (Store × Pc)
  | pc, .run => statement c i s pc
  | .done, .fail => none
  | _, .fail => rollback i s

abbrev State := Processes ℕ Store Pc

end NewApi.Model.Usage
