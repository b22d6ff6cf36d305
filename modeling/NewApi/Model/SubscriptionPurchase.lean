import Mathlib.Algebra.Order.Floor.Ring
import Mathlib.Data.Rat.Floor
import NewApi.Lib.Interleaving
import NewApi.Lib.ReadCommitted
import NewApi.Model.Subscription
import NewApi.Model.TopUp

/-!
# Granting subscriptions (model/subscription.go)

`CreateUserSubscriptionFromPlanTx` looks for the user, counts the purchases of the plan and inserts
a subscription.
-/

namespace NewApi.Model.Purchase

open Transition

inductive Dialect where
  | sqlite
  | mysql
  | postgres
  deriving DecidableEq, Repr

inductive DurationUnit where
  | year
  | month
  | day
  | hour
  | custom
  | other (unit : Text)
  deriving DecidableEq, Repr

structure Plan extends SubscriptionPlan where
  totalAmount : ℤ
  durationUnit : DurationUnit
  durationValue : ℤ
  customSeconds : ℤ
  upgradeGroup : Text
  downgradeGroup : Text
  maxPurchasePerUser : ℤ
  allowWalletOverflow : Option Bool
  enabled : Bool
  priceAmount : ℚ
  allowBalancePay : Option Bool
  deriving DecidableEq

structure UserRow where
  id : ℤ
  quota : ℤ
  group : Text
  deleted : Bool
  deriving DecidableEq, Repr

inductive PurchaseError where
  | userNotFound
  | purchaseLimit
  | other (text : Text)
  deriving DecidableEq, Repr

/-- The process time and what Go computes from it; `addDate start years months` is
`AddDate`. -/
structure Clock where
  now : ℤ
  calendar : Calendar
  addDate : ℤ → ℤ → ℤ → ℤ

def calcPlanEndTime (clock : Clock) (plan : Plan) : Except PurchaseError ℤ :=
  let start := clock.now
  if plan.durationValue ≤ 0 ∧ plan.durationUnit ≠ .custom then
    .error (.other "duration_value must be > 0".toList)
  else
    match plan.durationUnit with
    | .year => .ok (clock.addDate start plan.durationValue 0)
    | .month => .ok (clock.addDate start 0 plan.durationValue)
    | .day => .ok (addSeconds start (durationSeconds (plan.durationValue * 86400)))
    | .hour => .ok (addSeconds start (durationSeconds (plan.durationValue * 3600)))
    | .custom =>
      if plan.customSeconds ≤ 0 then .error (.other "custom_seconds must be > 0".toList)
      else .ok (addSeconds start (durationSeconds plan.customSeconds))
    | .other unit => .error (.other ("invalid duration_unit: ".toList ++ unit))

/-- `userQuery.First(&lockedUser)`. On SQLite the query has the user's id; on the other dialects
it starts again from `tx` and has lost it. -/
def lockedUser (dialect : Dialect) (users : List UserRow) (userId : ℤ) : Option UserRow :=
  let live := users.filter fun u => !u.deleted
  let rows := if dialect = .sqlite then live.filter fun u => decide (u.id = userId) else live
  (rows.insertionSort fun a b => a.id ≤ b.id).head?

def limitReached (plan : Plan) (count : ℕ) : Prop :=
  0 < plan.maxPurchasePerUser ∧ plan.maxPurchasePerUser ≤ count

instance (plan : Plan) (count : ℕ) : Decidable (limitReached plan count) :=
  inferInstanceAs (Decidable (_ ∧ _))

structure Entitlement extends UserSubscription where
  source : Text
  upgradeGroup : Text
  prevUserGroup : Text
  downgradeGroup : Text
  createdAt : ℤ
  updatedAt : ℤ

structure Shop where
  users : List UserRow
  subscriptions : List Entitlement
  nextId : ℤ

/-- `getUserGroupByIdTx`: the group of a missing user is empty. -/
def getUserGroupByIdTx (users : List UserRow) (userId : ℤ) : Text :=
  ((users.find? fun u => decide (u.id = userId) && !u.deleted).map UserRow.group).getD []

def setUserGroup (userId : ℤ) (group : Text) (users : List UserRow) : List UserRow :=
  users.map fun u => if u.id = userId ∧ u.deleted = false then { u with group := group } else u

def grant (clock : Clock) (t : Shop) (userId : ℤ) (plan : Plan) (source : Text) (endUnix : ℤ) :
    Shop × Entitlement :=
  let nextReset := calcNextResetTime clock.calendar clock.now plan.toSubscriptionPlan endUnix
  let upgradeGroup := trimSpace plan.upgradeGroup
  let currentGroup := getUserGroupByIdTx t.users userId
  let raised := decide (upgradeGroup ≠ []) && decide (currentGroup ≠ upgradeGroup)
  let sub : Entitlement :=
    { id := t.nextId
      userId := userId
      planId := plan.id
      amountTotal := plan.totalAmount
      amountUsed := 0
      startTime := clock.now
      endTime := endUnix
      status := .active
      lastResetTime := if 0 < nextReset then clock.now else 0
      nextResetTime := nextReset
      allowWalletOverflow := plan.allowWalletOverflow.getD true
      source := source
      upgradeGroup := upgradeGroup
      prevUserGroup := if raised then currentGroup else []
      downgradeGroup := trimSpace plan.downgradeGroup
      createdAt := clock.now
      updatedAt := clock.now }
  let users := if raised then setUserGroup userId upgradeGroup t.users else t.users
  (⟨users, t.subscriptions ++ [sub], t.nextId + 1⟩, sub)

def createUserSubscriptionFromPlanTx (dialect : Dialect) (clock : Clock) (t : Shop) (userId : ℤ)
    (plan : Option Plan) (source : Text) : Except PurchaseError (Shop × Entitlement) :=
  match plan with
  | none => .error (.other "invalid plan".toList)
  | some plan =>
    if plan.id = 0 then .error (.other "invalid plan".toList)
    else if userId ≤ 0 then .error (.other "invalid user id".toList)
    else if (lockedUser dialect t.users userId).isNone then .error .userNotFound
    else if limitReached plan (t.subscriptions.countP fun s =>
        decide (s.userId = userId) && decide (s.planId = plan.id)) then .error .purchaseLimit
    else
      match calcPlanEndTime clock plan with
      | .error e => .error e
      | .ok endUnix => .ok (grant clock t userId plan source endUnix)

structure Order where
  paymentProvider : Option PaymentProvider
  paymentMethod : Text
  status : TopUpStatus
  createTime : ℤ
  completeTime : ℤ
  providerPayload : Text
  deriving DecidableEq, Repr

structure TopUpLine where
  paymentProvider : Option PaymentProvider
  paymentMethod : Text
  deriving DecidableEq, Repr

structure Callback where
  tradeNo : Text
  providerPayload : Text
  expectedPaymentProvider : Option PaymentProvider
  actualPaymentMethod : Text
  deriving DecidableEq, Repr

inductive Op where
  | completeOrder (callback : Callback)
  | purchaseWithBalance (tradeNo : Text)
  | adminBind
  deriving DecidableEq, Repr

/-- Calls for one user and one plan. `fulfil` checks the snapshot of an order against the
callback, or the stored plan when the order has none, and gives the plan to grant: the one of the
calls with the same limit, whatever else was edited since. -/
structure Setup where
  dialect : Dialect
  userId : ℤ
  plan : Plan
  otherUsers : List UserRow
  quotaPerUnit : ℚ
  pendingTTL : Text → ℤ
  fulfil : Callback → Order → Except PurchaseError Plan
  fulfil_plan : ∀ callback order p, fulfil callback order = .ok p →
    p.id = plan.id ∧ p.maxPurchasePerUser = plan.maxPurchasePerUser
  calendar : Calendar
  addDate : ℤ → ℤ → ℤ → ℤ
  op : ℕ → Op

/-- The rows, and the committed subscriptions of the user to the plan: each is labelled with the
order it came with, if any. -/
structure Store where
  user : Row ℕ (Option UserRow)
  orders : Text → Row ℕ (Option Order)
  topUps : Text → Row ℕ (Option TopUpLine)
  subs : List (Option Text)

structure Completion where
  callback : Callback
  order : Order
  plan : Plan
  deriving DecidableEq

inductive Source where
  | order (completion : Completion)
  | balance (tradeNo : Text) (requiredQuota : ℤ)
  | admin
  deriving DecidableEq

def Source.label : Source → Option Text
  | .order completion => some completion.callback.tradeNo
  | .balance tradeNo _ => some tradeNo
  | .admin => none

def Source.plan (c : Setup) : Source → Plan
  | .order completion => completion.plan
  | _ => c.plan

inductive Pc where
  | start
  | saveExpired (tradeNo : Text) (order : Order)
  | readBuyer (tradeNo : Text) (requiredQuota : ℤ)
  | debit (tradeNo : Text) (requiredQuota : ℤ)
  | lockUser (src : Source)
  | count (src : Source)
  | readGroup (src : Source) (count : ℕ)
  | upgrade (src : Source) (count : ℕ)
  | insert (src : Source) (count : ℕ)
  | readTopUp (completion : Completion) (count : ℕ)
  | writeTopUp (completion : Completion) (count : ℕ) (found : Option TopUpLine)
  | saveOrder (completion : Completion) (count : ℕ)
  | insertOrder (tradeNo : Text) (requiredQuota : ℤ) (count : ℕ)
  | commitSub (src : Source) (count : ℕ)
  | readFailed (callback : Callback)
  | saveFailed (tradeNo : Text) (order : Order)
  | commit
  | done
  deriving DecidableEq

inductive Action where
  | run (now : ℤ)
  | fail
  deriving DecidableEq, Repr

def Store.commit (s : Store) (i : ℕ) (created : Option Source) : Store where
  user := s.user.commit i
  orders := fun x => (s.orders x).commit i
  topUps := fun x => (s.topUps x).commit i
  subs := (created.map Source.label).toList ++ s.subs

def Store.abort (s : Store) (i : ℕ) : Store where
  user := s.user.abort i
  orders := fun x => (s.orders x).abort i
  topUps := fun x => (s.topUps x).abort i
  subs := s.subs

def Store.writeOrder (s : Store) (i : ℕ) (tradeNo : Text) (order : Order) : Store :=
  { s with orders := Function.update s.orders tradeNo ((s.orders tradeNo).write i (some order)) }

def Store.writeTopUp (s : Store) (i : ℕ) (tradeNo : Text) (line : TopUpLine) : Store :=
  { s with topUps := Function.update s.topUps tradeNo ((s.topUps tradeNo).write i (some line)) }

variable (c : Setup) (i : ℕ) (s : Store)

def liveUser : Option UserRow := (s.user.select i).filter fun u => !u.deleted

/-- An `UPDATE` of the user: it matches live rows only and waits for the lock of the row. -/
def updateUser (f : UserRow → UserRow) : Option Store :=
  match liveUser i s with
  | none => some s
  | some u => if s.user.free i then some { s with user := s.user.write i (some (f u)) } else none

def usersSeen : List UserRow := (s.user.select i).toList ++ c.otherUsers

def subscriptionOrderExpired (order : Order) (now : ℤ) : Prop :=
  0 < order.createTime ∧ c.pendingTTL order.paymentMethod ≤ now - order.createTime

instance (order : Order) (now : ℤ) : Decidable (subscriptionOrderExpired c order now) :=
  inferInstanceAs (Decidable (_ ∧ _))

def calcSubscriptionBalanceQuota : Except PurchaseError ℤ :=
  if c.plan.priceAmount ≤ 0 then .ok 0
  else if c.quotaPerUnit ≤ 0 then .error (.other "额度单位配置错误".toList)
  else .ok (wrapInt64 ⌈c.plan.priceAmount * c.quotaPerUnit⌉)

def wrongProvider (callback : Callback) (order : Order) : Prop :=
  callback.expectedPaymentProvider ≠ none ∧
    order.paymentProvider ≠ callback.expectedPaymentProvider

instance (callback : Callback) (order : Order) : Decidable (wrongProvider callback order) :=
  inferInstanceAs (Decidable (_ ∧ _))

def Completion.paidOrder (completion : Completion) : Order :=
  if completion.callback.actualPaymentMethod = [] then completion.order
  else { completion.order with paymentMethod := completion.callback.actualPaymentMethod }

def mismatch (line : TopUpLine) (order : Order) : Prop :=
  (line.paymentProvider ≠ none ∧ line.paymentProvider ≠ order.paymentProvider) ∨
    (line.paymentMethod ≠ [] ∧ line.paymentMethod ≠ order.paymentMethod)

instance (line : TopUpLine) (order : Order) : Decidable (mismatch line order) :=
  inferInstanceAs (Decidable (_ ∨ _))

def rollback : Option (Store × Pc) := some (s.abort i, .done)

/-- The error is `ErrSubscriptionOrderUserNotFound` or `ErrSubscriptionPurchaseLimit`: an order is
then marked as failed in a second transaction. -/
def refuse : Source → Option (Store × Pc)
  | .order completion => some (s.abort i, .readFailed completion.callback)
  | _ => rollback i s

def create (src : Source) : Option (Store × Pc) :=
  if (src.plan c).id = 0 ∨ c.userId ≤ 0 then rollback i s else some (s, .lockUser src)

def passed (now : ℤ) (src : Source) (count : ℕ) : Option (Store × Pc) :=
  match calcPlanEndTime ⟨now, c.calendar, c.addDate⟩ (src.plan c) with
  | .error _ => rollback i s
  | .ok _ =>
    if trimSpace (src.plan c).upgradeGroup = [] then some (s, .insert src count)
    else some (s, .readGroup src count)

def first (now : ℤ) : Op → Option (Store × Pc)
  | .completeOrder callback =>
    if callback.tradeNo = [] then some (s, .done)
    else
      match (s.orders callback.tradeNo).select i with
      | none => rollback i s
      | some order =>
        if wrongProvider callback order then rollback i s
        else if order.status = .success then some (s, .commit)
        else if order.status ≠ .pending then rollback i s
        else if subscriptionOrderExpired c order now then
          some (s, .saveExpired callback.tradeNo order)
        else
          match c.fulfil callback order with
          | .error _ => rollback i s
          | .ok plan => create c i s (.order ⟨callback, order, plan⟩)
  | .purchaseWithBalance tradeNo =>
    if c.userId ≤ 0 ∨ c.plan.id ≤ 0 then some (s, .done)
    else if c.plan.enabled = false ∨ c.plan.priceAmount < 0 ∨
        c.plan.allowBalancePay = some false then rollback i s
    else
      match calcSubscriptionBalanceQuota c with
      | .error _ => rollback i s
      | .ok requiredQuota => some (s, .readBuyer tradeNo requiredQuota)
  | .adminBind =>
    if c.userId ≤ 0 ∨ c.plan.id ≤ 0 then some (s, .done) else create c i s .admin

def statement (now : ℤ) : Pc → Option (Store × Pc)
  | .start => first c i s now (c.op i)
  | .saveExpired tradeNo order =>
    if (s.orders tradeNo).free i then
      some (s.writeOrder i tradeNo { order with status := .expired, completeTime := now }, .commit)
    else none
  | .readBuyer tradeNo requiredQuota =>
    match liveUser i s with
    | none => rollback i s
    | some user =>
      if 0 < requiredQuota ∧ user.quota < requiredQuota then rollback i s
      else if 0 < requiredQuota then some (s, .debit tradeNo requiredQuota)
      else create c i s (.balance tradeNo requiredQuota)
  | .debit tradeNo requiredQuota =>
    (updateUser i s fun u => { u with quota := u.quota - requiredQuota }).bind fun s =>
      create c i s (.balance tradeNo requiredQuota)
  | .lockUser src =>
    -- takes no lock
    if (lockedUser c.dialect (usersSeen c i s) c.userId).isNone then refuse i s src
    else if 0 < (src.plan c).maxPurchasePerUser then some (s, .count src)
    else passed c i s now src 0
  | .count src =>
    if limitReached (src.plan c) s.subs.length then refuse i s src
    else passed c i s now src s.subs.length
  | .readGroup src count =>
    if ((liveUser i s).map UserRow.group).getD [] = trimSpace (src.plan c).upgradeGroup then
      some (s, .insert src count)
    else some (s, .upgrade src count)
  | .upgrade src count =>
    (updateUser i s fun u => { u with group := trimSpace (src.plan c).upgradeGroup }).map fun s =>
      (s, .insert src count)
  | .insert src count =>
    match src with
    | .order completion => some (s, .readTopUp completion count)
    | .balance tradeNo requiredQuota => some (s, .insertOrder tradeNo requiredQuota count)
    | .admin => some (s, .commitSub .admin count)
  | .readTopUp completion count =>
    match (s.topUps completion.callback.tradeNo).select i with
    | none => some (s, .writeTopUp completion count none)
    | some line =>
      if mismatch line completion.paidOrder then rollback i s
      else some (s, .writeTopUp completion count (some line))
  | .writeTopUp completion count found =>
    let x := completion.callback.tradeNo
    if (s.topUps x).free i then
      -- the trade number is unique: an insert after another one fails
      if found = none ∧ (s.topUps x).select i ≠ none then rollback i s
      else
        let order := completion.paidOrder
        some (s.writeTopUp i x ⟨order.paymentProvider, order.paymentMethod⟩,
          .saveOrder completion count)
    else none
  | .saveOrder completion count =>
    let x := completion.callback.tradeNo
    if (s.orders x).free i then
      let order := completion.paidOrder
      let payload := completion.callback.providerPayload
      some (s.writeOrder i x
        { order with
          status := .success
          completeTime := now
          providerPayload := if payload = [] then order.providerPayload else payload },
        .commitSub (.order completion) count)
    else none
  | .insertOrder tradeNo requiredQuota count =>
    if (s.orders tradeNo).free i then
      if (s.orders tradeNo).select i ≠ none then rollback i s
      else
        some (s.writeOrder i tradeNo
          { paymentProvider := some .balance
            paymentMethod := "balance".toList
            status := .success
            createTime := now
            completeTime := now
            providerPayload := "charged_quota=".toList ++ fmtInt requiredQuota },
          .commitSub (.balance tradeNo requiredQuota) count)
    else none
  | .commitSub src _ => some (s.commit i (some src), .done)
  | .readFailed callback =>
    match (s.orders callback.tradeNo).select i with
    | none => rollback i s
    | some order =>
      if wrongProvider callback order then rollback i s
      else if order.status ≠ .pending then some (s, .commit)
      else some (s, .saveFailed callback.tradeNo order)
  | .saveFailed tradeNo order =>
    if (s.orders tradeNo).free i then
      some (s.writeOrder i tradeNo { order with status := .failed, completeTime := now }, .commit)
    else none
  | .commit => some (s.commit i none, .done)
  | .done => none

def step : Pc → Action → Option (Store × Pc)
  | pc, .run now => statement c i s now pc
  | .done, .fail => none
  | _, .fail => rollback i s

abbrev State := Processes ℕ Store Pc

end NewApi.Model.Purchase
