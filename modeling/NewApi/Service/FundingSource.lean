import NewApi.Types.Error

/-!
# Funding sources of a billing session (service/funding_source.go)

`BillingModel` lists the functions of package `model` that the session calls.
-/

namespace NewApi.Service

/-- A Go call that returns `(α, error)` and may change the world. -/
abbrev Call (W α : Type) := W → Except GoError α × W

/-- `model.SubscriptionPreConsumeResult`, the fields that the session reads. -/
structure SubscriptionPreConsumeResult where
  userSubscriptionId : ℤ
  preConsumed : ℤ
  amountTotal : ℤ
  amountUsedAfter : ℤ
  deriving DecidableEq, Repr

structure SubscriptionPlanInfo where
  planId : ℤ
  planTitle : Text
  deriving DecidableEq, Repr

/-- The consume log that `recordPreConsumeTokenHold` writes. -/
structure TokenHoldLog where
  userId : ℤ
  tokenId : ℤ
  quota : ℤ
  heldTokenQuota : ℤ
  fundingError : Text
  refundError : Text
  deriving DecidableEq, Repr

structure BillingModel (W : Type) where
  getUserQuota (userID : ℤ) : Call W ℤ
  hasActiveUserSubscription (userID : ℤ) : Call W Bool
  userActiveSubscriptionsAllowWalletOverflow (userID : ℤ) : Call W Bool
  reserveUserQuotaForBilling (userID quota : ℤ) : Call W Unit
  debitUserQuotaForBilling (userID quota : ℤ) : Call W Unit
  refundUserQuotaForBilling (userID quota : ℤ) : Call W Unit
  reserveTokenQuotaForBilling (tokenID : ℤ) (key : Text) (quota : ℤ) (unlimited : Bool) :
    Call W Unit
  debitTokenQuotaForBilling (tokenID : ℤ) (key : Text) (quota : ℤ) : Call W Unit
  refundTokenQuotaForBilling (tokenID : ℤ) (key : Text) (quota : ℤ) : Call W Unit
  preConsumeUserSubscription (requestId : Text) (userID : ℤ) (modelName : Text) (amount : ℤ) :
    Call W SubscriptionPreConsumeResult
  getSubscriptionPlanInfoByUserSubscriptionId (userSubscriptionId : ℤ) :
    Call W SubscriptionPlanInfo
  postConsumeUserSubscriptionDelta (userSubscriptionId delta : ℤ) : Call W Unit
  refundSubscriptionPreConsume (requestId : Text) : Call W Unit
  recordConsumeLog (log : TokenHoldLog) : Call W Unit

inductive BillingSource where
  | wallet
  | subscription
  deriving DecidableEq, Repr

structure WalletFunding where
  userId : ℤ
  consumed : ℤ
  deriving DecidableEq, Repr

structure SubscriptionFunding where
  requestId : Text
  userId : ℤ
  modelName : Text
  amount : ℤ
  subscriptionId : ℤ
  preConsumed : ℤ
  amountTotal : ℤ
  amountUsedAfter : ℤ
  planId : ℤ
  planTitle : Text
  deriving DecidableEq, Repr

inductive FundingSource where
  | wallet (w : WalletFunding)
  | subscription (s : SubscriptionFunding)
  deriving DecidableEq, Repr

variable {W : Type}

/-- `refundWithRetry` after its first `maxAttempts - 1 - n` attempts: `n` more
attempts are left behind the next one. -/
def retryRefund (fn : Call W Unit) : ℕ → Call W Unit
  | 0, w => fn w
  | n + 1, w =>
    match fn w with
    | (.ok _, w) => (.ok (), w)
    | (.error _, w) => retryRefund fn n w

/-- `refundWithRetry`: at most three attempts, the last error is returned. -/
def refundWithRetry (fn : Call W Unit) : Call W Unit := retryRefund fn 2

namespace FundingSource

def source : FundingSource → BillingSource
  | .wallet _ => .wallet
  | .subscription _ => .subscription

/-- `PreConsume`. The subscription ignores the argument and takes its own `amount`. -/
def preConsume (m : BillingModel W) (amount : ℤ) : FundingSource → Call W FundingSource
  | .wallet f, w =>
    if amount ≤ 0 then (.ok (.wallet f), w)
    else
      match m.reserveUserQuotaForBilling f.userId amount w with
      | (.error e, w) => (.error e, w)
      | (.ok _, w) => (.ok (.wallet { f with consumed := amount }), w)
  | .subscription f, w =>
    match m.preConsumeUserSubscription f.requestId f.userId f.modelName f.amount w with
    | (.error e, w) => (.error e, w)
    | (.ok res, w) =>
      let f := { f with
        subscriptionId := res.userSubscriptionId
        preConsumed := res.preConsumed
        amountTotal := res.amountTotal
        amountUsedAfter := res.amountUsedAfter }
      -- A failed plan lookup leaves the plan fields empty and is not an error.
      match m.getSubscriptionPlanInfoByUserSubscriptionId res.userSubscriptionId w with
      | (.error _, w) => (.ok (.subscription f), w)
      | (.ok info, w) =>
        (.ok (.subscription { f with planId := info.planId, planTitle := info.planTitle }), w)

def settle (m : BillingModel W) (delta : ℤ) : FundingSource → Call W Unit
  | .wallet f, w =>
    if delta = 0 then (.ok (), w)
    else if 0 < delta then m.debitUserQuotaForBilling f.userId delta w
    else m.refundUserQuotaForBilling f.userId (-delta) w
  | .subscription f, w =>
    if delta = 0 then (.ok (), w)
    else m.postConsumeUserSubscriptionDelta f.subscriptionId delta w

def refund (m : BillingModel W) : FundingSource → Call W Unit
  | .wallet f, w =>
    if f.consumed ≤ 0 then (.ok (), w)
    else m.refundUserQuotaForBilling f.userId f.consumed w
  | .subscription f, w =>
    if f.preConsumed ≤ 0 then (.ok (), w)
    else refundWithRetry (m.refundSubscriptionPreConsume f.requestId) w

end FundingSource

end NewApi.Service
