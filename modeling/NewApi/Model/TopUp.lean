import Mathlib.Data.Int.Notation
import NewApi.Common.Text

/-!
# Top-up orders (model/topup.go)

The columns of a top-up order that its settlement and expiry read or write.
-/

namespace NewApi.Model

inductive DirectMethod where
  | crypto
  | usdtTRC20
  | usdtTON
  | usdtSolana
  deriving DecidableEq, Repr

/-- `TopUp.PaymentProvider`. The orders are written with these constants, so that a provider is
compared here and not its spelling (letter case, surrounding blanks). -/
inductive PaymentProvider where
  | epay
  | stripe
  | creem
  | waffo
  | waffoPancake
  | yooKassa
  | nowPayments
  | balance
  | direct (method : DirectMethod)
  | other (name : Text)
  deriving DecidableEq, Repr

/-- `isDirectUSDTNetworkProvider`. -/
def PaymentProvider.isDirect : PaymentProvider → Bool
  | .direct _ => true
  | _ => false

inductive TopUpStatus where
  | pending
  | success
  | failed
  | expired
  | cancelled
  deriving DecidableEq, Repr

structure TopUp where
  userId : ℤ
  tradeNo : Text
  amount : ℤ
  requestedAmount : Rat
  paymentBaseAmount : Rat
  paymentChargedAmount : Rat
  paymentMethod : Text
  paymentProvider : PaymentProvider
  paymentPendingTTLSeconds : ℤ
  quotaToAdd : ℤ
  createTime : ℤ
  completeTime : ℤ
  status : TopUpStatus
  deriving DecidableEq, Repr

inductive TopUpError where
  | paymentMethodMismatch
  | notFound
  | statusInvalid
  | expired
  | userNotFound
  | settlementAmbiguous
  | directInvalid
  | directExpired
  | directAmountMismatch
  | directAlreadySettled
  | directEventAlreadyUsed
  | directDuplicatePending
  | directLimitExceeded
  | other (text : Text)
  deriving DecidableEq, Repr

def TopUp.hasPaymentSettlementSnapshot (t : TopUp) : Bool :=
  decide (0 < t.requestedAmount) && decide (0 < t.paymentBaseAmount) &&
    decide (0 < t.paymentChargedAmount)

/-- What the resolution of an old order reads besides the order: the quota in its YooKassa
metadata and the conversion factor. -/
structure QuotaSources where
  metadataQuota : Option ℤ
  quotaPerUnit : Rat

/-- `resolveTopUpQuotaWithDB`. -/
def resolveTopUpQuota (src : QuotaSources) (t : TopUp) : Except TopUpError ℤ :=
  let unclear : Except TopUpError ℤ := .error (.other "无效或不明确的充值额度".toList)
  if 0 < t.quotaToAdd then .ok t.quotaToAdd
  else if t.hasPaymentSettlementSnapshot then .ok 0
  else
    match t.paymentProvider with
    | .creem => if 0 < t.amount then .ok t.amount else unclear
    | .stripe | .epay | .waffo | .waffoPancake => .error .settlementAmbiguous
    | .yooKassa =>
      match src.metadataQuota with
      | some quota => if 0 < quota then .ok quota else unclear
      | none => unclear
    | .nowPayments => unclear
    | .balance | .direct _ | .other _ =>
      let product := (t.amount : Rat) * src.quotaPerUnit
      let quota := product.num.tdiv product.den
      if 0 < quota then .ok quota else unclear

def resolvedQuota (src : QuotaSources) (t : TopUp) : ℤ :=
  match resolveTopUpQuota src t with
  | .ok quota => quota
  | .error _ => 0

/-- The part of `pendingTopUpExpired` for orders that are not direct; `policyTTL` is
`PendingTopUpTTL` of the payment method in seconds. -/
def TopUp.ttlExpired (policyTTL : ℤ) (t : TopUp) (now : ℤ) : Bool :=
  if 0 < t.paymentPendingTTLSeconds ∧ 0 < t.createTime then
    decide (t.paymentPendingTTLSeconds ≤ now - t.createTime)
  else decide (0 < t.createTime) && decide (policyTTL ≤ now - t.createTime)

inductive DirectCryptoStatus where
  | pending
  | paid
  | expired
  | cancelled
  | failed
  deriving DecidableEq, Repr

/-- The part of `pendingTopUpExpired` for direct orders. -/
def directExpired (status : DirectCryptoStatus) (expiresAt now : ℤ) : Bool :=
  decide (status = .expired) ||
    (decide (status = .pending) && decide (0 < expiresAt) && decide (expiresAt ≤ now))

end NewApi.Model
