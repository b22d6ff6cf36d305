import NewApi.Service.BillingSession

/-!
# Creating a billing session (service/billing_session.go)

`preConsume` charges the API key first and rolls it back when the funding source fails.
-/

namespace NewApi.Service

variable {W : Type}

namespace BillingSession

def shouldTrust (c : Context) (s : BillingSession) : Bool :=
  if s.relayInfo.forcePreConsume then false
  else if c.trustQuota ≤ 0 then false
  else if !(s.relayInfo.tokenUnlimited || decide (c.trustQuota < c.tokenQuota)) then false
  else
    match s.funding with
    | .wallet _ => decide (c.trustQuota < s.relayInfo.userQuota)
    | .subscription _ => false

def preConsumeError (err : GoError) : GoError :=
  if containsText err.text "no active subscription".toList ||
      containsText err.text "subscription quota insufficient".toList then
    (GoError.new ("订阅额度不足或未配置订阅: ".toList ++ err.text)).toForbidden .insufficientUserQuota
  else if err.is .billingUserQuotaInsufficient then err.toForbidden .insufficientUserQuota
  else err.toApi .updateDataError

def recordPreConsumeTokenHold (m : BillingModel W) (s : BillingSession)
    (fundingErr refundErr : GoError) (w : W) : BillingSession × W :=
  let log : TokenHoldLog :=
    ⟨s.relayInfo.userId, s.relayInfo.tokenId, 0, s.tokenConsumed, fundingErr.text, refundErr.text⟩
  ({ s with relayInfo := { s.relayInfo with attemptNonBillable := true } },
    (m.recordConsumeLog log w).2)

def preConsumeToken (m : BillingModel W) (s : BillingSession) (effectiveQuota : ℤ) :
    Call W BillingSession := fun w =>
  if 0 < effectiveQuota then
    match preConsumeTokenQuota m s.relayInfo effectiveQuota w with
    | (.error e, w) => (.error (e.toForbidden .preConsumeTokenQuotaFailed), w)
    | (.ok _, w) => (.ok { s with tokenConsumed := effectiveQuota }, w)
  else (.ok s, w)

def rollbackPreConsume (m : BillingModel W) (s : BillingSession) (err : GoError) (w : W) :
    Option GoError × BillingSession × W :=
  if 0 < s.tokenConsumed ∧ s.relayInfo.isPlayground = false then
    match m.refundTokenQuotaForBilling s.relayInfo.tokenId s.relayInfo.tokenKey
        s.tokenConsumed w with
    | (.error rollbackErr, w) =>
      let joined := (GoError.join (some err)
        (some (rollbackErr.wrap "rollback token reserve".toList))).getD err
      let r := { s with reserveErr := some joined }.recordPreConsumeTokenHold m err rollbackErr w
      (some (joined.toApi .updateDataError), r.1, r.2)
    | (.ok _, w) => (some (preConsumeError err), { s with tokenConsumed := 0 }, w)
  else (some (preConsumeError err), s, w)

/-- The quota that `preConsume` really takes: nothing under the trust bypass. -/
def effectiveQuota (c : Context) (s : BillingSession) (quota : ℤ) : ℤ :=
  if s.shouldTrust c then 0 else quota

def preConsume (m : BillingModel W) (c : Context) (s : BillingSession) (quota : ℤ) (w : W) :
    Option GoError × BillingSession × W :=
  let effectiveQuota := s.effectiveQuota c quota
  let s := { s with trusted := s.shouldTrust c }
  match s.preConsumeToken m effectiveQuota w with
  | (.error e, w) => (some e, s, w)
  | (.ok s, w) =>
    match s.funding.preConsume m effectiveQuota w with
    | (.error err, w) => s.rollbackPreConsume m err w
    | (.ok funding, w) =>
      (none, { s with funding := funding, preConsumedQuota := effectiveQuota }.syncRelayInfo, w)

end BillingSession

/-- The values of `common.NormalizeBillingPreference`. -/
inductive BillingPreference where
  | subscriptionFirst
  | walletFirst
  | subscriptionOnly
  | walletOnly
  deriving DecidableEq, Repr

def normalizeBillingPreference (pref : Text) : BillingPreference :=
  let pref := trimSpace pref
  if pref = "wallet_first".toList then .walletFirst
  else if pref = "subscription_only".toList then .subscriptionOnly
  else if pref = "wallet_only".toList then .walletOnly
  else .subscriptionFirst

/-- A session, or the error together with the request's `RelayInfo` as it was left. -/
abbrev Attempt (W : Type) := Except (GoError × RelayInfo) BillingSession × W

def attemptOf : Option GoError × BillingSession × W → Attempt W
  | (some e, s, w) => (.error (e, s.relayInfo), w)
  | (none, s, w) => (.ok s, w)

def tryWallet (m : BillingModel W) (c : Context) (preConsumedQuota : ℤ) (info : RelayInfo)
    (w : W) : Attempt W :=
  let info := { info with billingSource := some .wallet }
  match m.getUserQuota info.userId w with
  | (.error e, w) => (.error (e.toApi .queryDataError, info), w)
  | (.ok userQuota, w) =>
    if userQuota ≤ 0 then
      (.error ((GoError.new ("insufficient user quota, remaining quota: ".toList ++
        c.formatQuota userQuota)).toForbidden .insufficientUserQuota, info), w)
    else if userQuota - preConsumedQuota < 0 then
      (.error ((GoError.new ("failed to pre-consume quota, remaining quota: ".toList ++
        c.formatQuota userQuota ++ ", required quota: ".toList ++
        c.formatQuota preConsumedQuota)).toForbidden .insufficientUserQuota, info), w)
    else
      let s : BillingSession :=
        { relayInfo := { info with userQuota := userQuota }
          funding := .wallet ⟨info.userId, 0⟩ }
      attemptOf (s.preConsume m c preConsumedQuota w)

/-- The amount that `trySubscription` takes: at least one unit. -/
def subConsume (preConsumedQuota : ℤ) : ℤ :=
  if preConsumedQuota ≤ 0 then 1 else preConsumedQuota

def trySubscription (m : BillingModel W) (c : Context) (preConsumedQuota : ℤ) (info : RelayInfo)
    (w : W) : Attempt W :=
  let info := { info with billingSource := some .subscription }
  let s : BillingSession :=
    { relayInfo := info
      funding := .subscription
        { requestId := info.requestId
          userId := info.userId
          modelName := info.originModelName
          amount := subConsume preConsumedQuota
          subscriptionId := 0
          preConsumed := 0
          amountTotal := 0
          amountUsedAfter := 0
          planId := 0
          planTitle := [] } }
  attemptOf (s.preConsume m c (subConsume preConsumedQuota) w)

def orElseOnInsufficient (first : Attempt W) (allowed : Bool) (second : RelayInfo → W → Attempt W) :
    Attempt W :=
  match first with
  | (.ok s, w) => (.ok s, w)
  | (.error (e, info), w) =>
    if e.errorCode = some .insufficientUserQuota ∧ allowed = true then second info w
    else (.error (e, info), w)

def newBillingSession (m : BillingModel W) (c : Context) (info : RelayInfo)
    (preConsumedQuota : ℤ) (w : W) : Attempt W :=
  match normalizeBillingPreference info.billingPreference with
  | .subscriptionOnly => trySubscription m c preConsumedQuota info w
  | .walletOnly => tryWallet m c preConsumedQuota info w
  | .walletFirst =>
    orElseOnInsufficient (tryWallet m c preConsumedQuota info w) true
      (trySubscription m c preConsumedQuota)
  | .subscriptionFirst =>
    match m.hasActiveUserSubscription info.userId w with
    | (.error e, w) => (.error (e.toApi .queryDataError, info), w)
    | (.ok false, w) => tryWallet m c preConsumedQuota info w
    | (.ok true, w) =>
      match m.userActiveSubscriptionsAllowWalletOverflow info.userId w with
      | (.error e, w) => (.error (e.toApi .queryDataError, info), w)
      | (.ok allowOverflow, w) =>
        orElseOnInsufficient (trySubscription m c preConsumedQuota info w) allowOverflow
          (tryWallet m c preConsumedQuota)

end NewApi.Service
