import NewApi.Service.FundingSource

/-!
# The billing session (service/billing_session.go)

One request's pre-consume, reserve, settle and refund life cycle.
-/

namespace NewApi.Service

/-- The fields of `relaycommon.RelayInfo` that the billing session reads or writes. -/
structure RelayInfo where
  userId : ℤ
  tokenId : ℤ
  tokenKey : Text
  tokenUnlimited : Bool
  isPlayground : Bool
  forcePreConsume : Bool
  requestId : Text
  originModelName : Text
  billingPreference : Text
  userQuota : ℤ
  finalPreConsumedQuota : ℤ
  billingSource : Option BillingSource
  billingOverageSource : Option BillingSource
  billingOverageQuota : ℤ
  subscriptionId : ℤ
  subscriptionPreConsumed : ℤ
  subscriptionPostDelta : ℤ
  subscriptionAmountTotal : ℤ
  subscriptionAmountUsedAfterPreConsume : ℤ
  subscriptionPlanId : ℤ
  subscriptionPlanTitle : Text
  billingSettled : Bool
  settledQuota : ℤ
  releasedQuota : ℤ
  attemptNonBillable : Bool
  deriving DecidableEq, Repr

structure BillingSession where
  relayInfo : RelayInfo
  funding : FundingSource
  preConsumedQuota : ℤ := 0
  tokenConsumed : ℤ := 0
  extraReserved : ℤ := 0
  unresolvedFunding : ℤ := 0
  reserveErr : Option GoError := none
  trusted : Bool := false
  fundingSettled : Bool := false
  settled : Bool := false
  refunded : Bool := false
  fundingRefunded : Bool := false
  extraRefunded : Bool := false
  tokenRefunded : Bool := false
  deriving DecidableEq, Repr

/-- What the session reads of the gin context and of the server's settings. -/
structure Context where
  tokenQuota : ℤ
  trustQuota : ℤ
  formatQuota : ℤ → Text

variable {W : Type}

namespace BillingSession

def syncRelayInfo (s : BillingSession) : BillingSession :=
  let info := { s.relayInfo with
    finalPreConsumedQuota := s.preConsumedQuota + s.unresolvedFunding
    billingSource := some s.funding.source }
  match s.funding with
  | .subscription f =>
    { s with relayInfo := { info with
      subscriptionId := f.subscriptionId
      subscriptionPreConsumed := f.preConsumed + s.extraReserved
      subscriptionPostDelta := 0
      subscriptionAmountTotal := f.amountTotal
      subscriptionAmountUsedAfterPreConsume := f.amountUsedAfter + s.extraReserved
      subscriptionPlanId := f.planId
      subscriptionPlanTitle := f.planTitle } }
  | .wallet _ =>
    { s with relayInfo := { info with subscriptionId := 0, subscriptionPreConsumed := 0 } }

inductive FundingOutcome where
  | unchanged
  | applied
  | overage
  deriving DecidableEq, Repr

/-- Step 1 of `Settle`: the funding source takes the delta unless it is committed
already; a subscription that is exhausted passes the overage to the wallet. -/
def settleFunding (m : BillingModel W) (s : BillingSession) (fundingDelta : ℤ) :
    Call W FundingOutcome := fun w =>
  if s.fundingSettled = true ∨ fundingDelta = 0 then (.ok .unchanged, w)
  else
    match s.funding.settle m fundingDelta w with
    | (.ok _, w) => (.ok .applied, w)
    | (.error err, w) =>
      if s.funding.source ≠ .subscription ∨ fundingDelta ≤ 0 ∨
          err.is .subscriptionQuotaExceeded = false then (.error err, w)
      else
        match m.debitUserQuotaForBilling s.relayInfo.userId fundingDelta w with
        | (.ok _, w) => (.ok .overage, w)
        | (.error walletErr, w) =>
          (.error ((GoError.join (some err)
            (some (walletErr.wrap "wallet overage debit failed".toList))).getD err), w)

def settleToken (m : BillingModel W) (s : BillingSession) (tokenDelta : ℤ) : Call W Unit :=
  fun w =>
  if s.relayInfo.isPlayground = true ∨ tokenDelta = 0 then (.ok (), w)
  else if 0 < tokenDelta then
    m.debitTokenQuotaForBilling s.relayInfo.tokenId s.relayInfo.tokenKey tokenDelta w
  else m.refundTokenQuotaForBilling s.relayInfo.tokenId s.relayInfo.tokenKey (-tokenDelta) w

def errOf {α : Type} : Except GoError α → Option GoError
  | .ok _ => none
  | .error e => some e

/-- `recordSettlement` and the bookkeeping at the end of `Settle`. -/
def markSettled (s : BillingSession) (actualQuota fundingDelta : ℤ) (out : FundingOutcome) :
    BillingSession :=
  let reserved := s.preConsumedQuota + s.unresolvedFunding
  let info := s.relayInfo
  let info := if out = .overage then
      { info with billingOverageSource := some .wallet, billingOverageQuota := fundingDelta }
    else info
  let info := if out = .applied ∧ s.funding.source = .subscription then
      { info with subscriptionPostDelta := info.subscriptionPostDelta + fundingDelta }
    else info
  { s with
    fundingSettled := true
    settled := true
    unresolvedFunding := 0
    relayInfo := { info with
      billingSettled := true
      settledQuota := actualQuota
      releasedQuota := max 0 (reserved - actualQuota) } }

/-- `Settle`. Once the funding source is committed a token failure is returned
but the session counts as settled. -/
def settle (m : BillingModel W) (s : BillingSession) (actualQuota : ℤ) (w : W) :
    Option GoError × BillingSession × W :=
  if s.settled then (none, s, w)
  else
    let fundingDelta := actualQuota - (s.preConsumedQuota + s.unresolvedFunding)
    match s.settleFunding m fundingDelta w with
    | (.error err, w) => (GoError.join (some err) s.reserveErr, s, w)
    | (.ok out, w) =>
      let r := s.settleToken m (actualQuota - s.tokenConsumed) w
      (GoError.join (errOf r.1) s.reserveErr, s.markSettled actualQuota fundingDelta out, r.2)

def settleTokenErr (m : BillingModel W) (s : BillingSession) (actualQuota : ℤ) (w : W) :
    Option GoError :=
  match s.settleFunding m (actualQuota - (s.preConsumedQuota + s.unresolvedFunding)) w with
  | (.error _, _) => none
  | (.ok _, w) => errOf (s.settleToken m (actualQuota - s.tokenConsumed) w).1

/-- `needsRefundLocked`. -/
def needsRefund (s : BillingSession) : Bool :=
  if s.settled || s.refunded || s.fundingSettled then false
  else if 0 < s.tokenConsumed ∨ 0 < s.extraReserved then true
  else
    match s.funding with
    | .subscription f => decide (0 < f.preConsumed)
    | .wallet _ => false

def refundFunding (m : BillingModel W) (s : BillingSession) : Call W BillingSession := fun w =>
  if s.fundingRefunded then (.ok s, w)
  else
    match s.funding.refund m w with
    | (.error e, w) => (.error (e.wrap "refund billing source".toList), w)
    | (.ok _, w) => (.ok { s with fundingRefunded := true }, w)

/-- Second step of `Refund`: the extra reserve of a subscription is returned apart. -/
def refundExtra (m : BillingModel W) (s : BillingSession) : Call W BillingSession := fun w =>
  if s.extraRefunded = false ∧ 0 < s.extraReserved ∧ s.funding.source = .subscription ∧
      0 < s.relayInfo.subscriptionId then
    match m.postConsumeUserSubscriptionDelta s.relayInfo.subscriptionId (-s.extraReserved) w with
    | (.error e, w) => (.error (e.wrap "refund subscription extra reserved quota".toList), w)
    | (.ok _, w) => (.ok { s with extraRefunded := true }, w)
  else (.ok s, w)

def refundToken (m : BillingModel W) (s : BillingSession) : Call W BillingSession := fun w =>
  if s.tokenRefunded = false ∧ 0 < s.tokenConsumed ∧ s.relayInfo.isPlayground = false then
    match m.refundTokenQuotaForBilling s.relayInfo.tokenId s.relayInfo.tokenKey
        s.tokenConsumed w with
    | (.error e, w) => (.error (e.wrap "refund token quota".toList), w)
    | (.ok _, w) => (.ok { s with tokenRefunded := true }, w)
  else (.ok s, w)

def markRefunded (s : BillingSession) : BillingSession :=
  { s with
    refunded := true
    unresolvedFunding := 0
    relayInfo := { s.relayInfo with
      releasedQuota := s.preConsumedQuota + s.unresolvedFunding
      billingSettled := true
      settledQuota := 0 } }

/-- `Refund`. A failed step returns its error and keeps the flags of the steps done. -/
def refund (m : BillingModel W) (s : BillingSession) (w : W) :
    Option GoError × BillingSession × W :=
  if s.settled || s.refunded || !s.needsRefund then (none, s, w)
  else
    match s.refundFunding m w with
    | (.error e, w) => (some e, s, w)
    | (.ok s, w) =>
      match s.refundExtra m w with
      | (.error e, w) => (some e, s, w)
      | (.ok s, w) =>
        match s.refundToken m w with
        | (.error e, w) => (some e, s, w)
        | (.ok s, w) => (none, s.markRefunded, w)

def reserveFunding (m : BillingModel W) (s : BillingSession) (delta : ℤ) :
    Call W FundingSource := fun w =>
  match s.funding with
  | .wallet f =>
    match m.reserveUserQuotaForBilling f.userId delta w with
    | (.error e, w) => (.error (e.toApi .updateDataError), w)
    | (.ok _, w) => (.ok (.wallet { f with consumed := f.consumed + delta }), w)
  | .subscription f =>
    match m.postConsumeUserSubscriptionDelta f.subscriptionId delta w with
    | (.error e, w) =>
      (.error ((GoError.new ("订阅额度不足或未配置订阅: ".toList ++ e.text)).toForbidden
        .insufficientUserQuota), w)
    | (.ok _, w) => (.ok (.subscription f), w)

def rollbackFundingReserve (m : BillingModel W) (s : BillingSession) (delta : ℤ) :
    Call W FundingSource := fun w =>
  match s.funding with
  | .wallet f =>
    match m.refundUserQuotaForBilling f.userId delta w with
    | (.error e, w) => (.error e, w)
    | (.ok _, w) => (.ok (.wallet { f with consumed := f.consumed - delta }), w)
  | .subscription f =>
    match m.postConsumeUserSubscriptionDelta f.subscriptionId (-delta) w with
    | (.error e, w) => (.error e, w)
    | (.ok _, w) => (.ok (.subscription f), w)

/-- `PreConsumeTokenQuota` (service/quota.go). -/
def preConsumeTokenQuota (m : BillingModel W) (info : RelayInfo) (quota : ℤ) : Call W Unit :=
  fun w =>
  if quota < 0 then (.error (GoError.new "quota 不能为负数！".toList), w)
  else if info.isPlayground then (.ok (), w)
  else m.reserveTokenQuotaForBilling info.tokenId info.tokenKey quota info.tokenUnlimited w

def reserveToken (m : BillingModel W) (s : BillingSession) (delta : ℤ) : Call W Unit := fun w =>
  if delta ≤ 0 ∨ s.relayInfo.isPlayground = true then (.ok (), w)
  else
    match preConsumeTokenQuota m s.relayInfo delta w with
    | (.error e, w) => (.error (e.toForbidden .preConsumeTokenQuotaFailed), w)
    | (.ok _, w) => (.ok (), w)

/-- The session once the funding leg of `Reserve` went through. It is recorded before
the token leg runs, so that a failed rollback stays visible to `Refund`. -/
def fundingReserved (s : BillingSession) (funding : FundingSource) (delta : ℤ) : BillingSession :=
  { s with funding := funding, extraReserved := s.extraReserved + delta }.syncRelayInfo

def reserveGranted (s : BillingSession) (delta : ℤ) : BillingSession :=
  { s with
    preConsumedQuota := s.preConsumedQuota + delta
    tokenConsumed := s.tokenConsumed + delta }.syncRelayInfo

def reserveRolledBack (s : BillingSession) (funding : FundingSource) (delta : ℤ) :
    BillingSession :=
  { s with funding := funding, extraReserved := s.extraReserved - delta }.syncRelayInfo

def reserveUnresolved (s : BillingSession) (delta : ℤ) (err : Option GoError) : BillingSession :=
  { s with
    unresolvedFunding := s.unresolvedFunding + delta
    reserveErr := err }.syncRelayInfo

def reserve (m : BillingModel W) (s : BillingSession) (targetQuota : ℤ) (w : W) :
    Option GoError × BillingSession × W :=
  if 0 < s.unresolvedFunding then (s.reserveErr, s, w)
  else if s.settled || s.refunded || s.trusted || decide (targetQuota ≤ s.preConsumedQuota) then
    (none, s, w)
  else
    let delta := targetQuota - s.preConsumedQuota
    match s.reserveFunding m delta w with
    | (.error e, w) => (some e, s, w)
    | (.ok funding, w) =>
      let s := s.fundingReserved funding delta
      match s.reserveToken m delta w with
      | (.ok _, w) => (none, s.reserveGranted delta, w)
      | (.error e, w) =>
        match s.rollbackFundingReserve m delta w with
        | (.ok funding, w) => (some e, s.reserveRolledBack funding delta, w)
        | (.error re, w) =>
          let err := GoError.join (some e) (some (re.wrap "rollback funding reserve".toList))
          (err, s.reserveUnresolved delta err, w)

def remainingHolds (s : BillingSession) : ℤ × ℤ :=
  if s.settled || s.refunded then (0, 0)
  else
    let financialQuota :=
      match s.funding with
      | .wallet f => if s.fundingRefunded then 0 else f.consumed
      | .subscription f =>
        (if s.fundingRefunded then 0 else f.preConsumed) +
          (if 0 < s.extraReserved ∧ s.extraRefunded = false then s.extraReserved else 0)
    let tokenQuota :=
      if s.relayInfo.isPlayground = false ∧ 0 < s.tokenConsumed ∧ s.tokenRefunded = false
      then s.tokenConsumed else 0
    (financialQuota, tokenQuota)

end BillingSession

end NewApi.Service
