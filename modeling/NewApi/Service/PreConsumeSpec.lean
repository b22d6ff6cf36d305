import NewApi.Lib.Fallible
import NewApi.Service.NewBillingSession

/-!
# What creating a session does to the world

Both attempts of `NewBillingSession` run `preConsume`.
-/

namespace NewApi.Service

open Fallible

variable {W B : Type}

structure Restoring (m : BillingModel W) (view : W → B) : Prop where
  getUserQuota : ∀ u, Frame view (m.getUserQuota u)
  hasActive : ∀ u, Frame view (m.hasActiveUserSubscription u)
  allowOverflow : ∀ u, Frame view (m.userActiveSubscriptionsAllowWalletOverflow u)
  planInfo : ∀ i, Frame view (m.getSubscriptionPlanInfoByUserSubscriptionId i)
  reserveUser : ∀ u q w e w', m.reserveUserQuotaForBilling u q w = (.error e, w') →
    view w' = view w
  reserveToken : ∀ t k q u w e w', m.reserveTokenQuotaForBilling t k q u w = (.error e, w') →
    view w' = view w
  preConsumeSubscription : ∀ r u n a w e w',
    m.preConsumeUserSubscription r u n a w = (.error e, w') → view w' = view w
  rollback : ∀ t k q u w w₁ w₂ w₃, m.reserveTokenQuotaForBilling t k q u w = (.ok (), w₁) →
    view w₂ = view w₁ → m.refundTokenQuotaForBilling t k q w₂ = (.ok (), w₃) → view w₃ = view w

def RollbackFailed (m : BillingModel W) (view : W → B) (b : B) : Prop :=
  ∃ t k q u w w₁ w₂ w₃ e, view w = b ∧
    m.reserveTokenQuotaForBilling t k q u w = (.ok (), w₁) ∧
    view w₂ = view w₁ ∧ m.refundTokenQuotaForBilling t k q w₂ = (.error e, w₃)

def SameRequest (info info' : RelayInfo) : Prop :=
  info'.userId = info.userId ∧ info'.tokenId = info.tokenId ∧ info'.tokenKey = info.tokenKey ∧
    info'.tokenUnlimited = info.tokenUnlimited ∧ info'.isPlayground = info.isPlayground ∧
    info'.forcePreConsume = info.forcePreConsume ∧ info'.requestId = info.requestId ∧
    info'.originModelName = info.originModelName

namespace BillingSession

theorem preConsumeToken_ok {m : BillingModel W} {s s' : BillingSession} {q : ℤ} {w w' : W}
    (h : s.preConsumeToken m q w = (.ok s', w')) :
    s' = { s with tokenConsumed := if 0 < q then q else s.tokenConsumed } ∧
      (w' = w ∧ (q ≤ 0 ∨ s.relayInfo.isPlayground = true) ∨
        0 < q ∧ s.relayInfo.isPlayground = false ∧
          m.reserveTokenQuotaForBilling s.relayInfo.tokenId s.relayInfo.tokenKey q
            s.relayInfo.tokenUnlimited w = (.ok (), w')) := by
  by_cases hpos : 0 < q
  · have hneg : ¬ q < 0 := by omega
    simp only [preConsumeToken, preConsumeTokenQuota, if_pos hpos, if_neg hneg] at h
    cases hp : s.relayInfo.isPlayground with
    | true =>
      simp only [hp, if_true, Prod.mk.injEq, Except.ok.injEq] at h
      obtain ⟨rfl, rfl⟩ := h
      simp [hpos]
    | false =>
      simp only [hp, Bool.false_eq_true, if_false] at h
      rcases hr : m.reserveTokenQuotaForBilling s.relayInfo.tokenId s.relayInfo.tokenKey q
          s.relayInfo.tokenUnlimited w with ⟨_ | _, w₁⟩
      · simp [hr] at h
      · simp only [hr, Prod.mk.injEq, Except.ok.injEq] at h
        obtain ⟨rfl, rfl⟩ := h
        simp [hpos]
  · simp only [preConsumeToken, if_neg hpos, Prod.mk.injEq, Except.ok.injEq] at h
    obtain ⟨rfl, rfl⟩ := h
    simp only [if_neg hpos, true_and]
    exact .inl (.inl (by omega))

theorem preConsumeToken_error {m : BillingModel W} {view : W → B} (hm : Restoring m view)
    {s : BillingSession} {q : ℤ} {w w' : W} {e : GoError}
    (h : s.preConsumeToken m q w = (.error e, w')) : view w' = view w := by
  by_cases hpos : 0 < q
  · have hneg : ¬ q < 0 := by omega
    simp only [preConsumeToken, preConsumeTokenQuota, if_pos hpos, if_neg hneg] at h
    cases hp : s.relayInfo.isPlayground with
    | true => simp [hp] at h
    | false =>
      simp only [hp, Bool.false_eq_true, if_false] at h
      rcases hr : m.reserveTokenQuotaForBilling s.relayInfo.tokenId s.relayInfo.tokenKey q
          s.relayInfo.tokenUnlimited w with ⟨_ | _, w₁⟩
      · simp only [hr, Prod.mk.injEq] at h
        rw [← h.2]
        exact hm.reserveToken _ _ _ _ _ _ _ hr
      · simp [hr] at h
  · simp [preConsumeToken, if_neg hpos] at h

end BillingSession

variable {src : FundingSource} {m : BillingModel W} {w w' : W} {q : ℤ}

theorem FundingSource.preConsume_error {view : W → B} (hm : Restoring m view) {e : GoError}
    (h : src.preConsume m q w = (.error e, w')) : view w' = view w := by
  cases src with
  | wallet f =>
    by_cases hq : q ≤ 0
    · simp [FundingSource.preConsume, hq] at h
    simp only [FundingSource.preConsume, if_neg hq] at h
    rcases hr : m.reserveUserQuotaForBilling f.userId q w with ⟨_ | _, w₁⟩
    · simp only [hr, Prod.mk.injEq] at h
      rw [← h.2]
      exact hm.reserveUser _ _ _ _ _ hr
    · simp [hr] at h
  | subscription f =>
    simp only [FundingSource.preConsume] at h
    rcases hr : m.preConsumeUserSubscription f.requestId f.userId f.modelName f.amount w with
      ⟨_ | res, w₁⟩
    · simp only [hr, Prod.mk.injEq] at h
      rw [← h.2]
      exact hm.preConsumeSubscription _ _ _ _ _ _ _ hr
    · simp only [hr] at h
      rcases hi : m.getSubscriptionPlanInfoByUserSubscriptionId res.userSubscriptionId w₁ with
        ⟨_ | _, w₂⟩
      · simp [hi] at h
      · simp [hi] at h

theorem FundingSource.preConsume_wallet_ok {f : WalletFunding}
    (h : (FundingSource.wallet f).preConsume m q w = (.ok src, w')) :
    q ≤ 0 ∧ src = .wallet f ∧ w' = w ∨
      0 < q ∧ src = .wallet { f with consumed := q } ∧
        m.reserveUserQuotaForBilling f.userId q w = (.ok (), w') := by
  by_cases hq : q ≤ 0
  · simp only [FundingSource.preConsume, if_pos hq, Prod.mk.injEq, Except.ok.injEq] at h
    exact .inl ⟨hq, h.1.symm, h.2.symm⟩
  · simp only [FundingSource.preConsume, if_neg hq] at h
    rcases hr : m.reserveUserQuotaForBilling f.userId q w with ⟨_ | _, w₁⟩
    · simp [hr] at h
    · simp only [hr, Prod.mk.injEq, Except.ok.injEq] at h
      obtain ⟨rfl, rfl⟩ := h
      exact .inr ⟨by omega, rfl, rfl⟩

theorem FundingSource.preConsume_subscription_ok {view : W → B} (hm : Restoring m view)
    {f : SubscriptionFunding}
    (h : (FundingSource.subscription f).preConsume m q w = (.ok src, w')) :
    ∃ res w₁ f', m.preConsumeUserSubscription f.requestId f.userId f.modelName f.amount w =
        (.ok res, w₁) ∧
      view w' = view w₁ ∧ src = .subscription f' ∧ f'.requestId = f.requestId ∧
      f'.subscriptionId = res.userSubscriptionId ∧ f'.preConsumed = res.preConsumed := by
  simp only [FundingSource.preConsume] at h
  rcases hr : m.preConsumeUserSubscription f.requestId f.userId f.modelName f.amount w with
    ⟨_ | res, w₁⟩
  · simp [hr] at h
  simp only [hr] at h
  have hinfo := hm.planInfo res.userSubscriptionId
  rcases hi : m.getSubscriptionPlanInfoByUserSubscriptionId res.userSubscriptionId w₁ with
    ⟨_ | info, w₂⟩
  all_goals
    simp only [hi, Prod.mk.injEq, Except.ok.injEq] at h
    obtain ⟨rfl, rfl⟩ := h
    exact ⟨res, w₁, _, rfl, hinfo.of_eq hi, rfl, rfl, rfl, rfl⟩

namespace BillingSession

theorem rollbackPreConsume_ne_none (m : BillingModel W) (s : BillingSession) (err : GoError)
    (w : W) : (s.rollbackPreConsume m err w).1 ≠ none := by
  unfold rollbackPreConsume
  split
  · split <;> exact Option.some_ne_none _
  · exact Option.some_ne_none _

def trustChecked (c : Context) (s : BillingSession) : BillingSession :=
  { s with trusted := s.shouldTrust c }

def opened (info : RelayInfo) (src : FundingSource) (trusted : Bool) (e : ℤ) : BillingSession :=
  { relayInfo := info
    funding := src
    preConsumedQuota := e
    tokenConsumed := if 0 < e then e else 0
    trusted := trusted }

def TokenLeg (m : BillingModel W) (info : RelayInfo) (e : ℤ) (w w' : W) : Prop :=
  w' = w ∧ (e ≤ 0 ∨ info.isPlayground = true) ∨
    0 < e ∧ info.isPlayground = false ∧
      m.reserveTokenQuotaForBilling info.tokenId info.tokenKey e info.tokenUnlimited w = (.ok (), w')

theorem preConsume_ok {m : BillingModel W} {c : Context} {s s' : BillingSession} {quota : ℤ}
    {w w' : W} (hnew : s = { relayInfo := s.relayInfo, funding := s.funding })
    (h : s.preConsume m c quota w = (none, s', w')) :
    ∃ w₁ src, TokenLeg m s.relayInfo (s.effectiveQuota c quota) w w₁ ∧
      s.funding.preConsume m (s.effectiveQuota c quota) w₁ = (.ok src, w') ∧
      s' = (opened s.relayInfo src (s.shouldTrust c) (s.effectiveQuota c quota)).syncRelayInfo := by
  unfold preConsume at h
  dsimp only at h
  rcases ht : (s.trustChecked c).preConsumeToken m (s.effectiveQuota c quota) w with ⟨_ | s₁, w₁⟩
  · unfold trustChecked at ht
    rw [ht] at h
    cases h
  · obtain ⟨hs₁, hw₁⟩ := preConsumeToken_ok ht
    have hfund : s₁.funding = s.funding := by
      rw [hs₁]; rfl
    unfold trustChecked at ht
    rw [ht] at h
    simp only [hfund] at h
    rcases hf : s.funding.preConsume m (s.effectiveQuota c quota) w₁ with ⟨err | src, w₂⟩
    · rw [hf] at h
      exact absurd (congrArg Prod.fst h) (rollbackPreConsume_ne_none m s₁ err w₂)
    · rw [hf] at h
      cases h
      refine ⟨w₁, src, hw₁, hf, ?_⟩
      congr 1
      rw [hs₁]
      generalize s.effectiveQuota c quota = e
      unfold trustChecked opened
      generalize s.shouldTrust c = trusted
      rw [hnew]

theorem rollbackPreConsume_cases (m : BillingModel W) (s : BillingSession) (err : GoError)
    (w : W) :
    SameRequest s.relayInfo (s.rollbackPreConsume m err w).2.1.relayInfo ∧
    ((¬ (0 < s.tokenConsumed ∧ s.relayInfo.isPlayground = false) ∧
        (s.rollbackPreConsume m err w).2.2 = w) ∨
      (0 < s.tokenConsumed ∧ s.relayInfo.isPlayground = false) ∧
        (m.refundTokenQuotaForBilling s.relayInfo.tokenId s.relayInfo.tokenKey s.tokenConsumed w =
            (.ok (), (s.rollbackPreConsume m err w).2.2) ∨
          ∃ e w', m.refundTokenQuotaForBilling s.relayInfo.tokenId s.relayInfo.tokenKey
              s.tokenConsumed w = (.error e, w') ∧
            ∃ e', (s.rollbackPreConsume m err w).1 = some e' ∧
              e'.errorCode = some .updateDataError)) := by
  unfold rollbackPreConsume
  by_cases hheld : 0 < s.tokenConsumed ∧ s.relayInfo.isPlayground = false
  · simp only [if_pos hheld]
    rcases hr : m.refundTokenQuotaForBilling s.relayInfo.tokenId s.relayInfo.tokenKey
        s.tokenConsumed w with ⟨e | _, w₁⟩
    · refine ⟨?_, .inr ⟨hheld, .inr ⟨e, w₁, rfl, _, rfl, rfl⟩⟩⟩
      simp [SameRequest, recordPreConsumeTokenHold]
    · exact ⟨by simp [SameRequest], .inr ⟨hheld, .inl rfl⟩⟩
  · simp only [if_neg hheld]
    exact ⟨by simp [SameRequest], .inl ⟨hheld, trivial⟩⟩

theorem preConsume_error {m : BillingModel W} {view : W → B} (hm : Restoring m view)
    {c : Context} {s s' : BillingSession} {quota : ℤ} {w w' : W} {e : GoError}
    (h0 : s.tokenConsumed = 0) (h : s.preConsume m c quota w = (some e, s', w')) :
    SameRequest s.relayInfo s'.relayInfo ∧
      (view w' = view w ∨ RollbackFailed m view (view w) ∧ e.errorCode = some .updateDataError) := by
  unfold preConsume at h
  dsimp only at h
  rcases ht : (s.trustChecked c).preConsumeToken m (s.effectiveQuota c quota) w with ⟨e₁ | s₁, w₁⟩
  · have hview := preConsumeToken_error hm ht
    unfold trustChecked at ht
    rw [ht] at h
    cases h
    exact ⟨by simp [SameRequest], .inl hview⟩
  · obtain ⟨hs₁, hw₁⟩ := preConsumeToken_ok ht
    have hinfo : s₁.relayInfo = s.relayInfo := by rw [hs₁]; rfl
    have htok : s₁.tokenConsumed =
        if 0 < s.effectiveQuota c quota then s.effectiveQuota c quota else 0 := by
      rw [hs₁, ← h0]; rfl
    have hfund : s₁.funding = s.funding := by rw [hs₁]; rfl
    unfold trustChecked at ht
    rw [ht] at h
    simp only [hfund] at h
    rcases hf : s.funding.preConsume m (s.effectiveQuota c quota) w₁ with ⟨err | src, w₂⟩
    · rw [hf] at h
      have hfail := FundingSource.preConsume_error hm hf
      obtain ⟨hsame, hcase⟩ := rollbackPreConsume_cases m s₁ err w₂
      change s₁.rollbackPreConsume m err w₂ = _ at h
      rw [h] at hsame hcase
      rw [hinfo] at hsame hcase
      refine ⟨hsame, ?_⟩
      rcases hcase with ⟨hheld, rfl⟩ | ⟨hheld, hroll⟩
      · -- Nothing was reserved, so the token leg did not move the world.
        rcases hw₁ with ⟨rfl, -⟩ | ⟨hpos, hp, -⟩
        · exact .inl hfail
        · exact absurd ⟨by omega, hp⟩ hheld
      · rcases hw₁ with ⟨rfl, hq | hp⟩ | ⟨hpos, hp, hres⟩
        · omega
        · exact absurd (hheld.2.symm.trans hp) (by simp)
        · rw [if_pos hpos] at htok
          rw [htok] at hroll
          rcases hroll with hok | ⟨e', w₃, hbad, e'', he'', hcode⟩
          · exact .inl (hm.rollback _ _ _ _ _ _ _ _ hres hfail hok)
          · cases he''
            exact .inr ⟨⟨_, _, _, _, _, _, _, _, _, rfl, hres, hfail, hbad⟩, hcode⟩
    · rw [hf] at h
      cases h

end BillingSession

def walletSession (info : RelayInfo) (userQuota : ℤ) : BillingSession :=
  { relayInfo := { info with billingSource := some .wallet, userQuota := userQuota }
    funding := .wallet ⟨info.userId, 0⟩ }

def subscriptionSession (info : RelayInfo) (preConsumedQuota : ℤ) : BillingSession :=
  { relayInfo := { info with billingSource := some .subscription }
    funding := .subscription
      { requestId := info.requestId
        userId := info.userId
        modelName := info.originModelName
        amount := subConsume preConsumedQuota
        subscriptionId := 0
        preConsumed := 0
        amountTotal := 0
        amountUsedAfter := 0
        planId := 0
        planTitle := [] } }

theorem subConsume_pos (q : ℤ) : 0 < subConsume q := by
  unfold subConsume
  split <;> omega

theorem subscriptionSession_shouldTrust (info : RelayInfo) (q : ℤ) (c : Context) :
    (subscriptionSession info q).shouldTrust c = false := by
  unfold BillingSession.shouldTrust subscriptionSession
  simp

theorem subscriptionSession_effectiveQuota (info : RelayInfo) (q : ℤ) (c : Context) :
    (subscriptionSession info q).effectiveQuota c (subConsume q) = subConsume q := by
  unfold BillingSession.effectiveQuota
  rw [subscriptionSession_shouldTrust]
  rfl

section

variable {m : BillingModel W} {view : W → B} {c : Context} {q : ℤ} {info info' : RelayInfo}
  {s : BillingSession} {e : GoError} {w w' : W}

theorem attemptOf_ok {r : Option GoError × BillingSession × W} (h : attemptOf r = (.ok s, w')) :
    r = (none, s, w') := by
  obtain ⟨_ | _, s₁, w₁⟩ := r
  · cases h; rfl
  · cases h

theorem attemptOf_error {r : Option GoError × BillingSession × W}
    (h : attemptOf r = (.error (e, info'), w')) :
    ∃ s₁, r = (some e, s₁, w') ∧ info' = s₁.relayInfo := by
  obtain ⟨_ | _, s₁, w₁⟩ := r
  · cases h
  · cases h
    exact ⟨s₁, rfl, rfl⟩

theorem tryWallet_ok (h : tryWallet m c q info w = (.ok s, w')) :
    ∃ userQuota w₁, m.getUserQuota info.userId w = (.ok userQuota, w₁) ∧
      0 < userQuota ∧ q ≤ userQuota ∧
      (walletSession info userQuota).preConsume m c q w₁ = (none, s, w') := by
  simp only [tryWallet] at h
  rcases hr : m.getUserQuota info.userId w with ⟨_ | userQuota, w₁⟩
  · simp [hr] at h
  simp only [hr] at h
  split at h
  · simp at h
  split at h
  · simp at h
  · exact ⟨userQuota, w₁, rfl, by omega, by omega, attemptOf_ok h⟩

theorem tryWallet_error (hm : Restoring m view)
    (h : tryWallet m c q info w = (.error (e, info'), w')) :
    SameRequest info info' ∧ (view w' = view w ∨
      RollbackFailed m view (view w) ∧ e.errorCode = some .updateDataError) := by
  simp only [tryWallet] at h
  have hread := hm.getUserQuota info.userId
  rcases hr : m.getUserQuota info.userId w with ⟨_ | userQuota, w₁⟩
  · simp only [hr, Prod.mk.injEq, Except.error.injEq] at h
    obtain ⟨⟨-, rfl⟩, rfl⟩ := h
    exact ⟨by simp [SameRequest], .inl (hread.of_eq hr)⟩
  · simp only [hr] at h
    have hview := hread.of_eq hr
    split at h
    · obtain ⟨⟨-, rfl⟩, rfl⟩ := h
      exact ⟨by simp [SameRequest], .inl hview⟩
    split at h
    · obtain ⟨⟨-, rfl⟩, rfl⟩ := h
      exact ⟨by simp [SameRequest], .inl hview⟩
    · obtain ⟨s₁, hpre, rfl⟩ := attemptOf_error h
      have hfail := BillingSession.preConsume_error hm rfl hpre
      rw [hview] at hfail
      exact hfail

theorem trySubscription_ok (h : trySubscription m c q info w = (.ok s, w')) :
    (subscriptionSession info q).preConsume m c (subConsume q) w = (none, s, w') :=
  attemptOf_ok h

theorem trySubscription_error (hm : Restoring m view)
    (h : trySubscription m c q info w = (.error (e, info'), w')) :
    SameRequest info info' ∧ (view w' = view w ∨
      RollbackFailed m view (view w) ∧ e.errorCode = some .updateDataError) := by
  obtain ⟨s₁, hpre, rfl⟩ := attemptOf_error h
  exact BillingSession.preConsume_error hm rfl hpre

theorem orElseOnInsufficient_cases (first : Attempt W) (allowed : Bool)
    (second : RelayInfo → W → Attempt W) :
    orElseOnInsufficient first allowed second = first ∨
      ∃ e info' w₁, first = (.error (e, info'), w₁) ∧
        e.errorCode = some .insufficientUserQuota ∧
        orElseOnInsufficient first allowed second = second info' w₁ := by
  obtain ⟨⟨e, info'⟩ | s, w₁⟩ := first
  · by_cases h : e.errorCode = some .insufficientUserQuota ∧ allowed = true
    · exact .inr ⟨e, info', w₁, rfl, h.1, by simp [orElseOnInsufficient, if_pos h]⟩
    · exact .inl (by simp [orElseOnInsufficient, if_neg h])
  · exact .inl rfl

structure Retried (view : W → B) (info : RelayInfo) (w : W) (info' : RelayInfo) (w' : W) :
    Prop where
  request : SameRequest info info'
  view : view w' = view w

theorem newBillingSession_cases (hm : Restoring m view) (c : Context) (info : RelayInfo) (q : ℤ)
    (w : W) :
    (∃ e info' w', newBillingSession m c info q w = (.error (e, info'), w') ∧
        view w' = view w) ∨
      ∃ info₁ w₁, Retried view info w info₁ w₁ ∧
        (newBillingSession m c info q w = tryWallet m c q info₁ w₁ ∨
          newBillingSession m c info q w = trySubscription m c q info₁ w₁) := by
  have hinsuf {e : GoError} {P : Prop} (h : e.errorCode = some .insufficientUserQuota)
      (h' : P ∧ e.errorCode = some .updateDataError) : False := by
    rw [h] at h'
    cases h'.2
  have hself : Retried view info w info w := ⟨by simp [SameRequest], rfl⟩
  unfold newBillingSession
  cases normalizeBillingPreference info.billingPreference with
  | subscriptionOnly => exact .inr ⟨info, w, hself, .inr rfl⟩
  | walletOnly => exact .inr ⟨info, w, hself, .inl rfl⟩
  | walletFirst =>
    rcases orElseOnInsufficient_cases (tryWallet m c q info w) true (trySubscription m c q) with
      h | ⟨e, info', w₁, hfirst, hcode, h⟩
    · exact .inr ⟨info, w, hself, .inl h⟩
    · obtain ⟨hsame, hview | hroll⟩ := tryWallet_error hm hfirst
      · exact .inr ⟨info', w₁, ⟨hsame, hview⟩, .inr h⟩
      · exact (hinsuf hcode hroll).elim
  | subscriptionFirst =>
    have hread := hm.hasActive info.userId
    rcases hr : m.hasActiveUserSubscription info.userId w with ⟨e | hasSub, w₁⟩
    · exact .inl ⟨_, _, w₁, rfl, hread.of_eq hr⟩
    have hview₁ := hread.of_eq hr
    cases hasSub with
    | false => exact .inr ⟨info, w₁, ⟨hself.request, hview₁⟩, .inl rfl⟩
    | true =>
      have hread₂ := hm.allowOverflow info.userId
      rcases ho : m.userActiveSubscriptionsAllowWalletOverflow info.userId w₁ with
        ⟨e | allow, w₂⟩
      · simp only [ho]
        exact .inl ⟨_, _, w₂, rfl, (hread₂.of_eq ho).trans hview₁⟩
      · have hview₂ := (hread₂.of_eq ho).trans hview₁
        simp only [ho]
        rcases orElseOnInsufficient_cases (trySubscription m c q info w₂) allow
            (tryWallet m c q) with h | ⟨e, info', w₃, hfirst, hcode, h⟩
        · exact .inr ⟨info, w₂, ⟨hself.request, hview₂⟩, .inr h⟩
        · obtain ⟨hsame, hview | hroll⟩ := trySubscription_error hm hfirst
          · exact .inr ⟨info', w₃, ⟨hsame, hview.trans hview₂⟩, .inl h⟩
          · exact (hinsuf hcode hroll).elim

theorem newBillingSession_error (hm : Restoring m view)
    (h : newBillingSession m c info q w = (.error (e, info'), w')) :
    view w' = view w ∨ RollbackFailed m view (view w) := by
  rcases newBillingSession_cases hm c info q w with
    ⟨e₁, info₁, w₁, hq, hview⟩ | ⟨info₁, w₁, hretry, hattempt | hattempt⟩
  · rw [h] at hq
    cases hq
    exact .inl hview
  · rw [h] at hattempt
    rcases (tryWallet_error hm hattempt.symm).2 with hview | hroll
    · exact .inl (hview.trans hretry.view)
    · exact .inr (hretry.view ▸ hroll.1)
  · rw [h] at hattempt
    rcases (trySubscription_error hm hattempt.symm).2 with hview | hroll
    · exact .inl (hview.trans hretry.view)
    · exact .inr (hretry.view ▸ hroll.1)

theorem newBillingSession_ok (hm : Restoring m view)
    (h : newBillingSession m c info q w = (.ok s, w')) :
    ∃ info₁ w₁, Retried view info w info₁ w₁ ∧
      (tryWallet m c q info₁ w₁ = (.ok s, w') ∨
        trySubscription m c q info₁ w₁ = (.ok s, w')) := by
  rcases newBillingSession_cases hm c info q w with
    ⟨e₁, info₁, w₁, hq, -⟩ | ⟨info₁, w₁, hretry, hattempt | hattempt⟩
  · rw [h] at hq
    cases hq
  · exact ⟨info₁, w₁, hretry, .inl (hattempt.symm.trans h)⟩
  · exact ⟨info₁, w₁, hretry, .inr (hattempt.symm.trans h)⟩

end

end NewApi.Service
