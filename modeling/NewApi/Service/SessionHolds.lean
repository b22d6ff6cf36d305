import NewApi.Service.PreConsumeSpec
import NewApi.Service.SessionLedger

/-!
# What a session holds on the books

A wallet keeps its extra reserve inside `consumed`, a subscription keeps it in `extraReserved` and
its pre-consume in the record of the request.
-/

namespace NewApi.Service

open Fallible

namespace BillingSession

def fundingHold (s : BillingSession) : ℤ :=
  match s.funding with
  | .wallet f => if s.fundingRefunded then 0 else f.consumed
  | .subscription f =>
    (if s.fundingRefunded then 0 else f.preConsumed) +
      (if s.extraRefunded then 0 else s.extraReserved)

def tokenHold (s : BillingSession) : ℤ :=
  if s.relayInfo.isPlayground || s.tokenRefunded then 0 else s.tokenConsumed

def SourceAccounted (b : Books) (s : BillingSession) : FundingSource → Prop
  | .wallet f => 0 ≤ f.consumed ∧ f.consumed ≤ s.tokenConsumed + s.extraReserved
  | .subscription f =>
    0 < f.preConsumed ∧ b.record f.requestId = some ⟨f.preConsumed, s.fundingRefunded⟩ ∧
      s.relayInfo.subscriptionId = f.subscriptionId ∧
      (0 < s.extraReserved → 0 < f.subscriptionId)

structure Accounted (b₀ b : Books) (playground : Bool) (s : BillingSession) : Prop where
  funding : b.funding = b₀.funding + s.fundingHold
  token : b.token = b₀.token - s.tokenHold
  playground : s.relayInfo.isPlayground = playground
  notSettled : s.settled = false
  notCommitted : s.fundingSettled = false
  tokenConsumed : 0 ≤ s.tokenConsumed
  extraReserved : 0 ≤ s.extraReserved
  unresolvedFunding : 0 ≤ s.unresolvedFunding
  source : SourceAccounted b s s.funding
  refunded : s.refunded = true → s.fundingHold = 0 ∧ s.tokenHold = 0

structure Untouched (s : BillingSession) : Prop where
  refunded : s.refunded = false
  fundingRefunded : s.fundingRefunded = false
  extraRefunded : s.extraRefunded = false
  tokenRefunded : s.tokenRefunded = false

def Reconciled (s : BillingSession) : Prop :=
  s.preConsumedQuota + s.unresolvedFunding = s.fundingHold

theorem remainingHolds_of_accounted {b₀ b : Books} {p : Bool} {s : BillingSession}
    (h : Accounted b₀ b p s) : s.remainingHolds = (s.fundingHold, s.tokenHold) := by
  by_cases href : s.refunded = true
  · obtain ⟨hf, ht⟩ := h.refunded href
    simp [remainingHolds, href, hf, ht]
  · have hopen : (s.settled || s.refunded) = false := by
      simp [h.notSettled, href]
    have htoken : (if s.relayInfo.isPlayground = false ∧ 0 < s.tokenConsumed ∧
        s.tokenRefunded = false then s.tokenConsumed else 0) = s.tokenHold := by
      have := h.tokenConsumed
      unfold tokenHold
      cases s.relayInfo.isPlayground <;> cases s.tokenRefunded <;> simp
      omega
    have hextra : (if 0 < s.extraReserved ∧ s.extraRefunded = false then s.extraReserved else 0) =
        if s.extraRefunded then 0 else s.extraReserved := by
      have := h.extraReserved
      cases s.extraRefunded <;> simp
      omega
    unfold remainingHolds fundingHold
    rw [hopen, htoken, hextra]
    cases s.funding <;> rfl

theorem debits_of_accounted {b₀ b : Books} {p : Bool} {s : BillingSession}
    (h : Accounted b₀ b p s) :
    Books.fundingDebit b₀ b = s.fundingHold ∧ Books.tokenDebit b₀ b = s.tokenHold := by
  have hf := h.funding
  have ht := h.token
  rw [Books.fundingDebit_eq]
  unfold Books.tokenDebit
  constructor <;> omega

section

variable (s : BillingSession)

theorem syncRelayInfo_eq : s.syncRelayInfo = { s with relayInfo := s.syncRelayInfo.relayInfo } := by
  unfold syncRelayInfo
  split <;> rfl

@[simp] theorem syncRelayInfo_isPlayground :
    s.syncRelayInfo.relayInfo.isPlayground = s.relayInfo.isPlayground := by
  unfold syncRelayInfo
  split <;> rfl

@[simp] theorem syncRelayInfo_fundingHold : s.syncRelayInfo.fundingHold = s.fundingHold := by
  rw [syncRelayInfo_eq]; rfl

@[simp] theorem syncRelayInfo_tokenHold : s.syncRelayInfo.tokenHold = s.tokenHold := by
  rw [syncRelayInfo_eq]
  simp [tokenHold]

def SourceReady (b : Books) (s : BillingSession) : FundingSource → Prop
  | .wallet f => 0 ≤ f.consumed ∧ f.consumed ≤ s.tokenConsumed + s.extraReserved
  | .subscription f =>
    0 < f.preConsumed ∧ b.record f.requestId = some ⟨f.preConsumed, s.fundingRefunded⟩ ∧
      (0 < s.extraReserved → 0 < f.subscriptionId)

variable {s}

theorem sourceReady_of_accounted {b₀ b : Books} {p : Bool} (h : Accounted b₀ b p s) :
    SourceReady b s s.funding := by
  have hs := h.source
  cases hf : s.funding with
  | wallet f =>
    rw [hf] at hs
    exact hs
  | subscription f =>
    rw [hf] at hs
    exact ⟨hs.1, hs.2.1, hs.2.2.2⟩

theorem sourceAccounted_sync {b : Books} (h : SourceReady b s s.funding) :
    SourceAccounted b s.syncRelayInfo s.syncRelayInfo.funding := by
  have hf : s.syncRelayInfo.funding = s.funding := by rw [syncRelayInfo_eq]
  rw [hf]
  cases hsrc : s.funding with
  | wallet f =>
    rw [hsrc] at h
    rw [syncRelayInfo_eq]
    exact h
  | subscription f =>
    rw [hsrc] at h
    refine ⟨h.1, ?_, by rw [syncRelayInfo, hsrc], ?_⟩
    · rw [syncRelayInfo_eq]
      exact h.2.1
    · rw [syncRelayInfo_eq]
      exact h.2.2

theorem accounted_sync {b₀ b : Books} {p : Bool}
    (hfunding : b.funding = b₀.funding + s.fundingHold) (htoken : b.token = b₀.token - s.tokenHold)
    (hp : s.relayInfo.isPlayground = p) (hset : s.settled = false) (hcom : s.fundingSettled = false)
    (htc : 0 ≤ s.tokenConsumed) (hex : 0 ≤ s.extraReserved) (hun : 0 ≤ s.unresolvedFunding)
    (hsrc : SourceReady b s s.funding) (href : s.refunded = false) :
    Accounted b₀ b p s.syncRelayInfo where
  funding := by rw [syncRelayInfo_fundingHold]; exact hfunding
  token := by rw [syncRelayInfo_tokenHold]; exact htoken
  playground := by rw [syncRelayInfo_isPlayground]; exact hp
  notSettled := by rw [syncRelayInfo_eq]; exact hset
  notCommitted := by rw [syncRelayInfo_eq]; exact hcom
  tokenConsumed := by rw [syncRelayInfo_eq]; exact htc
  extraReserved := by rw [syncRelayInfo_eq]; exact hex
  unresolvedFunding := by rw [syncRelayInfo_eq]; exact hun
  source := sourceAccounted_sync hsrc
  refunded := by
    rw [syncRelayInfo_eq]
    intro h
    exact absurd (href.symm.trans h) (by simp)

theorem untouched_sync (h : Untouched s) : Untouched s.syncRelayInfo := by
  rw [syncRelayInfo_eq]
  exact ⟨h.refunded, h.fundingRefunded, h.extraRefunded, h.tokenRefunded⟩

theorem reconciled_sync (h : Reconciled s) : Reconciled s.syncRelayInfo := by
  unfold Reconciled
  rw [syncRelayInfo_eq]
  exact h

end

end BillingSession

theorem Ledger.restoring {W : Type} (L : Ledger W) : Restoring L.toBillingModel L.books where
  getUserQuota := L.getUserQuota_frame
  hasActive := L.hasActiveUserSubscription_frame
  allowOverflow := L.userActiveSubscriptionsAllowWalletOverflow_frame
  planInfo := L.getSubscriptionPlanInfo_frame
  reserveUser := fun _ _ _ _ _ h => (L.reserveUser_shifts _ _).error h
  reserveToken := fun _ _ _ _ _ _ _ h => (L.reserveToken_shifts _ _ _ _).error h
  preConsumeSubscription := fun _ _ _ _ _ _ _ h => (L.preConsumeSubscription_atomic _ _ _ _).error h
  rollback := by
    intro t k q u w w₁ w₂ w₃ h₁ hview h₃
    have e₁ := (L.reserveToken_shifts _ _ _ _).ok h₁
    have e₃ := (L.refundToken_shifts _ _ _).ok h₃
    rw [e₃, hview, e₁]
    simp [Books.debitToken]

section

variable {W : Type} {L : Ledger W} {c : Context} {q : ℤ} {info : RelayInfo} {s : BillingSession}
  {w w' : W}

theorem tokenLeg_moved {e : ℤ} (src : FundingSource) (trusted : Bool)
    (h : BillingSession.TokenLeg L.toBillingModel info e w w') :
    Books.Moved 0 (BillingSession.opened info src trusted e).tokenHold (L.books w) (L.books w') := by
  unfold BillingSession.tokenHold BillingSession.opened
  rcases h with ⟨rfl, he | hp⟩ | ⟨hpos, hp, hres⟩
  · have hneg : ¬ 0 < e := by omega
    simp only [if_neg hneg, ite_self]
    exact Books.Moved.refl _
  · simp only [hp, Bool.true_or]
    exact Books.Moved.refl _
  · simp only [hp, Bool.or_self, Bool.false_eq_true, if_pos hpos]
    exact .debitToken ((L.reserveToken_shifts _ _ _ _).ok hres)

theorem opened_accounted {e : ℤ} {src : FundingSource} {trusted : Bool} {b b₁ b₂ : Books}
    (htok : Books.Moved 0 (BillingSession.opened info src trusted e).tokenHold b b₁)
    (hfund : b₂.funding = b₁.funding + (BillingSession.opened info src trusted e).fundingHold)
    (htok₂ : b₂.token = b₁.token)
    (hsrc : (BillingSession.opened info src trusted e).SourceReady b₂ src) :
    (BillingSession.opened info src trusted e).syncRelayInfo.Accounted b b₂ info.isPlayground ∧
      (BillingSession.opened info src trusted e).syncRelayInfo.Untouched := by
  have h₁ := htok.funding
  have h₂ := htok.token
  have htc : 0 ≤ (BillingSession.opened info src trusted e).tokenConsumed := by
    unfold BillingSession.opened
    simp only
    split <;> omega
  constructor
  · exact BillingSession.accounted_sync (by omega) (by omega) rfl rfl rfl htc (Int.le_refl 0)
      (Int.le_refl 0) hsrc rfl
  · exact BillingSession.untouched_sync ⟨rfl, rfl, rfl, rfl⟩

theorem tryWallet_accounted (h : tryWallet L.toBillingModel c q info w = (.ok s, w')) :
    s.Accounted (L.books w) (L.books w') info.isPlayground ∧ s.Untouched ∧
      (0 ≤ q ∨ s.trusted = true → s.Reconciled) ∧ s.funding.source = .wallet := by
  obtain ⟨userQuota, w₀, hread, -, -, hpre⟩ := tryWallet_ok h
  obtain ⟨w₁, src, htok, hsrc, rfl⟩ := BillingSession.preConsume_ok rfl hpre
  have hmoved := tokenLeg_moved src ((walletSession info userQuota).shouldTrust c) htok
  have heff : 0 ≤ q ∨ (walletSession info userQuota).shouldTrust c = true →
      0 ≤ (walletSession info userQuota).effectiveQuota c q := by
    unfold BillingSession.effectiveQuota
    split
    · simp
    · next ht => simp [ht]
  rw [(L.getUserQuota_frame _).of_eq hread] at hmoved
  generalize (walletSession info userQuota).effectiveQuota c q = e at *
  generalize (walletSession info userQuota).shouldTrust c = trusted at *
  have htrusted (s' : BillingSession) : s'.syncRelayInfo.trusted = s'.trusted := by
    rw [BillingSession.syncRelayInfo_eq]
  rcases FundingSource.preConsume_wallet_ok hsrc with ⟨he, rfl, rfl⟩ | ⟨he, rfl, hres⟩
  · have hneg : ¬ 0 < e := by omega
    have hready : (BillingSession.opened (walletSession info userQuota).relayInfo
        (.wallet ⟨info.userId, 0⟩) trusted e).SourceReady (L.books w') (.wallet ⟨info.userId, 0⟩) := by
      simp [BillingSession.SourceReady, BillingSession.opened, hneg]
    obtain ⟨hacc, hun⟩ := opened_accounted hmoved (Int.add_zero _).symm rfl hready
    refine ⟨hacc, hun, fun hq => BillingSession.reconciled_sync ?_, rfl⟩
    have h0 := heff hq
    change e + 0 = 0
    omega
  · have hfund := Books.Moved.debitWallet ((L.reserveUser_shifts _ _).ok hres)
    have hready : (BillingSession.opened (walletSession info userQuota).relayInfo
        (.wallet ⟨info.userId, e⟩) trusted e).SourceReady (L.books w') (.wallet ⟨info.userId, e⟩) := by
      simp only [BillingSession.SourceReady, BillingSession.opened]
      omega
    obtain ⟨hacc, hun⟩ := opened_accounted hmoved hfund.funding
      (by rw [hfund.token]; omega) hready
    exact ⟨hacc, hun, fun _ => BillingSession.reconciled_sync (Int.add_zero e), rfl⟩

theorem trySubscription_accounted (hfresh : (L.books w).record info.requestId = none)
    (h : trySubscription L.toBillingModel c q info w = (.ok s, w')) :
    s.Accounted (L.books w) (L.books w') info.isPlayground ∧ s.Untouched ∧ s.Reconciled := by
  obtain ⟨w₁, src, htok, hsrc, rfl⟩ := BillingSession.preConsume_ok rfl (trySubscription_ok h)
  have hmoved := tokenLeg_moved src ((subscriptionSession info q).shouldTrust c) htok
  rw [subscriptionSession_effectiveQuota] at hsrc hmoved ⊢
  rw [subscriptionSession_shouldTrust] at hmoved ⊢
  obtain ⟨res, w₂, f, hpre, hview, rfl, hid, -, hf⟩ :=
    FundingSource.preConsume_subscription_ok L.restoring hsrc
  have hlaw := (L.preConsumeSubscription_atomic _ _ _ _).ok hpre
  rw [hmoved.record, ← hview] at hlaw
  obtain ⟨hamount, hbooks⟩ := hlaw hfresh
  rw [hamount] at hf
  have hready : (BillingSession.opened (subscriptionSession info q).relayInfo (.subscription f)
      false (subConsume q)).SourceReady (L.books w') (.subscription f) := by
    refine ⟨hf ▸ subConsume_pos q, ?_, fun h => absurd h (by simp [BillingSession.opened])⟩
    rw [hbooks, hid, hf]
    exact Books.setRecord_record_self _ _ _
  have hhold : (BillingSession.opened (subscriptionSession info q).relayInfo (.subscription f)
      false (subConsume q)).fundingHold = subConsume q := by
    simp [BillingSession.fundingHold, BillingSession.opened, hf]
  obtain ⟨hacc, hun⟩ := opened_accounted hmoved (by rw [hbooks, hhold]; simp)
    (by rw [hbooks]; simp) hready
  refine ⟨hacc, hun, BillingSession.reconciled_sync ?_⟩
  rw [BillingSession.Reconciled, hhold]
  exact Int.add_zero _

theorem newBillingSession_accounted (hfresh : (L.books w).record info.requestId = none)
    (h : newBillingSession L.toBillingModel c info q w = (.ok s, w')) :
    s.Accounted (L.books w) (L.books w') info.isPlayground ∧ s.Untouched ∧
      (0 ≤ q ∨ s.funding.source = .subscription ∨ s.trusted = true → s.Reconciled) := by
  obtain ⟨info₁, w₁, ⟨hsame, hview⟩, hw | hs⟩ := newBillingSession_ok L.restoring h
  · obtain ⟨hacc, hun, hrec, hwallet⟩ := tryWallet_accounted hw
    rw [hview, hsame.2.2.2.2.1] at hacc
    refine ⟨hacc, hun, ?_⟩
    rintro (hq | hsub | ht)
    · exact hrec (.inl hq)
    · rw [hwallet] at hsub
      cases hsub
    · exact hrec (.inr ht)
  · rw [← hview, ← hsame.2.2.2.2.2.2.1] at hfresh
    obtain ⟨hacc, hun, hrec⟩ := trySubscription_accounted hfresh hs
    rw [hview, hsame.2.2.2.2.1] at hacc
    exact ⟨hacc, hun, fun _ => hrec⟩

end

end NewApi.Service
