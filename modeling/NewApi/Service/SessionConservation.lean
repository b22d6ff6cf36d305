import NewApi.Service.SessionHolds

/-!
# A billing session conserves money

Each call of the session keeps the books in step with its status fields, whatever underlying writes
fail.
-/

namespace NewApi.Service

open Fallible

namespace BillingSession

variable {W : Type} {L : Ledger W} {b₀ b b' : Books} {p : Bool} {s : BillingSession} {w : W}

def bumped (s : BillingSession) (info : RelayInfo) (δ t u : ℤ) (err : Option GoError) :
    BillingSession :=
  { s with
    relayInfo := info
    funding := heldMore δ s.funding
    extraReserved := s.extraReserved + δ
    preConsumedQuota := s.preConsumedQuota + t
    tokenConsumed := s.tokenConsumed + t
    unresolvedFunding := s.unresolvedFunding + u
    reserveErr := err }

theorem bumped_fundingHold (hun : Untouched s) (info : RelayInfo) (δ t u : ℤ)
    (err : Option GoError) : (s.bumped info δ t u err).fundingHold = s.fundingHold + δ := by
  have hf := hun.fundingRefunded
  have he := hun.extraRefunded
  cases hsrc : s.funding with
  | wallet f => simp [fundingHold, bumped, heldMore, hsrc, hf]
  | subscription f =>
    simp [fundingHold, bumped, heldMore, hsrc, he]
    omega

theorem bumped_sourceReady (h : Accounted b₀ b p s) (hsrc : validSource s.funding)
    (hrec : b'.record = b.record) (info : RelayInfo) {δ t : ℤ} (u : ℤ) (err : Option GoError)
    (hδ : 0 ≤ δ) (ht : 0 ≤ t) :
    SourceReady b' (s.bumped info δ t u err) (s.bumped info δ t u err).funding := by
  have hready := sourceReady_of_accounted h
  cases hfund : s.funding with
  | wallet f =>
    rw [hfund] at hready
    obtain ⟨h0, hle⟩ := hready
    simp only [SourceReady, bumped, heldMore, hfund]
    constructor <;> omega
  | subscription f =>
    rw [hfund] at hready hsrc
    obtain ⟨hpos, hr, -⟩ := hready
    simp only [bumped, hfund]
    exact ⟨hpos, hrec ▸ hr, fun _ => hsrc⟩

theorem bumped_accounted (h : Accounted b₀ b p s) (hun : Untouched s)
    (hsrc : validSource s.funding) {info : RelayInfo} (hinfo : info.isPlayground = p)
    {δ t u : ℤ} (err : Option GoError) (hδ : 0 ≤ δ) (ht : 0 ≤ t) (hu : 0 ≤ u)
    (hm : Books.Moved δ (if p then 0 else t) b b') :
    Accounted b₀ b' p (s.bumped info δ t u err).syncRelayInfo ∧
      Untouched (s.bumped info δ t u err).syncRelayInfo ∧
      (t + u = δ → Reconciled s → Reconciled (s.bumped info δ t u err).syncRelayInfo) := by
  have hhold := bumped_fundingHold hun info δ t u err
  have htoken : (s.bumped info δ t u err).tokenHold = s.tokenHold + if p then 0 else t := by
    have hp := h.playground
    have htr := hun.tokenRefunded
    cases p <;> simp [tokenHold, bumped, hinfo, hp, htr]
  have hf := h.funding
  have hk := h.token
  have hmf := hm.funding
  have hmt := hm.token
  refine ⟨?_, ?_, ?_⟩
  · have htc := h.tokenConsumed
    have hex := h.extraReserved
    have huf := h.unresolvedFunding
    refine accounted_sync (by omega) (by omega) hinfo h.notSettled h.notCommitted ?_ ?_ ?_
      (bumped_sourceReady h hsrc hm.record info u err hδ ht) hun.refunded
    · change 0 ≤ s.tokenConsumed + t
      omega
    · change 0 ≤ s.extraReserved + δ
      omega
    · change 0 ≤ s.unresolvedFunding + u
      omega
  · exact untouched_sync ⟨hun.refunded, hun.fundingRefunded, hun.extraRefunded, hun.tokenRefunded⟩
  · intro htu hr
    apply reconciled_sync
    unfold Reconciled at hr ⊢
    change s.preConsumedQuota + t + (s.unresolvedFunding + u) = _
    omega

theorem heldMore_heldMore (δ ε : ℤ) (src : FundingSource) :
    heldMore ε (heldMore δ src) = heldMore (δ + ε) src := by
  cases src with
  | wallet f => simp [heldMore, Int.add_assoc]
  | subscription f => rfl

inductive Reserved (m : BillingModel W) (s : BillingSession) (δ : ℤ) (w : W) :
    BillingSession × W → Prop
  | skipped : Reserved m s δ w (s, w)
  | refused (e w₁) (hf : s.reserveFunding m δ w = (.error e, w₁)) : Reserved m s δ w (s, w₁)
  | granted (src w₁ w₂) (hδ : 0 < δ) (hf : s.reserveFunding m δ w = (.ok src, w₁))
      (ht : (s.fundingReserved src δ).reserveToken m δ w₁ = (.ok (), w₂)) :
      Reserved m s δ w ((s.fundingReserved src δ).reserveGranted δ, w₂)
  | rolledBack (src src' e w₁ w₂ w₃) (hδ : 0 < δ) (hf : s.reserveFunding m δ w = (.ok src, w₁))
      (ht : (s.fundingReserved src δ).reserveToken m δ w₁ = (.error e, w₂))
      (hr : (s.fundingReserved src δ).rollbackFundingReserve m δ w₂ = (.ok src', w₃)) :
      Reserved m s δ w ((s.fundingReserved src δ).reserveRolledBack src' δ, w₃)
  | unresolved (src e re err w₁ w₂ w₃) (hδ : 0 < δ)
      (hf : s.reserveFunding m δ w = (.ok src, w₁))
      (ht : (s.fundingReserved src δ).reserveToken m δ w₁ = (.error e, w₂))
      (hr : (s.fundingReserved src δ).rollbackFundingReserve m δ w₂ = (.error re, w₃)) :
      Reserved m s δ w ((s.fundingReserved src δ).reserveUnresolved δ err, w₃)

theorem reserve_cases (m : BillingModel W) (s : BillingSession) (n : ℤ) (w : W) :
    Reserved m s (n - s.preConsumedQuota) w (s.reserve m n w).2 := by
  unfold reserve
  split
  · exact .skipped
  split
  · exact .skipped
  rename_i hskip
  have hδ : 0 < n - s.preConsumedQuota := by
    have : ¬ n ≤ s.preConsumedQuota := by
      intro hn
      simp [hn] at hskip
    omega
  simp only
  generalize n - s.preConsumedQuota = δ at *
  rcases hf : s.reserveFunding m δ w with ⟨e | src, w₁⟩
  · exact .refused e w₁ hf
  simp only
  rcases ht : (s.fundingReserved src δ).reserveToken m δ w₁ with ⟨e | _, w₂⟩
  · simp only
    rcases hr : (s.fundingReserved src δ).rollbackFundingReserve m δ w₂ with ⟨re | src', w₃⟩
    · exact .unresolved src e re _ w₁ w₂ w₃ hδ hf ht hr
    · exact .rolledBack src src' e w₁ w₂ w₃ hδ hf ht hr
  · exact .granted src w₁ w₂ hδ hf ht

theorem fundingReserved_eq (s : BillingSession) (src : FundingSource) (δ : ℤ) :
    s.fundingReserved src δ = { s with
      relayInfo := (s.fundingReserved src δ).relayInfo
      funding := src
      extraReserved := s.extraReserved + δ } := by
  unfold fundingReserved
  rw [syncRelayInfo_eq]

theorem reserveGranted_eq (s : BillingSession) (δ : ℤ) :
    (s.fundingReserved (heldMore δ s.funding) δ).reserveGranted δ =
      (s.bumped (s.fundingReserved (heldMore δ s.funding) δ).relayInfo δ δ 0
        s.reserveErr).syncRelayInfo := by
  unfold reserveGranted bumped
  rw [fundingReserved_eq]
  simp

theorem reserveRolledBack_eq (s : BillingSession) (δ : ℤ) :
    (s.fundingReserved (heldMore δ s.funding) δ).reserveRolledBack
        (heldMore (-δ) (heldMore δ s.funding)) δ =
      (s.bumped (s.fundingReserved (heldMore δ s.funding) δ).relayInfo 0 0 0
        s.reserveErr).syncRelayInfo := by
  have hextra : s.extraReserved + δ - δ = s.extraReserved := by omega
  unfold reserveRolledBack bumped
  rw [fundingReserved_eq, heldMore_heldMore]
  simp

theorem reserveUnresolved_eq (s : BillingSession) (δ : ℤ) (err : Option GoError) :
    (s.fundingReserved (heldMore δ s.funding) δ).reserveUnresolved δ err =
      (s.bumped (s.fundingReserved (heldMore δ s.funding) δ).relayInfo δ 0 δ
        err).syncRelayInfo := by
  unfold reserveUnresolved bumped
  rw [fundingReserved_eq]
  simp

theorem reserve_accounted (h : Accounted b₀ (L.books w) p s) (hun : Untouched s) (n : ℤ) :
    Accounted b₀ (L.books (s.reserve L.toBillingModel n w).2.2) p
        (s.reserve L.toBillingModel n w).2.1 ∧
      Untouched (s.reserve L.toBillingModel n w).2.1 ∧
      (Reconciled s → Reconciled (s.reserve L.toBillingModel n w).2.1) := by
  have hcases := reserve_cases L.toBillingModel s n w
  generalize (s.reserve L.toBillingModel n w).2 = r at *
  generalize n - s.preConsumedQuota = δ at *
  have hinfo (src : FundingSource) : (s.fundingReserved src δ).relayInfo.isPlayground = p :=
    (syncRelayInfo_isPlayground _).trans h.playground
  cases hcases with
  | skipped => exact ⟨h, hun, id⟩
  | refused e w₁ hf =>
    rw [← (s.reserveFunding_atomic L δ).error hf] at h
    exact ⟨h, hun, id⟩
  | granted src w₁ w₂ hδ hf ht =>
    obtain ⟨rfl, hsrc, hm⟩ := (s.reserveFunding_atomic L δ).ok hf
    have hmt := (reserveToken_atomic L _ δ hδ).ok ht
    rw [hinfo] at hmt
    have hboth := hm.trans hmt
    rw [Int.add_zero, Int.zero_add] at hboth
    rw [reserveGranted_eq]
    obtain ⟨hacc, hun', hrec⟩ :=
      bumped_accounted h hun hsrc (hinfo _) s.reserveErr (Int.le_of_lt hδ) (Int.le_of_lt hδ) (Int.le_refl 0) hboth
    exact ⟨hacc, hun', hrec (Int.add_zero δ)⟩
  | rolledBack src src' e w₁ w₂ w₃ hδ hf ht hr =>
    obtain ⟨rfl, hsrc, hm⟩ := (s.reserveFunding_atomic L δ).ok hf
    have hmt := (reserveToken_atomic L _ δ hδ).error ht
    obtain ⟨hsrc', hmr⟩ := (rollbackFundingReserve_atomic L _ δ).ok hr
    rw [fundingReserved_eq] at hsrc'
    subst hsrc'
    rw [hmt] at hmr
    have hboth := hm.trans hmr
    rw [reserveRolledBack_eq]
    obtain ⟨hacc, hun', hrec⟩ :=
      bumped_accounted h hun hsrc (hinfo _) s.reserveErr (Int.le_refl 0) (Int.le_refl 0)
        (Int.le_refl 0) (by simpa using hboth)
    exact ⟨hacc, hun', hrec rfl⟩
  | unresolved src e re err w₁ w₂ w₃ hδ hf ht hr =>
    obtain ⟨rfl, hsrc, hm⟩ := (s.reserveFunding_atomic L δ).ok hf
    have hmt := (reserveToken_atomic L _ δ hδ).error ht
    have hmr := (rollbackFundingReserve_atomic L _ δ).error hr
    rw [← hmt, ← hmr] at hm
    rw [reserveUnresolved_eq]
    obtain ⟨hacc, hun', hrec⟩ :=
      bumped_accounted h hun hsrc (hinfo _) err (Int.le_of_lt hδ) (Int.le_refl 0) (Int.le_of_lt hδ) (by simpa using hm)
    exact ⟨hacc, hun', hrec (Int.zero_add δ)⟩

theorem settle_moved (hset : s.settled = false) (hcom : s.fundingSettled = false) (q : ℤ) :
    ((s.settle L.toBillingModel q w).2.1 = s ∧
        L.books (s.settle L.toBillingModel q w).2.2 = L.books w) ∨
      (s.settle L.toBillingModel q w).2.1.settled = true ∧
        ∃ t, Books.Moved (q - (s.preConsumedQuota + s.unresolvedFunding)) t
            (L.books w) (L.books (s.settle L.toBillingModel q w).2.2) ∧
          (s.settleTokenErr L.toBillingModel q w = none →
            t = if s.relayInfo.isPlayground then 0 else q - s.tokenConsumed) := by
  unfold settle settleTokenErr
  rw [hset]
  simp only [Bool.false_eq_true, if_false]
  generalize hδ : q - (s.preConsumedQuota + s.unresolvedFunding) = δ
  rcases hf : s.settleFunding L.toBillingModel δ w with ⟨e | out, w₁⟩
  · exact .inl ⟨rfl, (s.settleFunding_atomic L δ).error hf⟩
  have hm := (s.settleFunding_atomic L δ).ok hf
  rw [hcom] at hm
  rcases ht : s.settleToken L.toBillingModel (q - s.tokenConsumed) w₁ with ⟨e | _, w₂⟩
  · have hmt := (s.settleToken_atomic L (q - s.tokenConsumed)).error ht
    refine .inr ⟨rfl, 0, ?_, ?_⟩
    · simp only [ht, hmt]
      exact hm
    · simp [ht, errOf]
  · have hmt := (s.settleToken_atomic L (q - s.tokenConsumed)).ok ht
    have hboth := hm.trans hmt
    rw [Int.add_zero, Int.zero_add] at hboth
    refine .inr ⟨rfl, _, ?_, fun _ => rfl⟩
    simp only [ht]
    exact hboth

theorem settle_accounted (h : Accounted b₀ (L.books w) p s) (hun : Untouched s) (q : ℤ) :
    ((s.settle L.toBillingModel q w).2.1 = s ∧
        L.books (s.settle L.toBillingModel q w).2.2 = L.books w) ∨
      (s.settle L.toBillingModel q w).2.1.settled = true ∧
        (Reconciled s →
          Books.fundingDebit b₀ (L.books (s.settle L.toBillingModel q w).2.2) = q) ∧
        (s.settleTokenErr L.toBillingModel q w = none →
          Books.tokenDebit b₀ (L.books (s.settle L.toBillingModel q w).2.2) =
            if p then 0 else q) := by
  rcases settle_moved h.notSettled h.notCommitted q with hsame | ⟨hset, t, hm, htok⟩
  · exact .inl hsame
  have hf := h.funding
  have ht := h.token
  have hmf := hm.funding
  have hmt := hm.token
  refine .inr ⟨hset, fun hrec => ?_, fun herr => ?_⟩
  · unfold Reconciled at hrec
    rw [Books.fundingDebit_eq]
    omega
  · unfold Books.tokenDebit
    unfold tokenHold at ht
    have ht' := htok herr
    rw [h.playground] at ht' ht
    rw [hun.tokenRefunded] at ht
    cases p <;> simp at ht' ht ⊢ <;> omega

def Refunding (b₀ b : Books) (p : Bool) (s : BillingSession) : Prop :=
  Accounted b₀ b p s ∧ s.refunded = false

theorem sourceAccounted_of_record {src : FundingSource} (hrec : b'.record = b.record)
    (h : SourceAccounted b s src) : SourceAccounted b' s src := by
  cases src with
  | wallet f => exact h
  | subscription f => exact ⟨h.1, hrec ▸ h.2.1, h.2.2⟩

def SourceReturned (b b' : Books) : FundingSource → Prop
  | .wallet f => b'.token = b.token ∧ b'.funding = b.funding - f.consumed
  | .subscription f => b'.token = b.token ∧ b'.funding = b.funding - f.preConsumed ∧
      b'.record f.requestId = some ⟨f.preConsumed, true⟩

theorem sourceRefund_returned (h : Accounted b₀ (L.books w) p s) (hflag : s.fundingRefunded = false) :
    Does L.books (fun _ b b' => SourceReturned b b' s.funding) w
      (s.funding.refund L.toBillingModel w) := by
  have hs := h.source
  cases hsrc : s.funding with
  | wallet f =>
    rw [hsrc] at hs
    have h0 := hs.1
    by_cases hzero : f.consumed ≤ 0
    · simp only [FundingSource.refund, if_pos hzero]
      refine Does.pure ⟨rfl, ?_⟩
      omega
    · simp only [FundingSource.refund, if_neg hzero]
      refine (L.refundUser_shifts _ _ w).imp fun _ b b' hb => ?_
      have hm := Books.Moved.debitWallet hb
      have hmf := hm.funding
      have hmt := hm.token
      exact ⟨by omega, by omega⟩
  | subscription f =>
    rw [hsrc] at hs
    obtain ⟨hpos, hrecord, -⟩ := hs
    rw [hflag] at hrecord
    have hneg : ¬ f.preConsumed ≤ 0 := by omega
    have hatomic := retryRefund_atomic L (L.refundPreConsume_atomic f.requestId) 2
    simp only [FundingSource.refund, if_neg hneg, refundWithRetry]
    rcases hr : retryRefund (L.refundSubscriptionPreConsume f.requestId) 2 w with ⟨_ | _, w'⟩
    · exact hatomic.error hr
    have hbooks := hatomic.ok hr f.preConsumed hrecord
    change SourceReturned (L.books w) (L.books w') (.subscription f)
    rw [hbooks]
    refine ⟨by simp, ?_, by simp⟩
    simp only [Books.setRecord_funding, Books.useSubscription_funding]
    omega

theorem fundingRefunded_accounted (h : Refunding b₀ b p s) (hflag : s.fundingRefunded = false)
    (hb : SourceReturned b b' s.funding) :
    Refunding b₀ b' p { s with fundingRefunded := true } := by
  obtain ⟨h, href⟩ := h
  have hf := h.funding
  have ht := h.token
  have hs := h.source
  have htoken : b'.token = b.token := by
    cases hsrc : s.funding with
    | wallet f | subscription f =>
      rw [hsrc] at hb
      exact hb.1
  refine ⟨⟨?_, htoken.trans ht, h.playground, h.notSettled, h.notCommitted, h.tokenConsumed,
    h.extraReserved, h.unresolvedFunding, ?_, fun hr => absurd (href.symm.trans hr) (by simp)⟩, href⟩
  · cases hsrc : s.funding with
    | wallet f =>
      rw [hsrc] at hb
      have := hb.2
      simp [fundingHold, hsrc, hflag] at hf ⊢
      omega
    | subscription f =>
      rw [hsrc] at hb
      have := hb.2.1
      simp [fundingHold, hsrc, hflag] at hf ⊢
      omega
  · cases hsrc : s.funding with
    | wallet f =>
      rw [hsrc] at hs
      exact hs
    | subscription f =>
      rw [hsrc] at hs hb
      exact ⟨hs.1, hb.2.2, hs.2.2⟩

theorem refundFunding_accounted (h : Refunding b₀ (L.books w) p s) :
    Does L.books (fun s' _ b' => Refunding b₀ b' p s' ∧ s'.fundingRefunded = true) w
      (s.refundFunding L.toBillingModel w) := by
  unfold refundFunding
  cases hflag : s.fundingRefunded with
  | true => exact ⟨h, hflag⟩
  | false =>
    simp only [Bool.false_eq_true]
    have hdoes := sourceRefund_returned h.1 hflag
    rcases hr : s.funding.refund L.toBillingModel w with ⟨e | _, w'⟩
    · rw [hr] at hdoes
      exact hdoes
    · rw [hr] at hdoes
      exact ⟨fundingRefunded_accounted h hflag hdoes, rfl⟩

theorem refundExtra_accounted (h : Refunding b₀ (L.books w) p s) (hflag : s.fundingRefunded = true) :
    Does L.books (fun s' _ b' => Refunding b₀ b' p s' ∧ s'.fundingHold = 0) w
      (s.refundExtra L.toBillingModel w) := by
  obtain ⟨hacc, href⟩ := h
  have hf := hacc.funding
  have hex := hacc.extraReserved
  have hs := hacc.source
  unfold refundExtra
  split
  · next hcond =>
    obtain ⟨hextra, hpos, hsub, hid⟩ := hcond
    rcases hr : L.postConsumeUserSubscriptionDelta s.relayInfo.subscriptionId
        (-s.extraReserved) w with ⟨e | _, w'⟩
    · exact (L.postConsumeSubscription_atomic _ _).error hr
    have hm := Books.Moved.useSubscription ((L.postConsumeSubscription_atomic _ _).ok hr).2
    have hmf := hm.funding
    have hmt := hm.token
    have ht := hacc.token
    have hhold : ({ s with extraRefunded := true } : BillingSession).fundingHold = 0 := by
      cases s.funding <;> simp [fundingHold, hflag]
    have hbefore : s.fundingHold = s.extraReserved := by
      cases hsrc : s.funding with
      | wallet f => simp [hsrc, FundingSource.source] at hsub
      | subscription f => simp [fundingHold, hsrc, hflag, hextra]
    refine ⟨⟨⟨?_, ?_, hacc.playground, hacc.notSettled, hacc.notCommitted, hacc.tokenConsumed,
      hacc.extraReserved, hacc.unresolvedFunding, ?_,
      fun hr => absurd (href.symm.trans hr) (by simp)⟩, href⟩, hhold⟩
    · omega
    · change _ = b₀.token - s.tokenHold
      omega
    · exact sourceAccounted_of_record hm.record hs
  · next hcond =>
    refine ⟨⟨hacc, href⟩, ?_⟩
    cases hsrc : s.funding with
    | wallet f => simp [fundingHold, hsrc, hflag]
    | subscription f =>
      rw [hsrc] at hs
      cases hextra : s.extraRefunded with
      | true => simp [fundingHold, hsrc, hflag, hextra]
      | false =>
        -- Only a reserve of zero is skipped: a positive one has a valid subscription id.
        by_cases hpos : 0 < s.extraReserved
        · exact absurd ⟨hextra, hpos, by rw [hsrc]; rfl, hs.2.2.1 ▸ hs.2.2.2 hpos⟩ hcond
        · simp [fundingHold, hsrc, hflag]
          omega

theorem refundToken_accounted (h : Refunding b₀ (L.books w) p s) (hzero : s.fundingHold = 0) :
    Does L.books (fun s' _ b' => Refunding b₀ b' p s' ∧ s'.fundingHold = 0 ∧ s'.tokenHold = 0) w
      (s.refundToken L.toBillingModel w) := by
  obtain ⟨hacc, href⟩ := h
  have hf := hacc.funding
  have ht := hacc.token
  have htc := hacc.tokenConsumed
  unfold refundToken
  split
  · next hcond =>
    obtain ⟨htok, hpos, hp⟩ := hcond
    rcases hr : L.refundTokenQuotaForBilling s.relayInfo.tokenId s.relayInfo.tokenKey
        s.tokenConsumed w with ⟨e | _, w'⟩
    · exact (L.refundToken_shifts _ _ _).error hr
    have hm := Books.Moved.debitToken ((L.refundToken_shifts _ _ _).ok hr)
    have hmf := hm.funding
    have hmt := hm.token
    have hhold : ({ s with tokenRefunded := true } : BillingSession).tokenHold = 0 := by
      simp [tokenHold]
    have hbefore : s.tokenHold = s.tokenConsumed := by
      simp [tokenHold, htok, hp]
    refine ⟨⟨⟨?_, ?_, hacc.playground, hacc.notSettled, hacc.notCommitted, hacc.tokenConsumed,
      hacc.extraReserved, hacc.unresolvedFunding, ?_,
      fun hr => absurd (href.symm.trans hr) (by simp)⟩, href⟩, hzero, hhold⟩
    · change _ = b₀.funding + s.fundingHold
      omega
    · omega
    · exact sourceAccounted_of_record hm.record hacc.source
  · next hcond =>
    refine ⟨⟨hacc, href⟩, hzero, ?_⟩
    unfold tokenHold
    cases hp : s.relayInfo.isPlayground <;> cases htok : s.tokenRefunded <;> simp
    have : ¬ 0 < s.tokenConsumed := fun hpos => hcond ⟨htok, hpos, hp⟩
    omega

theorem holds_of_not_needsRefund (h : Refunding b₀ b p s) (hneed : s.needsRefund = false) :
    s.fundingHold = 0 ∧ s.tokenHold = 0 := by
  obtain ⟨hacc, href⟩ := h
  have htc := hacc.tokenConsumed
  have hex := hacc.extraReserved
  have hs := hacc.source
  simp only [needsRefund, hacc.notSettled, href, hacc.notCommitted, Bool.or_self,
    Bool.false_eq_true, if_false] at hneed
  split at hneed
  · simp at hneed
  rename_i hzero
  have htoken : s.tokenHold = 0 := by
    unfold tokenHold
    split <;> omega
  refine ⟨?_, htoken⟩
  cases hsrc : s.funding with
  | wallet f =>
    rw [hsrc] at hs
    obtain ⟨h0, hle⟩ := hs
    simp only [fundingHold, hsrc]
    split <;> omega
  | subscription f =>
    rw [hsrc] at hs hneed
    simp [hs.1] at hneed

theorem refund_accounted (h : Accounted b₀ (L.books w) p s) :
    Accounted b₀ (L.books (s.refund L.toBillingModel w).2.2) p
        (s.refund L.toBillingModel w).2.1 ∧
      ((s.refund L.toBillingModel w).1 = none →
        (s.refund L.toBillingModel w).2.1.fundingHold = 0 ∧
        (s.refund L.toBillingModel w).2.1.tokenHold = 0) := by
  unfold refund
  cases href : s.refunded with
  | true =>
    simp only [Bool.or_true, Bool.true_or]
    exact ⟨h, fun _ => h.refunded href⟩
  | false =>
    cases hneed : s.needsRefund with
    | false =>
      simp only [Bool.not_false, Bool.or_true]
      exact ⟨h, fun _ => holds_of_not_needsRefund ⟨h, href⟩ hneed⟩
    | true =>
      simp only [h.notSettled, Bool.or_self, Bool.not_true, Bool.false_eq_true]
      have h₁ := refundFunding_accounted ⟨h, href⟩
      rcases hr₁ : s.refundFunding L.toBillingModel w with ⟨e | s₁, w₁⟩
      · rw [hr₁] at h₁
        rw [← h₁] at h
        exact ⟨h, fun hn => by cases hn⟩
      rw [hr₁] at h₁
      obtain ⟨hacc₁, hflag⟩ := h₁
      have h₂ := refundExtra_accounted hacc₁ hflag
      simp only
      rcases hr₂ : s₁.refundExtra L.toBillingModel w₁ with ⟨e | s₂, w₂⟩
      · rw [hr₂] at h₂
        have hacc := hacc₁.1
        rw [← h₂] at hacc
        exact ⟨hacc, fun hn => by cases hn⟩
      rw [hr₂] at h₂
      obtain ⟨hacc₂, hzero⟩ := h₂
      have h₃ := refundToken_accounted hacc₂ hzero
      simp only
      rcases hr₃ : s₂.refundToken L.toBillingModel w₂ with ⟨e | s₃, w₃⟩
      · rw [hr₃] at h₃
        have hacc := hacc₂.1
        rw [← h₃] at hacc
        exact ⟨hacc, fun hn => by cases hn⟩
      rw [hr₃] at h₃
      obtain ⟨⟨hacc₃, -⟩, hholds⟩ := h₃
      refine ⟨⟨hacc₃.funding, hacc₃.token, hacc₃.playground, hacc₃.notSettled,
        hacc₃.notCommitted, hacc₃.tokenConsumed, hacc₃.extraReserved, Int.le_refl 0,
        hacc₃.source, fun _ => hholds⟩, fun _ => hholds⟩

end BillingSession

end NewApi.Service
