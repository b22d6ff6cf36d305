import NewApi.Lib.Fallible
import NewApi.Service.NewBillingSession
import Mathlib.Algebra.Group.Int.Defs

/-!
# The two ledgers behind a billing session

`Books` is what the session's money looks like from outside.
-/

namespace NewApi.Service

open Fallible

/-- A row of `subscription_pre_consume_records`. -/
structure PreConsumeEntry where
  amount : ℤ
  refunded : Bool
  deriving DecidableEq, Repr

structure Books where
  wallet : ℤ
  subscription : ℤ
  token : ℤ
  record : Text → Option PreConsumeEntry

namespace Books

/-- What the funding side has taken, up to a constant: the used amount of the
subscriptions less the wallet balance. -/
def funding (b : Books) : ℤ := b.subscription - b.wallet

def debitWallet (q : ℤ) (b : Books) : Books := { b with wallet := b.wallet - q }

def debitToken (q : ℤ) (b : Books) : Books := { b with token := b.token - q }

def useSubscription (q : ℤ) (b : Books) : Books := { b with subscription := b.subscription + q }

def setRecord (requestId : Text) (e : PreConsumeEntry) (b : Books) : Books :=
  { b with record := fun r => if r = requestId then some e else b.record r }

def fundingDebit (b b' : Books) : ℤ := (b.wallet - b'.wallet) + (b'.subscription - b.subscription)

def tokenDebit (b b' : Books) : ℤ := b.token - b'.token

variable (b : Books) (q : ℤ) (r : Text) (e : PreConsumeEntry)

@[simp] theorem debitWallet_funding : (b.debitWallet q).funding = b.funding + q := by
  simp only [debitWallet, funding]; omega

@[simp] theorem debitWallet_token : (b.debitWallet q).token = b.token := rfl

@[simp] theorem debitWallet_record : (b.debitWallet q).record = b.record := rfl

@[simp] theorem debitToken_funding : (b.debitToken q).funding = b.funding := rfl

@[simp] theorem debitToken_token : (b.debitToken q).token = b.token - q := rfl

@[simp] theorem debitToken_record : (b.debitToken q).record = b.record := rfl

@[simp] theorem useSubscription_funding : (b.useSubscription q).funding = b.funding + q := by
  simp only [useSubscription, funding]; omega

@[simp] theorem useSubscription_token : (b.useSubscription q).token = b.token := rfl

@[simp] theorem useSubscription_record : (b.useSubscription q).record = b.record := rfl

@[simp] theorem setRecord_funding : (b.setRecord r e).funding = b.funding := rfl

@[simp] theorem setRecord_token : (b.setRecord r e).token = b.token := rfl

@[simp] theorem setRecord_record_self : (b.setRecord r e).record r = some e := by
  simp [setRecord]

structure Moved (f t : ℤ) (b b' : Books) : Prop where
  funding : b'.funding = b.funding + f
  token : b'.token = b.token - t
  record : b'.record = b.record

theorem Moved.refl (b : Books) : Moved 0 0 b b := ⟨by omega, by omega, rfl⟩

theorem Moved.trans {f g t u : ℤ} {b b' b'' : Books} (h : Moved f t b b') (h' : Moved g u b' b'') :
    Moved (f + g) (t + u) b b'' := by
  refine ⟨?_, ?_, h'.record.trans h.record⟩
  · have := h.funding
    have := h'.funding
    omega
  · have := h.token
    have := h'.token
    omega

theorem Moved.debitWallet {b b' : Books} {q : ℤ} (h : b' = b.debitWallet q) : Moved q 0 b b' := by
  subst h; exact ⟨by simp, by simp, by simp⟩

theorem Moved.useSubscription {b b' : Books} {q : ℤ} (h : b' = b.useSubscription q) :
    Moved q 0 b b' := by
  subst h; exact ⟨by simp, by simp, by simp⟩

theorem Moved.debitToken {b b' : Books} {q : ℤ} (h : b' = b.debitToken q) : Moved 0 q b b' := by
  subst h; exact ⟨by simp, by simp, by simp⟩

theorem fundingDebit_eq (b b' : Books) : fundingDebit b b' = b'.funding - b.funding := by
  simp only [fundingDebit, funding]; omega

end Books

/-- A billing model with exact writes. The reads and the log leave the books alone. -/
structure Ledger (W : Type) extends BillingModel W where
  books : W → Books
  getUserQuota_frame : ∀ u, Frame books (getUserQuota u)
  hasActiveUserSubscription_frame : ∀ u, Frame books (hasActiveUserSubscription u)
  userActiveSubscriptionsAllowWalletOverflow_frame :
    ∀ u, Frame books (userActiveSubscriptionsAllowWalletOverflow u)
  getSubscriptionPlanInfo_frame :
    ∀ i, Frame books (getSubscriptionPlanInfoByUserSubscriptionId i)
  recordConsumeLog_frame : ∀ l, Frame books (recordConsumeLog l)
  reserveUser_shifts : ∀ u q, Shifts books (Books.debitWallet q) (reserveUserQuotaForBilling u q)
  debitUser_shifts : ∀ u q, Shifts books (Books.debitWallet q) (debitUserQuotaForBilling u q)
  refundUser_shifts : ∀ u q, Shifts books (Books.debitWallet (-q)) (refundUserQuotaForBilling u q)
  reserveToken_shifts : ∀ t k q u,
    Shifts books (Books.debitToken q) (reserveTokenQuotaForBilling t k q u)
  debitToken_shifts : ∀ t k q,
    Shifts books (Books.debitToken q) (debitTokenQuotaForBilling t k q)
  refundToken_shifts : ∀ t k q,
    Shifts books (Books.debitToken (-q)) (refundTokenQuotaForBilling t k q)
  preConsumeSubscription_atomic : ∀ r u n amount,
    Atomic books (fun res b b' => b.record r = none → res.preConsumed = amount ∧
      b' = (b.useSubscription amount).setRecord r ⟨amount, false⟩)
      (preConsumeUserSubscription r u n amount)
  postConsumeSubscription_atomic : ∀ i delta,
    Atomic books (fun _ b b' => 0 < i ∧ b' = b.useSubscription delta)
      (postConsumeUserSubscriptionDelta i delta)
  refundPreConsume_atomic : ∀ r,
    Atomic books (fun _ b b' => ∀ p, b.record r = some ⟨p, false⟩ →
      b' = (b.useSubscription (-p)).setRecord r ⟨p, true⟩)
      (refundSubscriptionPreConsume r)

variable {W : Type} (L : Ledger W)

theorem FundingSource.settle_atomic (src : FundingSource) (delta : ℤ) :
    Atomic L.books (fun _ => Books.Moved delta 0) (src.settle L.toBillingModel delta) := by
  intro w
  by_cases h0 : delta = 0
  · subst h0
    cases src with
    | wallet f | subscription f => exact Does.pure (Books.Moved.refl _)
  · cases src with
    | wallet f =>
      by_cases hpos : 0 < delta
      · simp only [FundingSource.settle, if_neg h0, if_pos hpos]
        exact (L.debitUser_shifts _ _ w).imp fun _ _ _ h => .debitWallet h
      · simp only [FundingSource.settle, if_neg h0, if_neg hpos]
        refine (L.refundUser_shifts _ _ w).imp fun _ _ _ h => .debitWallet ?_
        rwa [neg_neg] at h
    | subscription f =>
      simp only [FundingSource.settle, if_neg h0]
      exact (L.postConsumeSubscription_atomic _ _ w).imp fun _ _ _ h => .useSubscription h.2

namespace BillingSession

variable (s : BillingSession)

theorem settleFunding_atomic (delta : ℤ) :
    Atomic L.books (fun _ => Books.Moved (if s.fundingSettled then 0 else delta) 0)
      (s.settleFunding L.toBillingModel delta) := by
  intro w
  by_cases hskip : s.fundingSettled = true ∨ delta = 0
  · have hz : (if s.fundingSettled then 0 else delta) = 0 := by
      rcases hskip with h | h <;> simp [h]
    rw [hz]
    simp only [settleFunding, if_pos hskip]
    exact Does.pure (Books.Moved.refl _)
  · rw [if_neg fun hs => hskip (.inl hs)]
    simp only [settleFunding, if_neg hskip]
    rcases hf : s.funding.settle L.toBillingModel delta w with ⟨err | _, w1⟩
    · have h1 := (s.funding.settle_atomic L delta).error hf
      by_cases hpass : s.funding.source ≠ .subscription ∨ delta ≤ 0 ∨
          err.is .subscriptionQuotaExceeded = false
      · simp only [if_pos hpass]
        exact h1
      · simp only [if_neg hpass]
        rcases hd : L.debitUserQuotaForBilling s.relayInfo.userId delta w1 with ⟨_ | _, w2⟩
        · exact ((L.debitUser_shifts _ _).error hd).trans h1
        · have h2 := (L.debitUser_shifts _ _).ok hd
          rw [h1] at h2
          exact .debitWallet h2
    · exact (s.funding.settle_atomic L delta).ok hf

theorem settleToken_atomic (delta : ℤ) :
    Atomic L.books (fun _ => Books.Moved 0 (if s.relayInfo.isPlayground then 0 else delta))
      (s.settleToken L.toBillingModel delta) := by
  intro w
  by_cases hskip : s.relayInfo.isPlayground = true ∨ delta = 0
  · have hz : (if s.relayInfo.isPlayground then 0 else delta) = 0 := by
      rcases hskip with h | h <;> simp [h]
    rw [hz]
    simp only [settleToken, if_pos hskip]
    exact Does.pure (Books.Moved.refl _)
  · rw [if_neg fun hp => hskip (.inl hp)]
    by_cases hpos : 0 < delta
    · simp only [settleToken, if_neg hskip, if_pos hpos]
      exact (L.debitToken_shifts _ _ _ w).imp fun _ _ _ h => .debitToken h
    · simp only [settleToken, if_neg hskip, if_neg hpos]
      refine (L.refundToken_shifts _ _ _ w).imp fun _ _ _ h => .debitToken ?_
      rwa [neg_neg] at h

theorem preConsumeTokenQuota_atomic (info : RelayInfo) (quota : ℤ) :
    Atomic L.books (fun _ => Books.Moved 0 (if info.isPlayground then 0 else quota))
      (preConsumeTokenQuota L.toBillingModel info quota) := by
  intro w
  by_cases hneg : quota < 0
  · simp only [preConsumeTokenQuota, if_pos hneg]
    exact rfl
  · simp only [preConsumeTokenQuota, if_neg hneg]
    by_cases hp : info.isPlayground = true
    · simp only [if_pos hp]
      exact Does.pure (Books.Moved.refl _)
    · simp only [if_neg hp]
      exact (L.reserveToken_shifts _ _ _ _ w).imp fun _ _ _ h => .debitToken h

theorem reserveToken_atomic (delta : ℤ) (hpos : 0 < delta) :
    Atomic L.books (fun _ => Books.Moved 0 (if s.relayInfo.isPlayground then 0 else delta))
      (s.reserveToken L.toBillingModel delta) := by
  intro w
  by_cases hp : s.relayInfo.isPlayground = true
  · simp only [reserveToken, hp, or_true]
    exact Does.pure (Books.Moved.refl _)
  · have hskip : ¬ (delta ≤ 0 ∨ s.relayInfo.isPlayground = true) := by
      rintro (h | h)
      · omega
      · exact hp h
    simp only [reserveToken, if_neg hskip]
    rcases h : preConsumeTokenQuota L.toBillingModel s.relayInfo delta w with ⟨_ | _, w1⟩
    · exact (preConsumeTokenQuota_atomic L s.relayInfo delta).error h
    · exact (preConsumeTokenQuota_atomic L s.relayInfo delta).ok h

/-- The funding source of a session that holds `delta` more. A subscription keeps
the extra reserve in the session and not in the source. -/
def heldMore (delta : ℤ) : FundingSource → FundingSource
  | .wallet f => .wallet { f with consumed := f.consumed + delta }
  | .subscription f => .subscription f

def validSource : FundingSource → Prop
  | .wallet _ => True
  | .subscription f => 0 < f.subscriptionId

theorem reserveFunding_atomic (delta : ℤ) :
    Atomic L.books (fun src b b' => src = heldMore delta s.funding ∧ validSource s.funding ∧
        Books.Moved delta 0 b b')
      (s.reserveFunding L.toBillingModel delta) := by
  intro w
  unfold reserveFunding
  cases s.funding with
  | wallet f =>
    rcases h : L.reserveUserQuotaForBilling f.userId delta w with ⟨_ | _, w1⟩
    · simp only [h]
      exact (L.reserveUser_shifts _ _).error h
    · simp only [h]
      exact ⟨rfl, trivial, .debitWallet ((L.reserveUser_shifts _ _).ok h)⟩
  | subscription f =>
    rcases h : L.postConsumeUserSubscriptionDelta f.subscriptionId delta w with ⟨_ | _, w1⟩
    · simp only [h]
      exact (L.postConsumeSubscription_atomic _ _).error h
    · simp only [h]
      have hpost := (L.postConsumeSubscription_atomic _ _).ok h
      exact ⟨rfl, hpost.1, .useSubscription hpost.2⟩

theorem rollbackFundingReserve_atomic (delta : ℤ) :
    Atomic L.books (fun src b b' => src = heldMore (-delta) s.funding ∧
        Books.Moved (-delta) 0 b b')
      (s.rollbackFundingReserve L.toBillingModel delta) := by
  intro w
  unfold rollbackFundingReserve
  cases s.funding with
  | wallet f =>
    rcases h : L.refundUserQuotaForBilling f.userId delta w with ⟨_ | _, w1⟩
    · simp only [h]
      exact (L.refundUser_shifts _ _).error h
    · simp only [h]
      exact ⟨rfl, .debitWallet ((L.refundUser_shifts _ _).ok h)⟩
  | subscription f =>
    rcases h : L.postConsumeUserSubscriptionDelta f.subscriptionId (-delta) w with ⟨_ | _, w1⟩
    · simp only [h]
      exact (L.postConsumeSubscription_atomic _ _).error h
    · simp only [h]
      exact ⟨rfl, .useSubscription ((L.postConsumeSubscription_atomic _ _).ok h).2⟩

end BillingSession

theorem retryRefund_atomic {R : Books → Books → Prop} {fn : Call W Unit}
    (h : Atomic L.books (fun _ => R) fn) (n : ℕ) :
    Atomic L.books (fun _ => R) (retryRefund fn n) := by
  induction n with
  | zero => exact h
  | succ n ih =>
    intro w
    rcases hf : fn w with ⟨_ | _, w1⟩
    · have h1 := h.error hf
      simp only [retryRefund, hf]
      rcases hr : retryRefund fn n w1 with ⟨_ | _, w2⟩
      · exact (ih.error hr).trans h1
      · have hok := ih.ok hr
        rwa [h1] at hok
    · simp only [retryRefund, hf]
      exact h.ok hf

structure BookWorld where
  books : Books
  faults : List Bool

namespace BookWorld

def write {α : Type} (err : GoError) (a : α) (δ : Books → Books) : Call BookWorld α := fun w =>
  match w.faults with
  | true :: rest => (.error err, { w with faults := rest })
  | false :: rest => (.ok a, ⟨δ w.books, rest⟩)
  | [] => (.ok a, ⟨δ w.books, []⟩)

theorem write_shifts {α : Type} (err : GoError) (a : α) (δ : Books → Books) :
    Shifts BookWorld.books δ (write err a δ) := by
  rintro ⟨b, faults⟩
  rcases faults with _ | ⟨_ | _, rest⟩ <;> rfl

def failed : GoError := GoError.new "database is down".toList

/-- The model whose writes follow the script. An exhausted subscription reports the
quota sentinel, so that a scripted fault on it passes the overage to the wallet. -/
def model : BillingModel BookWorld where
  getUserQuota _ w := (.ok w.books.wallet, w)
  hasActiveUserSubscription _ w := (.ok true, w)
  userActiveSubscriptionsAllowWalletOverflow _ w := (.ok true, w)
  reserveUserQuotaForBilling _ q := write failed () (Books.debitWallet q)
  debitUserQuotaForBilling _ q := write failed () (Books.debitWallet q)
  refundUserQuotaForBilling _ q := write failed () (Books.debitWallet (-q))
  reserveTokenQuotaForBilling _ _ q _ := write failed () (Books.debitToken q)
  debitTokenQuotaForBilling _ _ q := write failed () (Books.debitToken q)
  refundTokenQuotaForBilling _ _ q := write failed () (Books.debitToken (-q))
  preConsumeUserSubscription r _ _ amount :=
    write failed ⟨1, amount, 0, amount⟩ fun b =>
      (b.useSubscription amount).setRecord r ⟨amount, false⟩
  getSubscriptionPlanInfoByUserSubscriptionId _ w := (.ok ⟨1, "plan".toList⟩, w)
  postConsumeUserSubscriptionDelta i delta w :=
    if 0 < i then write ⟨[.subscriptionQuotaExceeded], [], none⟩ () (Books.useSubscription delta) w
    else (.error failed, w)
  refundSubscriptionPreConsume r w :=
    match w.books.record r with
    | some ⟨p, false⟩ =>
      write failed () (fun b => (b.useSubscription (-p)).setRecord r ⟨p, true⟩) w
    | some ⟨_, true⟩ => (.ok (), w)
    | none => (.error failed, w)
  recordConsumeLog _ w := (.ok (), w)

end BookWorld

def bookLedger : Ledger BookWorld where
  toBillingModel := BookWorld.model
  books := BookWorld.books
  getUserQuota_frame _ _ := rfl
  hasActiveUserSubscription_frame _ _ := rfl
  userActiveSubscriptionsAllowWalletOverflow_frame _ _ := rfl
  getSubscriptionPlanInfo_frame _ _ := rfl
  recordConsumeLog_frame _ _ := rfl
  reserveUser_shifts _ _ := BookWorld.write_shifts _ _ _
  debitUser_shifts _ _ := BookWorld.write_shifts _ _ _
  refundUser_shifts _ _ := BookWorld.write_shifts _ _ _
  reserveToken_shifts _ _ _ _ := BookWorld.write_shifts _ _ _
  debitToken_shifts _ _ _ := BookWorld.write_shifts _ _ _
  refundToken_shifts _ _ _ := BookWorld.write_shifts _ _ _
  preConsumeSubscription_atomic r u n amount w := by
    rcases w with ⟨b, _ | ⟨_ | _, rest⟩⟩
    · exact fun _ => ⟨rfl, rfl⟩
    · exact fun _ => ⟨rfl, rfl⟩
    · exact rfl
  postConsumeSubscription_atomic i delta w := by
    by_cases hi : 0 < i
    · simp only [BookWorld.model, if_pos hi]
      exact (BookWorld.write_shifts _ _ _ w).imp fun _ _ _ h => ⟨hi, h⟩
    · simp only [BookWorld.model, if_neg hi]
      exact rfl
  refundPreConsume_atomic r w := by
    rcases hr : w.books.record r with _ | ⟨p, _ | _⟩
    · simp only [BookWorld.model, hr]
      exact rfl
    · simp only [BookWorld.model, hr]
      have hw := BookWorld.write_shifts BookWorld.failed ()
        (fun b : Books => (b.useSubscription (-p)).setRecord r ⟨p, true⟩) w
      rcases hop : BookWorld.write BookWorld.failed ()
        (fun b : Books => (b.useSubscription (-p)).setRecord r ⟨p, true⟩) w with ⟨_ | _, w'⟩
      · rw [hop] at hw
        exact hw
      · rw [hop] at hw
        intro p' hp'
        cases hr.symm.trans hp'
        exact hw
    · simp only [BookWorld.model, hr]
      intro p' hp'
      cases hr.symm.trans hp'

end NewApi.Service
