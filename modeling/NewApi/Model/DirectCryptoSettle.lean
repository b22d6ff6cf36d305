import NewApi.Model.DirectCryptoPairs

/-!
# The settlement of one event, by the state of its order (model/direct_crypto_payment.go)
-/

namespace NewApi.Model.Direct

variable {c : DirectConfig} {now : ℤ} {s : Store} {t : TopUp} {p : DirectCryptoPayment}
  {n input : DirectUSDTTransferEvent} {err : TopUpError}

theorem validateEvent_fits (htime : 0 < n.blockTimestamp) (hcreated : 0 < p.createdAt)
    (hwindow : p.createdAt < p.expiresAt) (htoken : p.token = "USDT".toList)
    (haddress : p.address ≠ []) (hknown : validDirectUSDTNetwork c p.network p.contract = true)
    (hnetwork : equalFold p.network n.network = true)
    (hcontract : equalFold p.contract n.contract = true)
    (hdest : sameDirectUSDTAddress c p.network n.toAddress p.eventDestination = true)
    (hamount : n.amountUnits = p.expectedUnits) (hnow : n.blockUnix ≤ now) (allow : Bool) :
    validateEvent c now n p allow =
      if n.blockUnix < p.createdAt then .error .directInvalid
      else if allow = false ∧ p.expiresAt ≤ n.blockUnix then .error .directExpired
      else .ok () := by
  have hstatic : ¬ (n.blockTimestamp ≤ 0 ∨ p.createdAt ≤ 0 ∨ p.expiresAt ≤ p.createdAt ∨
      p.token ≠ "USDT".toList ∨ p.address = [] ∨
      validDirectUSDTNetwork c p.network p.contract = false ∨
      equalFold p.network n.network = false ∨ equalFold p.contract n.contract = false) := by
    rw [hknown, hnetwork, hcontract]
    simp only [htoken, ne_eq, not_true_eq_false, haddress, Bool.true_eq_false, or_false]
    omega
  have hfuture : ¬ now < n.blockUnix := by omega
  unfold validateEvent
  rw [if_neg hstatic, if_neg hfuture, hdest, hamount]
  simp

structure Reaches (c : DirectConfig) (now : ℤ) (n : DirectUSDTTransferEvent) (s : Store)
    (t : TopUp) (p : DirectCryptoPayment) : Prop where
  valid : n.isEventValid c = true
  known : validDirectUSDTNetwork c n.network n.contract = true
  fresh : s.isReconciled n.network n.eventId = false
  topUp : s.topUps.find n.tradeNo = some t
  payment : s.payments.find n.tradeNo = some p
  direct : t.paymentProvider.isDirect = true
  trimmed : trimSpace n.tradeNo = n.tradeNo
  sameUser : p.userId = t.userId
  window : p.createdAt < p.expiresAt
  checks : ∀ allow, validateEvent c now n p allow =
    if n.blockUnix < p.createdAt then .error .directInvalid
    else if allow = false ∧ p.expiresAt ≤ n.blockUnix then .error .directExpired
    else .ok ()

namespace Reaches

theorem recordLateIfValid_eq {provider : PaymentProvider}
    (hv : validateEvent c now n p true = .ok ()) :
    recordLateIfValid c now n provider p s = recordLateDirectUSDTEvent n provider s := by
  unfold recordLateIfValid
  rw [hv]

theorem no_mismatch : mismatch (some t.paymentProvider) t = false := by
  simp [mismatch]

section Steps

variable (h : Reaches c now n s t p)
include h

theorem check_early (hb : n.blockUnix < p.createdAt) (allow : Bool) :
    validateEvent c now n p allow = .error .directInvalid := by
  rw [h.checks, if_pos hb]

theorem check_inTime (hb : p.createdAt ≤ n.blockUnix) (hb' : n.blockUnix < p.expiresAt)
    (allow : Bool) : validateEvent c now n p allow = .ok () := by
  rw [h.checks, if_neg (by omega), if_neg (by omega)]

theorem created_of_late (hb : p.expiresAt ≤ n.blockUnix) : p.createdAt ≤ n.blockUnix :=
  h.window.le.trans hb

theorem check_late (hb : p.expiresAt ≤ n.blockUnix) :
    validateEvent c now n p false = .error .directExpired := by
  rw [h.checks, if_neg (Int.not_lt.mpr (h.created_of_late hb)), if_pos ⟨rfl, hb⟩]

theorem check_kept (hb : p.createdAt ≤ n.blockUnix) :
    validateEvent c now n p true = .ok () := by
  rw [h.checks, if_neg (by omega), if_neg fun hno => by cases hno.1]

theorem before_none (hst : p.status ≠ .cancelled) (hst' : p.status ≠ .expired) :
    beforeSettlement c now n t.paymentProvider s = none := by
  unfold beforeSettlement
  simp [h.payment, if_neg hst, if_neg hst']

theorem before_open (hst : p.status = .pending ∨ p.status = .expired)
    (hb : p.createdAt ≤ n.blockUnix) (hb' : n.blockUnix < p.expiresAt) :
    beforeSettlement c now n t.paymentProvider s = none := by
  rcases hst with hst | hst
  · exact h.before_none (by rw [hst]; decide) (by rw [hst]; decide)
  · unfold beforeSettlement
    simp [h.payment, hst, h.check_inTime hb hb']

theorem open_passes (hopen : t.status = .pending ∨ t.status = .expired) :
    (true && allowsExpired (some t.paymentProvider)) = true ∧ t.status ≠ .success ∧
      ¬ (t.status ≠ .pending ∧ ¬ (True ∧ t.status = .expired)) := by
  have hallow : allowsExpired (some t.paymentProvider) = true := by
    simp [allowsExpired, expectsDirect, h.direct]
  refine ⟨by rw [hallow]; rfl, not_success_of_open hopen, fun hno => hno.2 ⟨trivial, ?_⟩⟩
  exact hopen.resolve_left hno.1

section Complete

variable {prepare : TopUp → Store → Except TopUpError ℤ}
  {apply : TopUp → ℤ → Store → Except TopUpError Store} {quota : ℤ} {s' : Store}

variable (hopen : t.status = .pending ∨ t.status = .expired)
include hopen

theorem complete_expires (hprep : prepare t s = .error .directExpired) :
    completeTopUpCASWithOptions c now n.tradeNo (some t.paymentProvider) true prepare apply s =
      (.error .directExpired, expireTopUp now t s) := by
  obtain ⟨hallow, hsucc, hpass⟩ := h.open_passes hopen
  have hdirect : expectsDirect (some t.paymentProvider) = true := h.direct
  unfold completeTopUpCASWithOptions
  simp only [h.topUp, no_mismatch, hprep, hallow, hdirect, if_neg hsucc, if_neg hpass,
    Bool.false_eq_true, if_false, if_true, and_self]

theorem complete_prepare_error (hprep : prepare t s = .error err)
    (h₁ : err ≠ .directExpired) (h₂ : err ≠ .userNotFound) (h₃ : err ≠ .settlementAmbiguous) :
    completeTopUpCASWithOptions c now n.tradeNo (some t.paymentProvider) true prepare apply s =
      (.error err, s) := by
  obtain ⟨hallow, hsucc, hpass⟩ := h.open_passes hopen
  unfold completeTopUpCASWithOptions
  simp only [h.topUp, no_mismatch, hprep, hallow, if_neg hsucc, if_neg hpass, Bool.false_eq_true,
    if_false, if_true, h₁, and_false, afterSettlementError, h₂, h₃, false_and, or_self]

theorem complete_apply_error (hprep : prepare t s = .ok quota)
    (happ : apply t quota (s.setTopUp n.tradeNo .success now) = .error err)
    (h₂ : err ≠ .userNotFound) (h₃ : err ≠ .settlementAmbiguous) :
    completeTopUpCASWithOptions c now n.tradeNo (some t.paymentProvider) true prepare apply s =
      (.error err, s) := by
  obtain ⟨hallow, hsucc, hpass⟩ := h.open_passes hopen
  unfold completeTopUpCASWithOptions
  simp only [h.topUp, no_mismatch, hprep, happ, hallow, if_neg hsucc, if_neg hpass,
    Bool.false_eq_true, if_false, if_true, afterSettlementError, h₂, h₃, false_and, or_self]

theorem complete_settles (hprep : prepare t s = .ok quota)
    (happ : apply t quota (s.setTopUp n.tradeNo .success now) = .ok s') :
    completeTopUpCASWithOptions c now n.tradeNo (some t.paymentProvider) true prepare apply s =
      (.ok true, s') := by
  obtain ⟨hallow, hsucc, hpass⟩ := h.open_passes hopen
  unfold completeTopUpCASWithOptions
  simp only [h.topUp, no_mismatch, hprep, happ, hallow, if_neg hsucc, if_neg hpass,
    Bool.false_eq_true, if_false, if_true]

end Complete

theorem prepare_eq {r : Except TopUpError Unit} (hst : p.status = .pending ∨ p.status = .expired)
    (hv : validateEvent c now n p false = r) :
    prepareDirect c now n t s = r.bind fun _ => resolveTopUpQuota c.sources t := by
  have hopen : ¬ (p.status ≠ .pending ∧ p.status ≠ .expired) := fun hno => hst.elim hno.1 hno.2
  unfold prepareDirect
  simp only [h.fresh, h.payment, hv, if_neg (not_paid_of_open hst), if_neg hopen, if_neg
    (not_not_intro h.sameUser), Bool.false_eq_true]
  cases r <;> rfl

theorem after_error (h₁ : err ≠ .expired) (h₂ : err ≠ .directExpired)
    (h₃ : err ≠ .directAlreadySettled) (h₄ : err ≠ .statusInvalid) :
    afterSettlement c now n t.paymentProvider (.error err, s) = (.error err, s) := by
  unfold afterSettlement
  simp [h.payment, h₁, h₂, h₃, h₄]

end Steps

section Cases

variable (h : Reaches c now input.normalized s t p)
include h

theorem settle_of_before {r : Result}
    (hb : beforeSettlement c now input.normalized t.paymentProvider s = some r) :
    settleDirectUSDTTRC20Event c now input s = r := by
  unfold settleDirectUSDTTRC20Event
  simp [h.valid, h.known, h.fresh, h.topUp, h.direct, hb]

theorem settle_of_complete {r : Except TopUpError Bool × Store}
    (hb : beforeSettlement c now input.normalized t.paymentProvider s = none)
    (hc : completeTopUpCASWithOptions c now input.normalized.tradeNo (some t.paymentProvider) true
      (prepareDirect c now input.normalized) (applyDirect input.normalized t.paymentProvider) s =
        r) :
    settleDirectUSDTTRC20Event c now input s =
      afterSettlement c now input.normalized t.paymentProvider r := by
  unfold settleDirectUSDTTRC20Event
  simp [h.valid, h.known, h.fresh, h.topUp, h.direct, hb, hc]

theorem settle_early (hst : p.status = .pending ∨ p.status = .expired)
    (hopen : t.status = .pending ∨ t.status = .expired)
    (hb : input.normalized.blockUnix < p.createdAt) :
    settleDirectUSDTTRC20Event c now input s = (.error .directInvalid, s) := by
  have hv := h.check_early hb false
  rcases hst with hst | hst
  · have hbefore := h.before_none (by rw [hst]; decide) (by rw [hst]; decide)
    rw [h.settle_of_complete hbefore (h.complete_prepare_error hopen
      (h.prepare_eq (.inl hst) hv) (by decide) (by decide) (by decide))]
    exact h.after_error (by decide) (by decide) (by decide) (by decide)
  · refine h.settle_of_before ?_
    unfold beforeSettlement
    simp [h.payment, hst, hv]

theorem settle_expired_late (hst : p.status = .expired)
    (hb : p.expiresAt ≤ input.normalized.blockUnix) :
    settleDirectUSDTTRC20Event c now input s =
      recordLateDirectUSDTEvent input.normalized t.paymentProvider s := by
  refine h.settle_of_before ?_
  unfold beforeSettlement
  simp only [h.payment, hst, h.check_late hb, reduceCtorEq, if_false, if_true]
  rw [recordLateIfValid_eq (h.check_kept (h.created_of_late hb))]

theorem settle_pending_late (hst : p.status = .pending)
    (hopen : t.status = .pending ∨ t.status = .expired)
    (hb : p.expiresAt ≤ input.normalized.blockUnix) :
    settleDirectUSDTTRC20Event c now input s =
      recordLateDirectUSDTEvent input.normalized t.paymentProvider
        ((s.setTopUp input.normalized.tradeNo .expired now).setPayment input.normalized.tradeNo
          .expired) := by
  have hkey : t.tradeNo = input.normalized.tradeNo := Table.find_key h.topUp
  have hexpired : expireTopUp now t s =
      (s.setTopUp input.normalized.tradeNo .expired now).setPayment input.normalized.tradeNo
        .expired := by
    have hpay : (s.setTopUp input.normalized.tradeNo .expired now).payments.find
        input.normalized.tradeNo = some p := h.payment
    unfold expireTopUp expireDirectPaymentTx
    simp [hkey, h.direct, h.trimmed, hpay, hst]
  have hrow : ((s.setTopUp input.normalized.tradeNo .expired now).setPayment
      input.normalized.tradeNo .expired).payments.find input.normalized.tradeNo =
      some { p with status := .expired } := find_setPayment_self .expired h.payment
  have hbefore := h.before_none (by rw [hst]; decide) (by rw [hst]; decide)
  rw [h.settle_of_complete hbefore (h.complete_expires hopen
    (h.prepare_eq (.inl hst) (h.check_late hb))), hexpired]
  unfold afterSettlement
  simp only [hrow]
  exact recordLateIfValid_eq (p := { p with status := .expired })
    (h.check_kept (h.created_of_late hb))

theorem settle_done (ht : t.status = .success) (hp : p.status = .paid) :
    settleDirectUSDTTRC20Event c now input s =
      afterSettlement c now input.normalized t.paymentProvider (.ok false, s) :=
  h.settle_of_complete (h.before_none (by rw [hp]; decide) (by rw [hp]; decide))
    (by simp [completeTopUpCASWithOptions, h.topUp, no_mismatch, ht])

section InTime

variable (hst : p.status = .pending ∨ p.status = .expired)
  (hopen : t.status = .pending ∨ t.status = .expired)
  (hb : p.createdAt ≤ input.normalized.blockUnix) (hb' : input.normalized.blockUnix < p.expiresAt)
include hst hopen hb hb'

theorem settle_pays {quota q : ℤ} {m : Store}
    (hquota : resolveTopUpQuota c.sources t = .ok quota)
    (hm : addSettlementMetadata input.normalized t.paymentProvider
      (s.setTopUp input.normalized.tradeNo .success now) = .ok m)
    (hq : s.users t.userId = some q) :
    settleDirectUSDTTRC20Event c now input s =
      (.ok (), settledStore input.normalized t quota q m) := by
  have hv := h.check_inTime hb hb' false
  have hrest := addSettlementMetadata_onlyMetadata hm
  have hpay : m.payments.find input.normalized.tradeNo = some p := by
    rw [hrest.payments]
    exact h.payment
  have huser : m.users t.userId = some q := by
    rw [hrest.users]
    exact hq
  have happ : applyDirect input.normalized t.paymentProvider t quota
      (s.setTopUp input.normalized.tradeNo .success now) =
      .ok (settledStore input.normalized t quota q m) := by
    unfold applyDirect
    simp only [hm, hpay, if_pos hst]
    unfold creditUser
    simp only [huser]
    rfl
  have hpaid : validateEvent c now input.normalized (paidBy input.normalized p) false = .ok () := hv
  rw [h.settle_of_complete (h.before_open hst hb hb') (h.complete_settles hopen
    ((h.prepare_eq hst hv).trans hquota) happ)]
  unfold afterSettlement
  simp only [find_settledStore_self hpay]
  unfold confirmPaid
  rw [hpaid]
  simp [paidBy]

theorem settle_taken {quota : ℤ} (hquota : resolveTopUpQuota c.sources t = .ok quota)
    {text : Text} (hm : addSettlementMetadata input.normalized t.paymentProvider
      (s.setTopUp input.normalized.tradeNo .success now) = .error (.other text)) :
    settleDirectUSDTTRC20Event c now input s = (.error (.other text), s) := by
  have hv := h.check_inTime hb hb' false
  have happ : applyDirect input.normalized t.paymentProvider t quota
      (s.setTopUp input.normalized.tradeNo .success now) = .error (.other text) := by
    unfold applyDirect
    rw [hm]
  rw [h.settle_of_complete (h.before_open hst hb hb') (h.complete_apply_error hopen
    ((h.prepare_eq hst hv).trans hquota) happ (by simp) (by simp))]
  exact h.after_error (by simp) (by simp) (by simp) (by simp)

end InTime

end Cases

end Reaches

end NewApi.Model.Direct
