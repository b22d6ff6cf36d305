import NewApi.Lib.Transition
import NewApi.Model.DirectCryptoSteps

/-!
# The two rows of a direct order move together

As long as the operations that know only the top-up row stay away from direct orders.
-/

namespace NewApi.Model.Direct

open Transition

def payStatus : TopUpStatus → DirectCryptoStatus
  | .pending => .pending
  | .success => .paid
  | .expired => .expired
  | .cancelled => .cancelled
  | .failed => .failed

def creditsOf (src : QuotaSources) (t : TopUp) : List ℤ :=
  if t.status = .success then [resolvedQuota src t] else []

structure Order (c : DirectConfig) (t : TopUp) (p : DirectCryptoPayment) (l : List Settlement) :
    Prop where
  provider : t.paymentProvider = .direct .crypto
  trimmed : trimSpace t.tradeNo = t.tradeNo
  snapshot : t.hasPaymentSettlementSnapshot = true
  status : p.status = payStatus t.status
  credits : l.map Settlement.quota = creditsOf c.sources t

def Paired (c : DirectConfig) (l : List Settlement) :
    Option TopUp → Option DirectCryptoPayment → Prop
  | some t, some p => Order c t p l
  | none, none => l = []
  | _, _ => False

def Inv (c : DirectConfig) (s : Store) : Prop :=
  ∀ k, Paired c (s.settlements k) (s.topUps.find k) (s.payments.find k)

variable {c : DirectConfig} {now : ℤ} {s s' : Store} {k : Text} {t : TopUp}
  {p : DirectCryptoPayment}

theorem Inv.topUp (h : Inv c s) (ht : s.topUps.find k = some t) :
    ∃ p, s.payments.find k = some p ∧ Order c t p (s.settlements k) := by
  have hk := h k
  rw [ht] at hk
  rcases hp : s.payments.find k with _ | p
  · rw [hp] at hk
    exact hk.elim
  · rw [hp] at hk
    exact ⟨p, rfl, hk⟩

theorem Inv.payment (h : Inv c s) (hp : s.payments.find k = some p) :
    ∃ t, s.topUps.find k = some t ∧ Order c t p (s.settlements k) := by
  have hk := h k
  rw [hp] at hk
  rcases ht : s.topUps.find k with _ | t
  · rw [ht] at hk
    exact hk.elim
  · rw [ht] at hk
    exact ⟨t, rfl, hk⟩

theorem Order.direct {l : List Settlement} (h : Order c t p l) :
    t.paymentProvider.isDirect = true := by
  rw [h.provider]
  rfl

theorem Inv.of_order (h : Inv c s) {t' : TopUp} {p' : DirectCryptoPayment}
    (htopUps : ∀ j, j ≠ k → s'.topUps.find j = s.topUps.find j)
    (hpayments : ∀ j, j ≠ k → s'.payments.find j = s.payments.find j)
    (hsettled : ∀ j, j ≠ k → s'.settlements j = s.settlements j)
    (ht : s'.topUps.find k = some t') (hp : s'.payments.find k = some p')
    (ho : Order c t' p' (s'.settlements k)) : Inv c s' := by
  intro j
  by_cases hj : j = k
  · subst hj
    rw [ht, hp]
    exact ho
  · rw [htopUps j hj, hpayments j hj, hsettled j hj]
    exact h j

theorem Inv.onlyMetadata (h : Inv c s) (hs : OnlyMetadata s s') : Inv c s' := by
  intro k
  rw [hs.topUps, hs.payments, hs.settlements]
  exact h k

theorem Order.close {l : List Settlement} (h : Order c t p l) (st : TopUpStatus)
    (hopen : t.status ≠ .success) (hst : st ≠ .success) (p' : DirectCryptoPayment)
    (hp' : p'.status = payStatus st) : Order c { t with status := st, completeTime := now } p' l where
  provider := h.provider
  trimmed := h.trimmed
  snapshot := h.snapshot
  status := hp'
  credits := by
    rw [h.credits]
    simp [creditsOf, if_neg hopen, if_neg hst]

theorem Inv.close_both (h : Inv c s) (ht : s.topUps.find k = some t) (st : TopUpStatus)
    (hopen : t.status ≠ .success) (hst : st ≠ .success) :
    Inv c ((s.setTopUp k st now).setPayment k (payStatus st)) := by
  obtain ⟨p, hp, ho⟩ := h.topUp ht
  refine h.of_order (fun j hj => ?_) (fun j hj => ?_) (fun _ _ => rfl)
    (find_setTopUp_self st ht) (find_setPayment_self _ hp) (ho.close st hopen hst _ rfl)
  · exact find_setTopUp_of_ne st hj
  · exact find_setPayment_of_ne _ hj

theorem Inv.close_topUp (h : Inv c s) (ht : s.topUps.find k = some t)
    (hp : s.payments.find k = some p) (st : TopUpStatus) (hopen : t.status ≠ .success)
    (hst : st ≠ .success) (hpst : p.status = payStatus st) : Inv c (s.setTopUp k st now) := by
  obtain ⟨p', hp', ho⟩ := h.topUp ht
  rw [hp] at hp'
  cases hp'
  exact h.of_order (fun j hj => find_setTopUp_of_ne st hj) (fun _ _ => rfl) (fun _ _ => rfl)
    (find_setTopUp_self st ht) hp (ho.close st hopen hst _ hpst)

theorem expireTopUp_inv (h : Inv c s) (ht : s.topUps.find k = some t)
    (hopen : t.status = .pending ∨ t.status = .expired) : Inv c (expireTopUp now t s) := by
  obtain ⟨p, hp, ho⟩ := h.topUp ht
  have hk : t.tradeNo = k := Table.find_key ht
  have htrim : trimSpace t.tradeNo = k := ho.trimmed.trans hk
  have hne : t.status ≠ .success := not_success_of_open hopen
  unfold expireTopUp expireDirectPaymentTx
  simp only [ho.direct, if_true, htrim]
  rw [hk]
  rw [show (s.setTopUp k .expired now).payments = s.payments from rfl, hp]
  dsimp only
  split
  · exact h.close_both ht .expired hne (by decide)
  rename_i hpst
  refine h.close_topUp ht hp .expired hne (by decide) ?_
  rw [ho.status] at hpst ⊢
  obtain hs | hs := hopen
  · rw [hs] at hpst
    exact absurd rfl hpst
  · rw [hs]

theorem payStatus_eq_pending {st : TopUpStatus} : payStatus st = .pending ↔ st = .pending := by
  cases st <;> decide

theorem expireStaleTopUp_inv (now : ℤ) (k : Text) (h : Inv c s) :
    Inv c (expireStaleTopUp c now k s).2 := by
  rcases expireStaleTopUp_cases c now k s with heq | ⟨t, ht, hst, hswept⟩
  · rw [heq]
    exact h
  obtain ⟨p, hp, ho⟩ := h.topUp ht
  have hpst : p.status = .pending := by rw [ho.status, hst]; rfl
  rcases hswept with ⟨hno, -⟩ | ⟨-, -, -, heq⟩
  · exact absurd hpst (hno ho.direct p hp)
  · rw [heq]
    exact h.close_both ht .expired (by rw [hst]; decide) (by decide)

theorem expireStale_inv (now userId : ℤ) (h : Inv c s) :
    Inv c (expireStalePendingTopUps c now userId s).2 :=
  expireStaleLoop_keeps (fun k _ => expireStaleTopUp_inv now k) _ h

theorem cancel_inv (userId : ℤ) (h : Inv c s) :
    Inv c (cancelDirectCryptoPayment now k userId s).2 := by
  unfold cancelDirectCryptoPayment
  dsimp only
  split
  · exact h
  rename_i t ht
  split
  · exact h
  split
  · exact h
  split
  · exact h
  split
  · exact h
  split
  · exact h
  · next hopen =>
    have hstatus : t.status = .pending := not_not.mp (not_or.mp hopen).2
    exact h.close_both ht .cancelled (by rw [hstatus]; decide) (by decide)

theorem Inv.find_untrimmed (h : Inv c s) (hk : trimSpace k ≠ k) : s.topUps.find k = none := by
  rcases ht : s.topUps.find k with _ | t
  · rfl
  · obtain ⟨_, _, ho⟩ := h.topUp ht
    have htrim := ho.trimmed
    rw [Table.find_key ht] at htrim
    exact absurd htrim hk

theorem expireOrder_untrimmed_inv (hk : trimSpace k ≠ k)
    (hclosed : ∀ p, s.payments.find (trimSpace k) = some p → p.status ≠ .pending) (h : Inv c s) :
    Inv c (expireDirectUSDTOrder now k s).2 := by
  unfold expireDirectUSDTOrder expireDirectPaymentTx
  rw [h.find_untrimmed hk]
  split
  · next p hp =>
    rw [if_neg (hclosed p hp)]
    exact h
  · exact h

theorem expireOrder_inv (hk : trimSpace k = k) (h : Inv c s) :
    Inv c (expireDirectUSDTOrder now k s).2 := by
  unfold expireDirectUSDTOrder expireDirectPaymentTx
  rw [hk]
  rcases ht : s.topUps.find k with _ | t
  · rcases hp : s.payments.find k with _ | p
    · exact h
    · obtain ⟨t, ht', _⟩ := h.payment hp
      rw [ht] at ht'
      cases ht'
  · obtain ⟨p, hp, ho⟩ := h.topUp ht
    rw [hp]
    by_cases hstatus : t.status = .pending
    · have hpst : p.status = .pending := by rw [ho.status, hstatus]; rfl
      simp only [hstatus, hpst, ho.direct]
      exact h.close_both ht .expired (by rw [hstatus]; decide) (by decide)
    · have hpst : p.status ≠ .pending := by
        rw [ho.status]
        exact fun hp => hstatus (payStatus_eq_pending.mp hp)
      simp only [hstatus, hpst, and_false]
      exact h

theorem getStatus_inv (h : Inv c s) : Inv c (getDirectCryptoPaymentStatus now k s).2 := by
  unfold getDirectCryptoPaymentStatus
  dsimp only
  rcases hp : s.payments.find (trimSpace k) with _ | p
  · exact h
  obtain ⟨t, ht, ho⟩ := h.payment hp
  have hst : p.status = payStatus t.status := ho.status
  have hdirect : (some t).filter (fun t => t.paymentProvider.isDirect) = some t := by
    simp [ho.direct]
  dsimp only
  rw [ht, hdirect, Option.map_some, hst]
  cases hstatus : t.status
  case pending =>
    simp only [payStatus, reduceCtorEq, if_false, if_true]
    split
    · exact h.close_both ht .expired (by rw [hstatus]; decide) (by decide)
    · exact h
  all_goals
    simp only [Option.some.injEq]
    exact h

theorem updatePending_inv {expected : Option PaymentProvider} {target : TopUpStatus}
    (hdue : ∀ t, s.topUps.find k = some t → mismatch expected t = false → t.status = .pending →
      target = .pending ∨ pendingTopUpExpired c now t s = .ok true)
    (h : Inv c s) : Inv c (updatePendingTopUpStatus c now k expected target s).2 := by
  unfold updatePendingTopUpStatus
  split
  · exact h
  rename_i t ht
  split
  · exact h
  rename_i hmatch
  split
  · exact h
  rename_i hpending
  have hstatus : t.status = .pending := not_not.mp hpending
  split
  · exact h
  · exact expireTopUp_inv h ht (.inl hstatus)
  rename_i hlive
  obtain ⟨p, hp, ho⟩ := h.topUp ht
  obtain rfl | hd := hdue t ht (by simpa using hmatch) hstatus
  · refine h.close_topUp ht hp .pending (by rw [hstatus]; decide) (by decide) ?_
    rw [ho.status, hstatus]
  · rw [hd] at hlive
    cases hlive

theorem manualComplete_inv (h : Inv c s) : Inv c (manualCompleteTopUp c now k s).2 := by
  unfold manualCompleteTopUp
  split
  · exact h
  rename_i t ht
  obtain ⟨p, _, ho⟩ := h.topUp ht
  simp only [ho.direct, if_true]
  split
  · exact h
  · exact h

theorem create_inv {t₀ : TopUp} {p₀ : DirectCryptoPayment}
    (htrim : trimSpace t₀.tradeNo = t₀.tradeNo) (hkey : p₀.tradeNo = t₀.tradeNo)
    (hpending : p₀.status = .pending) (h : Inv c s) :
    Inv c (createDirectUSDTOrder c now t₀ p₀ s).2 := by
  have hswept := expireStale_inv now t₀.userId h
  generalize hs' : (createDirectUSDTOrder c now t₀ p₀ s).2 = s'
  have hout : CreateOutcome c now t₀ p₀ s s' := hs' ▸ create_outcome
  cases hout with
  | refused => exact h
  | swept => exact hswept
  | @created t p w topUps payments hnew hw ht hp =>
    subst hw
    have hk : p.tradeNo = t.tradeNo := by rw [hnew.payTradeNo, hkey, hnew.tradeNo]
    -- the key was free, so nothing was credited for it
    have hnone := hswept t.tradeNo
    rw [Table.find_of_insert ht, ← hk, Table.find_of_insert hp] at hnone
    refine hswept.of_order (k := t.tradeNo) (fun j hj => Table.find_insert_of_ne ht hj)
      (fun j hj => Table.find_insert_of_ne hp (hk ▸ hj)) (fun _ _ => rfl)
      (Table.find_insert_self ht) (hk ▸ Table.find_insert_self hp) ?_
    rw [hk] at hnone
    refine ⟨hnew.provider, ?_, hnew.snapshot, ?_, ?_⟩
    · rw [hnew.tradeNo, htrim]
    · rw [hnew.payStatus, hpending, hnew.status]
      rfl
    · rw [show Store.settlements _ t.tradeNo = [] from hnone]
      simp [creditsOf, hnew.status]

theorem settled_inv {e : DirectUSDTTransferEvent} {quota q : ℤ} {m : Store}
    (ht : s.topUps.find e.tradeNo = some t) (hopen : t.status = .pending ∨ t.status = .expired)
    (hp : s.payments.find e.tradeNo = some p)
    (hquota : resolveTopUpQuota c.sources t = .ok quota)
    (hm : OnlyMetadata (s.setTopUp e.tradeNo .success now) m) (h : Inv c s) :
    Inv c (settledStore e t quota q m) := by
  obtain ⟨_, _, ho⟩ := h.topUp ht
  have hk : t.tradeNo = e.tradeNo := Table.find_key ht
  have htopUps : (settledStore e t quota q m).topUps = (s.setTopUp e.tradeNo .success now).topUps :=
    hm.topUps
  have hpayments : m.payments = s.payments := hm.payments
  have hsettled : m.settlements = s.settlements := hm.settlements
  have hpaid : (settledStore e t quota q m).payments.find e.tradeNo = some (paidBy e p) :=
    find_settledStore_self (by rw [hpayments]; exact hp)
  have hsuccess : (settledStore e t quota q m).topUps.find e.tradeNo =
      some { t with status := .success, completeTime := now } := by
    rw [htopUps]
    exact find_setTopUp_self .success ht
  refine h.of_order (fun j hj => ?_) (fun j hj => ?_) (fun j hj => ?_) hsuccess hpaid
    ⟨ho.provider, ho.trimmed, ho.snapshot, rfl, ?_⟩
  · rw [htopUps]
    exact find_setTopUp_of_ne _ hj
  · rw [find_settledStore_of_ne hj, hpayments]
  · simp [settledStore, hk, if_neg hj, hsettled]
  · -- nothing was credited before, since the order was open
    have hnone : (s.settlements e.tradeNo).map Settlement.quota = [] := by
      rw [ho.credits, creditsOf, if_neg (not_success_of_open hopen)]
    have hq : quota = resolvedQuota c.sources t := by
      simp [resolvedQuota, hquota]
    simp only [settledStore, hk, if_true, hsettled, List.map_cons, hnone, hq]
    rfl

theorem settle_inv {input : DirectUSDTTransferEvent}
    (huser : ∀ t p, s.topUps.find input.normalized.tradeNo = some t → t.status = .pending →
      s.payments.find input.normalized.tradeNo = some p →
      validateEvent c now input.normalized p false = .ok () → s.users t.userId ≠ none)
    (h : Inv c s) : Inv c (settleDirectUSDTTRC20Event c now input s).2 := by
  generalize hs' : (settleDirectUSDTTRC20Event c now input s).2 = s'
  have hout : SettleOutcome c now input.normalized s s' := hs' ▸ settle_outcome input
  cases hout with
  | noted hs => exact h.onlyMetadata hs
  | failed ht hpending hp hevent hnone => exact absurd hnone (huser _ _ ht hpending hp hevent)
  | expired ht hopen hs => exact (expireTopUp_inv h ht hopen).onlyMetadata hs
  | settled hvalid ht hopen hp hstatus hrec hevent hquota hm =>
    exact settled_inv ht hopen hp hquota (addSettlementMetadata_onlyMetadata hm) h

def isDue (c : DirectConfig) (now : ℤ) (t : TopUp) (s : Store) : Bool :=
  match pendingTopUpExpired c now t s with
  | .ok due => due
  | .error _ => false

def fits (c : DirectConfig) (now : ℤ) (e : DirectUSDTTransferEvent) (p : DirectCryptoPayment) :
    Bool :=
  match validateEvent c now e p false with
  | .ok _ => true
  | .error _ => false

/-- New orders have one trimmed trade number and a pending payment, a pending order has its
user when an event fits it, a pending payment is not expired under an untrimmed number, and
the generic update closes a direct order only when it is due. -/
def Careful (c : DirectConfig) (s : Store) (a : ℤ × Op) : Prop :=
  match a.2 with
  | .create t p => trimSpace t.tradeNo = t.tradeNo ∧ p.tradeNo = t.tradeNo ∧ p.status = .pending
  | .settle e =>
    match s.topUps.find e.normalized.tradeNo, s.payments.find e.normalized.tradeNo with
    | some t, some p =>
      t.status = .pending → fits c a.1 e.normalized p = true → (s.users t.userId).isSome = true
    | _, _ => True
  | .expireOrder k =>
    match s.payments.find (trimSpace k) with
    | some p => p.status = .pending → trimSpace k = k
    | none => True
  | .updatePending k expected target =>
    match s.topUps.find k with
    | some t =>
      mismatch expected t = false → t.status = .pending →
        target = .pending ∨ isDue c a.1 t s = true
    | none => True
  | _ => True

theorem isDue_eq (h : isDue c now t s = true) : pendingTopUpExpired c now t s = .ok true := by
  unfold isDue at h
  split at h
  · next due hdue => rw [hdue, h]
  · cases h

theorem perform_inv {op : Op} (hok : Careful c s (now, op)) (h : Inv c s) :
    Inv c (perform c now s op).2 := by
  cases op with
  | create t p => exact create_inv hok.1 hok.2.1 hok.2.2 h
  | settle e =>
    refine settle_inv (fun t p ht hpending hp hevent hnone => ?_) h
    simp only [Careful, ht, hp] at hok
    have huser := hok hpending (by simp [fits, hevent])
    rw [hnone] at huser
    cases huser
  | reconcile e reason k units =>
    unfold perform recordDirectUSDTReconciliationEvent
    dsimp only
    repeat' split
    all_goals exact h
  | cancel k userId => exact cancel_inv userId h
  | expireStale userId => exact expireStale_inv now userId h
  | expireOrder k =>
    by_cases hk : trimSpace k = k
    · exact expireOrder_inv hk h
    · refine expireOrder_untrimmed_inv hk (fun p hp hpending => ?_) h
      simp only [Careful, hp] at hok
      exact hk (hok hpending)
  | getStatus k => exact getStatus_inv h
  | updatePending k expected target =>
    refine updatePending_inv (fun t ht hmatch hpending => ?_) h
    simp only [Careful, ht] at hok
    exact (hok hmatch hpending).imp_right isDue_eq
  | manualComplete k => exact manualComplete_inv h
  | deleteUser userId => exact h

def allowedPairs : List (TopUpStatus × DirectCryptoStatus) :=
  [(.pending, .pending), (.success, .paid), (.expired, .expired), (.cancelled, .cancelled),
    (.failed, .failed)]

/-- The order `k`, if there is one, has both rows in an allowed pair of statuses, and was
credited its quota once if it succeeded and nothing otherwise. -/
def PairedAt (c : DirectConfig) (s : Store) (k : Text) : Prop :=
  let credits := (s.settlements k).map Settlement.quota
  match s.topUps.find k, s.payments.find k with
  | some t, some p => (t.status, p.status) ∈ allowedPairs ∧ credits = creditsOf c.sources t
  | none, none => credits = []
  | _, _ => False

theorem payStatus_allowed (st : TopUpStatus) : (st, payStatus st) ∈ allowedPairs := by
  cases st <;> decide

theorem Inv.pairedAt (h : Inv c s) (k : Text) : PairedAt c s k := by
  have hk := h k
  unfold PairedAt
  rcases ht : s.topUps.find k with _ | t <;> rcases hp : s.payments.find k with _ | p <;>
    rw [ht, hp] at hk
  · have hnone : s.settlements k = [] := hk
    simp [hnone]
  · exact hk
  · exact hk
  · exact ⟨by rw [hk.status]; exact payStatus_allowed _, hk.credits⟩

theorem empty_inv (users : ℤ → Option ℤ) : Inv c (Store.empty users) := fun _ => rfl

/-- In every careful run from an empty store, every direct order keeps its two rows in step
and is credited once if it is paid. -/
theorem direct_orders_stay_paired {users : ℤ → Option ℤ}
    (h : Reach (next c) (Careful c) (Store.empty users) s) (k : Text) : PairedAt c s k := by
  have hinv : Inv c s := by
    refine Reach.invariant (empty_inv users) (fun t a u ht hok hn => ?_) h
    cases hn
    exact perform_inv hok ht
  exact hinv.pairedAt k

instance (a : ℤ × Op) : Decidable (Careful c s a) := by
  unfold Careful
  split
  · infer_instance
  · split <;> infer_instance
  · split <;> infer_instance
  · split <;> infer_instance
  · infer_instance

def orderState (s : Store) :
    Option TopUpStatus × Option DirectCryptoStatus × List ℤ × Option ℤ :=
  ((s.topUps.find "T".toList).map TopUp.status,
    (s.payments.find "T".toList).map DirectCryptoPayment.status,
    (s.settlements "T".toList).map Settlement.quota, s.users 1)

theorem direct_order_paid_and_paired :
    ∃ s, Reach (next tronConfig) (Careful tronConfig) (Store.empty fun _ => some 0) s ∧
      orderState s = (some .success, some .paid, [500], some 500) ∧
      PairedAt tronConfig s "T".toList := by
  have hrun : (execute (next tronConfig) (Careful tronConfig)
      [(100, .create tronTopUp tronPayment), (300, .settle tronEvent), (301, .settle tronEvent)]
      (Store.empty fun _ => some 0)).map
        (fun s => decide (orderState s = (some .success, some .paid, [500], some 500))) =
      some true := by decide +kernel
  obtain ⟨s, hs, hout⟩ := exists_reach_of_execute hrun
  exact ⟨s, hs, of_decide_eq_true hout, direct_orders_stay_paired hs _⟩

/-- The user is deleted before the event arrives: the transaction rolls back, and the top-up
alone is closed as failed. -/
theorem direct_order_failed_but_pending :
    ∃ s, Reach (next tronConfig) Any (Store.empty fun _ => some 0) s ∧
      orderState s = (some .failed, some .pending, [], none) ∧
      ¬ PairedAt tronConfig s "T".toList := by
  have hrun : (execute (next tronConfig) Any
      [(100, .create tronTopUp tronPayment), (200, .deleteUser 1), (300, .settle tronEvent)]
      (Store.empty fun _ => some 0)).map
        (fun s => decide (orderState s = (some .failed, some .pending, [], none))) =
      some true := by decide +kernel
  obtain ⟨s, hs, hout⟩ := exists_reach_of_execute hrun
  have hout := of_decide_eq_true hout
  refine ⟨s, hs, hout, fun hpair => ?_⟩
  simp only [orderState, Prod.mk.injEq] at hout
  obtain ⟨ht, hp, -⟩ := hout
  obtain ⟨t, ht, hts⟩ := Option.map_eq_some_iff.mp ht
  obtain ⟨p, hp, hps⟩ := Option.map_eq_some_iff.mp hp
  simp only [PairedAt, ht, hp, hts, hps] at hpair
  exact absurd hpair.1 (by decide)

end NewApi.Model.Direct
