import Mathlib.Algebra.Order.Field.Rat
import Mathlib.Tactic.Positivity
import NewApi.Model.DirectCryptoStore

/-!
# What an operation on direct orders can do

A settlement has the four outcomes of `SettleOutcome`, a creation has three.
-/

namespace NewApi.Model.Direct

variable {c : DirectConfig} {now : ℤ} {s s' m : Store} {k : Text} {t : TopUp}
  {p : DirectCryptoPayment} {e : DirectUSDTTransferEvent} {provider : PaymentProvider}

theorem find_setTopUp_self (st : TopUpStatus) (ht : s.topUps.find k = some t) :
    (s.setTopUp k st now).topUps.find k = some { t with status := st, completeTime := now } := by
  simp [Store.setTopUp, Table.find_modify_self, ht]

variable {err : TopUpError} {quota : ℤ} {j : Text}

theorem find_setTopUp_of_ne (st : TopUpStatus) (hj : j ≠ k) :
    (s.setTopUp k st now).topUps.find j = s.topUps.find j := by
  simp [Store.setTopUp, Table.find_modify_of_ne _ _ _ hj]

theorem find_setPayment_self (st : DirectCryptoStatus) (hp : s.payments.find k = some p) :
    (s.setPayment k st).payments.find k = some { p with status := st } := by
  simp [Store.setPayment, Table.find_modify_self, hp]

theorem find_setPayment_of_ne (st : DirectCryptoStatus) (hj : j ≠ k) :
    (s.setPayment k st).payments.find j = s.payments.find j := by
  simp [Store.setPayment, Table.find_modify_of_ne _ _ _ hj]

theorem not_success_of_open (h : t.status = .pending ∨ t.status = .expired) :
    t.status ≠ .success := by
  intro hs
  rw [hs] at h
  simp at h

theorem not_paid_of_open (h : p.status = .pending ∨ p.status = .expired) : p.status ≠ .paid := by
  intro hs
  rw [hs] at h
  simp at h

theorem expireStaleTopUp_cases (c : DirectConfig) (now : ℤ) (k : Text) (s : Store) :
    (expireStaleTopUp c now k s).2 = s ∨ ∃ t, s.topUps.find k = some t ∧ t.status = .pending ∧
      ((t.paymentProvider.isDirect = true →
          ∀ p, s.payments.find k = some p → p.status ≠ .pending) ∧
        (expireStaleTopUp c now k s).2 = s.setTopUp k .expired now ∨
      ∃ p, s.payments.find k = some p ∧ p.status = .pending ∧
        (expireStaleTopUp c now k s).2 = (s.setTopUp k .expired now).setPayment k .expired) := by
  unfold expireStaleTopUp
  split
  · exact .inl rfl
  rename_i t ht
  split
  · exact .inl rfl
  rename_i hst
  split
  · exact .inl rfl
  · exact .inl rfl
  refine .inr ⟨t, ht, not_not.mp hst, ?_⟩
  dsimp only
  split
  · next hother =>
    rw [hother]
    exact .inl ⟨fun h => (by cases h), rfl⟩
  rw [show t.tradeNo = k from Table.find_key ht,
    show (s.setTopUp k .expired now).payments = s.payments from rfl]
  rcases s.payments.find k with _ | p
  · exact .inl ⟨fun _ _ hq => (by cases hq), rfl⟩
  · dsimp only
    split
    · next hp => exact .inr ⟨p, rfl, hp, rfl⟩
    · next hp => exact .inl ⟨fun _ q hq => Option.some.inj hq ▸ hp, rfl⟩

theorem expireStaleLoop_keeps {P : Store → Prop}
    (hstep : ∀ k s, P s → P (expireStaleTopUp c now k s).2) (ks : List Text) (h : P s) :
    P (expireStaleLoop c now ks s).2 := by
  induction ks generalizing s with
  | nil => exact h
  | cons k ks ih =>
    have hk := hstep k s h
    unfold expireStaleLoop
    generalize expireStaleTopUp c now k s = r at hk
    obtain ⟨e | _, u⟩ := r
    · exact hk
    · exact ih hk

def PaymentMetadata.key (m : PaymentMetadata) : Text × PaymentProvider × Text :=
  (m.tradeNo, m.paymentProvider, m.externalPaymentId)

def MetadataGrows (s s' : Store) : Prop :=
  s'.metadata.map PaymentMetadata.key = s.metadata.map PaymentMetadata.key ∨
    ∃ r : PaymentMetadata, s.metadataTaken r.tradeNo r.paymentProvider r.externalPaymentId = false ∧
      s'.metadata.map PaymentMetadata.key = r.key :: s.metadata.map PaymentMetadata.key

structure OnlyMetadata (s s' : Store) : Prop where
  topUps : s'.topUps = s.topUps
  payments : s'.payments = s.payments
  users : s'.users = s.users
  reconciliations : s'.reconciliations = s.reconciliations
  settlements : s'.settlements = s.settlements
  metadata : MetadataGrows s s'

theorem OnlyMetadata.rfl : OnlyMetadata s s :=
  ⟨.refl _, .refl _, .refl _, .refl _, .refl _, .inl (.refl _)⟩

theorem onlyMetadata_add (r : PaymentMetadata)
    (h : s.metadataTaken r.tradeNo r.paymentProvider r.externalPaymentId = false) :
    OnlyMetadata s (s.addMetadata r) :=
  ⟨.refl _, .refl _, .refl _, .refl _, .refl _, .inr ⟨r, h, .refl _⟩⟩

theorem onlyMetadata_body (k : Text) (body : MetadataBody) :
    OnlyMetadata s
      { s with
        metadata := s.metadata.map fun m => if m.tradeNo = k then { m with body := body } else m } := by
  refine ⟨.refl _, .refl _, .refl _, .refl _, .refl _, .inl ?_⟩
  simp only [List.map_map]
  apply List.map_congr_left
  intro r _
  simp only [Function.comp_apply]
  split
  · rfl
  · rfl

theorem recordLate_onlyMetadata : OnlyMetadata s (recordLateDirectUSDTEvent e provider s).2 := by
  unfold recordLateDirectUSDTEvent
  split
  · next hfree => exact onlyMetadata_add _ hfree
  split
  · exact .rfl
  split
  · exact .rfl
  split
  · exact .rfl
  split
  all_goals
    split
    · exact .rfl
    · exact onlyMetadata_body _ _

theorem recordLateIfValid_onlyMetadata :
    OnlyMetadata s (recordLateIfValid c now e provider p s).2 := by
  unfold recordLateIfValid
  split
  · exact .rfl
  · exact recordLate_onlyMetadata

theorem addSettlementMetadata_onlyMetadata (h : addSettlementMetadata e provider s = .ok m) :
    OnlyMetadata s m := by
  unfold addSettlementMetadata at h
  split at h
  · next hfree =>
    cases h
    exact onlyMetadata_add _ hfree
  · split at h
    · cases h
    · split at h
      · cases h
      · cases h
        exact .rfl

theorem afterSettlement_onlyMetadata (r : Except TopUpError Bool) :
    OnlyMetadata s (afterSettlement c now e provider (r, s)).2 := by
  cases r with
  | ok applied =>
    simp only [afterSettlement]
    split
    · exact .rfl
    split
    · exact .rfl
    · split
      · exact .rfl
      · exact .rfl
  | error err =>
    simp only [afterSettlement]
    split
    · split
      · split
        · exact recordLateIfValid_onlyMetadata
        · exact .rfl
      · exact .rfl
    · split
      · split
        · exact .rfl
        · split
          · exact recordLateIfValid_onlyMetadata
          · exact .rfl
      · exact .rfl

theorem beforeSettlement_onlyMetadata {r : Result}
    (h : beforeSettlement c now e provider s = some r) : OnlyMetadata s r.2 := by
  unfold beforeSettlement at h
  split at h
  · cases h
  split at h
  · cases h
    exact recordLateIfValid_onlyMetadata
  · split at h
    · split at h
      · cases h
      split at h
      · cases h
        exact recordLateIfValid_onlyMetadata
      · cases h
        exact .rfl
    · cases h

theorem resolveTopUpQuota_direct {src : QuotaSources} (hd : t.paymentProvider.isDirect = true)
    (h : resolveTopUpQuota src t = .error err) :
    err ≠ .userNotFound ∧ err ≠ .settlementAmbiguous := by
  unfold resolveTopUpQuota at h
  rcases hprov : t.paymentProvider
  case direct method =>
    simp only [hprov] at h
    split at h
    · cases h
    split at h
    · cases h
    · split at h
      · cases h
      · cases h
        exact ⟨by decide, by decide⟩
  all_goals
    rw [hprov] at hd
    cases hd

theorem validateEvent_error {late : Bool} (h : validateEvent c now e p late = .error err) :
    err ≠ .userNotFound ∧ err ≠ .settlementAmbiguous := by
  unfold validateEvent at h
  repeat' split at h
  all_goals
    cases h
  all_goals
    exact ⟨by decide, by decide⟩

theorem prepareDirect_error (hd : t.paymentProvider.isDirect = true)
    (h : prepareDirect c now e t s = .error err) :
    err ≠ .userNotFound ∧ err ≠ .settlementAmbiguous := by
  unfold prepareDirect at h
  split at h
  · cases h
    exact ⟨by decide, by decide⟩
  · split at h
    · cases h
      exact ⟨by decide, by decide⟩
    · split at h
      · split at h
        · split at h
          · next hv =>
            cases h
            exact validateEvent_error hv
          · split at h
            · cases h
              exact ⟨by decide, by decide⟩
            · cases h
        · cases h
          exact ⟨by decide, by decide⟩
      · split at h
        · cases h
          exact ⟨by decide, by decide⟩
        · split at h
          · cases h
            exact ⟨by decide, by decide⟩
          · split at h
            · next hv =>
              cases h
              exact validateEvent_error hv
            · exact resolveTopUpQuota_direct hd h

theorem prepareDirect_ok (h : prepareDirect c now e t s = .ok quota)
    (hp : s.payments.find e.tradeNo = some p) (hpaid : p.status ≠ .paid) :
    s.isReconciled e.network e.eventId = false ∧ validateEvent c now e p false = .ok () ∧
      resolveTopUpQuota c.sources t = .ok quota := by
  unfold prepareDirect at h
  rw [hp] at h
  split at h
  · cases h
  rename_i hrec
  simp only [if_neg hpaid] at h
  split at h
  · cases h
  split at h
  · cases h
  · split at h
    · cases h
    · next hv => exact ⟨by simpa using hrec, hv, h⟩

theorem paidBy_tradeNo (e : DirectUSDTTransferEvent) (p : DirectCryptoPayment) :
    (paidBy e p).tradeNo = p.tradeNo := rfl

def settledStore (e : DirectUSDTTransferEvent) (t : TopUp) (quota q : ℤ) (m : Store) : Store :=
  { m with
    payments := m.payments.modify e.tradeNo (paidBy e) (paidBy_tradeNo e)
    users := fun u => if u = t.userId then some (q + quota) else m.users u
    settlements := fun k =>
      if k = t.tradeNo then ⟨some e, quota⟩ :: m.settlements k else m.settlements k }

theorem find_settledStore_self {quota q : ℤ} (hp : m.payments.find e.tradeNo = some p) :
    (settledStore e t quota q m).payments.find e.tradeNo = some (paidBy e p) := by
  have h := Table.find_modify_self m.payments e.tradeNo (paidBy e) (paidBy_tradeNo e)
  rw [hp] at h
  exact h

theorem find_settledStore_of_ne {quota q : ℤ} (hj : j ≠ e.tradeNo) :
    (settledStore e t quota q m).payments.find j = m.payments.find j :=
  Table.find_modify_of_ne m.payments (paidBy e) (paidBy_tradeNo e) hj

theorem applyDirect_ok (h : applyDirect e provider t quota s = .ok s') :
    ∃ m p q, addSettlementMetadata e provider s = .ok m ∧ m.payments.find e.tradeNo = some p ∧
      (p.status = .pending ∨ p.status = .expired) ∧ m.users t.userId = some q ∧
      s' = settledStore e t quota q m := by
  unfold applyDirect at h
  split at h
  · cases h
  rename_i m hm
  split at h
  · cases h
  rename_i p hp
  split at h
  · next hst =>
    unfold creditUser at h
    split at h
    · cases h
    · next q hq =>
      cases h
      exact ⟨m, p, q, hm, hp, hst, hq, rfl⟩
  · cases h

theorem applyDirect_error (h : applyDirect e provider t quota s = .error err) :
    err ≠ .settlementAmbiguous ∧ (err = .userNotFound → s.users t.userId = none ∧
      ∃ p, s.payments.find e.tradeNo = some p ∧ (p.status = .pending ∨ p.status = .expired)) := by
  unfold applyDirect addSettlementMetadata at h
  split at h
  · next hm =>
    cases h
    split at hm
    · cases hm
    split at hm
    · cases hm
      exact ⟨by decide, nofun⟩
    · split at hm
      · cases hm
        exact ⟨by decide, nofun⟩
      · cases hm
  · next m hm =>
    have hs := addSettlementMetadata_onlyMetadata (e := e) (s := s) hm
    split at h
    · cases h
      exact ⟨by decide, nofun⟩
    · next p hp =>
      split at h
      · next hst =>
        unfold creditUser at h
        split at h
        · next hq =>
          cases h
          have huser : m.users = s.users := hs.users
          rw [hs.payments] at hp
          exact ⟨by decide, fun _ => ⟨huser ▸ hq, p, hp, hst⟩⟩
        · cases h
      · cases h
        exact ⟨by decide, nofun⟩

theorem snapshot_of_units {n m : ℕ} (hn : minBaseUnits ≤ n) (hm : n < m)
    (h₁ : t.requestedAmount = (n : Rat) / 1000000) (h₂ : t.paymentBaseAmount = (n : Rat) / 1000000)
    (h₃ : t.paymentChargedAmount = (m : Rat) / 1000000) :
    t.hasPaymentSettlementSnapshot = true := by
  have hpos : ∀ i : ℕ, 0 < i → (0 : Rat) < (i : Rat) / 1000000 := fun i hi => by
    have : (0 : Rat) < i := by exact_mod_cast hi
    positivity
  have hn0 : 0 < n := Nat.lt_of_lt_of_le (by decide) hn
  unfold TopUp.hasPaymentSettlementSnapshot
  rw [h₁, h₂, h₃]
  simp [hpos n hn0, hpos m (Nat.lt_trans hn0 hm)]

structure NewOrder (t₀ : TopUp) (p₀ : DirectCryptoPayment) (t : TopUp) (p : DirectCryptoPayment) :
    Prop where
  tradeNo : t.tradeNo = t₀.tradeNo
  payTradeNo : p.tradeNo = p₀.tradeNo
  payStatus : p.status = p₀.status
  provider : t.paymentProvider = .direct .crypto
  status : t.status = .pending
  snapshot : t.hasPaymentSettlementSnapshot = true

inductive CreateOutcome (c : DirectConfig) (now : ℤ) (t₀ : TopUp) (p₀ : DirectCryptoPayment)
    (s : Store) : Store → Prop
  | refused : CreateOutcome c now t₀ p₀ s s
  | swept : CreateOutcome c now t₀ p₀ s (expireStalePendingTopUps c now t₀.userId s).2
  | created {t : TopUp} {p : DirectCryptoPayment} {w : Store} {topUps : Table TopUp.tradeNo}
      {payments : Table DirectCryptoPayment.tradeNo} (hnew : NewOrder t₀ p₀ t p)
      (hw : w = (expireStalePendingTopUps c now t₀.userId s).2)
      (ht : w.topUps.insert t = some topUps) (hp : w.payments.insert p = some payments) :
      CreateOutcome c now t₀ p₀ s { w with topUps := topUps, payments := payments }

theorem orderValid_spec (h : orderValid c t p = true) :
    t.paymentProvider = .direct .crypto ∧ t.status = .pending ∧ minBaseUnits ≤ p.baseUnits ∧
      p.baseUnits < p.expectedUnits := by
  simp only [orderValid, Bool.and_eq_true, decide_eq_true_eq] at h
  obtain ⟨⟨⟨⟨⟨⟨⟨⟨⟨⟨⟨⟨⟨⟨_, _⟩, hbase⟩, _⟩, _⟩, _⟩, hprovider⟩, hstatus⟩, _⟩, _⟩, _⟩, _⟩, _⟩, _⟩, hexpected⟩ := h
  exact ⟨hprovider, hstatus, hbase, hexpected⟩

theorem create_outcome : CreateOutcome c now t p s (createDirectUSDTOrder c now t p s).2 := by
  unfold createDirectUSDTOrder
  dsimp only
  split
  · exact .refused
  rename_i hvalid
  obtain ⟨hprovider, hstatus, hbase, hexpected⟩ :=
    orderValid_spec ((Bool.not_eq_false _).mp hvalid)
  rcases hw : expireStalePendingTopUps c now t.userId s with ⟨r, w⟩
  have hswept : CreateOutcome c now t p s w := by
    have hsweep : CreateOutcome c now t p s (expireStalePendingTopUps c now t.userId s).2 := .swept
    rwa [hw] at hsweep
  cases r with
  | error err => exact hswept
  | ok _ =>
    dsimp only
    split
    · exact hswept
    split
    · exact hswept
    split
    · next ht hp =>
      refine .created ?_ (by rw [hw]) ht hp
      exact ⟨rfl, rfl, rfl, hprovider, hstatus,
        snapshot_of_units hbase hexpected rfl rfl rfl⟩
    · exact hswept

inductive SettleOutcome (c : DirectConfig) (now : ℤ) (e : DirectUSDTTransferEvent) (s : Store) :
    Store → Prop
  | noted {s' : Store} (h : OnlyMetadata s s') : SettleOutcome c now e s s'
  | failed {t : TopUp} {p : DirectCryptoPayment} (ht : s.topUps.find e.tradeNo = some t)
      (hpending : t.status = .pending) (hp : s.payments.find e.tradeNo = some p)
      (hevent : validateEvent c now e p false = .ok ()) (huser : s.users t.userId = none) :
      SettleOutcome c now e s (s.setTopUp e.tradeNo .failed now)
  | expired {t : TopUp} {s' : Store} (ht : s.topUps.find e.tradeNo = some t)
      (hopen : t.status = .pending ∨ t.status = .expired)
      (h : OnlyMetadata (expireTopUp now t s) s') : SettleOutcome c now e s s'
  | settled {t : TopUp} {p : DirectCryptoPayment} {quota q : ℤ} {m : Store}
      (hvalid : e.isEventValid c = true) (ht : s.topUps.find e.tradeNo = some t)
      (hopen : t.status = .pending ∨ t.status = .expired)
      (hp : s.payments.find e.tradeNo = some p)
      (hstatus : p.status = .pending ∨ p.status = .expired)
      (hrec : s.isReconciled e.network e.eventId = false)
      (hevent : validateEvent c now e p false = .ok ())
      (hquota : resolveTopUpQuota c.sources t = .ok quota)
      (hm : addSettlementMetadata e t.paymentProvider (s.setTopUp e.tradeNo .success now) = .ok m) :
      SettleOutcome c now e s (settledStore e t quota q m)

theorem afterSettlement_ok (applied : Bool) :
    (afterSettlement c now e provider (.ok applied, s)).2 = s := by
  simp only [afterSettlement]
  split
  · rfl
  split
  · rfl
  · split
    · rfl
    · rfl

theorem afterSettlement_userNotFound :
    (afterSettlement c now e provider (.error .userNotFound, s)).2 = s := by
  simp only [afterSettlement]
  split
  · next h =>
    obtain h | h := h
    · cases h
    · cases h
  · split
    · split
      · rfl
      split
      · next h =>
        obtain ⟨h | h, _⟩ := h
        · cases h
        · cases h
      · rfl
    · rfl

theorem afterSettlementError_cases (now : ℤ) (ht : s.topUps.find k = some t)
    (hne : err ≠ .settlementAmbiguous) :
    afterSettlementError now t (some t.paymentProvider) err s = (.error err, s) ∨
      err = .userNotFound ∧ t.status = .pending ∧
        afterSettlementError now t (some t.paymentProvider) err s =
          (.error .userNotFound, s.setTopUp k .failed now) := by
  have hk : t.tradeNo = k := Table.find_key ht
  unfold afterSettlementError
  split
  · next h =>
    have herr : err = .userNotFound := h.elim And.left fun h => absurd h hne
    have hmatch : mismatch (some t.paymentProvider) t = false := by simp [mismatch]
    subst herr
    unfold failTopUpOrder
    rw [hk, ht]
    split
    · exact .inl rfl
    · simp only [hmatch, Bool.false_eq_true, if_false]
      split
      · exact .inl rfl
      · next hpending => exact .inr ⟨trivial, not_not.mp hpending, rfl⟩
  · exact .inl rfl

theorem complete_outcome (hvalid : e.isEventValid c = true)
    (ht : s.topUps.find e.tradeNo = some t) (hd : t.paymentProvider.isDirect = true) :
    SettleOutcome c now e s (afterSettlement c now e t.paymentProvider
      (completeTopUpCASWithOptions c now e.tradeNo (some t.paymentProvider) true
        (prepareDirect c now e) (applyDirect e t.paymentProvider) s)).2 := by
  have hmatch : mismatch (some t.paymentProvider) t = false := by simp [mismatch]
  have hexp : expectsDirect (some t.paymentProvider) = true := hd
  have hallow : (true && allowsExpired (some t.paymentProvider)) = true := by
    simp [allowsExpired, hexp]
  unfold completeTopUpCASWithOptions
  simp only [ht, hmatch, hallow, Bool.false_eq_true, if_false, if_true]
  split
  · exact .noted (afterSettlement_onlyMetadata _)
  split
  · exact .noted (afterSettlement_onlyMetadata _)
  rename_i hsuccess hstatus
  have hopen : t.status = .pending ∨ t.status = .expired := by
    by_cases hpending : t.status = .pending
    · exact .inl hpending
    · exact .inr (by simpa [hpending] using hstatus)
  split
  · next err hprepare =>
    split
    · exact .expired ht hopen (afterSettlement_onlyMetadata _)
    · -- the errors of the preparation never close the order
      obtain ⟨huser, hamb⟩ := prepareDirect_error hd hprepare
      obtain h | ⟨h, _⟩ := afterSettlementError_cases now ht hamb
      · rw [h]
        exact .noted (afterSettlement_onlyMetadata _)
      · exact absurd h huser
  · next quota hprepare =>
    split
    · next err happly =>
      obtain ⟨hamb, huser⟩ := applyDirect_error happly
      obtain h | ⟨herr, hpending, h⟩ := afterSettlementError_cases now ht hamb
      · rw [h]
        exact .noted (afterSettlement_onlyMetadata _)
      · obtain ⟨hnone, p, hp, hst⟩ := huser herr
        have hevent := (prepareDirect_ok hprepare hp (not_paid_of_open hst)).2.1
        rw [h, afterSettlement_userNotFound]
        exact .failed ht hpending hp hevent hnone
    · next s' happly =>
      obtain ⟨m, p, q, hm, hp, hst, hq, rfl⟩ := applyDirect_ok happly
      have hpayments : m.payments = s.payments :=
        (addSettlementMetadata_onlyMetadata hm).payments
      rw [hpayments] at hp
      obtain ⟨hrec, hevent, hquota⟩ := prepareDirect_ok hprepare hp (not_paid_of_open hst)
      rw [afterSettlement_ok]
      exact .settled hvalid ht hopen hp hst hrec hevent hquota hm

theorem settle_outcome (input : DirectUSDTTransferEvent) :
    SettleOutcome c now input.normalized s (settleDirectUSDTTRC20Event c now input s).2 := by
  unfold settleDirectUSDTTRC20Event
  dsimp only
  split
  · exact .noted .rfl
  rename_i hvalid
  split
  · exact .noted .rfl
  split
  · exact .noted .rfl
  rename_i t ht
  split
  · exact .noted .rfl
  rename_i hd
  split
  · next r hr => exact .noted (beforeSettlement_onlyMetadata hr)
  · refine complete_outcome ?_ ht (by simpa using hd)
    simp only [Bool.and_eq_false_iff, not_or, Bool.not_eq_false] at hvalid
    exact hvalid.1

def tronConfig : DirectConfig where
  usdtTRC20Contract := "C".toList
  usdtTONJettonMaster := "J".toList
  usdtSolanaMint := "M".toList
  minConfirmations := 0
  maxCreationsPerHour := 0
  canonicalTON := some
  sources := ⟨none, 1⟩
  policyTTL := 3600

def tronTopUp : TopUp where
  userId := 1
  tradeNo := "T".toList
  amount := 10
  requestedAmount := 10
  paymentBaseAmount := 10
  paymentChargedAmount := 10
  paymentMethod := directCryptoProvider
  paymentProvider := .direct .crypto
  paymentPendingTTLSeconds := 900
  quotaToAdd := 500
  createTime := 100
  completeTime := 0
  status := .pending

def tronPayment : DirectCryptoPayment where
  tradeNo := "T".toList
  userId := 1
  network := tron
  token := "USDT".toList
  contract := "C".toList
  address := "A".toList
  destination := []
  expectedUnits := 10000001
  baseUnits := 10000000
  status := .pending
  txHash := []
  eventIndex := []
  eventId := []
  observedUnits := 0
  confirmations := 0
  expiresAt := 1000
  createdAt := 100

def tronEvent : DirectUSDTTransferEvent where
  tradeNo := "T".toList
  txHash := "h".toList
  eventIndex := "0".toList
  eventId := []
  contract := "C".toList
  toAddress := "A".toList
  amountUnits := 10000001
  confirmations := 20
  confirmed := true
  blockTimestamp := 200000
  network := tron

end NewApi.Model.Direct
