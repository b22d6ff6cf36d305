import NewApi.Lib.Transition
import NewApi.Model.DirectCryptoSteps

/-!
# A chain transfer pays one order or is filed for review

An event carries an id of its own, and TRON events may carry one of two.
-/

namespace NewApi.Model.Direct

open Transition

abbrev Transfer := Text × Text × Text

def eventTransfer (e : DirectUSDTTransferEvent) : Transfer := (e.network, e.txHash, e.eventIndex)

def reviewTransfer (r : DirectCryptoReconciliation) : Transfer := (r.network, r.txHash, r.eventIndex)

variable {c : DirectConfig} {now : ℤ} {s s' w : Store} {k : Text} {t : TopUp}
  {p : DirectCryptoPayment} {e : DirectUSDTTransferEvent}

/-! ### Steps that pay nothing -/

def Unpaid (s s' : Store) (k : Text) : Prop :=
  s'.payments.find k = s.payments.find k ∨
    ∃ p p', s.payments.find k = some p ∧ s'.payments.find k = some p' ∧
      p.status ≠ .paid ∧ p'.status ≠ .paid

structure Closing (s s' : Store) : Prop where
  providers : ∀ k t', s'.topUps.find k = some t' →
    ∃ t, s.topUps.find k = some t ∧ t'.paymentProvider = t.paymentProvider
  payments : ∀ k, Unpaid s s' k
  metadata : s'.metadata = s.metadata
  reconciliations : s'.reconciliations = s.reconciliations
  settlements : s'.settlements = s.settlements

theorem Closing.rfl : Closing s s :=
  ⟨fun _ t h => ⟨t, h, .refl _⟩, fun _ => .inl (.refl _), .refl _, .refl _, .refl _⟩

theorem Unpaid.trans {u : Store} (h : Unpaid s s' k) (h' : Unpaid s' u k) : Unpaid s u k := by
  obtain heq | ⟨p, p', hp, hp', hst, hst'⟩ := h
  · unfold Unpaid at h' ⊢
    rwa [heq] at h'
  · obtain heq' | ⟨q, q', hq, hq', hqst, hqst'⟩ := h'
    · exact .inr ⟨p, p', hp, heq'.trans hp', hst, hst'⟩
    · exact .inr ⟨p, q', hp, hq', hst, hqst'⟩

theorem Closing.trans {u : Store} (h : Closing s s') (h' : Closing s' u) : Closing s u where
  providers k t' ht' := by
    obtain ⟨t₁, ht₁, hprov₁⟩ := h'.providers k t' ht'
    obtain ⟨t, ht, hprov⟩ := h.providers k t₁ ht₁
    exact ⟨t, ht, hprov₁.trans hprov⟩
  payments k := (h.payments k).trans (h'.payments k)
  metadata := h'.metadata.trans h.metadata
  reconciliations := h'.reconciliations.trans h.reconciliations
  settlements := h'.settlements.trans h.settlements

theorem setTopUp_closing (now : ℤ) (k : Text) (st : TopUpStatus) :
    Closing s (s.setTopUp k st now) := by
  refine ⟨fun j t' ht' => ?_, fun _ => .inl rfl, rfl, rfl, rfl⟩
  by_cases hj : j = k
  · subst hj
    rcases ht : s.topUps.find j with _ | t
    · simp [Store.setTopUp, Table.find_modify_self, ht] at ht'
    · rw [find_setTopUp_self st ht] at ht'
      cases ht'
      exact ⟨t, rfl, rfl⟩
  · rw [find_setTopUp_of_ne st hj] at ht'
    exact ⟨t', ht', rfl⟩

theorem setPayment_closing (st : DirectCryptoStatus) (hp : s.payments.find k = some p)
    (hpaid : p.status ≠ .paid) (hst : st ≠ .paid) : Closing s (s.setPayment k st) := by
  refine ⟨fun _ t h => ⟨t, h, rfl⟩, fun j => ?_, rfl, rfl, rfl⟩
  by_cases hj : j = k
  · subst hj
    exact .inr ⟨p, _, hp, find_setPayment_self st hp, hpaid, hst⟩
  · exact .inl (find_setPayment_of_ne st hj)

theorem expireDirectPaymentTx_closing (k : Text) : Closing s (expireDirectPaymentTx k s) := by
  unfold expireDirectPaymentTx
  split
  · next p hp =>
    split
    · next hst => exact setPayment_closing _ hp (not_paid_of_open (.inl hst)) (by decide)
    · exact .rfl
  · exact .rfl

theorem expireTopUp_closing (t : TopUp) : Closing s (expireTopUp now t s) := by
  unfold expireTopUp
  split
  · exact (setTopUp_closing _ _ _).trans (expireDirectPaymentTx_closing _)
  · exact setTopUp_closing _ _ _

theorem expireStaleTopUp_closing (c : DirectConfig) (now : ℤ) (k : Text) (s : Store) :
    Closing s (expireStaleTopUp c now k s).2 := by
  rcases expireStaleTopUp_cases c now k s with heq | ⟨-, -, -, ⟨-, heq⟩ | ⟨p, hp, hst, heq⟩⟩
  all_goals rw [heq]
  · exact .rfl
  · exact setTopUp_closing _ _ _
  · exact (setTopUp_closing now k .expired).trans
      (setPayment_closing _ hp (not_paid_of_open (.inl hst)) (by decide))

theorem expireStaleLoop_closing (ks : List Text) (s : Store) :
    Closing s (expireStaleLoop c now ks s).2 :=
  expireStaleLoop_keeps (fun k u h => h.trans (expireStaleTopUp_closing c now k u)) ks .rfl

theorem cancel_closing (k : Text) (userId : ℤ) :
    Closing s (cancelDirectCryptoPayment now k userId s).2 := by
  unfold cancelDirectCryptoPayment
  dsimp only
  split
  · exact .rfl
  split
  · exact .rfl
  split
  · exact .rfl
  rename_i p hp
  split
  · exact .rfl
  split
  · exact .rfl
  split
  · exact .rfl
  · next hopen =>
    have hst : p.status = .pending := not_not.mp (not_or.mp hopen).1
    exact (setTopUp_closing _ _ _).trans
      (setPayment_closing (s := s.setTopUp _ _ now) _ hp (not_paid_of_open (.inl hst)) (by decide))

theorem expireOrder_closing (k : Text) : Closing s (expireDirectUSDTOrder now k s).2 := by
  unfold expireDirectUSDTOrder
  split
  · exact expireDirectPaymentTx_closing k
  · split
    · exact (expireDirectPaymentTx_closing k).trans (setTopUp_closing _ _ _)
    · exact expireDirectPaymentTx_closing k

theorem getStatus_closing (k : Text) : Closing s (getDirectCryptoPaymentStatus now k s).2 := by
  unfold getDirectCryptoPaymentStatus
  dsimp only
  split
  · exact .rfl
  rename_i p hp
  split
  · exact .rfl
  rename_i hpaid
  split
  · split
    · exact setPayment_closing _ hp hpaid (by decide)
    · exact setPayment_closing _ hp hpaid (by decide)
    split
    · refine (setPayment_closing .expired hp hpaid (by decide)).trans ?_
      split
      · exact setTopUp_closing _ _ _
      · exact .rfl
    · exact .rfl
  · split
    · exact setTopUp_closing _ _ _
    · exact .rfl

theorem updatePending_closing (k : Text) (expected : Option PaymentProvider) (target : TopUpStatus) :
    Closing s (updatePendingTopUpStatus c now k expected target s).2 := by
  unfold updatePendingTopUpStatus
  split
  · exact .rfl
  split
  · exact .rfl
  split
  · exact .rfl
  · split
    · exact .rfl
    · exact expireTopUp_closing _
    · exact setTopUp_closing _ _ _

/-! ### The invariant -/

structure Evidence (c : DirectConfig) (e : DirectUSDTTransferEvent) (p : DirectCryptoPayment) :
    Prop where
  txHash : p.txHash = e.txHash
  eventIndex : p.eventIndex = e.eventIndex
  eventId : p.eventId = e.eventId
  network : equalFold p.network e.network = true
  contract : equalFold p.contract e.contract = true
  destination : sameDirectUSDTAddress c p.network e.toAddress p.eventDestination = true
  amount : p.expectedUnits = e.amountUnits
  created : p.createdAt ≤ e.blockUnix
  expires : e.blockUnix < p.expiresAt

structure Paid (c : DirectConfig) (spell : Transfer → Text) (s : Store) (k : Text)
    (p : DirectCryptoPayment) (e : DirectUSDTTransferEvent) : Prop where
  settled : ∃ quota, s.settlements k = [⟨some e, quota⟩]
  evidence : Evidence c e p
  spelled : e.eventId = spell (eventTransfer e)
  claimed : (k, .direct .crypto, e.eventId) ∈ s.metadata.map PaymentMetadata.key
  unreviewed : s.isReconciled e.network e.eventId = false

def UniqueIds (s : Store) : Prop :=
  ∀ a ∈ s.metadata.map PaymentMetadata.key, ∀ b ∈ s.metadata.map PaymentMetadata.key,
    a.2 = b.2 → a.1 = b.1

structure TransferInv (c : DirectConfig) (spell : Transfer → Text) (s : Store) : Prop where
  direct : ∀ k t, s.topUps.find k = some t → t.paymentProvider = .direct .crypto
  paid : ∀ k p, s.payments.find k = some p → p.status = .paid → ∃ e, Paid c spell s k p e
  unpaid : ∀ k, (∀ p, s.payments.find k = some p → p.status ≠ .paid) → s.settlements k = []
  ids : UniqueIds s
  review : ∀ r ∈ s.reconciliations, r.eventId = spell (reviewTransfer r)

variable {spell : Transfer → Text}

theorem validateEvent_evidence (h : validateEvent c now e p false = .ok ()) :
    Evidence c e (paidBy e p) := by
  unfold validateEvent at h
  split at h
  · cases h
  rename_i hfields
  simp only [not_or, Bool.not_eq_false] at hfields
  split at h
  · cases h
  rename_i hcreated
  split at h
  · cases h
  split at h
  · cases h
  rename_i hexpired
  split at h
  · cases h
  rename_i hdest
  split at h
  · cases h
  rename_i hamount
  have hexpires : e.blockUnix < p.expiresAt := by
    by_contra hge
    exact hexpired ⟨rfl, by omega⟩
  exact {
    txHash := rfl
    eventIndex := rfl
    eventId := rfl
    network := hfields.2.2.2.2.2.2.1
    contract := hfields.2.2.2.2.2.2.2
    destination := (Bool.not_eq_false _).mp hdest
    amount := (not_not.mp hamount).symm
    created := by simp only [paidBy]; omega
    expires := hexpires }

theorem TransferInv.closing (h : TransferInv c spell s) (hs : Closing s s') :
    TransferInv c spell s' where
  direct k t' ht' := by
    obtain ⟨t, ht, hprov⟩ := hs.providers k t' ht'
    rw [hprov]
    exact h.direct k t ht
  paid k p hp hpaid := by
    have hsame : s.payments.find k = some p := by
      obtain heq | ⟨_, p', _, hp', _, hst⟩ := hs.payments k
      · rw [← heq]
        exact hp
      · rw [hp] at hp'
        cases hp'
        exact absurd hpaid hst
    obtain ⟨e, he⟩ := h.paid k p hsame hpaid
    refine ⟨e, ?_, he.evidence, he.spelled, ?_, ?_⟩
    · rw [hs.settlements]
      exact he.settled
    · rw [hs.metadata]
      exact he.claimed
    · unfold Store.isReconciled
      rw [hs.reconciliations]
      exact he.unreviewed
  unpaid k hk := by
    rw [hs.settlements]
    refine h.unpaid k fun p hp => ?_
    obtain heq | ⟨q, _, hq, _, hst, _⟩ := hs.payments k
    · exact hk p (heq.trans hp)
    · rw [hp] at hq
      cases hq
      exact hst
  ids := by
    unfold UniqueIds
    rw [hs.metadata]
    exact h.ids
  review := by
    rw [hs.reconciliations]
    exact h.review

theorem MetadataGrows.mem (h : MetadataGrows s s') {a : Text × PaymentProvider × Text}
    (ha : a ∈ s.metadata.map PaymentMetadata.key) : a ∈ s'.metadata.map PaymentMetadata.key := by
  obtain heq | ⟨r, _, heq⟩ := h
  · rw [heq]
    exact ha
  · rw [heq]
    exact List.mem_cons_of_mem _ ha

theorem MetadataGrows.uniqueIds (h : MetadataGrows s s') (hids : UniqueIds s) : UniqueIds s' := by
  unfold UniqueIds
  obtain heq | ⟨r, hfree, heq⟩ := h
  · rw [heq]
    exact hids
  · have hnew : ∀ a ∈ s.metadata.map PaymentMetadata.key, a.2 ≠ r.key.2 := by
      intro a ha heq
      obtain ⟨m, hm, rfl⟩ := List.mem_map.mp ha
      simp only [PaymentMetadata.key, Prod.mk.injEq] at heq
      have hfree' := List.any_eq_false.mp hfree m hm
      simp [heq.1, heq.2] at hfree'
    rw [heq]
    intro a ha b hb hab
    obtain rfl | ha := List.mem_cons.mp ha
    · obtain rfl | hb := List.mem_cons.mp hb
      · rfl
      · exact absurd hab.symm (hnew b hb)
    · obtain rfl | hb := List.mem_cons.mp hb
      · exact absurd hab (hnew a ha)
      · exact hids a ha b hb hab

theorem TransferInv.onlyMetadata (h : TransferInv c spell s) (hs : OnlyMetadata s s') :
    TransferInv c spell s' where
  direct := by
    rw [hs.topUps]
    exact h.direct
  paid k p hp hpaid := by
    rw [hs.payments] at hp
    obtain ⟨e, he⟩ := h.paid k p hp hpaid
    refine ⟨e, ?_, he.evidence, he.spelled, hs.metadata.mem he.claimed, ?_⟩
    · rw [hs.settlements]
      exact he.settled
    · unfold Store.isReconciled
      rw [hs.reconciliations]
      exact he.unreviewed
  unpaid := by
    rw [hs.payments, hs.settlements]
    exact h.unpaid
  ids := hs.metadata.uniqueIds h.ids
  review := by
    rw [hs.reconciliations]
    exact h.review

/-! ### Creation, review and settlement -/

theorem create_transferInv {t₀ : TopUp} {p₀ : DirectCryptoPayment} (hpending : p₀.status = .pending)
    (h : TransferInv c spell s) :
    TransferInv c spell (createDirectUSDTOrder c now t₀ p₀ s).2 := by
  have hswept : TransferInv c spell (expireStalePendingTopUps c now t₀.userId s).2 :=
    h.closing (expireStaleLoop_closing _ _)
  generalize hs' : (createDirectUSDTOrder c now t₀ p₀ s).2 = s'
  have hout : CreateOutcome c now t₀ p₀ s s' := hs' ▸ create_outcome
  cases hout with
  | refused => exact h
  | swept => exact hswept
  | @created t p w topUps payments hnew hw ht hp =>
    subst hw
    have hst : p.status ≠ .paid := not_paid_of_open (.inl (hnew.payStatus.trans hpending))
    refine ⟨fun k t' ht' => ?_, fun k p' hp' hpaid => ?_, fun k hk => ?_, hswept.ids, hswept.review⟩
    · by_cases hk : k = t.tradeNo
      · subst hk
        rw [Table.find_insert_self ht] at ht'
        cases ht'
        exact hnew.provider
      · rw [Table.find_insert_of_ne ht hk] at ht'
        exact hswept.direct k t' ht'
    · by_cases hk : k = p.tradeNo
      · subst hk
        rw [Table.find_insert_self hp] at hp'
        cases hp'
        exact absurd hpaid hst
      · rw [Table.find_insert_of_ne hp hk] at hp'
        obtain ⟨e, he⟩ := hswept.paid k p' hp' hpaid
        exact ⟨e, he.settled, he.evidence, he.spelled, he.claimed, he.unreviewed⟩
    · refine hswept.unpaid k fun p' hp' => ?_
      by_cases hkp : k = p.tradeNo
      · subst hkp
        rw [Table.find_of_insert hp] at hp'
        cases hp'
      · exact hk p' ((Table.find_insert_of_ne hp hkp).trans hp')

theorem reconcile_transferInv {input : DirectUSDTTransferEvent} {reason : ReconciliationReason}
    {tradeNo : Text} {units : ℕ}
    (hspell : input.normalized.isChainEventValid c = true →
      input.normalized.eventId = spell (eventTransfer input.normalized))
    (h : TransferInv c spell s) :
    TransferInv c spell (recordDirectUSDTReconciliationEvent c now input reason tradeNo units s).2 := by
  unfold recordDirectUSDTReconciliationEvent
  dsimp only
  split
  · exact h
  rename_i hvalid
  have hchain : input.normalized.isChainEventValid c = true := by
    simp only [Bool.not_eq_false, Bool.and_eq_true] at hvalid
    exact hvalid.1.1
  split
  · exact h
  split
  · exact h
  rename_i hsettled
  split
  · exact h
  refine ⟨h.direct, fun k p hp hpaid => ?_, h.unpaid, h.ids, fun r hr => ?_⟩
  · obtain ⟨e, he⟩ := h.paid k p hp hpaid
    refine ⟨e, he.settled, he.evidence, he.spelled, he.claimed, ?_⟩
    -- a paid order with this id would have ended the call
    have hne : input.normalized.eventId ≠ e.eventId := by
      intro heq
      apply hsettled
      refine List.any_eq_true.mpr ⟨p, Table.find_mem hp, ?_⟩
      simp [he.evidence.eventId, heq, hpaid]
    have hold := he.unreviewed
    unfold Store.isReconciled at hold ⊢
    rw [List.any_cons, hold]
    simp [hne]
  · obtain rfl | hr := List.mem_cons.mp hr
    · exact hspell hchain
    · exact h.review r hr

theorem addSettlementMetadata_claims {provider : PaymentProvider} {m : Store}
    (h : addSettlementMetadata e provider s = .ok m) :
    (e.tradeNo, provider, e.eventId) ∈ m.metadata.map PaymentMetadata.key := by
  unfold addSettlementMetadata at h
  split at h
  · cases h
    exact List.mem_cons_self ..
  · split at h
    · cases h
    rename_i r hr
    split at h
    · cases h
    rename_i hkey
    cases h
    have hcols := List.find?_some hr
    simp only [Bool.and_eq_true, decide_eq_true_eq] at hcols
    refine List.mem_map.mpr ⟨r, List.mem_of_find?_eq_some hr, ?_⟩
    simp [PaymentMetadata.key, not_not.mp hkey, hcols.1, hcols.2]

theorem settled_transferInv {quota q : ℤ} {m : Store}
    (hspell : e.eventId = spell (eventTransfer e)) (ht : s.topUps.find e.tradeNo = some t)
    (hp : s.payments.find e.tradeNo = some p) (hpaid : p.status ≠ .paid)
    (hrec : s.isReconciled e.network e.eventId = false)
    (hevent : validateEvent c now e p false = .ok ())
    (hm : addSettlementMetadata e t.paymentProvider (s.setTopUp e.tradeNo .success now) = .ok m)
    (h : TransferInv c spell s) : TransferInv c spell (settledStore e t quota q m) := by
  have hk : t.tradeNo = e.tradeNo := Table.find_key ht
  have hclosed := h.closing (setTopUp_closing now e.tradeNo .success)
  have hmeta := addSettlementMetadata_onlyMetadata hm
  have hinv : TransferInv c spell m := hclosed.onlyMetadata hmeta
  have hpm : m.payments.find e.tradeNo = some p := by
    rw [hmeta.payments]
    exact hp
  have hnone : m.settlements e.tradeNo = [] := by
    refine hinv.unpaid _ fun p' hp' => ?_
    rw [hpm] at hp'
    cases hp'
    exact hpaid
  refine ⟨hinv.direct, fun k p' hp' hpaid' => ?_, fun k hunpaid => ?_, hinv.ids, hinv.review⟩
  · by_cases hke : k = e.tradeNo
    · subst hke
      rw [find_settledStore_self hpm] at hp'
      cases hp'
      refine ⟨e, ⟨quota, ?_⟩, validateEvent_evidence hevent, hspell, ?_, ?_⟩
      · simp [settledStore, hk, hnone]
      · have hclaim := addSettlementMetadata_claims hm
        rw [h.direct _ t ht] at hclaim
        exact hclaim
      · have hsame : m.reconciliations = s.reconciliations := hmeta.reconciliations
        simp only [settledStore, hsame]
        exact hrec
    · rw [find_settledStore_of_ne hke] at hp'
      obtain ⟨e', he'⟩ := hinv.paid k p' hp' hpaid'
      refine ⟨e', ?_, he'.evidence, he'.spelled, he'.claimed, he'.unreviewed⟩
      obtain ⟨quota', hq⟩ := he'.settled
      refine ⟨quota', ?_⟩
      simp [settledStore, hk, if_neg hke, hq]
  · by_cases hke : k = e.tradeNo
    · subst hke
      exact absurd rfl (hunpaid _ (find_settledStore_self hpm))
    · simp only [settledStore, hk, if_neg hke]
      refine hinv.unpaid k fun p' hp' => hunpaid p' ?_
      rw [find_settledStore_of_ne hke]
      exact hp'

theorem settle_transferInv {input : DirectUSDTTransferEvent}
    (hspell : input.normalized.isChainEventValid c = true →
      input.normalized.eventId = spell (eventTransfer input.normalized))
    (h : TransferInv c spell s) :
    TransferInv c spell (settleDirectUSDTTRC20Event c now input s).2 := by
  generalize hs' : (settleDirectUSDTTRC20Event c now input s).2 = s'
  have hout : SettleOutcome c now input.normalized s s' := hs' ▸ settle_outcome input
  cases hout with
  | noted hs => exact h.onlyMetadata hs
  | failed => exact h.closing (setTopUp_closing _ _ _)
  | expired ht hopen hs => exact (h.closing (expireTopUp_closing _)).onlyMetadata hs
  | settled hvalid ht hopen hp hstatus hrec hevent hquota hm =>
    have hchain : input.normalized.isChainEventValid c = true := (Bool.and_eq_true_iff.mp hvalid).2
    exact settled_transferInv (hspell hchain) ht hp (not_paid_of_open hstatus) hrec hevent hm h

/-! ### Runs -/

def Spelled (c : DirectConfig) (spell : Transfer → Text) (e : DirectUSDTTransferEvent) : Prop :=
  e.isChainEventValid c = true → e.eventId = spell (eventTransfer e)

instance : Decidable (Spelled c spell e) := inferInstanceAs (Decidable (_ = _ → _ = _))

def OneSpelling (c : DirectConfig) (spell : Transfer → Text) (_ : Store) (a : ℤ × Op) : Prop :=
  match a.2 with
  | .create _ p => p.status = .pending
  | .settle e => Spelled c spell e.normalized
  | .reconcile e _ _ _ => Spelled c spell e.normalized
  | _ => True

theorem perform_transferInv {op : Op} (hok : OneSpelling c spell s (now, op))
    (h : TransferInv c spell s) : TransferInv c spell (perform c now s op).2 := by
  cases op with
  | create t p => exact create_transferInv hok h
  | settle e => exact settle_transferInv hok h
  | reconcile e reason k units => exact reconcile_transferInv hok h
  | cancel k userId => exact h.closing (cancel_closing k userId)
  | expireStale userId => exact h.closing (expireStaleLoop_closing _ _)
  | expireOrder k => exact h.closing (expireOrder_closing k)
  | getStatus k => exact h.closing (getStatus_closing k)
  | updatePending k expected target => exact h.closing (updatePending_closing k expected target)
  | manualComplete k =>
    -- every order is direct, and these are refused
    unfold perform manualCompleteTopUp
    dsimp only
    split
    · exact h
    rename_i t ht
    have hd : t.paymentProvider.isDirect = true := by
      rw [h.direct k t ht]
      rfl
    simp only [hd, if_true]
    split
    · exact h
    · exact h
  | deleteUser userId => exact h.closing ⟨fun _ t ht => ⟨t, ht, rfl⟩, fun _ => .inl rfl, rfl, rfl, rfl⟩

def CreditedFor (s : Store) (k : Text) (e : DirectUSDTTransferEvent) : Prop :=
  ∃ quota, ⟨some e, quota⟩ ∈ s.settlements k

/-- Every credit has its evidence, every paid order its credit, and no transfer is spent on two
orders or on an order and a review. -/
structure TransfersSafe (c : DirectConfig) (s : Store) : Prop where
  credited : ∀ k e, CreditedFor s k e → (∃ quota, s.settlements k = [⟨some e, quota⟩]) ∧
    ∃ p, s.payments.find k = some p ∧ p.status = .paid ∧ Evidence c e p
  paid : ∀ k p, s.payments.find k = some p → p.status = .paid → ∃ e, CreditedFor s k e
  one : ∀ k k' e e', CreditedFor s k e → CreditedFor s k' e' →
    eventTransfer e = eventTransfer e' → k = k'
  review : ∀ r ∈ s.reconciliations, ∀ k e, CreditedFor s k e → eventTransfer e ≠ reviewTransfer r

theorem TransferInv.credited (h : TransferInv c spell s) (hc : CreditedFor s k e) :
    ∃ p, s.payments.find k = some p ∧ p.status = .paid ∧ Paid c spell s k p e := by
  obtain ⟨quota, hmem⟩ := hc
  by_cases hpaid : ∃ p, s.payments.find k = some p ∧ p.status = .paid
  · obtain ⟨p, hp, hst⟩ := hpaid
    obtain ⟨e', he'⟩ := h.paid k p hp hst
    obtain ⟨quota', hq⟩ := he'.settled
    rw [hq, List.mem_singleton] at hmem
    cases hmem
    exact ⟨p, hp, hst, he'⟩
  · rw [h.unpaid k fun p hp hst => hpaid ⟨p, hp, hst⟩] at hmem
    cases hmem

theorem TransferInv.safe (h : TransferInv c spell s) : TransfersSafe c s where
  credited k e hc := by
    obtain ⟨p, hp, hst, hpaid⟩ := h.credited hc
    exact ⟨hpaid.settled, p, hp, hst, hpaid.evidence⟩
  paid k p hp hst := by
    obtain ⟨e, he⟩ := h.paid k p hp hst
    obtain ⟨quota, hq⟩ := he.settled
    exact ⟨e, quota, by rw [hq]; exact List.mem_singleton_self _⟩
  one k k' e e' hc hc' heq := by
    obtain ⟨_, _, _, hpaid⟩ := h.credited hc
    obtain ⟨_, _, _, hpaid'⟩ := h.credited hc'
    have hid : e.eventId = e'.eventId := by rw [hpaid.spelled, hpaid'.spelled, heq]
    exact h.ids _ hpaid.claimed _ hpaid'.claimed (by rw [hid])
  review r hr k e hc heq := by
    obtain ⟨_, _, _, hpaid⟩ := h.credited hc
    have hid : r.eventId = e.eventId := by rw [h.review r hr, hpaid.spelled, heq]
    have hnet : r.network = e.network := (congrArg Prod.fst heq).symm
    have hfree := List.any_eq_false.mp hpaid.unreviewed r hr
    simp [hid, hnet] at hfree

theorem empty_transferInv (users : ℤ → Option ℤ) : TransferInv c spell (Store.empty users) where
  direct _ _ h := by cases h
  paid _ _ h := by cases h
  unpaid _ _ := rfl
  ids _ h := by cases h
  review _ h := by cases h

/-- In every run whose events name each transfer by one id, a transfer pays at most one order,
which it fits, and none if it was filed for review. -/
theorem transfer_pays_one_order {users : ℤ → Option ℤ}
    (h : Reach (next c) (OneSpelling c spell) (Store.empty users) s) : TransfersSafe c s := by
  have hinv : TransferInv c spell s := by
    refine Reach.invariant (empty_transferInv users) (fun t a u ht hok hn => ?_) h
    cases hn
    exact perform_transferInv hok ht
  exact hinv.safe

instance (a : ℤ × Op) : Decidable (OneSpelling c spell s a) :=
  match a with
  | (_, .create _ p) => inferInstanceAs (Decidable (p.status = .pending))
  | (_, .settle e) => inferInstanceAs (Decidable (Spelled c spell e.normalized))
  | (_, .reconcile e _ _ _) => inferInstanceAs (Decidable (Spelled c spell e.normalized))
  | (_, .cancel _ _) | (_, .expireStale _) | (_, .expireOrder _) | (_, .getStatus _)
  | (_, .updatePending _ _ _) | (_, .manualComplete _) | (_, .deleteUser _) => isTrue trivial

def networkSpelling (x : Transfer) : Text := directUSDTNetworkEventID x.1 x.2.1 x.2.2

def transferState (s : Store) : List (Option Transfer) × List Transfer :=
  ((s.settlements "T".toList).map fun x => x.event.map eventTransfer,
    s.reconciliations.map reviewTransfer)

def tronTransfer : Transfer := (tron, "h".toList, "0".toList)

theorem transfer_pays_one_order_unreviewed :
    ∃ s, Reach (next tronConfig) (OneSpelling tronConfig networkSpelling) (Store.empty fun _ => some 0) s ∧
      transferState s = ([some tronTransfer], []) ∧ TransfersSafe tronConfig s := by
  have hrun : (execute (next tronConfig) (OneSpelling tronConfig networkSpelling)
      [(100, .create tronTopUp tronPayment), (300, .settle tronEvent),
        (301, .reconcile tronEvent .orphan [] 0)]
      (Store.empty fun _ => some 0)).map
        (fun s => decide (transferState s = ([some tronTransfer], []))) = some true := by
    decide +kernel
  obtain ⟨s, hs, hout⟩ := exists_reach_of_execute hrun
  exact ⟨s, hs, of_decide_eq_true hout, transfer_pays_one_order hs⟩

/-- Under its other id the same transfer is filed for review after it has paid. -/
theorem transfer_pays_and_is_reviewed :
    ∃ s, Reach (next tronConfig) Any (Store.empty fun _ => some 0) s ∧
      transferState s = ([some tronTransfer], [tronTransfer]) ∧ ¬ TransfersSafe tronConfig s := by
  have hrun : (execute (next tronConfig) Any
      [(100, .create tronTopUp tronPayment), (300, .settle tronEvent),
        (301, .reconcile { tronEvent with eventId := "h:0".toList } .orphan [] 0)]
      (Store.empty fun _ => some 0)).map
        (fun s => decide (transferState s = ([some tronTransfer], [tronTransfer]))) =
      some true := by decide +kernel
  obtain ⟨s, hs, hout⟩ := exists_reach_of_execute hrun
  have hout := of_decide_eq_true hout
  refine ⟨s, hs, hout, fun hsafe => ?_⟩
  obtain ⟨hpaid, hreview⟩ := Prod.mk.inj hout
  have hx : some tronTransfer ∈ (s.settlements "T".toList).map fun x => x.event.map eventTransfer := by
    rw [hpaid]
    exact List.mem_singleton_self _
  have hr : tronTransfer ∈ s.reconciliations.map reviewTransfer := by
    rw [hreview]
    exact List.mem_singleton_self _
  obtain ⟨⟨event, quota⟩, hx, hevent⟩ := List.mem_map.mp hx
  obtain ⟨e, rfl, he⟩ := Option.map_eq_some_iff.mp hevent
  obtain ⟨r, hr, hrt⟩ := List.mem_map.mp hr
  exact hsafe.review r hr _ e ⟨quota, hx⟩ (he.trans hrt.symm)

end NewApi.Model.Direct
