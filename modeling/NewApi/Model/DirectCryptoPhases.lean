import NewApi.Model.DirectCryptoSettle

/-!
# One delivery of an event of a direct order (model/direct_crypto_payment.go)

An order is open, has the metadata row of a late transfer, or is paid.
-/

namespace NewApi.Model.Direct.Delivery

inductive Step where
  | deliver (e : DirectUSDTTransferEvent)
  | sweep (userId : ℤ)

def isPermanentDirectSettlementError : TopUpError → Bool
  | .directInvalid | .directExpired | .directAlreadySettled | .directEventAlreadyUsed
  | .directAmountMismatch | .statusInvalid | .notFound | .paymentMethodMismatch
  | .userNotFound => true
  | _ => false

def closes : Except TopUpError Unit → Bool
  | .ok _ => true
  | .error e => isPermanentDirectSettlementError e

variable (c : DirectConfig)

def perform (s : Store) : ℤ × Step → Result
  | (now, .deliver e) => settleDirectUSDTTRC20Event c now e s
  | (now, .sweep userId) => expireStalePendingTopUps c now userId s

variable {c}

def inside (p : DirectCryptoPayment) (e : DirectUSDTTransferEvent) : Bool :=
  decide (p.createdAt ≤ e.normalized.blockUnix) && decide (e.normalized.blockUnix < p.expiresAt)

def late (p : DirectCryptoPayment) (e : DirectUSDTTransferEvent) : Bool :=
  decide (p.expiresAt ≤ e.normalized.blockUnix)

structure Ready (c : DirectConfig) (s : Store) (t : TopUp) (p : DirectCryptoPayment) : Prop where
  topUp : s.topUps.find t.tradeNo = some t
  payment : s.payments.find t.tradeNo = some p
  isOpen : t.status = .pending ∨ t.status = .expired
  status : p.status = payStatus t.status
  trimmed : trimSpace t.tradeNo = t.tradeNo
  provider : t.paymentProvider = .direct .crypto
  snapshot : t.hasPaymentSettlementSnapshot = true
  sameUser : p.userId = t.userId
  user : s.users t.userId ≠ none
  created : 0 < p.createdAt
  window : p.createdAt < p.expiresAt
  token : p.token = "USDT".toList
  address : p.address ≠ []
  network : validDirectUSDTNetwork c p.network p.contract = true
  noMetadata : ∀ m ∈ s.metadata, m.tradeNo ≠ t.tradeNo
  noCredit : s.settlements t.tradeNo = []

structure Matches (c : DirectConfig) (t : TopUp) (p : DirectCryptoPayment)
    (e : DirectUSDTTransferEvent) : Prop where
  valid : e.normalized.isEventValid c = true
  known : validDirectUSDTNetwork c e.normalized.network e.normalized.contract = true
  tradeNo : e.normalized.tradeNo = t.tradeNo
  timestamp : 0 < e.normalized.blockTimestamp
  network : equalFold p.network e.normalized.network = true
  contract : equalFold p.contract e.normalized.contract = true
  destination :
    sameDirectUSDTAddress c p.network e.normalized.toAddress p.eventDestination = true
  amount : e.normalized.amountUnits = p.expectedUnits

structure Unseen (s : Store) (e : DirectUSDTTransferEvent) : Prop where
  reviewed : s.isReconciled e.normalized.network e.normalized.eventId = false
  recorded : ∀ m ∈ s.metadata, m.externalPaymentId ≠ e.normalized.eventId

structure Rows (t : TopUp) (st : TopUpStatus) (p : DirectCryptoPayment) (s : Store) : Prop where
  topUp : ∃ time, s.topUps.find t.tradeNo = some { t with status := st, completeTime := time }
  payment : s.payments.find t.tradeNo = some p

structure Open (s₀ : Store) (t : TopUp) (p : DirectCryptoPayment) (s : Store) : Prop where
  rows : Rows t .pending { p with status := .pending } s ∨
    Rows t .expired { p with status := .expired } s
  users : s.users = s₀.users
  metadata : s.metadata = s₀.metadata
  reconciliations : s.reconciliations = s₀.reconciliations
  credits : s.settlements t.tradeNo = []

structure Late (s₀ : Store) (t : TopUp) (p : DirectCryptoPayment) (id : Text) (s : Store) :
    Prop where
  rows : Rows t .expired { p with status := .expired } s
  users : s.users = s₀.users
  metadata : ∃ body, s.metadata = ⟨t.tradeNo, .direct .crypto, id, body⟩ :: s₀.metadata
  reconciliations : s.reconciliations = s₀.reconciliations
  credits : s.settlements t.tradeNo = []

structure Paid (c : DirectConfig) (s₀ : Store) (t : TopUp) (p : DirectCryptoPayment)
    (n : DirectUSDTTransferEvent) (s : Store) : Prop where
  rows : ∃ st, Rows t .success (paidBy n { p with status := st }) s
  users : s.users t.userId = (s₀.users t.userId).map (· + resolvedQuota c.sources t)
  reconciliations : s.reconciliations = s₀.reconciliations
  credits : (s.settlements t.tradeNo).map Settlement.quota = [resolvedQuota c.sources t]

variable {now : ℤ} {s₀ s : Store} {t : TopUp} {p : DirectCryptoPayment}
  {e : DirectUSDTTransferEvent} {id : Text}

structure SameRest (s s' : Store) : Prop where
  users : s'.users = s.users
  metadata : s'.metadata = s.metadata
  reconciliations : s'.reconciliations = s.reconciliations
  settlements : s'.settlements = s.settlements

theorem SameRest.trans {s' u : Store} (h : SameRest s s') (h' : SameRest s' u) : SameRest s u :=
  ⟨h'.users.trans h.users, h'.metadata.trans h.metadata,
    h'.reconciliations.trans h.reconciliations, h'.settlements.trans h.settlements⟩

theorem expireStaleTopUp_rest (now : ℤ) (k : Text) : SameRest s (expireStaleTopUp c now k s).2 := by
  rcases expireStaleTopUp_cases c now k s with heq | ⟨-, -, -, ⟨-, heq⟩ | ⟨-, -, -, heq⟩⟩
  all_goals
    rw [heq]
    exact ⟨rfl, rfl, rfl, rfl⟩

def SweptRows (t : TopUp) (st : TopUpStatus) (p : DirectCryptoPayment) (s' : Store) : Prop :=
  Rows t st p s' ∨ (st = .pending ∧ Rows t .expired { p with status := .expired } s')

theorem SweptRows.closed {st : TopUpStatus} (h : SweptRows t st p s) (hst : st ≠ .pending) :
    Rows t st p s :=
  h.resolve_right fun hpending => hst hpending.1

theorem expireStaleTopUp_other (now : ℤ) {k j : Text} (hj : j ≠ k) :
    (expireStaleTopUp c now k s).2.topUps.find j = s.topUps.find j ∧
      (expireStaleTopUp c now k s).2.payments.find j = s.payments.find j := by
  rcases expireStaleTopUp_cases c now k s with heq | ⟨-, -, -, ⟨-, heq⟩ | ⟨-, -, -, heq⟩⟩
  all_goals rw [heq]
  · exact ⟨rfl, rfl⟩
  · exact ⟨find_setTopUp_of_ne _ hj, rfl⟩
  · exact ⟨find_setTopUp_of_ne _ hj, find_setPayment_of_ne _ hj⟩

theorem expireStaleTopUp_rows {st : TopUpStatus} (now : ℤ) (k : Text)
    (hd : t.paymentProvider = .direct .crypto) (hst : p.status = payStatus st)
    (h : Rows t st p s) : SweptRows t st p (expireStaleTopUp c now k s).2 := by
  obtain ⟨time, ht⟩ := h.topUp
  by_cases hk : t.tradeNo = k
  · subst hk
    rcases expireStaleTopUp_cases c now t.tradeNo s with heq | ⟨u, hu, hpend, hswept⟩
    · rw [heq]
      exact .inl h
    rw [ht] at hu
    cases hu
    cases (hpend : st = .pending)
    rcases hswept with ⟨hno, -⟩ | ⟨-, -, -, heq⟩
    · exact absurd hst (hno (by rw [hd]; rfl) p h.payment)
    rw [heq]
    refine .inr ⟨rfl, ⟨now, ?_⟩, find_setPayment_self _ h.payment⟩
    simp [Store.setPayment, Store.setTopUp, Table.find_modify_self, ht]
  · obtain ⟨htop, hpay⟩ := expireStaleTopUp_other (c := c) (s := s) now hk
    exact .inl ⟨⟨time, htop.trans ht⟩, hpay.trans h.payment⟩

theorem expireStaleLoop_rest (now : ℤ) (ks : List Text) :
    SameRest s (expireStaleLoop c now ks s).2 :=
  expireStaleLoop_keeps (fun k _ h => h.trans (expireStaleTopUp_rest now k)) ks
    ⟨rfl, rfl, rfl, rfl⟩

theorem expireStaleLoop_rows {st : TopUpStatus} (now : ℤ) (ks : List Text)
    (hd : t.paymentProvider = .direct .crypto) (hst : p.status = payStatus st)
    (h : Rows t st p s) : SweptRows t st p (expireStaleLoop c now ks s).2 := by
  refine expireStaleLoop_keeps (fun k u hu => ?_) ks (.inl h)
  rcases hu with hu | ⟨hpend, hu⟩
  · exact expireStaleTopUp_rows now k hd hst hu
  · -- expired rows stay as they are
    rcases expireStaleTopUp_rows now k hd rfl hu with hs | ⟨hno, _⟩
    · exact .inr ⟨hpend, hs⟩
    · cases hno

theorem sweep_rows {st : TopUpStatus} (now userId : ℤ) (hd : t.paymentProvider = .direct .crypto)
    (hst : p.status = payStatus st) (h : Rows t st p s) :
    SameRest s (perform c s (now, .sweep userId)).2 ∧
      SweptRows t st p (perform c s (now, .sweep userId)).2 :=
  ⟨expireStaleLoop_rest now _, expireStaleLoop_rows now _ hd hst h⟩

theorem Open.sweep (hr : Ready c s₀ t p) (h : Open s₀ t p s) (userId : ℤ) :
    Open s₀ t p (perform c s (now, .sweep userId)).2 := by
  rcases h.rows with hrows | hrows
  all_goals
    obtain ⟨hrest, hs⟩ := sweep_rows (c := c) now userId hr.provider rfl hrows
    refine ⟨?_, hrest.users.trans h.users, hrest.metadata.trans h.metadata,
      hrest.reconciliations.trans h.reconciliations, by rw [hrest.settlements]; exact h.credits⟩
  · exact hs.imp_right And.right
  · exact .inr (hs.closed (by decide))

theorem Late.sweep (hr : Ready c s₀ t p) (h : Late s₀ t p id s) (userId : ℤ) :
    Late s₀ t p id (perform c s (now, .sweep userId)).2 := by
  obtain ⟨hrest, hs⟩ := sweep_rows (c := c) now userId hr.provider rfl h.rows
  exact ⟨hs.closed (by decide), hrest.users.trans h.users, by rw [hrest.metadata]; exact h.metadata,
    hrest.reconciliations.trans h.reconciliations, by rw [hrest.settlements]; exact h.credits⟩

theorem Paid.sweep {n : DirectUSDTTransferEvent} (hr : Ready c s₀ t p) (h : Paid c s₀ t p n s)
    (userId : ℤ) : Paid c s₀ t p n (perform c s (now, .sweep userId)).2 := by
  obtain ⟨st, hrows⟩ := h.rows
  obtain ⟨hrest, hs⟩ := sweep_rows (c := c) now userId hr.provider rfl hrows
  exact ⟨⟨st, hs.closed (by decide)⟩, by rw [hrest.users]; exact h.users,
    hrest.reconciliations.trans h.reconciliations, by rw [hrest.settlements]; exact h.credits⟩

theorem resolve_of_snapshot {src : QuotaSources} (h : t.hasPaymentSettlementSnapshot = true) :
    resolveTopUpQuota src t = .ok (resolvedQuota src t) := by
  unfold resolvedQuota resolveTopUpQuota
  split
  · rfl
  · rfl

theorem Rows.reaches {st : TopUpStatus} {q : DirectCryptoPayment} (h : Rows t st q s)
    (hr : Ready c s₀ t p) (hm : Matches c t p e) (hu : Unseen s₀ e)
    (hnow : e.normalized.blockUnix ≤ now) (hrec : s.reconciliations = s₀.reconciliations)
    (hq : ∀ allow, validateEvent c now e.normalized q allow =
      validateEvent c now e.normalized p allow)
    (hcreated : q.createdAt = p.createdAt) (hexpires : q.expiresAt = p.expiresAt)
    (huser : q.userId = p.userId) :
    ∃ time, Reaches c now e.normalized s { t with status := st, completeTime := time } q := by
  obtain ⟨time, ht⟩ := h.topUp
  refine ⟨time, ?_⟩
  exact
    { valid := hm.valid
      known := hm.known
      fresh := by simpa [Store.isReconciled, hrec] using hu.reviewed
      topUp := by
        rw [hm.tradeNo]
        exact ht
      payment := by
        rw [hm.tradeNo]
        exact h.payment
      direct := by
        rw [hr.provider]
        rfl
      trimmed := by
        rw [hm.tradeNo]
        exact hr.trimmed
      sameUser := huser.trans hr.sameUser
      window := by
        rw [hcreated, hexpires]
        exact hr.window
      checks := fun allow => by
        rw [hq, hcreated, hexpires]
        exact validateEvent_fits hm.timestamp hr.created hr.window hr.token hr.address hr.network
          hm.network hm.contract hm.destination hm.amount hnow allow }

section Delivery

variable {st : TopUpStatus} {time : ℤ} {q : DirectCryptoPayment} {err : TopUpError}

theorem map_body {body body' : MetadataBody} {l : List PaymentMetadata} {k : Text}
    (hl : ∀ m ∈ l, m.tradeNo ≠ k) :
    (⟨k, .direct .crypto, id, body⟩ :: l : List PaymentMetadata).map
        (fun m => if m.tradeNo = k then { m with body := body' } else m) =
      ⟨k, .direct .crypto, id, body'⟩ :: l := by
  have hrest : l.map (fun m => if m.tradeNo = k then { m with body := body' } else m) = l := by
    have hid : ∀ m ∈ l, (if m.tradeNo = k then { m with body := body' } else m) = m :=
      fun m hmem => if_neg (hl m hmem)
    rw [List.map_congr_left hid, List.map_id']
  rw [List.map_cons, hrest, if_pos rfl]

theorem blockUnix_early (hin : inside p e = false) (hlate : late p e = false) :
    e.normalized.blockUnix < p.createdAt := by
  simp only [inside, late, Bool.and_eq_false_iff, decide_eq_false_iff_not] at hin hlate
  omega

theorem rows_expired (now : ℤ) (h : Rows t st q s) :
    Rows t .expired { q with status := .expired }
      ((s.setTopUp t.tradeNo .expired now).setPayment t.tradeNo .expired) := by
  obtain ⟨time, ht⟩ := h.topUp
  refine ⟨⟨now, ?_⟩, ?_⟩
  · simp [Store.setPayment, Store.setTopUp, Table.find_modify_self, ht]
  · simp [Store.setPayment, Store.setTopUp, Table.find_modify_self, h.payment]

variable (hr : Ready c s₀ t p) (hm : Matches c t p e) (hu : Unseen s₀ e)
include hr hm hu

theorem metadata_free (h : s.metadata = s₀.metadata) :
    s.metadataTaken e.normalized.tradeNo (.direct .crypto) e.normalized.eventId = false := by
  unfold Store.metadataTaken
  rw [h, hm.tradeNo]
  refine List.any_eq_false.mpr fun m hmem => ?_
  have htrade := hr.noMetadata m hmem
  have hid := hu.recorded m hmem
  simp [htrade, hid]

theorem recordLate_new (h : s.metadata = s₀.metadata) :
    recordLateDirectUSDTEvent e.normalized (.direct .crypto) s =
      (.error .directExpired, s.addMetadata ⟨t.tradeNo, .direct .crypto, e.normalized.eventId,
        .single (some e.normalized.eventId)⟩) := by
  unfold recordLateDirectUSDTEvent
  rw [if_pos (metadata_free hr hm hu h), hm.tradeNo]

section Noted

variable {body : MetadataBody}
  (h : s.metadata = ⟨t.tradeNo, .direct .crypto, id, body⟩ :: s₀.metadata)
include h

omit hr hu in
theorem metadata_taken :
    s.metadataTaken e.normalized.tradeNo (.direct .crypto) e.normalized.eventId = true := by
  unfold Store.metadataTaken
  rw [h, hm.tradeNo, List.any_cons, decide_eq_true rfl, Bool.true_or, Bool.true_or]

omit hr hm in
theorem metadataOfEvent_none (hid : id ≠ e.normalized.eventId) :
    s.metadataOfEvent (.direct .crypto) e.normalized.eventId = none := by
  unfold Store.metadataOfEvent
  rw [h]
  refine List.find?_eq_none.mpr fun m hmem => ?_
  rcases List.mem_cons.mp hmem with rfl | hmem
  · simp [hid]
  · simp [hu.recorded m hmem]

omit hr in
theorem metadata_blocked (hid : id ≠ e.normalized.eventId) :
    addSettlementMetadata e.normalized (.direct .crypto) s =
      .error (.other "duplicated key not allowed".toList) := by
  unfold addSettlementMetadata
  simp [metadata_taken hm h, metadataOfEvent_none hu h hid]

theorem recordLate_again :
    ∃ body', recordLateDirectUSDTEvent e.normalized (.direct .crypto) s =
      (.error .directExpired,
        { s with metadata := ⟨t.tradeNo, .direct .crypto, id, body'⟩ :: s₀.metadata }) := by
  have hsame : s = { s with metadata := ⟨t.tradeNo, .direct .crypto, id, body⟩ :: s₀.metadata } := by
    rw [← h]
  have hown : (s.metadataOfEvent (.direct .crypto) e.normalized.eventId).any
      (fun m => decide (m.tradeNo ≠ e.normalized.tradeNo)) = false := by
    by_cases hid : id = e.normalized.eventId
    · unfold Store.metadataOfEvent
      rw [h, List.find?_cons_of_pos (by simp [hid])]
      simp [hm.tradeNo]
    · rw [metadataOfEvent_none hu h hid]
      rfl
  have hrow : s.metadata.find? (fun m => decide (m.tradeNo = e.normalized.tradeNo)) =
      some ⟨t.tradeNo, .direct .crypto, id, body⟩ := by
    simp [h, hm.tradeNo]
  have hsave : ∀ body', s.metadata.map (fun m => if m.tradeNo = e.normalized.tradeNo then
      { m with body := body' } else m) =
      ⟨t.tradeNo, .direct .crypto, id, body'⟩ :: s₀.metadata := by
    intro body'
    rw [h, hm.tradeNo]
    exact map_body hr.noMetadata
  unfold recordLateDirectUSDTEvent
  simp only [metadata_taken hm h, hown, hrow, hsave, Bool.true_eq_false, Bool.false_eq_true, if_false, ne_eq,
    not_true_eq_false]
  cases body with
  | single eid | lateEvents ids =>
    dsimp only
    split
    · exact ⟨_, by rw [← hsame]⟩
    · exact ⟨_, rfl⟩

end Noted

theorem Open.pays {ps : DirectCryptoStatus} (h : Open s₀ t p s) (hin : inside p e = true)
    (hst : st = .pending ∨ st = .expired) (hps : ps = .pending ∨ ps = .expired)
    (hreach : Reaches c now e.normalized s { t with status := st, completeTime := time }
      { p with status := ps }) :
    (settleDirectUSDTTRC20Event c now e s).1 = .ok () ∧
      Paid c s₀ t p e.normalized (settleDirectUSDTTRC20Event c now e s).2 := by
  obtain ⟨user, huser⟩ := Option.ne_none_iff_exists'.mp hr.user
  simp only [inside, Bool.and_eq_true, decide_eq_true_eq] at hin
  have hfree : (s.setTopUp e.normalized.tradeNo .success now).metadataTaken e.normalized.tradeNo
      (.direct .crypto) e.normalized.eventId = false := metadata_free hr hm hu h.metadata
  have hmeta : addSettlementMetadata e.normalized (.direct .crypto)
      (s.setTopUp e.normalized.tradeNo .success now) =
      .ok ((s.setTopUp e.normalized.tradeNo .success now).addMetadata
        ⟨e.normalized.tradeNo, .direct .crypto, e.normalized.eventId, .single none⟩) := by
    unfold addSettlementMetadata
    rw [if_pos hfree]
  rw [← hr.provider] at hmeta
  have hquota : resolveTopUpQuota c.sources { t with status := st, completeTime := time } =
      .ok (resolvedQuota c.sources t) := resolve_of_snapshot (t := t) hr.snapshot
  have hq : s.users t.userId = some user := by rw [h.users, huser]
  have htop : s.topUps.find t.tradeNo = some { t with status := st, completeTime := time } := by
    have hfind := hreach.topUp
    rwa [hm.tradeNo] at hfind
  rw [hreach.settle_pays hps hst hin.1 hin.2 hquota hmeta hq]
  refine ⟨rfl, ⟨ps, ⟨now, ?_⟩, ?_⟩, ?_, h.reconciliations, ?_⟩
  · simp [settledStore, Store.addMetadata, Store.setTopUp, hm.tradeNo, Table.find_modify_self,
      htop]
  · rw [← hm.tradeNo]
    exact find_settledStore_self hreach.payment
  · simp [settledStore, huser]
  · simp [settledStore, Store.addMetadata, Store.setTopUp, h.credits]

variable (hnow : e.normalized.blockUnix ≤ now)
include hnow

theorem Open.reaches_cases (h : Open s₀ t p s) :
    (Rows t .pending { p with status := .pending } s ∧ ∃ time, Reaches c now e.normalized s
      { t with status := .pending, completeTime := time } { p with status := .pending }) ∨
    (Rows t .expired { p with status := .expired } s ∧ ∃ time, Reaches c now e.normalized s
      { t with status := .expired, completeTime := time } { p with status := .expired }) := by
  rcases h.rows with hrows | hrows
  · exact .inl ⟨hrows, hrows.reaches hr hm hu hnow h.reconciliations (fun _ => rfl) rfl rfl rfl⟩
  · exact .inr ⟨hrows, hrows.reaches hr hm hu hnow h.reconciliations (fun _ => rfl) rfl rfl rfl⟩

theorem Open.deliver_inside (h : Open s₀ t p s) (hin : inside p e = true) :
    (settleDirectUSDTTRC20Event c now e s).1 = .ok () ∧
      Paid c s₀ t p e.normalized (settleDirectUSDTTRC20Event c now e s).2 := by
  rcases h.reaches_cases hr hm hu hnow with ⟨-, time, hreach⟩ | ⟨-, time, hreach⟩
  · exact h.pays hr hm hu hin (.inl rfl) (.inl rfl) hreach
  · exact h.pays hr hm hu hin (.inr rfl) (.inr rfl) hreach

theorem Open.deliver_early (h : Open s₀ t p s) (hin : inside p e = false)
    (hlate : late p e = false) :
    settleDirectUSDTTRC20Event c now e s = (.error .directInvalid, s) := by
  have hearly := blockUnix_early hin hlate
  rcases h.reaches_cases hr hm hu hnow with ⟨-, time, hreach⟩ | ⟨-, time, hreach⟩
  · exact hreach.settle_early (.inl rfl) (.inl rfl) hearly
  · exact hreach.settle_early (.inr rfl) (.inr rfl) hearly

theorem Open.deliver_late (h : Open s₀ t p s) (hlate : late p e = true) :
    (settleDirectUSDTTRC20Event c now e s).1 = .error .directExpired ∧
      Late s₀ t p e.normalized.eventId (settleDirectUSDTTRC20Event c now e s).2 := by
  have hle : p.expiresAt ≤ e.normalized.blockUnix := of_decide_eq_true hlate
  rcases h.reaches_cases hr hm hu hnow with ⟨hrows, time, hreach⟩ | ⟨hrows, time, hreach⟩
  · rw [hreach.settle_pending_late rfl (.inl rfl) hle]
    simp only [hr.provider, hm.tradeNo]
    rw [recordLate_new (s := (s.setTopUp t.tradeNo .expired now).setPayment t.tradeNo .expired)
      hr hm hu h.metadata]
    obtain ⟨htop, hpay⟩ := rows_expired now hrows
    exact ⟨rfl, ⟨htop, hpay⟩, h.users, ⟨_, by rw [← h.metadata]; rfl⟩, h.reconciliations,
      h.credits⟩
  · rw [hreach.settle_expired_late rfl hle]
    simp only [hr.provider]
    rw [recordLate_new hr hm hu h.metadata]
    exact ⟨rfl, ⟨hrows.topUp, hrows.payment⟩, h.users, ⟨_, by rw [← h.metadata]; rfl⟩,
      h.reconciliations, h.credits⟩

theorem Late.reaches (h : Late s₀ t p id s) :
    ∃ time, Reaches c now e.normalized s { t with status := .expired, completeTime := time }
      { p with status := .expired } :=
  h.rows.reaches hr hm hu hnow h.reconciliations (fun _ => rfl) rfl rfl rfl

theorem Late.deliver_early (h : Late s₀ t p id s) (hin : inside p e = false)
    (hlate : late p e = false) :
    settleDirectUSDTTRC20Event c now e s = (.error .directInvalid, s) := by
  obtain ⟨time, hreach⟩ := h.reaches hr hm hu hnow
  exact hreach.settle_early (.inr rfl) (.inr rfl) (blockUnix_early hin hlate)

theorem Late.deliver_late (h : Late s₀ t p id s) (hlate : late p e = true) :
    (settleDirectUSDTTRC20Event c now e s).1 = .error .directExpired ∧
      Late s₀ t p id (settleDirectUSDTTRC20Event c now e s).2 := by
  obtain ⟨time, hreach⟩ := h.reaches hr hm hu hnow
  obtain ⟨body, hbody⟩ := h.metadata
  obtain ⟨body', hkept⟩ := recordLate_again hr hm hu hbody
  rw [hreach.settle_expired_late rfl (of_decide_eq_true hlate)]
  simp only [hr.provider, hkept]
  exact ⟨trivial, ⟨h.rows.topUp, h.rows.payment⟩, h.users, ⟨body', rfl⟩, h.reconciliations,
    h.credits⟩

theorem Late.deliver_inside (h : Late s₀ t p id s) (hin : inside p e = true)
    (hid : id ≠ e.normalized.eventId) :
    settleDirectUSDTTRC20Event c now e s =
      (.error (.other "duplicated key not allowed".toList), s) := by
  obtain ⟨time, hreach⟩ := h.reaches hr hm hu hnow
  obtain ⟨body, hbody⟩ := h.metadata
  simp only [inside, Bool.and_eq_true, decide_eq_true_eq] at hin
  have hquota : resolveTopUpQuota c.sources { t with status := .expired, completeTime := time } =
      .ok (resolvedQuota c.sources t) := resolve_of_snapshot (t := t) hr.snapshot
  have hdup := metadata_blocked (s := s.setTopUp e.normalized.tradeNo .success now) hm hu hbody hid
  rw [← hr.provider] at hdup
  exact hreach.settle_taken (.inr rfl) (.inr rfl) hin.1 hin.2 hquota hdup

theorem Paid.deliver {n : DirectUSDTTransferEvent} (h : Paid c s₀ t p n.normalized s)
    (hin : inside p n = true) (hsame : n.normalized.eventId = e.normalized.eventId → n = e) :
    closes (settleDirectUSDTTRC20Event c now e s).1 = true ∧
      (settleDirectUSDTTRC20Event c now e s).2 = s := by
  obtain ⟨ps, hrows⟩ := h.rows
  obtain ⟨time, hreach⟩ :=
    hrows.reaches hr hm hu hnow h.reconciliations (fun _ => rfl) rfl rfl rfl
  rw [hreach.settle_done rfl rfl]
  refine ⟨?_, afterSettlement_ok false⟩
  unfold afterSettlement
  simp only [hreach.payment]
  by_cases hid : n.normalized.eventId = e.normalized.eventId
  · have hne : n = e := hsame hid
    subst hne
    simp only [inside, Bool.and_eq_true, decide_eq_true_eq] at hin
    unfold confirmPaid
    rw [hreach.check_inTime hin.1 hin.2]
    simp only [paidBy, ne_eq, not_true_eq_false, or_self]
    rfl
  · rw [if_neg fun hno => hid hno.2]
    rfl

end Delivery

end NewApi.Model.Direct.Delivery
