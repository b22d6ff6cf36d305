import NewApi.Model.DirectCryptoPhases

/-!
# The events of one direct order in any order (model/direct_crypto_payment.go)

Each event is delivered again until it is settled or refused for good.
-/

namespace NewApi.Model.Direct.Delivery

abbrev Schedule := List (ℤ × Step)

variable (c : DirectConfig)

def final (σ : Schedule) (s : Store) : Store := σ.foldl (fun s x => (perform c s x).2) s

def results : Schedule → Store → List (DirectUSDTTransferEvent × Except TopUpError Unit)
  | [], _ => []
  | (now, .deliver e) :: σ, s =>
    (e, (perform c s (now, .deliver e)).1) :: results σ (perform c s (now, .deliver e)).2
  | (now, .sweep userId) :: σ, s => results σ (perform c s (now, .sweep userId)).2

variable {c}

/-- A schedule of events of the order, each mined before it is delivered; an event id names
one event. -/
structure Valid (c : DirectConfig) (s : Store) (t : TopUp) (p : DirectCryptoPayment)
    (σ : Schedule) : Prop where
  fits : ∀ now e, (now, .deliver e) ∈ σ → Matches c t p e
  mined : ∀ now e, (now, .deliver e) ∈ σ → e.normalized.blockUnix ≤ now
  unseen : ∀ now e, (now, .deliver e) ∈ σ → Unseen s e
  distinct : ∀ now now' e e', (now, .deliver e) ∈ σ → (now', .deliver e') ∈ σ →
    e.normalized.eventId = e'.normalized.eventId → e = e'

def isInside (p : DirectCryptoPayment) : ℤ × Step → Bool
  | (_, .deliver e) => inside p e
  | (_, .sweep _) => false

def hasInside (p : DirectCryptoPayment) (σ : Schedule) : Bool := σ.any (isInside p)

/-- No late event comes before the first one that is inside the window, if there is one. -/
def prompt (p : DirectCryptoPayment) : Schedule → Bool
  | [] => true
  | (_, .sweep _) :: σ => prompt p σ
  | (_, .deliver e) :: σ =>
    if inside p e then true else if late p e then !hasInside p σ else prompt p σ

/-- The order is settled with one credit, of the quota that its configuration gives, to its user. -/
structure PaidOnce (c : DirectConfig) (t : TopUp) (s s' : Store) : Prop where
  topUp : (s'.topUps.find t.tradeNo).map TopUp.status = some .success
  payment : (s'.payments.find t.tradeNo).map DirectCryptoPayment.status = some .paid
  credits : (s'.settlements t.tradeNo).map Settlement.quota = [resolvedQuota c.sources t]
  user : s'.users t.userId = (s.users t.userId).map (· + resolvedQuota c.sources t)

structure Unpaid (t : TopUp) (s s' : Store) : Prop where
  topUp : (s'.topUps.find t.tradeNo).map TopUp.status ≠ some .success
  payment : (s'.payments.find t.tradeNo).map DirectCryptoPayment.status ≠ some .paid
  credits : s'.settlements t.tradeNo = []
  user : s'.users t.userId = s.users t.userId

structure Good (c : DirectConfig) (s : Store) (t : TopUp) (p : DirectCryptoPayment)
    (σ : Schedule) : Prop where
  ends : ∀ x ∈ results c σ s, ∃ y ∈ results c σ s, y.1 = x.1 ∧ closes y.2 = true
  paid : hasInside p σ = true → PaidOnce c t s (final c σ s)
  unpaid : hasInside p σ = false → Unpaid t s (final c σ s)

variable {now : ℤ} {s₀ s : Store} {t : TopUp} {p : DirectCryptoPayment}
  {e : DirectUSDTTransferEvent} {id : Text}

section Schedules

variable {σ : Schedule} {n : DirectUSDTTransferEvent}

theorem Valid.tail {x : ℤ × Step} (h : Valid c s₀ t p (x :: σ)) : Valid c s₀ t p σ where
  fits now e he := h.fits now e (List.mem_cons_of_mem _ he)
  mined now e he := h.mined now e (List.mem_cons_of_mem _ he)
  unseen now e he := h.unseen now e (List.mem_cons_of_mem _ he)
  distinct now now' e e' he he' :=
    h.distinct now now' e e' (List.mem_cons_of_mem _ he) (List.mem_cons_of_mem _ he')

theorem Paid.run (hr : Ready c s₀ t p) (hσ : Valid c s₀ t p σ) (hin : inside p n = true)
    (hn : ∀ now e, (now, .deliver e) ∈ σ → n.normalized.eventId = e.normalized.eventId → n = e)
    (h : Paid c s₀ t p n.normalized s) :
    Paid c s₀ t p n.normalized (final c σ s) ∧ ∀ x ∈ results c σ s, closes x.2 = true := by
  induction σ generalizing s with
  | nil => exact ⟨h, fun x hx => absurd hx List.not_mem_nil⟩
  | cons x σ ih =>
    have hn' : ∀ now e, (now, .deliver e) ∈ σ →
        n.normalized.eventId = e.normalized.eventId → n = e :=
      fun now e he => hn now e (List.mem_cons_of_mem _ he)
    obtain ⟨now, step⟩ := x
    cases step with
    | deliver e =>
      have he : (now, Step.deliver e) ∈ (now, Step.deliver e) :: σ := List.mem_cons_self
      obtain ⟨hcloses, hsame⟩ := h.deliver hr (hσ.fits now e he) (hσ.unseen now e he)
        (hσ.mined now e he) hin (hn now e he)
      have hnext : Paid c s₀ t p n.normalized (perform c s (now, .deliver e)).2 := by
        simp only [perform, hsame]
        exact h
      obtain ⟨hfinal, hrest⟩ := ih hσ.tail hn' hnext
      refine ⟨hfinal, fun x hx => ?_⟩
      rcases List.mem_cons.mp hx with rfl | hx
      · exact hcloses
      · exact hrest x hx
    | sweep userId => exact ih hσ.tail hn' (h.sweep hr userId)

theorem Late.run (hr : Ready c s₀ t p) (hσ : Valid c s₀ t p σ)
    (hid : ∀ now e, (now, .deliver e) ∈ σ → inside p e = true → id ≠ e.normalized.eventId)
    (h : Late s₀ t p id s) :
    Late s₀ t p id (final c σ s) ∧
      (hasInside p σ = false → ∀ x ∈ results c σ s, closes x.2 = true) := by
  induction σ generalizing s with
  | nil => exact ⟨h, fun _ x hx => absurd hx List.not_mem_nil⟩
  | cons x σ ih =>
    have hid' : ∀ now e, (now, .deliver e) ∈ σ → inside p e = true → id ≠ e.normalized.eventId :=
      fun now e he => hid now e (List.mem_cons_of_mem _ he)
    obtain ⟨now, step⟩ := x
    cases step with
    | deliver e =>
      have he : (now, Step.deliver e) ∈ (now, Step.deliver e) :: σ := List.mem_cons_self
      have hm := hσ.fits now e he
      have hu := hσ.unseen now e he
      have hnow := hσ.mined now e he
      -- what this delivery does, by the place of its block time
      have hstep : Late s₀ t p id (perform c s (now, .deliver e)).2 ∧
          (inside p e = false → closes (perform c s (now, .deliver e)).1 = true) := by
        simp only [perform]
        rcases hin : inside p e
        · rcases hlate : late p e
          · rw [h.deliver_early hr hm hu hnow hin hlate]
            exact ⟨h, fun _ => rfl⟩
          · obtain ⟨hresult, hnext⟩ := h.deliver_late hr hm hu hnow hlate
            refine ⟨hnext, fun _ => ?_⟩
            rw [hresult]
            rfl
        · rw [h.deliver_inside hr hm hu hnow hin (hid now e he hin)]
          refine ⟨h, fun hno => ?_⟩
          cases hno
      obtain ⟨hfinal, hrest⟩ := ih hσ.tail hid' hstep.1
      refine ⟨hfinal, fun hno x hx => ?_⟩
      simp only [hasInside, List.any_cons, Bool.or_eq_false_iff] at hno
      rcases List.mem_cons.mp hx with rfl | hx
      · exact hstep.2 hno.1
      · exact hrest hno.2 x hx
    | sweep userId =>
      obtain ⟨hfinal, hrest⟩ := ih hσ.tail hid' (h.sweep hr userId)
      refine ⟨hfinal, fun hno x hx => hrest ?_ x hx⟩
      simpa [hasInside, isInside] using hno

theorem not_late_of_inside (h : inside p e = true) : late p e = false := by
  simp only [inside, Bool.and_eq_true, decide_eq_true_eq] at h
  simp only [late, decide_eq_false_iff_not]
  omega

theorem Valid.late_id {x : ℤ × DirectUSDTTransferEvent}
    (hσ : Valid c s₀ t p ((x.1, .deliver x.2) :: σ)) (hlate : late p x.2 = true) :
    ∀ now e, (now, .deliver e) ∈ σ → inside p e = true →
      x.2.normalized.eventId ≠ e.normalized.eventId := by
  intro now e he hin hsame
  have heq := hσ.distinct x.1 now x.2 e List.mem_cons_self (List.mem_cons_of_mem _ he) hsame
  rw [heq, not_late_of_inside hin] at hlate
  cases hlate

structure Settled (c : DirectConfig) (s₀ : Store) (t : TopUp) (p : DirectCryptoPayment)
    (σ : Schedule) (s : Store) : Prop where
  ends : ∀ x ∈ results c σ s, closes x.2 = true
  paid : hasInside p σ = true → ∃ n, Paid c s₀ t p n (final c σ s)
  unpaid : hasInside p σ = false →
    Open s₀ t p (final c σ s) ∨ ∃ id, Late s₀ t p id (final c σ s)

theorem hasInside_cons {x : ℤ × Step} (h : isInside p x = false) :
    hasInside p (x :: σ) = hasInside p σ := by
  simp [hasInside, h]

theorem Open.run (hr : Ready c s₀ t p) (hσ : Valid c s₀ t p σ) (h : Open s₀ t p s) :
    (prompt p σ = true → Settled c s₀ t p σ s) ∧
      (prompt p σ = false → hasInside p σ = true ∧ ∃ id, Late s₀ t p id (final c σ s)) := by
  induction σ generalizing s with
  | nil =>
    refine ⟨fun _ => ⟨fun x hx => absurd hx List.not_mem_nil, fun hhas => ?_, fun _ => .inl h⟩,
      fun hno => ?_⟩
    · cases hhas
    · cases hno
  | cons x σ ih =>
    obtain ⟨now, step⟩ := x
    cases step with
    | deliver e =>
      have he : (now, Step.deliver e) ∈ (now, Step.deliver e) :: σ := List.mem_cons_self
      have hm := hσ.fits now e he
      have hu := hσ.unseen now e he
      have hnow := hσ.mined now e he
      simp only [prompt]
      rcases hin : inside p e
      · have hsame : hasInside p ((now, .deliver e) :: σ) = hasInside p σ := hasInside_cons hin
        rcases hlate : late p e
        · -- refused, and the order is open as before
          have hstep : perform c s (now, .deliver e) = (.error .directInvalid, s) :=
            h.deliver_early hr hm hu hnow hin hlate
          have hfinal : final c ((now, .deliver e) :: σ) s = final c σ s := by
            simp [final, hstep]
          rw [hsame, hfinal]
          obtain ⟨hprompt, hblocked⟩ := ih hσ.tail h
          refine ⟨fun hyes => ?_, hblocked⟩
          obtain ⟨hends, hpaid, hunpaid⟩ := hprompt hyes
          refine ⟨fun x hx => ?_, ?_, ?_⟩
          · simp only [results, hstep] at hx
            rcases List.mem_cons.mp hx with rfl | hx
            · rfl
            · exact hends x hx
          · rw [hsame, hfinal]
            exact hpaid
          · rw [hsame, hfinal]
            exact hunpaid
        · -- the first late event; it is settled only if none in time follows
          obtain ⟨hresult, hnext⟩ := h.deliver_late hr hm hu hnow hlate
          obtain ⟨hfinal, hrest⟩ := Late.run hr hσ.tail
            (hσ.late_id (x := (now, e)) hlate) hnext
          rw [hsame]
          refine ⟨fun hyes => ?_, fun hno => ⟨by simpa using hno, _, hfinal⟩⟩
          have hnone : hasInside p σ = false := by simpa using hyes
          refine ⟨fun x hx => ?_, fun hhas => ?_, fun _ => .inr ⟨_, hfinal⟩⟩
          · rcases List.mem_cons.mp hx with rfl | hx
            · simp only [perform, hresult]
              rfl
            · exact hrest hnone x hx
          · rw [hsame, hnone] at hhas
            cases hhas
      · refine ⟨fun _ => ?_, fun hno => by cases hno⟩
        obtain ⟨hresult, hnext⟩ := h.deliver_inside hr hm hu hnow hin
        obtain ⟨hfinal, hrest⟩ := Paid.run hr hσ.tail hin
          (fun now' e' he' => hσ.distinct now now' e e' he (List.mem_cons_of_mem _ he')) hnext
        refine ⟨fun x hx => ?_, fun _ => ⟨_, hfinal⟩, fun hno => ?_⟩
        · rcases List.mem_cons.mp hx with rfl | hx
          · simp only [perform, hresult]
            rfl
          · exact hrest x hx
        · simp only [hasInside, List.any_cons, isInside, hin, Bool.true_or,
            Bool.true_eq_false] at hno
    | sweep userId =>
      have hsame : hasInside p ((now, .sweep userId) :: σ) = hasInside p σ := hasInside_cons rfl
      obtain ⟨hprompt, hblocked⟩ := ih hσ.tail (h.sweep hr userId)
      refine ⟨fun hyes => ?_, hblocked⟩
      obtain ⟨hends, hpaid, hunpaid⟩ := hprompt hyes
      exact ⟨hends, hsame ▸ hpaid, hsame ▸ hunpaid⟩

end Schedules

theorem Ready.isPhaseOpen (h : Ready c s t p) : Open s t p s := by
  refine ⟨?_, rfl, rfl, rfl, h.noCredit⟩
  have hrows : Rows t t.status { p with status := payStatus t.status } s := by
    refine ⟨⟨t.completeTime, h.topUp⟩, ?_⟩
    rw [← h.status]
    exact h.payment
  rcases h.isOpen with hst | hst
  · rw [hst] at hrows
    exact .inl hrows
  · rw [hst] at hrows
    exact .inr hrows

theorem Paid.paidOnce {n : DirectUSDTTransferEvent} (h : Paid c s₀ t p n s) :
    PaidOnce c t s₀ s := by
  obtain ⟨st, hrows⟩ := h.rows
  obtain ⟨time, ht⟩ := hrows.topUp
  refine ⟨?_, ?_, h.credits, h.users⟩
  · rw [ht]
    rfl
  · rw [hrows.payment]
    rfl

theorem Rows.unpaid {st : TopUpStatus} {ps : DirectCryptoStatus}
    (h : Rows t st { p with status := ps } s) (hst : st ≠ .success) (hps : ps ≠ .paid)
    (husers : s.users = s₀.users) (hcredits : s.settlements t.tradeNo = []) : Unpaid t s₀ s := by
  obtain ⟨time, ht⟩ := h.topUp
  refine ⟨?_, ?_, hcredits, by rw [husers]⟩
  · rw [ht]
    intro hs
    exact hst (Option.some.inj hs)
  · rw [h.payment]
    intro hs
    exact hps (Option.some.inj hs)

theorem Open.unpaid (h : Open s₀ t p s) : Unpaid t s₀ s := by
  rcases h.rows with hrows | hrows
  · exact hrows.unpaid (by decide) (by decide) h.users h.credits
  · exact hrows.unpaid (by decide) (by decide) h.users h.credits

theorem Late.unpaid (h : Late s₀ t p id s) : Unpaid t s₀ s :=
  h.rows.unpaid (by decide) (by decide) h.users h.credits

def orderPayment (p : DirectCryptoPayment) : DirectCryptoPayment :=
  { p with network := toUpper (trimSpace p.network) }

def orderTopUp (t : TopUp) (p : DirectCryptoPayment) : TopUp :=
  { t with
    requestedAmount := (p.baseUnits : Rat) / 1000000
    paymentBaseAmount := (p.baseUnits : Rat) / 1000000
    paymentChargedAmount := (p.expectedUnits : Rat) / 1000000
    paymentPendingTTLSeconds := p.expiresAt - p.createdAt }

/-- A created order is open: its rows are there, and nothing was credited or recorded for it. -/
theorem create_ready {now : ℤ} {s' : Store} (h : createDirectUSDTOrder c now t p s = (.ok (), s'))
    (htrim : trimSpace t.tradeNo = t.tradeNo) (hkey : p.tradeNo = t.tradeNo)
    (hpending : p.status = .pending) (haddress : p.address ≠ [])
    (hmeta : ∀ m ∈ s.metadata, m.tradeNo ≠ t.tradeNo) (hcredit : s.settlements t.tradeNo = []) :
    Ready c s' (orderTopUp t p) (orderPayment p) := by
  unfold createDirectUSDTOrder at h
  dsimp only at h
  split at h
  · cases h
  rename_i hvalid
  have hrest : SameRest s (expireStalePendingTopUps c now t.userId s).2 := expireStaleLoop_rest now _
  rcases hw : expireStalePendingTopUps c now t.userId s with ⟨_ | _, w⟩
  · rw [hw] at h
    cases h
  rw [hw] at h hrest
  dsimp only at h
  split at h
  · cases h
  rename_i hrefused
  split at h
  · cases h
  split at h
  · next topUps payments htopUps hpayments =>
    cases h
    simp only [Bool.not_eq_false, orderValid, Bool.and_eq_true, decide_eq_true_eq, and_assoc]
      at hvalid
    obtain ⟨-, huser, hbase, -, -, -, hprovider, hstatus, hcreate, hsame, htoken, hnetwork, hwindow,
      -, hexpected⟩ := hvalid
    have hexists : w.users p.userId ≠ none := by
      intro hnone
      simp [creationRefused, hnone] at hrefused
    refine ⟨Table.find_insert_self htopUps, ?_, .inl hstatus, ?_, htrim, hprovider,
      snapshot_of_units hbase hexpected rfl rfl rfl, huser, ?_, ?_, hwindow, htoken, haddress,
      hnetwork, ?_, ?_⟩
    · exact hkey ▸ Table.find_insert_self hpayments
    · change p.status = payStatus t.status
      rw [hpending, hstatus]
      rfl
    · exact huser ▸ hexists
    · change 0 < p.createdAt
      omega
    · intro m hm
      exact hmeta m (hrest.metadata ▸ hm)
    · exact (congrFun hrest.settlements _).trans hcredit
  · cases h

/-- The deliveries of an order settle it exactly when no late event comes before the first one
in time. -/
theorem direct_order_settles_in_order {σ : Schedule} (hr : Ready c s t p)
    (hσ : Valid c s t p σ) : Good c s t p σ ↔ prompt p σ = true := by
  constructor
  · intro hgood
    by_contra hno
    obtain ⟨hhas, id, hlate⟩ := (hr.isPhaseOpen.run hr hσ).2 ((Bool.not_eq_true _).mp hno)
    exact hlate.unpaid.topUp (hgood.paid hhas).topUp
  · intro hprompt
    obtain ⟨hends, hpaid, hunpaid⟩ := (hr.isPhaseOpen.run hr hσ).1 hprompt
    refine ⟨fun x hx => ⟨x, hx, rfl, hends x hx⟩, fun hhas => ?_, fun hno => ?_⟩
    · obtain ⟨n, hn⟩ := hpaid hhas
      exact hn.paidOnce
    · rcases hunpaid hno with hopen | ⟨id, hlate⟩
      · exact hopen.unpaid
      · exact hlate.unpaid

def tronStore : Store :=
  (createDirectUSDTOrder tronConfig 100 tronTopUp tronPayment (Store.empty fun _ => some 0)).2

theorem tron_ready :
    Ready tronConfig tronStore (orderTopUp tronTopUp tronPayment) (orderPayment tronPayment) := by
  have hcreated : (createDirectUSDTOrder tronConfig 100 tronTopUp tronPayment
      (Store.empty fun _ => some 0)).1 = .ok () := by decide +kernel
  exact create_ready (Prod.ext hcreated rfl) (by decide) rfl rfl (by decide)
    (fun m hm => absurd hm List.not_mem_nil) rfl

def tronLateEvent : DirectUSDTTransferEvent :=
  { tronEvent with txHash := "l".toList, blockTimestamp := 1500000 }

theorem tron_matches (e : DirectUSDTTransferEvent) (he : e = tronEvent ∨ e = tronLateEvent) :
    Matches tronConfig (orderTopUp tronTopUp tronPayment) (orderPayment tronPayment) e := by
  rcases he with rfl | rfl
  all_goals
    exact ⟨by decide +kernel, by decide +kernel, rfl, by decide +kernel, by decide +kernel,
      by decide +kernel, by decide +kernel, rfl⟩

theorem tron_valid {σ : Schedule} (hσ : ∀ now e, (now, .deliver e) ∈ σ →
    (e = tronEvent ∨ e = tronLateEvent) ∧ 2000 ≤ now) :
    Valid tronConfig tronStore (orderTopUp tronTopUp tronPayment) (orderPayment tronPayment) σ := by
  have hunseen : ∀ e : DirectUSDTTransferEvent, Unseen tronStore e := fun e =>
    ⟨rfl, fun m hm => absurd hm List.not_mem_nil⟩
  have hids : tronEvent.normalized.eventId ≠ tronLateEvent.normalized.eventId := by
    decide +kernel
  have hblock : tronEvent.normalized.blockUnix ≤ 2000 ∧
      tronLateEvent.normalized.blockUnix ≤ 2000 := by decide +kernel
  refine ⟨fun now e he => tron_matches e (hσ now e he).1, fun now e he => ?_,
    fun now e _ => hunseen e, fun now now' e e' he he' hid => ?_⟩
  · obtain ⟨rfl | rfl, hnow⟩ := hσ now e he
    · exact hblock.1.trans hnow
    · exact hblock.2.trans hnow
  · obtain ⟨rfl | rfl, -⟩ := hσ now e he
    · obtain ⟨rfl | rfl, -⟩ := hσ now' e' he'
      · rfl
      · exact absurd hid hids
    · obtain ⟨rfl | rfl, -⟩ := hσ now' e' he'
      · exact absurd hid.symm hids
      · rfl

theorem direct_order_settles_after_sweep :
    Good tronConfig tronStore (orderTopUp tronTopUp tronPayment) (orderPayment tronPayment)
      [(1200, .sweep 0), (2000, .deliver tronEvent), (2001, .deliver tronLateEvent)] := by
  refine (direct_order_settles_in_order tron_ready (tron_valid ?_)).mpr (by decide +kernel)
  intro now e he
  simp only [List.mem_cons, Prod.mk.injEq, reduceCtorEq, and_false, false_or, Step.deliver.injEq,
    List.not_mem_nil, or_false] at he
  rcases he with ⟨rfl, rfl⟩ | ⟨rfl, rfl⟩
  · exact ⟨.inl rfl, by decide⟩
  · exact ⟨.inr rfl, by decide⟩

/-- The late transfer is seen first and takes the metadata row: the payment in time is refused
with an error that the watchers retry, again and again, and the order stays unpaid. -/
theorem direct_order_blocked_by_late_event :
    let σ : Schedule :=
      [(2000, .deliver tronLateEvent), (2001, .deliver tronEvent), (2002, .deliver tronEvent)]
    Ready tronConfig tronStore (orderTopUp tronTopUp tronPayment) (orderPayment tronPayment) ∧
      Valid tronConfig tronStore (orderTopUp tronTopUp tronPayment) (orderPayment tronPayment) σ ∧
      hasInside (orderPayment tronPayment) σ = true ∧
      (results tronConfig σ tronStore).map (fun x => closes x.2) = [true, false, false] ∧
      orderState (final tronConfig σ tronStore) = (some .expired, some .expired, [], some 0) ∧
      ¬ Good tronConfig tronStore (orderTopUp tronTopUp tronPayment) (orderPayment tronPayment)
        σ := by
  intro σ
  have hstate : orderState (final tronConfig σ tronStore) =
      (some .expired, some .expired, [], some 0) := by decide +kernel
  have hhas : hasInside (orderPayment tronPayment) σ = true := by decide +kernel
  refine ⟨tron_ready, tron_valid ?_, hhas, by decide +kernel, hstate, fun hgood => ?_⟩
  · intro now e he
    simp only [σ, List.mem_cons, Prod.mk.injEq, Step.deliver.injEq, List.not_mem_nil,
      or_false] at he
    rcases he with ⟨rfl, rfl⟩ | ⟨rfl, rfl⟩ | ⟨rfl, rfl⟩
    · exact ⟨.inr rfl, by decide⟩
    · exact ⟨.inl rfl, by decide⟩
    · exact ⟨.inl rfl, by decide⟩
  · have hpaid := (hgood.paid hhas).topUp
    simp only [orderState, Prod.mk.injEq] at hstate
    have hexpired : (some TopUpStatus.expired) = some .success := hstate.1.symm.trans hpaid
    cases hexpired

end NewApi.Model.Direct.Delivery
