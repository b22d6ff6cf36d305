import NewApi.Model.DirectCryptoAllocation
import NewApi.Model.DirectCryptoDelivery

/-!
# The exact amount is new, and exhaustion is real

A created order has an amount that no payment ever had.
-/

namespace NewApi.Model.Direct.Allocation

variable {c : AllocationConfig} {now : ℤ} {b b' : Books} {g : Grid} {t t' : TopUp}
  {p p' : Invoice} {x : ℕ}

/-! ### What the allocation promises -/

structure Exact (c : AllocationConfig) (b : Books) (p : Invoice) : Prop where
  fresh : ∀ q ∈ b.store.payments.rows, q.expectedUnits ≠ p.expectedUnits
  sum : p.expectedUnits = p.baseUnits + p.suffixUnits
  bounded : p.expectedUnits < uint64Size
  onGrid : ∃ g, directUSDTAmountSuffixRange c p.roundToCents = .ok g ∧ g.Mem p.suffixUnits
  unused : ∀ q ∈ b.store.payments.rows, onWallet b p q = true → q.baseUnits = p.baseUnits →
    (b.reservation q.tradeNo).suffixUnits ≠ p.suffixUnits

def Used (b : Books) (p : Invoice) (x : ℕ) : Prop :=
  (∃ q ∈ b.store.payments.rows, onWallet b p q = true ∧ q.baseUnits = p.baseUnits ∧
    (b.reservation q.tradeNo).suffixUnits = x) ∨
  ∃ q ∈ b.store.payments.rows, q.expectedUnits = p.baseUnits + x

/-- The wallet of the invoice has an active order of the base (with a wallet pool), or no free
suffix. -/
def Blocked (c : AllocationConfig) (b : Books) (g : Grid) (p : Invoice) : Prop :=
  (trimSpace c.usdtReceivingWallets ≠ [] ∧ ∃ q ∈ b.store.payments.rows,
    onWallet b p q = true ∧ q.baseUnits = p.baseUnits ∧ active p q = true) ∨
  ∀ x, g.Mem x → Used b p x

structure Allocates (c : AllocationConfig) (now : ℤ) (reads : ℕ → Reads) (b : Books) (t : TopUp)
    (p : Invoice) : Prop where
  exact : ∀ t' p' b', createDirectUSDTOrder c now reads b t p = (.ok (t', p'), b') →
    Exact c b p' ∧ p'.toDirectCryptoPayment ∈ b'.store.payments.rows
  complete : ∀ o, (openOrder c now b t p).1 = .ok o →
    (createDirectUSDTOrder c now reads b t p).1 = .error .exhausted →
    ∀ w ∈ o.wallets, Blocked c o.books o.grid (onto o.invoice w)

/-- The trade number is on a stored top-up or direct payment. -/
def Taken (b : Books) (t : TopUp) (p : Invoice) : Prop :=
  t.tradeNo ∈ b.store.topUps.rows.map TopUp.tradeNo ∨
    p.tradeNo ∈ b.store.payments.rows.map DirectCryptoPayment.tradeNo

/-! ### The suffix range and the draws -/

theorem range_bounds {roundToCents : Bool}
    (h : directUSDTAmountSuffixRange c roundToCents = .ok g) :
    0 < g.min ∧ g.max < uint64Size := by
  have htail : ∀ limit, amountSuffixRangeForLimit limit = .ok g →
      0 < g.min ∧ g.max < uint64Size := by
    intro limit hlimit
    unfold amountSuffixRangeForLimit at hlimit
    split at hlimit
    · next hbounds =>
      cases hlimit
      simp only [tailGrid, uint64Size]
      omega
    · cases hlimit
  unfold directUSDTAmountSuffixRange at h
  split at h
  · cases h
    decide
  · split at h
    · split at h
      · exact htail _ h
      · exact htail _ h
    · exact htail _ h

theorem sampleSuffix_mem {reads : Reads} (n k : ℕ) (h : sampleSuffix g reads n k = .ok x) :
    g.Mem x := by
  induction n generalizing k with
  | zero => cases h
  | succ n ih =>
    simp only [sampleSuffix] at h
    split at h
    · cases h
    · split at h
      · exact ih (k + 1) h
      · cases h
        exact Grid.mem_iff.mpr ⟨_, Nat.mod_lt _ Grid.size_pos, rfl⟩

theorem random_mem {reads : Reads} (h : randomDirectUSDTTRC20SuffixForPolicy g reads = .ok x) :
    g.Mem x :=
  sampleSuffix_mem 128 0 h

/-! ### The choice of a suffix -/

theorem mem_usedSuffixes : x ∈ usedSuffixes b g p ↔
    (∃ q ∈ b.store.payments.rows, onWallet b p q = true ∧ q.baseUnits = p.baseUnits ∧
      (b.reservation q.tradeNo).suffixUnits = x) ∧ g.Mem x := by
  simp [usedSuffixes, and_assoc]

theorem mem_usedExpectedUnits {units : ℕ} : units ∈ usedExpectedUnits b g p ↔
    (∃ q ∈ b.store.payments.rows, q.expectedUnits = units) ∧
      (p.baseUnits + g.min) % uint64Size ≤ units ∧ units ≤ (p.baseUnits + g.max) % uint64Size := by
  simp [usedExpectedUnits]

theorem suffixFree_eq_false (hx : g.Mem x) (hfit : p.baseUnits + g.max < uint64Size) :
    suffixFree b g p x = false ↔ Used b p x := by
  have hbase : (p.baseUnits + x) % uint64Size = p.baseUnits + x := by
    have hmax := hx.2.1
    exact Nat.mod_eq_of_lt (by omega)
  have hmin : (p.baseUnits + g.min) % uint64Size = p.baseUnits + g.min := by
    have hle := g.min_le_max
    exact Nat.mod_eq_of_lt (by omega)
  have hany : ∀ (l : List ℕ) (y : ℕ), (l.any fun z => decide (z = y)) = true ↔ y ∈ l := by
    intro l y
    simp
  have hsuffix : x ∈ usedSuffixes b g p ↔ ∃ q ∈ b.store.payments.rows, onWallet b p q = true ∧
      q.baseUnits = p.baseUnits ∧ (b.reservation q.tradeNo).suffixUnits = x :=
    mem_usedSuffixes.trans (and_iff_left hx)
  have hamount : p.baseUnits + x ∈ usedExpectedUnits b g p ↔
      ∃ q ∈ b.store.payments.rows, q.expectedUnits = p.baseUnits + x := by
    refine mem_usedExpectedUnits.trans (and_iff_left ?_)
    rw [hmin, Nat.mod_eq_of_lt hfit]
    exact ⟨Nat.add_le_add_left hx.1 _, Nat.add_le_add_left hx.2.1 _⟩
  rw [suffixFree, hbase, Bool.and_eq_false_iff, Bool.not_eq_false', Bool.not_eq_false', hany,
    hany, hsuffix, hamount, Used]

variable {o : Opened} {drawn : ℕ}

theorem chooseSuffix_some (hdrawn : g.Mem drawn) (hfit : p.baseUnits + g.max < uint64Size)
    (h : chooseSuffix b g p drawn = some x) : g.Mem x ∧ ¬ Used b p x := by
  have hfound : g.Mem x ∧ suffixFree b g p x = true := by
    unfold chooseSuffix at h
    split at h
    · cases h
    split at h
    · next hfree =>
      cases h
      exact ⟨hdrawn, hfree⟩
    · exact Grid.first_eq_some h
  rw [← suffixFree_eq_false hfound.1 hfit, Bool.not_eq_false]
  exact hfound

theorem chooseSuffix_none (hfit : p.baseUnits + g.max < uint64Size)
    (h : chooseSuffix b g p drawn = none) (hx : g.Mem x) : Used b p x := by
  unfold chooseSuffix at h
  split at h
  · next hfull =>
    have hused := Grid.mem_of_size_le (List.nodup_dedup _)
      (fun y hy => (mem_usedSuffixes.mp hy).2) hfull hx
    exact .inl (mem_usedSuffixes.mp hused).1
  · split at h
    · cases h
    · exact (suffixFree_eq_false hx hfit).mp (Grid.first_eq_none h hx)

/-! ### One attempt -/

theorem fits (hmax : g.max < uint64Size)
    (htop : ¬ (p.baseUnits + g.max) % uint64Size < p.baseUnits) :
    p.baseUnits + g.max < uint64Size := by
  unfold uint64Size at *
  omega

theorem insertOrder_some (h : insertOrder b t p = some b') :
    (b.store.payments.rows.any fun q => decide (q.expectedUnits = p.expectedUnits)) = false ∧
      ∃ topUps payments, b.store.topUps.insert t = some topUps ∧
        b.store.payments.insert p.toDirectCryptoPayment = some payments ∧
        b'.store = { b.store with topUps := topUps, payments := payments } := by
  unfold insertOrder at h
  split at h
  · cases h
  rename_i hnew
  split at h
  · next topUps payments htopUps hpayments =>
    cases h
    exact ⟨Bool.eq_false_iff.mpr hnew, topUps, payments, htopUps, hpayments, rfl⟩
  · cases h

theorem insertOrder_none (hfree : ¬ Taken b t p) (h : insertOrder b t p = none) :
    ∃ q ∈ b.store.payments.rows, q.expectedUnits = p.expectedUnits := by
  obtain ⟨hfree₁, hfree₂⟩ := not_or.mp hfree
  obtain ⟨topUps, htopUps⟩ := Option.ne_none_iff_exists'.mp (mt Table.insert_eq_none.mp hfree₁)
  have hne : b.store.payments.insert p.toDirectCryptoPayment ≠ none :=
    mt Table.insert_eq_none.mp hfree₂
  obtain ⟨payments, hpayments⟩ := Option.ne_none_iff_exists'.mp hne
  unfold insertOrder at h
  split at h
  · next hused => simpa using hused
  · rw [htopUps, hpayments] at h
    cases h

structure Reserved (b : Books) (g : Grid) (t : TopUp) (p : Invoice) (t' : TopUp) (p' : Invoice)
    (b' : Books) (x : ℕ) : Prop where
  order : withSuffix t p x = (t', p')
  inserted : insertOrder b t' p' = some b'
  fits : p.baseUnits + g.max < uint64Size
  mem : g.Mem x
  unused : ¬ Used b p x

theorem attempt_created {reads : Reads} (hmax : g.max < uint64Size)
    (h : attempt c b g t p reads = .created t' p' b') :
    creationRefused c.toDirectConfig p.toDirectCryptoPayment b.store = none ∧
      ∃ x, Reserved b g t p t' p' b' x := by
  unfold attempt at h
  split at h
  · cases h
  rename_i drawn hdraw
  have hdrawn := random_mem hdraw
  split at h
  · cases h
  unfold allocateTx at h
  split at h
  · cases h
  rename_i hrefused
  split at h
  · cases h
  split at h
  · cases h
  rename_i htop
  have hfit := fits hmax htop
  split at h
  · cases h
  rename_i x hx
  simp only at h
  split at h
  · cases h
  · next b₁ hinsert =>
    cases h
    obtain ⟨hmem, hunused⟩ := chooseSuffix_some hdrawn hfit hx
    exact ⟨hrefused, x, ⟨rfl, hinsert, hfit, hmem, hunused⟩⟩

theorem attempt_retry {reads : Reads} (hmax : g.max < uint64Size) (hfree : ¬ Taken b t p)
    (h : attempt c b g t p reads = .retry) : Blocked c b g p := by
  unfold attempt at h
  split at h
  · cases h
  rename_i drawn hdraw
  have hdrawn := random_mem hdraw
  split at h
  · cases h
  unfold allocateTx at h
  split at h
  · cases h
  split at h
  · next hpool => exact .inl ⟨hpool.1, by simpa [walletOccupied, and_assoc] using hpool.2⟩
  split at h
  · cases h
  rename_i htop
  have hfit := fits hmax htop
  split at h
  · next hnone => exact .inr fun y hy => chooseSuffix_none hfit hnone hy
  rename_i x hx
  obtain ⟨hmem, hunused⟩ := chooseSuffix_some hdrawn hfit hx
  simp only at h
  split at h
  · next hinsert =>
    -- the chosen amount is free, so only a trade number could be in the way
    have hfree' : ¬ Taken b (withSuffix t p x).1 (withSuffix t p x).2 := hfree
    obtain ⟨q, hq, hunits⟩ := insertOrder_none hfree' hinsert
    have hle := hmem.2.1
    simp only [withSuffix] at hunits
    rw [Nat.mod_eq_of_lt (by omega)] at hunits
    exact absurd (.inr ⟨q, hq, hunits⟩) hunused
  · cases h

/-! ### The loops -/

variable {reads : ℕ → Reads}

theorem tryWallet_created (n draw : ℕ)
    (h : tryWallet c b g t p reads n draw = .created t' p' b') :
    ∃ k, attempt c b g t p (reads k) = .created t' p' b' := by
  induction n generalizing draw with
  | zero => cases h
  | succ n ih =>
    unfold tryWallet at h
    split at h
    · exact ih (draw + 1) h
    · exact ⟨draw, h⟩

theorem tryWallet_retry {n draw : ℕ} (h : tryWallet c b g t p reads (n + 1) draw = .retry) :
    attempt c b g t p (reads draw) = .retry := by
  unfold tryWallet at h
  split at h
  · next hretry => exact hretry
  · next hne => exact absurd h hne

theorem tryWallets_created (ws : List Wallet) (draw : ℕ)
    (h : tryWallets c b g t p reads ws draw = .created t' p' b') :
    ∃ w ∈ ws, ∃ k, attempt c b g t (onto p w) (reads k) = .created t' p' b' := by
  induction ws generalizing draw with
  | nil => cases h
  | cons w ws ih =>
    unfold tryWallets at h
    split at h
    · obtain ⟨w', hw', hk⟩ := ih (draw + maxAttempts) h
      exact ⟨w', List.mem_cons_of_mem _ hw', hk⟩
    · exact ⟨w, List.mem_cons_self, tryWallet_created _ _ h⟩

theorem tryWallets_retry (ws : List Wallet) (draw : ℕ)
    (h : tryWallets c b g t p reads ws draw = .retry) :
    ∀ w ∈ ws, ∃ k, attempt c b g t (onto p w) (reads k) = .retry := by
  induction ws generalizing draw with
  | nil =>
    intro w hw
    cases hw
  | cons w ws ih =>
    unfold tryWallets at h
    split at h
    · next hwallet =>
      intro w' hw'
      rcases List.mem_cons.mp hw' with rfl | hw'
      · exact ⟨draw, tryWallet_retry hwallet⟩
      · exact ih (draw + maxAttempts) h w' hw'
    · next hne => exact absurd h hne

/-! ### The checks before the loop -/

theorem network_spelled (s : Text) :
    toUpper (trimSpace (toUpper (trimSpace s))) = toUpper (trimSpace s) := by
  rw [trimSpace_toUpper, toUpper_toUpper, trimSpace_trimSpace]

structure Prepared (c : AllocationConfig) (t : TopUp) (p : Invoice) : Prop where
  network : toUpper (trimSpace p.network) = p.network
  user : t.userId ≠ 0 ∧ p.userId = t.userId
  base : minBaseUnits ≤ p.baseUnits
  wellFormed : malformed t p = false
  asset : p.token = "USDT".toList ∧
    validDirectUSDTNetwork c.toDirectConfig p.network p.contract = true
  expiry : ¬ badExpiry p maxPendingSeconds
  ttl : t.paymentPendingTTLSeconds = p.expiresAt - p.createdAt
  amounts : t.requestedAmount = (p.baseUnits : Rat) / 1000000 ∧
    t.paymentBaseAmount = (p.baseUnits : Rat) / 1000000

theorem applyPolicy_ok {order : TopUp × Invoice}
    (hnetwork : toUpper (trimSpace p.network) = p.network)
    (huser : t.userId ≠ 0 ∧ p.userId = t.userId) (hform : malformed t p = false)
    (hasset : p.token = "USDT".toList ∧
      validDirectUSDTNetwork c.toDirectConfig p.network p.contract = true)
    (h : applyPolicy c t p = .ok order) :
    Prepared c order.1 order.2 ∧ order.1.tradeNo = t.tradeNo ∧ order.2.tradeNo = p.tradeNo := by
  simp only [applyPolicy] at h
  generalize (if p.roundPolicyCaptured = true then p.roundToCents
    else c.usdtTRC20RoundToCents) = round at h
  split at h
  · cases h
  rename_i hbase
  split at h
  · cases h
  split at h
  · cases h
  rename_i minimum ttl _
  split at h
  · cases h
  rename_i hexpiry
  split at h
  · cases h
  · cases h
    refine ⟨⟨hnetwork, huser, Nat.not_lt.mp hbase, hform, hasset, hexpiry, ?_, rfl, rfl⟩, rfl, rfl⟩
    simp only
    omega

theorem prepare_ok {order : TopUp × Invoice} {wallets : List Wallet}
    (h : prepare c t p = .ok (order, wallets)) :
    Prepared c order.1 order.2 ∧ order.1.tradeNo = t.tradeNo ∧ order.2.tradeNo = p.tradeNo := by
  simp only [prepare] at h
  split at h
  · cases h
  split at h
  · cases h
  rename_i huser
  split at h
  · cases h
  rename_i hform
  split at h
  · cases h
  rename_i hasset
  split at h
  · cases h
  · cases h
  split at h
  · cases h
  rcases hpolicy : applyPolicy c t { p with network := toUpper (trimSpace p.network) }
    with e | order'
  · rw [hpolicy] at h
    cases h
  · rw [hpolicy] at h
    cases h
    obtain ⟨huser₀, huser₁, _⟩ := not_or.mp huser |>.imp id not_or.mp
    obtain ⟨htoken, hvalid⟩ := not_or.mp hasset
    exact applyPolicy_ok (p := { p with network := toUpper (trimSpace p.network) })
      (network_spelled _) ⟨huser₀, not_not.mp huser₁⟩ (Bool.eq_false_iff.mpr hform)
      ⟨not_not.mp htoken, Bool.eq_true_of_not_eq_false hvalid⟩ hpolicy

theorem Prepared.orderValid (h : Prepared c t p) (hexpected : p.baseUnits < p.expectedUnits) :
    orderValid c.toDirectConfig t p.toDirectCryptoPayment = true := by
  have hform := h.wellFormed
  have hexpiry := h.expiry
  simp only [malformed, Bool.or_eq_false_iff, decide_eq_false_iff_not, Bool.not_eq_false',
    not_not, and_assoc] at hform
  simp only [badExpiry, not_or] at hexpiry
  obtain ⟨hempty, htrade, hmethod, hprovider, hstatus, hcreate, hsame⟩ := hform
  obtain ⟨hafter, _, hlong⟩ := hexpiry
  simp only [Direct.orderValid, Bool.and_eq_true, decide_eq_true_eq, and_assoc]
  exact ⟨h.user.1, h.user.2, h.base, hempty, htrade, hmethod, hprovider, hstatus, by omega, hsame,
    h.asset.1, h.asset.2, by omega, by omega, hexpected⟩

/-! ### The sweep -/

def anyStatus (q : DirectCryptoPayment) : DirectCryptoPayment := { q with status := .pending }

theorem setPayment_rows (s : Store) (k : Text) (st : DirectCryptoStatus) :
    (s.setPayment k st).payments.rows.map anyStatus = s.payments.rows.map anyStatus := by
  simp only [Store.setPayment, Table.modify, List.map_map]
  apply List.map_congr_left
  intro q _
  simp only [Function.comp_apply]
  split
  · rfl
  · rfl

theorem expireStaleTopUp_rows_anyStatus (c : DirectConfig) (now : ℤ) (k : Text) (s : Store) :
    (expireStaleTopUp c now k s).2.payments.rows.map anyStatus =
      s.payments.rows.map anyStatus := by
  rcases expireStaleTopUp_cases c now k s with heq | ⟨-, -, -, ⟨-, heq⟩ | ⟨-, -, -, heq⟩⟩
  all_goals rw [heq]
  · rfl
  · exact setPayment_rows _ _ _

theorem expireStaleLoop_rows_anyStatus (c : DirectConfig) (now : ℤ) (ks : List Text) (s : Store) :
    (expireStaleLoop c now ks s).2.payments.rows.map anyStatus = s.payments.rows.map anyStatus :=
  expireStaleLoop_keeps (fun k u h => (expireStaleTopUp_rows_anyStatus c now k u).trans h) ks rfl

structure OpenedFrom (c : AllocationConfig) (now : ℤ) (b : Books) (t : TopUp) (p : Invoice)
    (o : Opened) : Prop where
  prepared : prepare c t p = .ok ((o.topUp, o.invoice), o.wallets)
  swept : expireStalePendingTopUps c.toDirectConfig now o.topUp.userId b.store =
    (.ok (), o.books.store)
  reservation : o.books.reservation = b.reservation
  range : directUSDTAmountSuffixRange c o.invoice.roundToCents = .ok o.grid

theorem openOrder_ok (h : (openOrder c now b t p).1 = .ok o) : OpenedFrom c now b t p o := by
  unfold openOrder at h
  split at h
  · cases h
  rename_i t₁ p₁ wallets hprepared
  simp only at h
  split at h
  · cases h
  · cases h
  · next hswept hrange =>
    cases h
    exact ⟨hprepared, Prod.ext hswept rfl, rfl, hrange⟩

theorem openOrder_books (h : (openOrder c now b t p).1 = .ok o) :
    openOrder c now b t p = (.ok o, o.books) := by
  refine Prod.ext h ?_
  unfold openOrder at h ⊢
  split at h
  · cases h
  simp only at h ⊢
  split at h
  · cases h
  · cases h
  · cases h
    rfl

theorem OpenedFrom.row (h : OpenedFrom c now b t p o) {q : DirectCryptoPayment}
    (hq : q ∈ b.store.payments.rows) :
    ∃ q' ∈ o.books.store.payments.rows, q'.tradeNo = q.tradeNo ∧ q'.network = q.network ∧
      q'.address = q.address ∧ q'.baseUnits = q.baseUnits ∧ q'.expectedUnits = q.expectedUnits := by
  have hrows := expireStaleLoop_rows_anyStatus c.toDirectConfig now
    ((b.store.topUps.rows.filter fun t => decide (t.status = .pending) && decide (0 < t.createTime) &&
      (decide (o.topUp.userId = 0) || decide (t.userId = o.topUp.userId))).map TopUp.tradeNo) b.store
  have hswept := congrArg Prod.snd h.swept
  simp only [expireStalePendingTopUps] at hswept
  rw [hswept] at hrows
  have hmem : anyStatus q ∈ o.books.store.payments.rows.map anyStatus := by
    rw [hrows]
    exact List.mem_map_of_mem hq
  obtain ⟨q', hq', heq⟩ := List.mem_map.mp hmem
  simp only [anyStatus, DirectCryptoPayment.mk.injEq] at heq
  obtain ⟨htrade, _, hnetwork, _, _, haddress, _, hunits, hbase, _⟩ := heq
  exact ⟨q', hq', htrade, hnetwork, haddress, hbase, hunits⟩

theorem Used.of_row (h : OpenedFrom c now b t p o) (hused : Used b p' x) : Used o.books p' x := by
  rcases hused with ⟨q, hq, hwallet, hbase, hsuffix⟩ | ⟨q, hq, hunits⟩
  · obtain ⟨q', hq', htrade, hnetwork, haddress, hbase', _⟩ := h.row hq
    refine .inl ⟨q', hq', ?_, hbase'.trans hbase, ?_⟩
    · rw [← hwallet, onWallet, onWallet, h.reservation, htrade, hnetwork, haddress]
    · rw [h.reservation, htrade]
      exact hsuffix
  · obtain ⟨q', hq', _, _, _, _, hunits'⟩ := h.row hq
    exact .inr ⟨q', hq', hunits'.trans hunits⟩

theorem tradeNos_swept (c : DirectConfig) (now : ℤ) (ks : List Text) (s : Store) :
    (expireStaleLoop c now ks s).2.topUps.rows.map TopUp.tradeNo =
        s.topUps.rows.map TopUp.tradeNo ∧
      (expireStaleLoop c now ks s).2.payments.rows.map DirectCryptoPayment.tradeNo =
        s.payments.rows.map DirectCryptoPayment.tradeNo := by
  refine expireStaleLoop_keeps (P := fun u =>
    u.topUps.rows.map TopUp.tradeNo = s.topUps.rows.map TopUp.tradeNo ∧
      u.payments.rows.map DirectCryptoPayment.tradeNo =
        s.payments.rows.map DirectCryptoPayment.tradeNo) (fun k u h => ?_) ks ⟨rfl, rfl⟩
  have htopUps : (u.setTopUp k .expired now).topUps.rows.map TopUp.tradeNo =
      u.topUps.rows.map TopUp.tradeNo := by
    unfold Store.setTopUp
    rw [Table.map_key_modify]
  have hpayments : ∀ u' : Store, (u'.setPayment k .expired).payments.rows.map
      DirectCryptoPayment.tradeNo = u'.payments.rows.map DirectCryptoPayment.tradeNo := by
    intro u'
    unfold Store.setPayment
    rw [Table.map_key_modify]
  rcases expireStaleTopUp_cases c now k u with heq | ⟨-, -, -, ⟨-, heq⟩ | ⟨-, -, -, heq⟩⟩
  · rw [heq]
    exact h
  · rw [heq]
    exact ⟨htopUps.trans h.1, h.2⟩
  · rw [heq]
    exact ⟨htopUps.trans h.1, (hpayments _).trans h.2⟩

theorem OpenedFrom.free (h : OpenedFrom c now b t p o) (hfree : ¬ Taken b t p) :
    ¬ Taken o.books o.topUp o.invoice := by
  obtain ⟨-, htopUp, hinvoice⟩ := prepare_ok h.prepared
  have hswept := congrArg Prod.snd h.swept
  simp only [expireStalePendingTopUps] at hswept
  unfold Taken
  rw [← hswept, (tradeNos_swept ..).1, (tradeNos_swept ..).2, htopUp, hinvoice]
  exact hfree

/-! ### The call -/

theorem created_exact (h : createDirectUSDTOrder c now reads b t p = (.ok (t', p'), b')) :
    ∃ o w x, OpenedFrom c now b t p o ∧ w ∈ o.wallets ∧
      creationRefused c.toDirectConfig (onto o.invoice w).toDirectCryptoPayment o.books.store =
        none ∧
      Reserved o.books o.grid o.topUp (onto o.invoice w) t' p' b' x := by
  rcases hopen : openOrder c now b t p with ⟨r, b₁⟩
  simp only [createDirectUSDTOrder, hopen] at h
  cases r with
  | error e => cases h
  | ok o =>
    have ho : OpenedFrom c now b t p o := openOrder_ok (congrArg Prod.fst hopen)
    simp only at h
    split at h
    · cases h
    · cases h
    rename_i hcreated
    cases h
    obtain ⟨w, hw, k, hattempt⟩ := tryWallets_created _ _ hcreated
    obtain ⟨hrefused, x, hreserved⟩ := attempt_created (range_bounds ho.range).2 hattempt
    exact ⟨o, w, x, ho, hw, hrefused, hreserved⟩

theorem Reserved.exact {w : Wallet} (ho : OpenedFrom c now b t p o)
    (h : Reserved o.books o.grid o.topUp (onto o.invoice w) t' p' b' x) : Exact c b p' := by
  have hle := h.mem.2.1
  have hfit := h.fits
  have hp' : p' = (withSuffix o.topUp (onto o.invoice w) x).2 := (congrArg Prod.snd h.order).symm
  have hsum : p'.expectedUnits = p'.baseUnits + p'.suffixUnits := by
    rw [hp']
    simp only [withSuffix]
    exact Nat.mod_eq_of_lt (by omega)
  have hbase : p'.baseUnits = (onto o.invoice w).baseUnits := by rw [hp']; rfl
  have hsuffix : p'.suffixUnits = x := by rw [hp']; rfl
  have hunused : ¬ Used b (onto o.invoice w) x := fun hused => h.unused (hused.of_row ho)
  constructor
  · intro q hq hunits
    refine hunused (.inr ⟨q, hq, ?_⟩)
    rw [hunits, hsum, hbase, hsuffix]
  · exact hsum
  · omega
  · refine ⟨o.grid, ?_, ?_⟩
    · rw [hp']
      exact ho.range
    · rw [hsuffix]
      exact h.mem
  · intro q hq hwallet hq' hx
    refine hunused (.inl ⟨q, hq, ?_, hq'.trans hbase, hx.trans hsuffix⟩)
    rw [hp'] at hwallet
    exact hwallet

theorem exhausted_retry (h : (openOrder c now b t p).1 = .ok o)
    (hexhausted : (createDirectUSDTOrder c now reads b t p).1 = .error .exhausted) :
    tryWallets c o.books o.grid o.topUp o.invoice reads o.wallets 0 = .retry := by
  simp only [createDirectUSDTOrder, openOrder_books h] at hexhausted
  split at hexhausted
  · next hretry => exact hretry
  · cases hexhausted
  · cases hexhausted

/-- An order under a new trade number gets an exact amount that no payment ever had, and is
refused as exhausted only when no wallet has one left. -/
theorem exact_amounts (c : AllocationConfig) (now : ℤ) (reads : ℕ → Reads) (b : Books) (t : TopUp)
    (p : Invoice) (hfree : ¬ Taken b t p) : Allocates c now reads b t p := by
  refine ⟨fun t' p' b' hcreated => ?_, fun o ho hexhausted w hw => ?_⟩
  · obtain ⟨o, w, x, hopened, _, _, hreserved⟩ := created_exact hcreated
    obtain ⟨_, topUps, payments, _, hpayments, hstore⟩ := insertOrder_some hreserved.inserted
    refine ⟨hreserved.exact hopened, ?_⟩
    rw [hstore]
    exact Table.find_mem (Table.find_insert_self hpayments)
  · have hopened := openOrder_ok ho
    obtain ⟨k, hattempt⟩ := tryWallets_retry _ _ (exhausted_retry ho hexhausted) w hw
    exact attempt_retry (range_bounds hopened.range).2 (hopened.free hfree) hattempt

/-! ### The allocation as a step of the order model

A created order is one that `Direct.createDirectUSDTOrder` accepts for the wallet and the amount
that were chosen, with the same result, so that what holds of that step holds here. -/

theorem created_refines (h : createDirectUSDTOrder c now reads b t p = (.ok (t', p'), b')) :
    Direct.createDirectUSDTOrder c.toDirectConfig now t' p'.toDirectCryptoPayment b.store =
        (.ok (), b'.store) ∧
      Delivery.orderTopUp t' p'.toDirectCryptoPayment = t' ∧
      Delivery.orderPayment p'.toDirectCryptoPayment = p'.toDirectCryptoPayment := by
  obtain ⟨o, w, x, ho, _, hrefused, hreserved⟩ := created_exact h
  have hprepared := (prepare_ok ho.prepared).1
  have hexact := hreserved.exact ho
  obtain ⟨hpos, _⟩ := range_bounds ho.range
  have hx := hreserved.mem.1
  have hinserted := hreserved.inserted
  have horder := hreserved.order
  have ht' : t' = (withSuffix o.topUp (onto o.invoice w) x).1 := (congrArg Prod.fst horder).symm
  have hp' : p' = (withSuffix o.topUp (onto o.invoice w) x).2 := (congrArg Prod.snd horder).symm
  have hsuffix : p'.suffixUnits = x := by rw [hp']; rfl
  have hbase : p'.baseUnits < p'.expectedUnits := by
    rw [hexact.sum]
    omega
  have hprepared' : Prepared c t' p' := by
    rw [ht', hp']
    exact ⟨hprepared.network, hprepared.user, hprepared.base, hprepared.wellFormed,
      hprepared.asset, hprepared.expiry, hprepared.ttl, hprepared.amounts⟩
  have hnetwork : { p'.toDirectCryptoPayment with
      network := toUpper (trimSpace p'.network) } = p'.toDirectCryptoPayment := by
    rw [hprepared'.network]
  have hrefused' : creationRefused c.toDirectConfig p'.toDirectCryptoPayment o.books.store =
      none := by
    rw [hp']
    exact hrefused
  have hswept : expireStalePendingTopUps c.toDirectConfig now t'.userId b.store =
      (.ok (), o.books.store) := by
    rw [ht']
    exact ho.swept
  obtain ⟨hnew, topUps, payments, htopUps, hpayments, hstore⟩ := insertOrder_some hinserted
  have htopUp : { t' with
      requestedAmount := (p'.baseUnits : Rat) / 1000000
      paymentBaseAmount := (p'.baseUnits : Rat) / 1000000
      paymentChargedAmount := (p'.expectedUnits : Rat) / 1000000
      paymentPendingTTLSeconds := p'.expiresAt - p'.createdAt } = t' := by
    obtain ⟨hrequested, hpaid⟩ := hprepared'.amounts
    have hcharged : t'.paymentChargedAmount = (p'.expectedUnits : Rat) / 1000000 := by
      rw [ht', hp']
      rfl
    rw [← hprepared'.ttl, ← hcharged]
    cases t'
    simp only at hrequested hpaid
    rw [hrequested, hpaid]
  refine ⟨?_, htopUp, hnetwork⟩
  simp [Direct.createDirectUSDTOrder, hnetwork, hprepared'.orderValid hbase, htopUp, hswept,
    hrefused', hnew, htopUps, hpayments, hstore]

/-- Every order that the allocation creates is open for the deliveries of its events. -/
theorem created_ready (h : createDirectUSDTOrder c now reads b t p = (.ok (t', p'), b'))
    (htrim : trimSpace t'.tradeNo = t'.tradeNo) (hkey : p'.tradeNo = t'.tradeNo)
    (hpending : p'.status = .pending) (haddress : p'.address ≠ [])
    (hmeta : ∀ m ∈ b.store.metadata, m.tradeNo ≠ t'.tradeNo)
    (hcredit : b.store.settlements t'.tradeNo = []) :
    Delivery.Ready c.toDirectConfig b'.store t' p'.toDirectCryptoPayment := by
  obtain ⟨hcreated, htopUp, hinvoice⟩ := created_refines h
  have hready := Delivery.create_ready hcreated htrim hkey hpending haddress hmeta hcredit
  rw [htopUp, hinvoice] at hready
  exact hready

/-! ### A trade number that is new, and one that is taken -/

def oneSuffix : AllocationConfig where
  usdtTRC20Contract := "T".toList
  usdtTONJettonMaster := []
  usdtSolanaMint := []
  minConfirmations := 0
  maxCreationsPerHour := 0
  canonicalTON := some
  sources := ⟨none, 1⟩
  policyTTL := 3600
  networkReady := fun _ => true
  usdtReceivingWallets := []
  directUSDTWalletCandidates := fun _ => .ok [⟨"w".toList, "a".toList, "a".toList, "a".toList⟩]
  usdtTRC20RoundToCents := false
  amountTailLimitUnits := 2
  amountPrecision := 6
  policy := .ok (10, 3600)

def zeroReads : ℕ → Reads := fun _ _ => .ok (0, 0)

def oldPayment : DirectCryptoPayment :=
  ⟨"order".toList, 2, tron, "USDT".toList, "T".toList, "a".toList, [], 20000001, 20000000, .paid,
    [], [], [], 0, 0, 4600, 1000⟩

def oldTopUp : TopUp :=
  ⟨2, "order".toList, 20, 20, 20, 20, "crypto_direct".toList, .direct .crypto, 3600, 0, 1000, 1001,
    .success⟩

def oldBooks : Books where
  store :=
    { Store.empty (fun _ => some 0) with
      topUps := ⟨[oldTopUp], List.nodup_singleton _⟩
      payments := ⟨[oldPayment], List.nodup_singleton _⟩ }
  reservation := fun _ => ⟨[], "w".toList, 1, false, true⟩

def newTopUp : TopUp :=
  { oldTopUp with userId := 1, createTime := 9000, completeTime := 0, status := .pending }

def newInvoice : Invoice where
  toDirectCryptoPayment :=
    { oldPayment with
      userId := 1
      expectedUnits := 0
      baseUnits := 10000000
      status := .pending
      expiresAt := 12600
      createdAt := 9000 }
  receivingOwner := []
  walletKey := []
  suffixUnits := 0
  roundToCents := false
  roundPolicyCaptured := true

theorem exact_amounts_next :
    Allocates oneSuffix 9000 zeroReads oldBooks { newTopUp with tradeNo := "next".toList }
      { newInvoice with tradeNo := "next".toList } :=
  exact_amounts oneSuffix 9000 zeroReads oldBooks _ _ (by unfold Taken; decide)

def suffixOneLeft (o : Opened) : Bool :=
  decide (o.grid.Mem 1) && !o.wallets.isEmpty &&
    o.books.store.payments.rows.all fun q =>
      decide (q.baseUnits ≠ o.invoice.baseUnits) &&
        decide (q.expectedUnits ≠ o.invoice.baseUnits + 1)

theorem exhausted_by_trade_number :
    (createDirectUSDTOrder oneSuffix 9000 zeroReads oldBooks newTopUp newInvoice).1 =
      .error .exhausted ∧
    ¬ Allocates oneSuffix 9000 zeroReads oldBooks newTopUp newInvoice := by
  have hexhausted : (createDirectUSDTOrder oneSuffix 9000 zeroReads oldBooks newTopUp
      newInvoice).1 = .error .exhausted := by
    decide +kernel
  have hleft : (openOrder oneSuffix 9000 oldBooks newTopUp newInvoice).1.toOption.map
      suffixOneLeft = some true := by
    decide +kernel
  refine ⟨hexhausted, fun h => ?_⟩
  rcases hopen : (openOrder oneSuffix 9000 oldBooks newTopUp newInvoice).1 with e | o
  · rw [hopen] at hleft
    cases hleft
  · rw [hopen] at hleft
    have hone : suffixOneLeft o = true := Option.some.inj hleft
    simp only [suffixOneLeft, Bool.and_eq_true, decide_eq_true_eq, List.all_eq_true] at hone
    obtain ⟨⟨hmem, hwallets⟩, hrows⟩ := hone
    obtain ⟨w, ws, hws⟩ : ∃ w ws, o.wallets = w :: ws := by
      rcases hw : o.wallets with _ | ⟨w, ws⟩
      · rw [hw] at hwallets
        cases hwallets
      · exact ⟨w, ws, rfl⟩
    have hw : w ∈ o.wallets := by
      rw [hws]
      exact List.mem_cons_self
    rcases h.complete o hopen hexhausted w hw with ⟨hpool, _⟩ | hused
    · exact hpool rfl
    · rcases hused 1 hmem with ⟨q, hq, _, hbase, _⟩ | ⟨q, hq, hunits⟩
      · exact (hrows q hq).1 hbase
      · exact (hrows q hq).2 hunits

end NewApi.Model.Direct.Allocation
