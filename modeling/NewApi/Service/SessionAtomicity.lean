import NewApi.Model.SubscriptionCharge
import NewApi.Service.SessionRun

/-!
# Creating a session is atomic and charges one source

`NewBillingSession` over the tables of the database.
-/

namespace NewApi.Service

open Fallible Model

/-- The functions of package `model` on the database. The consume log lives elsewhere. -/
def dbModel (env : Env) : BillingModel Db where
  getUserQuota := Model.getUserQuota
  hasActiveUserSubscription := Model.hasActiveUserSubscription env
  userActiveSubscriptionsAllowWalletOverflow :=
    Model.userActiveSubscriptionsAllowWalletOverflow env
  reserveUserQuotaForBilling := Model.reserveUserQuotaForBilling
  debitUserQuotaForBilling := Model.debitUserQuotaForBilling
  refundUserQuotaForBilling := Model.refundUserQuotaForBilling
  reserveTokenQuotaForBilling tokenID _ quota unlimited :=
    Model.reserveTokenQuotaForBilling tokenID quota unlimited
  debitTokenQuotaForBilling tokenID _ quota := Model.debitTokenQuotaForBilling env tokenID quota
  refundTokenQuotaForBilling tokenID _ quota := Model.refundTokenQuotaForBilling env tokenID quota
  preConsumeUserSubscription requestId userID _ amount :=
    Model.preConsumeUserSubscription env requestId userID amount
  getSubscriptionPlanInfoByUserSubscriptionId :=
    Model.getSubscriptionPlanInfoByUserSubscriptionId
  postConsumeUserSubscriptionDelta := Model.postConsumeUserSubscriptionDelta
  refundSubscriptionPreConsume := Model.refundSubscriptionPreConsume
  recordConsumeLog _ w := (.ok (), w)

theorem hasActive_frame (env : Env) (userId : ℤ) :
    Frame Db.tables (Model.hasActiveUserSubscription env userId) := by
  intro w
  unfold Model.hasActiveUserSubscription
  split
  · rfl
  · exact Db.query_frame _ w

theorem allowOverflow_frame (env : Env) (userId : ℤ) :
    Frame Db.tables (Model.userActiveSubscriptionsAllowWalletOverflow env userId) := by
  intro w
  unfold Model.userActiveSubscriptionsAllowWalletOverflow
  split
  · rfl
  · exact Db.query_frame _ w

theorem planById_frame (id : ℤ) : Frame Db.tables (getSubscriptionPlanByIdTx id) := by
  intro w
  unfold getSubscriptionPlanByIdTx
  split
  · rfl
  · exact Db.query_frame _ w

theorem planInfo_frame (id : ℤ) :
    Frame Db.tables (Model.getSubscriptionPlanInfoByUserSubscriptionId id) := by
  intro w
  unfold Model.getSubscriptionPlanInfoByUserSubscriptionId
  split
  · rfl
  split
  · next hq => exact Db.query_tables hq
  · next hq =>
    split
    · next hp => exact ((planById_frame _).of_eq hp).trans (Db.query_tables hq)
    · next hp => exact ((planById_frame _).of_eq hp).trans (Db.query_tables hq)

theorem refund_undoes_reserve {env : Env} (henv : env.tokenAdjustFails = none) {t q : ℤ} {u : Bool}
    {w w₁ w₂ w₃ : Db} {r : Except GoError Unit}
    (hres : Model.reserveTokenQuotaForBilling t q u w = (.ok (), w₁))
    (hsame : w₂.tables = w₁.tables)
    (href : Model.refundTokenQuotaForBilling env t q w₂ = (r, w₃)) :
    r = .ok () ∧ w₃.tables = w.tables := by
  rcases reserveTokenQuotaForBilling_cases hres with ⟨-, ⟨rfl, ht⟩ | ⟨hpos, hsome, ht⟩⟩ | ⟨⟨e, he⟩, -⟩
  · simp only [Model.refundTokenQuotaForBilling, adjustTokenQuotaForBilling, Int.lt_irrefl]
      at href
    cases href
    exact ⟨rfl, hsame.trans ht⟩
  · have hfind : (w₂.tables.tokens.find t).isSome = true := by
      rw [hsame, ht, Tables.addTokenQuota, Table.find_modify_self, Option.isSome_map]
      exact hsome
    simp only [Model.refundTokenQuotaForBilling, adjustTokenQuotaForBilling, henv, hfind] at href
    rw [if_neg (by omega), if_neg (by omega)] at href
    cases href
    refine ⟨rfl, ?_⟩
    simp only [hsame, ht]
    exact addTokenQuota_cancel _ _ _
  · cases he

theorem dbModel_restoring {env : Env} (henv : env.tokenAdjustFails = none) :
    Restoring (dbModel env) Db.tables where
  getUserQuota := fun _ => Db.query_frame _
  hasActive := hasActive_frame env
  allowOverflow := allowOverflow_frame env
  planInfo := planInfo_frame
  reserveUser := by
    intro u q w e w' h
    rcases reserveUserQuotaForBilling_cases h with ⟨hr, -⟩ | ⟨-, ht⟩
    · cases hr
    · exact ht
  reserveToken := by
    intro t k q u w e w' h
    rcases reserveTokenQuotaForBilling_cases h with ⟨hr, -⟩ | ⟨-, ht⟩
    · cases hr
    · exact ht
  preConsumeSubscription := fun _ _ _ _ _ _ _ h => preConsumeUserSubscription_error h
  rollback := fun _ _ _ _ _ _ _ _ h₁ h₂ h₃ => (refund_undoes_reserve henv h₁ h₂ h₃).2

theorem dbModel_rollback {env : Env} (henv : env.tokenAdjustFails = none) (t : Tables) :
    ¬ RollbackFailed (dbModel env) Db.tables t := by
  rintro ⟨_, _, _, _, w, w₁, w₂, w₃, e, -, h₁, h₂, h₃⟩
  cases (refund_undoes_reserve henv h₁ h₂ h₃).1

def Tables.tokenDebited (info : RelayInfo) (e : ℤ) (t : Tables) : Tables :=
  if info.isPlayground then t else t.addTokenQuota info.tokenId (-e)

def walletReserve (s : BillingSession) (quota : ℤ) : ℤ := if s.trusted then 0 else quota

def ChargedOnce (env : Env) (info : RelayInfo) (quota : ℤ) (t t' : Tables) (s : BillingSession) :
    Prop :=
  match s.funding.source with
  | .wallet =>
    s.relayInfo.billingSource = some .wallet ∧ s.relayInfo.subscriptionId = 0 ∧
      s.relayInfo.finalPreConsumedQuota = walletReserve s quota ∧
      t' = (Tables.tokenDebited info (walletReserve s quota) t).addUserQuota info.userId
        (-walletReserve s quota)
  | .subscription =>
    s.relayInfo.billingSource = some .subscription ∧
      s.relayInfo.finalPreConsumedQuota = max quota 1 ∧
      ChargedRow env (Tables.tokenDebited info (max quota 1) t) t' s.relayInfo.subscriptionId
        (max quota 1)

def AtomicCharge (env : Env) (info : RelayInfo) (quota : ℤ) (t t' : Tables) :
    Except (GoError × RelayInfo) BillingSession → Prop
  | .error _ => t' = t
  | .ok s => ChargedOnce env info quota t t' s

/-- The read of the wallet succeeds, and the wallet has quota but not the trust bypass. -/
def WalletOpens (c : Context) (info : RelayInfo) (w : Db) : Prop :=
  ∃ userQuota w', Model.getUserQuota info.userId w = (.ok userQuota, w') ∧ 0 < userQuota ∧
    (walletSession info userQuota).shouldTrust c = false

/-- The subscriptions turn away `amount` units as insufficient; the API key's reserve for
them is taken and given back. -/
def SubscriptionRefused (env : Env) (info : RelayInfo) (amount : ℤ) (w w' : Db) : Prop :=
  ∃ w₁ w₂ e, BillingSession.TokenLeg (dbModel env) info amount w w₁ ∧
    Model.preConsumeUserSubscription env info.requestId info.userId amount w₁ = (.error e, w₂) ∧
    (BillingSession.preConsumeError e).errorCode = some .insufficientUserQuota ∧
    if info.isPlayground then w' = w₂
    else Model.refundTokenQuotaForBilling env info.tokenId amount w₂ = (.ok (), w')

/-- The preference brings the request to its wallet, in state `w'`. -/
def ComesToWallet (env : Env) (info : RelayInfo) (quota : ℤ) (w w' : Db) : Prop :=
  match normalizeBillingPreference info.billingPreference with
  | .subscriptionOnly => False
  | .walletOnly => w' = w
  | .walletFirst => w' = w
  | .subscriptionFirst =>
    Model.hasActiveUserSubscription env info.userId w = (.ok false, w') ∨
      ∃ w₁ w₂, Model.hasActiveUserSubscription env info.userId w = (.ok true, w₁) ∧
        Model.userActiveSubscriptionsAllowWalletOverflow env info.userId w₁ = (.ok true, w₂) ∧
        SubscriptionRefused env info (max quota 1) w₂ w'

/-- A negative reserve comes to a wallet without the trust bypass. -/
def NegativeWallet (env : Env) (c : Context) (info : RelayInfo) (quota : ℤ) (w : Db) : Prop :=
  quota < 0 ∧ ∃ w', ComesToWallet env info quota w w' ∧ WalletOpens c info w'

def NegativeReserve (quota : ℤ) : Except (GoError × RelayInfo) BillingSession → Prop
  | .error _ => False
  | .ok s => quota < 0 ∧ s.funding.source = .wallet ∧ s.trusted = false

section

variable {env : Env} {c : Context} {q e : ℤ} {info info₁ : RelayInfo} {s : BillingSession}
  {w w' : Db}

theorem tokenDebited_congr (h : SameRequest info info₁) (t : Tables) :
    Tables.tokenDebited info₁ e t = Tables.tokenDebited info e t := by
  unfold Tables.tokenDebited
  rw [h.2.1, h.2.2.2.2.1]

theorem tokenLeg_tables (he : 0 ≤ e) (h : BillingSession.TokenLeg (dbModel env) info e w w') :
    w'.tables = Tables.tokenDebited info e w.tables := by
  unfold Tables.tokenDebited
  rcases h with ⟨rfl, h0 | hp⟩ | ⟨hpos, hp, hres⟩
  · obtain rfl : e = 0 := by omega
    rw [Int.neg_zero, addTokenQuota_zero, ite_self]
  · rw [if_pos hp]
  · rw [hp]
    rcases reserveTokenQuotaForBilling_cases hres with ⟨-, ⟨h0, -⟩ | ⟨-, -, ht⟩⟩ | ⟨⟨_, hr⟩, -⟩
    · omega
    · exact ht
    · cases hr

theorem opened_wallet_info (info : RelayInfo) (f : WalletFunding) (trusted : Bool) (e : ℤ) :
    let s := (BillingSession.opened info (.wallet f) trusted e).syncRelayInfo
    s.funding.source = .wallet ∧ s.trusted = trusted ∧ s.relayInfo.billingSource = some .wallet ∧
      s.relayInfo.subscriptionId = 0 ∧ s.relayInfo.finalPreConsumedQuota = e := by
  refine ⟨rfl, rfl, rfl, rfl, ?_⟩
  exact Int.add_zero e

theorem tryWallet_tables (h : tryWallet (dbModel env) c q info w = (.ok s, w')) :
    s.funding.source = .wallet ∧ s.relayInfo.billingSource = some .wallet ∧
      s.relayInfo.subscriptionId = 0 ∧
      s.relayInfo.finalPreConsumedQuota = walletReserve s q ∧
      (∃ u, w.tables.users.find info.userId = some u ∧ 0 < u.quota) ∧
      (0 ≤ walletReserve s q → w'.tables =
        (Tables.tokenDebited info (walletReserve s q) w.tables).addUserQuota info.userId
          (-walletReserve s q)) ∧
      (walletReserve s q < 0 → w'.tables = w.tables) := by
  obtain ⟨userQuota, w₀, hread, hpos, -, hpre⟩ := tryWallet_ok h
  obtain ⟨w₁, src, htok, hsrc, rfl⟩ := BillingSession.preConsume_ok rfl hpre
  change Model.getUserQuota info.userId w = _ at hread
  have ht₀ := Db.query_tables hread
  have hreserve : ∀ f, walletReserve (BillingSession.opened (walletSession info userQuota).relayInfo
      (.wallet f) ((walletSession info userQuota).shouldTrust c)
      ((walletSession info userQuota).effectiveQuota c q)).syncRelayInfo q =
      (walletSession info userQuota).effectiveQuota c q := fun f => rfl
  have huser : ∃ u, w.tables.users.find info.userId = some u ∧ 0 < u.quota := by
    have hok := Db.query_ok hread
    have hq := Except.ok.inj hok
    cases hf : w.tables.users.find info.userId with
    | none =>
      rw [hf] at hq
      simp only [Option.map_none, Option.getD_none] at hq
      omega
    | some u =>
      rw [hf] at hq
      simp only [Option.map_some, Option.getD_some] at hq
      exact ⟨u, rfl, by omega⟩
  rcases FundingSource.preConsume_wallet_ok hsrc with ⟨he, rfl, rfl⟩ | ⟨he, rfl, hres⟩
  · obtain ⟨h₁, -, h₃, h₄, h₅⟩ := opened_wallet_info (walletSession info userQuota).relayInfo
      ⟨info.userId, 0⟩ ((walletSession info userQuota).shouldTrust c)
      ((walletSession info userQuota).effectiveQuota c q)
    refine ⟨h₁, h₃, h₄, h₅, huser, ?_, ?_⟩
    · rw [hreserve]
      intro h0
      have h0' : (walletSession info userQuota).effectiveQuota c q = 0 := by omega
      rw [tokenLeg_tables h0 htok, h0', Int.neg_zero, addUserQuota_zero, ht₀]
      rfl
    · intro hneg
      rcases htok with ⟨rfl, -⟩ | ⟨hpos', -⟩
      · exact ht₀
      · omega
  · obtain ⟨h₁, -, h₃, h₄, h₅⟩ := opened_wallet_info (walletSession info userQuota).relayInfo
      ⟨info.userId, (walletSession info userQuota).effectiveQuota c q⟩
      ((walletSession info userQuota).shouldTrust c)
      ((walletSession info userQuota).effectiveQuota c q)
    refine ⟨h₁, h₃, h₄, h₅, huser, ?_, ?_⟩
    · intro h0
      rcases reserveUserQuotaForBilling_cases hres with ⟨-, ht⟩ | ⟨⟨_, hr⟩, -⟩
      · rw [ht he, tokenLeg_tables h0 htok, ht₀]
        rfl
      · cases hr
    · rw [hreserve]
      intro hneg
      omega

theorem trySubscription_tables (henv : env.tokenAdjustFails = none)
    (hfresh : w.tables.records.find info.requestId = none)
    (h : trySubscription (dbModel env) c q info w = (.ok s, w')) :
    s.funding.source = .subscription ∧ s.relayInfo.billingSource = some .subscription ∧
      s.relayInfo.finalPreConsumedQuota = subConsume q ∧
      ChargedRow env (Tables.tokenDebited info (subConsume q) w.tables) w'.tables
        s.relayInfo.subscriptionId (subConsume q) := by
  obtain ⟨w₁, src, htok, hsrc, rfl⟩ := BillingSession.preConsume_ok rfl (trySubscription_ok h)
  rw [subscriptionSession_effectiveQuota] at hsrc htok ⊢
  obtain ⟨res, w₂, f, hpre, hview, rfl, -, hid, -⟩ :=
    FundingSource.preConsume_subscription_ok (dbModel_restoring henv) hsrc
  have ht₁ := tokenLeg_tables (Int.le_of_lt (subConsume_pos q)) htok
  have hrec : w₁.tables.records = w.tables.records := by
    rw [ht₁]
    unfold Tables.tokenDebited
    split <;> rfl
  have hcharged := (preConsumeUserSubscription_ok (by rw [hrec]; exact hfresh) hpre).1
  rw [← hview, ht₁] at hcharged
  refine ⟨rfl, rfl, Int.add_zero _, ?_⟩
  change ChargedRow env _ _ f.subscriptionId _
  rw [hid]
  exact hcharged

theorem walletReserve_neg_iff (s : BillingSession) (quota : ℤ) :
    walletReserve s quota < 0 ↔ quota < 0 ∧ s.trusted = false := by
  unfold walletReserve
  cases s.trusted <;> simp

theorem addUserQuota_ne {t t₁ : Tables} {userID delta : ℤ} {u : User} (hdelta : delta ≠ 0)
    (hu : t.users.find userID = some u) (husers : t₁.users = t.users) :
    t ≠ t₁.addUserQuota userID delta := by
  intro h
  have hfind : t.users.find userID = (t₁.addUserQuota userID delta).users.find userID :=
    congrArg (fun t => t.users.find userID) h
  rw [addUserQuota_find_self, husers, hu] at hfind
  simp only [Option.map_some, Option.some.injEq] at hfind
  have hquota := congrArg User.quota hfind
  simp only at hquota
  omega

theorem chargedOnce_wallet_iff (h : tryWallet (dbModel env) c q info w = (.ok s, w')) :
    ChargedOnce env info q w.tables w'.tables s ↔ ¬ walletReserve s q < 0 := by
  obtain ⟨hsrc, hbill, hid, hfinal, ⟨u, hu, -⟩, hpos, hneg⟩ := tryWallet_tables h
  unfold ChargedOnce
  rw [hsrc]
  by_cases h0 : walletReserve s q < 0
  · -- The recorded reserve is negative and nothing was taken.
    refine iff_of_false ?_ (not_not_intro h0)
    rintro ⟨-, -, -, ht⟩
    rw [hneg h0] at ht
    refine addUserQuota_ne (by omega) hu ?_ ht
    unfold Tables.tokenDebited
    split <;> rfl
  · exact iff_of_true ⟨hbill, hid, hfinal, hpos (by omega)⟩ h0

theorem subConsume_eq_max (q : ℤ) : subConsume q = max q 1 := by
  unfold subConsume
  split <;> omega

theorem chargedOnce_subscription (henv : env.tokenAdjustFails = none)
    (hfresh : w.tables.records.find info.requestId = none)
    (h : trySubscription (dbModel env) c q info w = (.ok s, w')) :
    s.funding.source = .subscription ∧ ChargedOnce env info q w.tables w'.tables s := by
  obtain ⟨hsrc, hbill, hfinal, hrow⟩ := trySubscription_tables henv hfresh h
  rw [subConsume_eq_max] at hfinal hrow
  refine ⟨hsrc, ?_⟩
  unfold ChargedOnce
  rw [hsrc]
  exact ⟨hbill, hfinal, hrow⟩

theorem walletOpens_congr (h : SameRequest info info₁) :
    WalletOpens c info₁ w ↔ WalletOpens c info w := by
  have htrust : ∀ userQuota, (walletSession info₁ userQuota).shouldTrust c =
      (walletSession info userQuota).shouldTrust c := by
    intro userQuota
    unfold walletSession BillingSession.shouldTrust
    simp only [h.2.2.2.1, h.2.2.2.2.2.1]
  unfold WalletOpens
  simp only [htrust, h.1]

theorem preConsumeToken_leg {m : BillingModel Db}
    (h : BillingSession.TokenLeg m s.relayInfo e w w') :
    s.preConsumeToken m e w =
      (.ok { s with tokenConsumed := if 0 < e then e else s.tokenConsumed }, w') := by
  by_cases hpos : 0 < e
  · have hneg : ¬ e < 0 := by omega
    simp only [BillingSession.preConsumeToken, BillingSession.preConsumeTokenQuota, if_pos hpos,
      if_neg hneg]
    rcases h with ⟨rfl, h0 | hp⟩ | ⟨-, hp, hres⟩
    · omega
    · simp [hp]
    · simp [hp, hres]
  · rcases h with ⟨rfl, -⟩ | ⟨hpos', -⟩
    · simp only [BillingSession.preConsumeToken, if_neg hpos]
    · exact absurd hpos' hpos

theorem preConsumeToken_refused {m : BillingModel Db} {err : GoError}
    (h : s.preConsumeToken m e w = (.error err, w')) :
    err.errorCode = some .preConsumeTokenQuotaFailed := by
  unfold BillingSession.preConsumeToken at h
  split at h
  · split at h
    · cases h
      rfl
    · cases h
  · cases h

theorem tryWallet_negative (hq : q < 0) :
    NegativeReserve q (tryWallet (dbModel env) c q info w).1 ↔ WalletOpens c info w := by
  constructor
  · intro h
    rcases ht : tryWallet (dbModel env) c q info w with ⟨_ | s, w'⟩
    · rw [ht] at h
      exact h.elim
    rw [ht] at h
    obtain ⟨userQuota, w₁, hread, hpos, -, hpre⟩ := tryWallet_ok ht
    obtain ⟨w₂, src, -, hsrc, rfl⟩ := BillingSession.preConsume_ok rfl hpre
    refine ⟨userQuota, w₁, hread, hpos, ?_⟩
    rcases FundingSource.preConsume_wallet_ok hsrc with ⟨-, rfl, -⟩ | ⟨-, rfl, -⟩
    · exact h.2.2
    · exact h.2.2
  · rintro ⟨userQuota, w₁, hread, hpos, htrust⟩
    -- Nothing is taken from the key or from the wallet, and the session opens.
    have heff : (walletSession info userQuota).effectiveQuota c q = q := by
      unfold BillingSession.effectiveQuota
      rw [htrust]
      rfl
    have hfund : (FundingSource.wallet ⟨info.userId, 0⟩).preConsume (dbModel env) q w₁ =
        (.ok (.wallet ⟨info.userId, 0⟩), w₁) := if_pos hq.le
    have hleg : ∀ s : BillingSession, s.preConsumeToken (dbModel env) q w₁ = (.ok s, w₁) :=
      fun s => if_neg (by omega)
    have hread' : (dbModel env).getUserQuota info.userId w = (.ok userQuota, w₁) := hread
    unfold tryWallet
    simp only [hread']
    rw [if_neg (by omega), if_neg (by omega)]
    change NegativeReserve q
      (attemptOf ((walletSession info userQuota).preConsume (dbModel env) c q w₁)).1
    simp only [BillingSession.preConsume, heff, htrust, hleg]
    unfold walletSession
    simp only [hfund]
    exact ⟨hq, rfl, rfl⟩

theorem trySubscription_not_negative (henv : env.tokenAdjustFails = none) :
    ¬ NegativeReserve q (trySubscription (dbModel env) c q info w).1 := by
  rcases ht : trySubscription (dbModel env) c q info w with ⟨_ | s, w'⟩
  · exact not_false
  rintro ⟨-, hsrc, -⟩
  obtain ⟨w₁, src, -, hfund, rfl⟩ := BillingSession.preConsume_ok rfl (trySubscription_ok ht)
  obtain ⟨_, _, f, -, -, rfl, -⟩ :=
    FundingSource.preConsume_subscription_ok (dbModel_restoring henv) hfund
  cases hsrc

theorem rollbackPreConsume_refused {m : BillingModel Db} {err : GoError}
    (hheld : 0 < s.tokenConsumed) :
    (∃ err' info', attemptOf (s.rollbackPreConsume m err w) = (.error (err', info'), w') ∧
        err'.errorCode = some .insufficientUserQuota) ↔
      (BillingSession.preConsumeError err).errorCode = some .insufficientUserQuota ∧
        if s.relayInfo.isPlayground then w' = w
        else m.refundTokenQuotaForBilling s.relayInfo.tokenId s.relayInfo.tokenKey
          s.tokenConsumed w = (.ok (), w') := by
  unfold BillingSession.rollbackPreConsume
  cases hp : s.relayInfo.isPlayground with
  | true =>
    simp only [Bool.true_eq_false, and_false, if_false, if_true, attemptOf]
    constructor
    · rintro ⟨_, _, h, hcode⟩
      cases h
      exact ⟨hcode, rfl⟩
    · rintro ⟨hcode, rfl⟩
      exact ⟨_, _, rfl, hcode⟩
  | false =>
    rw [if_pos ⟨hheld, rfl⟩]
    rcases hr : m.refundTokenQuotaForBilling s.relayInfo.tokenId s.relayInfo.tokenKey
        s.tokenConsumed w with ⟨_ | _, w₁⟩
    · -- The error of a failed rollback does not lead to the other source.
      refine iff_of_false ?_ (fun h => by cases h.2)
      rintro ⟨_, _, h, hcode⟩
      cases h
      cases hcode
    · constructor
      · rintro ⟨_, _, h, hcode⟩
        cases h
        exact ⟨hcode, rfl⟩
      · rintro ⟨hcode, h⟩
        cases h
        exact ⟨_, _, rfl, hcode⟩

theorem preConsume_subscription_error {m : BillingModel Db} {f : SubscriptionFunding}
    {err : GoError} :
    (FundingSource.subscription f).preConsume m q w = (.error err, w') ↔
      m.preConsumeUserSubscription f.requestId f.userId f.modelName f.amount w =
        (.error err, w') := by
  unfold FundingSource.preConsume
  rcases hr : m.preConsumeUserSubscription f.requestId f.userId f.modelName f.amount w with
    ⟨_ | res, w₁⟩
  · simp [hr]
  · simp only [hr]
    rcases m.getSubscriptionPlanInfoByUserSubscriptionId res.userSubscriptionId w₁ with ⟨_ | _, w₂⟩
    · simp
    · simp

theorem trySubscription_refused :
    (∃ err info', trySubscription (dbModel env) c q info w = (.error (err, info'), w') ∧
        err.errorCode = some .insufficientUserQuota) ↔
      SubscriptionRefused env info (max q 1) w w' := by
  have hpos := subConsume_pos q
  rw [← subConsume_eq_max]
  have hattempt : trySubscription (dbModel env) c q info w = attemptOf
      ((subscriptionSession info q).preConsume (dbModel env) c (subConsume q) w) := rfl
  rw [hattempt]
  unfold BillingSession.preConsume
  simp only [subscriptionSession_effectiveQuota, subscriptionSession_shouldTrust]
  rcases ht : BillingSession.preConsumeToken (dbModel env) { subscriptionSession info q with
      trusted := false } (subConsume q) w with ⟨err | s, w₁⟩
  · -- A refused key is an error of its own, and then there is no leg of the key.
    refine iff_of_false ?_ ?_
    · rintro ⟨_, _, h, hcode⟩
      cases h
      rw [preConsumeToken_refused ht] at hcode
      cases hcode
    · rintro ⟨w₂, _, _, hleg, -⟩
      rw [preConsumeToken_leg hleg] at ht
      cases ht
  · obtain ⟨rfl, hleg⟩ := BillingSession.preConsumeToken_ok ht
    have hunique : ∀ w₂, BillingSession.TokenLeg (dbModel env) info (subConsume q) w w₂ →
        w₂ = w₁ := by
      intro w₂ h
      have ht' := preConsumeToken_leg (s := { subscriptionSession info q with trusted := false }) h
      rw [ht] at ht'
      exact (congrArg Prod.snd ht').symm
    rcases hf : (subscriptionSession info q).funding.preConsume (dbModel env) (subConsume q) w₁ with
      ⟨err | src, w₂⟩
    · have hpre := preConsume_subscription_error.mp hf
      simp only [hf, if_pos hpos]
      refine (rollbackPreConsume_refused (m := dbModel env) (s := { subscriptionSession info q with
          trusted := false, tokenConsumed := subConsume q }) hpos).trans ⟨?_, ?_⟩
      · rintro ⟨hcode, hrefund⟩
        exact ⟨w₁, w₂, err, hleg, hpre, hcode, hrefund⟩
      · rintro ⟨w₃, w₄, err', hleg', hpre', hcode, hrefund⟩
        obtain rfl := hunique w₃ hleg'
        obtain ⟨⟨⟩, rfl⟩ := Prod.mk.inj (hpre.symm.trans hpre')
        exact ⟨hcode, hrefund⟩
    · refine iff_of_false ?_ ?_
      · rintro ⟨_, _, h, -⟩
        simp only [hf] at h
        cases h
      · rintro ⟨w₃, w₄, err', hleg', hpre', -⟩
        obtain rfl := hunique w₃ hleg'
        have hf' : (subscriptionSession info q).funding.preConsume (dbModel env) (subConsume q) w₃ =
            (.error err', w₄) := preConsume_subscription_error.mpr hpre'
        cases hf.symm.trans hf'

theorem overflow_negative (henv : env.tokenAdjustFails = none) (hq : q < 0) (allow : Bool) :
    NegativeReserve q (orElseOnInsufficient (trySubscription (dbModel env) c q info w) allow
        (tryWallet (dbModel env) c q)).1 ↔
      allow = true ∧ ∃ w', SubscriptionRefused env info (max q 1) w w' ∧ WalletOpens c info w' := by
  rcases ht : trySubscription (dbModel env) c q info w with ⟨⟨err, info'⟩ | s, w₁⟩
  · have hsame := (trySubscription_error (dbModel_restoring henv) ht).1
    change NegativeReserve q (if err.errorCode = some .insufficientUserQuota ∧ allow = true then
      tryWallet (dbModel env) c q info' w₁ else (.error (err, info'), w₁)).1 ↔ _
    simp only [← trySubscription_refused (c := c), ht]
    split
    · next hnext =>
      rw [tryWallet_negative hq, walletOpens_congr hsame]
      constructor
      · intro hopens
        exact ⟨hnext.2, w₁, ⟨err, info', rfl, hnext.1⟩, hopens⟩
      · rintro ⟨-, w', ⟨_, _, h, -⟩, hopens⟩
        cases h
        exact hopens
    · next hnext =>
      refine iff_of_false not_false ?_
      rintro ⟨hallow, w', ⟨_, _, h, hcode⟩, -⟩
      cases h
      exact hnext ⟨hcode, hallow⟩
  · have hnot : ¬ NegativeReserve q (trySubscription (dbModel env) c q info w).1 :=
      trySubscription_not_negative henv
    rw [ht] at hnot
    refine iff_of_false hnot ?_
    rintro ⟨-, w', hrefused, -⟩
    obtain ⟨_, _, h, -⟩ := (trySubscription_refused (c := c)).mpr hrefused
    cases ht.symm.trans h

theorem negativeReserve_iff (henv : env.tokenAdjustFails = none) (hq : q < 0) :
    NegativeReserve q (newBillingSession (dbModel env) c info q w).1 ↔
      ∃ w', ComesToWallet env info q w w' ∧ WalletOpens c info w' := by
  unfold newBillingSession ComesToWallet
  cases normalizeBillingPreference info.billingPreference with
  | subscriptionOnly =>
    refine iff_of_false (trySubscription_not_negative henv) ?_
    rintro ⟨_, h, -⟩
    exact h
  | walletOnly => simp only [tryWallet_negative hq, exists_eq_left]
  | walletFirst =>
    simp only [exists_eq_left]
    have hwallet : NegativeReserve q (tryWallet (dbModel env) c q info w).1 ↔ WalletOpens c info w :=
      tryWallet_negative hq
    rw [← hwallet]
    rcases orElseOnInsufficient_cases (tryWallet (dbModel env) c q info w) true
        (trySubscription (dbModel env) c q) with h | ⟨e, info', w₁, hfirst, -, h⟩
    · rw [h]
    · rw [h, hfirst]
      exact iff_of_false (trySubscription_not_negative henv) not_false
  | subscriptionFirst =>
    have hhas : (dbModel env).hasActiveUserSubscription = Model.hasActiveUserSubscription env := rfl
    have hover : (dbModel env).userActiveSubscriptionsAllowWalletOverflow =
      Model.userActiveSubscriptionsAllowWalletOverflow env := rfl
    simp only [hhas, hover]
    rcases Model.hasActiveUserSubscription env info.userId w with ⟨e | _ | _, w₁⟩
    · simp [NegativeReserve]
    · simp [tryWallet_negative hq]
    rcases ho : Model.userActiveSubscriptionsAllowWalletOverflow env info.userId w₁ with
      ⟨e | _ | _, w₂⟩
    · simp [ho, NegativeReserve]
    · simp [ho, overflow_negative henv hq]
    · simp [ho, overflow_negative henv hq]

theorem chargedOnce_congr (h : SameRequest info info₁) {t t' : Tables} :
    ChargedOnce env info₁ q t t' s ↔ ChargedOnce env info q t t' s := by
  unfold ChargedOnce
  rw [tokenDebited_congr h, tokenDebited_congr h, h.1]

theorem atomicCharge_iff (henv : env.tokenAdjustFails = none)
    (hfresh : w.tables.records.find info.requestId = none) :
    AtomicCharge env info q w.tables (newBillingSession (dbModel env) c info q w).2.tables
        (newBillingSession (dbModel env) c info q w).1 ↔
      ¬ NegativeReserve q (newBillingSession (dbModel env) c info q w).1 := by
  have hm := dbModel_restoring henv
  rcases hnew : newBillingSession (dbModel env) c info q w with ⟨⟨e, info'⟩ | s, w'⟩
  · refine iff_of_true ?_ not_false
    rcases newBillingSession_error hm hnew with hview | hroll
    · exact hview
    · exact absurd hroll (dbModel_rollback henv _)
  change ChargedOnce env info q w.tables w'.tables s ↔
    ¬ (q < 0 ∧ s.funding.source = .wallet ∧ s.trusted = false)
  obtain ⟨info₁, w₁, ⟨hsame, hview⟩, hw | hs⟩ := newBillingSession_ok hm hnew
  · have hiff := chargedOnce_wallet_iff hw
    rw [hview, chargedOnce_congr hsame, walletReserve_neg_iff] at hiff
    have hsrc := (tryWallet_tables hw).1
    rw [hiff, hsrc]
    simp
  · rw [← hview, ← hsame.2.2.2.2.2.2.1] at hfresh
    obtain ⟨hsrc, hcharged⟩ := chargedOnce_subscription henv hfresh hs
    rw [hview, chargedOnce_congr hsame] at hcharged
    refine iff_of_true hcharged ?_
    rintro ⟨-, hwallet, -⟩
    rw [hsrc] at hwallet
    cases hwallet

end

def steadyEnv : Env := ⟨1000, 1000, ⟨id, id, id⟩, 1, none⟩

def smallStore (subscriptions : Table UserSubscription.id) : Tables where
  users := ⟨[⟨1, 100⟩], by decide⟩
  tokens := ⟨[⟨1, 100, 0⟩], by decide⟩
  plans := ⟨[⟨1, "plan".toList, "never".toList, 0⟩], by decide⟩
  subscriptions := subscriptions
  records := ⟨[], by decide⟩

def noSubscriptions : Table UserSubscription.id := ⟨[], by decide⟩

def twoSubscriptions : Table UserSubscription.id :=
  ⟨[⟨7, 1, 1, 10, 9, 0, 2000, .active, 0, 0, true⟩, ⟨8, 1, 1, 50, 0, 0, 3000, .active, 0, 0, true⟩],
    by decide⟩

end NewApi.Service
