import NewApi.Model.Subscription
import NewApi.Model.TaskRefund

/-!
# Re-pricing an asynchronous task (service/task_billing.go, model/task_refund.go)

A task whose charge went past its subscription is paid from two sources.
-/

namespace NewApi.Service.TaskReprice

open NewApi.Model

structure Task extends TaskRefund.Task where
  userId : ℤ
  deriving DecidableEq, Repr

structure RelayFunding where
  billingSource : Text
  billingOverageSource : Text
  billingOverageQuota : ℤ
  subscriptionId : ℤ
  tokenId : ℤ
  deriving DecidableEq, Repr

def applyTaskFundingSnapshot (task : Task) (info : RelayFunding) : Task :=
  { task with
    billingSource := info.billingSource
    billingOverageSource := info.billingOverageSource
    billingOverageQuota := info.billingOverageQuota
    subscriptionId := info.subscriptionId
    tokenId := info.tokenId }

def applyTaskSettlementBaseline (task : Task) (quota : ℤ) : Task := { task with quota := quota }

def addSubscriptionUsed (subscriptionId delta : ℤ) (t : Tables) : Tables :=
  { t with
    subscriptions := t.subscriptions.modify subscriptionId
      (fun s => { s with amountUsed := s.amountUsed + delta }) fun _ => rfl }

def refundUserSubscriptionQuotaForBillingTx (subscriptionId quota : ℤ) : Call Db Unit := fun w =>
  if subscriptionId ≤ 0 then (.error (GoError.new "invalid subscription id".toList), w)
  else if quota < 0 then
    (.error (GoError.new "subscription refund quota cannot be negative".toList), w)
  else if quota = 0 then (.ok (), w)
  else
    updateGuarded
      (fun t => (t.subscriptions.find subscriptionId).any fun s => decide (quota ≤ s.amountUsed))
      (addSubscriptionUsed subscriptionId (-quota))
      (fun w =>
        (.error (GoError.new ("subscription refund source missing or insufficient: id=".toList ++
          fmtInt subscriptionId ++ " quota=".toList ++ fmtInt quota)), w)) w

def refundUserSubscriptionQuotaForBilling (subscriptionId quota : ℤ) : Call Db Unit :=
  Db.transaction (refundUserSubscriptionQuotaForBillingTx subscriptionId quota)

def taskIsSubscription (task : Task) : Prop :=
  task.billingSource = "subscription".toList ∧ 0 < task.subscriptionId

instance (task : Task) : Decidable (taskIsSubscription task) := inferInstanceAs (Decidable (_ ∧ _))

def taskAdjustFunding (task : Task) (delta : ℤ) : Call Db Unit :=
  if taskIsSubscription task then
    if delta < 0 then refundUserSubscriptionQuotaForBilling task.subscriptionId (-delta)
    else postConsumeUserSubscriptionDelta task.subscriptionId delta
  else if 0 < delta then debitUserQuotaForBilling task.userId delta
  else refundUserQuotaForBilling task.userId (-delta)

variable (env : Env) (resolveTokenKey : ℤ → Text)

/-- `taskAdjustTokenQuota`: a failure is only logged. -/
def taskAdjustTokenQuota (task : Task) (delta : ℤ) (w : Db) : Db :=
  if task.tokenId ≤ 0 ∨ delta = 0 then w
  else if resolveTokenKey task.tokenId = [] then w
  else if 0 < delta then (debitTokenQuotaForBilling env task.tokenId delta w).2
  else (refundTokenQuotaForBilling env task.tokenId (-delta) w).2

/-- `RecalculateTaskQuota`: a failure of the funding is only logged and changes nothing. -/
def recalculateTaskQuota (task : Task) (actualQuota : ℤ) (w : Db) : Task × Db :=
  if actualQuota ≤ 0 then (task, w)
  else
    let quotaDelta := actualQuota - task.quota
    if quotaDelta = 0 then (task, w)
    else
      match taskAdjustFunding task quotaDelta w with
      | (.error _, w) => (task, w)
      | (.ok _, w) =>
        ({ task with quota := actualQuota },
          taskAdjustTokenQuota env resolveTokenKey task quotaDelta w)

def creditWallet (userId quota : ℤ) : Call Db Unit :=
  updateGuarded (fun t => (t.users.find userId).isSome) (Tables.addUserQuota userId quota)
    fun w => (.error errRecordNotFound, w)

/-- `refundTaskFundingSources`; the result is what the wallet got. -/
def refundTaskFundingSources (task : Task) : Call Db ℤ := fun w =>
  match TaskRefund.refundParts task.toTask with
  | .error e => (.error e, w)
  | .ok (wallet, subscription) =>
    let refunded := if 0 < subscription then
      refundUserSubscriptionQuotaForBillingTx task.subscriptionId subscription w else (.ok (), w)
    match refunded with
    | (.error e, w) => (.error e, w)
    | (.ok _, w) =>
      let credited := if 0 < wallet then creditWallet task.userId wallet w else (.ok (), w)
      match credited with
      | (.error e, w) => (.error e, w)
      | (.ok _, w) => (.ok wallet, w)

structure Split (task : Task) : Prop where
  source : taskIsSubscription task
  overage : task.billingOverageSource = "wallet".toList ∨
    task.billingOverageSource = [] ∧ task.billingOverageQuota = 0
  nonneg : 0 ≤ task.billingOverageQuota
  le : task.billingOverageQuota ≤ task.quota

def charged (task : Task) (t : Tables) : Tables :=
  addSubscriptionUsed task.subscriptionId (task.quota - task.billingOverageQuota)
    (t.addUserQuota task.userId (-task.billingOverageQuota))

def walletOf (task : Task) (t : Tables) : Option ℤ := (t.users.find task.userId).map User.quota

def usedOf (task : Task) (t : Tables) : Option ℤ :=
  (t.subscriptions.find task.subscriptionId).map UserSubscription.amountUsed

/-- Neither source is better off than before the charge, and a full refund leaves both as they
were. -/
structure ReturnsToPayer (task : Task) (actualQuota : ℤ) (t : Tables) : Prop where
  wallet : ∀ q₀ q₁, walletOf task t = some q₀ →
    walletOf task (recalculateTaskQuota env resolveTokenKey task actualQuota
      ⟨charged task t, []⟩).2.tables = some q₁ → q₁ ≤ q₀
  subscription : ∀ u₀ u₁, usedOf task t = some u₀ →
    usedOf task (recalculateTaskQuota env resolveTokenKey task actualQuota
      ⟨charged task t, []⟩).2.tables = some u₁ → u₀ ≤ u₁
  refunded : ∃ wallet w,
    refundTaskFundingSources
        (recalculateTaskQuota env resolveTokenKey task actualQuota ⟨charged task t, []⟩).1
        (recalculateTaskQuota env resolveTokenKey task actualQuota ⟨charged task t, []⟩).2 =
      (.ok wallet, w) ∧
    walletOf task w.tables = walletOf task t ∧ usedOf task w.tables = usedOf task t

/-- The rows are there, a refund of the difference finds enough used amount, and a further charge
stays within the limit. -/
structure WritesSucceed (task : Task) (actualQuota : ℤ) (t : Tables) (user : User)
    (sub : UserSubscription) : Prop where
  userRow : t.users.find task.userId = some user
  subRow : t.subscriptions.find task.subscriptionId = some sub
  used : 0 ≤ sub.amountUsed
  refund : actualQuota < task.quota →
    task.quota - actualQuota ≤ sub.amountUsed + (task.quota - task.billingOverageQuota)
  charge : task.quota < actualQuota → 0 < sub.amountTotal →
    sub.amountUsed + (actualQuota - task.billingOverageQuota) ≤ sub.amountTotal

variable {task : Task} {actualQuota : ℤ} {t : Tables} {user : User}
  {sub : UserSubscription}

theorem find_addSubscriptionUsed (id delta : ℤ) (t : Tables) :
    (addSubscriptionUsed id delta t).subscriptions.find id =
      (t.subscriptions.find id).map fun s => { s with amountUsed := s.amountUsed + delta } := by
  unfold addSubscriptionUsed
  rw [Table.find_modify_self]

theorem refundTx_ok {id quota : ℤ} {w : Db} (hfaults : w.faults = []) (hid : 0 < id)
    (hquota : 0 < quota) (hsub : w.tables.subscriptions.find id = some sub)
    (hused : quota ≤ sub.amountUsed) :
    refundUserSubscriptionQuotaForBillingTx id quota w =
      (.ok (), ⟨addSubscriptionUsed id (-quota) w.tables, []⟩) := by
  obtain ⟨tables, faults⟩ := w
  subst hfaults
  have hguard : ((tables.subscriptions.find id).any fun s => decide (quota ≤ s.amountUsed)) =
      true := by
    rw [show tables.subscriptions.find id = some sub from hsub]
    exact decide_eq_true hused
  simp only [refundUserSubscriptionQuotaForBillingTx, updateGuarded, Db.statement, hguard, if_true]
  rw [if_neg (by omega), if_neg (by omega), if_neg (by omega)]

theorem adjustToken_frame (env : Env) (resolveTokenKey : ℤ → Text) (task : Task) (delta : ℤ)
    (w : Db) :
    (taskAdjustTokenQuota env resolveTokenKey task delta w).tables.users = w.tables.users ∧
      (taskAdjustTokenQuota env resolveTokenKey task delta w).tables.subscriptions =
        w.tables.subscriptions ∧
      (taskAdjustTokenQuota env resolveTokenKey task delta w).faults = w.faults := by
  have hadjust : ∀ id d, (adjustTokenQuotaForBilling env id d w).2.tables.users = w.tables.users ∧
      (adjustTokenQuotaForBilling env id d w).2.tables.subscriptions = w.tables.subscriptions ∧
      (adjustTokenQuotaForBilling env id d w).2.faults = w.faults := by
    intro id d
    unfold adjustTokenQuotaForBilling
    split
    · exact ⟨rfl, rfl, rfl⟩
    split
    · exact ⟨rfl, rfl, rfl⟩
    · split
      · exact ⟨rfl, rfl, rfl⟩
      · exact ⟨rfl, rfl, rfl⟩
  unfold taskAdjustTokenQuota
  split
  · exact ⟨rfl, rfl, rfl⟩
  split
  · exact ⟨rfl, rfl, rfl⟩
  split
  · unfold debitTokenQuotaForBilling
    split
    · exact ⟨rfl, rfl, rfl⟩
    · exact hadjust _ _
  · unfold refundTokenQuotaForBilling
    split
    · exact ⟨rfl, rfl, rfl⟩
    · exact hadjust _ _

theorem charged_user (h : WritesSucceed task actualQuota t user sub) :
    (charged task t).users.find task.userId =
      some { user with quota := user.quota - task.billingOverageQuota } := by
  have hfind : (charged task t).users.find task.userId =
      (t.addUserQuota task.userId (-task.billingOverageQuota)).users.find task.userId := rfl
  rw [hfind, addUserQuota_find_self, h.userRow]
  rfl

theorem charged_sub (h : WritesSucceed task actualQuota t user sub) :
    (charged task t).subscriptions.find task.subscriptionId =
      some { sub with
        amountUsed := sub.amountUsed + (task.quota - task.billingOverageQuota) } := by
  have hsame : (t.addUserQuota task.userId (-task.billingOverageQuota)).subscriptions =
      t.subscriptions := rfl
  rw [charged, find_addSubscriptionUsed, hsame, h.subRow]
  rfl

structure Adjusted (task : Task) (user : User) (sub : UserSubscription) (used : ℤ) (w : Db) :
    Prop where
  faults : w.faults = []
  userRow : w.tables.users.find task.userId =
    some { user with quota := user.quota - task.billingOverageQuota }
  subRow : w.tables.subscriptions.find task.subscriptionId = some { sub with amountUsed := used }

theorem taskAdjustFunding_ok (hsplit : Split task) (h : WritesSucceed task actualQuota t user sub)
    (hne : actualQuota - task.quota ≠ 0) :
    ∃ w, taskAdjustFunding task (actualQuota - task.quota) ⟨charged task t, []⟩ = (.ok (), w) ∧
      Adjusted task user sub (sub.amountUsed + (actualQuota - task.billingOverageQuota)) w := by
  obtain ⟨_, hid⟩ := hsplit.source
  have hcharged := charged_sub h
  have hnonneg := hsplit.nonneg
  have hle := hsplit.le
  have hused := h.used
  rw [taskAdjustFunding, if_pos hsplit.source]
  by_cases hneg : actualQuota - task.quota < 0
  · -- the whole difference goes back to the subscription
    have hrefund := h.refund (by omega)
    have hback : -(actualQuota - task.quota) ≤
        sub.amountUsed + (task.quota - task.billingOverageQuota) := by omega
    have htx := refundTx_ok (w := ⟨charged task t, []⟩) rfl hid (Int.neg_pos_of_neg hneg) hcharged
      hback
    refine ⟨⟨addSubscriptionUsed task.subscriptionId (- -(actualQuota - task.quota))
      (charged task t), []⟩, ?_, rfl, ?_, ?_⟩
    · rw [if_pos hneg, refundUserSubscriptionQuotaForBilling]
      simp only [Db.transaction, Db.statement, htx]
    · exact charged_user h
    · rw [find_addSubscriptionUsed, hcharged]
      simp only [Option.map_some, Option.some.injEq, UserSubscription.mk.injEq, true_and, and_true]
      omega
  · have hcharge := h.charge (by omega)
    have hmax : max 0 (sub.amountUsed + (task.quota - task.billingOverageQuota) +
        (actualQuota - task.quota)) = sub.amountUsed + (actualQuota - task.billingOverageQuota) := by
      omega
    have hroom : ¬ (0 < sub.amountTotal ∧ sub.amountTotal <
        sub.amountUsed + (actualQuota - task.billingOverageQuota)) := by
      omega
    refine ⟨⟨(charged task t).saveSubscription { sub with
      amountUsed := sub.amountUsed + (actualQuota - task.billingOverageQuota) }, []⟩, ?_, rfl, ?_, ?_⟩
    · rw [if_neg hneg, postConsumeUserSubscriptionDelta]
      simp only [Db.transaction, Db.statement, postConsumeUserSubscriptionDeltaTx,
        if_neg (Int.not_le.mpr hid), if_neg hne, Db.query, hcharged, hmax, if_neg hroom, Db.exec]
    · exact charged_user h
    · have hkey : sub.id = task.subscriptionId := Table.find_key h.subRow
      rw [← hkey] at hcharged ⊢
      exact Table.find_save_self hcharged

theorem recalculate_spec (env : Env) (resolveTokenKey : ℤ → Text) (hsplit : Split task)
    (hpos : 0 < actualQuota) (h : WritesSucceed task actualQuota t user sub) :
    (recalculateTaskQuota env resolveTokenKey task actualQuota ⟨charged task t, []⟩).1 =
        { task with quota := actualQuota } ∧
      Adjusted task user sub (sub.amountUsed + (actualQuota - task.billingOverageQuota))
        (recalculateTaskQuota env resolveTokenKey task actualQuota ⟨charged task t, []⟩).2 := by
  rw [recalculateTaskQuota, if_neg (Int.not_le.mpr hpos)]
  by_cases hsame : actualQuota - task.quota = 0
  · have hquota : task.quota = actualQuota := by omega
    simp only [if_pos hsame]
    refine ⟨?_, rfl, charged_user h, ?_⟩
    · rw [← hquota]
    · rw [← hquota]
      exact charged_sub h
  · obtain ⟨w, hadjust, hw⟩ := taskAdjustFunding_ok hsplit h hsame
    obtain ⟨husers, hsubs, hfaults⟩ :=
      adjustToken_frame env resolveTokenKey task (actualQuota - task.quota) w
    simp only [if_neg hsame, hadjust, true_and]
    refine ⟨?_, ?_, ?_⟩
    · rw [hfaults]
      exact hw.faults
    · rw [husers]
      exact hw.userRow
    · rw [hsubs]
      exact hw.subRow

theorem refundParts_repriced (hsplit : Split task) (hpos : 0 < actualQuota)
    (hle : task.billingOverageQuota ≤ actualQuota) :
    TaskRefund.refundParts { task with quota := actualQuota }.toTask =
      .ok (task.billingOverageQuota, actualQuota - task.billingOverageQuota) := by
  obtain ⟨hsource, hid⟩ := hsplit.source
  have hnonneg := hsplit.nonneg
  simp only [TaskRefund.refundParts, hsource, if_true]
  rw [if_neg (by omega), if_neg (by omega), if_neg (Int.not_le.mpr hid)]
  rcases hsplit.overage with hwallet | ⟨hnone, hzero⟩
  · rw [hwallet, if_pos (by decide), if_neg (by simp), if_neg (by omega)]
  · rw [hnone, if_neg (by simp), hzero, Int.sub_zero]

theorem creditWallet_ok {quota : ℤ} {w : Db} (hfaults : w.faults = [])
    (huser : w.tables.users.find task.userId = some user) :
    creditWallet task.userId quota w = (.ok (), ⟨w.tables.addUserQuota task.userId quota, []⟩) := by
  obtain ⟨tables, faults⟩ := w
  subst hfaults
  have hguard : (tables.users.find task.userId).isSome = true := by
    rw [show tables.users.find task.userId = some user from huser]
    rfl
  simp [creditWallet, updateGuarded, Db.statement, hguard]

theorem refund_subscription {w : Db} {quota : ℤ} (hid : 0 < task.subscriptionId)
    (hquota : 0 ≤ quota) (hused : 0 ≤ sub.amountUsed)
    (h : Adjusted task user sub (sub.amountUsed + quota) w) :
    ∃ w', (if 0 < quota then refundUserSubscriptionQuotaForBillingTx task.subscriptionId quota w
        else (.ok (), w)) = (.ok (), w') ∧ Adjusted task user sub sub.amountUsed w' := by
  by_cases hzero : 0 < quota
  · have htx := refundTx_ok h.faults hid hzero h.subRow (Int.le_add_of_nonneg_left hused)
    rw [if_pos hzero]
    refine ⟨_, htx, rfl, h.userRow, ?_⟩
    rw [find_addSubscriptionUsed, h.subRow]
    simp only [Option.map_some, Option.some.injEq, UserSubscription.mk.injEq, true_and, and_true]
    omega
  · have hnone : quota = 0 := by omega
    rw [hnone, Int.add_zero] at h
    rw [if_neg hzero]
    exact ⟨w, rfl, h⟩

theorem refund_wallet {w : Db} (hsplit : Split task) (h : Adjusted task user sub sub.amountUsed w) :
    ∃ w', (if 0 < task.billingOverageQuota then
          creditWallet task.userId task.billingOverageQuota w else (.ok (), w)) = (.ok (), w') ∧
      walletOf task w'.tables = some user.quota ∧ usedOf task w'.tables = some sub.amountUsed := by
  have hnonneg := hsplit.nonneg
  have hused : usedOf task w.tables = some sub.amountUsed := by
    rw [usedOf, h.subRow, Option.map_some]
  by_cases hzero : 0 < task.billingOverageQuota
  · rw [if_pos hzero]
    refine ⟨_, creditWallet_ok h.faults h.userRow, ?_, hused⟩
    rw [walletOf, addUserQuota_find_self, h.userRow]
    simp only [Option.map_some, Option.some.injEq]
    omega
  · rw [if_neg hzero]
    refine ⟨w, rfl, ?_, hused⟩
    rw [walletOf, h.userRow]
    simp only [Option.map_some, Option.some.injEq]
    omega

theorem refund_spec {w : Db} (hsplit : Split task) (hpos : 0 < actualQuota)
    (hle : task.billingOverageQuota ≤ actualQuota) (hused : 0 ≤ sub.amountUsed)
    (h : Adjusted task user sub (sub.amountUsed + (actualQuota - task.billingOverageQuota)) w) :
    ∃ w', refundTaskFundingSources { task with quota := actualQuota } w =
        (.ok task.billingOverageQuota, w') ∧
      walletOf task w'.tables = some user.quota ∧ usedOf task w'.tables = some sub.amountUsed := by
  obtain ⟨w₁, hsub, hw₁⟩ :=
    refund_subscription hsplit.source.2 (Int.sub_nonneg_of_le hle) hused h
  obtain ⟨w₂, hwallet, hw₂⟩ := refund_wallet hsplit hw₁
  refine ⟨w₂, ?_, hw₂⟩
  simp only [refundTaskFundingSources, refundParts_repriced hsplit hpos hle, hsub, hwallet]

theorem task_repricing_iff (env : Env) (resolveTokenKey : ℤ → Text) (task : Task)
    (actualQuota : ℤ) (t : Tables) (user : User) (sub : UserSubscription) (hsplit : Split task)
    (hpos : 0 < actualQuota) (h : WritesSucceed task actualQuota t user sub) :
    ReturnsToPayer env resolveTokenKey task actualQuota t ↔
      task.billingOverageQuota ≤ actualQuota := by
  obtain ⟨htask, hadjusted⟩ :=
    recalculate_spec env resolveTokenKey hsplit hpos h
  have hwallet₀ : walletOf task t = some user.quota := by
    rw [walletOf, h.userRow, Option.map_some]
  have hused₀ : usedOf task t = some sub.amountUsed := by
    rw [usedOf, h.subRow, Option.map_some]
  constructor
  · intro hreturns
    have hused₁ : usedOf task (recalculateTaskQuota env resolveTokenKey task actualQuota
        ⟨charged task t, []⟩).2.tables =
          some (sub.amountUsed + (actualQuota - task.billingOverageQuota)) := by
      rw [usedOf, hadjusted.subRow, Option.map_some]
    have hle := hreturns.subscription _ _ hused₀ hused₁
    omega
  · intro hle
    refine ⟨fun q₀ q₁ hq₀ hq₁ => ?_, fun u₀ u₁ hu₀ hu₁ => ?_, ?_⟩
    · have hnonneg := hsplit.nonneg
      rw [hwallet₀] at hq₀
      rw [walletOf, hadjusted.userRow] at hq₁
      cases hq₀
      cases hq₁
      simp only
      omega
    · rw [hused₀] at hu₀
      rw [usedOf, hadjusted.subRow] at hu₁
      cases hu₀
      cases hu₁
      simp only
      omega
    · obtain ⟨w, hrefund, hwallet, hused⟩ := refund_spec hsplit hpos hle h.used hadjusted
      refine ⟨task.billingOverageQuota, w, ?_, ?_, ?_⟩
      · rw [htask]
        exact hrefund
      · rw [hwallet, hwallet₀]
      · rw [hused, hused₀]

def splitTask : Task :=
  applyTaskSettlementBaseline
    (applyTaskFundingSnapshot ⟨⟨0, [], 0, [], 0, 0⟩, 7⟩
      ⟨"subscription".toList, "wallet".toList, 80, 1, 0⟩) 100

def plainEnv : Env := ⟨0, 0, ⟨id, id, id⟩, 0, none⟩

def beforeTask : Tables where
  users := ⟨[⟨7, 500⟩], List.nodup_singleton _⟩
  tokens := ⟨[], List.nodup_nil⟩
  plans := ⟨[], List.nodup_nil⟩
  subscriptions :=
    ⟨[⟨1, 7, 1, 0, 1000, 0, 100, .active, 0, 0, true⟩], List.nodup_singleton _⟩
  records := ⟨[], List.nodup_nil⟩

theorem splitTask_split : Split splitTask := ⟨by decide, .inl rfl, by decide, by decide⟩

theorem splitTask_writes (actualQuota : ℤ) (h : 0 ≤ actualQuota) :
    WritesSucceed splitTask actualQuota beforeTask ⟨7, 500⟩
      ⟨1, 7, 1, 0, 1000, 0, 100, .active, 0, 0, true⟩ := by
  refine ⟨rfl, rfl, by decide, fun _ => ?_, fun _ hlimit => ?_⟩
  · simp only [splitTask, applyTaskSettlementBaseline, applyTaskFundingSnapshot]
    omega
  · exact absurd hlimit (by decide)

theorem task_repricing_ninety : ReturnsToPayer plainEnv (fun _ => []) splitTask 90 beforeTask :=
  (task_repricing_iff plainEnv (fun _ => []) splitTask 90 beforeTask _ _ splitTask_split
    (by decide) (splitTask_writes 90 (by decide))).mpr (by decide)

/-- At a price of 10 the subscription gets 90 back for the 20 it has paid, and the refund of the
rest is refused for good. -/
theorem task_repricing_overpays :
    Split splitTask ∧
    usedOf splitTask (charged splitTask beforeTask) = some 1020 ∧
    usedOf splitTask (recalculateTaskQuota plainEnv (fun _ => []) splitTask 10
      ⟨charged splitTask beforeTask, []⟩).2.tables = some 930 ∧
    (refundTaskFundingSources { splitTask with quota := 10 }
      (recalculateTaskQuota plainEnv (fun _ => []) splitTask 10
        ⟨charged splitTask beforeTask, []⟩).2).1.toOption = none ∧
    ¬ ReturnsToPayer plainEnv (fun _ => []) splitTask 10 beforeTask := by
  have hused : usedOf splitTask (recalculateTaskQuota plainEnv (fun _ => []) splitTask 10
      ⟨charged splitTask beforeTask, []⟩).2.tables = some 930 := by
    decide
  refine ⟨splitTask_split, by decide, hused, by decide, fun h => ?_⟩
  have hle := h.subscription 1000 930 (by decide) hused
  omega

end NewApi.Service.TaskReprice
