import NewApi.Model.Subscription

/-!
# What a subscription pre-consume does to the tables

It charges one subscription; every other row is as before or was due for a reset.
-/

namespace NewApi.Model

open NewApi.Service (Call SubscriptionPreConsumeResult)
open Fallible

variable {env : Env} {t₀ t t' : Tables}

def IsDueReset (env : Env) (t : Tables) (sub sub' : UserSubscription) : Prop :=
  ∃ plan, t.plans.find sub.planId = some plan ∧ dueReset env plan sub = some (some sub')

variable {sub sub' : UserSubscription} {res : SubscriptionPreConsumeResult} {userId amount : ℤ}
  {w w' : Db} {plan : SubscriptionPlan} {requestId : Text}

theorem dueReset_fields (h : dueReset env plan sub = some (some sub')) :
    sub'.id = sub.id ∧ sub'.amountTotal = sub.amountTotal ∧
      (sub'.amountUsed = sub.amountUsed ∨ sub'.amountUsed = 0) := by
  unfold dueReset at h
  split at h
  · simp at h
  split at h
  · simp at h
  simp only at h
  generalize calcNextResetTime env.calendar (resetBase sub) plan sub.endTime = next at h
  generalize catchUp env.calendar plan sub.endTime env.dbTimestamp env.resetFuel (resetBase sub)
    next = r at h
  rcases r with _ | ⟨last, next'⟩
  · simp at h
  simp only at h
  split at h
  · simp only [Option.some.injEq] at h
    subst h
    exact ⟨rfl, rfl, .inr rfl⟩
  split at h
  · simp only [Option.some.injEq] at h
    subst h
    exact ⟨rfl, rfl, .inl rfl⟩
  · simp at h

def PassedBy (env : Env) (t₀ t : Tables) (id : ℤ) : Prop :=
  t.subscriptions.find id = t₀.subscriptions.find id ∨
    ∃ sub sub', t₀.subscriptions.find id = some sub ∧ IsDueReset env t₀ sub sub' ∧
      t.subscriptions.find id = some sub'

structure Walked (env : Env) (t₀ t : Tables) : Prop where
  users : t.users = t₀.users
  tokens : t.tokens = t₀.tokens
  plans : t.plans = t₀.plans
  records : t.records = t₀.records
  rows : ∀ id, PassedBy env t₀ t id

structure ChargedRow (env : Env) (t₀ t : Tables) (id amount : ℤ) : Prop where
  users : t.users = t₀.users
  tokens : t.tokens = t₀.tokens
  charged : ∃ sub sub', t₀.subscriptions.find id = some sub ∧
    (sub' = sub ∨ IsDueReset env t₀ sub sub') ∧
    t.subscriptions.find id = some { sub' with amountUsed := sub'.amountUsed + amount }
  others : ∀ j, j ≠ id → PassedBy env t₀ t j

theorem Walked.refl (env : Env) (t : Tables) : Walked env t t :=
  ⟨rfl, rfl, rfl, rfl, fun _ => .inl rfl⟩

theorem Walked.reset (h : Walked env t₀ t) (hsub : t₀.subscriptions.find sub.id = some sub)
    (hsame : t.subscriptions.find sub.id = some sub) (hreset : IsDueReset env t₀ sub sub') :
    Walked env t₀ (t.saveSubscription sub') := by
  have hid : sub'.id = sub.id := by
    obtain ⟨plan, -, hdue⟩ := hreset
    exact (dueReset_fields hdue).1
  refine ⟨h.users, h.tokens, h.plans, h.records, fun j => ?_⟩
  by_cases hj : j = sub'.id
  · rw [← hid] at hsub hsame
    subst hj
    exact .inr ⟨sub, sub', hsub, hreset, Table.find_save_self hsame⟩
  · have hfind : (t.saveSubscription sub').subscriptions.find j = t.subscriptions.find j :=
      Table.find_save_of_ne _ hj
    unfold PassedBy
    rw [hfind]
    exact h.rows j

theorem getSubscriptionPlanByIdTx_ok {id : ℤ}
    (h : getSubscriptionPlanByIdTx id w = (.ok plan, w')) :
    w'.tables = w.tables ∧ w.tables.plans.find id = some plan := by
  unfold getSubscriptionPlanByIdTx at h
  split at h
  · cases h
  refine ⟨Db.query_tables h, ?_⟩
  have hq := Db.query_ok h
  split at hq
  · next hf =>
    cases hq
    exact hf
  · cases hq

theorem maybeReset_ok (h : maybeResetUserSubscriptionWithPlanTx env sub plan w = (.ok sub', w')) :
    sub' = sub ∧ w'.tables = w.tables ∨
      dueReset env plan sub = some (some sub') ∧ w'.tables = w.tables.saveSubscription sub' := by
  unfold maybeResetUserSubscriptionWithPlanTx at h
  rcases hd : dueReset env plan sub with _ | _ | sub₁
  · rw [hd] at h
    cases h
  · rw [hd] at h
    cases h
    exact .inl ⟨rfl, rfl⟩
  · rw [hd] at h
    simp only at h
    rcases he : Db.exec (Tables.saveSubscription sub₁) w with ⟨_ | _, w₁⟩
    · rw [he] at h
      cases h
    · rw [he] at h
      cases h
      exact .inr ⟨rfl, Db.exec_ok he⟩

theorem createRecord_tables {record : SubscriptionPreConsumeRecord} {r : Except GoError Unit}
    (h : createRecord record w = (r, w')) :
    w'.tables.users = w.tables.users ∧ w'.tables.tokens = w.tables.tokens ∧
      w'.tables.subscriptions = w.tables.subscriptions ∧
      (∀ e, r = .error e → w'.tables = w.tables) ∧
      (r = .ok () → w.tables.records.insert record = some w'.tables.records) := by
  unfold createRecord at h
  rcases hs : Db.statement w with ⟨_ | _, w₁⟩
  · rw [hs] at h
    cases h
    rw [Db.statement_tables hs]
    exact ⟨rfl, rfl, rfl, fun _ _ => rfl, fun he => by cases he⟩
  · rw [hs] at h
    simp only at h
    rw [← Db.statement_tables hs]
    rcases hi : w₁.tables.records.insert record with _ | records
    · rw [hi] at h
      cases h
      exact ⟨rfl, rfl, rfl, fun _ _ => rfl, fun he => by cases he⟩
    · rw [hi] at h
      cases h
      exact ⟨rfl, rfl, rfl, fun _ he => (by cases he), fun _ => rfl⟩

theorem chargeSubscription_ok (hw : Walked env t₀ w.tables)
    (hfresh : t₀.records.find requestId = none) (hsub : t₀.subscriptions.find sub'.id = some sub)
    (hreset : sub' = sub ∨ IsDueReset env t₀ sub sub')
    (hrow : ∃ r, w.tables.subscriptions.find sub'.id = some r)
    (h : chargeSubscription requestId userId amount sub' w = (.ok res, w')) :
    ChargedRow env t₀ w'.tables res.userSubscriptionId amount ∧ res.preConsumed = amount ∧
      t₀.records.insert ⟨requestId, userId, res.userSubscriptionId, amount, .consumed⟩ =
        some w'.tables.records := by
  unfold chargeSubscription at h
  rcases hc : createRecord ⟨requestId, userId, sub'.id, amount, .consumed⟩ w with ⟨err | _, w₁⟩
  · -- The insert failed: a fresh request id has no record to take over.
    rw [hc] at h
    simp only at h
    obtain ⟨-, -, -, hsame, -⟩ := createRecord_tables hc
    rcases hd : findRecord requestId w₁ with ⟨_ | dup, w₂⟩
    · rw [hd] at h
      cases h
    · have hq := Db.query_ok hd
      rw [hsame _ rfl, hw.records, hfresh] at hq
      cases hq
  · rw [hc] at h
    simp only at h
    obtain ⟨husers, htokens, hsubs, -, hinsert⟩ := createRecord_tables hc
    rcases he : Db.exec (Tables.saveSubscription
        { sub' with amountUsed := sub'.amountUsed + amount }) w₁ with ⟨_ | _, w₂⟩
    · rw [he] at h
      cases h
    · rw [he] at h
      cases h
      have ht := Db.exec_ok he
      obtain ⟨r, hr⟩ := hrow
      refine ⟨⟨?_, ?_, ⟨sub, sub', hsub, hreset, ?_⟩, fun j hj => ?_⟩, rfl, ?_⟩
      · rw [ht]
        exact husers.trans hw.users
      · rw [ht]
        exact htokens.trans hw.tokens
      · rw [ht]
        apply Table.find_save_self
        rw [hsubs]
        exact hr
      · have hfind : w'.tables.subscriptions.find j = w.tables.subscriptions.find j := by
          rw [ht, ← hsubs]
          exact Table.find_save_of_ne _ hj
        unfold PassedBy
        rw [hfind]
        exact hw.rows j
      · rw [ht, ← hw.records]
        exact hinsert rfl

def Pending (t₀ t : Tables) (candidates : List UserSubscription) : Prop :=
  ∀ c ∈ candidates, t₀.subscriptions.find c.id = some c ∧ t.subscriptions.find c.id = some c

theorem consumeFirst_ok {candidates : List UserSubscription}
    (hnodup : (candidates.map UserSubscription.id).Nodup) (hpend : Pending t₀ w.tables candidates)
    (hw : Walked env t₀ w.tables) (hfresh : t₀.records.find requestId = none)
    (h : consumeFirst env requestId userId amount candidates w = (.ok res, w')) :
    ChargedRow env t₀ w'.tables res.userSubscriptionId amount ∧ res.preConsumed = amount ∧
      t₀.records.insert ⟨requestId, userId, res.userSubscriptionId, amount, .consumed⟩ =
        some w'.tables.records := by
  induction candidates generalizing w with
  | nil => cases h
  | cons c rest ih =>
    rw [List.map_cons, List.nodup_cons] at hnodup
    obtain ⟨hc₀, hc⟩ := hpend c (by simp)
    unfold consumeFirst at h
    rcases hp : getSubscriptionPlanByIdTx c.planId w with ⟨_ | plan, w₁⟩
    · rw [hp] at h
      cases h
    rw [hp] at h
    simp only at h
    obtain ⟨ht₁, hplan⟩ := getSubscriptionPlanByIdTx_ok hp
    rw [hw.plans] at hplan
    rcases hm : maybeResetUserSubscriptionWithPlanTx env c plan w₁ with ⟨_ | sub, w₂⟩
    · rw [hm] at h
      cases h
    rw [hm] at h
    simp only at h
    -- What the reset step left: the row of `c`, the walk's law, and the other candidates.
    have hstep : sub.id = c.id ∧ (sub = c ∨ IsDueReset env t₀ c sub) ∧ Walked env t₀ w₂.tables ∧
        (∃ r, w₂.tables.subscriptions.find c.id = some r) ∧
        ∀ j, j ≠ c.id → w₂.tables.subscriptions.find j = w.tables.subscriptions.find j := by
      rcases maybeReset_ok hm with ⟨rfl, ht₂⟩ | ⟨hdue, ht₂⟩
      · rw [ht₂, ht₁]
        exact ⟨rfl, .inl rfl, hw, ⟨_, hc⟩, fun _ _ => rfl⟩
      · have hid := (dueReset_fields hdue).1
        have hreset : IsDueReset env t₀ c sub := ⟨plan, hplan, hdue⟩
        rw [ht₂, ht₁]
        refine ⟨hid, .inr hreset, hw.reset hc₀ hc hreset, ⟨sub, ?_⟩, fun j hj => ?_⟩
        · rw [← hid]
          exact Table.find_save_self (hid ▸ hc)
        · exact Table.find_save_of_ne _ (hid ▸ hj)
    obtain ⟨hid, hreset, hw₂, hrow, hothers⟩ := hstep
    split at h
    · refine ih hnodup.2 (fun d hd => ?_) hw₂ h
      have hne : d.id ≠ c.id := fun he => hnodup.1 (he ▸ List.mem_map_of_mem hd)
      rw [hothers _ hne]
      exact hpend d (by simp [hd])
    · exact chargeSubscription_ok hw₂ hfresh (hid ▸ hc₀) hreset (hid ▸ hrow) h

theorem preConsumeUserSubscription_ok (hfresh : w.tables.records.find requestId = none)
    (h : preConsumeUserSubscription env requestId userId amount w = (.ok res, w')) :
    ChargedRow env w.tables w'.tables res.userSubscriptionId amount ∧ res.preConsumed = amount ∧
      w.tables.records.insert ⟨requestId, userId, res.userSubscriptionId, amount, .consumed⟩ =
        some w'.tables.records := by
  unfold preConsumeUserSubscription at h
  split at h
  · cases h
  split at h
  · cases h
  split at h
  · cases h
  obtain ⟨w₀, w₁, ht₀, hbody, ht'⟩ := Db.transaction_ok h
  rw [ht', ← ht₀]
  rw [← ht₀] at hfresh
  unfold preConsumeTx at hbody
  rcases hq : Db.query (fun t => .ok (t.records.find requestId)) w₀ with ⟨_ | found, w₂⟩
  · rw [hq] at hbody
    cases hbody
  have hfound := Db.query_ok hq
  rw [hfresh] at hfound
  cases hfound
  rw [hq] at hbody
  simp only at hbody
  have ht₂ := Db.query_tables hq
  rcases hs : Db.query (fun t => .ok ((activeSubscriptions t userId env.dbTimestamp).insertionSort
      endsBefore)) w₂ with ⟨_ | subs, w₃⟩
  · rw [hs] at hbody
    cases hbody
  have hsubs := Db.query_ok hs
  rw [ht₂] at hsubs
  have ht₃ := (Db.query_tables hs).trans ht₂
  rw [hs] at hbody
  cases subs with
  | nil => cases hbody
  | cons c rest =>
    have hperm := List.perm_insertionSort endsBefore
      (activeSubscriptions w₀.tables userId env.dbTimestamp)
    rw [Except.ok.inj hsubs] at hperm
    have hmem : ∀ d ∈ c :: rest, d ∈ w₀.tables.subscriptions.rows := fun d hd =>
      (List.mem_filter.mp (hperm.mem_iff.mp hd)).1
    have hnodup : ((c :: rest).map UserSubscription.id).Nodup := by
      refine ((hperm.map UserSubscription.id).nodup_iff).mpr ?_
      exact (List.filter_sublist.map UserSubscription.id).nodup w₀.tables.subscriptions.nodup
    refine consumeFirst_ok hnodup (fun d hd => ?_) (ht₃ ▸ Walked.refl env _) hfresh hbody
    rw [ht₃]
    exact ⟨Table.find_of_mem (hmem d hd), Table.find_of_mem (hmem d hd)⟩

theorem preConsumeUserSubscription_error {e : GoError}
    (h : preConsumeUserSubscription env requestId userId amount w = (.error e, w')) :
    w'.tables = w.tables := by
  unfold preConsumeUserSubscription at h
  split at h
  · cases h; rfl
  split at h
  · cases h; rfl
  split at h
  · cases h; rfl
  exact Db.transaction_error h

end NewApi.Model
