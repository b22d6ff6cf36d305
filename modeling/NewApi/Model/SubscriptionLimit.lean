import NewApi.Model.SubscriptionPurchase

/-!
# Who is granted a subscription, and how often
-/

namespace NewApi.Model.Purchase

open Transition

/-! ### A missing user -/

def LiveWith (users : List UserRow) (userId : ℤ) : Prop :=
  ∃ u ∈ users, u.deleted = false ∧ u.id = userId

def invalidArguments (userId : ℤ) : Option Plan → Option PurchaseError
  | none => some (.other "invalid plan".toList)
  | some plan =>
    if plan.id = 0 then some (.other "invalid plan".toList)
    else if userId ≤ 0 then some (.other "invalid user id".toList)
    else none

def RefusesMissing (dialect : Dialect) (clock : Clock) (t : Shop) (userId : ℤ)
    (plan : Option Plan) (source : Text) : Prop :=
  ¬ LiveWith t.users userId →
    createUserSubscriptionFromPlanTx dialect clock t userId plan source =
      .error ((invalidArguments userId plan).getD .userNotFound)

variable {src : Source} {dialect : Dialect} {userId : ℤ} {users : List UserRow} {clock : Clock}
  {plan : Option Plan} {source : Text} {order : Order} {n : ℕ} {t : Shop}

theorem head?_insertionSort_isNone :
    ((users.insertionSort fun a b => a.id ≤ b.id).head?).isNone = true ↔ users = [] := by
  have hperm := List.perm_insertionSort (fun a b : UserRow => a.id ≤ b.id) users
  rw [Option.isNone_iff_eq_none, List.head?_eq_none_iff]
  constructor
  · intro h
    rw [h] at hperm
    exact hperm.symm.eq_nil
  · intro h
    rw [h] at hperm ⊢
    rfl

theorem lockedUser_sqlite :
    (lockedUser .sqlite users userId).isNone = true ↔ ¬ LiveWith users userId := by
  simp only [lockedUser, if_true, head?_insertionSort_isNone, List.filter_eq_nil_iff,
    List.mem_filter, LiveWith, Bool.not_eq_true', decide_eq_true_eq, not_exists, not_and, and_imp]

theorem lockedUser_others (h : dialect ≠ .sqlite) :
    (lockedUser dialect users userId).isNone = true ↔ ∀ u ∈ users, u.deleted = true := by
  simp only [lockedUser, if_neg h, head?_insertionSort_isNone, List.filter_eq_nil_iff,
    Bool.not_eq_true', Bool.not_eq_false]

theorem calcPlanEndTime_error {plan : Plan} {e : PurchaseError}
    (h : calcPlanEndTime clock plan = .error e) : e ≠ .userNotFound := by
  rintro rfl
  simp only [calcPlanEndTime] at h
  split at h
  · cases h
  split at h
  · cases h
  · cases h
  · cases h
  · cases h
  · split at h
    · cases h
    · cases h
  · cases h

theorem create_valid (hvalid : invalidArguments userId plan = none) :
    createUserSubscriptionFromPlanTx dialect clock t userId plan source = .error .userNotFound ↔
      (lockedUser dialect t.users userId).isNone = true := by
  cases plan with
  | none => cases hvalid
  | some plan =>
    simp only [invalidArguments] at hvalid
    split at hvalid
    · cases hvalid
    rename_i hid
    split at hvalid
    · cases hvalid
    rename_i huser
    simp only [createUserSubscriptionFromPlanTx, if_neg hid, if_neg huser]
    constructor
    · intro h
      by_contra hfound
      rw [if_neg hfound] at h
      split at h
      · cases h
      split at h
      · next e he =>
        cases h
        exact calcPlanEndTime_error he rfl
      · cases h
    · intro hnone
      rw [if_pos hnone]

theorem create_invalid {e : PurchaseError} (h : invalidArguments userId plan = some e) :
    createUserSubscriptionFromPlanTx dialect clock t userId plan source = .error e := by
  cases plan with
  | none =>
    cases h
    rfl
  | some plan =>
    simp only [invalidArguments] at h
    simp only [createUserSubscriptionFromPlanTx]
    split at h
    · next hid =>
      cases h
      rw [if_pos hid]
    · next hid =>
      split at h
      · next huser =>
        cases h
        rw [if_neg hid, if_pos huser]
      · cases h

theorem refusesMissing_iff : RefusesMissing dialect clock t userId plan source ↔
      invalidArguments userId plan ≠ none ∨ dialect = .sqlite ∨ LiveWith t.users userId ∨
        ∀ u ∈ t.users, u.deleted = true := by
  rcases hargs : invalidArguments userId plan with _ | e
  · have hcreate : createUserSubscriptionFromPlanTx dialect clock t userId plan source =
        .error .userNotFound ↔ (lockedUser dialect t.users userId).isNone = true :=
      create_valid hargs
    simp only [RefusesMissing, hargs, Option.getD_none, hcreate, ne_eq, not_true_eq_false,
      false_or]
    by_cases hd : dialect = .sqlite
    · subst hd
      rw [lockedUser_sqlite]
      exact ⟨fun _ => .inl rfl, fun _ h => h⟩
    · rw [lockedUser_others hd]
      constructor
      · intro h
        by_cases hlive : LiveWith t.users userId
        · exact .inr (.inl hlive)
        · exact .inr (.inr (h hlive))
      · rintro (h | h | h) hnone
        · exact absurd h hd
        · exact absurd h hnone
        · exact h
  · refine ⟨fun _ => .inl (Option.some_ne_none e), fun _ _ => ?_⟩
    rw [create_invalid hargs, hargs, Option.getD_some]

/-! ### The limit -/

/-- The user holds at most `MaxPurchasePerUser` subscriptions of the plan, at most one an order. -/
structure WithinLimit (c : Setup) (s : Store) : Prop where
  limit : (s.subs.length : ℤ) ≤ c.plan.maxPurchasePerUser
  once : ∀ x, s.subs.count (some x) ≤ 1

def Closed (row : Option Order) : Prop := ∃ order, row = some order ∧ order.status ≠ .pending

structure StoreInv (c : Setup) (s : Store) : Prop extends WithinLimit c s where
  closed : ∀ x, some x ∈ s.subs → Closed (s.orders x).committed

def Holding (i : ℕ) (s : Store) : Prop :=
  ∀ x row, (s.orders x).own i = some row → Closed row

def Saved (i : ℕ) (s : Store) : Source → Prop
  | .order completion => (s.orders completion.callback.tradeNo).own i ≠ none
  | .balance x _ => (s.orders x).own i ≠ none ∧ (s.orders x).committed = none
  | .admin => True

def Memory (c : Setup) (i : ℕ) (s : Store) : Pc → Prop
  | .lockUser src => (src.plan c).maxPurchasePerUser = c.plan.maxPurchasePerUser
  | .count src => (src.plan c).maxPurchasePerUser = c.plan.maxPurchasePerUser
  | .readGroup _ n => (n : ℤ) < c.plan.maxPurchasePerUser
  | .upgrade _ n => (n : ℤ) < c.plan.maxPurchasePerUser
  | .insert _ n => (n : ℤ) < c.plan.maxPurchasePerUser
  | .readTopUp _ n => (n : ℤ) < c.plan.maxPurchasePerUser
  | .writeTopUp _ n _ => (n : ℤ) < c.plan.maxPurchasePerUser
  | .saveOrder _ n => (n : ℤ) < c.plan.maxPurchasePerUser
  | .insertOrder _ _ n => (n : ℤ) < c.plan.maxPurchasePerUser
  | .commitSub src n => (n : ℤ) < c.plan.maxPurchasePerUser ∧ Saved i s src
  | _ => True

def CallInv (c : Setup) (i : ℕ) (s : Store) (pc : Pc) : Prop := Holding i s ∧ Memory c i s pc

/-- A subscription is committed while the number of subscriptions is still the one that was
counted, and its order still pending. -/
def CommitCurrent (_ : ℕ) (s : Store) : Pc → Action → Prop
  | .commitSub (.order completion) n, .run _ =>
    s.subs.length = n ∧
      (s.orders completion.callback.tradeNo).committed.map Order.status = some .pending
  | .commitSub _ n, .run _ => s.subs.length = n
  | _, _ => True

variable {c : Setup} {i j : ℕ} {s s' : Store} {pc : Pc} {r : Store × Pc} {x : Text} {now : ℤ}

theorem Holding.kept (h : Holding j s) (hk : ∀ x, (s.orders x).KeptFor j (s'.orders x)) :
    Holding j s' := by
  intro x row hrow
  rw [(hk x).own] at hrow
  exact h x row hrow

theorem Saved.kept (h : Saved j s src) (hk : ∀ x, (s.orders x).KeptFor j (s'.orders x)) :
    Saved j s' src := by
  cases src with
  | order completion =>
    simp only [Saved] at h ⊢
    rw [(hk _).own]
    exact h
  | balance x _ =>
    obtain ⟨hown, hnone⟩ := h
    obtain ⟨row, hrow⟩ := Option.ne_none_iff_exists'.mp hown
    refine ⟨?_, ?_⟩
    · rw [(hk x).own]
      exact hown
    · rw [(hk x).committed row hrow]
      exact hnone
  | admin => trivial

theorem CallInv.kept (h : CallInv c j s pc)
    (hk : ∀ x, (s.orders x).KeptFor j (s'.orders x)) : CallInv c j s' pc := by
  obtain ⟨hh, hmem⟩ := h
  refine ⟨hh.kept hk, ?_⟩
  cases pc with
  | commitSub src n => exact ⟨hmem.1, hmem.2.kept hk⟩
  | _ => exact hmem

theorem quiet_keepsAll (h : StoreInv c s) (horders : s'.orders = s.orders)
    (hsubs : s'.subs = s.subs) (hh : Holding i s) (hmem : Memory c i s' pc) :
    KeepsAll (StoreInv c) (CallInv c) i s s' pc := by
  have hk : ∀ j x, (s.orders x).KeptFor j (s'.orders x) := by
    intro j x
    rw [horders]
    exact .rfl
  refine ⟨⟨⟨?_, ?_⟩, ?_⟩, ⟨hh.kept (hk i), hmem⟩, fun j _ _ hq => hq.kept (hk j)⟩
  · rw [hsubs]
    exact h.limit
  · rw [hsubs]
    exact h.once
  · rw [hsubs, horders]
    exact h.closed

theorem move_keepsAll (h : StoreInv c s) (hpc : CallInv c i s pc) :
    KeepsAll (StoreInv c) (CallInv c) i s s pc :=
  quiet_keepsAll h rfl rfl hpc.1 hpc.2

theorem abort_keepsAll (h : StoreInv c s) (hmem : Memory c i (s.abort i) pc) :
    KeepsAll (StoreInv c) (CallInv c) i s (s.abort i) pc := by
  refine ⟨⟨⟨h.limit, h.once⟩, fun x hx => ?_⟩, ⟨fun x row hrow => ?_, hmem⟩,
    fun j _ hne hq => hq.kept fun x => Row.keptFor_abort hne⟩
  · simp only [Store.abort, Row.abort_committed]
    exact h.closed x hx
  · simp only [Store.abort, Row.own_abort_self] at hrow
    cases hrow

theorem rollback_keepsAll (h : StoreInv c s) (hr : rollback i s = some r) :
    KeepsAll (StoreInv c) (CallInv c) i s r.1 r.2 := by
  cases hr
  exact abort_keepsAll h trivial

theorem refuse_keepsAll (h : StoreInv c s) (hr : refuse i s src = some r) :
    KeepsAll (StoreInv c) (CallInv c) i s r.1 r.2 := by
  cases src with
  | order completion =>
    cases hr
    exact abort_keepsAll h trivial
  | balance _ _ | admin => exact rollback_keepsAll h hr

theorem create_keepsAll (h : StoreInv c s) (horders : s'.orders = s.orders)
    (hsubs : s'.subs = s.subs) (hh : Holding i s)
    (hplan : (src.plan c).maxPurchasePerUser = c.plan.maxPurchasePerUser)
    (hr : create c i s' src = some r) : KeepsAll (StoreInv c) (CallInv c) i s r.1 r.2 := by
  have hquiet : KeepsAll (StoreInv c) (CallInv c) i s s' .start :=
    quiet_keepsAll h horders hsubs hh trivial
  obtain ⟨hinv, ⟨hh', _⟩, hothers⟩ := hquiet
  unfold create at hr
  split at hr
  · obtain ⟨habort, hpc, hkeep⟩ := rollback_keepsAll hinv hr
    exact ⟨habort, hpc, fun j q hne hq => hkeep j q hne (hothers j q hne hq)⟩
  · cases hr
    exact ⟨hinv, ⟨hh', hplan⟩, hothers⟩

theorem orders_writeOrder_of_ne {y : Text} (h : y ≠ x) :
    (s.writeOrder i x order).orders y = s.orders y := by
  simp [Store.writeOrder, Function.update_of_ne h]

theorem orders_writeOrder_self :
    (s.writeOrder i x order).orders x = (s.orders x).write i (some order) := by
  simp [Store.writeOrder]

theorem writeOrder_keepsAll (h : StoreInv c s) (hh : Holding i s) (hf : (s.orders x).free i = true)
    (hstatus : order.status ≠ .pending) (hmem : Memory c i (s.writeOrder i x order) pc) :
    KeepsAll (StoreInv c) (CallInv c) i s (s.writeOrder i x order) pc := by
  refine ⟨⟨⟨h.limit, h.once⟩, fun y hy => ?_⟩, ⟨fun y row hrow => ?_, hmem⟩,
    fun j _ hne hq => hq.kept fun y => ?_⟩
  · by_cases hyx : y = x
    · subst hyx
      rw [orders_writeOrder_self]
      exact h.closed y hy
    · rw [orders_writeOrder_of_ne hyx]
      exact h.closed y hy
  · by_cases hyx : y = x
    · subst hyx
      rw [orders_writeOrder_self, Row.own_write_self] at hrow
      cases hrow
      exact ⟨order, rfl, hstatus⟩
    · rw [orders_writeOrder_of_ne hyx] at hrow
      exact hh y row hrow
  · by_cases hyx : y = x
    · subst hyx
      rw [orders_writeOrder_self]
      exact Row.keptFor_write hf hne
    · rw [orders_writeOrder_of_ne hyx]
      exact .rfl

theorem closed_commit (hh : Holding i s) (h : Closed (s.orders x).committed) :
    Closed ((s.orders x).commit i).committed := by
  rw [Row.commit_committed]
  rcases hown : (s.orders x).own i with _ | row
  · exact h
  · exact hh x row hown

theorem commit_keepsAll {created : Option Source}
    (hinv : StoreInv c (s.commit i created)) :
    KeepsAll (StoreInv c) (CallInv c) i s (s.commit i created) .done := by
  refine ⟨hinv, ⟨fun x row hrow => ?_, trivial⟩,
    fun j _ hne hq => hq.kept fun x => Row.keptFor_commit hne⟩
  simp only [Store.commit, Row.own_commit_self] at hrow
  cases hrow

theorem label_notMem (h : StoreInv c s) (hsaved : Saved i s src)
    (hok : CommitCurrent i s (.commitSub src n) (.run now)) (hx : src.label = some x) :
    some x ∉ s.subs := by
  intro hmem
  obtain ⟨order, horder, hstatus⟩ := h.closed x hmem
  cases src with
  | order completion =>
    cases hx
    have hpending := hok.2
    rw [horder] at hpending
    exact hstatus (Option.some.inj hpending)
  | balance y _ =>
    cases hx
    rw [hsaved.2] at horder
    cases horder
  | admin => cases hx

theorem closed_label (hh : Holding i s) (hsaved : Saved i s src) (hx : src.label = some x) :
    Closed ((s.orders x).commit i).committed := by
  have hown : (s.orders x).own i ≠ none := by
    cases src with
    | order completion =>
      cases hx
      exact hsaved
    | balance y _ =>
      cases hx
      exact hsaved.1
    | admin => cases hx
  obtain ⟨row, hrow⟩ := Option.ne_none_iff_exists'.mp hown
  rw [Row.commit_committed, hrow]
  exact hh x row hrow

theorem CommitCurrent.counted (hok : CommitCurrent i s (.commitSub src n) (.run now)) :
    s.subs.length = n := by
  cases src with
  | order completion => exact hok.1
  | balance _ _ | admin => exact hok

theorem commitSub_inv (h : StoreInv c s) (hh : Holding i s) (hmem : Memory c i s (.commitSub src n))
    (hok : CommitCurrent i s (.commitSub src n) (.run now)) :
    StoreInv c (s.commit i (some src)) := by
  obtain ⟨hlt, hsaved⟩ := hmem
  have hn := hok.counted
  have hsubs : (s.commit i (some src)).subs = src.label :: s.subs := rfl
  refine ⟨⟨?_, fun x => ?_⟩, fun x hx => ?_⟩
  · rw [hsubs, List.length_cons]
    omega
  · rw [hsubs]
    by_cases hx : src.label = some x
    · have hnone := List.count_eq_zero_of_not_mem (label_notMem h hsaved hok hx)
      rw [hx, List.count_cons_self, hnone]
    · rw [List.count_cons_of_ne hx]
      exact h.once x
  · rcases List.mem_cons.mp hx with hx | hx
    · exact closed_label hh hsaved hx.symm
    · exact closed_commit hh (h.closed x hx)

theorem passed_keepsAll (h : StoreInv c s) (hh : Holding i s)
    (hn : (n : ℤ) < c.plan.maxPurchasePerUser) (hr : passed c i s now src n = some r) :
    KeepsAll (StoreInv c) (CallInv c) i s r.1 r.2 := by
  unfold passed at hr
  split at hr
  · exact rollback_keepsAll h hr
  split at hr
  all_goals
    cases hr
    exact move_keepsAll h ⟨hh, hn⟩

theorem updateUser_frame {f : UserRow → UserRow} (h : updateUser i s f = some s') :
    s'.orders = s.orders ∧ s'.subs = s.subs := by
  unfold updateUser at h
  split at h
  · cases h
    exact ⟨rfl, rfl⟩
  · split at h
    · cases h
      exact ⟨rfl, rfl⟩
    · cases h

theorem first_keepsAll (op : Op) (h : StoreInv c s) (hh : Holding i s)
    (hr : first c i s now op = some r) : KeepsAll (StoreInv c) (CallInv c) i s r.1 r.2 := by
  cases op with
  | completeOrder callback =>
    simp only [first] at hr
    split at hr
    · cases hr
      exact move_keepsAll h ⟨hh, trivial⟩
    · split at hr
      · exact rollback_keepsAll h hr
      rename_i order _
      split at hr
      · exact rollback_keepsAll h hr
      split at hr
      · cases hr
        exact move_keepsAll h ⟨hh, trivial⟩
      · split at hr
        · exact rollback_keepsAll h hr
        split at hr
        · cases hr
          exact move_keepsAll h ⟨hh, trivial⟩
        · split at hr
          · exact rollback_keepsAll h hr
          · next plan hplan =>
            have hlimit : (Source.plan c (.order ⟨callback, order, plan⟩)).maxPurchasePerUser =
                c.plan.maxPurchasePerUser := (c.fulfil_plan _ _ _ hplan).2
            exact create_keepsAll h rfl rfl hh hlimit hr
  | purchaseWithBalance tradeNo =>
    simp only [first] at hr
    split at hr
    · cases hr
      exact move_keepsAll h ⟨hh, trivial⟩
    · split at hr
      · exact rollback_keepsAll h hr
      · split at hr
        · exact rollback_keepsAll h hr
        · cases hr
          exact move_keepsAll h ⟨hh, trivial⟩
  | adminBind =>
    simp only [first] at hr
    split at hr
    · cases hr
      exact move_keepsAll h ⟨hh, trivial⟩
    · exact create_keepsAll h rfl rfl hh rfl hr

theorem statement_keepsAll (hmax : 0 < c.plan.maxPurchasePerUser) (h : StoreInv c s)
    (hpc : CallInv c i s pc) (hok : CommitCurrent i s pc (.run now))
    (hr : statement c i s now pc = some r) : KeepsAll (StoreInv c) (CallInv c) i s r.1 r.2 := by
  obtain ⟨hh, hmem⟩ := hpc
  cases pc with
  | start => exact first_keepsAll _ h hh hr
  | saveExpired x order | saveFailed x order =>
    obtain ⟨hf, hr⟩ := Option.ite_none_right_eq_some.mp hr
    cases hr
    exact writeOrder_keepsAll h hh hf (by rintro ⟨⟩) trivial
  | readBuyer x requiredQuota =>
    simp only [statement] at hr
    split at hr
    · exact rollback_keepsAll h hr
    split at hr
    · exact rollback_keepsAll h hr
    · split at hr
      · cases hr
        exact move_keepsAll h ⟨hh, trivial⟩
      · exact create_keepsAll h rfl rfl hh rfl hr
  | debit x requiredQuota =>
    obtain ⟨s', hupdate, hcreate⟩ := Option.bind_eq_some_iff.mp hr
    obtain ⟨horders, hsubs⟩ := updateUser_frame hupdate
    exact create_keepsAll h horders hsubs hh rfl hcreate
  | lockUser src =>
    simp only [statement] at hr
    split at hr
    · exact refuse_keepsAll h hr
    · split at hr
      · cases hr
        exact move_keepsAll h ⟨hh, hmem⟩
      · exact passed_keepsAll h hh hmax hr
  | count src =>
    simp only [statement] at hr
    split at hr
    · exact refuse_keepsAll h hr
    rename_i hlimit
    have hplan : (src.plan c).maxPurchasePerUser = c.plan.maxPurchasePerUser := hmem
    have hroom : (s.subs.length : ℤ) < c.plan.maxPurchasePerUser := by
      by_contra hfull
      refine hlimit ⟨?_, ?_⟩
      · rw [hplan]
        exact hmax
      · omega
    exact passed_keepsAll h hh hroom hr
  | readGroup src n =>
    simp only [statement] at hr
    split at hr
    all_goals
      cases hr
      exact move_keepsAll h ⟨hh, hmem⟩
  | upgrade src n =>
    obtain ⟨s', hupdate, rfl⟩ := Option.map_eq_some_iff.mp hr
    obtain ⟨horders, hsubs⟩ := updateUser_frame hupdate
    exact quiet_keepsAll h horders hsubs hh hmem
  | insert src n =>
    cases src with
    | order completion | balance x requiredQuota =>
      cases hr
      exact move_keepsAll h ⟨hh, hmem⟩
    | admin =>
      cases hr
      exact move_keepsAll h ⟨hh, hmem, trivial⟩
  | readTopUp completion n =>
    simp only [statement] at hr
    split at hr
    · cases hr
      exact move_keepsAll h ⟨hh, hmem⟩
    · split at hr
      · exact rollback_keepsAll h hr
      · cases hr
        exact move_keepsAll h ⟨hh, hmem⟩
  | writeTopUp completion n found =>
    simp only [statement] at hr
    split at hr
    · split at hr
      · exact rollback_keepsAll h hr
      · cases hr
        exact quiet_keepsAll h rfl rfl hh hmem
    · cases hr
  | saveOrder completion n =>
    obtain ⟨hf, hr⟩ := Option.ite_none_right_eq_some.mp hr
    cases hr
    refine writeOrder_keepsAll h hh hf (by rintro ⟨⟩) ⟨hmem, ?_⟩
    simp [Saved, orders_writeOrder_self]
  | insertOrder x requiredQuota n =>
    obtain ⟨hf, hr⟩ := Option.ite_none_right_eq_some.mp hr
    split at hr
    · exact rollback_keepsAll h hr
    rename_i hnew
    cases hr
    refine writeOrder_keepsAll h hh hf (by rintro ⟨⟩) ⟨hmem, ?_, ?_⟩
    · rw [orders_writeOrder_self, Row.own_write_self]
      exact Option.some_ne_none _
    · rw [orders_writeOrder_self]
      have hnone := not_not.mp hnew
      rcases hown : (s.orders x).own i with _ | row
      · rw [Row.select_of_none hown] at hnone
        exact hnone
      · obtain ⟨order, hrow, _⟩ := hh x row hown
        rw [Row.select_of_own hown, hrow] at hnone
        cases hnone
  | commitSub src n =>
    cases hr
    exact commit_keepsAll (commitSub_inv h hh hmem hok)
  | readFailed callback =>
    simp only [statement] at hr
    split at hr
    · exact rollback_keepsAll h hr
    split at hr
    · exact rollback_keepsAll h hr
    split at hr
    all_goals
      cases hr
      exact move_keepsAll h ⟨hh, trivial⟩
  | commit =>
    cases hr
    exact commit_keepsAll ⟨⟨h.limit, h.once⟩, fun x hx => closed_commit hh (h.closed x hx)⟩
  | done => cases hr

theorem step_keepsAll {a : Action} (hmax : 0 < c.plan.maxPurchasePerUser) (h : StoreInv c s)
    (hpc : CallInv c i s pc) (hok : CommitCurrent i s pc a) (hr : step c i s pc a = some r) :
    KeepsAll (StoreInv c) (CallInv c) i s r.1 r.2 := by
  cases a with
  | run now => exact statement_keepsAll hmax h hpc hok (by cases pc <;> exact hr)
  | fail =>
    cases pc with
    | done => cases hr
    | _ => exact rollback_keepsAll h hr

structure Started (c : Setup) (s : State) : Prop where
  points : ∀ i, s.point i = .start
  idle : ∀ x, (s.store.orders x).pending = none
  store : StoreInv c s.store

theorem withinLimit_reach {s t : State} (hmax : 0 < c.plan.maxPurchasePerUser)
    (h0 : Started c s) (h : Reach (interleave (step c)) (Locally CommitCurrent) s t) :
    WithinLimit c t.store := by
  have hinit : Interleaved (StoreInv c) (CallInv c) s := by
    refine ⟨h0.store, fun i => ⟨fun x row hrow => ?_, ?_⟩⟩
    · rw [Row.own_of_pending (h0.idle x)] at hrow
      cases hrow
    · rw [h0.points i]
      trivial
  have hinv := h.interleaved hinit fun hs hp hok hn => step_keepsAll hmax hs hp hok hn
  exact hinv.store.toWithinLimit

theorem entitlements_within_limit (dialect : Dialect) (clock : Clock) (shop : Shop) (userId : ℤ)
    (plan : Option Plan) (source : Text) :
    (RefusesMissing dialect clock shop userId plan source ↔
      invalidArguments userId plan ≠ none ∨ dialect = .sqlite ∨ LiveWith shop.users userId ∨
        ∀ u ∈ shop.users, u.deleted = true) ∧
    ∀ (c : Setup) (s t : State), 0 < c.plan.maxPurchasePerUser → Started c s →
      Reach (interleave (step c)) (Locally CommitCurrent) s t → WithinLimit c t.store :=
  ⟨refusesMissing_iff, fun _ _ _ hmax h0 h => withinLimit_reach hmax h0 h⟩

/-! ### Runs of a free hour -/

def hourPlan (maxPurchasePerUser : ℤ) : Plan where
  id := 1
  title := []
  quotaResetPeriod := []
  quotaResetCustomSeconds := 0
  totalAmount := 100
  durationUnit := .hour
  durationValue := 1
  customSeconds := 0
  upgradeGroup := []
  downgradeGroup := []
  maxPurchasePerUser := maxPurchasePerUser
  allowWalletOverflow := none
  enabled := true
  priceAmount := 0
  allowBalancePay := none

def hourCalls (maxPurchasePerUser : ℤ) (op : Op) : Setup where
  dialect := .postgres
  userId := 7
  plan := hourPlan maxPurchasePerUser
  otherUsers := []
  quotaPerUnit := 500000
  pendingTTL := fun _ => 3600
  fulfil := fun _ _ => .ok (hourPlan maxPurchasePerUser)
  fulfil_plan := by
    intro _ _ p h
    cases h
    exact ⟨rfl, rfl⟩
  calendar := ⟨id, id, id⟩
  addDate := fun start _ _ => start
  op := fun _ => op

def pendingOrder : Order := ⟨some .stripe, "stripe".toList, .pending, 1000, 0, []⟩

def noneYet : State where
  store := ⟨.stored (some ⟨7, 0, [], false⟩), fun _ => .stored (some pendingOrder),
    fun _ => .stored none, []⟩
  point := fun _ => .start

theorem noneYet_started {m : ℤ} {op : Op} (hm : 0 < m) : Started (hourCalls m op) noneYet where
  points := fun _ => rfl
  idle := fun _ => rfl
  store := by
    refine ⟨⟨?_, fun x => ?_⟩, fun x hx => ?_⟩
    · exact Int.le_of_lt hm
    · exact Nat.zero_le 1
    · cases hx

def callStripe : Op := .completeOrder ⟨"sub-1".toList, [], some .stripe, []⟩

def schedule (calls : List ℕ) : List (ℕ × Action) := calls.map fun i => (i, .run 1001)

instance (i : ℕ) (s : Store) (pc : Pc) (a : Action) : Decidable (CommitCurrent i s pc a) := by
  unfold CommitCurrent
  split <;> infer_instance

def otherUserOnly : Shop := ⟨[⟨1, 0, [], false⟩], [], 1⟩

def plainClock : Clock := ⟨1000, ⟨id, id, id⟩, fun start _ _ => start⟩

theorem entitlements_within_limit_sequential :
    RefusesMissing .sqlite plainClock otherUserOnly 7 (some (hourPlan 1)) "order".toList ∧
    ∃ t, Reach (interleave (step (hourCalls 1 .adminBind))) (Locally CommitCurrent) noneYet t ∧
      (t.store.subs = [none] ∧ t.point 1 = .done) ∧
      WithinLimit (hourCalls 1 .adminBind) t.store := by
  have hrun : (execute (interleave (step (hourCalls 1 .adminBind))) (Locally CommitCurrent)
      (schedule [0, 0, 0, 0, 0, 1, 1, 1]) noneYet).map
        (fun t => decide (t.store.subs = [none] ∧ t.point 1 = .done)) = some true := by
    decide
  obtain ⟨t, hreach, ht⟩ := exists_reach_of_execute hrun
  obtain ⟨hmissing, hlimit⟩ := entitlements_within_limit .sqlite plainClock otherUserOnly 7
    (some (hourPlan 1)) "order".toList
  exact ⟨hmissing.mpr (.inr (.inl rfl)), t, hreach, of_decide_eq_true ht,
    hlimit _ _ _ (by decide) (noneYet_started (by decide)) hreach⟩

theorem granted_to_missing :
    ¬ RefusesMissing .postgres plainClock otherUserOnly 7
      (some (hourPlan 1)) "order".toList := by
  rw [refusesMissing_iff]
  rintro (h | h | ⟨u, hu, _, hid⟩ | h)
  · exact h rfl
  · cases h
  · cases List.mem_singleton.mp hu
    cases hid
  · cases h _ (List.mem_singleton.mpr rfl)

/-- Two bindings count before either commits; two callbacks read the order before either saves
it. -/
theorem entitlements_past_limit :
    ¬ RefusesMissing .postgres plainClock otherUserOnly 7
      (some (hourPlan 1)) "order".toList ∧
    (Started (hourCalls 1 .adminBind) noneYet ∧
      ∃ t, Reach (interleave (step (hourCalls 1 .adminBind))) Any noneYet t ∧
        ¬ (t.store.subs.length : ℤ) ≤ 1) ∧
    (Started (hourCalls 2 callStripe) noneYet ∧
      ∃ t, Reach (interleave (step (hourCalls 2 callStripe))) Any noneYet t ∧
        ¬ t.store.subs.count (some "sub-1".toList) ≤ 1) := by
  have hbind : (execute (interleave (step (hourCalls 1 .adminBind))) Any
      (schedule [0, 0, 0, 1, 1, 1, 0, 0, 1, 1]) noneYet).map
        (fun t => decide (¬ (t.store.subs.length : ℤ) ≤ 1)) = some true := by
    decide
  have hcallback : (execute (interleave (step (hourCalls 2 callStripe))) Any
      (schedule [0, 1, 0, 0, 0, 0, 0, 0, 0, 1, 1, 1, 1, 1, 1, 1]) noneYet).map
        (fun t => decide (¬ t.store.subs.count (some "sub-1".toList) ≤ 1)) = some true := by
    decide
  obtain ⟨t, ht, hlimit⟩ := exists_reach_of_execute hbind
  obtain ⟨u, hu, honce⟩ := exists_reach_of_execute hcallback
  exact ⟨granted_to_missing,
    ⟨noneYet_started (by decide), t, ht, of_decide_eq_true hlimit⟩,
    noneYet_started (by decide), u, hu, of_decide_eq_true honce⟩

end NewApi.Model.Purchase
