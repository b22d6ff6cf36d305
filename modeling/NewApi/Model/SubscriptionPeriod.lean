import NewApi.Lib.Transition
import NewApi.Model.SubscriptionCharge
import NewApi.Model.SubscriptionReset

/-!
# Usage and refunds across a quota reset (model/subscription.go)

A reset clears the used amount while requests that were charged before it are still open.
-/

namespace NewApi.Model

open NewApi.Service (Call SubscriptionPreConsumeResult)

/-! ### The reset task -/

/-- The transaction of `ResetDueSubscriptions` for one row, which it selects again. A failing
select ends it without an error. -/
def resetDueTx (env : Env) (id : ℤ) (plan : SubscriptionPlan) : Call Db Unit := fun w =>
  match Db.query (fun t => .ok ((t.subscriptions.find id).filter fun sub =>
      decide (0 < sub.nextResetTime) && decide (sub.nextResetTime ≤ env.dbTimestamp))) w with
  | (.error _, w) => (.ok (), w)
  | (.ok none, w) => (.ok (), w)
  | (.ok (some locked), w) =>
    match maybeResetUserSubscriptionWithPlanTx env locked plan w with
    | (.error e, w) => (.error e, w)
    | (.ok _, w) => (.ok (), w)

def resetDueSubscription (env : Env) (sub : UserSubscription) : Call Db Unit := fun w =>
  match getSubscriptionPlanByIdTx sub.planId w with
  | (.error _, w) => (.ok (), w)
  | (.ok plan, w) => Db.transaction (resetDueTx env sub.id plan) w

/-! ### Runs with a ledger -/

namespace Period

/-- A call, with the driver errors it meets. A later delta is booked for the request whose
settlement it is. -/
inductive Op where
  | preConsume (env : Env) (requestId : Text) (userId amount : ℤ)
  | refund (requestId : Text)
  | delta (requestId : Text) (userSubscriptionId amount : ℤ)
  | reset (env : Env) (sub : UserSubscription)

structure Event where
  op : Op
  faults : List (Option GoError)

structure State where
  tables : Tables
  ledger : List (Text × ℤ)

def apply (k : ℤ) (t : Tables) (e : Event) : Tables × List (Text × ℤ) :=
  match e.op with
  | .preConsume env requestId userId amount =>
    match preConsumeUserSubscription env requestId userId amount ⟨t, e.faults⟩ with
    | (.error _, w) => (w.tables, [])
    | (.ok res, w) =>
      (w.tables, if (t.records.find requestId).isNone ∧ res.userSubscriptionId = k then
        [(requestId, amount)] else [])
  | .refund requestId => ((refundSubscriptionPreConsume requestId ⟨t, e.faults⟩).2.tables, [])
  | .delta requestId userSubscriptionId amount =>
    match postConsumeUserSubscriptionDelta userSubscriptionId amount ⟨t, e.faults⟩ with
    | (.error _, w) => (w.tables, [])
    | (.ok _, w) => (w.tables, if userSubscriptionId = k then [(requestId, amount)] else [])
  | .reset env sub => ((resetDueSubscription env sub ⟨t, e.faults⟩).2.tables, [])

def baseOf (k : ℤ) (t : Tables) : Option ℤ := (t.subscriptions.find k).map resetBase

def next (k : ℤ) (s : State) (e : Event) : Option State :=
  let r := apply k s.tables e
  some ⟨r.1, (if baseOf k r.1 = baseOf k s.tables then s.ledger else []) ++ r.2⟩

def refunded (t : Tables) (requestId : Text) : Bool :=
  ((t.records.find requestId).map fun r => decide (r.status = .refunded)).getD false

def net (counts : Text → Bool) : List (Text × ℤ) → ℤ
  | [] => 0
  | (requestId, amount) :: ledger => (if counts requestId then amount else 0) + net counts ledger

/-- The usage of the period is at least what its requests without a refund have taken. -/
def Covered (k : ℤ) (s : State) : Prop :=
  ∀ sub, s.tables.subscriptions.find k = some sub →
    net (fun q => !refunded s.tables q) s.ledger ≤ sub.amountUsed

def takes (k : ℤ) (record : SubscriptionPreConsumeRecord) : ℤ :=
  if record.userSubscriptionId = k then max 0 record.preConsumed else 0

/-- A refund takes no more than its request consumed since the last reset, and no request gives
something back after its refund. -/
def OwnPeriod (k : ℤ) (s : State) (e : Event) : Prop :=
  match e.op with
  | .refund requestId => (s.tables.records.find requestId).all (fun record =>
      decide (record.status = .refunded) ||
        decide (takes k record ≤ net (fun q => decide (q = requestId)) s.ledger)) = true
  | .delta requestId _ amount => amount < 0 → refunded s.tables requestId = false
  | _ => True

/-! ### Sums over the ledger -/

theorem net_append (counts : Text → Bool) (a b : List (Text × ℤ)) :
    net counts (a ++ b) = net counts a + net counts b := by
  induction a with
  | nil => simp [net]
  | cons e a ih =>
    obtain ⟨q, x⟩ := e
    rw [List.cons_append, net, net]
    omega

theorem net_congr {f g : Text → Bool} (h : ∀ q, f q = g q) (l : List (Text × ℤ)) :
    net f l = net g l := by
  rw [funext h]

theorem net_without {f g : Text → Bool} {q : Text} (hq : f q = true) (hgq : g q = false)
    (hg : ∀ q', q' ≠ q → g q' = f q') (l : List (Text × ℤ)) :
    net g l = net f l - net (fun q' => decide (q' = q)) l := by
  induction l with
  | nil => rfl
  | cons e l ih =>
    obtain ⟨q', x⟩ := e
    rw [net, net, net]
    by_cases h : q' = q
    · subst h
      simp only [hq, hgq, decide_true, Bool.false_eq_true, if_false]
      omega
    · simp only [hg q' h, h, decide_false, Bool.false_eq_true, if_false]
      omega

/-! ### A reset and its base -/

variable {w w' : Db} {plan : SubscriptionPlan} {r : Except GoError Unit} {env : Env} {k : ℤ}

theorem catchUp_stops {cal : Calendar} {endUnix now : ℤ} {n : ℕ} {base next last next' : ℤ}
    (hnext : next = calcNextResetTime cal base plan endUnix)
    (h : catchUp cal plan endUnix now n base next = some (last, next')) :
    next' = calcNextResetTime cal last plan endUnix ∧ ¬ (0 < next' ∧ next' ≤ now) ∧
      (last = base ∨ 0 < last) := by
  induction n generalizing base next with
  | zero => cases h
  | succ n ih =>
    rw [catchUp] at h
    by_cases hdue : 0 < next ∧ next ≤ now
    · rw [if_pos hdue] at h
      obtain ⟨h₁, h₂, h₃⟩ := ih rfl h
      refine ⟨h₁, h₂, Or.inr ?_⟩
      rcases h₃ with rfl | h₃
      · exact hdue.1
      · exact h₃
    · rw [if_neg hdue] at h
      cases h
      exact ⟨hnext, hdue, Or.inl rfl⟩

theorem dueReset_base {sub sub' : UserSubscription} (h : dueReset env plan sub = some (some sub')) :
    resetBase sub' = resetBase sub ∧ sub'.amountUsed = sub.amountUsed ∨
      resetBase sub' ≠ resetBase sub ∧ sub'.amountUsed = 0 := by
  unfold dueReset at h
  split at h
  · cases h
  split at h
  · cases h
  simp only at h
  rcases hwalk : catchUp env.calendar plan sub.endTime env.dbTimestamp env.resetFuel
      (resetBase sub) (calcNextResetTime env.calendar (resetBase sub) plan sub.endTime) with
    _ | ⟨last, next'⟩
  · rw [hwalk] at h
    cases h
  · rw [hwalk] at h
    simp only at h
    obtain ⟨hnext, hstop, hlast⟩ := catchUp_stops rfl hwalk
    by_cases hdue : 0 < calcNextResetTime env.calendar (resetBase sub) plan sub.endTime ∧
        calcNextResetTime env.calendar (resetBase sub) plan sub.endTime ≤ env.dbTimestamp
    · rw [if_pos hdue] at h
      cases h
      have hne : last ≠ resetBase sub := by
        rintro rfl
        rw [hnext] at hstop
        exact hstop hdue
      have hpos : 0 < last := by
        rcases hlast with hlast | hlast
        · exact absurd hlast hne
        · exact hlast
      refine Or.inr ⟨?_, rfl⟩
      rw [resetBase, if_neg (by simp only; omega)]
      exact hne
    · rw [if_neg hdue] at h
      split at h
      · cases h
        have hstay : last = resetBase sub := by
          rcases hfuel : env.resetFuel with _ | n
          · rw [hfuel] at hwalk
            cases hwalk
          · rw [hfuel, catchUp, if_neg hdue] at hwalk
            cases hwalk
            rfl
        refine Or.inl ⟨?_, rfl⟩
        -- the new last reset is the base already
        rw [hstay]
        by_cases hset : sub.lastResetTime ≤ 0
        · have hbase : resetBase sub = sub.startTime := if_pos hset
          rw [hbase]
          exact ite_self _
        · have hbase : resetBase sub = sub.lastResetTime := if_neg hset
          rw [hbase]
          exact if_neg hset
      · cases h

/-! ### What each call does -/

theorem postConsumeTx_ok {id delta : ℤ}
    (h : postConsumeUserSubscriptionDeltaTx id delta w = (.ok (), w')) :
    delta = 0 ∧ w'.tables = w.tables ∨
      ∃ sub, w.tables.subscriptions.find id = some sub ∧
        w'.tables = w.tables.saveSubscription
          { sub with amountUsed := max 0 (sub.amountUsed + delta) } := by
  unfold postConsumeUserSubscriptionDeltaTx at h
  split at h
  · cases h
  split at h
  · rename_i hzero
    cases h
    exact Or.inl ⟨hzero, rfl⟩
  split at h
  · cases h
  rename_i sub w₁ hq
  have hfind : w.tables.subscriptions.find id = some sub := by
    have hok := Db.query_ok hq
    split at hok
    · next hf =>
      cases hok
      exact hf
    · cases hok
  simp only at h
  split at h
  · cases h
  · have htables := Db.exec_ok h
    rw [Db.query_tables hq] at htables
    exact Or.inr ⟨sub, hfind, htables⟩

theorem postConsume_cases {id delta : ℤ}
    (h : postConsumeUserSubscriptionDelta id delta w = (r, w')) :
    w'.tables = w.tables ∧ (r = .ok () → delta = 0) ∨
      r = .ok () ∧ ∃ sub, w.tables.subscriptions.find id = some sub ∧
        w'.tables = w.tables.saveSubscription
          { sub with amountUsed := max 0 (sub.amountUsed + delta) } := by
  unfold postConsumeUserSubscriptionDelta at h
  split at h
  · cases h
    exact Or.inl ⟨rfl, fun he => by cases he⟩
  split at h
  · rename_i hzero
    cases h
    exact Or.inl ⟨rfl, fun _ => hzero⟩
  rcases r with err | _
  · exact Or.inl ⟨Db.transaction_error h, fun he => by cases he⟩
  obtain ⟨w₀, w₁, ht₀, hbody, ht'⟩ := Db.transaction_ok h
  rw [ht', ← ht₀]
  rcases postConsumeTx_ok hbody with ⟨hzero, hsame⟩ | hsub
  · exact Or.inl ⟨hsame, fun _ => hzero⟩
  · exact Or.inr ⟨rfl, hsub⟩

theorem refund_cases {requestId : Text} (h : refundSubscriptionPreConsume requestId w = (r, w')) :
    w'.tables = w.tables ∨
      ∃ record, w.tables.records.find requestId = some record ∧ record.status = .consumed ∧
        w'.tables.records = w.tables.records.save { record with status := .refunded } ∧
        (record.preConsumed ≤ 0 ∧ w'.tables.subscriptions = w.tables.subscriptions ∨
          ∃ sub, w.tables.subscriptions.find record.userSubscriptionId = some sub ∧
            w'.tables.subscriptions = w.tables.subscriptions.save
              { sub with amountUsed := max 0 (sub.amountUsed + -record.preConsumed) }) := by
  unfold refundSubscriptionPreConsume at h
  split at h
  · cases h
    exact Or.inl rfl
  rcases r with err | _
  · exact Or.inl (Db.transaction_error h)
  obtain ⟨w₀, w₁, ht₀, hbody, ht'⟩ := Db.transaction_ok h
  rw [ht', ← ht₀]
  unfold refundPreConsumeTx at hbody
  rcases hq : findRecord requestId w₀ with ⟨_ | record, w₂⟩
  · rw [hq] at hbody
    cases hbody
  rw [hq] at hbody
  simp only at hbody
  have hfind : w₀.tables.records.find requestId = some record := by
    have hok := Db.query_ok hq
    split at hok
    · next hf =>
      cases hok
      exact hf
    · cases hok
  have ht₂ := Db.query_tables hq
  split at hbody
  · cases hbody
    exact Or.inl ht₂
  · rename_i hstatus
    have hconsumed : record.status = .consumed := by
      rcases hs : record.status with _ | _
      · rfl
      · exact absurd hs hstatus
    refine Or.inr ⟨record, hfind, hconsumed, ?_⟩
    split at hbody
    · rename_i hpre
      have htables := Db.exec_ok hbody
      rw [htables, ht₂]
      exact ⟨rfl, Or.inl ⟨hpre, rfl⟩⟩
    · rename_i hpre
      rcases hp : postConsumeUserSubscriptionDeltaTx record.userSubscriptionId
          (-record.preConsumed) w₂ with ⟨_ | _, w₃⟩
      · rw [hp] at hbody
        cases hbody
      · rw [hp] at hbody
        have htables := Db.exec_ok hbody
        rcases postConsumeTx_ok hp with ⟨hzero, -⟩ | ⟨sub, hsub, ht₃⟩
        · omega
        · rw [ht₂] at hsub ht₃
          rw [htables, ht₃]
          exact ⟨rfl, Or.inr ⟨sub, hsub, rfl⟩⟩

def Moves (k d : ℤ) (t t' : Tables) : Prop :=
  ∀ row, t'.subscriptions.find k = some row → ∃ sub sub', t.subscriptions.find k = some sub ∧
    (sub' = sub ∨ ∃ env plan, dueReset env plan sub = some (some sub')) ∧
    row = { sub' with amountUsed := sub'.amountUsed + d }

theorem moves_of_same {t t' : Tables} (h : t'.subscriptions.find k = t.subscriptions.find k) :
    Moves k 0 t t' := by
  intro row hrow
  rw [h] at hrow
  refine ⟨row, row, hrow, Or.inl rfl, ?_⟩
  rw [add_zero]

theorem moves_of_passedBy {t t' : Tables} (h : PassedBy env t t' k) : Moves k 0 t t' := by
  rcases h with h | ⟨sub, sub', hsub, ⟨plan, -, hdue⟩, hrow⟩
  · exact moves_of_same h
  intro row hrow'
  rw [hrow] at hrow'
  cases hrow'
  refine ⟨sub, sub', hsub, Or.inr ⟨env, plan, hdue⟩, ?_⟩
  rw [add_zero]

theorem getSubscriptionPlanByIdTx_tables {id : ℤ} {r : Except GoError SubscriptionPlan}
    (h : getSubscriptionPlanByIdTx id w = (r, w')) : w'.tables = w.tables := by
  unfold getSubscriptionPlanByIdTx at h
  split at h
  · cases h
    rfl
  · exact Db.query_tables h

theorem resetDueTx_ok {id : ℤ} (h : resetDueTx env id plan w = (.ok (), w')) (k : ℤ) :
    Moves k 0 w.tables w'.tables ∧ w'.tables.records = w.tables.records := by
  unfold resetDueTx at h
  split at h
  · rename_i hq
    cases h
    rw [Db.query_tables hq]
    exact ⟨moves_of_same rfl, rfl⟩
  · rename_i hq
    cases h
    rw [Db.query_tables hq]
    exact ⟨moves_of_same rfl, rfl⟩
  · rename_i locked w₁ hq
    have hfind : w.tables.subscriptions.find id = some locked := by
      have hok := Db.query_ok hq
      exact (Option.filter_eq_some_iff.mp (Except.ok.inj hok)).1
    split at h
    · cases h
    rename_i sub' w₂ hm
    cases h
    have ht₁ := Db.query_tables hq
    rcases maybeReset_ok hm with ⟨-, ht₂⟩ | ⟨hdue, ht₂⟩
    · rw [ht₂, ht₁]
      exact ⟨moves_of_same rfl, rfl⟩
    · rw [ht₂, ht₁]
      refine ⟨?_, rfl⟩
      have hkey : locked.id = id := Table.find_key hfind
      have hid := (dueReset_fields hdue).1
      by_cases hk : k = sub'.id
      · intro row hrow
        have hrow' : w.tables.subscriptions.find k = some locked := by
          rw [hk, hid, hkey]
          exact hfind
        have hsave := Table.find_save_self (hk ▸ hrow')
        rw [hk] at hrow
        refine ⟨locked, sub', hrow', Or.inr ⟨env, plan, hdue⟩, ?_⟩
        rw [add_zero]
        exact Option.some.inj (hrow.symm.trans hsave)
      · exact moves_of_same (Table.find_save_of_ne _ hk)

theorem reset_cases {sub : UserSubscription} (h : resetDueSubscription env sub w = (r, w'))
    (k : ℤ) : Moves k 0 w.tables w'.tables ∧ w'.tables.records = w.tables.records := by
  unfold resetDueSubscription at h
  rcases hp : getSubscriptionPlanByIdTx sub.planId w with ⟨_ | plan, w₀⟩
  · rw [hp] at h
    cases h
    rw [getSubscriptionPlanByIdTx_tables hp]
    exact ⟨moves_of_same rfl, rfl⟩
  · rw [hp] at h
    have ht₀ := getSubscriptionPlanByIdTx_tables hp
    rcases r with err | _
    · have ht := Db.transaction_error h
      rw [ht, ht₀]
      exact ⟨moves_of_same rfl, rfl⟩
    · obtain ⟨w₁, w₂, ht₁, hbody, ht'⟩ := Db.transaction_ok h
      have hmoves := resetDueTx_ok hbody k
      rw [ht', ← ht₀, ← ht₁]
      exact hmoves

theorem preConsume_cases {requestId : Text} {userId amount : ℤ}
    {r : Except GoError SubscriptionPreConsumeResult}
    (h : preConsumeUserSubscription env requestId userId amount w = (r, w')) (k : ℤ) :
    w'.tables = w.tables ∧ (∀ res, r = .ok res → (w.tables.records.find requestId).isNone = false) ∨
      ∃ res, r = .ok res ∧ w.tables.records.find requestId = none ∧
        w.tables.records.insert ⟨requestId, userId, res.userSubscriptionId, amount, .consumed⟩ =
          some w'.tables.records ∧
        Moves k (if res.userSubscriptionId = k then amount else 0) w.tables w'.tables := by
  rcases r with err | res
  · exact Or.inl ⟨preConsumeUserSubscription_error h, fun _ he => by cases he⟩
  rcases hfind : w.tables.records.find requestId with _ | existing
  · obtain ⟨hcharged, -, hinsert⟩ := preConsumeUserSubscription_ok hfind h
    refine Or.inr ⟨res, rfl, rfl, hinsert, ?_⟩
    by_cases hk : res.userSubscriptionId = k
    · rw [if_pos hk, ← hk]
      obtain ⟨sub, sub', hsub, hreset, hrow⟩ := hcharged.charged
      intro row hrow'
      refine ⟨sub, sub', hsub, ?_, Option.some.inj (hrow'.symm.trans hrow)⟩
      rcases hreset with hsame | ⟨plan, -, hdue⟩
      · exact Or.inl hsame
      · exact Or.inr ⟨env, plan, hdue⟩
    · rw [if_neg hk]
      exact moves_of_passedBy (hcharged.others k (Ne.symm hk))
  · refine Or.inl ⟨?_, fun _ _ => rfl⟩
    unfold preConsumeUserSubscription at h
    split at h
    · cases h
    split at h
    · cases h
    split at h
    · cases h
    obtain ⟨w₀, w₁, ht₀, hbody, ht'⟩ := Db.transaction_ok h
    rw [ht', ← ht₀]
    rw [← ht₀] at hfind
    unfold preConsumeTx at hbody
    rcases hq : Db.query (fun t => .ok (t.records.find requestId)) w₀ with ⟨_ | found, w₂⟩
    · rw [hq] at hbody
      cases hbody
    have hfound := Db.query_ok hq
    rw [hfind] at hfound
    cases hfound
    rw [hq] at hbody
    simp only [resumeRecord] at hbody
    split at hbody
    · cases hbody
    split at hbody
    · cases hbody
    · rename_i hq'
      cases hbody
      rw [Db.query_tables hq', Db.query_tables hq]

/-! ### Steps and runs -/

section Steps

variable {k : ℤ} {s : State} {t' : Tables}

theorem refunded_of_records {t : Tables} (h : t'.records = t.records) (q : Text) :
    refunded t' q = refunded t q := by
  rw [refunded, refunded, h]

theorem Covered.moves {d : ℤ} {entries : List (Text × ℤ)} (h : Covered k s)
    (hmoves : Moves k d s.tables t') (hrefunded : ∀ q, refunded t' q = refunded s.tables q)
    (hentries : net (fun q => !refunded t' q) entries ≤ d) :
    Covered k ⟨t', (if baseOf k t' = baseOf k s.tables then s.ledger else []) ++ entries⟩ := by
  intro row hrow
  obtain ⟨sub, sub', hsub, hcase, rfl⟩ := hmoves row hrow
  have hold := h sub hsub
  have hbase' : baseOf k t' = some (resetBase sub') := by
    rw [baseOf, hrow]
    rfl
  have hbase : baseOf k s.tables = some (resetBase sub) := by
    rw [baseOf, hsub]
    rfl
  have hnet : net (fun q => !refunded t' q) s.ledger =
      net (fun q => !refunded s.tables q) s.ledger :=
    net_congr (fun q => by rw [hrefunded q]) _
  show net (fun q => !refunded t' q) _ ≤ sub'.amountUsed + d
  rw [net_append, hbase', hbase]
  rcases hcase with rfl | ⟨env, plan, hdue⟩
  · rw [if_pos rfl]
    omega
  · rcases dueReset_base hdue with ⟨hsame, hused⟩ | ⟨hne, hused⟩
    · rw [if_pos (congrArg some hsame)]
      omega
    · rw [if_neg (fun heq => hne (Option.some.inj heq))]
      simp only [net]
      omega

variable {sub : UserSubscription} {requestId : Text} {id : ℤ}

theorem Covered.preConsume {userId amount j : ℤ} (h : Covered k s)
    (hfresh : s.tables.records.find requestId = none)
    (hinsert : s.tables.records.insert ⟨requestId, userId, j, amount, .consumed⟩ = some t'.records)
    (hmoves : Moves k (if j = k then amount else 0) s.tables t') :
    Covered k ⟨t', (if baseOf k t' = baseOf k s.tables then s.ledger else []) ++
      (if j = k then [(requestId, amount)] else [])⟩ := by
  have hself : refunded t' requestId = false := by
    rw [refunded, Table.find_insert_self hinsert]
    rfl
  refine h.moves hmoves ?_ ?_
  · intro q
    by_cases hq : q = requestId
    · rw [hq, hself, refunded, hfresh]
      rfl
    · rw [refunded, refunded, Table.find_insert_of_ne hinsert hq]
  · by_cases hj : j = k
    · rw [if_pos hj]
      simp only [net, hself, Bool.not_false, if_true]
      omega
    · rw [if_neg hj, if_neg hj]
      exact le_rfl

theorem find_save_used {subs : Table UserSubscription.id} (hfind : subs.find id = some sub)
    (used k : ℤ) : (subs.save { sub with amountUsed := used }).find k =
      if id = k then some { sub with amountUsed := used } else subs.find k := by
  have hkey : sub.id = id := Table.find_key hfind
  by_cases hk : id = k
  · rw [if_pos hk, ← hk, ← hkey]
    exact Table.find_save_self (hkey ▸ hfind)
  · rw [if_neg hk]
    exact Table.find_save_of_ne _ fun he => hk (hkey.symm.trans he.symm)

theorem baseOf_save {used : ℤ} (hfind : s.tables.subscriptions.find id = some sub)
    (ht' : t'.subscriptions = s.tables.subscriptions.save { sub with amountUsed := used }) :
    baseOf k t' = baseOf k s.tables := by
  rw [baseOf, baseOf, ht', find_save_used hfind]
  by_cases hk : id = k
  · rw [if_pos hk, ← hk, hfind]
    rfl
  · rw [if_neg hk]

theorem find_used {sub row : UserSubscription} {used : ℤ}
    (hfind : s.tables.subscriptions.find id = some sub)
    (ht' : t'.subscriptions = s.tables.subscriptions.save { sub with amountUsed := used })
    (hrow : t'.subscriptions.find k = some row) :
    id = k ∧ s.tables.subscriptions.find k = some sub ∧ row.amountUsed = used ∨
      id ≠ k ∧ s.tables.subscriptions.find k = some row := by
  rw [ht', find_save_used hfind] at hrow
  by_cases hk : id = k
  · rw [if_pos hk] at hrow
    cases hrow
    exact Or.inl ⟨hk, hk ▸ hfind, rfl⟩
  · rw [if_neg hk] at hrow
    exact Or.inr ⟨hk, hrow⟩

theorem Covered.delta {id amount : ℤ} (h : Covered k s)
    (hfind : s.tables.subscriptions.find id = some sub)
    (ht' : t' = s.tables.saveSubscription
      { sub with amountUsed := max 0 (sub.amountUsed + amount) })
    (hown : amount < 0 → refunded s.tables requestId = false) :
    Covered k ⟨t', s.ledger ++ (if id = k then [(requestId, amount)] else [])⟩ := by
  have hsubs : t'.subscriptions = s.tables.subscriptions.save
      { sub with amountUsed := max 0 (sub.amountUsed + amount) } := by
    rw [ht']
    rfl
  have hrefunded : ∀ q, refunded t' q = refunded s.tables q :=
    refunded_of_records (by rw [ht']; rfl)
  intro row hrow
  rw [net_append, net_congr fun q => by rw [hrefunded q]]
  rcases find_used hfind hsubs hrow with ⟨hk, hsub, hused⟩ | ⟨hk, hsame⟩
  · have hold := h sub hsub
    rw [if_pos hk]
    simp only [net]
    rcases hr : refunded s.tables requestId with _ | _
    · simp only [hrefunded, hr, Bool.not_false, if_true]
      omega
    · have hpos : 0 ≤ amount := by
        by_contra hneg
        rw [hown (by omega)] at hr
        cases hr
      simp only [hrefunded, hr, Bool.not_true, Bool.false_eq_true]
      omega
  · have hold := h row hsame
    rw [if_neg hk]
    simp only [net]
    omega

theorem Covered.refund {record : SubscriptionPreConsumeRecord} (h : Covered k s)
    (hfind : s.tables.records.find requestId = some record) (hconsumed : record.status = .consumed)
    (hrecords : t'.records = s.tables.records.save { record with status := .refunded })
    (hsubs : record.preConsumed ≤ 0 ∧ t'.subscriptions = s.tables.subscriptions ∨
      ∃ sub, s.tables.subscriptions.find record.userSubscriptionId = some sub ∧
        t'.subscriptions = s.tables.subscriptions.save
          { sub with amountUsed := max 0 (sub.amountUsed + -record.preConsumed) })
    (hown : takes k record ≤ net (fun q => decide (q = requestId)) s.ledger) :
    Covered k ⟨t', s.ledger⟩ := by
  have hkey : record.requestId = requestId := Table.find_key hfind
  have hbefore : refunded s.tables requestId = false := by
    rw [refunded, hfind]
    simp [hconsumed]
  have hafter : refunded t' requestId = true := by
    have hsave : t'.records.find requestId = some { record with status := .refunded } := by
      rw [hrecords, ← hkey]
      exact Table.find_save_self (hkey ▸ hfind)
    rw [refunded, hsave]
    rfl
  have hothers : ∀ q, q ≠ requestId → (!refunded t' q) = (!refunded s.tables q) := by
    intro q hq
    have hne : q ≠ record.requestId := fun he => hq (he.trans hkey)
    have hframe : (s.tables.records.save { record with status := .refunded }).find q =
        s.tables.records.find q := Table.find_save_of_ne _ hne
    rw [refunded, refunded, hrecords, hframe]
  have hnet : net (fun q => !refunded t' q) s.ledger =
      net (fun q => !refunded s.tables q) s.ledger -
        net (fun q => decide (q = requestId)) s.ledger :=
    net_without (by simp [hbefore]) (by simp [hafter]) hothers s.ledger
  intro row hrow
  rw [hnet]
  unfold takes at hown
  rcases hsubs with ⟨hpre, hsame⟩ | ⟨sub, hsub, hsave⟩
  · rw [hsame] at hrow
    have hold := h row hrow
    split at hown <;> omega
  · rcases find_used hsub hsave hrow with ⟨hk, hrow', hused⟩ | ⟨hk, hsame⟩
    · have hold := h sub hrow'
      omega
    · have hold := h row hsame
      omega

end Steps

theorem covered_same {s : State} {t' : Tables} (h : Covered k s) (ht' : t' = s.tables) :
    Covered k ⟨t', (if baseOf k t' = baseOf k s.tables then s.ledger else []) ++ []⟩ := by
  rw [ht', if_pos rfl, List.append_nil]
  exact h

theorem next_covered (k : ℤ) (s : State) (e : Event) (s' : State) (h : Covered k s)
    (hown : OwnPeriod k s e) (hnext : next k s e = some s') : Covered k s' := by
  obtain ⟨op, faults⟩ := e
  cases hnext
  cases op with
  | preConsume env requestId userId amount =>
    rcases hr : preConsumeUserSubscription env requestId userId amount ⟨s.tables, faults⟩ with
      ⟨err | res, w'⟩
    · rcases preConsume_cases hr k with ⟨hsame, -⟩ | ⟨res, hok, -⟩
      · simp only [apply, hr]
        exact covered_same h hsame
      · cases hok
    · rcases preConsume_cases hr k with ⟨hsame, hknown⟩ | ⟨res', hok, hfresh, hinsert, hmoves⟩
      · have hnot : ¬ ((s.tables.records.find requestId).isNone = true ∧
            res.userSubscriptionId = k) := by
          intro hand
          rw [hknown res rfl] at hand
          exact absurd hand.1 (by decide)
        simp only [apply, hr, if_neg hnot]
        exact covered_same h hsame
      · cases hok
        have hnone : (s.tables.records.find requestId).isNone = true := by
          have hf : s.tables.records.find requestId = none := hfresh
          rw [hf]
          rfl
        simp only [apply, hr, hnone, true_and]
        exact h.preConsume hfresh hinsert hmoves
  | refund requestId =>
    rcases hr : refundSubscriptionPreConsume requestId ⟨s.tables, faults⟩ with ⟨r, w'⟩
    simp only [apply, hr]
    rcases refund_cases hr with hsame | ⟨record, hfind, hconsumed, hrecords, hsubs⟩
    · exact covered_same h hsame
    have hbase : baseOf k w'.tables = baseOf k s.tables := by
      rcases hsubs with ⟨-, hsame⟩ | ⟨sub, hsub, hsave⟩
      · rw [baseOf, baseOf, hsame]
      · exact baseOf_save hsub hsave
    rw [if_pos hbase, List.append_nil]
    have htakes : takes k record ≤ net (fun q => decide (q = requestId)) s.ledger := by
      have hall := hown
      simp only [OwnPeriod] at hall
      rw [hfind] at hall
      simpa [hconsumed] using hall
    exact h.refund hfind hconsumed hrecords hsubs htakes
  | delta requestId id amount =>
    rcases hr : postConsumeUserSubscriptionDelta id amount ⟨s.tables, faults⟩ with ⟨err | _, w'⟩
    · simp only [apply, hr]
      rcases postConsume_cases hr with ⟨hsame, -⟩ | ⟨hok, -⟩
      · exact covered_same h hsame
      · cases hok
    · simp only [apply, hr]
      rcases postConsume_cases hr with ⟨hsame, hzero⟩ | ⟨-, sub, hsub, hsave⟩
      · have ht : w'.tables = s.tables := hsame
        refine h.moves (moves_of_same (by rw [ht])) (refunded_of_records (by rw [ht])) ?_
        split <;> simp [net, hzero rfl]
      · have hbase : baseOf k w'.tables = baseOf k s.tables :=
          baseOf_save hsub (by rw [hsave]; rfl)
        rw [if_pos hbase]
        exact h.delta hsub hsave hown
  | reset env sub =>
    rcases hr : resetDueSubscription env sub ⟨s.tables, faults⟩ with ⟨r, w'⟩
    simp only [apply, hr]
    obtain ⟨hmoves, hrecords⟩ := reset_cases hr k
    exact h.moves hmoves (refunded_of_records hrecords) le_rfl

instance (k : ℤ) (s : State) : (e : Event) → Decidable (OwnPeriod k s e)
  | ⟨.preConsume .., _⟩ => inferInstanceAs (Decidable True)
  | ⟨.refund requestId, _⟩ => inferInstanceAs (Decidable
      ((s.tables.records.find requestId).all (fun record =>
        decide (record.status = .refunded) ||
          decide (takes k record ≤ net (fun q => decide (q = requestId)) s.ledger)) = true))
  | ⟨.delta requestId _ amount, _⟩ =>
    inferInstanceAs (Decidable (amount < 0 → refunded s.tables requestId = false))
  | ⟨.reset .., _⟩ => inferInstanceAs (Decidable True)

/-- In every run whose refunds take no more than their own requests consumed since the last
reset, the used amount covers what was consumed since then. -/
theorem refunds_keep_later_usage (k : ℤ) (t : Tables)
    (h0 : ∀ sub, t.subscriptions.find k = some sub → 0 ≤ sub.amountUsed) (s : State)
    (h : Transition.Reach (next k) (OwnPeriod k) ⟨t, []⟩ s) : Covered k s := by
  have hstart : Covered k ⟨t, []⟩ := fun sub hsub => h0 sub hsub
  exact h.invariant hstart (next_covered k)

def hourly : Tables where
  users := ⟨[], List.nodup_nil⟩
  tokens := ⟨[], List.nodup_nil⟩
  plans := ⟨[customPlan 3600], List.nodup_singleton _⟩
  subscriptions :=
    ⟨[{ rowAt 90000 with amountUsed := 0, endTime := 1000000, nextResetTime := 93600 }],
      List.nodup_singleton _⟩
  records := ⟨[], List.nodup_nil⟩

def envFuel (now : ℤ) : Env := { envAt utc.calendar now with resetFuel := 9 }

def acrossReset : List Event :=
  [⟨.preConsume (envFuel 91000) ['b'] 1 10, []⟩, ⟨.reset (envFuel 94000) (rowAt 90000), []⟩,
    ⟨.preConsume (envFuel 94000) ['a'] 1 7, []⟩]

def usedAndLedger (s : State) : Option ℤ × List (Text × ℤ) :=
  ((s.tables.subscriptions.find 1).map UserSubscription.amountUsed, s.ledger)

theorem hourly_used : ∀ sub, hourly.subscriptions.find 1 = some sub → 0 ≤ sub.amountUsed := by
  intro sub hsub
  have hfind : hourly.subscriptions.find 1 =
      some { rowAt 90000 with amountUsed := 0, endTime := 1000000, nextResetTime := 93600 } := rfl
  cases hsub
  exact le_rfl

theorem refunds_keep_later_usage_same_hour :
    ∃ s, Transition.Reach (next 1) (OwnPeriod 1) ⟨hourly, []⟩ s ∧
      usedAndLedger s = (some 0, [(['a'], 7)]) ∧ Covered 1 s := by
  have hrun : (Transition.execute (next 1) (OwnPeriod 1)
      (acrossReset ++ [⟨.refund ['a'], []⟩]) ⟨hourly, []⟩).map
      (fun s => decide (usedAndLedger s = (some 0, [(['a'], 7)]))) = some true := by
    decide
  obtain ⟨s, hs, hout⟩ := Transition.exists_reach_of_execute hrun
  exact ⟨s, hs, of_decide_eq_true hout, refunds_keep_later_usage 1 hourly hourly_used s hs⟩

/-- The refund of request `b` after the reset takes the 7 of request `a`. -/
theorem refund_erases_later_usage :
    ∃ s, Transition.Reach (next 1) Transition.Any ⟨hourly, []⟩ s ∧
      usedAndLedger s = (some 0, [(['a'], 7)]) ∧ refunded s.tables ['a'] = false ∧
      ¬ Covered 1 s := by
  have hrun : (Transition.execute (next 1) Transition.Any
      (acrossReset ++ [⟨.refund ['b'], []⟩]) ⟨hourly, []⟩).map
      (fun s => decide (usedAndLedger s = (some 0, [(['a'], 7)]) ∧
        refunded s.tables ['a'] = false)) = some true := by
    decide
  obtain ⟨s, hs, hout⟩ := Transition.exists_reach_of_execute hrun
  obtain ⟨hused, hopen⟩ := of_decide_eq_true hout
  refine ⟨s, hs, hused, hopen, fun hcovered => ?_⟩
  obtain ⟨hrow, hledger⟩ := Prod.mk.inj hused
  obtain ⟨sub, hsub, hzero⟩ := Option.map_eq_some_iff.mp hrow
  have hle := hcovered sub hsub
  rw [hledger, hzero] at hle
  simp only [net, hopen] at hle
  exact absurd hle (by decide)

end Period

end NewApi.Model
