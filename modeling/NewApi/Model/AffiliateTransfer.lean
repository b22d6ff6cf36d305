import Mathlib.Algebra.Ring.Int.Defs
import Mathlib.Data.Rat.Floor
import NewApi.Lib.Interleaving
import NewApi.Lib.ReadCommitted
import NewApi.Model.TopUp

/-!
# Moving affiliate quota concurrently (model/user.go, billing_quota.go, topup.go)

`TransferAffQuotaToQuota` reads the row without a lock and saves every column; all other changes are
relative updates.
-/

namespace NewApi.Model.Affiliate

open Transition

structure User where
  quota : ℤ
  affQuota : ℤ
  affHistory : ℤ
  deriving DecidableEq, Repr

structure Deposit where
  userId : ℤ
  inviterId : ℤ
  source : Text
  paymentProvider : PaymentProvider
  baseQuotaToAdd : ℤ
  quotaToAdd : ℤ
  deriving DecidableEq, Repr

inductive Op where
  | transfer (quota : ℤ)
  | reserve (quota : ℤ)
  | debit (quota : ℤ)
  | refund (quota : ℤ)
  | topUp (quota : ℤ)
  | reward (d : Deposit)
  deriving DecidableEq, Repr

structure Setup where
  userId : ℤ
  quotaPerUnit : Rat
  percent : Rat
  op : ℕ → Op

/-- `Div` of package decimal by 100: 16 digits, halves away from zero; for positive numbers. -/
def decimalDiv100 (x : Rat) : Rat :=
  ((x * 100000000000000 + 1 / 2).floor : Rat) / 10000000000000000

/-- The reward of `creditReferralDepositReward`; zero where it returns early. -/
def referralReward (percent : Rat) (d : Deposit) : ℤ :=
  if percent ≤ 0 ∨ 100 < percent then 0
  else if trimSpace d.source ≠ [] ∨ d.paymentProvider = .other "redemption".toList ∨
      d.paymentProvider = .other "affiliate".toList ∨ d.paymentProvider = .balance then 0
  else
    let baseQuota := if d.baseQuotaToAdd ≤ 0 then d.quotaToAdd else d.baseQuotaToAdd
    if baseQuota ≤ 0 then 0 else (decimalDiv100 (baseQuota * percent)).floor

def rewards (c : Setup) (d : Deposit) : Bool :=
  decide (0 < referralReward c.percent d) && decide (d.inviterId ≠ 0) &&
    decide (d.inviterId ≠ d.userId) && decide (d.inviterId = c.userId)

abbrev Delta := ℤ × ℤ

/-- The user's row, and the changes of the operations that have committed. -/
structure Store where
  user : Row ℕ User
  applied : List Delta

/-- `written`: the other rows of the transaction are still to be written; `recorded`: only
the commit is left. -/
inductive Pc where
  | start
  | selected (quota : ℤ) (user : User)
  | written (d : Delta)
  | recorded (d : Delta)
  | done (ok : Bool)
  deriving DecidableEq, Repr

inductive Action where
  | run
  | fail
  deriving DecidableEq, Repr

def User.add (u : User) (d : Delta) : User :=
  { u with quota := u.quota + d.1, affQuota := u.affQuota + d.2 }

namespace Store

def abort (s : Store) (i : ℕ) : Store := { s with user := s.user.abort i }

def commit (s : Store) (i : ℕ) (d : Delta) : Store :=
  { user := s.user.commit i, applied := d :: s.applied }

def write (s : Store) (i : ℕ) (u : User) : Store := { s with user := s.user.write i u }

def update (s : Store) (i : ℕ) (d : Delta) : Store :=
  { user := s.user.autocommit i ((s.user.select i).add d), applied := d :: s.applied }

end Store

def adjustUserQuotaForBilling (i : ℕ) (s : Store) (delta : ℤ) : Option (Store × Pc) :=
  if delta = 0 then some (s, .done true)
  else if s.user.free i then some (s.update i (delta, 0), .done true)
  else none

def firstStatement (c : Setup) (i : ℕ) (s : Store) : Op → Option (Store × Pc)
  | .transfer quota =>
    if (quota : Rat) < c.quotaPerUnit then some (s, .done false)
    else
      let user := s.user.select i
      if user.affQuota < quota then some (s, .done false) else some (s, .selected quota user)
  | .reserve quota =>
    if quota < 0 then some (s, .done false)
    else if quota = 0 then some (s, .done true)
    else if s.user.free i then
      if quota ≤ (s.user.select i).quota then some (s.update i (-quota, 0), .done true)
      else some (s, .done false)
    else none
  | .debit quota =>
    if quota < 0 then some (s, .done false) else adjustUserQuotaForBilling i s (-quota)
  | .refund quota =>
    if quota < 0 then some (s, .done false) else adjustUserQuotaForBilling i s quota
  | .topUp quota =>
    if s.user.free i then
      some (s.write i ((s.user.select i).add (quota, 0)), .written (quota, 0))
    else none
  | .reward d =>
    let reward := referralReward c.percent d
    if rewards c d = false then some (s, .done true)
    else if s.user.free i then
      let user := (s.user.select i).add (0, reward)
      some (s.write i { user with affHistory := user.affHistory + reward }, .written (0, reward))
    else none

def step (c : Setup) (i : ℕ) (s : Store) : Pc → Action → Option (Store × Pc)
  | .start, .run => firstStatement c i s (c.op i)
  | .selected quota user, .run =>
    if s.user.free i then
      some (s.write i (user.add (quota, -quota)), .recorded (quota, -quota))
    else none
  | .written d, .run => some (s, .recorded d)
  | .recorded d, .run => some (s.commit i d, .done true)
  | .done _, _ => none
  | _, .fail => some (s.abort i, .done false)

abbrev State := Processes ℕ Store Pc

/-- The two balances of the user differ from the first ones by the sum of all committed changes. -/
def Conserved (s₀ s : Store) : Prop :=
  s.user.committed.quota = s₀.user.committed.quota + (s.applied.map Prod.fst).sum ∧
    s.user.committed.affQuota = s₀.user.committed.affQuota + (s.applied.map Prod.snd).sum

def StoreInv (s₀ s : Store) : Prop :=
  Conserved s₀ s ∧ (0 ≤ s₀.user.committed.affQuota → 0 ≤ s.user.committed.affQuota)

structure Changed (u w : User) (d : Delta) : Prop where
  quota : w.quota = u.quota + d.1
  affQuota : w.affQuota = u.affQuota + d.2
  nonneg : 0 ≤ u.affQuota → 0 ≤ w.affQuota

def Pending (i : ℕ) (s : Store) (d : Delta) : Prop :=
  ∃ w, s.user.own i = some w ∧ Changed s.user.committed w d

def CallInv (i : ℕ) (s : Store) : Pc → Prop
  | .start | .done _ => s.user.own i = none
  | .selected quota user => s.user.own i = none ∧ quota ≤ user.affQuota
  | .written d | .recorded d => Pending i s d

theorem Changed.add_quota (u : User) (q : ℤ) : Changed u (u.add (q, 0)) (q, 0) := by
  refine ⟨rfl, rfl, fun h => ?_⟩
  show 0 ≤ u.affQuota + 0
  omega

variable {s₀ s : Store} {i : ℕ} {d : Delta} {pc : Pc} {ok : Bool} {c : Setup}

theorem Pending.kept {j : ℕ} {s s' : Store} (h : Pending j s d) (hk : s.user.KeptFor j s'.user) :
    Pending j s' d := by
  obtain ⟨w, hown, hw⟩ := h
  refine ⟨w, hk.own.trans hown, ?_⟩
  rw [hk.committed w hown]
  exact hw

theorem CallInv.kept {j : ℕ} {s s' : Store} (pc : Pc) (h : CallInv j s pc)
    (hk : s.user.KeptFor j s'.user) : CallInv j s' pc := by
  cases pc with
  | start | done ok => exact hk.own.trans h
  | selected quota user => exact ⟨hk.own.trans h.1, h.2⟩
  | written d | recorded d => exact Pending.kept h hk

-- Every commit, of a transaction or of a single statement, goes through this lemma.
theorem StoreInv.apply {s₀ s s' : Store} (h : StoreInv s₀ s)
    (hd : Changed s.user.committed s'.user.committed d) (happ : s'.applied = d :: s.applied) :
    StoreInv s₀ s' := by
  obtain ⟨⟨hq, ha⟩, hnonneg⟩ := h
  have hquota := hd.quota
  have haff := hd.affQuota
  refine ⟨⟨?_, ?_⟩, fun h0 => hd.nonneg (hnonneg h0)⟩
  all_goals
    rw [happ, List.map_cons, List.sum_cons]
    omega

theorem move_keepsAll (h : StoreInv s₀ s) (hpc : CallInv i s pc) :
    KeepsAll (StoreInv s₀) CallInv i s s pc :=
  ⟨h, hpc, fun _ _ _ hq => hq⟩

theorem abort_keepsAll (h : StoreInv s₀ s) :
    KeepsAll (StoreInv s₀) CallInv i s (s.abort i) (.done ok) := by
  refine ⟨?_, Row.own_abort_self, fun _ pc hne hq => hq.kept pc (Row.keptFor_abort hne)⟩
  unfold StoreInv Conserved at h ⊢
  simpa [Store.abort] using h

theorem update_keepsAll {q : ℤ} (h : StoreInv s₀ s) (hown : s.user.own i = none)
    (hf : s.user.free i = true) :
    KeepsAll (StoreInv s₀) CallInv i s (s.update i (q, 0)) (.done ok) := by
  have hsel : s.user.select i = s.user.committed := Row.select_of_none hown
  have hd : Changed s.user.committed (s.update i (q, 0)).user.committed (q, 0) := by
    simp only [Store.update, Row.autocommit_committed, hsel]
    exact Changed.add_quota _ q
  exact ⟨h.apply hd rfl, Row.own_autocommit_self,
    fun _ pc hne hq => hq.kept pc (Row.keptFor_autocommit hf hne)⟩

theorem write_keepsAll {w : User} (h : StoreInv s₀ s) (hw : Changed s.user.committed w d)
    (hf : s.user.free i = true) (hpc : Pending i (s.write i w) d → CallInv i (s.write i w) pc) :
    KeepsAll (StoreInv s₀) CallInv i s (s.write i w) pc :=
  ⟨h, hpc ⟨w, Row.own_write_self, hw⟩,
    fun _ pc hne hq => hq.kept pc (Row.keptFor_write hf hne)⟩

theorem commit_keepsAll (h : StoreInv s₀ s) (hpc : Pending i s d) :
    KeepsAll (StoreInv s₀) CallInv i s (s.commit i d) (.done ok) := by
  obtain ⟨w, hown, hw⟩ := hpc
  have hd : Changed s.user.committed (s.commit i d).user.committed d := by
    simp only [Store.commit, Row.commit_committed, hown]
    exact hw
  exact ⟨h.apply hd rfl, Row.own_commit_self,
    fun _ pc hne hq => hq.kept pc (Row.keptFor_commit hne)⟩

theorem adjust_keepsAll {s₀ s s' : Store} {q : ℤ} (h : StoreInv s₀ s) (hown : s.user.own i = none)
    (hr : adjustUserQuotaForBilling i s q = some (s', pc)) :
    KeepsAll (StoreInv s₀) CallInv i s s' pc := by
  unfold adjustUserQuotaForBilling at hr
  split at hr
  · cases hr
    exact move_keepsAll h hown
  · split at hr
    · next hf =>
      cases hr
      exact update_keepsAll h hown hf
    · cases hr

theorem rewards_pos {d : Deposit} (h : rewards c d ≠ false) : 0 < referralReward c.percent d := by
  have h := Bool.eq_true_of_not_eq_false h
  simp only [rewards, Bool.and_eq_true, decide_eq_true_eq] at h
  exact h.1.1.1

theorem firstStatement_keepsAll {s₀ s s' : Store} (op : Op) (h : StoreInv s₀ s)
    (hown : s.user.own i = none) (hr : firstStatement c i s op = some (s', pc)) :
    KeepsAll (StoreInv s₀) CallInv i s s' pc := by
  have hsel : s.user.select i = s.user.committed := Row.select_of_none hown
  cases op with
  | transfer quota =>
    simp only [firstStatement] at hr
    split at hr
    · cases hr
      exact move_keepsAll h hown
    · split at hr
      · cases hr
        exact move_keepsAll h hown
      · next haff =>
        cases hr
        have hle : quota ≤ (s.user.select i).affQuota := by omega
        exact move_keepsAll h ⟨hown, hle⟩
  | reserve quota =>
    simp only [firstStatement] at hr
    split at hr
    · cases hr
      exact move_keepsAll h hown
    · split at hr
      · cases hr
        exact move_keepsAll h hown
      · split at hr
        · next hf =>
          split at hr
          · cases hr
            exact update_keepsAll h hown hf
          · cases hr
            exact move_keepsAll h hown
        · cases hr
  | debit quota | refund quota =>
    simp only [firstStatement] at hr
    split at hr
    · cases hr
      exact move_keepsAll h hown
    · exact adjust_keepsAll h hown hr
  | topUp quota =>
    simp only [firstStatement, hsel] at hr
    split at hr
    · next hf =>
      cases hr
      exact write_keepsAll h (Changed.add_quota _ quota) hf id
    · cases hr
  | reward d =>
    simp only [firstStatement, hsel] at hr
    split at hr
    · cases hr
      exact move_keepsAll h hown
    · next hrew =>
      split at hr
      · next hf =>
        cases hr
        have hpos := rewards_pos hrew
        refine write_keepsAll h ⟨rfl, rfl, fun h0 => ?_⟩ hf id
        show 0 ≤ s.user.committed.affQuota + referralReward c.percent d
        omega
      · cases hr

/-- Every `Save` of a transfer runs while the row still has the two balances it read. -/
def SaveFresh (_ : ℕ) (s : Store) : Pc → Action → Prop
  | .selected _ user, .run =>
    user.quota = s.user.committed.quota ∧ user.affQuota = s.user.committed.affQuota
  | _, _ => True

theorem save_changed {u v : User} {quota : ℤ} (hle : quota ≤ v.affQuota)
    (hq : v.quota = u.quota) (ha : v.affQuota = u.affQuota) :
    Changed u (v.add (quota, -quota)) (quota, -quota) := by
  refine ⟨?_, ?_, fun _ => ?_⟩
  · show v.quota + quota = u.quota + quota
    omega
  · show v.affQuota + -quota = u.affQuota + -quota
    omega
  · show 0 ≤ v.affQuota + -quota
    omega

theorem step_keepsAll {a : Action} {u : Store} {pc₀ : Pc} (h : StoreInv s₀ s)
    (hpc : CallInv i s pc₀) (hok : SaveFresh i s pc₀ a)
    (hstep : step c i s pc₀ a = some (u, pc)) : KeepsAll (StoreInv s₀) CallInv i s u pc := by
  cases a with
  | fail =>
    cases pc₀ <;> simp only [step, Option.some.injEq, Prod.mk.injEq, reduceCtorEq] at hstep
    all_goals
      obtain ⟨rfl, rfl⟩ := hstep
      exact abort_keepsAll h
  | run =>
    cases pc₀ with
    | start => exact firstStatement_keepsAll (c.op i) h hpc hstep
    | selected quota user =>
      obtain ⟨hf, hstep⟩ := Option.ite_none_right_eq_some.mp hstep
      cases hstep
      -- the only write that does not start from the row as it is now
      exact write_keepsAll h (save_changed hpc.2 hok.1 hok.2) hf id
    | written d =>
      cases hstep
      exact move_keepsAll h hpc
    | recorded d =>
      cases hstep
      exact commit_keepsAll h hpc
    | done ok => cases hstep

structure Initial (s : State) : Prop where
  row : ∀ i, s.store.user.own i = none
  calls : ∀ i, s.point i = .start
  applied : s.store.applied = []

/-- Both balances are the first ones plus all committed changes, and `aff_quota` never
becomes negative, as long as no transfer saves a row that changed after it was read. -/
theorem transfer_conserves_quota {c : Setup} {s t : State} (h0 : Initial s)
    (h : Reach (interleave (step c)) (Locally SaveFresh) s t) :
    Conserved s.store t.store ∧
      (0 ≤ s.store.user.committed.affQuota → 0 ≤ t.store.user.committed.affQuota) := by
  have hinit : Interleaved (StoreInv s.store) CallInv s := by
    refine ⟨⟨⟨?_, ?_⟩, fun hn => hn⟩, fun i => ?_⟩
    · rw [h0.applied, List.map_nil, List.sum_nil, Int.add_zero]
    · rw [h0.applied, List.map_nil, List.sum_nil, Int.add_zero]
    · rw [h0.calls]
      exact h0.row i
  exact (h.interleaved hinit step_keepsAll).store

instance (i : ℕ) (s : Store) : (pc : Pc) → (a : Action) → Decidable (SaveFresh i s pc a)
  | .selected _ _, .run => inferInstanceAs (Decidable (_ ∧ _))
  | .selected _ _, .fail => inferInstanceAs (Decidable True)
  | .start, _ | .written _, _ | .recorded _, _ | .done _, _ => inferInstanceAs (Decidable True)

def transferAndDebit : Setup where
  userId := 1
  quotaPerUnit := 5
  percent := 0
  op
    | 0 => .transfer 10
    | 1 => .debit 30
    | _ => .refund 0

def fundedUser : State := ⟨⟨.stored ⟨100, 40, 40⟩, []⟩, fun _ => .start⟩

theorem fundedUser_initial : Initial fundedUser := ⟨fun _ => rfl, fun _ => rfl, rfl⟩

def outcome (s : State) : ℤ × ℤ × List Delta :=
  (s.store.user.committed.quota, s.store.user.committed.affQuota, s.store.applied)

theorem transfer_conserves_quota_in_turn :
    ∃ t, Reach (interleave (step transferAndDebit)) (Locally SaveFresh) fundedUser t ∧
      outcome t = (80, 30, [(-30, 0), (10, -10)]) ∧ Conserved fundedUser.store t.store ∧
      0 ≤ t.store.user.committed.affQuota := by
  have hrun : (execute (interleave (step transferAndDebit)) (Locally SaveFresh)
      [(0, .run), (0, .run), (0, .run), (1, .run)] fundedUser).map
        (fun t => decide (outcome t = (80, 30, [(-30, 0), (10, -10)]))) = some true := by
    decide +kernel
  obtain ⟨t, ht, hout⟩ := exists_reach_of_execute hrun
  have hmain := transfer_conserves_quota fundedUser_initial ht
  exact ⟨t, ht, of_decide_eq_true hout, hmain.1, hmain.2 (by decide)⟩

/-- The charge commits between the transfer's read and its `Save`, and is lost. -/
theorem transfer_loses_debit :
    Initial fundedUser ∧ ∃ t, Reach (interleave (step transferAndDebit)) Any fundedUser t ∧
      outcome t = (110, 30, [(10, -10), (-30, 0)]) ∧ ¬ Conserved fundedUser.store t.store := by
  have hrun : (execute (interleave (step transferAndDebit)) Any
      [(0, .run), (1, .run), (0, .run), (0, .run)] fundedUser).map
        (fun t => decide (outcome t = (110, 30, [(10, -10), (-30, 0)]))) = some true := by
    decide +kernel
  obtain ⟨t, ht, hout⟩ := exists_reach_of_execute hrun
  have hout := of_decide_eq_true hout
  have hquota : t.store.user.committed.quota = 110 := congrArg Prod.fst hout
  have happ : t.store.applied = [(10, -10), (-30, 0)] := congrArg (fun o => o.2.2) hout
  refine ⟨fundedUser_initial, t, ht, hout, ?_⟩
  rintro ⟨hq, _⟩
  rw [hquota, happ] at hq
  exact absurd hq (by decide)

end NewApi.Model.Affiliate
