import Mathlib.Data.Int.Notation
import Mathlib.Data.Nat.Notation
import Mathlib.Logic.Function.Basic
import NewApi.Lib.ReadCommitted
import NewApi.Lib.Interleaving

/-!
# Redeeming one code concurrently (model/redemption.go)

The first `SELECT` asks for a row lock through an option that adds none, so it is a plain read.
-/

namespace NewApi.Model

open Transition

inductive RedemptionStatus where
  | enabled
  | disabled
  | used
  deriving DecidableEq, Repr

structure Redemption where
  quota : ℤ
  status : RedemptionStatus
  expiredTime : ℤ
  redeemedTime : ℤ
  usedUserId : ℤ
  deriving DecidableEq, Repr

namespace Redeem

inductive Pc where
  | start
  | selected (r : Redemption)
  | credited (r : Redemption)
  | saved (r : Redemption)
  | recorded (r : Redemption)
  | promoted (r : Redemption)
  | done (result : Option ℤ)
  deriving DecidableEq, Repr

structure Setup where
  user : ℕ → ℤ
  known : ℤ → Bool

structure Store where
  code : Row ℕ Redemption
  users : ℤ → Row ℕ ℤ
  paid : List ℕ

inductive Action where
  | run (now : ℤ)
  | fail
  deriving DecidableEq, Repr

def usedBy (r : Redemption) (user now : ℤ) : Redemption :=
  { r with redeemedTime := now, status := .used, usedUserId := user }

def Store.commit (s : Store) (i : ℕ) : Store :=
  { code := s.code.commit i
    users := fun u => (s.users u).commit i
    paid := i :: s.paid }

def Store.abort (s : Store) (i : ℕ) : Store :=
  { s with code := s.code.abort i, users := fun u => (s.users u).abort i }

def Store.addQuota (s : Store) (i : ℕ) (u q : ℤ) : Store :=
  { s with users := Function.update s.users u ((s.users u).write i ((s.users u).select i + q)) }

def redeem (c : Setup) (i : ℕ) (s : Store) : Pc → Action → Option (Store × Pc)
  | .start, .run now =>
    let r := s.code.select i
    if r.status ≠ .enabled then some (s, .done none)
    else if r.expiredTime ≠ 0 ∧ r.expiredTime < now then some (s, .done none)
    else some (s, .selected r)
  | .selected r, .run _ =>
    if c.known (c.user i) = false then some (s.abort i, .done none)
    else if (s.users (c.user i)).free i then
      some (s.addQuota i (c.user i) r.quota, .credited r)
    else none
  | .credited r, .run now =>
    let r' := usedBy r (c.user i) now
    if s.code.free i then some ({ s with code := s.code.write i r' }, .saved r') else none
  | .saved r, .run _ => some (s, .recorded r)
  | .recorded r, .run _ => some (s, .promoted r)
  | .promoted r, .run _ => some (s.commit i, .done (some r.quota))
  | .done _, _ => none
  | _, .fail => some (s.abort i, .done none)

abbrev State := Processes ℕ Store Pc

def Credited (c : Setup) (q : ℤ) (i : ℕ) (s : Store) : Prop :=
  ∀ u, (s.users u).own i = if u = c.user i then some ((s.users u).committed + q) else none

structure Marked (c : Setup) (q : ℤ) (i : ℕ) (s : Store) (r : Redemption) : Prop where
  own : s.code.own i = some r
  enabled : s.code.committed.status = .enabled
  quota : r.quota = q
  used : r.status = .used
  user : r.usedUserId = c.user i

def Idle (i : ℕ) (s : Store) : Prop := s.code.own i = none ∧ ∀ u, (s.users u).own i = none

def CallInv (c : Setup) (q : ℤ) (i : ℕ) (s : Store) : Pc → Prop
  | .start => Idle i s
  | .selected r => r.quota = q ∧ Idle i s
  | .credited r => r.quota = q ∧ s.code.own i = none ∧ Credited c q i s
  | .saved r | .recorded r | .promoted r => Credited c q i s ∧ Marked c q i s r
  | .done _ => Idle i s

/-- Either nobody has been paid, or one redeemer has: the code is used by that user, who alone is
credited, with the code's quota. -/
def PaidOnce (c : Setup) (s₀ s : Store) : Prop :=
  (s.paid = [] ∧ ∀ u, (s.users u).committed = (s₀.users u).committed) ∨
    ∃ i, s.paid = [i] ∧ s.code.committed.status = .used ∧
      s.code.committed.usedUserId = c.user i ∧
      ∀ u, (s.users u).committed =
        (s₀.users u).committed + if u = c.user i then s₀.code.committed.quota else 0

def StoreInv (c : Setup) (s₀ s : Store) : Prop :=
  s.code.committed.quota = s₀.code.committed.quota ∧ PaidOnce c s₀ s

structure KeptFor (j : ℕ) (s s' : Store) : Prop where
  code : s.code.KeptFor j s'.code
  users : ∀ u, (s.users u).KeptFor j (s'.users u)

variable {c : Setup} {s₀ s : Store} {r : Redemption} {i : ℕ} {j : ℕ} {q : ℤ}

theorem Credited.kept {s s' : Store} (h : Credited c q j s) (hk : KeptFor j s s') :
    Credited c q j s' := by
  intro u
  have hu := h u
  rw [(hk.users u).own, hu]
  by_cases hj : u = c.user j
  · rw [if_pos hj] at hu
    rw [(hk.users u).committed _ hu]
  · rw [if_neg hj, if_neg hj]

theorem Marked.kept {s s' : Store} (h : Marked c q j s r) (hk : KeptFor j s s') :
    Marked c q j s' r :=
  { h with
    own := hk.code.own.trans h.own
    enabled := by rw [hk.code.committed _ h.own]; exact h.enabled }

theorem Idle.kept {s s' : Store} (h : Idle j s) (hk : KeptFor j s s') : Idle j s' :=
  ⟨hk.code.own.trans h.1, fun u => (hk.users u).own.trans (h.2 u)⟩

theorem CallInv.kept {s s' : Store} (pc : Pc) (h : CallInv c q j s pc) (hk : KeptFor j s s') :
    CallInv c q j s' pc := by
  cases pc with
  | start | done _ => exact Idle.kept h hk
  | selected r => exact ⟨h.1, h.2.kept hk⟩
  | credited r => exact ⟨h.1, hk.code.own.trans h.2.1, h.2.2.kept hk⟩
  | saved r | recorded r | promoted r => exact ⟨h.1.kept hk, h.2.kept hk⟩

theorem keptFor_abort {i j : ℕ} {s : Store} (hne : j ≠ i) : KeptFor j s (s.abort i) :=
  ⟨Row.keptFor_abort hne, fun _ => Row.keptFor_abort hne⟩

theorem keptFor_commit {i j : ℕ} {s : Store} (hne : j ≠ i) : KeptFor j s (s.commit i) :=
  ⟨Row.keptFor_commit hne, fun _ => Row.keptFor_commit hne⟩

theorem keptFor_addQuota {i j : ℕ} {s : Store} {u q : ℤ} (hf : (s.users u).free i = true)
    (hne : j ≠ i) : KeptFor j s (s.addQuota i u q) := by
  refine ⟨.rfl, fun w => ?_⟩
  by_cases hw : w = u
  · subst hw
    simp only [Store.addQuota, Function.update_self]
    exact Row.keptFor_write hf hne
  · simp only [Store.addQuota, Function.update_of_ne hw]
    exact .rfl

theorem abort_idle {s : Store} : Idle i (s.abort i) :=
  ⟨Row.own_abort_self, fun _ => Row.own_abort_self⟩

theorem StoreInv.of_committed {s₀ s s' : Store} (h : StoreInv c s₀ s)
    (hcode : s'.code.committed = s.code.committed)
    (husers : ∀ u, (s'.users u).committed = (s.users u).committed) (hpaid : s'.paid = s.paid) :
    StoreInv c s₀ s' := by
  unfold StoreInv PaidOnce at h ⊢
  simpa [hcode, husers, hpaid] using h

theorem commit_inv (h : StoreInv c s₀ s) (hc : Credited c s₀.code.committed.quota i s)
    (hm : Marked c s₀.code.committed.quota i s r) : StoreInv c s₀ (s.commit i) := by
  have hcode : (s.commit i).code.committed = r := by
    simp [Store.commit, Row.commit_committed, hm.own]
  refine ⟨by rw [hcode]; exact hm.quota, .inr ⟨i, ?_⟩⟩
  rw [hcode]
  -- the code was enabled until now, so nobody can have been paid
  obtain ⟨hpaid, husers⟩ | ⟨_, _, hused, _⟩ := h.2
  · refine ⟨congrArg _ hpaid, hm.used, hm.user, fun u => ?_⟩
    simp only [Store.commit, Row.commit_committed, hc u]
    split
    · rw [Option.getD_some, husers]
    · rw [Option.getD_none, husers, Int.add_zero]
  · rw [hm.enabled] at hused
    cases hused

/-- Every `Save` runs while the committed code is still enabled. -/
def SaveFresh (_ : ℕ) (s : Store) : Pc → Action → Prop
  | .credited _, .run _ => s.code.committed.status = .enabled
  | _, _ => True

section

variable (h : StoreInv c s₀ s)
include h

theorem abort_keepsAll {res : Option ℤ} :
    KeepsAll (StoreInv c s₀) (CallInv c s₀.code.committed.quota) i s
      (s.abort i) (.done res) :=
  ⟨h.of_committed Row.abort_committed (fun _ => Row.abort_committed) rfl, abort_idle,
    fun _ pc hne hq => hq.kept pc (keptFor_abort hne)⟩

theorem move_keepsAll {pc : Pc} (hpc : CallInv c s₀.code.committed.quota i s pc) :
    KeepsAll (StoreInv c s₀) (CallInv c s₀.code.committed.quota) i s s pc :=
  ⟨h, hpc, fun _ _ _ hq => hq⟩

theorem credit_keepsAll (hr : r.quota = s₀.code.committed.quota) (hidle : Idle i s)
    (hf : (s.users (c.user i)).free i = true) :
    KeepsAll (StoreInv c s₀) (CallInv c s₀.code.committed.quota) i s
      (s.addQuota i (c.user i) r.quota) (.credited r) := by
  have hcommitted : ∀ u, ((s.addQuota i (c.user i) r.quota).users u).committed =
      (s.users u).committed := by
    intro u
    by_cases hu : u = c.user i
    · subst hu
      simp [Store.addQuota]
    · simp [Store.addQuota, Function.update_of_ne hu]
  refine ⟨h.of_committed rfl hcommitted rfl, ⟨hr, hidle.1, fun u => ?_⟩,
    fun _ pc hne hq => hq.kept pc (keptFor_addQuota hf hne)⟩
  by_cases hu : u = c.user i
  · subst hu
    simp [Store.addQuota, Row.select, hidle.2, hr]
  · simp [Store.addQuota, Function.update_of_ne hu, if_neg hu, hidle.2]

theorem save_keepsAll {now : ℤ} (hpc : CallInv c s₀.code.committed.quota i s (.credited r))
    (hen : s.code.committed.status = .enabled) (hf : s.code.free i = true) :
    KeepsAll (StoreInv c s₀) (CallInv c s₀.code.committed.quota) i s
      { s with code := s.code.write i (usedBy r (c.user i) now) }
      (.saved (usedBy r (c.user i) now)) := by
  obtain ⟨hr, _, hcred⟩ := hpc
  refine ⟨h.of_committed rfl (fun _ => rfl) rfl, ⟨hcred, ?_⟩,
    fun _ pc hne hq => hq.kept pc ⟨Row.keptFor_write hf hne, fun _ => .rfl⟩⟩
  exact ⟨Row.own_write_self, hen, hr, rfl, rfl⟩

theorem commit_keepsAll {res : Option ℤ}
    (hpc : CallInv c s₀.code.committed.quota i s (.promoted r)) :
    KeepsAll (StoreInv c s₀) (CallInv c s₀.code.committed.quota) i s (s.commit i)
      (.done res) :=
  ⟨commit_inv h hpc.1 hpc.2, ⟨Row.own_commit_self, fun _ => Row.own_commit_self⟩,
    fun _ pc hne hq => hq.kept pc (keptFor_commit hne)⟩

end

theorem redeem_keepsAll {a : Action} {u : Store} {pc pc₀ : Pc} (h : StoreInv c s₀ s)
    (hpc : CallInv c s₀.code.committed.quota i s pc₀) (hok : SaveFresh i s pc₀ a)
    (hstep : redeem c i s pc₀ a = some (u, pc)) :
    KeepsAll (StoreInv c s₀) (CallInv c s₀.code.committed.quota) i s u pc := by
  cases a with
  | fail =>
    cases pc₀ <;> simp only [redeem, Option.some.injEq, Prod.mk.injEq, reduceCtorEq] at hstep
    all_goals
      obtain ⟨rfl, rfl⟩ := hstep
      exact abort_keepsAll h
  | run now =>
    cases pc₀ with
    | start =>
      have hsel : s.code.select i = s.code.committed := by
        simp [Row.select, hpc.1]
      simp only [redeem, hsel] at hstep
      split at hstep
      · cases hstep
        exact move_keepsAll h hpc
      · split at hstep <;> cases hstep
        · exact move_keepsAll h hpc
        · exact move_keepsAll h ⟨h.1, hpc⟩
    | selected r =>
      simp only [redeem] at hstep
      split at hstep
      · cases hstep
        exact abort_keepsAll h
      · split at hstep
        · next hf =>
          cases hstep
          exact credit_keepsAll h hpc.1 hpc.2 hf
        · cases hstep
    | credited r =>
      obtain ⟨hf, hstep⟩ := Option.ite_none_right_eq_some.mp hstep
      cases hstep
      exact save_keepsAll h hpc hok hf
    | saved r | recorded r =>
      cases hstep
      exact move_keepsAll h hpc
    | promoted r =>
      cases hstep
      exact commit_keepsAll h hpc
    | done _ => cases hstep

structure Initial (s : State) : Prop where
  rows : ∀ i, Idle i s.store
  calls : ∀ i, s.point i = .start
  paid : s.store.paid = []

/-- Of all concurrent calls at most one is paid, exactly the code's quota and the user
that the code names, as long as no `Save` follows another call's commit. -/
theorem redeem_pays_once {c : Setup} {s t : State} (h0 : Initial s)
    (h : Reach (interleave (redeem c)) (Locally SaveFresh) s t) : PaidOnce c s.store t.store := by
  have hinit : Interleaved (StoreInv c s.store) (CallInv c s.store.code.committed.quota) s := by
    refine ⟨⟨rfl, .inl ⟨h0.paid, fun _ => rfl⟩⟩, fun i => ?_⟩
    rw [h0.calls]
    exact h0.rows i
  exact (h.interleaved hinit redeem_keepsAll).store.2

instance (i : ℕ) (s : Store) (pc : Pc) (a : Action) : Decidable (SaveFresh i s pc a) := by
  unfold SaveFresh
  split <;> infer_instance

def twoUsers : Setup := ⟨fun i => i + 1, fun u => decide (0 < u)⟩

def oneCode : State :=
  ⟨⟨.stored ⟨100, .enabled, 0, 0, 0⟩, fun _ => .stored 0, []⟩, fun _ => .start⟩

theorem oneCode_initial : Initial oneCode :=
  ⟨fun _ => ⟨rfl, fun _ => rfl⟩, fun _ => rfl, rfl⟩

def outcome (s : State) : List ℕ × ℤ × ℤ × ℤ :=
  (s.store.paid, (s.store.users 1).committed, (s.store.users 2).committed,
    s.store.code.committed.usedUserId)

theorem redeem_pays_once_in_turn :
    ∃ t, Reach (interleave (redeem twoUsers)) (Locally SaveFresh) oneCode t ∧
      outcome t = ([0], 100, 0, 1) ∧ PaidOnce twoUsers oneCode.store t.store := by
  have hrun : (execute (interleave (redeem twoUsers)) (Locally SaveFresh)
      (List.replicate 6 (0, .run 5) ++ [(1, .run 6)]) oneCode).map
        (fun t => decide (outcome t = ([0], 100, 0, 1))) = some true := by decide
  obtain ⟨t, ht, hout⟩ := exists_reach_of_execute hrun
  exact ⟨t, ht, of_decide_eq_true hout, redeem_pays_once oneCode_initial ht⟩

/-- Both calls read the code before either saves it, and both are paid. -/
theorem redeem_pays_twice :
    Initial oneCode ∧ ∃ t, Reach (interleave (redeem twoUsers)) Any oneCode t ∧
      outcome t = ([1, 0], 100, 100, 2) ∧ ¬ PaidOnce twoUsers oneCode.store t.store := by
  have hrun : (execute (interleave (redeem twoUsers)) Any
      ((1, .run 5) :: (List.replicate 6 (0, .run 5) ++ List.replicate 5 (1, .run 6)))
        oneCode).map (fun t => decide (outcome t = ([1, 0], 100, 100, 2))) = some true := by
    decide
  obtain ⟨t, ht, hout⟩ := exists_reach_of_execute hrun
  have hout := of_decide_eq_true hout
  have hpaid : t.store.paid = [1, 0] := congrArg Prod.fst hout
  refine ⟨oneCode_initial, t, ht, hout, ?_⟩
  rintro (⟨h, _⟩ | ⟨i, h, _⟩) <;> rw [hpaid] at h <;> cases h

end Redeem

end NewApi.Model
