import NewApi.Model.SubscriptionCharge
import NewApi.Model.SubscriptionStatements

/-!
# Usage adds up under concurrency

The used amount that a transaction sees of a row is the committed one plus what the transaction has
charged so far.
-/

namespace NewApi.Model.Usage

open Transition

def amountAt (charge : Option (ℤ × ℤ)) (k : ℤ) : ℤ :=
  match charge with
  | some (j, d) => if j = k then d else 0
  | none => 0

def netAmount (log : List (ℤ × ℤ)) (k : ℤ) : ℤ :=
  (log.map fun e => amountAt (some e) k).sum

structure Sound (s₀ : Store) (k : ℤ) (v : UserSubscription) : Prop where
  id : v.id = k
  total : v.amountTotal = (s₀.subs k).committed.amountTotal
  bound : 0 < v.amountTotal → v.amountUsed ≤ v.amountTotal

structure StoreInv (s₀ s : Store) : Prop where
  sound : ∀ k, Sound s₀ k (s.subs k).committed
  used : ∀ k, (s.subs k).committed.amountUsed =
    (s₀.subs k).committed.amountUsed + netAmount s.log k

structure Holding (s₀ : Store) (i : ℕ) (s : Store) (charge : Option (ℤ × ℤ)) : Prop where
  sound : ∀ k v, (s.subs k).own i = some v → Sound s₀ k v
  used : ∀ k, ((s.subs k).select i).amountUsed =
    (s.subs k).committed.amountUsed + amountAt charge k

def Pc.charge : Pc → Option (ℤ × ℤ)
  | .saveRecord _ charge => charge
  | .others charge => charge
  | .commit charge => charge
  | _ => none

def Copy (s₀ : Store) (v : UserSubscription) : Prop :=
  v.amountTotal = (s₀.subs v.id).committed.amountTotal

def Memory (s₀ : Store) (i : ℕ) (s : Store) : Pc → Prop
  | .readPlan _ candidates => ∀ v ∈ candidates, Copy s₀ v
  | .saveReset _ sub rest => Copy s₀ sub ∧ ∀ v ∈ rest, Copy s₀ v
  | .insertRecord req sub => Copy s₀ sub ∧ ¬ lacksRoom sub req.amount
  | .saveCharge req sub => Copy s₀ sub ∧ ¬ lacksRoom sub req.amount
  | .saveDelta sub delta _ => Copy s₀ sub ∧ ¬ exceeds sub (max 0 (sub.amountUsed + delta))
  | .updateLocked sub quota =>
    (s.subs sub.id).own i = some sub ∧ ¬ exceeds sub (sub.amountUsed + quota)
  | _ => True

def CallInv (s₀ : Store) (i : ℕ) (s : Store) (pc : Pc) : Prop :=
  Holding s₀ i s pc.charge ∧ Memory s₀ i s pc

variable {i : ℕ} {s : Store} {s₀ s' : Store} {j : ℕ} {charge : Option (ℤ × ℤ)} {pc : Pc}
  {k : ℤ} {v : UserSubscription}

theorem Holding.kept (h : Holding s₀ j s charge)
    (hk : ∀ k, (s.subs k).KeptFor j (s'.subs k)) : Holding s₀ j s' charge where
  sound := by
    intro k v hv
    rw [(hk k).own] at hv
    exact h.sound k v hv
  used := by
    intro k
    have hu := h.used k
    obtain ⟨hsel, hcom⟩ | ⟨hsel, hsel'⟩ := (hk k).select
    · rw [hsel, hcom]
      exact hu
    · rw [hsel] at hu
      rw [hsel']
      omega

theorem Memory.kept (h : Memory s₀ j s pc) (hk : ∀ k, (s.subs k).KeptFor j (s'.subs k)) :
    Memory s₀ j s' pc := by
  cases pc with
  | updateLocked sub quota => exact ⟨(hk sub.id).own.trans h.1, h.2⟩
  | _ => exact h

theorem CallInv.kept (h : CallInv s₀ j s pc) (hk : ∀ k, (s.subs k).KeptFor j (s'.subs k)) :
    CallInv s₀ j s' pc :=
  ⟨h.1.kept hk, h.2.kept hk⟩

theorem Holding.select_sound (h : Holding s₀ i s charge) (hs : StoreInv s₀ s) (k : ℤ) :
    Sound s₀ k ((s.subs k).select i) := by
  rcases ho : (s.subs k).own i with _ | v
  · rw [Row.select_of_none ho]
    exact hs.sound k
  · rw [Row.select_of_own ho]
    exact h.sound k v ho

theorem Sound.copy (h : Sound s₀ k v) : Copy s₀ v := by
  unfold Copy
  rw [h.id]
  exact h.total

theorem move_keepsAll (h : StoreInv s₀ s) (hpc : CallInv s₀ i s pc) :
    KeepsAll (StoreInv s₀) (CallInv s₀) i s s pc :=
  ⟨h, hpc, fun _ _ _ hq => hq⟩

theorem saveRecord_keepsAll {r : SubscriptionPreConsumeRecord} (h : StoreInv s₀ s)
    (hh : Holding s₀ i s pc.charge) (hmem : Memory s₀ i (s.saveRecord i r) pc) :
    KeepsAll (StoreInv s₀) (CallInv s₀) i s (s.saveRecord i r) pc :=
  ⟨⟨h.sound, h.used⟩, ⟨hh.kept fun _ => .rfl, hmem⟩, fun _ _ _ hq => hq.kept fun _ => .rfl⟩

theorem abort_keepsAll (h : StoreInv s₀ s) :
    KeepsAll (StoreInv s₀) (CallInv s₀) i s (s.abort i) .done := by
  have hcom : ∀ k, ((s.abort i).subs k).committed = (s.subs k).committed :=
    fun _ => Row.abort_committed
  have hown : ∀ k, ((s.abort i).subs k).own i = none := fun _ => Row.own_abort_self
  refine ⟨⟨fun k => ?_, fun k => ?_⟩, ⟨⟨fun k v hv => ?_, fun k => ?_⟩, trivial⟩,
    fun j pc hne hq => hq.kept fun k => Row.keptFor_abort hne⟩
  · rw [hcom]
    exact h.sound k
  · rw [hcom]
    exact h.used k
  · rw [hown] at hv
    cases hv
  · rw [Row.select_of_none (hown k)]
    exact (Int.add_zero _).symm

variable {r : Store × Pc}

theorem rollback_keepsAll (h : StoreInv s₀ s) (hr : rollback i s = some r) :
    KeepsAll (StoreInv s₀) (CallInv s₀) i s r.1 r.2 := by
  cases hr
  exact abort_keepsAll h

theorem keptFor_writeSub (hf : (s.subs k).free i = true) (hne : j ≠ i) (k' : ℤ) :
    (s.subs k').KeptFor j ((s.writeSub i k v).subs k') := by
  by_cases hk : k' = k
  · subst hk
    simp only [Store.writeSub, Function.update_self]
    exact Row.keptFor_write hf hne
  · simp only [Store.writeSub, Function.update_of_ne hk]
    exact .rfl

theorem write_keepsAll {d : ℤ} (h : StoreInv s₀ s) (hh : Holding s₀ i s none)
    (hf : (s.subs k).free i = true) (hv : Sound s₀ k v)
    (hd : v.amountUsed = ((s.subs k).select i).amountUsed + d)
    (hcharge : ∀ k', amountAt pc.charge k' = amountAt (some (k, d)) k')
    (hmem : Memory s₀ i (s.writeSub i k v) pc) :
    KeepsAll (StoreInv s₀) (CallInv s₀) i s (s.writeSub i k v) pc := by
  have hcom : ∀ k', ((s.writeSub i k v).subs k').committed = (s.subs k').committed := by
    intro k'
    by_cases hk : k' = k
    · subst hk
      simp [Store.writeSub]
    · simp [Store.writeSub, Function.update_of_ne hk]
  refine ⟨⟨fun k' => ?_, fun k' => ?_⟩, ⟨⟨fun k' w hw => ?_, fun k' => ?_⟩, hmem⟩,
    fun j pc hne hq => hq.kept (keptFor_writeSub hf hne)⟩
  · rw [hcom]
    exact h.sound k'
  · rw [hcom]
    exact h.used k'
  · by_cases hk : k' = k
    · subst hk
      simp only [Store.writeSub, Function.update_self, Row.own_write_self] at hw
      cases hw
      exact hv
    · simp only [Store.writeSub, Function.update_of_ne hk] at hw
      exact hh.sound k' w hw
  · have hu := hh.used k'
    rw [hcom, hcharge]
    by_cases hk : k' = k
    · subst hk
      simp only [Store.writeSub, Function.update_self, Row.select_write_self, amountAt, if_true]
        at hu ⊢
      omega
    · simp only [Store.writeSub, Function.update_of_ne hk, amountAt, if_neg (Ne.symm hk)] at hu ⊢
      exact hu

theorem netAmount_charge (charge : Option (ℤ × ℤ)) (log : List (ℤ × ℤ)) (k : ℤ) :
    netAmount (charge.toList ++ log) k = amountAt charge k + netAmount log k := by
  cases charge with
  | none => simp [amountAt]
  | some e =>
    simp [netAmount]

theorem commit_keepsAll (h : StoreInv s₀ s) (hh : Holding s₀ i s charge) :
    KeepsAll (StoreInv s₀) (CallInv s₀) i s (s.commit i charge) .done := by
  have hcom : ∀ k, ((s.commit i charge).subs k).committed = (s.subs k).select i :=
    fun _ => Row.commit_committed
  have hown : ∀ k, ((s.commit i charge).subs k).own i = none := fun _ => Row.own_commit_self
  refine ⟨⟨fun k => ?_, fun k => ?_⟩, ⟨⟨fun k v hv => ?_, fun k => ?_⟩, trivial⟩,
    fun j pc hne hq => hq.kept fun k => Row.keptFor_commit hne⟩
  · rw [hcom]
    exact hh.select_sound h k
  · have hu := h.used k
    rw [hcom, hh.used k]
    simp only [Store.commit, netAmount_charge]
    omega
  · rw [hown] at hv
    cases hv
  · rw [Row.select_of_none (hown k)]
    exact (Int.add_zero _).symm

/-- Every `Save` of a struct runs while the row still has the used amount that the struct
was read with, and no refund takes more than was used. -/
def SaveCurrent (i : ℕ) (s : Store) : Pc → Action → Prop
  | .saveReset _ sub _, .run => ((s.subs sub.id).select i).amountUsed = sub.amountUsed
  | .saveCharge _ sub, .run => ((s.subs sub.id).select i).amountUsed = sub.amountUsed
  | .saveDelta sub delta _, .run =>
    ((s.subs sub.id).select i).amountUsed = sub.amountUsed ∧ 0 ≤ sub.amountUsed + delta
  | _, _ => True

variable {c : Setup}

theorem selectForDelta_keepsAll {delta : ℤ} {record : Option SubscriptionPreConsumeRecord}
    (h : StoreInv s₀ s) (hh : Holding s₀ i s none)
    (hr : selectForDelta c i s k delta record = some r) :
    KeepsAll (StoreInv s₀) (CallInv s₀) i s r.1 r.2 := by
  unfold selectForDelta at hr
  split at hr
  · dsimp only at hr
    split at hr
    · exact rollback_keepsAll h hr
    · next hroom =>
      cases hr
      exact move_keepsAll h ⟨hh, (hh.select_sound h k).copy, hroom⟩
  · exact rollback_keepsAll h hr

theorem first_keepsAll (h : StoreInv s₀ s) (hh : Holding s₀ i s none) (op : Op)
    (hr : first c i s op = some r) : KeepsAll (StoreInv s₀) (CallInv s₀) i s r.1 r.2 := by
  cases op with
  | preConsume req =>
    simp only [first] at hr
    split at hr
    · cases hr
      exact move_keepsAll h ⟨hh, trivial⟩
    · split at hr
      · split at hr
        · exact rollback_keepsAll h hr
        · cases hr
          exact move_keepsAll h ⟨hh, trivial⟩
      · cases hr
        exact move_keepsAll h ⟨hh, trivial⟩
  | postConsumeDelta k delta =>
    simp only [first] at hr
    split at hr
    · cases hr
      exact move_keepsAll h ⟨hh, trivial⟩
    · exact selectForDelta_keepsAll h hh hr
  | refundPreConsume requestId =>
    simp only [first] at hr
    split at hr
    · cases hr
      exact move_keepsAll h ⟨hh, trivial⟩
    · split at hr
      · exact rollback_keepsAll h hr
      split at hr
      · cases hr
        exact move_keepsAll h ⟨hh, trivial⟩
      · split at hr
        · cases hr
          exact move_keepsAll h ⟨hh, trivial⟩
        · split at hr
          · exact rollback_keepsAll h hr
          · cases hr
            exact move_keepsAll h ⟨hh, trivial⟩
  | refundQuota k quota =>
    simp only [first] at hr
    split at hr
    · exact rollback_keepsAll h hr
    rename_i hpos
    split at hr
    · cases hr
      exact move_keepsAll h ⟨hh, trivial⟩
    · split at hr
      · split at hr
        · next hf =>
          split at hr
          · cases hr
            obtain ⟨hid, htotal, hbound⟩ := hh.select_sound h k
            refine write_keepsAll h hh hf ⟨hid, htotal, fun hlim => ?_⟩ Int.sub_eq_add_neg
              (fun _ => rfl) trivial
            have := hbound hlim
            dsimp only
            omega
          · exact rollback_keepsAll h hr
        · cases hr
      · exact rollback_keepsAll h hr
  | violationFee useSubscription k quota =>
    simp only [first] at hr
    split at hr
    · cases hr
      exact move_keepsAll h ⟨hh, trivial⟩
    · split at hr
      · cases hr
        exact move_keepsAll h ⟨hh, trivial⟩
      · split at hr
        · exact rollback_keepsAll h hr
        split at hr
        · split at hr
          · next hf =>
            split at hr
            · exact rollback_keepsAll h hr
            rename_i hroom
            cases hr
            have hsound := hh.select_sound h k
            refine write_keepsAll (d := 0) h hh hf hsound (Int.add_zero _).symm
              (fun k' => ?_) ⟨?_, hroom⟩
            · simp [Pc.charge, amountAt]
            · simp [hsound.id, Store.writeSub]
          · cases hr
        · exact rollback_keepsAll h hr

theorem listActive_copy {userId : ℤ} (h : StoreInv s₀ s) (hh : Holding s₀ i s charge) :
    ∀ v ∈ listActive c i s userId, Copy s₀ v := by
  intro v hv
  obtain ⟨k, _, rfl⟩ := List.mem_map.mp (List.mem_filter.mp ((List.mem_insertionSort _).mp hv)).1
  exact (hh.select_sound h k).copy

theorem chargeOrSkip_inv (req : Charge) {sub : UserSubscription} {rest : List UserSubscription}
    (hsub : Copy s₀ sub) (hrest : ∀ v ∈ rest, Copy s₀ v) :
    (chargeOrSkip req sub rest).charge = none ∧ Memory s₀ i s (chargeOrSkip req sub rest) := by
  unfold chargeOrSkip
  split
  · exact ⟨rfl, hrest⟩
  · next hroom => exact ⟨rfl, hsub, hroom⟩

theorem save_keepsAll {d : ℤ} (hr : save i s v pc = some r) (h : StoreInv s₀ s)
    (hh : Holding s₀ i s none) (hcopy : Copy s₀ v)
    (hbound : 0 < v.amountTotal → v.amountUsed ≤ v.amountTotal)
    (hd : v.amountUsed = ((s.subs v.id).select i).amountUsed + d)
    (hcharge : ∀ k', amountAt pc.charge k' = amountAt (some (v.id, d)) k')
    (hmem : ∀ s', Memory s₀ i s' pc) : KeepsAll (StoreInv s₀) (CallInv s₀) i s r.1 r.2 := by
  unfold save at hr
  split at hr
  · next hf =>
    cases hr
    exact write_keepsAll h hh hf ⟨rfl, hcopy, hbound⟩ hd hcharge (hmem _)
  · cases hr

theorem statement_keepsAll (h : StoreInv s₀ s) (hpc : CallInv s₀ i s pc)
    (hok : SaveCurrent i s pc .run) (hr : statement c i s pc = some r) :
    KeepsAll (StoreInv s₀) (CallInv s₀) i s r.1 r.2 := by
  obtain ⟨hh, hmem⟩ := hpc
  cases pc with
  | start => exact first_keepsAll h hh _ hr
  | readResumed existing =>
    simp only [statement] at hr
    split at hr
    · cases hr
      exact move_keepsAll h ⟨hh, trivial⟩
    · exact rollback_keepsAll h hr
  | listActive req =>
    simp only [statement] at hr
    split at hr
    · exact rollback_keepsAll h hr
    · cases hr
      exact move_keepsAll h ⟨hh, listActive_copy h hh⟩
  | readPlan req candidates =>
    cases candidates with
    | nil => exact rollback_keepsAll h hr
    | cons candidate rest =>
      have hcand := hmem candidate (List.mem_cons_self ..)
      have hrest : ∀ v ∈ rest, Copy s₀ v := fun v hv => hmem v (List.mem_cons_of_mem _ hv)
      simp only [statement] at hr
      split at hr
      · exact rollback_keepsAll h hr
      split at hr
      · cases hr
      · cases hr
        obtain ⟨hcharge, hm⟩ := chargeOrSkip_inv (i := i) (s := s) req hcand hrest
        exact move_keepsAll h ⟨by rw [hcharge]; exact hh, hm⟩
      · next sub hdue =>
        cases hr
        obtain ⟨hid, htotal, _⟩ := dueReset_fields hdue
        refine move_keepsAll h ⟨hh, ?_, hrest⟩
        unfold Copy at hcand ⊢
        rw [hid, htotal]
        exact hcand
  | saveReset req sub rest =>
    have hsel := hh.select_sound h sub.id
    refine save_keepsAll (d := 0) hr h hh hmem.1 (fun hlim => ?_)
      (by rw [Int.add_zero]; exact hok.symm) (fun k' => ?_)
      (fun s' => (chargeOrSkip_inv req hmem.1 hmem.2).2)
    · have htotal : sub.amountTotal = ((s.subs sub.id).select i).amountTotal :=
        Eq.trans hmem.1 hsel.total.symm
      have := hsel.bound (htotal ▸ hlim)
      have hused : ((s.subs sub.id).select i).amountUsed = sub.amountUsed := hok
      omega
    · rw [(chargeOrSkip_inv (i := i) (s := s) req hmem.1 hmem.2).1]
      simp [amountAt]
  | insertRecord req sub =>
    obtain ⟨-, hr⟩ := Option.ite_none_right_eq_some.mp hr
    split at hr
    · cases hr
      exact move_keepsAll h ⟨hh, trivial⟩
    · cases hr
      exact saveRecord_keepsAll h hh hmem
  | readDuplicate req =>
    simp only [statement] at hr
    split at hr
    · split at hr
      · exact rollback_keepsAll h hr
      · cases hr
        exact move_keepsAll h ⟨hh, trivial⟩
    · exact rollback_keepsAll h hr
  | saveCharge req sub =>
    refine save_keepsAll (d := req.amount) hr h hh hmem.1 (fun hlim => ?_) ?_ (fun _ => rfl)
      (fun _ => trivial)
    · have hroom : ¬ (0 < sub.amountTotal ∧ sub.amountTotal - sub.amountUsed < req.amount) :=
        hmem.2
      dsimp only at hlim ⊢
      omega
    · exact congrArg (· + req.amount) (Eq.symm hok)
  | readSub record => exact selectForDelta_keepsAll h hh hr
  | saveDelta sub delta record =>
    obtain ⟨hcur, hnonneg⟩ := hok
    have hroom : ¬ (0 < sub.amountTotal ∧ sub.amountTotal < max 0 (sub.amountUsed + delta)) :=
      hmem.2
    refine save_keepsAll (d := delta) hr h hh hmem.1 (fun hlim => ?_) ?_ (fun k' => ?_)
      (fun s' => ?_)
    · dsimp only at hlim ⊢
      omega
    · dsimp only
      omega
    · cases record <;> rfl
    · cases record <;> trivial
  | saveRecord record charge =>
    simp only [statement] at hr
    split at hr
    · cases hr
      exact saveRecord_keepsAll h hh trivial
    · cases hr
  | updateLocked sub quota =>
    obtain ⟨hown, hroom⟩ := hmem
    have hsel : (s.subs sub.id).select i = sub := Row.select_of_own hown
    have hsound := hh.sound sub.id sub hown
    simp only [statement, hsel] at hr
    split at hr
    · next hf =>
      cases hr
      refine write_keepsAll h hh hf ⟨rfl, hsound.total, fun hlim => ?_⟩ ?_ (fun _ => rfl) trivial
      · have hroom : ¬ (0 < sub.amountTotal ∧ sub.amountTotal < sub.amountUsed + quota) := hroom
        dsimp only at hlim ⊢
        omega
      · rw [hsel]
    · cases hr
  | others charge =>
    cases hr
    exact move_keepsAll h ⟨hh, trivial⟩
  | commit charge =>
    cases hr
    exact commit_keepsAll h hh
  | done => cases hr

theorem step_keepsAll {a : Action} {pc₀ : Pc} (h : StoreInv s₀ s) (hpc : CallInv s₀ i s pc₀)
    (hok : SaveCurrent i s pc₀ a) (hr : step c i s pc₀ a = some (s', pc)) :
    KeepsAll (StoreInv s₀) (CallInv s₀) i s s' pc := by
  cases a with
  | run => exact statement_keepsAll h hpc hok hr
  | fail =>
    cases pc₀ with
    | done => cases hr
    | _ => exact rollback_keepsAll h hr

structure Initial (s : State) : Prop where
  rows : ∀ i k, (s.store.subs k).own i = none
  sound : ∀ k, Sound s.store k (s.store.subs k).committed
  calls : ∀ i, s.point i = .start
  log : s.store.log = []

/-- Every committed usage is in its row once, and no row passes its total. -/
def UsageAdds (s₀ s : Store) : Prop :=
  ∀ k, (s.subs k).committed.amountUsed =
      (s₀.subs k).committed.amountUsed + netAmount s.log k ∧
    (0 < (s₀.subs k).committed.amountTotal →
      (s.subs k).committed.amountUsed ≤ (s₀.subs k).committed.amountTotal)

/-- No usage is lost as long as every `Save` writes over the row that its struct was read
from. -/
theorem usage_adds {s t : State} (h0 : Initial s)
    (h : Reach (interleave (step c)) (Locally SaveCurrent) s t) : UsageAdds s.store t.store := by
  have hinit : Interleaved (StoreInv s.store) (CallInv s.store) s := by
    refine ⟨⟨h0.sound, fun k => ?_⟩, fun i => ?_⟩
    · rw [h0.log]
      exact (Int.add_zero _).symm
    · rw [h0.calls]
      refine ⟨⟨fun k v hv => ?_, fun k => ?_⟩, trivial⟩
      · rw [h0.rows] at hv
        cases hv
      · rw [Row.select_of_none (h0.rows i k)]
        exact (Int.add_zero _).symm
  have hinv := (h.interleaved hinit step_keepsAll).store
  intro k
  have hsound := hinv.sound k
  refine ⟨hinv.used k, fun hlim => ?_⟩
  rw [← hsound.total] at hlim ⊢
  exact hsound.bound hlim

instance (i : ℕ) (s : Store) (pc : Pc) (a : Action) : Decidable (SaveCurrent i s pc a) := by
  unfold SaveCurrent
  split <;> infer_instance

def fourCalls : Setup where
  op
    | 0 => .preConsume ⟨['a'], 7, 10⟩
    | 1 => .preConsume ⟨['b'], 7, 10⟩
    | 2 => .postConsumeDelta 1 5
    | _ => .violationFee true 1 3
  env := fun _ => ⟨5, 5, ⟨id, id, id⟩, 0, none⟩
  ids := [1]
  plan := fun _ => some ⟨1, [], [], 0⟩

def unused : State where
  store :=
    { subs := fun k => .stored ⟨k, 7, 1, 100, 0, 0, 9, .active, 0, 0, false⟩
      records := fun _ => .stored none
      log := [] }
  point := fun _ => .start

theorem unused_initial : Initial unused :=
  ⟨fun _ _ => rfl, fun _ => ⟨rfl, rfl, fun _ => show (0 : ℤ) ≤ 100 by decide⟩, fun _ => rfl, rfl⟩

def usedAndLog (s : State) : ℤ × List (ℤ × ℤ) :=
  ((s.store.subs 1).committed.amountUsed, s.store.log)

theorem usage_adds_in_turn :
    ∃ t, Reach (interleave (step fourCalls)) (Locally SaveCurrent) unused t ∧
      usedAndLog t = (28, [(1, 3), (1, 5), (1, 10), (1, 10)]) ∧
      UsageAdds unused.store t.store := by
  have hrun : (execute (interleave (step fourCalls)) (Locally SaveCurrent)
      (List.replicate 6 (0, .run) ++ List.replicate 6 (1, .run) ++ List.replicate 3 (2, .run) ++
        List.replicate 4 (3, .run)) unused).map
      (fun t => decide (usedAndLog t = (28, [(1, 3), (1, 5), (1, 10), (1, 10)]))) =
        some true := by
    decide
  obtain ⟨t, ht, hout⟩ := exists_reach_of_execute hrun
  exact ⟨t, ht, of_decide_eq_true hout, usage_adds unused_initial ht⟩

/-- The second request lists the subscriptions before the first one saves: its own `Save`
then writes over the first charge. -/
theorem usage_lost :
    Initial unused ∧ ∃ t, Reach (interleave (step fourCalls)) Any unused t ∧
      usedAndLog t = (10, [(1, 10), (1, 10)]) ∧ ¬ UsageAdds unused.store t.store := by
  have hrun : (execute (interleave (step fourCalls)) Any
      (List.replicate 2 (1, .run) ++ List.replicate 6 (0, .run) ++ List.replicate 4 (1, .run))
        unused).map (fun t => decide (usedAndLog t = (10, [(1, 10), (1, 10)]))) = some true := by
    decide
  obtain ⟨t, ht, hout⟩ := exists_reach_of_execute hrun
  obtain ⟨hused, hlog⟩ := Prod.mk.inj (of_decide_eq_true hout)
  refine ⟨unused_initial, t, ht, of_decide_eq_true hout, fun hadds => ?_⟩
  have hsum := (hadds 1).1
  rw [hused, hlog] at hsum
  revert hsum
  decide

end NewApi.Model.Usage
