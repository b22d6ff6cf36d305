import NewApi.Model.TopUpStatements

/-!
# An order is credited once, and success is final

Between the compare-and-set of a call and its commit the row lock keeps everybody else out.
-/

namespace NewApi.Model.Settlement

open Transition Balance

def snapshot (t : TopUp) : TopUp :=
  { t with status := .pending, completeTime := 0 }

theorem resolve_snapshot (src : QuotaSources) (t : TopUp) :
    resolveTopUpQuota src (snapshot t) = resolveTopUpQuota src t := rfl

structure StoreInv (src : QuotaSources) (t₀ : TopUp) (won : Prop) (s : Store) : Prop where
  order : snapshot s.topUp.committed = snapshot t₀
  credit : creditOf s.user.committed =
    if s.topUp.committed.status = .success then resolvedQuota src t₀ else 0
  final : won → s.topUp.committed.status = .success

inductive Leg where
  | plain
  | won
  | credited

def Pc.leg : Pc → Leg
  | .markPaid _ _ _ => .won
  | .addQuota _ _ _ => .won
  | .reward => .credited
  | .commitCredit => .credited
  | _ => .plain

def LegInv (src : QuotaSources) (t₀ : TopUp) (i : ℕ) (s : Store) : Leg → Prop
  | .plain => ((s.topUp.select i).status = .success ↔ s.topUp.committed.status = .success) ∧
      creditOf (s.user.select i) = creditOf s.user.committed + 0
  | .won => (s.topUp.select i).status = .success ∧ s.topUp.committed.status ≠ .success ∧
      creditOf (s.user.select i) = creditOf s.user.committed + 0
  | .credited => (s.topUp.select i).status = .success ∧ s.topUp.committed.status ≠ .success ∧
      creditOf (s.user.select i) = creditOf s.user.committed + resolvedQuota src t₀

def Memory (src : QuotaSources) (t₀ : TopUp) : Pc → Prop
  | .checkExpiry _ t | .saveExpired t | .prepare _ t | .checkPending t _ | .savePending t _ _
  | .saveFailed t | .checkStale t | .updateStale t => snapshot t = snapshot t₀
  | .compareAndSet _ t quota | .markPaid _ t quota | .addQuota _ t quota =>
    snapshot t = snapshot t₀ ∧ quota = resolvedQuota src t₀
  | _ => True

def Locked (i : ℕ) (s : Store) : Pc → Prop
  | .checkExpiry _ _ | .saveExpired _ => ∃ t, s.topUp.own i = some t ∧ t.status ≠ .success
  | _ => True

structure CallInv (src : QuotaSources) (t₀ : TopUp) (i : ℕ) (s : Store) (pc : Pc) : Prop where
  order : snapshot (s.topUp.select i) = snapshot t₀
  leg : LegInv src t₀ i s pc.leg
  memory : Memory src t₀ pc
  locked : Locked i s pc

variable {src : QuotaSources} {t₀ : TopUp} {won : Prop} {i j : ℕ} {s s' : Store} {pc : Pc}

structure KeptFor (j : ℕ) (s s' : Store) : Prop where
  topUp : s.topUp.KeptFor j s'.topUp
  user : s.user.KeptFor j s'.user

theorem LegInv.kept {leg : Leg} (h : LegInv src t₀ j s leg) (hk : KeptFor j s s') :
    LegInv src t₀ j s' leg := by
  obtain ⟨hsel, hcom⟩ | ⟨hsel, hsel'⟩ := hk.topUp.select
  · cases leg with
    | plain =>
      refine ⟨?_, creditOf_kept hk.user h.2⟩
      rw [hsel, hcom]
      exact h.1
    | won | credited =>
      obtain ⟨hs, hc, hu⟩ := h
      exact ⟨by rw [hsel]; exact hs, by rw [hcom]; exact hc, creditOf_kept hk.user hu⟩
  · -- without an own write the call sees the committed order
    cases leg with
    | plain => exact ⟨by rw [hsel'], creditOf_kept hk.user h.2⟩
    | won | credited => exact absurd (hsel ▸ h.1) h.2.1

theorem CallInv.kept (h : CallInv src t₀ j s pc) (hs : StoreInv src t₀ won s')
    (hk : KeptFor j s s') : CallInv src t₀ j s' pc where
  order := by
    obtain ⟨hsel, _⟩ | ⟨_, hsel'⟩ := hk.topUp.select
    · rw [hsel]
      exact h.order
    · rw [hsel']
      exact hs.order
  leg := h.leg.kept hk
  memory := h.memory
  locked := by
    have hl := h.locked
    cases pc with
    | checkExpiry _ _ | saveExpired _ =>
      obtain ⟨t, hown, ht⟩ := hl
      exact ⟨t, hk.topUp.own.trans hown, ht⟩
    | _ => trivial

abbrev Keeps (src : QuotaSources) (t₀ : TopUp) (won : Prop) (i : ℕ) (s : Store)
    (r : Store × Pc) : Prop :=
  KeepsAll (StoreInv src t₀ won) (CallInv src t₀) i s r.1 r.2

variable {r : Store × Pc} {comp : Completion} {t : TopUp} {v : TopUp} {now : ℤ}

theorem Keeps.of_kept (hs : StoreInv src t₀ won r.1) (hpc : CallInv src t₀ i r.1 r.2)
    (hk : ∀ j, j ≠ i → KeptFor j s r.1) : Keeps src t₀ won i s r :=
  ⟨hs, hpc, fun j _ hne hq => hq.kept hs (hk j hne)⟩

theorem move_keeps (h : StoreInv src t₀ won s) (hpc : CallInv src t₀ i s pc) :
    Keeps src t₀ won i s (s, pc) :=
  .of_kept h hpc fun _ _ => ⟨.rfl, .rfl⟩

theorem StoreInv.of_committed (h : StoreInv src t₀ won s)
    (htopUp : s'.topUp.committed = s.topUp.committed)
    (huser : creditOf s'.user.committed = creditOf s.user.committed) :
    StoreInv src t₀ won s' where
  order := by rw [htopUp]; exact h.order
  credit := by rw [huser, htopUp]; exact h.credit
  final hw := by rw [htopUp]; exact h.final hw

def Pc.resting : Pc → Bool
  | .start | .lockTopUp _ | .readFailed _ | .lockStale | .commit | .done => true
  | _ => false

section

variable (h : StoreInv src t₀ won s)
include h

theorem callInv_unwritten (htopUp : s.topUp.own i = none) (huser : s.user.own i = none)
    (hpc : pc.resting = true) : CallInv src t₀ i s pc := by
  have hsel := Row.select_of_none htopUp
  have hleg : LegInv src t₀ i s .plain := ⟨by rw [hsel], creditOf_unwritten huser⟩
  cases pc <;> first
    | exact ⟨by rw [hsel]; exact h.order, hleg, trivial, trivial⟩
    | cases hpc

theorem abort_keeps (hpc : pc.resting = true) : Keeps src t₀ won i s (s.abort i, pc) := by
  have hs : StoreInv src t₀ won (s.abort i) :=
    h.of_committed Row.abort_committed (congrArg creditOf Row.abort_committed)
  exact .of_kept hs (callInv_unwritten hs Row.own_abort_self Row.own_abort_self hpc)
    fun _ hne => ⟨Row.keptFor_abort hne, Row.keptFor_abort hne⟩

theorem rollback_keeps (hr : rollback i s = some r) : Keeps src t₀ won i s r := by
  cases hr
  exact abort_keeps h rfl

theorem rollbackAndFail_keeps (hr : rollbackAndFail i s comp = some r) :
    Keeps src t₀ won i s r := by
  cases hr
  exact abort_keeps h rfl

theorem commit_keeps (hpc : CallInv src t₀ i s pc) (hleg : pc.leg ≠ .won) :
    Keeps src t₀ won i s (s.commit i, .done) := by
  have htopUp : (s.commit i).topUp.committed = s.topUp.select i := Row.commit_committed
  have huser : (s.commit i).user.committed = s.user.select i := Row.commit_committed
  have hs : StoreInv src t₀ won (s.commit i) := by
    have hcredit := h.credit
    have hl := hpc.leg
    refine ⟨by rw [htopUp]; exact hpc.order, ?_, fun hw => ?_⟩
    · rw [htopUp, huser]
      generalize pc.leg = leg at hl hleg
      cases leg with
      | plain =>
        rw [hl.2, hcredit, Int.add_zero]
        by_cases hsucc : s.topUp.committed.status = .success
        · rw [if_pos hsucc, if_pos (hl.1.mpr hsucc)]
        · rw [if_neg hsucc, if_neg fun h => hsucc (hl.1.mp h)]
      | won => exact absurd rfl hleg
      | credited =>
        rw [if_pos hl.1, hl.2.2, hcredit, if_neg hl.2.1, Int.zero_add]
    · rw [htopUp]
      generalize pc.leg = leg at hl hleg
      cases leg with
      | plain => exact hl.1.mpr (h.final hw)
      | won => exact absurd rfl hleg
      | credited => exact hl.1
  exact .of_kept hs (callInv_unwritten hs Row.own_commit_self Row.own_commit_self rfl)
    fun _ hne => ⟨Row.keptFor_commit hne, Row.keptFor_commit hne⟩

theorem StoreInv.payment (p : Row ℕ (Option Payment)) :
    StoreInv src t₀ won { s with payment := p } :=
  ⟨h.order, h.credit, h.final⟩

end

theorem CallInv.payment (h : CallInv src t₀ i s pc) (hs : StoreInv src t₀ won s)
    (p : Row ℕ (Option Payment)) : CallInv src t₀ i { s with payment := p } pc :=
  h.kept (hs.payment p) ⟨.rfl, .rfl⟩

theorem Keeps.of_payment {p : Row ℕ (Option Payment)} (h : StoreInv src t₀ won s)
    (hk : Keeps src t₀ won i { s with payment := p } r) : Keeps src t₀ won i s r :=
  ⟨hk.1, hk.2.1, fun j pc hne hq => hk.2.2 j pc hne (hq.payment h p)⟩

theorem payment_keeps {p : Row ℕ (Option Payment)} (h : StoreInv src t₀ won s)
    (hpc : CallInv src t₀ i s pc) : Keeps src t₀ won i s ({ s with payment := p }, pc) :=
  .of_payment h (move_keeps (h.payment p) (hpc.payment h p))

theorem write_keeps (h : StoreInv src t₀ won s) (hfree : s.topUp.free i = true)
    (hv : snapshot v = snapshot t₀) (hleg : LegInv src t₀ i (s.writeTopUp i v) pc.leg)
    (hmem : Memory src t₀ pc) (hlocked : Locked i (s.writeTopUp i v) pc) :
    Keeps src t₀ won i s (s.writeTopUp i v, pc) := by
  refine .of_kept (h.of_committed rfl rfl) ⟨?_, hleg, hmem, hlocked⟩
    fun _ hne => ⟨Row.keptFor_write hfree hne, .rfl⟩
  simp only [Store.writeTopUp, Row.select_write_self]
  exact hv

theorem plain_write (hv : v.status = .success ↔ s.topUp.committed.status = .success)
    (h : LegInv src t₀ i s .plain) : LegInv src t₀ i (s.writeTopUp i v) .plain := by
  refine ⟨?_, h.2⟩
  simp only [Store.writeTopUp, Row.select_write_self]
  exact hv

theorem close_keeps (h : StoreInv src t₀ won s) (hfree : s.topUp.free i = true)
    (hv : snapshot v = snapshot t₀) (hleg : LegInv src t₀ i s .plain)
    (hopen : (s.topUp.select i).status ≠ .success) (hclosed : v.status ≠ .success)
    (hpc : pc = .commit ∨ pc = .expirePayment) : Keeps src t₀ won i s (s.writeTopUp i v, pc) := by
  have hplain : LegInv src t₀ i (s.writeTopUp i v) .plain :=
    plain_write ⟨fun h => absurd h hclosed, fun h => absurd (hleg.1.mpr h) hopen⟩ hleg
  obtain rfl | rfl := hpc
  · exact write_keeps h hfree hv hplain trivial trivial
  · exact write_keeps h hfree hv hplain trivial trivial

theorem afterExpired_cases (t : TopUp) :
    afterExpired t = .commit ∨ afterExpired t = .expirePayment := by
  unfold afterExpired
  split
  · exact .inr rfl
  · exact .inl rfl

variable {c : Setup}

theorem pendingTopUpExpired_keeps {next : Bool → Pc}
    (hr : pendingTopUpExpired c i s t now next = some r) (h : StoreInv src t₀ won s)
    (hpc : ∀ b, CallInv src t₀ i s (next b)) : Keeps src t₀ won i s r := by
  unfold pendingTopUpExpired at hr
  split at hr
  · split at hr
    · split at hr
      · exact rollback_keeps h hr
      · cases hr
        exact payment_keeps h (hpc _)
    · cases hr
  · cases hr
    exact move_keeps h (hpc _)

theorem prepared_keeps {comp comp' : Completion} (h : StoreInv c.sources t₀ won s)
    (hpc : CallInv c.sources t₀ i s (.prepare comp' t)) (hr : prepared c i s comp t = some r) :
    Keeps c.sources t₀ won i s r := by
  have hres : resolveTopUpQuota c.sources t = resolveTopUpQuota c.sources t₀ := by
    have hmem : snapshot t = snapshot t₀ := hpc.memory
    rw [← resolve_snapshot, hmem, resolve_snapshot]
  unfold prepared at hr
  split at hr
  · exact rollbackAndFail_keeps h hr
  · exact rollback_keeps h hr
  · next quota hquota =>
    cases hr
    refine move_keeps h ⟨hpc.order, hpc.leg, ⟨hpc.memory, ?_⟩, trivial⟩
    rw [resolvedQuota, ← hres, hquota]

theorem preparedDirect_keeps {comp comp' : Completion} {verdict : Verdict}
    (h : StoreInv c.sources t₀ won s) (hpc : CallInv c.sources t₀ i s (.prepare comp' t))
    (hr : preparedDirect c i s comp t verdict = some r) : Keeps c.sources t₀ won i s r := by
  unfold preparedDirect at hr
  split at hr
  · split at hr
    · exact rollback_keeps h hr
    split at hr
    · split at hr
      · exact rollback_keeps h hr
      · cases hr
        exact payment_keeps h ⟨hpc.order, hpc.leg, trivial, trivial⟩
      · exact .of_payment h (prepared_keeps (h.payment _) (hpc.payment h _) hr)
    · exact rollback_keeps h hr
  · cases hr

theorem first_keeps {op : Op} (h : StoreInv src t₀ won s) (hpc : CallInv src t₀ i s .start)
    (hr : first i s op = some r) : Keeps src t₀ won i s r := by
  have hmove : ∀ pc : Pc, pc.leg = .plain → Memory src t₀ pc → Locked i s pc →
      Keeps src t₀ won i s (s, pc) := fun pc hleg hmem hlocked =>
    move_keeps h ⟨hpc.order, by rw [hleg]; exact hpc.leg, hmem, hlocked⟩
  cases op with
  | complete comp | failOrder expected =>
    cases hr
    exact hmove _ rfl trivial trivial
  | manualComplete | expireStale =>
    simp only [first] at hr
    split at hr <;> cases hr <;> exact hmove _ rfl trivial trivial
  | updatePending expected target =>
    simp only [first] at hr
    split at hr
    · exact rollback_keeps h hr
    · split at hr
      · exact rollback_keeps h hr
      · cases hr
        exact hmove _ rfl hpc.order trivial

theorem lockTopUp_keeps (h : StoreInv src t₀ won s) (hpc : CallInv src t₀ i s (.lockTopUp comp))
    (hr : statement c i s now (.lockTopUp comp) = some r) : Keeps src t₀ won i s r := by
  obtain ⟨hfree, hr⟩ := Option.ite_none_right_eq_some.mp hr
  split at hr
  · exact rollback_keeps h hr
  split at hr
  · exact rollback_keeps h hr
  rename_i hopen
  split at hr
  · exact rollback_keeps h hr
  cases hr
  have hplain : LegInv src t₀ i (s.writeTopUp i (s.topUp.select i)) .plain :=
    plain_write hpc.leg.1 hpc.leg
  split
  · exact write_keeps h hfree hpc.order hplain hpc.order trivial
  · exact write_keeps h hfree hpc.order hplain hpc.order
      ⟨_, Row.own_write_self, hopen⟩

theorem compareAndSet_keeps {quota now : ℤ} (h : StoreInv src t₀ won s)
    (hpc : CallInv src t₀ i s (.compareAndSet comp t quota))
    (hr : statement c i s now (.compareAndSet comp t quota) = some r) : Keeps src t₀ won i s r := by
  obtain ⟨horder, ⟨hiff, huser⟩, hmem, _⟩ := hpc
  obtain ⟨hfree, hr⟩ := Option.ite_none_right_eq_some.mp hr
  split at hr
  · next hmatch =>
    cases hr
    have hopen : s.topUp.committed.status ≠ .success := by
      intro hsucc
      rw [hiff.mpr hsucc] at hmatch
      simp at hmatch
    have hwon : LegInv src t₀ i (s.writeTopUp i
        { s.topUp.select i with status := .success, completeTime := now }) .won :=
      ⟨by rw [Store.writeTopUp, Row.select_write_self], hopen, huser⟩
    split
    · exact write_keeps h hfree horder hwon hmem trivial
    · exact write_keeps h hfree horder hwon hmem trivial
  · cases hr
    exact move_keeps h ⟨horder, ⟨hiff, huser⟩, trivial, trivial⟩

theorem addQuota_keeps {quota now : ℤ} (h : StoreInv src t₀ won s)
    (hpc : CallInv src t₀ i s (.addQuota comp t quota))
    (hr : statement c i s now (.addQuota comp t quota) = some r) : Keeps src t₀ won i s r := by
  obtain ⟨horder, ⟨hsel, hcom, huser⟩, ⟨_, hquota⟩, _⟩ := hpc
  obtain ⟨hfree, hr⟩ := Option.ite_none_right_eq_some.mp hr
  split at hr
  · next b hb =>
    cases hr
    refine .of_kept (h.of_committed rfl rfl) ⟨horder, ⟨hsel, hcom, ?_⟩, trivial, trivial⟩
      fun _ hne => ⟨.rfl, Row.keptFor_write hfree hne⟩
    rw [Row.select_write_self]
    rw [hb] at huser
    change b.credit + quota = creditOf s.user.committed + _
    change b.credit = _ + 0 at huser
    omega
  · split at hr
    · exact rollbackAndFail_keeps h hr
    · exact rollback_keeps h hr

/-- The two saves of an order that was read without a lock run while it is pending, and
none of them makes it successful. -/
def SaveFresh (i : ℕ) (s : Store) : Pc → Action → Prop
  | .savePending _ status _, .run _ => (s.topUp.select i).status = .pending ∧ status ≠ .success
  | .saveFailed _, .run _ => (s.topUp.select i).status = .pending
  | _, _ => True

theorem ne_success_of_pending (h : t.status = .pending) : t.status ≠ .success := by
  rw [h]
  decide

theorem expired_ne_success : TopUpStatus.expired ≠ .success := by decide

theorem statement_keeps (h : StoreInv c.sources t₀ won s) (hpc : CallInv c.sources t₀ i s pc)
    (hok : SaveFresh i s pc (.run now)) (hr : statement c i s now pc = some r) :
    Keeps c.sources t₀ won i s r := by
  cases pc with
  | start => exact first_keeps h hpc hr
  | lockTopUp comp => exact lockTopUp_keeps h hpc hr
  | checkExpiry comp t =>
    simp only [statement] at hr
    refine pendingTopUpExpired_keeps hr h fun b => ?_
    cases b with
    | true => exact ⟨hpc.order, hpc.leg, hpc.memory, hpc.locked⟩
    | false => exact ⟨hpc.order, hpc.leg, hpc.memory, trivial⟩
  | saveExpired t =>
    obtain ⟨t', hown, hopen⟩ := hpc.locked
    rw [← Row.select_of_own hown] at hopen
    obtain ⟨hfree, hr⟩ := Option.ite_none_right_eq_some.mp hr
    cases hr
    exact close_keeps h hfree hpc.memory hpc.leg hopen expired_ne_success (afterExpired_cases t)
  | expirePayment =>
    have hcommit : CallInv c.sources t₀ i s .commit := ⟨hpc.order, hpc.leg, trivial, trivial⟩
    obtain ⟨-, hr⟩ := Option.ite_none_right_eq_some.mp hr
    split at hr
    · split at hr <;> cases hr
      · exact payment_keeps h hcommit
      · exact move_keeps h hcommit
    · cases hr
      exact move_keeps h hcommit
  | prepare comp t =>
    simp only [statement] at hr
    split at hr
    · exact prepared_keeps h hpc hr
    · exact preparedDirect_keeps h hpc hr
  | expireLate =>
    obtain ⟨hfree, hr⟩ := Option.ite_none_right_eq_some.mp hr
    split at hr
    · next hmatch =>
      cases hr
      refine close_keeps h hfree hpc.order hpc.leg ?_ expired_ne_success (.inr rfl)
      rintro hsucc
      rw [hsucc] at hmatch
      simp at hmatch
    · cases hr
      exact move_keeps h ⟨hpc.order, hpc.leg, trivial, trivial⟩
  | compareAndSet comp t quota => exact compareAndSet_keeps h hpc hr
  | markPaid comp t quota =>
    obtain ⟨-, hr⟩ := Option.ite_none_right_eq_some.mp hr
    split at hr
    · split at hr
      · cases hr
        exact payment_keeps h ⟨hpc.order, hpc.leg, hpc.memory, trivial⟩
      · exact rollback_keeps h hr
    · exact rollback_keeps h hr
  | addQuota comp t quota => exact addQuota_keeps h hpc hr
  | reward =>
    cases hr
    exact move_keeps h ⟨hpc.order, hpc.leg, trivial, trivial⟩
  | commitCredit | commit =>
    cases hr
    exact commit_keeps h hpc (by simp [Pc.leg])
  | checkPending t target =>
    simp only [statement] at hr
    exact pendingTopUpExpired_keeps hr h fun b => ⟨hpc.order, hpc.leg, hpc.memory, trivial⟩
  | savePending t status byPolicy =>
    obtain ⟨hfree, hr⟩ := Option.ite_none_right_eq_some.mp hr
    cases hr
    refine close_keeps h hfree hpc.memory hpc.leg (ne_success_of_pending hok.1) hok.2 ?_
    split
    · exact afterExpired_cases t
    · exact .inl rfl
  | readFailed expected =>
    simp only [statement] at hr
    split at hr
    · exact rollback_keeps h hr
    · split at hr <;> cases hr
      · exact move_keeps h ⟨hpc.order, hpc.leg, trivial, trivial⟩
      · exact move_keeps h ⟨hpc.order, hpc.leg, hpc.order, trivial⟩
  | saveFailed t =>
    obtain ⟨hfree, hr⟩ := Option.ite_none_right_eq_some.mp hr
    cases hr
    exact close_keeps h hfree hpc.memory hpc.leg (ne_success_of_pending hok)
      (show TopUpStatus.failed ≠ .success by decide) (.inl rfl)
  | lockStale =>
    obtain ⟨hfree, hr⟩ := Option.ite_none_right_eq_some.mp hr
    split at hr
    · cases hr
      exact write_keeps h hfree hpc.order (plain_write hpc.leg.1 hpc.leg) hpc.order trivial
    · exact rollback_keeps h hr
  | checkStale t =>
    simp only [statement] at hr
    refine pendingTopUpExpired_keeps hr h fun b => ?_
    cases b with
    | true => exact ⟨hpc.order, hpc.leg, hpc.memory, trivial⟩
    | false => exact ⟨hpc.order, hpc.leg, trivial, trivial⟩
  | updateStale t =>
    obtain ⟨hfree, hr⟩ := Option.ite_none_right_eq_some.mp hr
    split at hr
    · next hpending =>
      cases hr
      exact close_keeps h hfree hpc.order hpc.leg (ne_success_of_pending hpending)
        expired_ne_success (afterExpired_cases t)
    · cases hr
      exact move_keeps h ⟨hpc.order, hpc.leg, trivial, trivial⟩
  | done => cases hr

theorem step_keeps {a : Action} {pc' : Pc} (h : StoreInv c.sources t₀ won s)
    (hpc : CallInv c.sources t₀ i s pc) (hok : SaveFresh i s pc a)
    (hr : step c i s pc a = some (s', pc')) : Keeps c.sources t₀ won i s (s', pc') := by
  cases a with
  | run now => exact statement_keeps h hpc hok hr
  | fail =>
    simp only [step] at hr
    split at hr
    · cases hr
    · exact rollback_keeps h hr
  | changeUser d =>
    obtain ⟨row, hrow, heq⟩ := Option.map_eq_some_iff.mp hr
    obtain ⟨hp, rfl⟩ := outside_some hrow
    cases heq
    have hs : StoreInv c.sources t₀ won
        { s with user := .stored (s.user.committed.bind (some ∘ change d)) } :=
      h.of_committed rfl (creditOf_change _ _)
    have hk : ∀ j, KeptFor j s
        { s with user := .stored (s.user.committed.bind (some ∘ change d)) } :=
      fun j => ⟨.rfl, Row.keptFor_stored hp⟩
    exact .of_kept hs (hpc.kept hs (hk i)) fun j _ => hk j

structure Initial (s : State) : Prop where
  topUp : s.store.topUp.pending = none ∧ s.store.topUp.committed.status ≠ .success
  user : s.store.user.pending = none ∧ creditOf s.store.user.committed = 0
  calls : ∀ i, s.point i = .start

theorem initial_inv {s : State} (h : Initial s) :
    Interleaved (StoreInv c.sources s.store.topUp.committed False)
      (CallInv c.sources s.store.topUp.committed) s := by
  have hs : StoreInv c.sources s.store.topUp.committed False s.store :=
    ⟨rfl, by rw [h.user.2, if_neg h.topUp.2], False.elim⟩
  refine ⟨hs, fun i => ?_⟩
  rw [h.calls]
  exact callInv_unwritten hs (Row.own_of_pending h.topUp.1) (Row.own_of_pending h.user.1) rfl

/-- The order has added its resolved quota exactly if it is successful, and a successful
order stays so, in every run whose unlocked saves run while the order is pending. -/
theorem topUp_credited_once {s t : State} (h0 : Initial s)
    (h : Reach (interleave (step c)) (Locally SaveFresh) s t) :
    creditOf t.store.user.committed =
        (if t.store.topUp.committed.status = .success then
          resolvedQuota c.sources s.store.topUp.committed else 0) ∧
      (t.store.topUp.committed.status = .success →
        ∀ u, Reach (interleave (step c)) (Locally SaveFresh) t u →
          u.store.topUp.committed.status = .success) := by
  have hinv := h.interleaved (initial_inv h0) step_keeps
  refine ⟨hinv.store.credit, fun hsucc u hu => ?_⟩
  -- from here on the order is known to be successful
  have hwon : Interleaved (StoreInv c.sources s.store.topUp.committed True)
      (CallInv c.sources s.store.topUp.committed) t :=
    ⟨⟨hinv.store.order, hinv.store.credit, fun _ => hsucc⟩, hinv.procs⟩
  exact (hu.interleaved hwon step_keeps).store.final trivial

instance (i : ℕ) (s : Store) (pc : Pc) (a : Action) : Decidable (SaveFresh i s pc a) := by
  unfold SaveFresh
  split <;> infer_instance

def threeCalls : Setup where
  op
    | 0 => .complete ⟨some .yooKassa, false, none⟩
    | 1 => .updatePending (some .yooKassa) .expired
    | _ => .complete ⟨some .yooKassa, true, none⟩
  sources := ⟨none, 1⟩
  policyTTL := 3600

def pendingOrder : State where
  store :=
    { topUp := .stored ⟨1, ['n'], 1, 1, 1, 1, [], .yooKassa, 3600, 100, 1, 0, .pending⟩
      user := .stored (some ⟨0, 0⟩)
      payment := .stored none }
  point _ := .start

theorem pendingOrder_initial : Initial pendingOrder :=
  ⟨⟨rfl, by decide⟩, ⟨rfl, rfl⟩, fun _ => rfl⟩

def outcome (s : State) : TopUpStatus × Option Balance :=
  (s.store.topUp.committed.status, s.store.user.committed)

theorem topUp_credited_by_webhook :
    ∃ t, Reach (interleave (step threeCalls)) (Locally SaveFresh) pendingOrder t ∧
      outcome t = (.success, some ⟨100, 100⟩) ∧
      creditOf t.store.user.committed =
        (if t.store.topUp.committed.status = .success then
          resolvedQuota threeCalls.sources pendingOrder.store.topUp.committed else 0) := by
  have hrun : (execute (interleave (step threeCalls)) (Locally SaveFresh)
      (List.replicate 8 (0, .run 2) ++ [(1, .run 3)]) pendingOrder).map
        (fun t => decide (outcome t = (.success, some ⟨100, 100⟩))) = some true := by decide
  obtain ⟨t, ht, hout⟩ := exists_reach_of_execute hrun
  exact ⟨t, ht, of_decide_eq_true hout, (topUp_credited_once pendingOrder_initial ht).1⟩

/-- The failure callback reads the pending order, the webhook settles it, the callback saves
it as expired, and a reconciliation of the expired order credits it again. -/
theorem topUp_credited_twice :
    Initial pendingOrder ∧ ∃ t u, Reach (interleave (step threeCalls)) Any pendingOrder t ∧
      outcome t = (.expired, some ⟨100, 100⟩) ∧
      Reach (interleave (step threeCalls)) Any t u ∧ outcome u = (.success, some ⟨200, 200⟩) := by
  have hrun : (execute (interleave (step threeCalls)) Any
      ([(1, .run 2)] ++ List.replicate 8 (0, .run 2) ++ List.replicate 3 (1, .run 3))
        pendingOrder).map (fun t => decide (outcome t = (.expired, some ⟨100, 100⟩) ∧
          (execute (interleave (step threeCalls)) Any (List.replicate 7 (2, .run 4)) t).map
            (fun u => decide (outcome u = (.success, some ⟨200, 200⟩))) = some true)) =
      some true := by decide
  obtain ⟨t, ht, hout⟩ := exists_reach_of_execute hrun
  obtain ⟨hout, hrun'⟩ := of_decide_eq_true hout
  obtain ⟨u, hu, hout'⟩ := exists_reach_of_execute hrun'
  exact ⟨pendingOrder_initial, t, u, ht, hout, hu, of_decide_eq_true hout'⟩

end NewApi.Model.Settlement
