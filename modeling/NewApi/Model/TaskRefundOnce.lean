import NewApi.Model.TaskRefund

/-!
# The refund pays out once

As long as the stage `UPDATE` matches the event row, whose lock excludes every other worker.
-/

namespace NewApi.Model.TaskRefund

open Transition Balance

def stageOf (e : Option Event) : Stage := (e.map Event.stage).getD .tokenDone

/-- What the accounts hold of the refund is what the stage of the task's event says. -/
structure PaidByStage (task : Task) (s : Store) : Prop where
  funding : creditOf s.user.committed + creditOf s.subscription.committed =
    if stageOf s.event.committed = .pending then 0 else task.quota
  token : ∀ b, s.token.committed = some b →
    b.credit = if stageOf s.event.committed = .tokenDone ∧ 0 < task.tokenId then task.quota else 0

def Pc.held : Pc → ℤ × ℤ
  | .refundWallet _ subscription => (0, subscription)
  | .advanceFunding wallet subscription => (wallet, subscription)
  | .commitFunding wallet subscription => (wallet, subscription)
  | _ => (0, 0)

structure Funding (i : ℕ) (s : Store) (held : ℤ × ℤ) : Prop where
  user : creditOf (s.user.select i) = creditOf s.user.committed + held.1
  subscription : creditOf (s.subscription.select i) = creditOf s.subscription.committed + held.2

def Parts (task : Task) : Pc → Prop
  | .refundSubscription w u | .refundWallet w u | .advanceFunding w u | .commitFunding w u =>
    w + u = task.quota ∧ 0 ≤ w ∧ 0 ≤ u
  | _ => True

def Advanced (i : ℕ) (s : Store) (old new : Stage) : Prop :=
  ∃ e e', s.event.committed = some e ∧ e.stage = old ∧ s.event.own i = some (some e') ∧
    e'.stage = new

def EventLeg (i : ℕ) (s : Store) : Pc → Prop
  | .commitFunding _ _ => Advanced i s .pending .fundingDone
  | .commitToken => Advanced i s .fundingDone .tokenDone
  | .deliverLog | .deleteEvent => s.event.own i = none ∧ stageOf s.event.committed = .tokenDone
  | _ => s.event.own i = none

def TokenCredited (task : Task) (i : ℕ) (s : Store) : Prop :=
  (∃ b b', s.token.committed = some b ∧ s.token.own i = some (some b') ∧
    b'.credit = b.credit + task.quota ∧ 0 < task.tokenId) ∨
  s.token.own i = none ∧ (s.token.committed = none ∨ task.tokenId ≤ 0)

def TokenLeg (task : Task) (i : ℕ) (s : Store) : Pc → Prop
  | .advanceToken | .commitToken => TokenCredited task i s
  | .readToken | .updateToken => s.token.own i = none ∧ 0 < task.tokenId
  | _ => s.token.own i = none

structure WorkerInv (task : Task) (i : ℕ) (s : Store) (pc : Pc) : Prop where
  funding : Funding i s pc.held
  parts : Parts task pc
  event : EventLeg i s pc
  token : TokenLeg task i s pc

/-! ### What a step leaves to the other workers -/

structure KeptFor (j : ℕ) (s s' : Store) : Prop where
  event : s.event.KeptFor j s'.event
  user : s.user.KeptFor j s'.user
  subscription : s.subscription.KeptFor j s'.subscription
  token : s.token.KeptFor j s'.token
  delivered : stageOf s.event.committed = .tokenDone → stageOf s'.event.committed = .tokenDone
  gone : s.token.committed = none → s'.token.committed = none

variable {task : Task} {i j : ℕ} {s s' : Store} {pc : Pc}

variable {r : Store × Pc} {old new : Stage} {w u : ℤ} {now : ℤ}

theorem Advanced.kept (h : Advanced j s old new) (hk : KeptFor j s s') : Advanced j s' old new := by
  obtain ⟨e, e', hcom, hold, hown, hnew⟩ := h
  exact ⟨e, e', (hk.event.committed _ hown).trans hcom, hold, hk.event.own.trans hown, hnew⟩

theorem TokenCredited.kept (h : TokenCredited task j s) (hk : KeptFor j s s') :
    TokenCredited task j s' := by
  obtain ⟨b, b', hcom, hown, hcredit, hid⟩ | ⟨hown, hnone⟩ := h
  · exact .inl ⟨b, b', (hk.token.committed _ hown).trans hcom, hk.token.own.trans hown, hcredit,
      hid⟩
  · exact .inr ⟨hk.token.own.trans hown, hnone.imp hk.gone id⟩

theorem EventLeg.kept (h : EventLeg j s pc) (hk : KeptFor j s s') : EventLeg j s' pc := by
  cases pc with
  | commitFunding w u | commitToken => exact Advanced.kept h hk
  | deliverLog | deleteEvent => exact ⟨hk.event.own.trans h.1, hk.delivered h.2⟩
  | _ => exact hk.event.own.trans h

theorem TokenLeg.kept (h : TokenLeg task j s pc) (hk : KeptFor j s s') :
    TokenLeg task j s' pc := by
  cases pc with
  | advanceToken | commitToken => exact TokenCredited.kept h hk
  | readToken | updateToken => exact ⟨hk.token.own.trans h.1, h.2⟩
  | _ => exact hk.token.own.trans h

theorem WorkerInv.kept (h : WorkerInv task j s pc) (hk : KeptFor j s s') :
    WorkerInv task j s' pc where
  funding := ⟨creditOf_kept hk.user h.funding.user,
    creditOf_kept hk.subscription h.funding.subscription⟩
  parts := h.parts
  event := h.event.kept hk
  token := h.token.kept hk

abbrev Keeps (task : Task) (i : ℕ) (s : Store) (r : Store × Pc) : Prop :=
  KeepsAll (PaidByStage task) (WorkerInv task) i s r.1 r.2

theorem move_keeps (h : PaidByStage task s) (hpc : WorkerInv task i s pc) :
    Keeps task i s (s, pc) :=
  ⟨h, hpc, fun _ _ _ hq => hq⟩

theorem PaidByStage.of_committed (h : PaidByStage task s)
    (hevent : stageOf s'.event.committed = stageOf s.event.committed)
    (huser : creditOf s'.user.committed = creditOf s.user.committed)
    (hsub : creditOf s'.subscription.committed = creditOf s.subscription.committed)
    (htoken : ∀ b, s'.token.committed = some b →
      ∃ b', s.token.committed = some b' ∧ b.credit = b'.credit) : PaidByStage task s' where
  funding := by
    rw [huser, hsub, hevent]
    exact h.funding
  token := by
    intro b hb
    obtain ⟨b', hb', hcredit⟩ := htoken b hb
    rw [hevent, hcredit]
    exact h.token b' hb'

structure Idle (i : ℕ) (s : Store) : Prop where
  funding : Funding i s (0, 0)
  event : s.event.own i = none
  token : s.token.own i = none

theorem abort_idle : Idle i (s.abort i) where
  funding := ⟨creditOf_unwritten Row.own_abort_self, creditOf_unwritten Row.own_abort_self⟩
  event := Row.own_abort_self
  token := Row.own_abort_self

theorem commit_idle : Idle i (s.commit i) where
  funding := ⟨creditOf_unwritten Row.own_commit_self, creditOf_unwritten Row.own_commit_self⟩
  event := Row.own_commit_self
  token := Row.own_commit_self

def Pc.resting : Pc → Bool
  | .claim | .readEvent | .readStage | .fundingStage | .fundingTask | .tokenStage | .tokenTask
  | .recordFailure | .done => true
  | _ => false

theorem Idle.resting (h : Idle i s) (hpc : pc.resting = true) : WorkerInv task i s pc := by
  cases pc <;> first | exact ⟨h.funding, trivial, h.event, h.token⟩ | cases hpc

theorem WorkerInv.idle (h : WorkerInv task i s pc) (hpc : pc.resting = true) : Idle i s := by
  cases pc <;> first | exact ⟨h.funding, h.event, h.token⟩ | cases hpc

theorem keptFor_abort (hne : j ≠ i) : KeptFor j s (s.abort i) where
  event := Row.keptFor_abort hne
  user := Row.keptFor_abort hne
  subscription := Row.keptFor_abort hne
  token := Row.keptFor_abort hne
  delivered h := by rw [show (s.abort i).event.committed = _ from Row.abort_committed]; exact h
  gone h := by rw [show (s.abort i).token.committed = _ from Row.abort_committed]; exact h

theorem abort_keeps (h : PaidByStage task s) (hpc : pc.resting = true) :
    Keeps task i s (s.abort i, pc) := by
  refine ⟨h.of_committed ?_ ?_ ?_ ?_, abort_idle.resting hpc,
    fun _ _ hne hq => hq.kept (keptFor_abort hne)⟩
  · exact congrArg stageOf Row.abort_committed
  · exact congrArg creditOf Row.abort_committed
  · exact congrArg creditOf Row.abort_committed
  · intro b hb
    rw [show (s.abort i).token.committed = _ from Row.abort_committed] at hb
    exact ⟨b, hb, rfl⟩

theorem failed_keeps (h : PaidByStage task s) (hr : failed i s = some r) : Keeps task i s r := by
  cases hr
  exact abort_keeps h rfl

/-! ### The statements -/

theorem changeEvent_keeps {f : Event → Option (Option Event)} {hit miss : Pc}
    (h : PaidByStage task s) (hi : Idle i s)
    (hf : ∀ e e', s.event.committed = some e → f e = some e' → stageOf e' = e.stage)
    (hhit : hit.resting = true) (hmiss : miss.resting = true)
    (hr : changeEvent i s f hit miss = some r) : Keeps task i s r := by
  obtain ⟨hfree, hr⟩ := Option.ite_none_right_eq_some.mp hr
  rw [Row.select_of_none hi.event] at hr
  split at hr
  · next e' hbind =>
    cases hr
    obtain ⟨e, hcom, he'⟩ := Option.bind_eq_some_iff.mp hbind
    have hstage : stageOf (s.event.autocommit i e').committed = stageOf s.event.committed := by
      rw [Row.autocommit_committed, hf e e' hcom he', hcom]
      rfl
    refine ⟨h.of_committed hstage rfl rfl fun b hb => ⟨b, hb, rfl⟩,
      Idle.resting ⟨⟨hi.funding.user, hi.funding.subscription⟩, Row.own_autocommit_self, hi.token⟩
        hhit,
      fun j pc hne hq => hq.kept ?_⟩
    exact ⟨Row.keptFor_autocommit hfree hne, .rfl, .rfl, .rfl, fun hd => hstage.trans hd, id⟩
  · cases hr
    exact move_keeps h (hi.resting hmiss)

theorem advance_keeps (hr : advance i s old new pc = some r) (h : PaidByStage task s)
    (hown : s.event.own i = none) (hmatch : (s.event.select i).map Event.stage = some old)
    (hpc : ∀ e', Advanced i { s with event := s.event.write i (some e') } old new →
      WorkerInv task i { s with event := s.event.write i (some e') } pc) : Keeps task i s r := by
  unfold advance at hr
  split at hr
  · next hfree =>
    obtain ⟨e, hsel, hold⟩ := Option.map_eq_some_iff.mp hmatch
    simp only [hsel, if_pos hold] at hr
    cases hr
    rw [Row.select_of_none hown] at hsel
    refine ⟨h.of_committed rfl rfl rfl fun b hb => ⟨b, hb, rfl⟩,
      hpc _ ⟨e, _, hsel, hold, Row.own_write_self, rfl⟩, fun j pc hne hq => hq.kept ?_⟩
    exact ⟨Row.keptFor_write hfree hne, .rfl, .rfl, .rfl, id, id⟩
  · cases hr

theorem refundParts_ok (h : refundParts task = .ok (w, u)) :
    w + u = task.quota ∧ 0 ≤ w ∧ 0 ≤ u := by
  unfold refundParts at h
  repeat' split at h
  all_goals cases h
  all_goals omega

theorem keptFor_commit (hadv : Advanced i s old new) (hold : old ≠ .tokenDone)
    (htoken : ∀ v, s.token.own i = some v → s.token.committed ≠ none) (hne : j ≠ i) :
    KeptFor j s (s.commit i) where
  event := Row.keptFor_commit hne
  user := Row.keptFor_commit hne
  subscription := Row.keptFor_commit hne
  token := Row.keptFor_commit hne
  delivered hd := by
    obtain ⟨e, _, hcom, he, _⟩ := hadv
    rw [hcom] at hd
    exact absurd (he.symm.trans hd) hold
  gone hg := by
    rcases hown : s.token.own i with _ | v
    · change (s.token.commit i).committed = none
      rw [Row.commit_of_none hown]
      exact hg
    · exact absurd hg (htoken v hown)

theorem Advanced.commit_stage (h : Advanced i s old new) :
    stageOf s.event.committed = old ∧ stageOf (s.commit i).event.committed = new := by
  obtain ⟨e, e', hcom, hold, hown, hnew⟩ := h
  refine ⟨by rw [hcom]; exact hold, ?_⟩
  simp only [Store.commit, Row.commit_committed, hown]
  exact hnew

theorem commitFunding_keeps (h : PaidByStage task s)
    (hpc : WorkerInv task i s (.commitFunding w u)) : Keeps task i s (s.commit i, .readStage) := by
  obtain ⟨⟨huser, hsub⟩, ⟨hsum, _⟩, hadv, htoken⟩ := hpc
  obtain ⟨hold, hnew⟩ := Advanced.commit_stage hadv
  refine ⟨⟨?_, fun b hb => ?_⟩, commit_idle.resting rfl, fun j pc hne hq => hq.kept ?_⟩
  · have hpaid := h.funding
    rw [if_pos hold] at hpaid
    rw [hnew]
    simp only [Store.commit, Row.commit_committed]
    change creditOf (s.user.select i) + creditOf (s.subscription.select i) = task.quota
    dsimp only [Pc.held] at huser hsub
    omega
  · change (s.token.commit i).committed = some b at hb
    rw [Row.commit_of_none htoken] at hb
    have hcredit := h.token b hb
    rw [if_neg (by rw [hold]; rintro ⟨h, _⟩; cases h)] at hcredit
    rw [hcredit, if_neg (by rw [hnew]; rintro ⟨h, _⟩; cases h)]
  · refine keptFor_commit hadv (by decide) (fun v hv => ?_) hne
    have hnone : s.token.own i = none := htoken
    rw [hnone] at hv
    cases hv

theorem commitToken_keeps (h : PaidByStage task s) (hpc : WorkerInv task i s .commitToken) :
    Keeps task i s (s.commit i, .readStage) := by
  obtain ⟨⟨huser, hsub⟩, _, hadv, htoken⟩ := hpc
  obtain ⟨hold, hnew⟩ := Advanced.commit_stage hadv
  have hunpaid : ∀ b, s.token.committed = some b → b.credit = 0 := by
    intro b hb
    rw [h.token b hb, if_neg]
    rw [hold]
    rintro ⟨h, _⟩
    cases h
  refine ⟨⟨?_, fun b hb => ?_⟩, commit_idle.resting rfl, fun j pc hne hq => hq.kept ?_⟩
  · have hpaid := h.funding
    rw [if_neg (by rw [hold]; decide)] at hpaid
    rw [hnew]
    simp only [Store.commit, Row.commit_committed]
    change creditOf (s.user.select i) + creditOf (s.subscription.select i) = task.quota
    dsimp only [Pc.held] at huser hsub
    omega
  · rw [hnew]
    change (s.token.commit i).committed = some b at hb
    obtain ⟨b₀, b', hcom, hown, hcredit, hid⟩ | ⟨hown, hnone⟩ := htoken
    · rw [Row.commit_committed, hown] at hb
      cases hb
      rw [if_pos ⟨rfl, hid⟩, hcredit, hunpaid b₀ hcom, Int.zero_add]
    · rw [Row.commit_of_none hown] at hb
      rw [hunpaid b hb]
      obtain hgone | hid := hnone
      · rw [hgone] at hb
        cases hb
      · rw [if_neg (fun h => Int.not_lt.mpr hid h.2)]
  · refine keptFor_commit hadv (by decide) (fun v hv hg => ?_) hne
    obtain ⟨b₀, _, hcom, _⟩ | ⟨hown, _⟩ := htoken
    · rw [hcom] at hg
      cases hg
    · rw [hown] at hv
      cases hv

/-- The stage `UPDATE` of a transaction matches the event row. -/
def StageMatches (i : ℕ) (s : Store) : Pc → Action → Prop
  | .advanceFunding _ _, .run _ => (s.event.select i).map Event.stage = some .pending
  | .advanceToken, .run _ => (s.event.select i).map Event.stage = some .fundingDone
  | _, _ => True

theorem refundSubscription_keeps (h : PaidByStage task s)
    (hpc : WorkerInv task i s (.refundSubscription w u))
    (hr : statement task i s now (.refundSubscription w u) = some r) : Keeps task i s r := by
  obtain ⟨⟨huser, hsub⟩, hparts, hevent, htoken⟩ := hpc
  obtain ⟨hfree, hr⟩ := Option.ite_none_right_eq_some.mp hr
  split at hr
  · next b hsel =>
    split at hr
    · cases hr
      refine ⟨h.of_committed rfl rfl rfl fun b hb => ⟨b, hb, rfl⟩, ?_, fun j pc hne hq =>
        hq.kept ⟨.rfl, .rfl, Row.keptFor_write hfree hne, .rfl, id, id⟩⟩
      have hsub' : creditOf (some (b.unuse u)) = creditOf s.subscription.committed + u := by
        rw [hsel] at hsub
        change b.credit + u = _
        change b.credit = _ + 0 at hsub
        omega
      unfold afterSubscription
      split
      · refine ⟨⟨huser, ?_⟩, hparts, hevent, htoken⟩
        rw [Row.select_write_self]
        exact hsub'
      · have hw : w = 0 := by
          have := hparts.2.1
          omega
        subst hw
        refine ⟨⟨huser, ?_⟩, hparts, hevent, htoken⟩
        rw [Row.select_write_self]
        exact hsub'
    · exact failed_keeps h hr
  · exact failed_keeps h hr

theorem refundWallet_keeps (h : PaidByStage task s) (hpc : WorkerInv task i s (.refundWallet w u))
    (hr : statement task i s now (.refundWallet w u) = some r) : Keeps task i s r := by
  obtain ⟨⟨huser, hsub⟩, hparts, hevent, htoken⟩ := hpc
  obtain ⟨hfree, hr⟩ := Option.ite_none_right_eq_some.mp hr
  split at hr
  · next b hsel =>
    cases hr
    refine ⟨h.of_committed rfl rfl rfl fun b hb => ⟨b, hb, rfl⟩,
      ⟨⟨?_, hsub⟩, hparts, hevent, htoken⟩, fun j pc hne hq =>
        hq.kept ⟨.rfl, Row.keptFor_write hfree hne, .rfl, .rfl, id, id⟩⟩
    rw [Row.select_write_self]
    rw [hsel] at huser
    change b.credit + w = creditOf s.user.committed + w
    change b.credit = _ + 0 at huser
    omega
  · exact failed_keeps h hr

theorem updateToken_keeps (h : PaidByStage task s) (hpc : WorkerInv task i s .updateToken)
    (hr : statement task i s now .updateToken = some r) : Keeps task i s r := by
  obtain ⟨hfunding, _, hevent, hown, hid⟩ := hpc
  simp only [statement, Row.select_of_none hown] at hr
  split at hr
  · next hfree =>
    split at hr
    · next b hcom =>
      cases hr
      refine ⟨h.of_committed rfl rfl rfl fun b hb => ⟨b, hb, rfl⟩,
        ⟨⟨hfunding.user, hfunding.subscription⟩, trivial, hevent,
          .inl ⟨b, _, hcom, Row.own_write_self, rfl, hid⟩⟩,
        fun j pc hne hq => hq.kept ⟨.rfl, .rfl, .rfl, Row.keptFor_write hfree hne, id, id⟩⟩
    · next hcom =>
      cases hr
      exact move_keeps h ⟨hfunding, trivial, hevent, .inr ⟨hown, .inl hcom⟩⟩
  · cases hr

theorem statement_keeps (h : PaidByStage task s) (hpc : WorkerInv task i s pc)
    (hok : StageMatches i s pc (.run now)) (hr : statement task i s now pc = some r) :
    Keeps task i s r := by
  cases pc with
  | claim =>
    refine changeEvent_keeps h (hpc.idle rfl) (fun e e' _ he => ?_) rfl rfl hr
    split at he <;> cases he
    rfl
  | readEvent =>
    simp only [statement] at hr
    split at hr <;> cases hr <;> exact move_keeps h ((hpc.idle rfl).resting rfl)
  | readStage =>
    have hi := hpc.idle rfl
    simp only [statement, Row.select_of_none hi.event] at hr
    split at hr
    · cases hr
      exact move_keeps h (hi.resting rfl)
    · next e hcom =>
      split at hr <;> cases hr
      · exact move_keeps h (hi.resting rfl)
      · exact move_keeps h (hi.resting rfl)
      · next hstage =>
        refine move_keeps h ⟨hi.funding, trivial, ⟨hi.event, ?_⟩, hi.token⟩
        rw [hcom]
        exact hstage
  | fundingStage | tokenStage =>
    simp only [statement] at hr
    split at hr
    · exact failed_keeps h hr
    · split at hr <;> cases hr <;> exact move_keeps h ((hpc.idle rfl).resting rfl)
  | fundingTask =>
    have hi := hpc.idle rfl
    simp only [statement] at hr
    split at hr
    · exact failed_keeps h hr
    rename_i w u hparts
    cases hr
    have hp := refundParts_ok hparts
    unfold afterTask afterSubscription
    split
    · exact move_keeps h ⟨hi.funding, hp, hi.event, hi.token⟩
    have hu : u = 0 := by omega
    subst hu
    split
    · exact move_keeps h ⟨hi.funding, hp, hi.event, hi.token⟩
    · have hw : w = 0 := by omega
      subst hw
      exact move_keeps h ⟨hi.funding, hp, hi.event, hi.token⟩
  | refundSubscription w u => exact refundSubscription_keeps h hpc hr
  | refundWallet w u => exact refundWallet_keeps h hpc hr
  | advanceFunding w u =>
    exact advance_keeps hr h hpc.event hok
      fun e' hadv => ⟨⟨hpc.funding.user, hpc.funding.subscription⟩, hpc.parts, hadv, hpc.token⟩
  | commitFunding w u =>
    cases hr
    exact commitFunding_keeps h hpc
  | tokenTask =>
    have hi := hpc.idle rfl
    cases hr
    split
    · next hid => exact move_keeps h ⟨hi.funding, trivial, hi.event, hi.token, hid⟩
    · next hid =>
      exact move_keeps h ⟨hi.funding, trivial, hi.event, .inr ⟨hi.token, .inr (by omega)⟩⟩
  | readToken =>
    obtain ⟨hfunding, _, hevent, hown, hid⟩ := hpc
    simp only [statement, Row.select_of_none hown] at hr
    split at hr
    · cases hr
      exact move_keeps h ⟨hfunding, trivial, hevent, hown, hid⟩
    · next hcom =>
      cases hr
      exact move_keeps h ⟨hfunding, trivial, hevent, .inr ⟨hown, .inl hcom⟩⟩
  | updateToken => exact updateToken_keeps h hpc hr
  | advanceToken =>
    exact advance_keeps hr h hpc.event hok
      fun e' hadv => ⟨⟨hpc.funding.user, hpc.funding.subscription⟩, trivial, hadv, hpc.token⟩
  | commitToken =>
    cases hr
    exact commitToken_keeps h hpc
  | deliverLog =>
    cases hr
    exact move_keeps h ⟨hpc.funding, trivial, hpc.event, hpc.token⟩
  | deleteEvent =>
    obtain ⟨hown, hdone⟩ := hpc.event
    refine changeEvent_keeps h ⟨hpc.funding, hown, hpc.token⟩ (fun e e' hcom he => ?_) rfl rfl hr
    cases he
    rw [hcom] at hdone
    exact hdone.symm
  | recordFailure =>
    refine changeEvent_keeps h (hpc.idle rfl) (fun e e' _ he => ?_) rfl rfl hr
    cases he
    rfl
  | done => cases hr

/-! ### Other programs -/

theorem outside_keeps (hpc : WorkerInv task i s pc) (hpaid : PaidByStage task s') (hk : ∀ j, KeptFor j s s') : Keeps task i s (s', pc) :=
  ⟨hpaid, hpc.kept (hk i), fun j _ _ hq => hq.kept (hk j)⟩

theorem step_keeps {a : Action} {pc' : Pc} (h : PaidByStage task s) (hpc : WorkerInv task i s pc)
    (hok : StageMatches i s pc a) (hr : step task i s pc a = some (s', pc')) :
    Keeps task i s (s', pc') := by
  cases a with
  | run now => exact statement_keeps h hpc hok hr
  | fail =>
    simp only [step] at hr
    split at hr
    · cases hr
    · exact failed_keeps h hr
  | crash =>
    simp only [step] at hr
    split at hr
    · cases hr
    · cases hr
      exact abort_keeps h rfl
  | changeUser d =>
    obtain ⟨row, hrow, heq⟩ := Option.map_eq_some_iff.mp hr
    obtain ⟨hp, rfl⟩ := outside_some hrow
    cases heq
    exact outside_keeps hpc
      (h.of_committed rfl (creditOf_change _ _) rfl fun b hb => ⟨b, hb, rfl⟩)
      fun j => ⟨.rfl, Row.keptFor_stored hp, .rfl, .rfl, id, id⟩
  | changeSubscription d =>
    obtain ⟨row, hrow, heq⟩ := Option.map_eq_some_iff.mp hr
    obtain ⟨hp, rfl⟩ := outside_some hrow
    cases heq
    exact outside_keeps hpc
      (h.of_committed rfl rfl (creditOf_change _ _) fun b hb => ⟨b, hb, rfl⟩)
      fun j => ⟨.rfl, .rfl, Row.keptFor_stored hp, .rfl, id, id⟩
  | changeToken d =>
    obtain ⟨row, hrow, heq⟩ := Option.map_eq_some_iff.mp hr
    obtain ⟨hp, rfl⟩ := outside_some hrow
    cases heq
    refine outside_keeps hpc (h.of_committed rfl rfl rfl fun b hb => ?_)
      fun j => ⟨.rfl, .rfl, .rfl, Row.keptFor_stored hp, id, fun hg => ?_⟩
    · obtain ⟨b', hb', hchange⟩ := Option.bind_eq_some_iff.mp hb
      cases hchange
      exact ⟨b', hb', rfl⟩
    · simp [hg]
  | deleteToken =>
    obtain ⟨row, hrow, heq⟩ := Option.map_eq_some_iff.mp hr
    obtain ⟨hp, rfl⟩ := outside_some hrow
    cases heq
    have hgone : (s.token.committed.bind fun _ => (none : Option Balance)) = none := by
      cases s.token.committed <;> rfl
    refine outside_keeps hpc (h.of_committed rfl rfl rfl fun b hb => ?_)
      fun j => ⟨.rfl, .rfl, .rfl, Row.keptFor_stored hp, id, fun _ => hgone⟩
    cases hgone.symm.trans hb

structure Initial (s : State) : Prop where
  event : ∃ e, s.store.event = .stored (some e) ∧ e.stage = .pending
  user : s.store.user.pending = none ∧ creditOf s.store.user.committed = 0
  subscription :
    s.store.subscription.pending = none ∧ creditOf s.store.subscription.committed = 0
  token : s.store.token.pending = none ∧ ∀ b, s.store.token.committed = some b → b.credit = 0
  workers : ∀ i, s.point i = .claim

theorem initial_inv {s : State} (h : Initial s) :
    Interleaved (PaidByStage task) (WorkerInv task) s := by
  obtain ⟨e, hevent, hstage⟩ := h.event
  have hs : stageOf s.store.event.committed = .pending := by
    rw [hevent]
    exact hstage
  refine ⟨⟨?_, fun b hb => ?_⟩, fun i => ?_⟩
  · rw [h.user.2, h.subscription.2, if_pos hs]
    rfl
  · rw [h.token.2 b hb, hs, if_neg]
    rintro ⟨h, _⟩
    cases h
  · have hidle : Idle i s.store :=
      ⟨⟨creditOf_unwritten (Row.own_of_pending h.user.1),
        creditOf_unwritten (Row.own_of_pending h.subscription.1)⟩,
        by rw [hevent]; rfl, Row.own_of_pending h.token.1⟩
    rw [h.workers]
    exact hidle.resting rfl

/-- The refund is paid exactly as far as its stage says, in every run in which every stage
`UPDATE` matches the event row. -/
theorem refund_paid_by_stage {s t : State} (h0 : Initial s)
    (h : Reach (interleave (step task)) (Locally StageMatches) s t) : PaidByStage task t.store :=
  (h.interleaved (initial_inv h0) step_keeps).store

instance (i : ℕ) (s : Store) (pc : Pc) (a : Action) : Decidable (StageMatches i s pc a) := by
  unfold StageMatches
  split <;> infer_instance

def walletTask : Task := ⟨100, "wallet".toList, 0, [], 0, 1⟩

def refundDue : State where
  store := ⟨.stored (some ⟨.pending, 0, 0⟩), .stored (some ⟨0, 0⟩), .stored none,
    .stored (some ⟨0, 0⟩)⟩
  point := fun _ => .claim

theorem refundDue_initial : Initial refundDue where
  event := ⟨_, rfl, rfl⟩
  user := ⟨rfl, rfl⟩
  subscription := ⟨rfl, rfl⟩
  token := ⟨rfl, fun _ h => by cases h; rfl⟩
  workers _ := rfl

def outcome (s : State) : Stage × Option Balance × Option Balance :=
  (stageOf s.store.event.committed, s.store.user.committed, s.store.token.committed)

theorem refund_paid_by_one_worker :
    ∃ t, Reach (interleave (step walletTask)) (Locally StageMatches) refundDue t ∧
      outcome t = (.tokenDone, some ⟨100, 100⟩, some ⟨100, 100⟩) ∧
      PaidByStage walletTask t.store := by
  have hrun : (execute (interleave (step walletTask)) (Locally StageMatches)
      (List.replicate 18 (0, .run 0) ++ [(1, .run 61)]) refundDue).map
        (fun t => decide (outcome t = (.tokenDone, some ⟨100, 100⟩, some ⟨100, 100⟩))) =
      some true := by decide
  obtain ⟨t, ht, hout⟩ := exists_reach_of_execute hrun
  exact ⟨t, ht, of_decide_eq_true hout, refund_paid_by_stage refundDue_initial ht⟩

/-- The first worker stops after it has read the stage; its lease runs out at 60, a second
worker pays at 61, and the first one then pays again. -/
theorem refund_paid_twice :
    Initial refundDue ∧ ∃ t, Reach (interleave (step walletTask)) Any refundDue t ∧
      outcome t = (.fundingDone, some ⟨200, 200⟩, some ⟨0, 0⟩) ∧
      ¬ PaidByStage walletTask t.store := by
  have hrun : (execute (interleave (step walletTask)) Any
      (List.replicate 4 (0, .run 0) ++ List.replicate 8 (1, .run 61) ++
        List.replicate 4 (0, .run 62)) refundDue).map
        (fun t => decide (outcome t = (.fundingDone, some ⟨200, 200⟩, some ⟨0, 0⟩) ∧
          t.store.subscription.committed = none)) = some true := by decide
  obtain ⟨t, ht, hout⟩ := exists_reach_of_execute hrun
  obtain ⟨hout, hsub⟩ := of_decide_eq_true hout
  refine ⟨refundDue_initial, t, ht, hout, fun hpaid => ?_⟩
  obtain ⟨hstage, hrest⟩ := Prod.mk.inj hout
  obtain ⟨huser, _⟩ := Prod.mk.inj hrest
  have hfunding := hpaid.funding
  rw [hstage, huser, hsub] at hfunding
  revert hfunding
  decide

end NewApi.Model.TaskRefund
