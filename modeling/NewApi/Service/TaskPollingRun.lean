import Mathlib.Data.Nat.Notation
import NewApi.Lib.Interleaving
import NewApi.Lib.ReadCommitted
import NewApi.Service.TaskPolling

/-!
# One task under several pollers (service/task_polling.go, model/task.go)

A pass keeps its copy of the task after the first answer, so that a second answer starts from the
changed copy.
-/

namespace NewApi.Service.Polling

open Transition

namespace Run

/-- The row of the task, whether its refund event exists, and what has happened so far: how
often money moved, and the pass whose statement made the status terminal. -/
structure Store where
  task : Row ℕ Task
  event : Row ℕ Bool
  repriced : ℕ
  refunded : ℕ
  winner : Option ℕ

inductive Pc where
  | start
  | loaded (t : Task)
  | change (fromStatus : TaskStatus) (t : Task) (m : Money)
  | finish (fromStatus : TaskStatus) (t : Task) (m : Money)
  | finishWithRefund (fromStatus : TaskStatus) (t : Task)
  | createEvent (t : Task)
  | commit (t : Task)
  | settle (t : Task) (info : TaskInfo)
  | refund (t : Task)
  | done
  deriving DecidableEq, Repr

inductive Action where
  | load
  | sweep (now cutoff : ℤ) (reason : Text)
  | bulk (failReason : Option Text)
  | suno (item : SunoItem) (outcome : Outcome)
  | video (now : ℤ) (a : VideoAnswer)
  | run
  | fail
  | processed
  deriving DecidableEq, Repr

structure Setup where
  config : Config
  isSuno : Bool

def timedOut (now : ℤ) (reason : Text) (t : Task) : Task :=
  { t with status := .failure, progress := "100%".toList, finishTime := now, failReason := reason }

namespace Store

def abort (s : Store) (i : ℕ) : Store :=
  { s with task := s.task.abort i, event := s.event.abort i }

def update (s : Store) (i : ℕ) (t : Task) : Store :=
  { s with
    task := s.task.autocommit i t
    winner := if (s.task.select i).status ≠ t.status ∧ t.status.terminal then some i
      else s.winner }

def commitRefund (s : Store) (i : ℕ) : Store :=
  { s with
    task := s.task.commit i
    event := s.event.commit i
    refunded := s.refunded + 1
    winner := some i }

end Store

def afterMoney (t : Task) : Money → Pc
  | .keep => .loaded t
  | .settle info => .settle t info
  | .refund => .refund t

def afterWrite (t : Task) (m : Money) : Write → Pc
  | .skip => afterMoney t m
  | .change st => .change st t m
  | .finish st => .finish st t m
  | .finishWithRefund st => .finishWithRefund st t

def guarded (i : ℕ) (s : Store) (st : TaskStatus) (hit : Store × Pc) (miss : Pc) :
    Option (Store × Pc) :=
  if s.task.free i then
    if (s.task.select i).status = st then some hit else some (s, miss)
  else none

def step (c : Setup) (i : ℕ) (s : Store) : Pc → Action → Option (Store × Pc)
  | .start, .load =>
    if (s.task.select i).unfinished then some (s, .loaded (s.task.select i)) else none
  | .start, .sweep now cutoff reason =>
    let t := s.task.select i
    if t.unfinished ∧ t.submitTime < cutoff then
      some (s, .finish t.status (timedOut now reason t) .keep)
    else none
  | .start, .processed =>
    if s.event.free i then some ({ s with event := s.event.autocommit i false }, .done) else none
  -- a task without an upstream id, or whose channel is gone
  | .loaded t, .bulk failReason =>
    if failReason.isNone ↔ t.getUpstreamTaskID = [] then
      if s.task.free i then
        some ({ s with task := s.task.autocommit i (bulkFailed failReason (s.task.select i)) },
          .done)
      else none
    else none
  | .loaded t, .suno item outcome =>
    if c.isSuno ∧ t.getUpstreamTaskID ≠ [] ∧ item.taskId = t.getUpstreamTaskID then
      let r := sunoUpdate c.config t item outcome
      some (s, afterWrite r.1 .keep r.2)
    else none
  | .loaded t, .video now a =>
    if ¬ c.isSuno ∧ t.getUpstreamTaskID ≠ [] then
      let r := videoUpdate c.config now t a
      some (s, afterWrite r.1 r.2.2 r.2.1)
    else none
  | .change st t m, .run => guarded i s st (s.update i t, afterMoney t m) (afterMoney t m)
  | .change _ t m, .fail => some (s, afterMoney t m)
  | .finish st t m, .run => guarded i s st (s.update i t, afterMoney t m) (.loaded t)
  | .finish _ t _, .fail => some (s, .loaded t)
  | .finishWithRefund st t, .run =>
    guarded i s st ({ s with task := s.task.write i t }, .createEvent t) (.loaded t)
  | .finishWithRefund _ t, .fail => some (s, .loaded t)
  -- the event id is unique
  | .createEvent t, .run =>
    if s.event.free i then
      if s.event.select i then some (s.abort i, .loaded t)
      else some ({ s with event := s.event.write i true }, .commit t)
    else none
  | .createEvent t, .fail => some (s.abort i, .loaded t)
  | .commit t, .run => some (s.commitRefund i, .loaded t)
  | .commit t, .fail => some (s.abort i, .loaded t)
  | .settle t info, .run =>
    match repricedQuota c.config t info with
    | some q => some ({ s with repriced := s.repriced + 1 }, .loaded { t with quota := q })
    | none => some (s, .loaded t)
  | .settle t _, .fail => some (s, .loaded t)
  | .refund t, .run => some ({ s with refunded := s.refunded + 1 }, .loaded t)
  | .refund t, .fail => some (s, .loaded t)
  | _, _ => none

abbrev State := Processes ℕ Store Pc

def polled : TaskStatus → Bool
  | .submitted | .queued | .inProgress | .success | .failure => true
  | _ => false

def Repeats (t : Task) (outcome : Outcome) : Option TaskInfo → Prop
  | none => True
  | some info =>
    t.status.terminal = true → polled info.status = true →
      info.status = t.status ∧ (t.status = .success → t.perCallBilling = true) ∧
        (t.status = .failure → outcome ≠ .nonBillable ∨ t.quota = 0)

/-- A bulk update does not meet a success, no success comes with a fail reason and the proof
that nothing was billed, and a copy that is terminal gets no answer that differs from it or
moves money. -/
def Careful (_ : ℕ) (s : Store) : Pc → Action → Prop
  | .loaded _, .bulk _ => s.task.committed.status ≠ .success
  | .loaded t, .suno item outcome =>
    (t.status.terminal = true → item.status = .empty ∨ item.status = t.status) ∧
      ¬ (item.status = .success ∧ t.status ≠ .success ∧ item.failReason ≠ [] ∧
        outcome = .nonBillable ∧ t.quota ≠ 0)
  | .loaded t, .video _ a => Repeats t a.outcome (videoResult a)
  | _, _ => True

structure Right (j : ℕ) (s : Store) : Prop where
  winner : s.winner = some j
  unmoved : s.repriced + s.refunded = 0
  terminal : s.task.committed.status.terminal = true

structure StoreInv (fixed : Option TaskStatus) (s : Store) : Prop where
  unmoved : s.task.committed.status.terminal = false → s.repriced + s.refunded = 0
  noEvent : s.task.committed.status.terminal = false → s.event.committed = false
  event : s.event.committed = true → s.task.committed.status = .failure
  once : s.repriced + s.refunded ≤ 1
  final : ∀ st, fixed = some st → s.task.committed.status = st ∧ st.terminal = true

def Idle (i : ℕ) (s : Store) : Prop := s.task.own i = none ∧ s.event.own i = none

structure Refunding (i : ℕ) (s : Store) (t : Task) : Prop where
  own : s.task.own i = some t
  failure : t.status = .failure
  before : s.task.committed.status.terminal = false

def Harmless (c : Config) (t : Task) : Money → Prop
  | .keep => True
  | .settle info => repricedQuota c t info = none
  | .refund => False

def CallInv (c : Setup) (i : ℕ) (s : Store) : Pc → Prop
  | .start | .loaded _ | .done => Idle i s
  | .change st t m =>
    Idle i s ∧ (t.status.terminal = true → st = t.status) ∧
      (st.terminal = true → t.status = st) ∧ Harmless c.config t m
  | .finish st t m =>
    Idle i s ∧ st.terminal = false ∧ t.status.terminal = true ∧ m ≠ .refund
  | .finishWithRefund st t => Idle i s ∧ st.terminal = false ∧ t.status = .failure
  | .createEvent t => Refunding i s t ∧ s.event.own i = none
  | .commit t => Refunding i s t ∧ s.event.own i = some true
  | .settle t info => Idle i s ∧ (repricedQuota c.config t info = none ∨ Right i s)
  | .refund _ => False

structure KeptFor (j : ℕ) (s s' : Store) : Prop where
  task : s.task.KeptFor j s'.task
  event : s.event.KeptFor j s'.event
  right : Right j s → Right j s'

section Kept

variable {c : Setup} {j : ℕ} {s s' : Store} {t : Task}

theorem Idle.kept (h : Idle j s) (hk : KeptFor j s s') : Idle j s' :=
  ⟨hk.task.own.trans h.1, hk.event.own.trans h.2⟩

theorem Refunding.kept (h : Refunding j s t) (hk : KeptFor j s s') : Refunding j s' t := by
  refine ⟨hk.task.own.trans h.own, h.failure, ?_⟩
  rw [hk.task.committed t h.own]
  exact h.before

theorem CallInv.kept (pc : Pc) (h : CallInv c j s pc) (hk : KeptFor j s s') :
    CallInv c j s' pc := by
  cases pc with
  | start | loaded t | done => exact Idle.kept h hk
  | change st t m | finish st t m | finishWithRefund st t => exact ⟨h.1.kept hk, h.2⟩
  | createEvent t | commit t => exact ⟨h.1.kept hk, hk.event.own.trans h.2⟩
  | settle t info => exact ⟨h.1.kept hk, h.2.imp_right hk.right⟩
  | refund t => exact h

end Kept

section Statements

variable {c : Setup} {fixed : Option TaskStatus} {i : ℕ} {s : Store} {t : Task}

theorem move_keepsAll {pc : Pc} (h : StoreInv fixed s) (hpc : CallInv c i s pc) :
    KeepsAll (StoreInv fixed) (CallInv c) i s s pc :=
  ⟨h, hpc, fun _ _ _ hq => hq⟩

theorem abort_keepsAll (h : StoreInv fixed s) :
    KeepsAll (StoreInv fixed) (CallInv c) i s (s.abort i) (.loaded t) := by
  have htask : (s.abort i).task.committed = s.task.committed := Row.abort_committed
  have hevent : (s.abort i).event.committed = s.event.committed := Row.abort_committed
  refine ⟨⟨?_, ?_, ?_, h.once, ?_⟩, ⟨Row.own_abort_self, Row.own_abort_self⟩, ?_⟩
  · rw [htask]
    exact h.unmoved
  · rw [htask, hevent]
    exact h.noEvent
  · rw [htask, hevent]
    exact h.event
  · rw [htask]
    exact h.final
  · intro j pc hne hq
    refine hq.kept pc ⟨Row.keptFor_abort hne, Row.keptFor_abort hne, fun hr => ?_⟩
    exact ⟨hr.winner, hr.unmoved, by rw [htask]; exact hr.terminal⟩

theorem afterMoney_harmless {m : Money} (hidle : Idle i s) (hm : Harmless c.config t m) :
    CallInv c i s (afterMoney t m) := by
  cases m with
  | keep => exact hidle
  | settle info => exact ⟨hidle, .inl hm⟩
  | refund => exact hm.elim

theorem afterMoney_won {m : Money} (hidle : Idle i s) (hr : Right i s) (hm : m ≠ .refund) :
    CallInv c i s (afterMoney t m) := by
  cases m with
  | keep => exact hidle
  | settle info => exact ⟨hidle, .inr hr⟩
  | refund => exact absurd rfl hm

theorem keep_ne_refund : Money.keep ≠ .refund := by
  intro h
  cases h

theorem update_task : (s.update i t).task.committed = t := Row.autocommit_committed

section

variable (h : StoreInv fixed s)
include h

theorem finish_keepsAll {m : Money} (hidle : Idle i s)
    (hst : s.task.committed.status.terminal = false) (ht : t.status.terminal = true)
    (hm : m ≠ .refund) (hf : s.task.free i = true) :
    KeepsAll (StoreInv fixed) (CallInv c) i s (s.update i t) (afterMoney t m) := by
  have hsel : s.task.select i = s.task.committed := Row.select_of_none hidle.1
  have hne : s.task.committed.status ≠ t.status := by
    intro he
    rw [he, ht] at hst
    cases hst
  have hidle' : Idle i (s.update i t) := ⟨Row.own_autocommit_self, hidle.2⟩
  have hright : Right i (s.update i t) := by
    refine ⟨?_, h.unmoved hst, ?_⟩
    · simp only [Store.update, hsel]
      exact if_pos ⟨hne, ht⟩
    · rw [update_task]
      exact ht
  refine ⟨⟨?_, ?_, ?_, h.once, ?_⟩, afterMoney_won hidle' hright hm, ?_⟩
  · rw [update_task, ht]
    intro hn
    cases hn
  · rw [update_task, ht]
    intro hn
    cases hn
  · intro he
    have hno : s.event.committed = false := h.noEvent hst
    rw [show (s.update i t).event = s.event from rfl, hno] at he
    cases he
  · intro st hfix
    obtain ⟨heq, hterm⟩ := h.final st hfix
    rw [heq, hterm] at hst
    cases hst
  · intro j pc hne hq
    refine hq.kept pc ⟨Row.keptFor_autocommit hf hne, .rfl, fun hr => ?_⟩
    have hterm := hr.terminal
    rw [hst] at hterm
    cases hterm

theorem change_keepsAll {m : Money} (hidle : Idle i s)
    (hto : t.status.terminal = true → s.task.committed.status = t.status)
    (hfrom : s.task.committed.status.terminal = true → t.status = s.task.committed.status)
    (hm : Harmless c.config t m) (hf : s.task.free i = true) :
    KeepsAll (StoreInv fixed) (CallInv c) i s (s.update i t) (afterMoney t m) := by
  have hsel : s.task.select i = s.task.committed := Row.select_of_none hidle.1
  have hwinner : (s.update i t).winner = s.winner := by
    simp only [Store.update, hsel]
    exact if_neg fun hc => hc.1 (hto hc.2)
  have hopen : t.status.terminal = false → s.task.committed.status.terminal = false := by
    intro ht
    cases hc : s.task.committed.status.terminal with
    | false => rfl
    | true =>
      rw [hfrom hc, hc] at ht
      cases ht
  have hidle' : Idle i (s.update i t) := ⟨Row.own_autocommit_self, hidle.2⟩
  refine ⟨⟨?_, ?_, ?_, h.once, ?_⟩, afterMoney_harmless hidle' hm, ?_⟩
  · rw [update_task]
    exact fun ht => h.unmoved (hopen ht)
  · rw [update_task]
    exact fun ht => h.noEvent (hopen ht)
  · intro he
    have hfail : s.task.committed.status = .failure := h.event he
    rw [update_task, hfrom (by rw [hfail]; rfl), hfail]
  · intro st hfix
    obtain ⟨heq, hterm⟩ := h.final st hfix
    rw [update_task, hfrom (by rw [heq]; exact hterm), heq]
    exact ⟨rfl, hterm⟩
  · intro j pc hne hq
    refine hq.kept pc ⟨Row.keptFor_autocommit hf hne, .rfl, fun hr => ?_⟩
    refine ⟨hwinner.trans hr.winner, hr.unmoved, ?_⟩
    rw [update_task, hfrom hr.terminal]
    exact hr.terminal

theorem bulk_keepsAll {failReason : Option Text} (hidle : Idle i s)
    (hok : s.task.committed.status ≠ .success) (hf : s.task.free i = true) :
    KeepsAll (StoreInv fixed) (CallInv c) i s
      { s with task := s.task.autocommit i (bulkFailed failReason (s.task.select i)) } .done := by
  have htask : (s.task.autocommit i (bulkFailed failReason (s.task.select i))).committed.status =
      .failure := by
    rw [Row.autocommit_committed]
    rfl
  refine ⟨⟨?_, ?_, fun _ => htask, h.once, ?_⟩, ⟨Row.own_autocommit_self, hidle.2⟩, ?_⟩
  · intro hn
    rw [htask] at hn
    cases hn
  · intro hn
    rw [htask] at hn
    cases hn
  · intro st hfix
    obtain ⟨heq, hterm⟩ := h.final st hfix
    -- the status was terminal and no success, so the update writes what was there
    have hfail : st = .failure := by
      rcases TaskStatus.terminal_iff.mp hterm with hs | hs
      · exact absurd (heq.trans hs) hok
      · exact hs
    exact ⟨htask.trans hfail.symm, hterm⟩
  · intro j pc hne hq
    refine hq.kept pc ⟨Row.keptFor_autocommit hf hne, .rfl, fun hr => ?_⟩
    exact ⟨hr.winner, hr.unmoved, by rw [htask]; rfl⟩

theorem write_keepsAll (hidle : Idle i s) (hst : s.task.committed.status.terminal = false)
    (ht : t.status = .failure) (hf : s.task.free i = true) :
    KeepsAll (StoreInv fixed) (CallInv c) i s { s with task := s.task.write i t }
      (.createEvent t) := by
  refine ⟨⟨h.unmoved, h.noEvent, h.event, h.once, h.final⟩,
    ⟨⟨Row.own_write_self, ht, hst⟩, hidle.2⟩, fun j pc hne hq => ?_⟩
  exact hq.kept pc ⟨Row.keptFor_write hf hne, .rfl, fun hr => ⟨hr.winner, hr.unmoved, hr.terminal⟩⟩

theorem createEvent_keepsAll (hr : Refunding i s t) (hf : s.event.free i = true) :
    KeepsAll (StoreInv fixed) (CallInv c) i s { s with event := s.event.write i true }
      (.commit t) := by
  refine ⟨⟨h.unmoved, h.noEvent, h.event, h.once, h.final⟩,
    ⟨⟨hr.own, hr.failure, hr.before⟩, Row.own_write_self⟩, fun j pc hne hq => ?_⟩
  exact hq.kept pc ⟨.rfl, Row.keptFor_write hf hne, fun hr => ⟨hr.winner, hr.unmoved, hr.terminal⟩⟩

theorem commitRefund_keepsAll (hr : Refunding i s t) :
    KeepsAll (StoreInv fixed) (CallInv c) i s (s.commitRefund i) (.loaded t) := by
  have htask : (s.commitRefund i).task.committed = t := by
    simp [Store.commitRefund, Row.commit_committed, hr.own]
  have hzero : s.repriced + s.refunded = 0 := h.unmoved hr.before
  refine ⟨⟨?_, ?_, ?_, ?_, ?_⟩, ⟨Row.own_commit_self, Row.own_commit_self⟩, ?_⟩
  · rw [htask, hr.failure]
    intro hn
    cases hn
  · rw [htask, hr.failure]
    intro hn
    cases hn
  · rw [htask]
    exact fun _ => hr.failure
  · show s.repriced + (s.refunded + 1) ≤ 1
    omega
  · intro st hfix
    obtain ⟨heq, hterm⟩ := h.final st hfix
    have hbefore := hr.before
    rw [heq, hterm] at hbefore
    cases hbefore
  · intro j pc hne hq
    refine hq.kept pc ⟨Row.keptFor_commit hne, Row.keptFor_commit hne, fun hj => ?_⟩
    have hterm := hj.terminal
    rw [hr.before] at hterm
    cases hterm

theorem reprice_keepsAll (hidle : Idle i s) (hr : Right i s) :
    KeepsAll (StoreInv fixed) (CallInv c) i s { s with repriced := s.repriced + 1 }
      (.loaded t) := by
  have hzero := hr.unmoved
  refine ⟨⟨?_, h.noEvent, h.event, ?_, h.final⟩, hidle, ?_⟩
  · intro hn
    have hterm := hr.terminal
    rw [show s.task.committed.status.terminal = false from hn] at hterm
    cases hterm
  · show s.repriced + 1 + s.refunded ≤ 1
    omega
  · intro j pc hne hq
    -- there is one winner, so no other pass still waits to move money
    refine hq.kept pc ⟨.rfl, .rfl, fun hj => ?_⟩
    have hw := hj.winner
    rw [hr.winner] at hw
    exact absurd (Option.some.inj hw).symm hne

theorem processed_keepsAll (hidle : Idle i s) (hf : s.event.free i = true) :
    KeepsAll (StoreInv fixed) (CallInv c) i s { s with event := s.event.autocommit i false }
      .done := by
  have hevent : (s.event.autocommit i false).committed = false := Row.autocommit_committed
  refine ⟨⟨h.unmoved, fun _ => hevent, ?_, h.once, h.final⟩, ⟨hidle.1, Row.own_autocommit_self⟩,
    fun j pc hne hq => ?_⟩
  · intro he
    rw [show (s.event.autocommit i false).committed = true from he] at hevent
    cases hevent
  · exact hq.kept pc ⟨.rfl, Row.keptFor_autocommit hf hne,
      fun hr => ⟨hr.winner, hr.unmoved, hr.terminal⟩⟩

end

end Statements

end Run

end NewApi.Service.Polling
