import NewApi.Service.TaskPollingRun

/-!
# A terminal task status is final (service/task_polling.go)

In every run without the three slips.
-/

namespace NewApi.Service.Polling

open Transition

namespace Run

section Answers

variable {c : Setup} {i : ℕ} {s : Store} {t : Task}

variable {item : SunoItem} {outcome : Outcome} {info : TaskInfo} {t' : Task} {now : ℤ}

theorem afterWrite_inv {w : Write} {m : Money} (hidle : Idle i s) (hfits : w.Fits t t')
    (hkeep : w ≠ .skip → t.status.terminal = true → t'.status = t.status)
    (hskip : w = .skip → Harmless c.config t' m)
    (hchange : ∀ st, w = .change st → Harmless c.config t' m)
    (hfinish : ∀ st, w = .finish st → m ≠ .refund)
    (hrefund : ∀ st, w = .finishWithRefund st → t'.status = .failure) :
    CallInv c i s (afterWrite t' m w) := by
  have hopen (hw : w ≠ .skip) (hne : t.status ≠ t'.status) : t.status.terminal = false := by
    cases ht : t.status.terminal with
    | false => rfl
    | true => exact absurd (hkeep hw ht).symm hne
  cases hfits with
  | skip => exact afterMoney_harmless hidle (hskip rfl)
  | change hto => exact ⟨hidle, hto, hkeep nofun, hchange _ rfl⟩
  | finish ht hne => exact ⟨hidle, hopen nofun hne, ht, hfinish _ rfl⟩
  | finishWithRefund ht hne hq => exact ⟨hidle, hopen nofun hne, hrefund _ rfl⟩

theorem sunoStatus_of_terminal (h : item.status = .empty ∨ item.status = t.status) :
    sunoStatus t item = t.status := by
  unfold sunoStatus
  rcases h with h | h
  · rw [if_neg (not_not_intro h)]
  · split
    · exact h
    · rfl

theorem sunoUpdate_status {c : Config} (h : (sunoUpdate c t item outcome).2 ≠ .skip) :
    (sunoUpdate c t item outcome).1 = sunoTask t item := by
  unfold sunoUpdate at h ⊢
  split
  · next hn => exact absurd (by rw [if_pos hn]) h
  · dsimp only
    split
    · split <;> rfl
    · rfl

theorem sunoUpdate_refund {c : Config} {st : TaskStatus}
    (h : (sunoUpdate c t item outcome).2 = .finishWithRefund st) :
    sunoFailed t item = true ∧ outcome = .nonBillable ∧ t.quota ≠ 0 ∧
      (sunoStatus t item).terminal = true ∧ t.status ≠ sunoStatus t item := by
  unfold sunoUpdate at h
  split at h
  · cases h
  dsimp only at h
  split at h
  · next hterm =>
    split at h
    · next hfailed =>
      simp only [transitionTaskTerminalFailure] at h
      split at h
      · cases h
      rename_i hn
      have hout : outcome = .nonBillable := by
        by_cases ho : outcome = .nonBillable
        · exact ho
        · exact absurd (.inl ho) hn
      exact ⟨hfailed, hout, fun hq => hn (.inr hq), hterm.1, hterm.2⟩
    · cases h
  · cases h

theorem suno_inv (hidle : Idle i s) (hok : Careful i s (.loaded t) (.suno item outcome)) :
    CallInv c i s (afterWrite (sunoUpdate c.config t item outcome).1 .keep
      (sunoUpdate c.config t item outcome).2) := by
  obtain ⟨hsame, hslip⟩ := hok
  refine afterWrite_inv hidle (sunoUpdate_fits c.config t item outcome) ?_ (fun _ => trivial)
    (fun _ _ => trivial) (fun _ _ => keep_ne_refund) ?_
  · intro hw ht
    rw [sunoUpdate_status hw]
    exact sunoStatus_of_terminal (hsame ht)
  · intro st hw
    obtain ⟨hfailed, hout, hquota, hterm, hne⟩ := sunoUpdate_refund hw
    rw [sunoUpdate_status (by rw [hw]; nofun)]
    rcases TaskStatus.terminal_iff.mp hterm with hs | hs
    · -- a success that counts as failed has a fail reason, which is the slip
      have hreason : item.failReason ≠ [] := by
        intro hr
        simp only [sunoFailed, hr, hs] at hfailed
        exact absurd hfailed (by decide)
      have hitem : item.status = .success := by
        unfold sunoStatus at hs
        split at hs
        · exact hs
        · next hempty =>
          have hsame := sunoStatus_of_terminal (t := t) (.inl (Decidable.of_not_not hempty))
          exact absurd hsame.symm hne
      have hold : t.status ≠ .success := fun ho => hne (ho.trans hs.symm)
      exact absurd ⟨hitem, hold, hreason, hout, hquota⟩ hslip
    · exact hs

theorem videoTask_status {c : Config} (h : videoTask c now t info = some t') :
    t'.status = info.status ∧ polled info.status = true ∧ t'.quota = t.quota ∧
      t'.perCallBilling = t.perCallBilling := by
  unfold videoTask at h
  dsimp only at h
  split at h
  all_goals first
    | cases h
      next hs => exact ⟨hs.symm, by rw [hs]; rfl, rfl, rfl⟩
    | cases h

theorem repricedQuota_perCall {c : Config} (h : t.perCallBilling = true) :
    repricedQuota c t info = none := by
  simp [repricedQuota, finalQuota, h]

theorem moneyAfter_harmless {c : Config} {a : VideoAnswer} {d : Text}
    (h : videoTask c now { t with data := d } info = some t')
    (hn : ¬ (t'.status.terminal = true ∧ t.status ≠ t'.status))
    (hok : Repeats t a.outcome (some info)) : Harmless c t' (moneyAfter t' info a.outcome) := by
  obtain ⟨hs, hpolled, hquota, hcall⟩ := videoTask_status h
  have hold (ht : t'.status.terminal = true) : t.status = t'.status := by
    by_cases he : t.status = t'.status
    · exact he
    · exact absurd ⟨ht, he⟩ hn
  unfold moneyAfter
  split
  · next hsucc =>
    have he : t.status = .success := (hold (by rw [hsucc]; rfl)).trans hsucc
    have hper := (hok (by rw [he]; rfl) hpolled).2.1 he
    exact repricedQuota_perCall (hcall.trans hper)
  · split
    · next hfail =>
      obtain ⟨hf, hq, hout⟩ := hfail
      have he : t.status = .failure := (hold (by rw [hf]; rfl)).trans hf
      rcases (hok (by rw [he]; rfl) hpolled).2.2 he with ho | ho
      · exact absurd hout ho
      · exact absurd (hquota.trans ho) hq
    · exact trivial

theorem video_inv {a : VideoAnswer} (hidle : Idle i s)
    (hok : Careful i s (.loaded t) (.video now a)) :
    CallInv c i s (afterWrite (videoUpdate c.config now t a).1 (videoUpdate c.config now t a).2.2
      (videoUpdate c.config now t a).2.1) := by
  have hfits := videoUpdate_fits c.config now t a
  unfold Careful at hok
  unfold videoUpdate at hfits ⊢
  cases hres : videoResult a with
  | none => exact hidle
  | some info =>
    simp only [hres] at hok hfits ⊢
    cases htask : videoTask c.config now { t with data := a.data } info with
    | none => exact hidle
    | some t' =>
      simp only [htask] at hfits ⊢
      obtain ⟨hs, hpolled, hquota, hcall⟩ := videoTask_status htask
      have hkeep (ht : t.status.terminal = true) : t'.status = t.status :=
        hs.trans (hok ht hpolled).1
      by_cases hterm : t'.status.terminal = true ∧ t.status ≠ t'.status
      · simp only [if_pos hterm] at hfits ⊢
        by_cases hfail : t'.status = .failure ∧ t'.quota ≠ 0
        · simp only [if_pos hfail] at hfits ⊢
          exact afterWrite_inv hidle hfits (fun _ => hkeep) (fun _ => trivial)
            (fun _ _ => trivial) (fun _ _ => keep_ne_refund) (fun _ _ => hfail.1)
        · simp only [if_neg hfail] at hfits ⊢
          refine afterWrite_inv hidle hfits (fun _ => hkeep) nofun nofun (fun _ _ => ?_) nofun
          split <;> nofun
      · have hmoney := moneyAfter_harmless htask hterm hok
        simp only [if_neg hterm] at hfits ⊢
        by_cases hsnap : sameSnapshot t t' = true
        · simp only [if_pos hsnap] at hfits ⊢
          exact afterWrite_inv hidle hfits (fun _ => hkeep) (fun _ => hmoney) nofun nofun nofun
        · simp only [if_neg hsnap] at hfits ⊢
          exact afterWrite_inv hidle hfits (fun _ => hkeep) nofun (fun _ _ => hmoney) nofun nofun

end Answers

variable {fixed : Option TaskStatus} {c : Setup} {s u : Store} {i : ℕ} {pc : Pc}

theorem guarded_cases {s : Store} {st : TaskStatus} {hit r : Store × Pc} {miss : Pc}
    (hidle : Idle i s) (h : guarded i s st hit miss = some r) :
    s.task.free i = true ∧ ((s.task.committed.status = st ∧ r = hit) ∨ r = (s, miss)) := by
  rw [guarded, Row.select_of_none hidle.1] at h
  split at h
  · next hf =>
    refine ⟨hf, ?_⟩
    split at h
    · next hst => exact .inl ⟨hst, (Option.some.inj h).symm⟩
    · exact .inr (Option.some.inj h).symm
  · cases h

theorem start_keepsAll (a : Action) (h : StoreInv fixed s) (hidle : Idle i s)
    (hstep : step c i s .start a = some (u, pc)) :
    KeepsAll (StoreInv fixed) (CallInv c) i s u pc := by
  cases a with
  | load =>
    simp only [step] at hstep
    split at hstep
    · cases hstep
      exact move_keepsAll h hidle
    · cases hstep
  | sweep now cutoff reason =>
    obtain ⟨hcond, hstep⟩ := Option.ite_none_right_eq_some.mp hstep
    cases hstep
    have hopen : (s.task.select i).status.terminal = false := by
      have hu := hcond.1
      simp only [Task.unfinished, Bool.and_eq_true, Bool.not_eq_true'] at hu
      exact hu.2
    exact move_keepsAll h ⟨hidle, hopen, rfl, keep_ne_refund⟩
  | processed =>
    obtain ⟨hf, hstep⟩ := Option.ite_none_right_eq_some.mp hstep
    cases hstep
    exact processed_keepsAll h hidle hf
  | bulk _ | suno _ _ | video _ _ | run | fail => cases hstep

theorem loaded_keepsAll {t : Task} (a : Action) (h : StoreInv fixed s) (hidle : Idle i s)
    (hok : Careful i s (.loaded t) a) (hstep : step c i s (.loaded t) a = some (u, pc)) :
    KeepsAll (StoreInv fixed) (CallInv c) i s u pc := by
  cases a with
  | bulk failReason =>
    simp only [step] at hstep
    split at hstep
    · split at hstep
      · next hf =>
        cases hstep
        exact bulk_keepsAll h hidle hok hf
      · cases hstep
    · cases hstep
  | suno item outcome =>
    simp only [step] at hstep
    split at hstep
    · cases hstep
      exact move_keepsAll h (suno_inv hidle hok)
    · cases hstep
  | video now a =>
    simp only [step] at hstep
    split at hstep
    · cases hstep
      exact move_keepsAll h (video_inv hidle hok)
    · cases hstep
  | load | sweep _ _ _ | run | fail | processed => cases hstep

theorem run_keepsAll (pc₀ : Pc) (h : StoreInv fixed s) (hpc : CallInv c i s pc₀)
    (hstep : step c i s pc₀ .run = some (u, pc)) :
    KeepsAll (StoreInv fixed) (CallInv c) i s u pc := by
  cases pc₀ with
  | change st t m =>
    obtain ⟨hidle, hto, hfrom, hm⟩ := hpc
    obtain ⟨hf, ⟨rfl, hr⟩ | hr⟩ := guarded_cases hidle hstep
    · cases hr
      exact change_keepsAll h hidle hto hfrom hm hf
    · cases hr
      exact move_keepsAll h (afterMoney_harmless hidle hm)
  | finish st t m =>
    obtain ⟨hidle, hopen, hterm, hm⟩ := hpc
    obtain ⟨hf, ⟨rfl, hr⟩ | hr⟩ := guarded_cases hidle hstep
    · cases hr
      exact finish_keepsAll h hidle hopen hterm hm hf
    · cases hr
      exact move_keepsAll h hidle
  | finishWithRefund st t =>
    obtain ⟨hidle, hopen, hfail⟩ := hpc
    obtain ⟨hf, ⟨rfl, hr⟩ | hr⟩ := guarded_cases hidle hstep
    · cases hr
      exact write_keepsAll h hidle hopen hfail hf
    · cases hr
      exact move_keepsAll h hidle
  | createEvent t =>
    obtain ⟨hf, hstep⟩ := Option.ite_none_right_eq_some.mp hstep
    split at hstep
    · cases hstep
      exact abort_keepsAll h
    · cases hstep
      exact createEvent_keepsAll h hpc.1 hf
  | commit t =>
    cases hstep
    exact commitRefund_keepsAll h hpc.1
  | settle t info =>
    simp only [step] at hstep
    split at hstep
    · next q hq =>
      cases hstep
      rcases hpc.2 with hnone | hright
      · rw [hq] at hnone
        cases hnone
      · exact reprice_keepsAll h hpc.1 hright
    · cases hstep
      exact move_keepsAll h hpc.1
  | refund t => exact hpc.elim
  | start | loaded t | done => cases hstep

theorem fail_keepsAll (pc₀ : Pc) (h : StoreInv fixed s) (hpc : CallInv c i s pc₀)
    (hstep : step c i s pc₀ .fail = some (u, pc)) :
    KeepsAll (StoreInv fixed) (CallInv c) i s u pc := by
  cases pc₀ with
  | change st t m =>
    cases hstep
    exact move_keepsAll h (afterMoney_harmless hpc.1 hpc.2.2.2)
  | finish st t m | finishWithRefund st t | settle t info =>
    cases hstep
    exact move_keepsAll h hpc.1
  | createEvent t | commit t =>
    cases hstep
    exact abort_keepsAll h
  | refund t => exact hpc.elim
  | start | loaded t | done => cases hstep

theorem step_keepsAll {a : Action} {pc₀ : Pc} (h : StoreInv fixed s) (hpc : CallInv c i s pc₀)
    (hok : Careful i s pc₀ a) (hstep : step c i s pc₀ a = some (u, pc)) :
    KeepsAll (StoreInv fixed) (CallInv c) i s u pc := by
  by_cases hstart : pc₀ = .start
  · subst hstart
    exact start_keepsAll a h hpc hstep
  · cases a with
    | run => exact run_keepsAll pc₀ h hpc hstep
    | fail => exact fail_keepsAll pc₀ h hpc hstep
    | _ =>
      cases pc₀ with
      | start => exact absurd rfl hstart
      | loaded t => exact loaded_keepsAll _ h hpc hok hstep
      | _ => cases hstep

structure Initial (s : State) : Prop where
  rows : ∀ i, Idle i s.store
  calls : ∀ i, s.point i = .start
  noEvent : s.store.event.committed = false
  unmoved : s.store.repriced + s.store.refunded = 0

theorem Initial.interleaved {s : State} (h : Initial s) :
    Interleaved (StoreInv none) (CallInv c) s := by
  refine ⟨⟨fun _ => h.unmoved, fun _ => h.noEvent, ?_, ?_, nofun⟩, fun i => ?_⟩
  · intro he
    rw [h.noEvent] at he
    cases he
  · rw [h.unmoved]
    exact Nat.zero_le 1
  · rw [h.calls]
    exact h.rows i

theorem interleaved_fixed {t : State} (h : Interleaved (StoreInv none) (CallInv c) t)
    (hterm : t.store.task.committed.status.terminal = true) :
    Interleaved (StoreInv (some t.store.task.committed.status)) (CallInv c) t := by
  refine ⟨{ h.store with final := ?_ }, h.procs⟩
  intro st hst
  cases hst
  exact ⟨rfl, hterm⟩

/-- From `t` to `u` a terminal status stays, a refund event stands only beside a failure, and the
task has been repriced or refunded at most once. -/
structure FinalOnce (t u : Store) : Prop where
  final : t.task.committed.status.terminal = true →
    u.task.committed.status = t.task.committed.status
  event : u.event.committed = true → u.task.committed.status = .failure
  once : u.repriced + u.refunded ≤ 1

/-- A terminal status is final, an event means failure, and money moves at most once. -/
theorem terminal_status_final {c : Setup} {s t u : State} (h0 : Initial s)
    (ht : Reach (interleave (step c)) (Locally Careful) s t)
    (hu : Reach (interleave (step c)) (Locally Careful) t u) : FinalOnce t.store u.store := by
  have hinvt := ht.interleaved (h0.interleaved (c := c)) step_keepsAll
  have hinvu := hu.interleaved hinvt step_keepsAll
  refine ⟨fun hterm => ?_, hinvu.store.event, hinvu.store.once⟩
  have hfixed := hu.interleaved (interleaved_fixed hinvt hterm) step_keepsAll
  exact (hfixed.store.final _ rfl).1

instance (t : Task) (outcome : Outcome) :
    (r : Option TaskInfo) → Decidable (Repeats t outcome r)
  | none => inferInstanceAs (Decidable True)
  | some _ => inferInstanceAs (Decidable (_ → _ → _ ∧ _ ∧ _))

instance (i : ℕ) (s : Store) : (pc : Pc) → (a : Action) → Decidable (Careful i s pc a)
  | .loaded _, .bulk _ => inferInstanceAs (Decidable (_ ≠ _))
  | .loaded _, .suno _ _ => inferInstanceAs (Decidable (_ ∧ _))
  | .loaded _, .video _ _ => inferInstanceAs (Decidable (Repeats _ _ _))
  | .loaded _, .load | .loaded _, .sweep _ _ _ | .loaded _, .run | .loaded _, .fail
  | .loaded _, .processed => inferInstanceAs (Decidable True)
  | .start, _ | .change _ _ _, _ | .finish _ _ _, _ | .finishWithRefund _ _, _
  | .createEvent _, _ | .commit _, _ | .settle _ _, _ | .refund _, _ | .done, _ =>
    inferInstanceAs (Decidable True)

def sampleConfig : Config := ⟨[], id, fun _ _ => 40, fun _ _ => none⟩

def videoSetup : Setup := ⟨sampleConfig, false⟩

def sunoSetup : Setup := ⟨sampleConfig, true⟩

def runningTask : Task :=
  ⟨1, "a".toList, "u".toList, 7, 100, false, .inProgress, [], 1, 1, 0, "30%".toList, [], []⟩

def runningState : State := ⟨⟨.stored runningTask, .stored false, 0, 0, none⟩, fun _ => .start⟩

theorem runningState_initial : Initial runningState :=
  ⟨fun _ => ⟨rfl, rfl⟩, fun _ => rfl, rfl, rfl⟩

def answer (status : TaskStatus) : VideoAnswer :=
  ⟨⟨status, [], [], [], 0⟩, .unreadable, [], .nonBillable⟩

def outcome (s : State) : TaskStatus × Bool × ℕ × ℕ :=
  (s.store.task.committed.status, s.store.event.committed, s.store.repriced, s.store.refunded)

theorem terminal_status_final_two_passes :
    ∃ t u, Reach (interleave (step videoSetup)) (Locally Careful) runningState t ∧
      Reach (interleave (step videoSetup)) (Locally Careful) t u ∧
      outcome t = (.success, false, 0, 0) ∧ outcome u = (.success, false, 1, 0) ∧
      FinalOnce t.store u.store := by
  have hrun : ((execute (interleave (step videoSetup)) (Locally Careful)
      [(0, .load), (1, .load), (0, .video 5 (answer .success)), (0, .run)] runningState).bind
        fun t => (execute (interleave (step videoSetup)) (Locally Careful)
          [(1, .video 6 (answer .failure)), (1, .run), (0, .run)] t).map fun u =>
            decide (outcome t = (.success, false, 0, 0) ∧ outcome u = (.success, false, 1, 0))) =
      some true := by
    decide +kernel
  obtain ⟨t, u, ht, hu, hout⟩ := exists_reach_of_execute_twice hrun
  have hout := of_decide_eq_true hout
  exact ⟨t, u, ht, hu, hout.1, hout.2, terminal_status_final runningState_initial ht hu⟩

def Breaks (c : Setup) (x y : TaskStatus × Bool × ℕ × ℕ) : Prop :=
  ∃ t u, Reach (interleave (step c)) Any runningState t ∧
    Reach (interleave (step c)) Any t u ∧ outcome t = x ∧ outcome u = y ∧
    ¬ FinalOnce t.store u.store

theorem breaks_of_execute {es fs : List (ℕ × Action)} {x y : TaskStatus × Bool × ℕ × ℕ}
    (hrun : ((execute (interleave (step c)) Any es runningState).bind fun t =>
      (execute (interleave (step c)) Any fs t).map fun u =>
        decide (outcome t = x ∧ outcome u = y)) = some true)
    (hbad : ¬ ((x.1.terminal = true → y.1 = x.1) ∧ (y.2.1 = true → y.1 = .failure) ∧
      y.2.2.1 + y.2.2.2 ≤ 1)) : Breaks c x y := by
  obtain ⟨t, u, ht, hu, hout⟩ := exists_reach_of_execute_twice hrun
  obtain ⟨hx, hy⟩ := of_decide_eq_true hout
  refine ⟨t, u, ht, hu, hx, hy, fun h => hbad ?_⟩
  rw [← hx, ← hy]
  exact ⟨h.final, h.event, h.once⟩

def successWithReason : SunoItem := ⟨"u".toList, .success, "moderated".toList, 1, 1, 2, []⟩

/-- The bulk update of a pass whose channel is gone turns a success into a failure; a success
with a fail reason is stored with a refund event; a pass that gets a success and then a failure
for one copy re-prices and refunds the task. -/
theorem terminal_status_overwritten :
    Initial runningState ∧
      Breaks videoSetup (.success, false, 0, 0) (.failure, false, 0, 0) ∧
      Breaks sunoSetup (.inProgress, false, 0, 0) (.success, true, 0, 1) ∧
      Breaks videoSetup (.success, false, 1, 0) (.failure, true, 1, 1) := by
  refine ⟨runningState_initial, ?_, ?_, ?_⟩
  · have hrun : ((execute (interleave (step videoSetup)) Any
        [(0, .load), (1, .load), (0, .video 5 (answer .success)), (0, .run)] runningState).bind
          fun t => (execute (interleave (step videoSetup)) Any [(1, .bulk (some []))] t).map
            fun u => decide (outcome t = (.success, false, 0, 0) ∧
              outcome u = (.failure, false, 0, 0))) = some true := by
      decide +kernel
    exact breaks_of_execute hrun (by decide)
  · have hrun : ((execute (interleave (step sunoSetup)) Any
        [(0, .load), (0, .suno successWithReason .nonBillable), (0, .run)] runningState).bind
          fun t => (execute (interleave (step sunoSetup)) Any [(0, .run), (0, .run)] t).map
            fun u => decide (outcome t = (.inProgress, false, 0, 0) ∧
              outcome u = (.success, true, 0, 1))) = some true := by
      decide +kernel
    exact breaks_of_execute hrun (by decide)
  · have hrun : ((execute (interleave (step videoSetup)) Any
        [(0, .load), (0, .video 5 (answer .success)), (0, .run), (0, .run)] runningState).bind
          fun t => (execute (interleave (step videoSetup)) Any
            [(0, .video 6 (answer .failure)), (0, .run), (0, .run), (0, .run)] t).map
              fun u => decide (outcome t = (.success, false, 1, 0) ∧
                outcome u = (.failure, true, 1, 1))) = some true := by
      decide +kernel
    exact breaks_of_execute hrun (by decide)

end Run

end NewApi.Service.Polling
