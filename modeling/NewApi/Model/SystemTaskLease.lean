import Mathlib.Data.Fintype.Basic
import NewApi.Model.SystemTask

/-!
# What the leases of system tasks keep

The unique index on `active_key` lets one task of a type be active, and only the holder of the lock
changes a running task.
-/

namespace NewApi.Model.SystemTask

open Transition

def Active (x : Task) : Prop := x.status = .pending ∨ x.status = .running

def Running (s : Store) (k r ty : Text) : Prop :=
  ∃ x, s.tasks.find k = some x ∧ x.status = .running ∧ x.lockedBy = r ∧ x.type = ty

def Ended (s : Store) (k : Text) : Prop := ∃ x, s.tasks.find k = some x ∧ ¬ Active x

variable {s : Store} {ι : Type}

theorem Ended.not_running {k r ty : Text} (h : Ended s k) : ¬ Running s k r ty := by
  obtain ⟨x, hx, hend⟩ := h
  rintro ⟨y, hy, hrun, _⟩
  rw [hx] at hy
  cases hy
  exact hend (.inr hrun)

structure TasksInv (t : Table Task.taskId) : Prop where
  keyed : ∀ k x, t.find k = some x → Active x → x.activeKey = some x.type
  unique : ∀ k j x y a, t.find k = some x → t.find j = some y → x.activeKey = some a →
    y.activeKey = some a → k = j

def OneActive (s : Store) : Prop :=
  ∀ k j x y, s.tasks.find k = some x → s.tasks.find j = some y → Active x → Active y →
    x.type = y.type → k = j

theorem TasksInv.oneActive (h : TasksInv s.tasks) : OneActive s := by
  intro k j x y hx hy hax hay htype
  have hky : y.activeKey = some x.type := htype ▸ h.keyed j y hy hay
  exact h.unique k j x y x.type hx hy (h.keyed k x hx hax) hky

def RunningLocked (s : Store) : Prop :=
  ∀ k r ty, Running s k r ty → ∃ l, s.locks.find ty = some l ∧ l.taskId = k ∧ l.lockedBy = r

structure StoreInv (s : Store) : Prop where
  tasks : TasksInv s.tasks
  locked : RunningLocked s

/-! ## The effect of a statement -/

/-- What a statement does to the running tasks. Tasks that ended stay ended. A task that runs
afterwards ran before, or the statement started it for the runner `who`; its lock row is there and
is the one it had, or one that has not expired. -/
structure Effect (who : Option Text) (s s' : Store) : Prop where
  clock : s.clock ≤ s'.clock
  tasks : TasksInv s.tasks → TasksInv s'.tasks
  ended : ∀ k, Ended s k → Ended s' k
  row : ∀ k r ty, Running s' k r ty → (Running s k r ty ∨ who = some r) ∧
    ∃ l, s'.locks.find ty = some l ∧ l.taskId = k ∧ l.lockedBy = r ∧
      (s.clock ≤ l.lockedUntil ∨ (Running s k r ty ∧ s.locks.find ty = some l))

theorem Effect.inv {who : Option Text} {s s' : Store} (h : Effect who s s') (hs : StoreInv s) :
    StoreInv s' := by
  refine ⟨h.tasks hs.tasks, ?_⟩
  intro k r ty hrun
  obtain ⟨_, l, hl, hk, hr, _⟩ := h.row k r ty hrun
  exact ⟨l, hl, hk, hr⟩

theorem effect_refl (hs : StoreInv s) : Effect none s s := by
  refine ⟨le_refl _, id, fun _ he => he, ?_⟩
  intro k r ty hr
  obtain ⟨l, hl, hk, hlr⟩ := hs.locked k r ty hr
  exact ⟨.inl hr, l, hl, hk, hlr, .inr ⟨hr, hl⟩⟩

structure Touches (cond : Task → Bool) (f : Task → Task) : Prop where
  active : ∀ x, cond x = true → Active x
  type : ∀ x, (f x).type = x.type
  key : ∀ x, ((f x).activeKey = x.activeKey ∧ (Active x → Active (f x))) ∨
    ((f x).activeKey = none ∧ ¬ Active (f x))

section Updates

variable {s : Store} {cond : Task → Bool} {f : Task → Task} {hf : ∀ x, (f x).taskId = x.taskId}

theorem find_updated {t : Table Task.taskId} {k : Text} {x' : Task}
    (hf : ∀ x, (f x).taskId = x.taskId) (h : (t.updateWhere cond f hf).find k = some x') :
    ∃ x, t.find k = some x ∧ (x' = x ∨ (cond x = true ∧ x' = f x)) := by
  rw [Table.find_updateWhere] at h
  obtain ⟨x, hx, rfl⟩ := Option.map_eq_some_iff.mp h
  refine ⟨x, hx, ?_⟩
  split
  · next hc => exact .inr ⟨hc, rfl⟩
  · exact .inl rfl

theorem Touches.tasksInv {t : Table Task.taskId} (h : Touches cond f)
    (hf : ∀ x, (f x).taskId = x.taskId) (ht : TasksInv t) :
    TasksInv (t.updateWhere cond f hf) := by
  have hkey : ∀ x x' a, (x' = x ∨ (cond x = true ∧ x' = f x)) → x'.activeKey = some a →
      x.activeKey = some a := by
    intro x x' a hx' ha
    rcases hx' with rfl | ⟨_, rfl⟩
    · exact ha
    rcases h.key x with ⟨hsame, _⟩ | ⟨hnone, _⟩
    · rw [← hsame]
      exact ha
    · rw [hnone] at ha
      cases ha
  constructor
  · intro k x' hx' hact
    obtain ⟨x, hx, hcase⟩ := find_updated hf hx'
    rcases hcase with rfl | ⟨hc, rfl⟩
    · exact ht.keyed k x' hx hact
    · rcases h.key x with ⟨hsame, _⟩ | ⟨_, hend⟩
      · rw [hsame, h.type]
        exact ht.keyed k x hx (h.active x hc)
      · exact absurd hact hend
  · intro k j x' y' a hx' hy' hax hay
    obtain ⟨x, hx, hxc⟩ := find_updated hf hx'
    obtain ⟨y, hy, hyc⟩ := find_updated hf hy'
    exact ht.unique k j x y a hx hy (hkey x x' a hxc hax) (hkey y y' a hyc hay)

theorem Touches.ended (h : Touches cond f) {k : Text} (he : Ended s k) :
    Ended { s with tasks := s.tasks.updateWhere cond f hf } k := by
  obtain ⟨x, hx, hend⟩ := he
  refine ⟨x, ?_, hend⟩
  rw [Table.find_updateWhere, hx, Option.map_some]
  have hc : ¬ cond x = true := fun hc => hend (h.active x hc)
  rw [if_neg hc]

theorem Touches.effect (h : Touches cond f)
    (hrun : ∀ x, cond x = true → (f x).status = .running → x.status = .running ∧
      (f x).lockedBy = x.lockedBy) (hs : StoreInv s) :
    Effect none s { s with tasks := s.tasks.updateWhere cond f hf } := by
  refine ⟨le_refl _, h.tasksInv hf, fun k he => h.ended he, ?_⟩
  rintro k r ty ⟨x', hx', hstatus, hby, htype⟩
  refine (effect_refl hs).row k r ty ?_
  obtain ⟨x, hx, rfl | ⟨hc, rfl⟩⟩ := find_updated hf hx'
  · exact ⟨x', hx, hstatus, hby, htype⟩
  · obtain ⟨hx0, hb0⟩ := hrun x hc hstatus
    exact ⟨x, hx, hx0, hb0 ▸ hby, h.type x ▸ htype⟩

end Updates

theorem locks_effect {locks : Table Lock.type}
    (h : ∀ k r ty, Running s k r ty → ∃ l, locks.find ty = some l ∧ l.taskId = k ∧ l.lockedBy = r ∧
      (s.clock ≤ l.lockedUntil ∨ s.locks.find ty = some l)) :
    Effect none s { s with locks := locks } := by
  refine ⟨le_refl _, id, fun _ he => he, ?_⟩
  intro k r ty hr
  have hbefore : Running s k r ty := hr
  obtain ⟨l, hl, hk, hlr, huntil⟩ := h k r ty hbefore
  exact ⟨.inl hbefore, l, hl, hk, hlr, huntil.imp id fun h => ⟨hbefore, h⟩⟩

theorem tick_effect (hs : StoreInv s) (n : ℕ) : Effect none s { s with clock := s.clock + n } := by
  have h := effect_refl hs
  refine ⟨?_, h.tasks, h.ended, h.row⟩
  show s.clock ≤ s.clock + n
  omega

/-! ## The statements one by one -/

section Statements

variable {s : Store}

theorem find_insert_kept {tasks : Table Task.taskId} {task x : Task} {k : Text}
    (hins : s.tasks.insert task = some tasks) (hx : s.tasks.find k = some x) :
    tasks.find k = some x := by
  have hk : k ≠ task.taskId := by
    rintro rfl
    rw [Table.find_of_insert hins] at hx
    cases hx
  rw [Table.find_insert_of_ne hins hk]
  exact hx

theorem insertTask_effect {taskId type payload state : Text} (hs : StoreInv s) :
    Effect none s ((insertTask s taskId type payload state).getD s) := by
  cases hi : insertTask s taskId type payload state with
  | none => exact effect_refl hs
  | some s' =>
    unfold insertTask at hi
    split at hi
    · cases hi
    rename_i hfree
    obtain ⟨tasks, hins, rfl⟩ := Option.map_eq_some_iff.mp hi
    have hnew : tasks.find taskId =
        some ⟨taskId, type, .pending, some type, payload, state, [], [], []⟩ :=
      Table.find_insert_self hins
    have hold : ∀ k x, tasks.find k = some x → k ≠ taskId → s.tasks.find k = some x := by
      intro k x hx hk
      rw [← Table.find_insert_of_ne hins hk]
      exact hx
    have hunused : ∀ k x, s.tasks.find k = some x → x.activeKey ≠ some type := by
      intro k x hx hkey
      apply hfree
      rw [List.any_eq_true]
      exact ⟨x, Table.find_mem hx, decide_eq_true hkey⟩
    refine ⟨le_refl _, ?_, ?_, ?_⟩
    · intro ht
      constructor
      · intro k x hx hact
        change tasks.find k = some x at hx
        by_cases hk : k = taskId
        · subst hk
          rw [hnew] at hx
          cases hx
          rfl
        · exact ht.keyed k x (hold k x hx hk) hact
      · intro k j x y a hx hy hax hay
        change tasks.find k = some x at hx
        change tasks.find j = some y at hy
        by_cases hk : k = taskId <;> by_cases hj : j = taskId
        · rw [hk, hj]
        · subst hk
          rw [hnew] at hx
          cases hx
          cases hax
          exact absurd hay (hunused j y (hold j y hy hj))
        · subst hj
          rw [hnew] at hy
          cases hy
          cases hay
          exact absurd hax (hunused k x (hold k x hx hk))
        · exact ht.unique k j x y a (hold k x hx hk) (hold j y hy hj) hax hay
    · rintro k ⟨x, hx, hend⟩
      exact ⟨x, find_insert_kept hins hx, hend⟩
    · rintro k r ty ⟨x, hx, hstatus, hby, htype⟩
      change tasks.find k = some x at hx
      have hk : k ≠ taskId := by
        rintro rfl
        rw [hnew] at hx
        cases hx
        cases hstatus
      exact (effect_refl hs).row k r ty ⟨x, hold k x hx hk, hstatus, hby, htype⟩

theorem markExpired_effect (taskId : Text) (hs : StoreInv s) :
    Effect none s (markSystemTaskLeaseExpired s taskId) := by
  apply Touches.effect _ _ hs
  · refine ⟨?_, fun _ => rfl, fun _ => .inr ⟨rfl, ?_⟩⟩
    · intro x hx
      exact .inr (of_decide_eq_true hx).2
    · rintro (h | h) <;> cases h
  · intro x _ h
    cases h

theorem marked_not_running {k r ty : Text} :
    ¬ Running (markSystemTaskLeaseExpired s k) k r ty := by
  rintro ⟨x', hx', hstatus, _, _⟩
  have hfind := Table.find_updateWhere s.tasks
    (fun x => decide (x.taskId = k ∧ x.status = .running)) Task.leaseExpired (fun _ => rfl) k
  obtain ⟨x, hx, rfl⟩ := Option.map_eq_some_iff.mp (hfind.symm.trans hx')
  split at hstatus
  · cases hstatus
  · next hc => exact hc (decide_eq_true ⟨Table.find_key hx, hstatus⟩)

theorem ownRunning_spec {taskId lockedBy : Text} {x : Task}
    (h : ownRunning s taskId lockedBy x = true) :
    x.taskId = taskId ∧ x.status = .running ∧ x.lockedBy = lockedBy ∧
      holdsLock s taskId lockedBy = true := by
  obtain ⟨hx, hl⟩ := Bool.and_eq_true_iff.mp h
  obtain ⟨hid, hst, hby⟩ := of_decide_eq_true hx
  exact ⟨hid, hst, hby, hl⟩

theorem updateState_effect {taskId lockedBy state : Text} (hs : StoreInv s) :
    Effect none s (updateOwn s taskId lockedBy (Task.withState state) fun _ => rfl).1 := by
  apply Touches.effect _ _ hs
  · refine ⟨?_, fun _ => rfl, fun _ => .inl ⟨rfl, id⟩⟩
    intro x hx
    exact .inr (ownRunning_spec hx).2.1
  · intro x hx _
    exact ⟨(ownRunning_spec hx).2.1, rfl⟩

theorem finish_effect {taskId lockedBy result error : Text} {status : FinalStatus}
    (hs : StoreInv s) :
    Effect none s (updateOwn s taskId lockedBy (Task.finished status result error)
      fun _ => rfl).1 := by
  have hnot : status.status ≠ .running ∧ status.status ≠ .pending := by
    cases status <;> exact ⟨by decide, by decide⟩
  apply Touches.effect _ _ hs
  · refine ⟨?_, fun _ => rfl, fun _ => .inr ⟨rfl, ?_⟩⟩
    · intro x hx
      exact .inr (ownRunning_spec hx).2.1
    · rintro (h | h)
      · exact hnot.2 h
      · exact hnot.1 h
  · intro x _ h
    exact absurd h hnot.1

theorem renew_effect {taskId lockedBy : Text} {lockUntil : ℤ} (hs : StoreInv s)
    (huntil : s.clock ≤ lockUntil) :
    Effect none s { s with
      locks := s.locks.updateWhere
        (fun l => decide (l.taskId = taskId ∧ l.lockedBy = lockedBy ∧ s.clock ≤ l.lockedUntil))
        (fun l => { l with lockedUntil := lockUntil }) fun _ => rfl } := by
  apply locks_effect
  intro k r ty hr
  obtain ⟨l, hl, hk, hlr⟩ := hs.locked k r ty hr
  rw [Table.find_updateWhere, hl, Option.map_some]
  split
  · exact ⟨_, rfl, hk, hlr, .inl huntil⟩
  · exact ⟨l, rfl, hk, hlr, .inr rfl⟩

theorem insertLock_effect {locks : Table Lock.type} {l : Lock} (hs : StoreInv s)
    (h : s.locks.insert l = some locks) : Effect none s { s with locks := locks } := by
  apply locks_effect
  intro k r ty hr
  obtain ⟨l', hl', hk, hlr⟩ := hs.locked k r ty hr
  have hty : ty ≠ l.type := by
    rintro rfl
    rw [Table.find_of_insert h] at hl'
    cases hl'
  exact ⟨l', (Table.find_insert_of_ne h hty).trans hl', hk, hlr, .inr hl'⟩

theorem takeOver_effect (c : Claim) (now : ℤ) (hs : StoreInv s)
    (hfree : ∀ l, s.locks.find c.type = some l → l.lockedUntil < now → ∀ r,
      ¬ Running s l.taskId r c.type) :
    Effect none s { s with
      locks := s.locks.updateWhere (fun l => decide (l.type = c.type ∧ l.lockedUntil < now))
        (fun l => { l with
          taskId := c.taskId
          lockedBy := c.runnerId
          lockedUntil := c.lockUntil }) fun _ => rfl } := by
  apply locks_effect
  intro k r ty hr
  obtain ⟨l, hl, hk, hlr⟩ := hs.locked k r ty hr
  rw [Table.find_updateWhere, hl, Option.map_some]
  split
  · next hc =>
    obtain ⟨htype, hexp⟩ := of_decide_eq_true hc
    have hty : ty = c.type := (Table.find_key hl).symm.trans htype
    subst hty
    rw [← hk] at hr
    exact absurd hr (hfree l hl hexp r)
  · exact ⟨l, rfl, hk, hlr, .inr rfl⟩

theorem deleteLocks_effect {cond : Lock → Bool} (hs : StoreInv s)
    (hfree : ∀ k r ty, Running s k r ty → ∀ l, s.locks.find ty = some l → l.taskId = k →
      l.lockedBy = r → cond l = false) :
    Effect none s { s with locks := s.locks.deleteWhere cond } := by
  apply locks_effect
  intro k r ty hr
  obtain ⟨l, hl, hk, hlr⟩ := hs.locked k r ty hr
  exact ⟨l, Table.find_deleteWhere_of_keep hl (hfree k r ty hr l hl hk hlr), hk, hlr, .inr hl⟩

theorem isPending_spec {taskId type : Text} {x : Task} (h : isPending taskId type x = true) :
    x.taskId = taskId ∧ x.type = type ∧ x.status = .pending := of_decide_eq_true h

theorem setRunning_effect {c : Claim} (hs : StoreInv s)
    (hheld : ∃ l, s.locks.find c.type = some l ∧ l.taskId = c.taskId ∧ l.lockedBy = c.runnerId ∧
      s.clock ≤ l.lockedUntil) :
    Effect (some c.runnerId) s { s with
      tasks := s.tasks.updateWhere (isPending c.taskId c.type) (Task.started c.runnerId)
        fun _ => rfl } := by
  have htouch : Touches (isPending c.taskId c.type) (Task.started c.runnerId) := by
    refine ⟨?_, fun _ => rfl, fun _ => .inl ⟨rfl, fun _ => .inr rfl⟩⟩
    intro x hx
    exact .inl (isPending_spec hx).2.2
  refine ⟨le_refl _, htouch.tasksInv fun _ => rfl, fun k he => htouch.ended he, ?_⟩
  rintro k r ty ⟨x', hx', hstatus, hby, htype⟩
  obtain ⟨x, hx, rfl | ⟨hc, rfl⟩⟩ := find_updated (f := Task.started c.runnerId) (fun _ => rfl) hx'
  · have hbefore : Running s k r ty := ⟨x', hx, hstatus, hby, htype⟩
    exact ⟨.inl hbefore, ((effect_refl hs).row k r ty hbefore).2⟩
  · obtain ⟨l, hl, hlk, hlr, huntil⟩ := hheld
    obtain ⟨hid, hty, _⟩ := isPending_spec hc
    have hk : k = c.taskId := (Table.find_key hx).symm.trans hid
    have htype' : c.type = ty := hty.symm.trans htype
    subst htype'
    exact ⟨.inr (congrArg some hby), l, hl, hlk.trans hk.symm, hlr.trans hby, .inl huntil⟩

end Statements

/-! ## Calls -/

def claiming : Pc → Option Text
  | .insertLock c _ => some c.runnerId
  | .readLock c _ => some c.runnerId
  | .takeOver c _ _ => some c.runnerId
  | .markExpired c _ => some c.runnerId
  | .setRunning c => some c.runnerId
  | .releaseClaim c => some c.runnerId
  | _ => none

def NotRunning (s : Store) (c : Claim) : Prop := ∀ ty, ¬ Running s c.taskId c.runnerId ty

structure LiveSince (s : Store) (now : ℤ) (among : Text → Text → Prop) : Prop where
  past : now ≤ s.clock
  live : ∀ k r ty, among k ty → Running s k r ty → ∀ l, s.locks.find ty = some l →
    now ≤ l.lockedUntil

/-- What a claim knows before it has the lock: its task was pending at `now`, so that a task of its
type that runs was started since. -/
def Waiting (s : Store) (c : Claim) (now : ℤ) : Prop :=
  NotRunning s c ∧ LiveSince s now fun _ ty => ty = c.type

def CallInv (s : Store) : Pc → Prop
  | .insertLock c now => Waiting s c now
  | .readLock c now => Waiting s c now
  | .takeOver c now _ => Waiting s c now
  | .markExpired c _ => NotRunning s c
  | .setRunning c => NotRunning s c
  | .releaseClaim c => NotRunning s c
  | .releaseFinished k _ => Ended s k
  | .markStale now _ _ => now ≤ s.clock
  | .deleteStale now lock _ => LiveSince s now fun k _ => k = lock.taskId
  | _ => True

section Kept

variable {who : Option Text} {s s' : Store}

theorem NotRunning.kept {c : Claim} (h : NotRunning s c) (he : Effect who s s')
    (hwho : who ≠ some c.runnerId) : NotRunning s' c := by
  intro ty hr
  rcases (he.row _ _ _ hr).1 with hbefore | hnew
  · exact h ty hbefore
  · exact hwho hnew

theorem LiveSince.kept {now : ℤ} {among : Text → Text → Prop} (h : LiveSince s now among)
    (he : Effect who s s') : LiveSince s' now among := by
  refine ⟨h.past.trans he.clock, ?_⟩
  intro k r ty hk hr l hl
  obtain ⟨_, l', hl', _, _, hcase⟩ := he.row _ _ _ hr
  rw [hl] at hl'
  cases hl'
  rcases hcase with hlive | ⟨hbefore, hsame⟩
  · exact h.past.trans hlive
  · exact h.live k r ty hk hbefore l hsame

theorem CallInv.kept {pc : Pc} (h : CallInv s pc) (he : Effect who s s')
    (hwho : ∀ r, who = some r → claiming pc ≠ some r) : CallInv s' pc := by
  have hclaim : ∀ c : Claim, claiming pc = some c.runnerId → NotRunning s c → NotRunning s' c := by
    intro c hpc hc
    exact hc.kept he fun hw => hwho _ hw hpc
  cases pc with
  | insertLock c now | readLock c now | takeOver c now existing =>
    exact ⟨hclaim c rfl h.1, h.2.kept he⟩
  | markExpired c expired | setRunning c | releaseClaim c => exact hclaim c rfl h
  | releaseFinished k lockedBy => exact he.ended k h
  | markStale now lock locks => exact h.trans he.clock
  | deleteStale now lock locks => exact LiveSince.kept h he
  | start op | reread c | done => trivial

end Kept

/-! ## The condition -/

def runs (s : Store) (k : Text) : Bool :=
  s.tasks.rows.any fun x => decide (x.taskId = k ∧ x.status = .running)

def NoLease (s : Store) (k : Text) : Prop :=
  ∀ l ∈ s.locks.rows, l.taskId = k → l.lockedUntil < s.clock

instance (s : Store) (k : Text) : Decidable (NoLease s k) :=
  inferInstanceAs (Decidable (∀ l ∈ s.locks.rows, l.taskId = k → l.lockedUntil < s.clock))

/-- A runner makes one claim at a time, and a renewal does not set an expiry in the past. A claim sets
its task running while the lock row names the task and the runner and is live, and a lease is marked
expired while the task has no live lock row. -/
def LeaseKept {ι : Type} (s : Processes ι Store Pc) (e : ι × Action) : Prop :=
  match s.point e.1, e.2 with
  | .start (.claim c), .run => ∀ j, claiming (s.point j) ≠ some c.runnerId
  | .start (.renew _ _ lockUntil), .run => s.store.clock ≤ lockUntil
  | .setRunning c, .run => s.store.tasks.rows.any (isPending c.taskId c.type) = true →
      ∃ l ∈ s.store.locks.rows, l.type = c.type ∧ l.taskId = c.taskId ∧
        l.lockedBy = c.runnerId ∧ s.store.clock ≤ l.lockedUntil
  | .markExpired _ k, .run => runs s.store k = true → NoLease s.store k
  | .markStale _ lock _, .run => runs s.store lock.taskId = true → NoLease s.store lock.taskId
  | _, _ => True

instance {ι : Type} [Fintype ι] (s : Processes ι Store Pc) (e : ι × Action) :
    Decidable (LeaseKept s e) := by
  unfold LeaseKept
  split <;> infer_instance

def ClaimsApart {ι : Type} (point : ι → Pc) : Prop :=
  ∀ i j r, i ≠ j → claiming (point i) = some r → claiming (point j) ≠ some r

/-! ## A step -/

structure Stepped {ι : Type} (t : Processes ι Store Pc) (i : ι) (s' : Store) (pc' : Pc) : Prop where
  who : ∃ who, Effect who t.store s' ∧ ∀ r, who = some r → claiming (t.point i) = some r
  call : CallInv s' pc'
  claim : ∀ r, claiming pc' = some r → claiming (t.point i) = some r ∨
    ∀ j, claiming (t.point j) ≠ some r

section Steps

variable {ι : Type} {t : Processes ι Store Pc} {i : ι} {s' : Store} {pc' : Pc}

theorem stepped_quiet (he : Effect none t.store s') (hcall : CallInv s' pc')
    (hclaim : claiming pc' = none ∨ claiming pc' = claiming (t.point i)) :
    Stepped t i s' pc' := by
  refine ⟨⟨none, he, fun r h => by cases h⟩, hcall, ?_⟩
  intro r hr
  rcases hclaim with hnone | hsame
  · rw [hnone] at hr
    cases hr
  · exact .inl (hsame ▸ hr)

theorem callInv_nextStale {now : ℤ} {s : Store} (h : now ≤ s.clock) (locks : List Lock) :
    CallInv s (nextStale now locks) := by
  cases locks with
  | nil => trivial
  | cons l ls => exact h

theorem claiming_nextStale (now : ℤ) (locks : List Lock) : claiming (nextStale now locks) = none := by
  cases locks <;> rfl

theorem callInv_acquired {c : Claim} {s : Store} (h : NotRunning s c) (expired : Text) :
    CallInv s (acquired c expired) := by
  unfold acquired
  split
  · exact h
  · exact h

theorem claiming_acquired (c : Claim) (expired : Text) :
    claiming (acquired c expired) = some c.runnerId := by
  unfold acquired
  split
  · rfl
  · rfl

theorem pending_waiting {s : Store} {c : Claim} (hs : StoreInv s)
    (h : s.tasks.rows.any (isPending c.taskId c.type) = true) : Waiting s c s.clock := by
  obtain ⟨y, hy, hp⟩ := List.any_eq_true.mp h
  obtain ⟨hid, htype, hpend⟩ := isPending_spec hp
  have hfind := Table.find_of_mem hy
  rw [hid] at hfind
  have hself : NotRunning s c := by
    rintro ty ⟨x, hx, hstatus, _, _⟩
    rw [hx] at hfind
    cases hfind
    rw [hstatus] at hpend
    cases hpend
  refine ⟨hself, le_refl _, ?_⟩
  rintro k r ty rfl ⟨x, hx, hstatus, hby, hxtype⟩ l _
  have hk : k = c.taskId := hs.tasks.oneActive k c.taskId x y hx hfind (.inr hstatus) (.inl hpend)
    (hxtype.trans htype.symm)
  subst hk
  rw [hx] at hfind
  cases hfind
  rw [hstatus] at hpend
  cases hpend

theorem finish_ended {s : Store} {taskId lockedBy : Text} {f : Task → Task}
    {hf : ∀ x, (f x).taskId = x.taskId} (hend : ∀ x, ¬ Active (f x))
    (h : (updateOwn s taskId lockedBy f hf).2 = true) :
    Ended (updateOwn s taskId lockedBy f hf).1 taskId := by
  obtain ⟨x, hx, hown⟩ := List.any_eq_true.mp h
  have hid := (ownRunning_spec hown).1
  have hfind := Table.find_of_mem hx
  rw [hid] at hfind
  refine ⟨f x, ?_, hend x⟩
  show (s.tasks.updateWhere _ f hf).find taskId = some (f x)
  rw [Table.find_updateWhere, hfind, Option.map_some, if_pos hown]

theorem first_stepped {op : Op} (hs : StoreInv t.store) (hpc : t.point i = .start op)
    (hok : LeaseKept t (i, .run)) (h : first t.store op = (s', pc')) : Stepped t i s' pc' := by
  cases op with
  | create taskId type payload state =>
    cases h
    exact stepped_quiet (insertTask_effect hs) trivial (.inl rfl)
  | claim c =>
    rw [first] at h
    split at h
    · next hpend =>
      cases h
      simp only [LeaseKept, hpc] at hok
      refine ⟨⟨none, effect_refl hs, fun r h => by cases h⟩, pending_waiting hs hpend, ?_⟩
      intro r hr
      cases hr
      exact .inr hok
    · cases h
      exact stepped_quiet (effect_refl hs) trivial (.inl rfl)
  | renew taskId lockedBy lockUntil =>
    cases h
    simp only [LeaseKept, hpc] at hok
    exact stepped_quiet (renew_effect hs hok) trivial (.inl rfl)
  | updateState taskId lockedBy state =>
    cases h
    exact stepped_quiet (updateState_effect hs) trivial (.inl rfl)
  | finish taskId lockedBy status result error =>
    cases h
    refine stepped_quiet (finish_effect hs) ?_ ?_
    · split
      · next hrows =>
        refine finish_ended ?_ hrows
        intro x hact
        rcases hact with hact | hact <;> cases status <;> cases hact
      · trivial
    · left
      split
      · rfl
      · rfl
  | expire =>
    cases h
    exact stepped_quiet (effect_refl hs) (callInv_nextStale (le_refl _) _)
      (.inl (claiming_nextStale _ _))

theorem statement_stepped (hs : StoreInv t.store) (hc : CallInv t.store (t.point i))
    (hok : LeaseKept t (i, .run)) (h : statement t.store (t.point i) = some (s', pc')) :
    Stepped t i s' pc' := by
  generalize hpc : t.point i = pc at h hc
  cases pc with
  | start op => exact first_stepped hs hpc hok (Option.some.inj h)
  | insertLock c now =>
    rw [statement] at h
    split at h
    · next locks hins =>
      cases h
      have he := insertLock_effect hs hins
      refine stepped_quiet he (callInv_acquired (hc.1.kept he (by rintro ⟨⟩)) _) (.inr ?_)
      rw [hpc]
      rfl
    · cases h
      exact stepped_quiet (effect_refl hs) hc (.inr (by rw [hpc]; rfl))
  | readLock c now =>
    rw [statement] at h
    split at h
    · cases h
      exact stepped_quiet (effect_refl hs) trivial (.inl rfl)
    · split at h
      · cases h
        exact stepped_quiet (effect_refl hs) trivial (.inl rfl)
      · cases h
        exact stepped_quiet (effect_refl hs) hc (.inr (by rw [hpc]; rfl))
  | takeOver c now existing =>
    rw [statement] at h
    split at h
    · cases h
      have he := takeOver_effect c now hs (by
        intro l hl hexp r hr
        have hlive := hc.2.live l.taskId r c.type rfl hr l hl
        omega)
      refine stepped_quiet he (callInv_acquired (hc.1.kept he (by rintro ⟨⟩)) _) (.inr ?_)
      rw [claiming_acquired, hpc]
      rfl
    · cases h
      exact stepped_quiet (effect_refl hs) trivial (.inl rfl)
  | markExpired c expired =>
    cases h
    have he := markExpired_effect expired hs
    exact stepped_quiet he (NotRunning.kept hc he (by rintro ⟨⟩)) (.inr (by rw [hpc]; rfl))
  | setRunning c =>
    simp only [LeaseKept, hpc] at hok
    rw [statement] at h
    split at h
    · next hpend =>
      cases h
      obtain ⟨l, hl, hty, hk, hr, huntil⟩ := hok hpend
      have hfind := Table.find_of_mem hl
      rw [hty] at hfind
      refine ⟨⟨some c.runnerId, setRunning_effect hs ⟨l, hfind, hk, hr, huntil⟩, ?_⟩, trivial, ?_⟩
      · intro r hr
        rw [hpc]
        exact hr
      · intro r hr
        cases hr
    · cases h
      exact stepped_quiet (effect_refl hs) hc (.inr (by rw [hpc]; rfl))
  | releaseClaim c =>
    cases h
    refine stepped_quiet (deleteLocks_effect hs ?_) trivial (.inl rfl)
    intro k r ty hr l _ hk hlr
    rw [decide_eq_false_iff_not]
    rintro ⟨hk', hr'⟩
    have hkc : k = c.taskId := hk.symm.trans hk'
    have hrc : r = c.runnerId := hlr.symm.trans hr'
    subst hkc hrc
    exact hc ty hr
  | reread c =>
    cases h
    exact stepped_quiet (effect_refl hs) trivial (.inl rfl)
  | releaseFinished k lockedBy =>
    cases h
    refine stepped_quiet (deleteLocks_effect hs ?_) trivial (.inl rfl)
    intro k' r ty hr l _ hk _
    rw [decide_eq_false_iff_not]
    rintro ⟨hk', _⟩
    have hkk : k' = k := hk.symm.trans hk'
    subst hkk
    exact Ended.not_running hc hr
  | markStale now lock locks =>
    cases h
    have he := markExpired_effect lock.taskId hs
    refine stepped_quiet he ⟨?_, ?_⟩ (.inl rfl)
    · exact hc
    · -- the task that was marked does not run
      rintro k r ty rfl hr
      exact absurd hr marked_not_running
  | deleteStale now lock locks =>
    cases h
    have hclock : now ≤ t.store.clock := hc.past
    refine stepped_quiet (deleteLocks_effect hs ?_) (callInv_nextStale (by exact hclock) _)
      (.inl (claiming_nextStale _ _))
    intro k r ty hr l hl hk _
    rw [decide_eq_false_iff_not]
    rintro ⟨_, hk', _, hexp⟩
    have hkk : k = lock.taskId := hk.symm.trans hk'
    subst hkk
    have hlive := hc.live _ r ty rfl hr l hl
    omega
  | done => cases h

theorem failed_callInv {s : Store} {pc pc' : Pc} (hc : CallInv s pc) (h : failed pc = some pc') :
    CallInv s pc' ∧ (claiming pc' = none ∨ claiming pc' = claiming pc) := by
  cases pc with
  | insertLock c now | markExpired c expired | setRunning c => cases h; exact ⟨hc, .inr rfl⟩
  | done => cases h
  | start op | readLock c now | takeOver c now existing | releaseClaim c | reread c
  | releaseFinished k lockedBy | markStale now lock locks | deleteStale now lock locks =>
    cases h; exact ⟨trivial, .inl rfl⟩

theorem step_stepped {a : Action} (hs : StoreInv t.store) (hc : CallInv t.store (t.point i))
    (hok : LeaseKept t (i, a)) (h : step i t.store (t.point i) a = some (s', pc')) :
    Stepped t i s' pc' := by
  cases a with
  | run => exact statement_stepped hs hc hok h
  | fail =>
    obtain ⟨pc, hpc, hr⟩ := Option.map_eq_some_iff.mp h
    cases hr
    obtain ⟨hcall, hclaim⟩ := failed_callInv hc hpc
    exact stepped_quiet (effect_refl hs) hcall hclaim
  | crash =>
    cases h
    exact stepped_quiet (effect_refl hs) trivial (.inl rfl)
  | tick seconds =>
    cases h
    have he := tick_effect hs seconds
    exact stepped_quiet he (hc.kept he fun r h => by cases h) (.inr rfl)

end Steps

/-! ## Runs -/

structure Initial {ι : Type} (s : Processes ι Store Pc) : Prop where
  store : StoreInv s.store
  calls : ∀ i, ∃ op, s.point i = .start op

structure Inv {ι : Type} (s : Processes ι Store Pc) : Prop where
  store : StoreInv s.store
  calls : ∀ i, CallInv s.store (s.point i)
  apart : ClaimsApart s.point

theorem Initial.inv {s : Processes ι Store Pc} (h : Initial s) : Inv s := by
  refine ⟨h.store, ?_, ?_⟩
  · intro i
    obtain ⟨op, hop⟩ := h.calls i
    rw [hop]
    trivial
  · intro i j r _ hi
    obtain ⟨op, hop⟩ := h.calls i
    rw [hop] at hi
    cases hi

theorem inv_step [DecidableEq ι] {t u : Processes ι Store Pc} {e : ι × Action} (hI : Inv t)
    (hok : LeaseKept t e) (h : interleave step t e = some u) : Inv u := by
  obtain ⟨⟨s', pc'⟩, hs, rfl⟩ := Option.map_eq_some_iff.mp h
  obtain ⟨i, a⟩ := e
  have hst := step_stepped hI.store (hI.calls i) hok hs
  obtain ⟨who, heff, hwho⟩ := hst.who
  refine ⟨heff.inv hI.store, ?_, ?_⟩
  · intro j
    by_cases hj : j = i
    · subst hj
      simp only [Function.update_self]
      exact hst.call
    · simp only [Function.update_of_ne hj]
      apply (hI.calls j).kept heff
      intro r hr
      exact hI.apart i j r (Ne.symm hj) (hwho r hr)
  · intro j k r hjk hj
    by_cases hji : j = i
    · subst hji
      simp only [Function.update_self] at hj
      simp only [Function.update_of_ne (Ne.symm hjk)]
      rcases hst.claim r hj with hsame | hfree
      · exact hI.apart j k r hjk hsame
      · exact hfree k
    · simp only [Function.update_of_ne hji] at hj
      by_cases hki : k = i
      · subst hki
        simp only [Function.update_self]
        intro hk
        rcases hst.claim r hk with hsame | hfree
        · exact hI.apart k j r (Ne.symm hjk) hsame hj
        · exact hfree j hj
      · simp only [Function.update_of_ne hki]
        exact hI.apart j k r hjk hj

/-! ## Who changes a task -/

def actor : Pc → Option Text
  | .start (.updateState _ lockedBy _) => some lockedBy
  | .start (.finish _ lockedBy _ _ _) => some lockedBy
  | _ => none

def expires (k : Text) : Pc → Prop
  | .markExpired _ expired => expired = k
  | .markStale _ lock _ => lock.taskId = k
  | _ => False

def Changed (x x' : Task) : Prop :=
  x'.state ≠ x.state ∨ x'.result ≠ x.result ∨ (x.status = .running ∧ x'.status ≠ .running)

def ChangedByHolder {ι : Type} (s : Processes ι Store Pc) (e : ι × Action)
    (s' : Processes ι Store Pc) : Prop :=
  ∀ k x, s.store.tasks.find k = some x → ∃ x', s'.store.tasks.find k = some x' ∧ (Changed x x' →
    (∃ r, actor (s.point e.1) = some r ∧ holdsLock s.store k r = true) ∨
      (expires k (s.point e.1) ∧ NoLease s.store k))

theorem not_changed_self (x : Task) : ¬ Changed x x := by
  rintro (h | h | ⟨h, h'⟩)
  · exact h rfl
  · exact h rfl
  · exact h' h

section Changes

variable {s : Store} {pc : Pc} {cond : Task → Bool} {f : Task → Task}
  {hf : ∀ x, (f x).taskId = x.taskId} {P : Prop} {k : Text} {x : Task}

theorem changed_update (hf : ∀ x, (f x).taskId = x.taskId) (hx : s.tasks.find k = some x)
    (h : cond x = true → Changed x (f x) → P) :
    ∃ x', (s.tasks.updateWhere cond f hf).find k = some x' ∧ (Changed x x' → P) := by
  rw [Table.find_updateWhere, hx, Option.map_some]
  refine ⟨_, rfl, ?_⟩
  split
  · next hc => exact h hc
  · intro hch
    exact absurd hch (not_changed_self x)

theorem changed_same (hx : s.tasks.find k = some x) :
    ∃ x', s.tasks.find k = some x' ∧ (Changed x x' → P) :=
  ⟨x, hx, fun h => absurd h (not_changed_self x)⟩

theorem changed_own {taskId lockedBy : Text} (hf : ∀ x, (f x).taskId = x.taskId)
    (hx : s.tasks.find k = some x) :
    ∃ x', (s.tasks.updateWhere (ownRunning s taskId lockedBy) f hf).find k = some x' ∧
      (Changed x x' → holdsLock s k lockedBy = true) := by
  refine changed_update hf hx ?_
  intro hc _
  obtain ⟨hid, _, _, hl⟩ := ownRunning_spec hc
  rw [← Table.find_key hx, hid]
  exact hl

theorem changed_mark {taskId : Text} (h : runs s taskId = true → NoLease s taskId)
    (hx : s.tasks.find k = some x) :
    ∃ x', (markSystemTaskLeaseExpired s taskId).tasks.find k = some x' ∧
      (Changed x x' → taskId = k ∧ NoLease s k) := by
  refine changed_update (f := Task.leaseExpired) (fun _ => rfl) hx ?_
  intro hc _
  obtain ⟨hid, hrun⟩ := of_decide_eq_true hc
  have hk : taskId = k := hid.symm.trans (Table.find_key hx)
  subst hk
  refine ⟨rfl, h ?_⟩
  rw [runs, List.any_eq_true]
  exact ⟨x, Table.find_mem hx, decide_eq_true ⟨hid, hrun⟩⟩

end Changes

theorem changedByHolder_step [DecidableEq ι] {t u : Processes ι Store Pc} {e : ι × Action}
    (hok : LeaseKept t e) (h : interleave step t e = some u) : ChangedByHolder t e u := by
  obtain ⟨⟨s', pc'⟩, hs, rfl⟩ := Option.map_eq_some_iff.mp h
  obtain ⟨i, a⟩ := e
  intro k x hx
  cases a with
  | fail =>
    obtain ⟨pc, _, hr⟩ := Option.map_eq_some_iff.mp hs
    cases hr
    exact changed_same hx
  | crash | tick seconds =>
    cases hs
    exact changed_same hx
  | run =>
    change statement t.store (t.point i) = some (s', pc') at hs
    generalize hpc : t.point i = pc at hs
    cases pc with
    | start op =>
      have hfirst : first t.store op = (s', pc') := Option.some.inj hs
      cases op with
      | create taskId type payload state =>
        cases hfirst
        cases hi : insertTask t.store taskId type payload state with
        | none => exact changed_same hx
        | some s'' =>
          unfold insertTask at hi
          split at hi
          · cases hi
          obtain ⟨tasks, hins, rfl⟩ := Option.map_eq_some_iff.mp hi
          exact changed_same (s := { t.store with tasks := tasks }) (find_insert_kept hins hx)
      | claim c =>
        rw [first] at hfirst
        split at hfirst
        all_goals
          cases hfirst
          exact changed_same hx
      | renew taskId lockedBy lockUntil | expire =>
        cases hfirst
        exact changed_same hx
      | updateState taskId lockedBy state =>
        cases hfirst
        obtain ⟨x', hx', hown⟩ := changed_own (f := Task.withState state) (fun _ => rfl) hx
        exact ⟨x', hx', fun hch => .inl ⟨lockedBy, rfl, hown hch⟩⟩
      | finish taskId lockedBy status result error =>
        cases hfirst
        obtain ⟨x', hx', hown⟩ := changed_own (f := Task.finished status result error)
          (fun _ => rfl) hx
        exact ⟨x', hx', fun hch => .inl ⟨lockedBy, rfl, hown hch⟩⟩
    | insertLock c now | takeOver c now existing =>
      rw [statement] at hs
      split at hs
      all_goals
        cases hs
        exact changed_same hx
    | readLock c now =>
      rw [statement] at hs
      split at hs
      · cases hs
        exact changed_same hx
      · split at hs
        all_goals
          cases hs
          exact changed_same hx
    | markExpired c expired | markStale now lock locks =>
      cases hs
      simp only [LeaseKept, hpc] at hok
      obtain ⟨x', hx', hmark⟩ := changed_mark hok hx
      exact ⟨x', hx', fun hch => .inr (hmark hch)⟩
    | setRunning c =>
      rw [statement] at hs
      split at hs
      · cases hs
        -- a pending task is set running: its state and result stay
        refine changed_update (f := Task.started c.runnerId) (fun _ => rfl) hx ?_
        intro hc hch
        rcases hch with hch | hch | ⟨hrun, _⟩
        · exact absurd rfl hch
        · exact absurd rfl hch
        · rw [(isPending_spec hc).2.2] at hrun
          cases hrun
      · cases hs
        exact changed_same hx
    | releaseClaim c | reread c | releaseFinished k' lockedBy | deleteStale now lock locks =>
      cases hs
      exact changed_same hx
    | done => cases hs

/-- In every run whose steps keep the leases, at most one task of a type is active, every running
task has a lock row that names it, and only the holder of a live lock row changes a task. -/
theorem leases_consistent {ι : Type} [DecidableEq ι] {s t : Processes ι Store Pc}
    (h0 : Initial s) (h : Reach (interleave step) LeaseKept s t) :
    OneActive t.store ∧ RunningLocked t.store ∧
      ∀ e u, LeaseKept t e → interleave step t e = some u → ChangedByHolder t e u := by
  have hinv : Inv t := h.invariant h0.inv fun t e u hI hok hn => inv_step hI hok hn
  refine ⟨hinv.store.tasks.oneActive, hinv.store.locked, ?_⟩
  intro e u hok hn
  exact changedByHolder_step hok hn

section Runs

def noTasks : Store := ⟨⟨[], List.nodup_nil⟩, ⟨[], List.nodup_nil⟩, 0⟩

def cleanupClaim : Claim := ⟨"systask_1".toList, "log_cleanup".toList, "node-a".toList, 60⟩

def oneTask : Fin 4 → Op
  | 0 => .create "systask_1".toList "log_cleanup".toList [] []
  | 1 => .claim cleanupClaim
  | 2 => .finish "systask_1".toList "node-a".toList .succeeded [] []
  | 3 => .expire

def oneTaskCalls : Processes (Fin 4) Store Pc := ⟨noTasks, fun i => .start (oneTask i)⟩

theorem oneTaskCalls_initial : Initial oneTaskCalls := by
  refine ⟨⟨⟨?_, ?_⟩, ?_⟩, fun i => ⟨oneTask i, rfl⟩⟩
  · intro k x hx
    cases hx
  · intro k j x y a hx
    cases hx
  · rintro k r ty ⟨x, hx, _⟩
    cases hx

def runsOf (calls : List (Fin 4)) : List (Fin 4 × Action) := calls.map fun i => (i, .run)

theorem leases_consistent_one_task :
    ∃ t, Reach (interleave step) LeaseKept oneTaskCalls t ∧ runs t.store "systask_1".toList = true ∧
      RunningLocked t.store := by
  have hrun : (execute (interleave step) LeaseKept (runsOf [0, 1, 1, 1, 1, 3]) oneTaskCalls).map
      (fun t => runs t.store "systask_1".toList) = some true := by
    decide +kernel
  obtain ⟨t, ht, hr⟩ := exists_reach_of_execute hrun
  exact ⟨t, ht, hr, (leases_consistent oneTaskCalls_initial ht).2.1⟩

def leftRunning (t : Processes (Fin 4) Store Pc) : Bool :=
  runs t.store "systask_1".toList && t.store.locks.rows.isEmpty &&
    decide (∀ i, t.point i = .done)

/-- A claim that pauses between its lock and its status update until the lease has expired and the
stale lock is deleted leaves a running task without a lock row, and no call is left to mend it. -/
theorem running_without_lock :
    Initial oneTaskCalls ∧
      ∃ t, Reach (interleave step) Any oneTaskCalls t ∧ leftRunning t = true := by
  have hrun : (execute (interleave step) Any
      (runsOf [0, 1, 1] ++ [(1, .tick 61)] ++ runsOf [3, 3, 3, 1, 1, 2]) oneTaskCalls).map
      leftRunning = some true := by
    decide +kernel
  exact ⟨oneTaskCalls_initial, exists_reach_of_execute hrun⟩

end Runs

/-! ## Ended tasks -/

section Frozen

variable {s s' : Store} {k : Text} {x : Task} (hx : s.tasks.find k = some x) (hend : ¬ Active x)
include hx hend

theorem frozen_update {cond : Task → Bool} {f : Task → Task} (hf : ∀ x, (f x).taskId = x.taskId)
    (h : ∀ x, cond x = true → Active x) : (s.tasks.updateWhere cond f hf).find k = some x := by
  rw [Table.find_updateWhere, hx, Option.map_some, if_neg fun hc => hend (h x hc)]

theorem first_frozen (op : Op) : (first s op).1.tasks.find k = some x := by
  cases op with
  | create taskId type payload state =>
    rcases hi : insertTask s taskId type payload state with _ | s'
    · simpa [first, hi] using hx
    · unfold insertTask at hi
      split at hi
      · cases hi
      · obtain ⟨tasks, hins, rfl⟩ := Option.map_eq_some_iff.mp hi
        simpa [first, insertTask, *] using find_insert_kept hins hx
  | claim c =>
    simp only [first]
    split <;> exact hx
  | renew taskId lockedBy lockUntil | expire => exact hx
  | updateState taskId lockedBy state | finish taskId lockedBy status result error =>
    exact frozen_update hx hend (by exact fun _ => rfl) fun y hy => .inr (ownRunning_spec hy).2.1

theorem step_frozen {ι : Type} {i : ι} {pc pc' : Pc} {a : Action}
    (h : step i s pc a = some (s', pc')) : s'.tasks.find k = some x := by
  have hexpired : ∀ id, (markSystemTaskLeaseExpired s id).tasks.find k = some x :=
    fun id => frozen_update hx hend (by exact fun _ => rfl) fun y hy => .inr (of_decide_eq_true hy).2
  have hstarted : ∀ id type runner hf, (s.tasks.updateWhere (isPending id type)
      (Task.started runner) hf).find k = some x :=
    fun _ _ _ hf => frozen_update hx hend hf fun y hy => .inl (isPending_spec hy).2.2
  cases a with
  | run =>
    cases pc with
    | start op =>
      obtain rfl : (first s op).1 = s' := congrArg Prod.fst (Option.some.inj h)
      exact first_frozen hx hend op
    | _ => grind [step, statement, releaseSystemTaskLock]
  | fail => cases pc <;> grind [step, failed]
  | crash | tick seconds => grind [step]

end Frozen

/-- Whatever leases are lost and whatever calls are late, the row of an ended task never changes. -/
theorem ended_tasks_frozen {ι : Type} [DecidableEq ι] {s t : Processes ι Store Pc} {k : Text}
    {x : Task} (h : Reach (interleave step) Any s t) (hx : s.store.tasks.find k = some x)
    (hend : ¬ Active x) : t.store.tasks.find k = some x := by
  refine h.invariant (I := fun t => t.store.tasks.find k = some x) hx ?_
  intro t e u ht _ hn
  obtain ⟨⟨store, pc⟩, hstep, rfl⟩ := Option.map_eq_some_iff.mp hn
  exact step_frozen ht hend hstep

def expiredTask : Task := ⟨['t'], ['c'], .failed, none, [], [], [], [], ['n']⟩

/-- The runner of a task whose lease ran out comes back to finish it. -/
def lateFinish : Processes Unit Store Pc :=
  ⟨⟨⟨[expiredTask], List.nodup_singleton _⟩, ⟨[⟨['c'], ['t'], ['n'], 9⟩], List.nodup_singleton _⟩, 0⟩,
    fun _ => .start (.finish ['t'] ['n'] .succeeded ['r'] [])⟩

theorem ended_tasks_frozen_late_finish : ∃ t, Reach (interleave step) Any lateFinish t ∧
    t.point () = .done ∧ t.store.tasks.find ['t'] = some expiredTask := by
  have hrun : (execute (interleave step) Any [((), .run)] lateFinish).map
      (fun t => decide (t.point () = .done)) = some true := by decide
  obtain ⟨t, ht, hdone⟩ := exists_reach_of_execute hrun
  exact ⟨t, ht, of_decide_eq_true hdone, ended_tasks_frozen ht rfl (by simp [Active, expiredTask])⟩

end NewApi.Model.SystemTask
