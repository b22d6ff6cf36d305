import NewApi.Common.Text
import NewApi.Lib.Interleaving
import NewApi.Lib.Table

/-!
# System tasks and their leases (model/system_task.go)
-/

namespace NewApi.Model.SystemTask

open Transition

inductive Status where
  | pending
  | running
  | succeeded
  | failed
  deriving DecidableEq, Repr

inductive FinalStatus where
  | succeeded
  | failed
  deriving DecidableEq, Repr

def FinalStatus.status : FinalStatus → Status
  | .succeeded => .succeeded
  | .failed => .failed

/-- A row of `system_tasks`. Its `id` and its `task_id` are both unique and never change; `taskId`
stands for both. -/
structure Task where
  taskId : Text
  type : Text
  status : Status
  activeKey : Option Text
  payload : Text
  state : Text
  result : Text
  error : Text
  lockedBy : Text
  deriving DecidableEq, Repr

structure Lock where
  type : Text
  taskId : Text
  lockedBy : Text
  lockedUntil : ℤ
  deriving DecidableEq, Repr

structure Store where
  tasks : Table Task.taskId
  locks : Table Lock.type
  clock : ℤ

/-- The `INSERT` of `CreateSystemTask`: `task_id` and `active_key` have unique indexes. -/
def insertTask (s : Store) (taskId type payload state : Text) : Option Store :=
  if s.tasks.rows.any fun x => decide (x.activeKey = some type) then none
  else
    (s.tasks.insert ⟨taskId, type, .pending, some type, payload, state, [], [], []⟩).map
      fun tasks => { s with tasks := tasks }

def isPending (taskId type : Text) (x : Task) : Bool :=
  decide (x.taskId = taskId ∧ x.type = type ∧ x.status = .pending)

def Task.leaseExpired (x : Task) : Task :=
  { x with
    status := .failed
    activeKey := none
    error := "task lease expired".toList }

def Task.started (runnerId : Text) (x : Task) : Task :=
  { x with
    status := .running
    lockedBy := runnerId }

def Task.withState (state : Text) (x : Task) : Task := { x with state := state }

def Task.finished (status : FinalStatus) (result error : Text) (x : Task) : Task :=
  { x with
    status := status.status
    activeKey := none
    result := result
    error := error }

def markSystemTaskLeaseExpired (s : Store) (taskId : Text) : Store :=
  { s with
    tasks := s.tasks.updateWhere (fun x => decide (x.taskId = taskId ∧ x.status = .running))
      Task.leaseExpired fun _ => rfl }

def releaseSystemTaskLock (s : Store) (taskId lockedBy : Text) : Store :=
  { s with
    locks := s.locks.deleteWhere fun l => decide (l.taskId = taskId ∧ l.lockedBy = lockedBy) }

/-- The `EXISTS` condition of `UpdateSystemTaskState` and `FinishSystemTask`. -/
def holdsLock (s : Store) (taskId lockedBy : Text) : Bool :=
  s.locks.rows.any fun l =>
    decide (l.taskId = taskId ∧ l.lockedBy = lockedBy ∧ s.clock ≤ l.lockedUntil)

def ownRunning (s : Store) (taskId lockedBy : Text) (x : Task) : Bool :=
  decide (x.taskId = taskId ∧ x.status = .running ∧ x.lockedBy = lockedBy) &&
    holdsLock s taskId lockedBy

def updateOwn (s : Store) (taskId lockedBy : Text) (f : Task → Task)
    (hf : ∀ x, (f x).taskId = x.taskId) : Store × Bool :=
  ({ s with tasks := s.tasks.updateWhere (ownRunning s taskId lockedBy) f hf },
    s.tasks.rows.any (ownRunning s taskId lockedBy))

structure Claim where
  taskId : Text
  type : Text
  runnerId : Text
  lockUntil : ℤ
  deriving DecidableEq, Repr

inductive Op where
  | create (taskId type payload state : Text)
  | claim (c : Claim)
  | renew (taskId lockedBy : Text) (lockUntil : ℤ)
  | updateState (taskId lockedBy state : Text)
  | finish (taskId lockedBy : Text) (status : FinalStatus) (result error : Text)
  | expire
  deriving DecidableEq, Repr

inductive Pc where
  | start (op : Op)
  | insertLock (c : Claim) (now : ℤ)
  | readLock (c : Claim) (now : ℤ)
  | takeOver (c : Claim) (now : ℤ) (existing : Text)
  | markExpired (c : Claim) (expired : Text)
  | setRunning (c : Claim)
  | releaseClaim (c : Claim)
  | reread (c : Claim)
  | releaseFinished (taskId lockedBy : Text)
  | markStale (now : ℤ) (lock : Lock) (locks : List Lock)
  | deleteStale (now : ℤ) (lock : Lock) (locks : List Lock)
  | done
  deriving DecidableEq, Repr

inductive Action where
  | run
  | fail
  | crash
  | tick (seconds : ℕ)
  deriving DecidableEq, Repr

def nextStale (now : ℤ) : List Lock → Pc
  | [] => .done
  | lock :: locks => .markStale now lock locks

/-- After the lock of the type is taken: the task that an expired lock named is failed first. -/
def acquired (c : Claim) (expired : Text) : Pc :=
  if expired ≠ [] ∧ expired ≠ c.taskId then .markExpired c expired else .setRunning c

def first (s : Store) : Op → Store × Pc
  | .create taskId type payload state => ((insertTask s taskId type payload state).getD s, .done)
  | .claim c =>
    if s.tasks.rows.any (isPending c.taskId c.type) then (s, .insertLock c s.clock) else (s, .done)
  | .renew taskId lockedBy lockUntil =>
    ({ s with
      locks := s.locks.updateWhere
        (fun l => decide (l.taskId = taskId ∧ l.lockedBy = lockedBy ∧ s.clock ≤ l.lockedUntil))
        (fun l => { l with lockedUntil := lockUntil }) fun _ => rfl }, .done)
  | .updateState taskId lockedBy state =>
    ((updateOwn s taskId lockedBy (Task.withState state) fun _ => rfl).1, .done)
  | .finish taskId lockedBy status result error =>
    let r := updateOwn s taskId lockedBy (Task.finished status result error) fun _ => rfl
    (r.1, if r.2 then .releaseFinished taskId lockedBy else .done)
  | .expire =>
    (s, nextStale s.clock (s.locks.rows.filter fun l => decide (l.lockedUntil < s.clock)))

def statement (s : Store) : Pc → Option (Store × Pc)
  | .start op => some (first s op)
  | .insertLock c now =>
    match s.locks.insert ⟨c.type, c.taskId, c.runnerId, c.lockUntil⟩ with
    | some locks => some ({ s with locks := locks }, acquired c [])
    | none => some (s, .readLock c now)
  | .readLock c now =>
    match s.locks.find c.type with
    | none => some (s, .done)
    | some existing =>
      if now ≤ existing.lockedUntil then some (s, .done)
      else some (s, .takeOver c now existing.taskId)
  | .takeOver c now existing =>
    let expired := fun l : Lock => decide (l.type = c.type ∧ l.lockedUntil < now)
    if s.locks.rows.any expired then
      some ({ s with
        locks := s.locks.updateWhere expired
          (fun l => { l with
            taskId := c.taskId
            lockedBy := c.runnerId
            lockedUntil := c.lockUntil }) fun _ => rfl }, acquired c existing)
    else some (s, .done)
  | .markExpired c expired => some (markSystemTaskLeaseExpired s expired, .setRunning c)
  | .setRunning c =>
    if s.tasks.rows.any (isPending c.taskId c.type) then
      some ({ s with
        tasks := s.tasks.updateWhere (isPending c.taskId c.type) (Task.started c.runnerId)
          fun _ => rfl }, .reread c)
    else some (s, .releaseClaim c)
  | .releaseClaim c => some (releaseSystemTaskLock s c.taskId c.runnerId, .done)
  | .reread _ => some (s, .done)
  | .releaseFinished taskId lockedBy => some (releaseSystemTaskLock s taskId lockedBy, .done)
  | .markStale now lock locks =>
    some (markSystemTaskLeaseExpired s lock.taskId, .deleteStale now lock locks)
  | .deleteStale now lock locks =>
    some ({ s with
      locks := s.locks.deleteWhere fun l => decide (l.type = lock.type ∧ l.taskId = lock.taskId ∧
        l.lockedBy = lock.lockedBy ∧ l.lockedUntil < now) }, nextStale now locks)
  | .done => none

def failed : Pc → Option Pc
  | .insertLock c now => some (.readLock c now)
  | .markExpired c _ => some (.releaseClaim c)
  | .setRunning c => some (.releaseClaim c)
  | .done => none
  | _ => some .done

def step {ι : Type} (_ : ι) (s : Store) (pc : Pc) : Action → Option (Store × Pc)
  | .run => statement s pc
  | .fail => (failed pc).map fun pc => (s, pc)
  | .crash => some (s, .done)
  | .tick seconds => some ({ s with clock := s.clock + seconds }, pc)

end NewApi.Model.SystemTask
