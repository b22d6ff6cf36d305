import Mathlib.Data.Fintype.Basic
import Mathlib.Data.Int.Notation
import Mathlib.Data.Nat.Notation
import NewApi.Lib.Interleaving

/-!
# Delivering one billing log through the outbox (model/billing_outbox.go)

No transaction spans the main database and LOG_DB.
-/

namespace NewApi.Model.LogOutbox

open Transition

structure Event (P : Type) where
  id : ℕ
  payload : P
  attempts : ℤ
  nextAttemptAt : ℤ
  deriving DecidableEq, Repr

structure Store (P : Type) where
  outbox : Option (Event P)
  nextId : ℕ
  logs : List P
  last : Option P

/-- Where a worker is: the statement it runs next. `listed` is the id under which the
periodic worker has found the event. -/
inductive Pc (P : Type) where
  | list
  | claim (listed : Option ℕ)
  | read (listed : Option ℕ)
  | count (listed : Option ℕ) (e : Event P)
  | insert (listed : Option ℕ) (e : Event P)
  | update (listed : Option ℕ) (e : Event P)
  | delete (listed : Option ℕ) (e : Event P)
  | findFailed
  | recordFailure (id : ℕ)
  | done
  deriving DecidableEq, Repr

inductive Action (P : Type) where
  | run (now : ℤ)
  | fail
  | crash
  | stage (payload : P) (now : ℤ)
  | upsert (payload : P) (now : ℤ)
  deriving DecidableEq, Repr

variable {P ι : Type}

/-- `upsertConsumeLogOutboxIntent`: one `INSERT ... ON CONFLICT DO UPDATE`. -/
def upsertConsumeLogOutboxIntent (s : Store P) (payload : P) (nextAttemptAt : ℤ) : Store P :=
  match s.outbox with
  | some e =>
    { s with
      outbox := some { e with payload := payload, nextAttemptAt := nextAttemptAt }
      last := some payload }
  | none =>
    { s with
      outbox := some ⟨s.nextId, payload, 0, nextAttemptAt⟩
      nextId := s.nextId + 1
      last := some payload }

def recordBillingOutboxFailure (s : Store P) (id : ℕ) (now : ℤ) : Store P :=
  match s.outbox with
  | some e =>
    if e.id = id then
      { s with outbox := some { e with attempts := e.attempts + 1, nextAttemptAt := now + 15 } }
    else s
  | none => s

/-- The statement of a worker: `ProcessBillingOutbox` starts at `list`, and
`ProcessBillingOutboxEvent` at `claim none`. -/
def statement [DecidableEq P] (s : Store P) (now : ℤ) : Pc P → Option (Store P × Pc P)
  | .list =>
    match s.outbox with
    | some e => if e.nextAttemptAt ≤ now then some (s, .claim (some e.id)) else some (s, .done)
    | none => some (s, .done)
  | .claim listed =>
    match s.outbox with
    | some e =>
      if e.nextAttemptAt ≤ now then
        some ({ s with outbox := some { e with nextAttemptAt := now + 60 } }, .read listed)
      else some (s, .done)
    | none => some (s, .done)
  | .read listed =>
    match s.outbox with
    | some e => some (s, .count listed e)
    | none => some (s, .done)
  | .count listed e =>
    if s.logs.length = 0 then some (s, .insert listed e) else some (s, .update listed e)
  | .insert listed e => some ({ s with logs := s.logs ++ [e.payload] }, .delete listed e)
  | .update listed e => some ({ s with logs := s.logs.map fun _ => e.payload }, .delete listed e)
  | .delete _ e =>
    match s.outbox with
    | some row =>
      if row.id = e.id ∧ row.payload = e.payload then some ({ s with outbox := none }, .done)
      else some (s, .done)
    | none => some (s, .done)
  | .findFailed =>
    match s.outbox with
    | some e => some (s, .recordFailure e.id)
    | none => some (s, .done)
  | .recordFailure id => some (recordBillingOutboxFailure s id now, .done)
  | .done => none

def failed (s : Store P) : Pc P → Option (Store P × Pc P)
  | .list | .findFailed | .recordFailure _ => some (s, .done)
  | .claim listed | .read listed | .count listed _ | .insert listed _ | .update listed _
  | .delete listed _ =>
    match listed with
    | some id => some (s, .recordFailure id)
    | none => some (s, .findFailed)
  | .done => none

def step [DecidableEq P] (_ : ι) (s : Store P) (pc : Pc P) : Action P → Option (Store P × Pc P)
  | .run now => statement s now pc
  | .fail => failed s pc
  | .crash => some (s, .done)
  | .stage payload now => some (upsertConsumeLogOutboxIntent s payload (now + 60), pc)
  | .upsert payload now => some (upsertConsumeLogOutboxIntent s payload now, pc)

abbrev State (ι P : Type) := Processes ι (Store P) (Pc P)

/-- LOG_DB has at most one row for the event, and the last payload once the outbox row is gone. -/
structure Delivered (s : Store P) : Prop where
  atMostOne : s.logs.length ≤ 1
  lastWins : s.outbox = none → ∀ p, s.last = some p → s.logs = [p]

/-- From the claim of the event to the delete of its row. -/
def Delivering : Pc P → Prop
  | .read _ | .count _ _ | .insert _ _ | .update _ _ | .delete _ _ => True
  | _ => False

/-- The lease excludes: the event is claimed only while no other worker delivers it. -/
def LeaseExclusive (t : State ι P) : ι × Action P → Prop
  | (i, .run now) =>
    match t.point i, t.store.outbox with
    | .claim _, some e => e.nextAttemptAt ≤ now → ∀ j, j ≠ i → ¬ Delivering (t.point j)
    | _, _ => True
  | _ => True

structure StoreInv (s : Store P) : Prop where
  delivered : Delivered s
  current : ∀ e, s.outbox = some e → s.last = some e.payload

/-- What a worker knows while no other one delivers. -/
def WorkerInv (s : Store P) : Pc P → Prop
  | .count _ _ => s.outbox ≠ none
  | .insert _ _ => s.outbox ≠ none ∧ s.logs = []
  | .update _ _ => s.outbox ≠ none ∧ s.logs.length = 1
  | .delete _ e => s.logs = [e.payload]
  | _ => True

variable {s s' : Store P} {pc pc' : Pc P} {a : Action P} {i : ι}

theorem WorkerInv.of_same (h : WorkerInv s pc) (hlogs : s'.logs = s.logs)
    (hrow : s.outbox ≠ none → s'.outbox ≠ none) : WorkerInv s' pc := by
  cases pc with
  | count listed e => exact hrow h
  | insert listed e | update listed e => exact ⟨hrow h.1, hlogs ▸ h.2⟩
  | delete listed e => exact hlogs.trans h
  | _ => trivial

theorem WorkerInv.of_idle (h : ¬ Delivering pc) : WorkerInv s pc := by
  cases pc <;> first | trivial | exact absurd trivial h

/-- A row that stands in the outbox carries the last payload, so the log is not settled yet. -/
theorem StoreInv.of_row {e : Event P} (hone : s.logs.length ≤ 1) (he : s.outbox = some e)
    (hlast : s.last = some e.payload) : StoreInv s := by
  refine ⟨⟨hone, fun hnone => ?_⟩, fun e' he' => ?_⟩
  · rw [he] at hnone
    cases hnone
  · rw [he] at he'
    cases he'
    exact hlast

theorem upsert_inv (h : StoreInv s) (payload : P) (next : ℤ) :
    StoreInv (upsertConsumeLogOutboxIntent s payload next) ∧
      (upsertConsumeLogOutboxIntent s payload next).logs = s.logs ∧
      (upsertConsumeLogOutboxIntent s payload next).outbox ≠ none := by
  unfold upsertConsumeLogOutboxIntent
  split
  all_goals exact ⟨.of_row h.delivered.atMostOne rfl rfl, rfl, Option.some_ne_none _⟩

theorem recordFailure_inv (h : StoreInv s) (id : ℕ) (now : ℤ) :
    StoreInv (recordBillingOutboxFailure s id now) ∧
      (recordBillingOutboxFailure s id now).logs = s.logs ∧
      (s.outbox ≠ none → (recordBillingOutboxFailure s id now).outbox ≠ none) := by
  unfold recordBillingOutboxFailure
  split
  · next e he =>
    split
    · exact ⟨.of_row h.delivered.atMostOne rfl (h.current e he), rfl, fun _ => Option.some_ne_none _⟩
    · exact ⟨h, rfl, fun hrow => hrow⟩
  · exact ⟨h, rfl, fun hrow => hrow⟩

theorem failed_moves {r : Store P × Pc P} (hr : failed s pc = some r) :
    r.1 = s ∧ ¬ Delivering r.2 := by
  cases pc <;> simp only [failed] at hr
  all_goals first
    | (split at hr <;> cases hr <;> exact ⟨rfl, id⟩)
    | (cases hr; exact ⟨rfl, id⟩)
    | cases hr

variable [DecidableEq P]

/-- What a step does to the store and to its worker; a worker that does not deliver leaves the log
and the row of the event. -/
theorem statement_keeps {now : ℤ} (h : StoreInv s) (hw : WorkerInv s pc)
    (hr : statement s now pc = some (s', pc')) : StoreInv s' ∧ WorkerInv s' pc' ∧
      (Delivering pc ∨ s'.logs = s.logs ∧ (s.outbox ≠ none → s'.outbox ≠ none)) := by
  have hrow : ∀ {e}, s.outbox = some e → s.outbox ≠ none := fun he hnone => by
    rw [he] at hnone
    cases hnone
  have hstays : Delivering pc ∨ s.logs = s.logs ∧ (s.outbox ≠ none → s.outbox ≠ none) :=
    .inr ⟨rfl, id⟩
  cases pc with
  | list =>
    simp only [statement] at hr
    split at hr
    · split at hr <;> cases hr <;> exact ⟨h, trivial, hstays⟩
    · cases hr
      exact ⟨h, trivial, hstays⟩
  | findFailed =>
    simp only [statement] at hr
    split at hr <;> cases hr <;> exact ⟨h, trivial, hstays⟩
  | claim listed =>
    simp only [statement] at hr
    split at hr
    · next e he =>
      split at hr <;> cases hr
      · exact ⟨.of_row h.delivered.atMostOne rfl (h.current e he), trivial,
          .inr ⟨rfl, fun _ => Option.some_ne_none _⟩⟩
      · exact ⟨h, trivial, hstays⟩
    · cases hr
      exact ⟨h, trivial, hstays⟩
  | read listed =>
    simp only [statement] at hr
    split at hr <;> cases hr
    · next e he => exact ⟨h, hrow he, .inl trivial⟩
    · exact ⟨h, trivial, .inl trivial⟩
  | count listed e =>
    simp only [statement] at hr
    have hone := h.delivered.atMostOne
    split at hr <;> cases hr
    · next hlen => exact ⟨h, ⟨hw, List.length_eq_zero_iff.mp hlen⟩, .inl trivial⟩
    · next hlen => exact ⟨h, ⟨hw, by omega⟩, .inl trivial⟩
  | insert listed e =>
    cases hr
    obtain ⟨row, he⟩ := Option.ne_none_iff_exists'.mp hw.1
    exact ⟨.of_row (by simp [hw.2]) he (h.current row he), by simp [WorkerInv, hw.2], .inl trivial⟩
  | update listed e =>
    cases hr
    obtain ⟨row, he⟩ := Option.ne_none_iff_exists'.mp hw.1
    obtain ⟨p, hp⟩ := List.length_eq_one_iff.mp hw.2
    exact ⟨.of_row (by simp [hp]) he (h.current row he), by simp [WorkerInv, hp], .inl trivial⟩
  | delete listed e =>
    simp only [statement] at hr
    split at hr
    · next row hrow =>
      split at hr <;> cases hr
      · next hmatch =>
        -- the deleted row carried the last payload, and so does the log row
        refine ⟨⟨⟨h.delivered.atMostOne, fun _ p hp => ?_⟩, fun e' he' => ?_⟩, trivial,
          .inl trivial⟩
        · rw [h.current row hrow, hmatch.2] at hp
          cases hp
          exact hw
        · cases he'
      · exact ⟨h, trivial, .inl trivial⟩
    · cases hr
      exact ⟨h, trivial, .inl trivial⟩
  | recordFailure id =>
    cases hr
    obtain ⟨hinv, hlogs, hkept⟩ := recordFailure_inv h id now
    exact ⟨hinv, trivial, .inr ⟨hlogs, hkept⟩⟩
  | done => cases hr

theorem step_keeps (h : StoreInv s) (hw : WorkerInv s pc)
    (hr : step i s pc a = some (s', pc')) : StoreInv s' ∧ WorkerInv s' pc' ∧
      (Delivering pc ∨ s'.logs = s.logs ∧ (s.outbox ≠ none → s'.outbox ≠ none)) := by
  cases a with
  | run now => exact statement_keeps h hw hr
  | fail =>
    obtain ⟨rfl, hpc⟩ := failed_moves hr
    exact ⟨h, .of_idle hpc, .inr ⟨rfl, id⟩⟩
  | crash =>
    cases hr
    exact ⟨h, trivial, .inr ⟨rfl, id⟩⟩
  | stage payload now | upsert payload now =>
    cases hr
    obtain ⟨hinv, hlogs, hrow⟩ := upsert_inv h payload _
    exact ⟨hinv, hw.of_same hlogs fun _ => hrow, .inr ⟨hlogs, fun _ => hrow⟩⟩

/-- Only the claim of a due event starts a delivery. -/
theorem step_delivering (hr : step i s pc a = some (s', pc')) (hpc : Delivering pc') :
    Delivering pc ∨ ∃ listed now e, pc = .claim listed ∧ a = .run now ∧ s.outbox = some e ∧
      e.nextAttemptAt ≤ now := by
  cases a with
  | run now => cases pc <;> grind [step, statement, Delivering]
  | fail => exact absurd hpc (failed_moves hr).2
  | crash =>
    cases hr
    cases hpc
  | stage payload now | upsert payload now =>
    cases hr
    exact .inl hpc

structure OneDelivery (t : State ι P) : Prop where
  store : StoreInv t.store
  workers : ∀ i, WorkerInv t.store (t.point i)
  alone : ∀ i j, Delivering (t.point i) → Delivering (t.point j) → i = j

theorem OneDelivery.step [DecidableEq ι] {t u : State ι P} {e : ι × Action P} (h : OneDelivery t)
    (hok : LeaseExclusive t e) (hn : interleave step t e = some u) : OneDelivery u := by
  obtain ⟨i, a⟩ := e
  obtain ⟨⟨store, pc⟩, hs, rfl⟩ := Option.map_eq_some_iff.mp hn
  obtain ⟨hstore, hpc, hleaves⟩ := step_keeps h.store (h.workers i) hs
  have hother : ∀ j, j ≠ i → WorkerInv store (t.point j) := by
    intro j hj
    obtain hi | ⟨hlogs, hrow⟩ := hleaves
    · exact .of_idle fun hd => hj (h.alone j i hd hi)
    · exact (h.workers j).of_same hlogs hrow
  have hsole : Delivering pc → ∀ j, j ≠ i → ¬ Delivering (t.point j) := by
    intro hd j hj
    obtain hi | ⟨listed, now, e, hclaim, rfl, he, hdue⟩ := step_delivering hs hd
    · exact fun hdj => hj (h.alone j i hdj hi)
    · simp only [LeaseExclusive, hclaim, he] at hok
      exact hok hdue j hj
  refine ⟨hstore, fun j => ?_, fun j k hj hk => ?_⟩
  · by_cases hj : j = i
    · subst hj
      simpa using hpc
    · simpa [hj] using hother j hj
  · by_cases hji : j = i <;> by_cases hki : k = i
    · rw [hji, hki]
    · subst hji
      simp only [Function.update_self, Function.update_of_ne hki] at hj hk
      exact absurd hk (hsole hj k hki)
    · subst hki
      simp only [Function.update_self, Function.update_of_ne hji] at hj hk
      exact absurd hj (hsole hk j hji)
    · simp only [Function.update_of_ne hji, Function.update_of_ne hki] at hj hk
      exact h.alone j k hj hk

structure Initial (s : State ι P) : Prop where
  outbox : s.store.outbox = none
  logs : s.store.logs = []
  last : s.store.last = none
  workers : ∀ i, s.point i = .list ∨ s.point i = .claim none

/-- The log is delivered once and with the last payload, in every run in which the lease excludes
a second delivery. -/
theorem log_delivered_once [DecidableEq ι] {s t : State ι P} (h0 : Initial s)
    (h : Reach (interleave step) LeaseExclusive s t) : Delivered t.store := by
  have hidle : ∀ i, ¬ Delivering (s.point i) := by
    intro i
    obtain hi | hi := h0.workers i <;> rw [hi] <;> exact id
  have hinit : OneDelivery s := by
    refine ⟨⟨⟨?_, ?_⟩, ?_⟩, fun i => .of_idle (hidle i), fun i _ hi => absurd hi (hidle i)⟩
    · rw [h0.logs]
      exact Nat.zero_le 1
    · intro _ p hp
      rw [h0.last] at hp
      cases hp
    · intro e he
      rw [h0.outbox] at he
      cases he
  exact (h.invariant hinit fun _ _ _ hI hok hn => hI.step hok hn).store.delivered

instance (pc : Pc P) : Decidable (Delivering pc) :=
  match pc with
  | .read _ | .count _ _ | .insert _ _ | .update _ _ | .delete _ _ => isTrue trivial
  | .list | .claim _ | .findFailed | .recordFailure _ | .done => isFalse id

instance [DecidableEq ι] [Fintype ι] (s : State ι P) (e : ι × Action P) :
    Decidable (LeaseExclusive s e) := by
  unfold LeaseExclusive
  split
  · split <;> infer_instance
  · infer_instance

def twoWorkers : State (Fin 2) ℕ where
  store := ⟨none, 0, [], none⟩
  point i := if i = 0 then .claim none else .list

theorem twoWorkers_initial : Initial twoWorkers := by
  refine ⟨rfl, rfl, rfl, fun i => ?_⟩
  by_cases hi : i = 0
  · exact .inr (if_pos hi)
  · exact .inl (if_neg hi)

theorem log_delivered_after_late_stage :
    ∃ t, Reach (interleave step) LeaseExclusive twoWorkers t ∧
      (t.store.outbox, t.store.logs) = (none, [2]) ∧ Delivered t.store := by
  have hrun : (execute (interleave step) LeaseExclusive
      ([(0, .stage 1 0)] ++ List.replicate 5 (1, .run 60) ++ [(0, .upsert 2 61)] ++
        [(1, .run 61)] ++ List.replicate 5 (0, .run 61)) twoWorkers).map
      (fun t => decide ((t.store.outbox, t.store.logs) = (none, [2]))) = some true := by decide
  obtain ⟨t, ht, hout⟩ := exists_reach_of_execute hrun
  exact ⟨t, ht, of_decide_eq_true hout, log_delivered_once twoWorkers_initial ht⟩

/-- The upsert of payload 2 makes the event due again while the first worker, which has
counted no row, still holds its lease: both workers insert. -/
theorem log_delivered_twice :
    Initial twoWorkers ∧ ∃ t, Reach (interleave step) Any twoWorkers t ∧
      t.store.outbox = none ∧ t.store.logs = [2, 1] ∧ (∀ i, t.point i = .done) ∧
      ¬ Delivered t.store := by
  have hrun : (execute (interleave step) Any
      ([(0, .stage 1 0), (0, .upsert 1 1)] ++ List.replicate 3 (0, .run 1) ++
        [(1, .upsert 2 2)] ++ List.replicate 6 (1, .run 2) ++ List.replicate 2 (0, .run 3))
        twoWorkers).map (fun t => decide (t.store.outbox = none ∧ t.store.logs = [2, 1] ∧
          ∀ i, t.point i = .done)) = some true := by decide
  obtain ⟨t, ht, hout⟩ := exists_reach_of_execute hrun
  obtain ⟨hnone, hlogs, hdone⟩ := of_decide_eq_true hout
  refine ⟨twoWorkers_initial, t, ht, hnone, hlogs, hdone, fun hdel => ?_⟩
  have hlen := hdel.atMostOne
  rw [hlogs] at hlen
  revert hlen
  decide

/-! ### What no crossing delivery breaks -/

def Somewhere (s : Store P) : Prop := s.last ≠ none → s.outbox ≠ none ∨ s.logs ≠ []

def HasLogged (_ : ι) (s : Store P) : Pc P → Prop
  | .update _ _ | .delete _ _ => s.logs ≠ []
  | _ => True

/-- A row is deleted only by a worker that has written to LOG_DB, where nothing is removed. -/
theorem step_somewhere {s' : Store P} {pc pc' : Pc P} {a : Action P} (h : Somewhere s)
    (hpc : HasLogged i s pc) (hr : step i s pc a = some (s', pc')) :
    Somewhere s' ∧ HasLogged i s' pc' ∧ (s.logs ≠ [] → s'.logs ≠ []) := by
  unfold Somewhere at h ⊢
  cases a with
  | run now =>
    cases pc with
    | insert listed e =>
      cases hr
      have hne : s.logs ++ [e.payload] ≠ [] := by simp
      exact ⟨fun _ => .inr hne, hne, fun _ => hne⟩
    | update listed e =>
      cases hr
      have hne : (s.logs.map fun _ => e.payload) ≠ [] := mt List.map_eq_nil_iff.mp hpc
      exact ⟨fun _ => .inr hne, hne, fun _ => hne⟩
    | _ => grind [step, statement, recordBillingOutboxFailure, HasLogged]
  | fail => cases pc <;> simp only [step, failed] at hr <;> grind [HasLogged]
  | crash => grind [step, HasLogged]
  | stage payload now | upsert payload now =>
    cases hr
    cases pc <;> grind [upsertConsumeLogOutboxIntent, HasLogged]

/-- Whatever crosses, a staged log is in the outbox or has reached LOG_DB. -/
theorem log_never_lost [DecidableEq ι] {s t : State ι P} (h0 : Initial s)
    (h : Reach (interleave step) Any s t) (hstaged : t.store.last ≠ none) :
    t.store.outbox ≠ none ∨ t.store.logs ≠ [] := by
  have hinit : Interleaved Somewhere HasLogged s := by
    refine ⟨fun hne => absurd h0.last hne, fun i => ?_⟩
    obtain hi | hi := h0.workers i <;> rw [hi] <;> trivial
  refine (h.interleaved_at hinit fun t i a u pc hI _ hr => ?_).store hstaged
  obtain ⟨hu, hpc, hne⟩ := step_somewhere hI.store (hI.procs i) hr
  refine ⟨hu, hpc, fun j _ => ?_⟩
  have hj := hI.procs j
  cases hq : t.point j <;> grind [HasLogged]

theorem log_never_lost_delivered_twice : ∃ t : State (Fin 2) ℕ, t.store.last = some 2 ∧
    t.store.logs = [2, 1] ∧ (t.store.outbox ≠ none ∨ t.store.logs ≠ []) := by
  have hrun : (execute (interleave step) Any
      ([(0, .stage 1 0), (0, .upsert 1 1)] ++ List.replicate 3 (0, .run 1) ++
        [(1, .upsert 2 2)] ++ List.replicate 6 (1, .run 2) ++ List.replicate 2 (0, .run 3))
        twoWorkers).map (fun t => decide (t.store.last = some 2 ∧ t.store.logs = [2, 1])) =
      some true := by decide
  obtain ⟨t, ht, hout⟩ := exists_reach_of_execute hrun
  obtain ⟨hlast, hlogs⟩ := of_decide_eq_true hout
  exact ⟨t, hlast, hlogs, log_never_lost twoWorkers_initial ht (by simp [hlast])⟩

end NewApi.Model.LogOutbox
