import NewApi.Lib.Fallible
import NewApi.Lib.Table
import NewApi.Service.FundingSource

/-!
# The tables behind the billing path (model/user.go, token.go, subscription.go)

Only the columns that the billing path reads or writes.
-/

namespace NewApi.Model

open NewApi.Service (Call)

structure User where
  id : ℤ
  quota : ℤ
  deriving DecidableEq, Repr

structure Token where
  id : ℤ
  remainQuota : ℤ
  usedQuota : ℤ
  deriving DecidableEq, Repr

structure SubscriptionPlan where
  id : ℤ
  title : Text
  quotaResetPeriod : Text
  quotaResetCustomSeconds : ℤ
  deriving DecidableEq, Repr

inductive SubscriptionStatus where
  | active
  | expired
  | cancelled
  deriving DecidableEq, Repr

structure UserSubscription where
  id : ℤ
  userId : ℤ
  planId : ℤ
  amountTotal : ℤ
  amountUsed : ℤ
  startTime : ℤ
  endTime : ℤ
  status : SubscriptionStatus
  lastResetTime : ℤ
  nextResetTime : ℤ
  allowWalletOverflow : Bool
  deriving DecidableEq, Repr

inductive RecordStatus where
  | consumed
  | refunded
  deriving DecidableEq, Repr

structure SubscriptionPreConsumeRecord where
  requestId : Text
  userId : ℤ
  userSubscriptionId : ℤ
  preConsumed : ℤ
  status : RecordStatus
  deriving DecidableEq, Repr

structure Tables where
  users : Table User.id
  tokens : Table Token.id
  plans : Table SubscriptionPlan.id
  subscriptions : Table UserSubscription.id
  records : Table SubscriptionPreConsumeRecord.requestId

/-- Go's calendar in the server's time zone, on Unix seconds: the next midnight, the
next Monday and the first day of the next month. -/
structure Calendar where
  nextDay : ℤ → ℤ
  nextMonday : ℤ → ℤ
  nextMonth : ℤ → ℤ

/-- What a call reads besides the tables. `resetFuel` bounds the catch-up loop of a
reset; `tokenAdjustFails` is the driver error of the unguarded updates of an API key, which
follow it and not the script. -/
structure Env where
  timestamp : ℤ
  dbTimestamp : ℤ
  calendar : Calendar
  resetFuel : ℕ
  tokenAdjustFails : Option GoError

structure Db where
  tables : Tables
  faults : List (Option GoError)

namespace Db

def statement : Call Db Unit := fun w =>
  match w.faults with
  | some e :: rest => (.error e, { w with faults := rest })
  | none :: rest => (.ok (), { w with faults := rest })
  | [] => (.ok (), w)

def query {α : Type} (f : Tables → Except GoError α) : Call Db α := fun w =>
  match statement w with
  | (.error e, w) => (.error e, w)
  | (.ok _, w) => (f w.tables, w)

def exec (f : Tables → Tables) : Call Db Unit := fun w =>
  match statement w with
  | (.error e, w) => (.error e, w)
  | (.ok _, w) => (.ok (), { w with tables := f w.tables })

def transaction {α : Type} (body : Call Db α) : Call Db α := fun w =>
  match statement w with
  | (.error e, w) => (.error e, w)
  | (.ok _, w₀) =>
    match body w₀ with
    | (.error e, w) => (.error e, { w with tables := w₀.tables })
    | (.ok a, w) =>
      match statement w with
      | (.error e, w) => (.error e, { w with tables := w₀.tables })
      | (.ok _, w) => (.ok a, w)

variable {w w' : Db} {α : Type}

theorem statement_tables {r : Except GoError Unit} (h : statement w = (r, w')) :
    w'.tables = w.tables := by
  unfold statement at h
  split at h <;> cases h <;> rfl

theorem query_tables {f : Tables → Except GoError α} {r : Except GoError α}
    (h : query f w = (r, w')) : w'.tables = w.tables := by
  unfold query at h
  rcases hs : statement w with ⟨e | _, w₁⟩
  all_goals
    rw [hs] at h
    cases h
    exact statement_tables hs

theorem query_ok {f : Tables → Except GoError α} {a : α} (h : query f w = (.ok a, w')) :
    f w.tables = .ok a := by
  unfold query at h
  rcases hs : statement w with ⟨e | _, w₁⟩
  · rw [hs] at h
    cases h
  · rw [hs] at h
    rw [← statement_tables hs]
    exact congrArg Prod.fst h

theorem query_frame (f : Tables → Except GoError α) :
    Fallible.Frame Db.tables (query f) := fun _ => query_tables rfl

theorem exec_ok {f : Tables → Tables} (h : exec f w = (.ok (), w')) : w'.tables = f w.tables := by
  unfold exec at h
  rcases hs : statement w with ⟨e | _, w₁⟩
  · rw [hs] at h
    cases h
  · rw [hs] at h
    cases h
    rw [statement_tables hs]

theorem transaction_error {body : Call Db α} {e : GoError}
    (h : transaction body w = (.error e, w')) : w'.tables = w.tables := by
  unfold transaction at h
  rcases hs : statement w with ⟨_ | _, w₀⟩
  · rw [hs] at h
    cases h
    exact statement_tables hs
  rw [hs] at h
  simp only at h
  have h₀ := statement_tables hs
  rcases hb : body w₀ with ⟨_ | a, w₁⟩
  · rw [hb] at h
    cases h
    exact h₀
  rw [hb] at h
  simp only at h
  rcases hc : statement w₁ with ⟨_ | _, w₂⟩
  · rw [hc] at h
    cases h
    exact h₀
  · rw [hc] at h
    cases h

theorem transaction_ok {body : Call Db α} {a : α} (h : transaction body w = (.ok a, w')) :
    ∃ w₀ w₁, w₀.tables = w.tables ∧ body w₀ = (.ok a, w₁) ∧ w'.tables = w₁.tables := by
  unfold transaction at h
  rcases hs : statement w with ⟨_ | _, w₀⟩
  · rw [hs] at h
    cases h
  rw [hs] at h
  simp only at h
  rcases hb : body w₀ with ⟨_ | a', w₁⟩
  · rw [hb] at h
    cases h
  rw [hb] at h
  simp only at h
  rcases hc : statement w₁ with ⟨_ | _, w₂⟩
  · rw [hc] at h
    cases h
  · rw [hc] at h
    cases h
    exact ⟨w₀, w₁, statement_tables hs, hb, statement_tables hc⟩

end Db

end NewApi.Model
