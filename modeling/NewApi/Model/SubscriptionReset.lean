import NewApi.Common.Calendar
import NewApi.Model.Subscription

/-!
# Catching up with the quota resets (model/subscription.go)

`maybeResetUserSubscriptionWithPlanTx` walks from the last reset of a row to the last one that is
not after `now`.
-/

namespace NewApi

/-- `Unix()` is an `int64`. -/
def Zone.calendar (zone : Zone) : Model.Calendar where
  nextDay base := Model.wrapInt64 (zone.nextDay base)
  nextMonday base := Model.wrapInt64 (zone.nextMonday base)
  nextMonth base := Model.wrapInt64 (zone.nextMonth base)

end NewApi

namespace NewApi.Model

/-- The last second that `Time.Add` can leave. -/
def lastSecond : ℤ := 9223371974719179006

/-- From every `int64` time, the next reset, if it is due by `lastSecond`, is later, and the one
after it is not negative. -/
def Forward (next : ℤ → ℤ) : Prop :=
  ∀ base, -9223372036854775808 ≤ base → base ≤ 9223372036854775807 →
    0 < next base → next base ≤ lastSecond → base < next base ∧ 0 ≤ next (next base)

theorem wrapInt64_of_range {n : ℤ} (h₁ : -9223372036854775808 ≤ n)
    (h₂ : n ≤ 9223372036854775807) : wrapInt64 n = n := by
  unfold wrapInt64
  omega

theorem wrapInt64_range (n : ℤ) :
    -9223372036854775808 ≤ wrapInt64 n ∧ wrapInt64 n ≤ 9223372036854775807 := by
  unfold wrapInt64
  omega

theorem durationSeconds_range (seconds : ℤ) :
    -9223372037 ≤ durationSeconds seconds ∧ durationSeconds seconds ≤ 9223372036 := by
  have h := wrapInt64_range (seconds * 1000000000)
  unfold durationSeconds
  omega

theorem addSeconds_eq {base d : ℤ} (h₁ : -9223372036854775808 ≤ base + 62135596800)
    (h₂ : base + 62135596800 ≤ 9223372036854775807)
    (h₃ : -9223372036854775808 ≤ base + 62135596800 + d)
    (h₄ : base + 62135596800 + d ≤ 9223372036854775807)
    (h₅ : -9223372036854775808 ≤ base + d) : addSeconds base d = base + d := by
  have hext : wrapInt64 (base + 62135596800) = base + 62135596800 := wrapInt64_of_range h₁ h₂
  have hsum : wrapInt64 (base + 62135596800 + d) = base + 62135596800 + d :=
    wrapInt64_of_range h₃ h₄
  have hsame : decide (base + 62135596800 < base + 62135596800 + d) = decide (0 < d) := by
    rw [decide_eq_decide]
    omega
  simp only [addSeconds, hext, hsum, if_pos hsame]
  rw [wrapInt64_of_range (by omega) (by omega)]
  omega

/-- A sum over the end stops at the largest time. -/
theorem addSeconds_over {base d : ℤ} (hpos : 0 < base) (hd : 1 ≤ d) (hmax : d ≤ 9223372036)
    (hext : base + 62135596800 ≤ 9223372036854775807)
    (hsum : 9223372036854775807 < base + 62135596800 + d) :
    addSeconds base d = 9223371974719179007 := by
  have h₁ : wrapInt64 (base + 62135596800) = base + 62135596800 :=
    wrapInt64_of_range (by omega) hext
  have h₂ : wrapInt64 (base + 62135596800 + d) =
      base + 62135596800 + d - 18446744073709551616 := by
    unfold wrapInt64
    omega
  have hdiff : ¬ decide (base + 62135596800 <
      base + 62135596800 + d - 18446744073709551616) = decide (0 < d) := by
    rw [decide_eq_decide]
    omega
  have hd' : 0 < d := by omega
  simp only [addSeconds, h₁, h₂, if_neg hdiff, if_pos hd']
  decide

theorem addSeconds_pos {base d : ℤ} (hpos : 0 < base) (hlast : base ≤ lastSecond) (hd : 1 ≤ d)
    (hmax : d ≤ 9223372036) : 0 < addSeconds base d := by
  simp only [lastSecond] at hlast
  by_cases hsum : base + 62135596800 + d ≤ 9223372036854775807
  · rw [addSeconds_eq (by omega) (by omega) (by omega) hsum (by omega)]
    omega
  · rw [addSeconds_over hpos hd hmax (by omega) (by omega)]
    decide

theorem addSeconds_forward {d : ℤ} (hd : 1 ≤ d) (hmax : d ≤ 9223372036) :
    Forward fun base => addSeconds base d := by
  intro base hlow hhigh hnext hlast
  refine ⟨?_, (addSeconds_pos hnext hlast hd hmax).le⟩
  simp only [lastSecond] at hnext hlast ⊢
  by_cases hneg : base ≤ 0
  · omega
  by_cases hext : base + 62135596800 ≤ 9223372036854775807
  · by_cases hsum : base + 62135596800 + d ≤ 9223372036854775807
    · rw [addSeconds_eq (by omega) hext (by omega) hsum (by omega)]
      omega
    · rw [addSeconds_over (by omega) hd hmax hext (by omega)] at hlast
      omega
  · -- the seconds since the year 1 have wrapped already
    have h₁ : wrapInt64 (base + 62135596800) = base + 62135596800 - 18446744073709551616 := by
      unfold wrapInt64
      omega
    have h₂ : wrapInt64 (base + 62135596800 - 18446744073709551616 + d) =
        base + 62135596800 - 18446744073709551616 + d :=
      wrapInt64_of_range (by omega) (by omega)
    have hsame : decide (base + 62135596800 - 18446744073709551616 <
        base + 62135596800 - 18446744073709551616 + d) = decide (0 < d) := by
      rw [decide_eq_decide]
      omega
    have hval : addSeconds base d = wrapInt64 (base + d - 18446744073709551616) := by
      simp only [addSeconds, h₁, h₂, if_pos hsame]
      congr 1
      omega
    rw [hval] at hnext ⊢
    unfold wrapInt64 at hnext ⊢
    omega

theorem wrapInt64_forward {next : ℤ → ℤ} (hlater : ∀ base, base < next base)
    (hbound : ∀ base, next base < base + 40 * 86400) :
    Forward fun base => wrapInt64 (next base) := by
  intro base hlow hhigh hnext hlast
  have h₁ := hlater base
  have h₂ := hbound base
  have h₃ := hlater (wrapInt64 (next base))
  have h₄ := hbound (wrapInt64 (next base))
  simp only [lastSecond] at hnext hlast ⊢
  refine ⟨?_, ?_⟩
  · simp only [wrapInt64] at hnext ⊢
    omega
  · rw [wrapInt64_of_range (by omega) (by omega)]
    omega

def PeriodWraps (plan : SubscriptionPlan) : Prop :=
  normalizeResetPeriod plan.quotaResetPeriod = .custom ∧ 0 < plan.quotaResetCustomSeconds ∧
    durationSeconds plan.quotaResetCustomSeconds < 1

instance (plan : SubscriptionPlan) : Decidable (PeriodWraps plan) :=
  inferInstanceAs (Decidable (_ ∧ _ ∧ _))

/-- No time of a day, week or month of the zone comes at or after the reset that the calendar
gives for it; a custom period has at least one second left. -/
def MovesOn (zone : Zone) (plan : SubscriptionPlan) : Prop :=
  match normalizeResetPeriod plan.quotaResetPeriod with
  | .never => True
  | .daily => Forward zone.calendar.nextDay
  | .weekly => Forward zone.calendar.nextMonday
  | .monthly => Forward zone.calendar.nextMonth
  | .custom => ¬ PeriodWraps plan

section Schedule

variable {cal : Calendar} {plan : SubscriptionPlan} {endUnix : ℤ}

theorem MovesOn.forward {zone : Zone} (h : MovesOn zone plan) (endUnix : ℤ) :
    Forward fun base => calcNextResetTime zone.calendar base plan endUnix := by
  have hclamp : ∀ {next : ℤ → ℤ}, Forward next →
      Forward fun base => if 0 < endUnix ∧ endUnix < next base then 0 else next base := by
    intro next hnext base hlow hhigh hreset hlast
    dsimp only at hreset hlast ⊢
    by_cases hend : 0 < endUnix ∧ endUnix < next base
    · rw [if_pos hend] at hreset
      exact absurd hreset (lt_irrefl 0)
    · rw [if_neg hend] at hreset hlast ⊢
      obtain ⟨hlater, hagain⟩ := hnext base hlow hhigh hreset hlast
      refine ⟨hlater, ?_⟩
      split
      · exact le_rfl
      · exact hagain
  have hnone : Forward fun _ => 0 := fun _ _ _ hreset => absurd hreset (lt_irrefl 0)
  unfold MovesOn at h
  rcases hperiod : normalizeResetPeriod plan.quotaResetPeriod with _ | _ | _ | _ | _ <;>
    simp only [hperiod] at h
  · simpa only [calcNextResetTime, hperiod] using hnone
  · simpa only [calcNextResetTime, hperiod] using hclamp h
  · simpa only [calcNextResetTime, hperiod] using hclamp h
  · simpa only [calcNextResetTime, hperiod] using hclamp h
  · by_cases hsec : plan.quotaResetCustomSeconds ≤ 0
    · simpa only [calcNextResetTime, hperiod, if_pos hsec] using hnone
    · have hrange := durationSeconds_range plan.quotaResetCustomSeconds
      have hd : 1 ≤ durationSeconds plan.quotaResetCustomSeconds := by
        by_contra hlt
        exact h ⟨hperiod, by omega, by omega⟩
      simpa only [calcNextResetTime, hperiod, if_neg hsec] using
        hclamp (addSeconds_forward hd hrange.2)

/-- Where a wall clock of a later day is a later time, only a wrapping period is left. -/
theorem movesOn_of_ordered {zone : Zone} (h : zone.Ordered) :
    MovesOn zone plan ↔ ¬ PeriodWraps plan := by
  unfold MovesOn
  rcases hperiod : normalizeResetPeriod plan.quotaResetPeriod with _ | _ | _ | _ | _
  · simp [PeriodWraps, hperiod]
  · simp [PeriodWraps, hperiod]
    exact wrapInt64_forward h.lt_nextDay fun base => (zone.nextDay_bounds base).2
  · simp [PeriodWraps, hperiod]
    exact wrapInt64_forward h.lt_nextMonday fun base => (zone.nextMonday_bounds base).2
  · simp [PeriodWraps, hperiod]
    exact wrapInt64_forward h.lt_nextMonth fun base => (zone.nextMonth_bounds base).2
  · exact Iff.rfl

theorem calcNextResetTime_le_end (hend : 0 < endUnix) (base : ℤ) :
    calcNextResetTime cal base plan endUnix ≤ endUnix := by
  have hclamp : ∀ n : ℤ, (if 0 < endUnix ∧ endUnix < n then 0 else n) ≤ endUnix := by
    intro n
    split <;> omega
  rcases hperiod : normalizeResetPeriod plan.quotaResetPeriod with _ | _ | _ | _ | _ <;>
    simp [calcNextResetTime, hperiod]
  · exact hend.le
  · exact hclamp _
  · exact hclamp _
  · exact hclamp _
  · split
    · exact hend.le
    · exact hclamp _

theorem catchUp_mono {now : ℤ} {r : ℤ × ℤ} {n m : ℕ} {base next : ℤ} (hle : n ≤ m)
    (h : catchUp cal plan endUnix now n base next = some r) :
    catchUp cal plan endUnix now m base next = some r := by
  induction n generalizing m base next with
  | zero => cases h
  | succ n ih =>
    obtain ⟨k, rfl⟩ : ∃ k, m = k + 1 := ⟨m - 1, by omega⟩
    rw [catchUp] at h ⊢
    split at h
    · rename_i hdue
      rw [if_pos hdue]
      exact ih (by omega) h
    · rename_i hdue
      rw [if_neg hdue]
      exact h

theorem catchUp_ends (hforward : Forward fun base => calcNextResetTime cal base plan endUnix)
    {now : ℤ} (hnow : now ≤ lastSecond) (n : ℕ) (base next : ℤ) (hpos : 0 < next)
    (hdue : next ≤ now) (hagain : 0 ≤ calcNextResetTime cal next plan endUnix)
    (hn : (now - next).toNat < n) :
    ∃ last, catchUp cal plan endUnix now (n + 1) base next =
        some (last, calcNextResetTime cal last plan endUnix) ∧ next ≤ last ∧ last ≤ now ∧
      (calcNextResetTime cal last plan endUnix = 0 ∨
        now < calcNextResetTime cal last plan endUnix) := by
  induction n generalizing base next with
  | zero => omega
  | succ n ih =>
    rw [catchUp, if_pos ⟨hpos, hdue⟩]
    by_cases hmore : 0 < calcNextResetTime cal next plan endUnix ∧
        calcNextResetTime cal next plan endUnix ≤ now
    · have hmax : lastSecond = 9223371974719179006 := rfl
      have hnext := hforward next (by omega) (by omega) hmore.1 (hmore.2.trans hnow)
      dsimp only at hnext
      obtain ⟨last, hrun, h₁, h₂, h₃⟩ := ih next _ hmore.1 hmore.2 hnext.2 (by omega)
      exact ⟨last, hrun, by omega, h₂, h₃⟩
    · refine ⟨next, ?_, le_rfl, hdue, by omega⟩
      rw [catchUp, if_neg hmore]

end Schedule

structure Scheduled (now : ℤ) (sub sub' : UserSubscription) : Prop where
  unset : sub.nextResetTime = 0
  row : sub' = { sub with lastResetTime := resetBase sub, nextResetTime := sub'.nextResetTime }
  next : now < sub'.nextResetTime
  before_end : 0 < sub.endTime → sub'.nextResetTime ≤ sub.endTime
  forward : sub.lastResetTime ≤ sub'.lastResetTime

structure WasReset (now : ℤ) (sub sub' : UserSubscription) : Prop where
  row : sub' =
    { sub with
      amountUsed := 0
      lastResetTime := sub'.lastResetTime
      nextResetTime := sub'.nextResetTime }
  last : sub'.lastResetTime ≤ now
  next : sub'.nextResetTime = 0 ∨ now < sub'.nextResetTime
  before_end : 0 < sub.endTime → sub'.nextResetTime ≤ sub.endTime
  forward : sub.lastResetTime ≤ sub'.lastResetTime

def CatchesUp (env : Env) (plan : SubscriptionPlan) (sub : UserSubscription) : Prop :=
  ∃ r, (∃ fuel, ∀ n, fuel ≤ n → dueReset { env with resetFuel := n } plan sub = some r) ∧
    ∀ sub', r = some sub' →
      Scheduled env.dbTimestamp sub sub' ∨ WasReset env.dbTimestamp sub sub'

/-- The times are `int64`, and a row that has never been reset does not start before the time
that it has for its last reset. -/
structure TimesFit (sub : UserSubscription) : Prop where
  last : sub.lastResetTime ≤ 9223372036854775807
  start : -9223372036854775808 ≤ sub.startTime ∧ sub.startTime ≤ 9223372036854775807
  order : sub.lastResetTime ≤ 0 → sub.lastResetTime ≤ sub.startTime

theorem TimesFit.resetBase {sub : UserSubscription} (h : TimesFit sub) :
    -9223372036854775808 ≤ resetBase sub ∧ resetBase sub ≤ 9223372036854775807 ∧
      sub.lastResetTime ≤ resetBase sub := by
  obtain ⟨hlast, hstart, horder⟩ := h
  unfold Model.resetBase
  split <;> omega

section Outcome

variable {env : Env} {plan : SubscriptionPlan} {sub : UserSubscription}

theorem dueReset_early (h : 0 < sub.nextResetTime ∧ env.dbTimestamp < sub.nextResetTime) (n : ℕ) :
    dueReset { env with resetFuel := n } plan sub = some none := by
  rw [dueReset, if_pos h]

theorem dueReset_never (h : normalizeResetPeriod plan.quotaResetPeriod = .never) (n : ℕ) :
    dueReset { env with resetFuel := n } plan sub = some none := by
  rw [dueReset, if_pos h]
  exact ite_self _

theorem dueReset_walk (hearly : ¬ (0 < sub.nextResetTime ∧ env.dbTimestamp < sub.nextResetTime))
    (hperiod : normalizeResetPeriod plan.quotaResetPeriod ≠ .never) {n : ℕ} {last next : ℤ}
    (hwalk : catchUp env.calendar plan sub.endTime env.dbTimestamp n (resetBase sub)
      (calcNextResetTime env.calendar (resetBase sub) plan sub.endTime) = some (last, next)) :
    dueReset { env with resetFuel := n } plan sub =
      if 0 < calcNextResetTime env.calendar (resetBase sub) plan sub.endTime ∧
          calcNextResetTime env.calendar (resetBase sub) plan sub.endTime ≤ env.dbTimestamp then
        some (some { sub with amountUsed := 0, lastResetTime := last, nextResetTime := next })
      else if sub.nextResetTime = 0 ∧ 0 < next then
        some (some { sub with lastResetTime := last, nextResetTime := next })
      else some none := by
  rw [dueReset, if_neg hearly, if_neg hperiod]
  simp [hwalk]

theorem catchesUp_of_forward
    (hforward : Forward fun base => calcNextResetTime env.calendar base plan sub.endTime)
    (hnow : env.dbTimestamp ≤ lastSecond) (hsub : TimesFit sub) : CatchesUp env plan sub := by
  by_cases hearly : 0 < sub.nextResetTime ∧ env.dbTimestamp < sub.nextResetTime
  · exact ⟨none, ⟨0, fun n _ => dueReset_early hearly n⟩, fun _ h => by cases h⟩
  by_cases hnever : normalizeResetPeriod plan.quotaResetPeriod = .never
  · exact ⟨none, ⟨0, fun n _ => dueReset_never hnever n⟩, fun _ h => by cases h⟩
  generalize hnext : calcNextResetTime env.calendar (resetBase sub) plan sub.endTime = next
  obtain ⟨hlow, hhigh, hbase⟩ := hsub.resetBase
  by_cases hdue : 0 < next ∧ next ≤ env.dbTimestamp
  · -- at least one reset has passed
    have hfirst := hforward (resetBase sub) hlow hhigh
    simp only [hnext] at hfirst
    obtain ⟨hlater, hagain⟩ := hfirst hdue.1 (hdue.2.trans hnow)
    obtain ⟨last, hrun, h₁, h₂, h₃⟩ := catchUp_ends hforward hnow
      ((env.dbTimestamp - next).toNat + 1) (resetBase sub) next hdue.1 hdue.2 hagain (by omega)
    refine ⟨some
      { sub with
        amountUsed := 0
        lastResetTime := last
        nextResetTime := calcNextResetTime env.calendar last plan sub.endTime },
      ⟨(env.dbTimestamp - next).toNat + 1 + 1, ?_⟩, ?_⟩
    · intro n hn
      rw [dueReset_walk hearly hnever (hnext ▸ catchUp_mono hn hrun), hnext, if_pos hdue]
    · intro sub' hsub'
      cases hsub'
      refine Or.inr ⟨rfl, h₂, h₃, fun hend => calcNextResetTime_le_end hend last, ?_⟩
      show sub.lastResetTime ≤ last
      omega
  · have hwalk : ∀ n, 1 ≤ n → catchUp env.calendar plan sub.endTime env.dbTimestamp n
        (resetBase sub) next = some (resetBase sub, next) := by
      intro n hn
      obtain ⟨k, rfl⟩ : ∃ k, n = k + 1 := ⟨n - 1, by omega⟩
      rw [catchUp, if_neg hdue]
    by_cases hset : sub.nextResetTime = 0 ∧ 0 < next
    · refine ⟨some { sub with lastResetTime := resetBase sub, nextResetTime := next },
        ⟨1, fun n hn => ?_⟩, ?_⟩
      · rw [dueReset_walk hearly hnever (hnext ▸ hwalk n hn), hnext, if_neg hdue, if_pos hset]
      · intro sub' hsub'
        cases hsub'
        refine Or.inl ⟨hset.1, rfl, ?_, ?_, ?_⟩
        · show env.dbTimestamp < next
          omega
        · intro hend
          rw [← hnext]
          exact calcNextResetTime_le_end hend _
        · exact hbase
    · refine ⟨none, ⟨1, fun n hn => ?_⟩, fun _ h => by cases h⟩
      rw [dueReset_walk hearly hnever (hnext ▸ hwalk n hn), hnext, if_neg hdue, if_neg hset]

end Outcome

variable {plan : SubscriptionPlan}

theorem dueReset_mono {env : Env} {sub : UserSubscription} {n m : ℕ} {r : Option UserSubscription}
    (hle : n ≤ m) (h : dueReset { env with resetFuel := n } plan sub = some r) :
    dueReset { env with resetFuel := m } plan sub = some r := by
  by_cases hearly : 0 < sub.nextResetTime ∧ env.dbTimestamp < sub.nextResetTime
  · rw [dueReset_early hearly] at h ⊢
    exact h
  by_cases hnever : normalizeResetPeriod plan.quotaResetPeriod = .never
  · rw [dueReset_never hnever] at h ⊢
    exact h
  rcases hwalk : catchUp env.calendar plan sub.endTime env.dbTimestamp n (resetBase sub)
      (calcNextResetTime env.calendar (resetBase sub) plan sub.endTime) with _ | ⟨last, next⟩
  · rw [dueReset, if_neg hearly, if_neg hnever] at h
    simp only [hwalk] at h
    cases h
  · rw [dueReset_walk hearly hnever hwalk] at h
    rw [dueReset_walk hearly hnever (catchUp_mono hle hwalk)]
    exact h

theorem dueReset_unique {env : Env} {sub : UserSubscription} {n m : ℕ}
    {r r' : Option UserSubscription} (h : dueReset { env with resetFuel := n } plan sub = some r)
    (h' : dueReset { env with resetFuel := m } plan sub = some r') : r = r' := by
  have h₁ := dueReset_mono (Nat.le_max_left n m) h
  have h₂ := dueReset_mono (Nat.le_max_right n m) h'
  rw [h₁] at h₂
  exact Option.some.inj h₂

theorem catchUp_stuck {cal : Calendar} {endUnix now next : ℤ} (hpos : 0 < next) (hdue : next ≤ now)
    (hstay : calcNextResetTime cal next plan endUnix = next) (n : ℕ) (base : ℤ) :
    catchUp cal plan endUnix now n base next = none := by
  induction n generalizing base with
  | zero => rfl
  | succ n ih =>
    rw [catchUp, if_pos ⟨hpos, hdue⟩, hstay]
    exact ih next

def rowAt (last : ℤ) : UserSubscription where
  id := 1
  userId := 1
  planId := 1
  amountTotal := 0
  amountUsed := 5
  startTime := last
  endTime := 0
  status := .active
  lastResetTime := last
  nextResetTime := 0
  allowWalletOverflow := true

def envAt (cal : Calendar) (now : ℤ) : Env := ⟨now, now, cal, 0, none⟩

theorem resetBase_rowAt (base : ℤ) : resetBase (rowAt base) = base := ite_self _

/-- At the time of a next reset that is not later, or is followed by a negative one, the row from
which it was computed does not catch up. -/
theorem not_catchesUp {cal : Calendar}
    (hnever : normalizeResetPeriod plan.quotaResetPeriod ≠ .never) {base next : ℤ}
    (hnext : calcNextResetTime cal base plan 0 = next) (hpos : 0 < next)
    (h : next ≤ base ∨ calcNextResetTime cal next plan 0 < 0) :
    ¬ CatchesUp (envAt cal next) plan (rowAt base) := by
  rintro ⟨r, ⟨fuel, hrun⟩, hrow⟩
  have hearly : ¬ (0 < (rowAt base).nextResetTime ∧
      (envAt cal next).dbTimestamp < (rowAt base).nextResetTime) := fun hlt =>
    absurd hlt.1 (lt_irrefl 0)
  have hdue := hrun fuel le_rfl
  rcases hwalk : catchUp cal plan 0 next fuel base next with _ | ⟨last, after⟩
  · rw [dueReset, if_neg hearly, if_neg hnever, resetBase_rowAt] at hdue
    simp only [envAt, rowAt] at hdue
    rw [hnext, hwalk] at hdue
    cases hdue
  have hstart : catchUp cal plan 0 next fuel (resetBase (rowAt base))
      (calcNextResetTime cal (resetBase (rowAt base)) plan 0) = some (last, after) := by
    rw [resetBase_rowAt, hnext, hwalk]
  rw [dueReset_walk hearly hnever hstart, resetBase_rowAt] at hdue
  have hfirst : 0 < calcNextResetTime cal base plan 0 ∧
      calcNextResetTime cal base plan 0 ≤ next := by
    rw [hnext]
    exact ⟨hpos, le_rfl⟩
  rw [show (envAt cal next).calendar = cal from rfl, show (rowAt base).endTime = 0 from rfl,
    show (envAt cal next).dbTimestamp = next from rfl, if_pos hfirst] at hdue
  rcases hrow _ (Option.some.inj hdue).symm with hscheduled | hreset
  · have hused : (0 : ℤ) = 5 := congrArg UserSubscription.amountUsed hscheduled.row
    omega
  have hlast : last ≤ next := hreset.last
  have hafter : after = 0 ∨ next < after := hreset.next
  have hforward : base ≤ last := hreset.forward
  rcases h with hback | hnegative
  · have heq : base = next := by omega
    rw [catchUp_stuck hpos le_rfl (heq ▸ hnext)] at hwalk
    cases hwalk
  · rcases fuel with _ | _ | fuel
    · cases hwalk
    · rw [catchUp, if_pos ⟨hpos, le_rfl⟩] at hwalk
      cases hwalk
    · rw [catchUp, if_pos ⟨hpos, le_rfl⟩, catchUp, if_neg (by omega)] at hwalk
      cases hwalk
      omega

theorem forward_of_catchesUp {cal : Calendar}
    (hnever : normalizeResetPeriod plan.quotaResetPeriod ≠ .never)
    (hall : ∀ env sub, env.calendar = cal → env.dbTimestamp ≤ lastSecond → TimesFit sub →
      CatchesUp env plan sub) : Forward fun base => calcNextResetTime cal base plan 0 := by
  intro base hlow hhigh hpos hlast
  by_contra hnot
  refine not_catchesUp hnever rfl hpos ?_ (hall _ _ rfl hlast ⟨hhigh, ⟨hlow, hhigh⟩, fun _ => le_rfl⟩)
  dsimp only at hnot
  omega

theorem calcNextResetTime_wraps {cal : Calendar} (h : PeriodWraps plan) {base : ℤ} (hpos : 0 < base)
    (hsmall : base ≤ 9223372038) : calcNextResetTime cal base plan 0 =
      base + durationSeconds plan.quotaResetCustomSeconds := by
  obtain ⟨hperiod, hsec, hd⟩ := h
  have hrange := durationSeconds_range plan.quotaResetCustomSeconds
  have hsec' : ¬ plan.quotaResetCustomSeconds ≤ 0 := by omega
  have hend : ¬ ((0 : ℤ) < 0 ∧ 0 < base + durationSeconds plan.quotaResetCustomSeconds) := by
    omega
  simp only [calcNextResetTime, hperiod, if_neg hsec']
  rw [addSeconds_eq (by omega) (by omega) (by omega) (by omega) (by omega), if_neg hend]

theorem not_periodWraps_of_forward {cal : Calendar}
    (hforward : Forward fun base => calcNextResetTime cal base plan 0) : ¬ PeriodWraps plan := by
  intro hwraps
  have hrange := durationSeconds_range plan.quotaResetCustomSeconds
  have hd := hwraps.2.2
  have hmax : lastSecond = 9223371974719179006 := rfl
  -- from there the next reset is at the first second after the epoch
  have hnext : calcNextResetTime cal (1 - durationSeconds plan.quotaResetCustomSeconds) plan 0 =
      1 := by
    rw [calcNextResetTime_wraps hwraps (by omega) (by omega), sub_add_cancel]
  have hlater := hforward (1 - durationSeconds plan.quotaResetCustomSeconds) (by omega) (by omega)
  simp only [hnext] at hlater
  have hlt := (hlater (by omega) (by omega)).1
  omega

theorem movesOn_of_forward {zone : Zone}
    (hforward : normalizeResetPeriod plan.quotaResetPeriod ≠ .never →
      Forward fun base => calcNextResetTime zone.calendar base plan 0) : MovesOn zone plan := by
  unfold MovesOn
  rcases hperiod : normalizeResetPeriod plan.quotaResetPeriod with _ | _ | _ | _ | _
  · trivial
  · simpa [calcNextResetTime, hperiod] using hforward (by simp [hperiod])
  · simpa [calcNextResetTime, hperiod] using hforward (by simp [hperiod])
  · simpa [calcNextResetTime, hperiod] using hforward (by simp [hperiod])
  · exact not_periodWraps_of_forward (hforward (by simp [hperiod]))

def utc : Zone := Zone.fixed 0 (by decide)

def customPlan (seconds : ℤ) : SubscriptionPlan := ⟨1, [], "custom".toList, seconds⟩

structure SavedReset (now : ℤ) (sub sub' : UserSubscription) : Prop where
  used : sub'.amountUsed = 0
  last : sub'.lastResetTime ≤ now
  next : sub'.nextResetTime = 0 ∨ now < sub'.nextResetTime
  before_end : sub'.nextResetTime ≤ sub.endTime
  forward : sub.lastResetTime ≤ sub'.lastResetTime

def AlwaysResets (env : Env) (plan : SubscriptionPlan) (sub : UserSubscription) : Prop :=
  ∃ r, (∃ fuel, ∀ n, fuel ≤ n → dueReset { env with resetFuel := n } plan sub = some r) ∧
    ∀ sub', r = some sub' → SavedReset env.dbTimestamp sub sub'

theorem dueReset_stuck {cal : Calendar} {base next : ℤ}
    (hnever : normalizeResetPeriod plan.quotaResetPeriod ≠ .never) (hpos : 0 < next)
    (hfirst : calcNextResetTime cal base plan 0 = next)
    (hstay : calcNextResetTime cal next plan 0 = next) (n : ℕ) :
    dueReset { envAt cal next with resetFuel := n } plan (rowAt base) = none := by
  have hearly : ¬ (0 < (rowAt base).nextResetTime ∧
      (envAt cal next).dbTimestamp < (rowAt base).nextResetTime) := fun hlt =>
    absurd hlt.1 (lt_irrefl 0)
  rw [dueReset, if_neg hearly, if_neg hnever, resetBase_rowAt]
  simp only [envAt, rowAt]
  rw [hfirst, catchUp_stuck hpos le_rfl hstay]

/-- The clocks of America/Santiago around 2026-09-06: at midnight they go on to one o'clock. -/
def santiago : Zone where
  offset t := if t < 1788667200 then -14400 else -10800
  bounded t := by split <;> decide

def dailyPlan : SubscriptionPlan := ⟨1, [], "daily".toList, 0⟩

end NewApi.Model
