import Mathlib.Data.Int.Init
import Mathlib.Tactic.Ring

/-!
# Go's calendar in a time zone

`time.Date` and `AddDate` on Unix seconds, from the offset of the zone at every time.
-/

namespace NewApi

/-! ### Months -/

/-- The first day of a month as days since 1970-01-01. Months are counted from March of the
year 0, so that a leap day is the last day of its year. -/
def monthStart (month : ℤ) : ℤ :=
  let year := month / 12
  365 * year + year / 4 - year / 100 + year / 400 + (153 * (month % 12) + 2) / 5 - 719468

/-- The month of a day: 4800 months have 146097 days, which is right up to one month. -/
def monthOf (day : ℤ) : ℤ :=
  let month := (day + 719468) * 4800 / 146097
  if monthStart (month + 1) ≤ day then month + 1
  else if day < monthStart month then month - 1
  else month

theorem monthStart_succ (month : ℤ) :
    monthStart month + 28 ≤ monthStart (month + 1) ∧
      monthStart (month + 1) ≤ monthStart month + 31 := by
  dsimp only [monthStart]
  by_cases hlast : month % 12 = 11
  · have hyear : (month + 1) / 12 = month / 12 + 1 := by omega
    have hmonth : (month + 1) % 12 = 0 := by omega
    rw [hyear, hmonth, hlast]
    omega
  · have hyear : (month + 1) / 12 = month / 12 := by omega
    have hmonth : (month + 1) % 12 = month % 12 + 1 := by omega
    rw [hyear, hmonth]
    omega

theorem monthStart_le {a b : ℤ} (h : a ≤ b) : monthStart a ≤ monthStart b := by
  obtain ⟨n, rfl⟩ := Int.le.dest h
  clear h
  induction n with
  | zero => simp
  | succ n ih =>
    have hstep := (monthStart_succ (a + n)).1
    rw [Nat.cast_succ, ← add_assoc]
    omega

theorem monthOf_spec (day : ℤ) :
    monthStart (monthOf day) ≤ day ∧ day < monthStart (monthOf day + 1) := by
  dsimp only [monthOf]
  generalize hmonth : (day + 719468) * 4800 / 146097 = month
  have hlow : monthStart (month - 1) ≤ day := by
    dsimp only [monthStart]
    omega
  have hhigh : day < monthStart (month + 2) := by
    dsimp only [monthStart]
    omega
  split_ifs with hnext hprev
  · exact ⟨hnext, by rwa [show month + 1 + 1 = month + 2 by ring]⟩
  · exact ⟨hlow, by rwa [sub_add_cancel]⟩
  · omega

/-- The month of 2026-09-06 starts five days before it. -/
example : monthOf 20702 = 24318 ∧ monthStart 24318 = 20697 := by decide

/-! ### Time zones -/

/-- The seconds that a zone is ahead of UTC. -/
structure Zone where
  offset : ℤ → ℤ
  bounded : ∀ t, -86400 < offset t ∧ offset t < 86400

namespace Zone

variable (zone : Zone)

/-- What the clock on the wall shows, in seconds of its own. -/
def wall (t : ℤ) : ℤ := t + zone.offset t

def day (t : ℤ) : ℤ := zone.wall t / 86400

/-- `time.Date`: the offset is looked up as if the wall clock were UTC, and again at the time
that it gives. -/
def date (wall : ℤ) : ℤ :=
  if zone.offset wall = 0 then wall else wall - zone.offset (wall - zone.offset wall)

/-- `AddDate(0, 0, days)`, which keeps the clock. -/
def addDays (t days : ℤ) : ℤ := zone.date (zone.wall t + days * 86400)

/-- `AddDate(0, 1, 0)`, which keeps the clock and the day of the month. -/
def addMonth (t : ℤ) : ℤ :=
  let month := monthOf (zone.day t)
  zone.addDays t (monthStart (month + 1) - monthStart month)

def nextDay (t : ℤ) : ℤ := zone.addDays (zone.date (zone.day t * 86400)) 1

/-- Monday is 1 and Sunday 7; 1970-01-01 was a Thursday. -/
def nextMonday (t : ℤ) : ℤ :=
  let weekday := (zone.day t + 3) % 7 + 1
  zone.addDays (zone.date (zone.day t * 86400)) (8 - weekday)

def nextMonth (t : ℤ) : ℤ :=
  zone.addMonth (zone.date (monthStart (monthOf (zone.day t)) * 86400))

/-- A wall clock of a later day is a later time. -/
def Ordered : Prop := ∀ t wall, zone.day t < wall / 86400 → t < zone.date wall

variable {zone}

theorem wall_bounds (zone : Zone) (t : ℤ) : t - 86400 < zone.wall t ∧ zone.wall t < t + 86400 := by
  have h := zone.bounded t
  unfold wall
  omega

theorem date_bounds (zone : Zone) (wall : ℤ) :
    wall - 86400 < zone.date wall ∧ zone.date wall < wall + 86400 := by
  have h := zone.bounded (wall - zone.offset wall)
  unfold date
  split <;> omega

theorem addDays_bounds (zone : Zone) (t days : ℤ) :
    t + (days - 2) * 86400 < zone.addDays t days ∧
      zone.addDays t days < t + (days + 2) * 86400 := by
  have h₁ := zone.wall_bounds t
  have h₂ := zone.date_bounds (zone.wall t + days * 86400)
  unfold addDays
  omega

theorem midnight_bounds (zone : Zone) (t : ℤ) :
    t - 3 * 86400 < zone.date (zone.day t * 86400) ∧
      zone.date (zone.day t * 86400) < t + 2 * 86400 := by
  have h₁ := zone.wall_bounds t
  have h₂ := zone.date_bounds (zone.day t * 86400)
  unfold day at h₂ ⊢
  omega

theorem nextDay_bounds (zone : Zone) (t : ℤ) :
    t - 40 * 86400 < zone.nextDay t ∧ zone.nextDay t < t + 40 * 86400 := by
  have h₁ := zone.midnight_bounds t
  have h₂ := zone.addDays_bounds (zone.date (zone.day t * 86400)) 1
  unfold nextDay
  omega

theorem nextMonday_bounds (zone : Zone) (t : ℤ) :
    t - 40 * 86400 < zone.nextMonday t ∧ zone.nextMonday t < t + 40 * 86400 := by
  have h₁ := zone.midnight_bounds t
  have h₂ := zone.addDays_bounds (zone.date (zone.day t * 86400)) (8 - ((zone.day t + 3) % 7 + 1))
  dsimp only [nextMonday]
  omega

theorem nextMonth_bounds (zone : Zone) (t : ℤ) :
    t - 40 * 86400 < zone.nextMonth t ∧ zone.nextMonth t < t + 40 * 86400 := by
  have hwall := zone.wall_bounds t
  have hday : zone.day t = zone.wall t / 86400 := rfl
  have hmonth := monthOf_spec (zone.day t)
  have hlength := monthStart_succ (monthOf (zone.day t))
  have hdate := zone.date_bounds (monthStart (monthOf (zone.day t)) * 86400)
  dsimp only [nextMonth, addMonth]
  generalize zone.date (monthStart (monthOf (zone.day t)) * 86400) = first at hdate ⊢
  have hnext := monthStart_succ (monthOf (zone.day first))
  have hdays := zone.addDays_bounds first
    (monthStart (monthOf (zone.day first) + 1) - monthStart (monthOf (zone.day first)))
  omega

section Ordered

variable (h : zone.Ordered)
include h

theorem Ordered.le_day (wall : ℤ) : wall / 86400 ≤ zone.day (zone.date wall) := by
  by_contra hlt
  exact lt_irrefl _ (h _ _ (not_le.mp hlt))

theorem Ordered.lt_addDays {t u days : ℤ} (hday : zone.day t < zone.day u + days) :
    t < zone.addDays u days := by
  refine h t _ ?_
  rw [Int.add_mul_ediv_right _ _ (by decide)]
  exact hday

theorem Ordered.lt_nextDay (t : ℤ) : t < zone.nextDay t := by
  refine h.lt_addDays ?_
  have hday := h.le_day (zone.day t * 86400)
  omega

theorem Ordered.lt_nextMonday (t : ℤ) : t < zone.nextMonday t := by
  refine h.lt_addDays ?_
  have hday := h.le_day (zone.day t * 86400)
  omega

theorem Ordered.lt_nextMonth (t : ℤ) : t < zone.nextMonth t := by
  refine h.lt_addDays ?_
  generalize hfirst : zone.date (monthStart (monthOf (zone.day t)) * 86400) = first
  have hday := h.le_day (monthStart (monthOf (zone.day t)) * 86400)
  rw [hfirst, Int.mul_ediv_cancel _ (by decide)] at hday
  have hmonth := monthOf_spec (zone.day t)
  have hlater := monthOf_spec (zone.day first)
  -- the month of `first` is the month of `t` or a later one
  have hle : monthOf (zone.day t) ≤ monthOf (zone.day first) := by
    by_contra hlt
    have hstart := monthStart_le (show monthOf (zone.day first) + 1 ≤ monthOf (zone.day t) by omega)
    omega
  have hstart := monthStart_le (show monthOf (zone.day t) + 1 ≤ monthOf (zone.day first) + 1 by omega)
  omega

end Ordered

def fixed (offset : ℤ) (h : -86400 < offset ∧ offset < 86400) : Zone := ⟨fun _ => offset, fun _ => h⟩

theorem fixed_ordered (offset : ℤ) (h : -86400 < offset ∧ offset < 86400) :
    (fixed offset h).Ordered := by
  intro t wall hday
  simp only [day, Zone.wall, date, fixed] at hday ⊢
  split_ifs <;> omega

end Zone

end NewApi
