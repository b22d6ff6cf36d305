import Mathlib.Data.Finset.Card
import Mathlib.Data.Finset.Range

/-!
# Search on a grid of numbers

The points from `min` to `max` in equal steps, and the loop that looks for the first free one.
-/

structure Grid where
  min : ℕ
  max : ℕ
  step : ℕ
  step_pos : 0 < step
  min_le_max : min ≤ max

namespace Grid

variable (g : Grid)

def size : ℕ := (g.max - g.min) / g.step + 1

def point (k : ℕ) : ℕ := g.min + k * g.step

def Mem (x : ℕ) : Prop := g.min ≤ x ∧ x ≤ g.max ∧ (x - g.min) % g.step = 0

instance (x : ℕ) : Decidable (g.Mem x) := inferInstanceAs (Decidable (_ ∧ _ ∧ _))

def scan (free : ℕ → Bool) : ℕ → ℕ → Option ℕ
  | 0, _ => none
  | n + 1, x =>
    if g.max < x then none
    else if free x then some x
    else scan free n (x + g.step)

def first (free : ℕ → Bool) : Option ℕ := g.scan free g.size g.min

variable {g} {free : ℕ → Bool} {x : ℕ}

theorem size_pos : 0 < g.size := Nat.succ_pos _

theorem point_succ (k : ℕ) : g.point k + g.step = g.point (k + 1) := by
  rw [point, point, Nat.succ_mul, Nat.add_assoc]

theorem point_le_max {k : ℕ} (h : k < g.size) : g.point k ≤ g.max := by
  have hk : k ≤ (g.max - g.min) / g.step := Nat.lt_succ_iff.mp h
  have hmul : k * g.step ≤ g.max - g.min := (Nat.le_div_iff_mul_le g.step_pos).mp hk
  have hmin := g.min_le_max
  unfold point
  omega

theorem mem_iff : g.Mem x ↔ ∃ k < g.size, g.point k = x := by
  constructor
  · rintro ⟨hmin, hmax, hmod⟩
    have hdiv := Nat.div_add_mod (x - g.min) g.step
    have hle : (x - g.min) / g.step ≤ (g.max - g.min) / g.step :=
      Nat.div_le_div_right (Nat.sub_le_sub_right hmax _)
    refine ⟨(x - g.min) / g.step, Nat.lt_succ_of_le hle, ?_⟩
    rw [hmod, Nat.add_zero, Nat.mul_comm] at hdiv
    rw [point, hdiv]
    omega
  · rintro ⟨k, hk, rfl⟩
    refine ⟨Nat.le_add_right _ _, point_le_max hk, ?_⟩
    rw [point, Nat.add_sub_cancel_left, Nat.mul_mod_left]

theorem point_injective : Function.Injective g.point := by
  intro j k h
  have hmul : j * g.step = k * g.step := Nat.add_left_cancel h
  exact Nat.eq_of_mul_eq_mul_right g.step_pos hmul

theorem scan_point (n k : ℕ) (h : k + n = g.size) :
    (∀ y, g.scan free n (g.point k) = some y → g.Mem y ∧ free y = true) ∧
      (g.scan free n (g.point k) = none → ∀ j, k ≤ j → j < g.size → free (g.point j) = false) := by
  induction n generalizing k with
  | zero =>
    refine ⟨fun y hy => (by cases hy), fun _ j hkj hj => ?_⟩
    omega
  | succ n ih =>
    have hk : k < g.size := by omega
    have hmax : ¬ g.max < g.point k := Nat.not_lt.mpr (point_le_max hk)
    obtain ⟨hfound, hmissed⟩ := ih (k + 1) (by omega)
    rw [scan, if_neg hmax, point_succ]
    cases hfree : free (g.point k) with
    | true =>
      refine ⟨fun y hy => ?_, fun hnone => (by cases hnone)⟩
      cases hy
      exact ⟨mem_iff.mpr ⟨k, hk, rfl⟩, hfree⟩
    | false =>
      refine ⟨hfound, fun hnone j hkj hj => ?_⟩
      by_cases hj' : j = k
      · rw [hj']
        exact hfree
      · exact hmissed hnone j (by omega) hj

theorem point_zero : g.point 0 = g.min := by
  rw [point, Nat.zero_mul, Nat.add_zero]

theorem first_eq_some {y : ℕ} (h : g.first free = some y) : g.Mem y ∧ free y = true := by
  unfold first at h
  rw [← point_zero] at h
  exact (scan_point g.size 0 (Nat.zero_add _)).1 y h

theorem first_eq_none (h : g.first free = none) (hx : g.Mem x) : free x = false := by
  obtain ⟨k, hk, rfl⟩ := mem_iff.mp hx
  unfold first at h
  rw [← point_zero] at h
  exact (scan_point g.size 0 (Nat.zero_add _)).2 h k (Nat.zero_le _) hk

theorem mem_of_size_le {used : List ℕ} (hnodup : used.Nodup) (hused : ∀ y ∈ used, g.Mem y)
    (hsize : g.size ≤ used.length) (hx : g.Mem x) : x ∈ used := by
  have hcard : ((Finset.range g.size).image g.point).card = g.size := by
    rw [Finset.card_image_of_injective _ point_injective, Finset.card_range]
  have hsub : used.toFinset ⊆ (Finset.range g.size).image g.point := by
    intro y hy
    obtain ⟨k, hk, hpoint⟩ := mem_iff.mp (hused y (List.mem_toFinset.mp hy))
    exact Finset.mem_image.mpr ⟨k, Finset.mem_range.mpr hk, hpoint⟩
  have heq : used.toFinset = (Finset.range g.size).image g.point := by
    apply Finset.eq_of_subset_of_card_le hsub
    rw [hcard, List.toFinset_card_of_nodup hnodup]
    exact hsize
  obtain ⟨k, hk, hpoint⟩ := mem_iff.mp hx
  apply List.mem_toFinset.mp
  rw [heq]
  exact Finset.mem_image.mpr ⟨k, Finset.mem_range.mpr hk, hpoint⟩

end Grid
