import Mathlib.Algebra.Order.Field.Basic
import Mathlib.Algebra.Order.Floor.Ring
import Mathlib.Tactic.Linarith

/-!
# Maxima at the corners of a rectangle

A function that is affine in each of two variables takes its maximum over a rectangle at a corner.
-/

section Corners

variable {K : Type} [Field K] [LinearOrder K]

def AffineOn (f : K → K) (u : K) : Prop :=
  ∃ s, ∀ x, 0 ≤ x → x ≤ u → f x = f 0 + s * x

theorem affineOn_zero (f : K → K) : AffineOn f 0 := by
  refine ⟨0, fun x hx hx' => ?_⟩
  rw [le_antisymm hx' hx, zero_mul, add_zero]

variable [IsStrictOrderedRing K]

theorem AffineOn.le_max {f : K → K} {u x : K} (h : AffineOn f u) (hx : 0 ≤ x) (hxu : x ≤ u) :
    f x ≤ max (f 0) (f u) := by
  obtain ⟨s, hs⟩ := h
  have hfx := hs x hx hxu
  have hfu := hs u (hx.trans hxu) le_rfl
  rcases le_total 0 s with hpos | hneg
  · have hmul : s * x ≤ s * u := mul_le_mul_of_nonneg_left hxu hpos
    exact le_max_of_le_right (by linarith)
  · have hmul : s * x ≤ 0 := mul_nonpos_of_nonpos_of_nonneg hneg hx
    exact le_max_of_le_left (by linarith)

theorem le_max_corners {f : K → K → K} {u w x y : K}
    (hrow : ∀ y, 0 ≤ y → y ≤ w → AffineOn (fun x => f x y) u)
    (hcol : ∀ x, 0 ≤ x → x ≤ u → AffineOn (f x) w)
    (hx : 0 ≤ x) (hxu : x ≤ u) (hy : 0 ≤ y) (hyw : y ≤ w) :
    f x y ≤ max (max (f 0 0) (f u 0)) (max (f 0 w) (f u w)) := by
  have hu : 0 ≤ u := hx.trans hxu
  have hrow' : f x y ≤ max (f 0 y) (f u y) := (hrow y hy hyw).le_max hx hxu
  have hleft : f 0 y ≤ max (f 0 0) (f 0 w) := (hcol 0 le_rfl hu).le_max hy hyw
  have hright : f u y ≤ max (f u 0) (f u w) := (hcol u hu le_rfl).le_max hy hyw
  refine hrow'.trans (max_le (hleft.trans ?_) (hright.trans ?_))
  · exact max_le_max (le_max_left _ _) (le_max_left _ _)
  · exact max_le_max (le_max_right _ _) (le_max_right _ _)

end Corners

section Rounding

variable {K : Type} [Field K] [LinearOrder K] [FloorRing K]

def roundHalfAway (q : K) : ℤ := if 0 ≤ q then ⌊q + 1 / 2⌋ else -⌊-q + 1 / 2⌋

variable [IsStrictOrderedRing K]

theorem roundHalfAway_mono {a b : K} (hab : a ≤ b) : roundHalfAway a ≤ roundHalfAway b := by
  unfold roundHalfAway
  by_cases ha : 0 ≤ a
  · rw [if_pos ha, if_pos (ha.trans hab)]
    exact Int.floor_mono (by linarith)
  · rw [if_neg ha]
    by_cases hb : 0 ≤ b
    · rw [if_pos hb]
      have hneg : 0 ≤ ⌊-a + 1 / 2⌋ := Int.floor_nonneg.mpr (by linarith [not_le.mp ha])
      have hpos : 0 ≤ ⌊b + 1 / 2⌋ := Int.floor_nonneg.mpr (by linarith)
      omega
    · rw [if_neg hb]
      exact neg_le_neg (Int.floor_mono (by linarith))

theorem roundHalfAway_intCast (n : ℤ) : roundHalfAway (n : K) = n := by
  have hhalf : ⌊(1 / 2 : K)⌋ = 0 := Int.floor_eq_zero_iff.mpr ⟨by norm_num, by norm_num⟩
  unfold roundHalfAway
  split
  · rw [Int.floor_intCast_add, hhalf, add_zero]
  · rw [← Int.cast_neg, Int.floor_intCast_add, hhalf, add_zero, neg_neg]

end Rounding
