import Mathlib.Data.Nat.Digits.Lemmas

/-!
# Numerals with leading zeros

A list of digits is a number and a count of leading zeros, so a change of base can be undone.
-/

namespace Numeral

def value (a : ℕ) (l : List ℕ) : ℕ := l.foldl (fun n d => n * a + d) 0

def leading (l : List ℕ) : ℕ := (l.takeWhile (· == 0)).length

/-- The numeral in base `b` of the number that `l` is in base `a`, with as many zeros before it. -/
def recode (a b : ℕ) (l : List ℕ) : List ℕ :=
  List.replicate (leading l) 0 ++ (Nat.digits b (value a l)).reverse

variable {a b : ℕ} {l : List ℕ}

theorem value_eq (a : ℕ) (l : List ℕ) : value a l = Nat.ofDigits a l.reverse := by
  rw [Nat.ofDigits_eq_foldr, List.foldr_reverse]
  simp [value, add_comm, mul_comm]

theorem value_recode : value b (recode a b l) = value a l := by
  rw [value_eq, recode, List.reverse_append, List.reverse_reverse, List.reverse_replicate,
    Nat.ofDigits_append_replicate_zero, Nat.ofDigits_digits]

theorem leading_replicate (z : ℕ) (l : List ℕ) :
    leading (List.replicate z 0 ++ l) = z + leading l := by
  induction z with
  | zero => simp
  | succ z ih =>
    have hcons : leading (0 :: (List.replicate z 0 ++ l)) =
        leading (List.replicate z 0 ++ l) + 1 := by simp [leading]
    rw [List.replicate_succ, List.cons_append, hcons, ih]
    omega

theorem leading_digits (b n : ℕ) : leading (Nat.digits b n).reverse = 0 := by
  by_cases hn : n = 0
  · simp [hn, leading]
  · have hne : (Nat.digits b n).reverse ≠ [] := by
      simpa using Nat.digits_ne_nil_iff_ne_zero.mpr hn
    obtain ⟨d, ds, hd⟩ := List.exists_cons_of_ne_nil hne
    have hlast := Nat.getLast_digit_ne_zero b hn
    rw [← List.head_reverse hne] at hlast
    simp only [hd, List.head_cons] at hlast
    simp [hd, leading, hlast]

theorem leading_recode : leading (recode a b l) = leading l := by
  rw [recode, leading_replicate, leading_digits, Nat.add_zero]

theorem recode_self (ha : 1 < a) (hl : ∀ d ∈ l, d < a) : recode a a l = l := by
  induction l with
  | nil => simp [recode, leading, value]
  | cons d l ih =>
    by_cases hd : d = 0
    · have hstep : recode a a (0 :: l) = 0 :: recode a a l := by
        simp [recode, leading, value, List.replicate_succ]
      rw [hd, hstep, ih fun d hd => hl d (List.mem_cons_of_mem _ hd)]
    · have hdigits : Nat.digits a (Nat.ofDigits a (d :: l).reverse) = (d :: l).reverse :=
        Nat.digits_ofDigits a ha _ (fun x hx => hl x (List.mem_reverse.mp hx)) (by simpa using hd)
      rw [recode, value_eq, hdigits, List.reverse_reverse]
      simp [leading, hd]

theorem recode_recode (ha : 1 < a) (hl : ∀ d ∈ l, d < a) : recode b a (recode a b l) = l := by
  rw [recode, leading_recode, value_recode]
  exact recode_self ha hl

theorem lt_of_mem_recode (hb : 1 < b) : ∀ d ∈ recode a b l, d < b := by
  intro d hd
  rcases List.mem_append.mp hd with hd | hd
  · rw [List.eq_of_mem_replicate hd]
    omega
  · exact Nat.digits_lt_base hb (List.mem_reverse.mp hd)

end Numeral
