import Mathlib.Data.Int.Interval
import Mathlib.Data.List.Nodup
import Mathlib.Data.Set.Card

/-!
# Fresh numbers from a wrapping counter

A 64-bit signed counter hands out the first number at or after its value that is not in use.
-/

namespace Fresh

structure Word where
  val : ℤ
  low : -9223372036854775808 ≤ val
  high : val ≤ 9223372036854775807
  deriving DecidableEq

theorem Word.ext {v w : Word} (h : v.val = w.val) : v = w := by
  cases v
  cases w
  simpa using h

theorem Word.val_ne {v w : Word} (h : v ≠ w) : v.val ≠ w.val := fun hval => h (Word.ext hval)

def Word.max : Word := ⟨9223372036854775807, by decide, by decide⟩

def Word.min : Word := ⟨-9223372036854775808, by decide, by decide⟩

/-- `n++` -/
def Word.succ (n : Word) : Word :=
  if h : n.val < 9223372036854775807 then ⟨n.val + 1, by have := n.low; omega, by omega⟩ else Word.min

theorem Word.succ_val {n : Word} (h : n.val < 9223372036854775807) : n.succ.val = n.val + 1 := by
  rw [Word.succ, dif_pos h]

theorem Word.succ_of_top {n : Word} (h : ¬ n.val < 9223372036854775807) : n.succ = Word.min := by
  rw [Word.succ, dif_neg h]

/-- The first number at or after `next` that is not in use; the loop runs `fuel` times at most. -/
def first (used : List Word) : ℕ → Word → Word
  | 0, next => next
  | fuel + 1, next => if used.any (fun n => decide (n = next)) then first used fuel next.succ else next

variable {used : List Word} {next : Word}

theorem any_eq_iff : used.any (fun n => decide (n = next)) = true ↔ next ∈ used := by
  simp

theorem first_of_notMem (h : next ∉ used) (fuel : ℕ) : first used fuel next = next := by
  cases fuel with
  | zero => rfl
  | succ fuel =>
    have hany : ¬ used.any (fun n => decide (n = next)) = true := mt any_eq_iff.mp h
    rw [first, if_neg hany]

theorem first_of_mem (h : next ∈ used) (fuel : ℕ) :
    first used (fuel + 1) next = first used fuel next.succ := by
  rw [first, if_pos (any_eq_iff.mpr h)]

def ahead (used : List Word) (next : Word) : ℕ :=
  (used.filter fun n => decide (next.val ≤ n.val)).length

theorem ahead_succ_lt (h : next ∈ used) (hlt : next.val < 9223372036854775807) :
    ahead used next.succ < ahead used next := by
  rw [ahead, ahead, ← List.countP_eq_length_filter, ← List.countP_eq_length_filter]
  obtain ⟨before, after, rfl⟩ := List.append_of_mem h
  have hmono : ∀ l : List Word, l.countP (fun n => decide (next.succ.val ≤ n.val)) ≤
      l.countP (fun n => decide (next.val ≤ n.val)) := by
    intro l
    apply List.countP_mono_left
    intro n _ hn
    rw [decide_eq_true_eq, Word.succ_val hlt] at hn
    rw [decide_eq_true_eq]
    omega
  have hbefore := hmono before
  have hafter := hmono after
  have hself : ¬ next.succ.val ≤ next.val := by
    rw [Word.succ_val hlt]
    omega
  simp only [List.countP_append, List.countP_cons, hself, le_refl, decide_true, decide_false,
    if_true, Bool.false_eq_true, if_false]
  omega

section Search

variable {used : List Word} (hpos : ∀ n ∈ used, 0 < n.val)
include hpos

theorem min_notMem : Word.min ∉ used := by
  intro hmem
  have hmin := hpos _ hmem
  simp [Word.min] at hmin

theorem first_notMem (fuel : ℕ) (next : Word) (hfuel : ahead used next < fuel) :
    first used fuel next ∉ used := by
  induction fuel generalizing next with
  | zero => omega
  | succ fuel ih =>
    by_cases hmem : next ∈ used
    · rw [first_of_mem hmem]
      by_cases hlt : next.val < 9223372036854775807
      · have hless := ahead_succ_lt hmem hlt
        exact ih next.succ (by omega)
      · rw [Word.succ_of_top hlt, first_of_notMem (min_notMem hpos)]
        exact min_notMem hpos
    · rw [first_of_notMem hmem]
      exact hmem

theorem first_ge (fuel : ℕ) (next : Word) :
    next.val ≤ (first used fuel next).val ∨ (first used fuel next).val ≤ 0 := by
  induction fuel generalizing next with
  | zero => exact Or.inl le_rfl
  | succ fuel ih =>
    by_cases hmem : next ∈ used
    · rw [first_of_mem hmem]
      by_cases hlt : next.val < 9223372036854775807
      · have hsucc := Word.succ_val hlt
        rcases ih next.succ with h | h
        · exact Or.inl (by omega)
        · exact Or.inr h
      · rw [Word.succ_of_top hlt, first_of_notMem (min_notMem hpos)]
        exact Or.inr (by decide)
    · rw [first_of_notMem hmem]
      exact Or.inl le_rfl

end Search

theorem first_le {m : Word} (hm : m ∉ used) (fuel : ℕ) (next : Word) (hnext : next.val ≤ m.val) :
    next.val ≤ (first used fuel next).val ∧ (first used fuel next).val ≤ m.val := by
  induction fuel generalizing next with
  | zero => exact ⟨le_rfl, hnext⟩
  | succ fuel ih =>
    by_cases hmem : next ∈ used
    · have hne : next ≠ m := by
        rintro rfl
        exact hm hmem
      have hval := Word.val_ne hne
      have hhigh := m.high
      have hsucc : next.succ.val = next.val + 1 := Word.succ_val (by omega)
      rw [first_of_mem hmem]
      obtain ⟨h₁, h₂⟩ := ih next.succ (by omega)
      exact ⟨by omega, h₂⟩
    · rw [first_of_notMem hmem]
      exact ⟨le_rfl, hnext⟩

def free (used : List Word) (next : Word) : Set ℤ :=
  {m | (next.val ≤ m ∧ m ≤ 9223372036854775807) ∧ ∀ n ∈ used, n.val ≠ m}

theorem mem_free {m : ℤ} :
    m ∈ free used next ↔ (next.val ≤ m ∧ m ≤ 9223372036854775807) ∧ ∀ n ∈ used, n.val ≠ m :=
  Iff.rfl

theorem free_finite (used : List Word) (next : Word) : (free used next).Finite :=
  (Finset.finite_toSet (Finset.Icc next.val 9223372036854775807)).subset fun _ hm =>
    Finset.mem_coe.mpr (Finset.mem_Icc.mpr hm.1)

/-- There are `k` positive numbers left for the counter at `next`. -/
def RoomFor (k : ℕ) (used : List Word) (next : Word) : Prop :=
  k = 0 ∨ 0 < next.val ∧ k ≤ (free used next).ncard

theorem card_free_top {next r : Word} (hr : r = first used (used.length + 1) next)
    (htop : ¬ r.val < 9223372036854775807) (k : ℕ) : k + 1 ≤ (free used next).ncard → k = 0 := by
  intro hcard
  have hsub : free used next ⊆ {9223372036854775807} := by
    intro m hm
    obtain ⟨⟨h₁, h₂⟩, hne⟩ := mem_free.mp hm
    have hlow := next.low
    have hle := (first_le (m := ⟨m, by omega, h₂⟩) (fun hmem => hne _ hmem rfl)
      (used.length + 1) next h₁).2
    rw [← hr] at hle
    simp only at hle
    rw [Set.mem_singleton_iff]
    omega
  have hone := Set.ncard_le_ncard hsub
  rw [Set.ncard_singleton] at hone
  omega

section Room

variable {used : List Word} (hpos : ∀ n ∈ used, 0 < n.val)
include hpos

theorem free_eq_insert {next r : Word} (hr : r = first used (used.length + 1) next)
    (hge : next.val ≤ r.val) (hlt : r.val < 9223372036854775807) :
    free used next = insert r.val (free (r :: used) r.succ) := by
  have hfuel : ahead used next < used.length + 1 := Nat.lt_succ_of_le (List.length_filter_le _ _)
  have hfresh : r ∉ used := hr ▸ first_notMem hpos _ next hfuel
  ext m
  rw [Set.mem_insert_iff, mem_free, mem_free, Word.succ_val hlt]
  constructor
  · rintro ⟨⟨h₁, h₂⟩, hne⟩
    have hlow := next.low
    have hle := first_le (m := ⟨m, by omega, h₂⟩) (fun hmem => hne _ hmem rfl)
      (used.length + 1) next h₁
    rw [← hr] at hle
    by_cases heq : m = r.val
    · exact Or.inl heq
    refine Or.inr ⟨⟨?_, h₂⟩, ?_⟩
    · have hm := hle.2
      simp only at hm
      omega
    · intro n hn
      rcases List.mem_cons.mp hn with rfl | hn
      · exact fun h => heq h.symm
      · exact hne n hn
  · rintro (rfl | ⟨⟨h₁, h₂⟩, hne⟩)
    · refine ⟨⟨hge, by omega⟩, ?_⟩
      intro n hn heq
      exact hfresh (Word.ext heq ▸ hn)
    · exact ⟨⟨by omega, h₂⟩, fun n hn => hne n (List.mem_cons_of_mem _ hn)⟩

theorem card_free_succ {next r : Word} (hr : r = first used (used.length + 1) next)
    (hge : next.val ≤ r.val) (hlt : r.val < 9223372036854775807) :
    (free used next).ncard = (free (r :: used) r.succ).ncard + 1 := by
  rw [free_eq_insert hpos hr hge hlt]
  refine Set.ncard_insert_of_notMem ?_ (free_finite _ _)
  intro hmem
  have hsucc := Word.succ_val hlt
  have hge' := (mem_free.mp hmem).1.1
  omega

theorem roomFor_succ_iff {next r : Word} (hr : r = first used (used.length + 1) next) (k : ℕ) :
    RoomFor (k + 1) used next ↔ 0 < r.val ∧ RoomFor k (r :: used) r.succ := by
  have hfuel : ahead used next < used.length + 1 := Nat.lt_succ_of_le (List.length_filter_le _ _)
  have hfresh : r ∉ used := hr ▸ first_notMem hpos _ next hfuel
  have hhigh := r.high
  constructor
  · rintro (h | ⟨hnext, hcard⟩)
    · omega
    · obtain ⟨m, hm⟩ : (free used next).Nonempty :=
        (Set.ncard_pos (free_finite used next)).mp (by omega)
      obtain ⟨⟨h₁, h₂⟩, hne⟩ := mem_free.mp hm
      have hlow := next.low
      have hge : next.val ≤ r.val := by
        rw [hr]
        exact (first_le (m := ⟨m, by omega, h₂⟩) (fun hmem => hne _ hmem rfl) _ next h₁).1
      refine ⟨by omega, ?_⟩
      by_cases hlt : r.val < 9223372036854775807
      · have hfree := card_free_succ hpos hr hge hlt
        have hsucc := Word.succ_val hlt
        exact Or.inr ⟨by omega, by omega⟩
      · exact Or.inl (card_free_top hr hlt k hcard)
  · rintro ⟨hrpos, hroom⟩
    have hge : next.val ≤ r.val := by
      have h := first_ge hpos (used.length + 1) next
      rw [← hr] at h
      omega
    -- a counter that is not positive meets no number in use, and is handed out itself
    have hnext : 0 < next.val := by
      by_contra hneg
      have hmem : next ∉ used := fun hmem => hneg (hpos next hmem)
      rw [first_of_notMem hmem] at hr
      rw [hr] at hrpos
      exact hneg hrpos
    refine Or.inr ⟨hnext, ?_⟩
    rcases hroom with rfl | ⟨hsucc, hcard⟩
    · have hmem : r.val ∈ free used next :=
        mem_free.mpr ⟨⟨hge, hhigh⟩, fun n hn heq => hfresh (Word.ext heq ▸ hn)⟩
      exact (Set.ncard_pos (free_finite used next)).mpr ⟨_, hmem⟩
    · have hlt : r.val < 9223372036854775807 := by
        by_contra htop
        rw [Word.succ_of_top htop] at hsucc
        simp [Word.min] at hsucc
      have hfree := card_free_succ hpos hr hge hlt
      omega

end Room

theorem card_free (hnodup : used.Nodup) (next : Word) :
    ((free used next).ncard : ℤ) = 9223372036854775808 - next.val - ahead used next := by
  have hmem : ∀ m, m ∈ ((used.filter fun n => decide (next.val ≤ n.val)).map Word.val).toFinset ↔
      ∃ n ∈ used, next.val ≤ n.val ∧ n.val = m := by
    intro m
    simp [and_assoc]
  have hcompl : free used next = ((Finset.Icc next.val 9223372036854775807 \
      ((used.filter fun n => decide (next.val ≤ n.val)).map Word.val).toFinset : Finset ℤ) :
        Set ℤ) := by
    ext m
    rw [mem_free, Finset.mem_coe, Finset.mem_sdiff, Finset.mem_Icc, hmem]
    constructor
    · rintro ⟨hm, hne⟩
      refine ⟨hm, ?_⟩
      rintro ⟨n, hn, _, rfl⟩
      exact hne n hn rfl
    · rintro ⟨hm, hne⟩
      refine ⟨hm, ?_⟩
      rintro n hn rfl
      exact hne ⟨n, hn, hm.1, rfl⟩
  have hsub : ((used.filter fun n => decide (next.val ≤ n.val)).map Word.val).toFinset ⊆
      Finset.Icc next.val 9223372036854775807 := by
    intro m hm
    obtain ⟨n, _, hn, rfl⟩ := (hmem m).mp hm
    exact Finset.mem_Icc.mpr ⟨hn, n.high⟩
  have hinj : Function.Injective Word.val := fun _ _ h => Word.ext h
  have hcard : ((used.filter fun n => decide (next.val ≤ n.val)).map Word.val).toFinset.card =
      ahead used next := by
    rw [List.toFinset_card_of_nodup ((hnodup.filter _).map hinj), List.length_map, ahead]
  have hle := Finset.card_le_card hsub
  have hhigh := next.high
  rw [hcompl, Set.ncard_coe_finset, Finset.card_sdiff_of_subset hsub, hcard, Int.card_Icc]
  rw [hcard, Int.card_Icc] at hle
  omega

end Fresh
