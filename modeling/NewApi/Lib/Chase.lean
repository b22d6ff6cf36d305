import Mathlib.Data.List.Basic

/-!
# Following a partial function to its end

A partial function is followed from a point until it is undefined.
-/

namespace Chase

variable {α : Type*} {next : α → Option α}

/-- `Ends next n x e`: from `x` it takes `n` steps to `e`, where `next` is undefined. -/
inductive Ends (next : α → Option α) : ℕ → α → α → Prop
  | stop {x : α} (h : next x = none) : Ends next 0 x x
  | step {n : ℕ} {x y e : α} (h : next x = some y) (hy : Ends next n y e) : Ends next (n + 1) x e

theorem Ends.unique {n m : ℕ} {x e f : α} (h : Ends next n x e) :
    Ends next m x f → n = m ∧ e = f := by
  induction h generalizing m f with
  | stop hx =>
    intro h'
    cases h' with
    | stop _ => exact ⟨rfl, rfl⟩
    | step hx' _ => rw [hx] at hx'; cases hx'
  | step hx _ ih =>
    intro h'
    cases h' with
    | stop hx' => rw [hx] at hx'; cases hx'
    | step hx' hy' =>
      rw [hx] at hx'
      cases hx'
      obtain ⟨hn, he⟩ := ih hy'
      exact ⟨congrArg (· + 1) hn, he⟩

inductive Failure where
  | cycle
  | outOfFuel
  deriving DecidableEq, Repr

variable [DecidableEq α]

def seen (visited : List α) (y : α) : Bool := visited.any fun v => decide (v = y)

theorem seen_iff {visited : List α} {y : α} : seen visited y = true ↔ y ∈ visited := by
  simp [seen]

theorem seen_cons (visited : List α) (x y : α) :
    seen (x :: visited) y = (decide (x = y) || seen visited y) := rfl

def chase (next : α → Option α) : ℕ → List α → α → Except Failure (α × List α)
  | 0, _, _ => .error .outOfFuel
  | k + 1, visited, x =>
    match next x with
    | none => .ok (x, visited)
    | some y => if seen visited y then .error .cycle else chase next k (y :: visited) y

theorem ends_of_chase (k : ℕ) : ∀ {visited visited' : List α} {x e : α},
    chase next k visited x = .ok (e, visited') → ∃ n, Ends next n x e := by
  induction k with
  | zero =>
    intro visited visited' x e h
    cases h
  | succ k ih =>
    intro visited visited' x e h
    rw [chase] at h
    cases hx : next x with
    | none =>
      rw [hx] at h
      cases h
      exact ⟨0, .stop hx⟩
    | some y =>
      rw [hx] at h
      dsimp only at h
      split at h
      · cases h
      · obtain ⟨n, hn⟩ := ih h
        exact ⟨n + 1, .step hx hn⟩

theorem chase_of_ends (k : ℕ) : ∀ {n : ℕ} {visited : List α} {x e : α}, Ends next n x e →
    (∀ v ∈ visited, ∃ m, n ≤ m ∧ Ends next m v e) →
    (∃ visited', chase next k visited x = .ok (e, visited')) ∨
      chase next k visited x = .error .outOfFuel := by
  induction k with
  | zero =>
    intro n visited x e _ _
    exact .inr rfl
  | succ k ih =>
    intro n visited x e h hv
    rw [chase]
    cases h with
    | stop hx =>
      rw [hx]
      exact .inl ⟨visited, rfl⟩
    | @step n x y e hx hy =>
      rw [hx]
      dsimp only
      have hnew : ¬ seen visited y = true := by
        intro hmem
        obtain ⟨m, hm, hend⟩ := hv y (seen_iff.mp hmem)
        have hnm : n = m := (hy.unique hend).1
        omega
      rw [if_neg hnew]
      apply ih hy
      intro v hvm
      rcases List.mem_cons.mp hvm with rfl | hvm
      · exact ⟨n, Nat.le_refl n, hy⟩
      · obtain ⟨m, hm, hend⟩ := hv v hvm
        exact ⟨m, by omega, hend⟩

theorem chase_fuel {range : List α} (hrange : ∀ x y, next x = some y → y ∈ range) (k : ℕ) :
    ∀ {visited : List α} {x : α}, (range.filter (!seen visited ·)).length < k →
      chase next k visited x ≠ .error .outOfFuel := by
  induction k with
  | zero =>
    intro visited x hk
    omega
  | succ k ih =>
    intro visited x hk
    rw [chase]
    cases hx : next x with
    | none => intro h; cases h
    | some y =>
      dsimp only
      split
      · intro h; cases h
      rename_i hy
      apply ih
      have hmem : y ∈ range.filter (!seen visited ·) :=
        List.mem_filter.mpr ⟨hrange x y hx, by rw [Bool.not_eq_true] at hy; rw [hy]; rfl⟩
      have hless : (range.filter (!seen (y :: visited) ·)).length <
          (range.filter (!seen visited ·)).length := by
        have hfilter : range.filter (!seen (y :: visited) ·) =
            (range.filter (!seen visited ·)).filter (fun z => !decide (y = z)) := by
          rw [List.filter_filter]
          apply List.filter_congr
          intro z _
          rw [seen_cons, Bool.not_or]
        rw [hfilter]
        apply List.length_filter_lt_length_iff_exists.mpr
        exact ⟨y, hmem, by simp⟩
      omega

theorem chase_ok {range : List α} (hrange : ∀ x y, next x = some y → y ∈ range) {n : ℕ} {x e : α}
    (h : Ends next n x e) : ∃ visited, chase next (range.length + 1) [x] x = .ok (e, visited) := by
  have hvisited : ∀ v ∈ [x], ∃ m, n ≤ m ∧ Ends next m v e := by
    intro v hv
    rw [List.mem_singleton.mp hv]
    exact ⟨n, Nat.le_refl n, h⟩
  have hfuel : (range.filter (!seen [x] ·)).length < range.length + 1 :=
    Nat.lt_succ_of_le (List.length_filter_le _ _)
  exact (chase_of_ends _ h hvisited).resolve_right (chase_fuel hrange _ hfuel)

end Chase
