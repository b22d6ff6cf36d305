/-!
# A row under READ COMMITTED

A committed value and, under a lock, the value that its transaction sees.
-/

/-- A row with values in `α` that transactions named by `τ` work on. -/
structure Row (τ α : Type) where
  committed : α
  pending : Option (τ × α)
  deriving DecidableEq, Repr

namespace Row

variable {τ α : Type}

def stored (a : α) : Row τ α := ⟨a, none⟩

def write (i : τ) (v : α) (r : Row τ α) : Row τ α := { r with pending := some (i, v) }

@[simp] theorem stored_committed (a : α) : (stored a : Row τ α).committed = a := rfl

@[simp] theorem write_committed {i : τ} {v : α} {r : Row τ α} :
    (r.write i v).committed = r.committed := rfl

variable [DecidableEq τ]

def own (i : τ) (r : Row τ α) : Option α :=
  match r.pending with
  | some (j, v) => if j = i then some v else none
  | none => none

/-- What a plain read of transaction `i` sees: its own write or the committed value. -/
def select (i : τ) (r : Row τ α) : α := (r.own i).getD r.committed

/-- Transaction `i` can take the lock or has it. -/
def free (i : τ) (r : Row τ α) : Bool :=
  match r.pending with
  | some (j, _) => decide (j = i)
  | none => true

def commit (i : τ) (r : Row τ α) : Row τ α :=
  match r.own i with
  | some v => ⟨v, none⟩
  | none => r

def abort (i : τ) (r : Row τ α) : Row τ α :=
  match r.own i with
  | some _ => { r with pending := none }
  | none => r

def autocommit (i : τ) (v : α) (r : Row τ α) : Row τ α := (r.write i v).commit i

variable {i j : τ} {r : Row τ α} {v : α}

@[simp] theorem own_stored (a : α) : (stored a : Row τ α).own i = none := rfl

theorem own_of_pending (h : r.pending = none) : r.own i = none := by
  simp [own, h]

theorem pending_of_own (h : r.own i = some v) : r.pending = some (i, v) := by
  unfold own at h
  split at h
  · next k w hp =>
    by_cases hk : k = i
    · rw [if_pos hk] at h
      cases h
      rw [hp, hk]
    · rw [if_neg hk] at h
      cases h
  · cases h

theorem own_unique {w : α} (hi : r.own i = some v) (hj : r.own j = some w) : i = j := by
  have hp := pending_of_own hi
  rw [pending_of_own hj] at hp
  cases hp
  rfl

theorem own_of_ne (h : r.own i = some v) (hne : j ≠ i) : r.own j = none := by
  rcases hj : r.own j with _ | w
  · rfl
  · exact absurd (own_unique hj h) hne

theorem own_of_free (h : r.free i = true) (hne : j ≠ i) : r.own j = none := by
  rcases hj : r.own j with _ | w
  · rfl
  · simp only [free, pending_of_own hj] at h
    exact absurd (of_decide_eq_true h) hne

@[simp] theorem own_write_self : (r.write i v).own i = some v := by
  simp [own, write]

theorem own_write_of_ne (h : r.free i = true) (hne : j ≠ i) :
    (r.write i v).own j = r.own j := by
  rw [own_of_free h hne]
  simp only [own, write]
  exact if_neg hne.symm

@[simp] theorem select_write_self : (r.write i v).select i = v := by
  simp [select, own_write_self]

theorem select_of_own (h : r.own i = some v) : r.select i = v := by
  simp [select, h]

theorem select_of_none (h : r.own i = none) : r.select i = r.committed := by
  simp [select, h]

theorem commit_committed : (r.commit i).committed = (r.own i).getD r.committed := by
  unfold commit
  cases r.own i <;> rfl

theorem commit_of_none (h : r.own i = none) : r.commit i = r := by
  simp [commit, h]

@[simp] theorem own_commit_self : (r.commit i).own i = none := by
  unfold commit
  rcases h : r.own i with _ | v
  · exact h
  · rfl

theorem own_commit_of_ne (hne : j ≠ i) : (r.commit i).own j = r.own j := by
  unfold commit
  rcases h : r.own i with _ | v
  · rfl
  · rw [own_of_ne h hne]
    rfl

@[simp] theorem abort_committed : (r.abort i).committed = r.committed := by
  unfold abort
  cases r.own i <;> rfl

@[simp] theorem own_abort_self : (r.abort i).own i = none := by
  unfold abort
  rcases h : r.own i with _ | v
  · exact h
  · rfl

theorem own_abort_of_ne (hne : j ≠ i) : (r.abort i).own j = r.own j := by
  unfold abort
  rcases h : r.own i with _ | v
  · rfl
  · rw [own_of_ne h hne]
    rfl

/-- What the step of another transaction keeps for transaction `j`: its own write and, while
it has one, the committed value under it. -/
structure KeptFor (j : τ) (r r' : Row τ α) : Prop where
  own : r'.own j = r.own j
  committed : ∀ v, r.own j = some v → r'.committed = r.committed

theorem KeptFor.rfl : KeptFor j r r := ⟨Eq.refl _, fun _ _ => Eq.refl _⟩

theorem KeptFor.trans {r' r'' : Row τ α} (h : KeptFor j r r') (h' : KeptFor j r' r'') :
    KeptFor j r r'' := by
  refine ⟨h'.own.trans h.own, fun v hv => ?_⟩
  rw [h'.committed v (h.own.trans hv), h.committed v hv]

theorem KeptFor.select {r' : Row τ α} (h : KeptFor j r r') :
    r'.select j = r.select j ∧ r'.committed = r.committed ∨
      r.select j = r.committed ∧ r'.select j = r'.committed := by
  rcases hj : r.own j with _ | v
  · exact .inr ⟨select_of_none hj, select_of_none (h.own.trans hj)⟩
  · exact .inl ⟨by rw [select_of_own hj, select_of_own (h.own.trans hj)], h.committed v hj⟩

theorem keptFor_write (h : r.free i = true) (hne : j ≠ i) : KeptFor j r (r.write i v) :=
  ⟨own_write_of_ne h hne, fun _ _ => Eq.refl _⟩

theorem keptFor_abort (hne : j ≠ i) : KeptFor j r (r.abort i) :=
  ⟨own_abort_of_ne hne, fun _ _ => abort_committed⟩

theorem keptFor_commit (hne : j ≠ i) : KeptFor j r (r.commit i) := by
  refine ⟨own_commit_of_ne hne, fun v h => ?_⟩
  rw [commit_of_none (own_of_ne h hne.symm)]

@[simp] theorem autocommit_committed : (r.autocommit i v).committed = v := by
  simp [autocommit, commit_committed, own_write_self]

@[simp] theorem own_autocommit_self : (r.autocommit i v).own i = none := own_commit_self

theorem keptFor_stored (h : r.pending = none) : KeptFor j r (stored v) := by
  have hown := own_of_pending h (i := j)
  refine ⟨by rw [hown, own_stored], fun w hw => ?_⟩
  rw [hown] at hw
  cases hw

theorem keptFor_autocommit (h : r.free i = true) (hne : j ≠ i) :
    KeptFor j r (r.autocommit i v) := by
  refine ⟨(own_commit_of_ne hne).trans (own_write_of_ne h hne), fun w hw => ?_⟩
  rw [own_of_free h hne] at hw
  cases hw

end Row
