import Mathlib.Logic.Function.Basic
import NewApi.Lib.ReadCommitted

/-!
# A table under READ COMMITTED

A table has one row per key, and no row is a row that holds nothing.
-/

structure RowTable (τ κ α : Type) where
  keys : List κ
  row : κ → Row τ (Option α)
  covers : ∀ k, k ∉ keys → row k = Row.stored none

namespace RowTable

variable {τ κ α : Type} [DecidableEq κ]

def stored (rows : List (κ × α)) : RowTable τ κ α where
  keys := rows.map Prod.fst
  row := fun k => Row.stored ((rows.find? fun r => decide (r.1 = k)).map Prod.snd)
  covers := by
    intro k hk
    rw [List.find?_eq_none.mpr]
    · rfl
    · intro r hr heq
      exact hk (of_decide_eq_true heq ▸ List.mem_map_of_mem hr)

def find (t : RowTable τ κ α) (k : κ) : Option α := (t.row k).committed

/-- Transaction `i` writes the row of `k` and holds its lock; `none` deletes it. -/
def write (i : τ) (k : κ) (v : Option α) (t : RowTable τ κ α) : RowTable τ κ α where
  keys := k :: t.keys
  row := Function.update t.row k ((t.row k).write i v)
  covers := by
    intro j hj
    rw [List.mem_cons, not_or] at hj
    rw [Function.update_of_ne hj.1]
    exact t.covers j hj.2

variable {t : RowTable τ κ α} {i j : τ} {k : κ} {v : Option α}

@[simp] theorem row_write_self : (t.write i k v).row k = (t.row k).write i v := by
  simp [write]

theorem row_write_of_ne {m : κ} (h : m ≠ k) : (t.write i k v).row m = t.row m := by
  simp [write, Function.update_of_ne h]

theorem committed_write (m : κ) : ((t.write i k v).row m).committed = (t.row m).committed := by
  by_cases hm : m = k
  · subst hm
    rw [row_write_self, Row.write_committed]
  · rw [row_write_of_ne hm]

variable [DecidableEq τ]

def writeEach (i : τ) (ks : List κ) (f : Option α → Option α) (t : RowTable τ κ α) :
    RowTable τ κ α where
  keys := ks ++ t.keys
  row := fun m =>
    if ks.any fun k => decide (k = m) then (t.row m).write i (f ((t.row m).select i))
    else t.row m
  covers := by
    intro m hm
    rw [List.mem_append, not_or] at hm
    rw [if_neg]
    · exact t.covers m hm.2
    · intro hany
      obtain ⟨k, hk, heq⟩ := List.any_eq_true.mp hany
      exact hm.1 (of_decide_eq_true heq ▸ hk)

def freeEach (i : τ) (ks : List κ) (t : RowTable τ κ α) : Bool :=
  ks.all fun k => (t.row k).free i

def commit (i : τ) (t : RowTable τ κ α) : RowTable τ κ α where
  keys := t.keys
  row := fun k => (t.row k).commit i
  covers := by
    intro k hk
    rw [t.covers k hk]
    rfl

def abort (i : τ) (t : RowTable τ κ α) : RowTable τ κ α where
  keys := t.keys
  row := fun k => (t.row k).abort i
  covers := by
    intro k hk
    rw [t.covers k hk]
    rfl

variable {ks : List κ} {f : Option α → Option α}

theorem row_writeEach_mem (h : k ∈ ks) :
    (t.writeEach i ks f).row k = (t.row k).write i (f ((t.row k).select i)) := by
  have hany : ks.any (fun x => decide (x = k)) = true :=
    List.any_eq_true.mpr ⟨k, h, decide_eq_true rfl⟩
  simp only [writeEach, hany, if_true]

theorem row_writeEach_notMem (h : k ∉ ks) : (t.writeEach i ks f).row k = t.row k := by
  have hany : ks.any (fun x => decide (x = k)) = false := by
    rw [List.any_eq_false]
    intro x hx heq
    exact h (of_decide_eq_true heq ▸ hx)
  simp only [writeEach, hany, Bool.false_eq_true, if_false]

theorem keptFor_writeEach (hf : t.freeEach i ks = true) (hne : j ≠ i) (m : κ) :
    (t.row m).KeptFor j ((t.writeEach i ks f).row m) := by
  by_cases hm : m ∈ ks
  · rw [row_writeEach_mem hm]
    exact Row.keptFor_write (List.all_eq_true.mp hf m hm) hne
  · rw [row_writeEach_notMem hm]
    exact .rfl

theorem committed_writeEach (m : κ) :
    ((t.writeEach i ks f).row m).committed = (t.row m).committed := by
  by_cases hm : m ∈ ks
  · rw [row_writeEach_mem hm, Row.write_committed]
  · rw [row_writeEach_notMem hm]

theorem keptFor_write (hf : (t.row k).free i = true) (hne : j ≠ i) (m : κ) :
    (t.row m).KeptFor j ((t.write i k v).row m) := by
  by_cases hm : m = k
  · subst hm
    rw [row_write_self]
    exact Row.keptFor_write hf hne
  · rw [row_write_of_ne hm]
    exact .rfl

end RowTable
