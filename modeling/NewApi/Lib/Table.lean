import Mathlib.Data.List.Nodup

/-!
# Tables with a primary key

A table is a list of rows whose keys are distinct.
-/

structure Table {κ ρ : Type} (key : ρ → κ) where
  rows : List ρ
  nodup : (rows.map key).Nodup

namespace Table

variable {κ ρ : Type} {key : ρ → κ}

@[ext] theorem ext_rows {s t : Table key} (h : s.rows = t.rows) : s = t := by
  cases s
  cases t
  cases h
  rfl

theorem map_key_of_key_eq (l : List ρ) (g : ρ → ρ) (hg : ∀ r, key (g r) = key r) :
    (l.map g).map key = l.map key := by
  rw [List.map_map]
  exact List.map_congr_left fun r _ => hg r

variable [DecidableEq κ]

def find (t : Table key) (k : κ) : Option ρ := t.rows.find? fun r => decide (key r = k)

def modify (t : Table key) (k : κ) (f : ρ → ρ) (hf : ∀ r, key (f r) = key r) : Table key where
  rows := t.rows.map fun r => if key r = k then f r else r
  nodup := by
    rw [map_key_of_key_eq]
    · exact t.nodup
    · intro r
      split
      · exact hf r
      · rfl

theorem map_key_modify (t : Table key) (k : κ) (f : ρ → ρ) (hf : ∀ r, key (f r) = key r) :
    (t.modify k f hf).rows.map key = t.rows.map key := by
  refine map_key_of_key_eq _ _ fun r => ?_
  split
  · exact hf r
  · rfl

def save (t : Table key) (row : ρ) : Table key where
  rows := t.rows.map fun r => if key r = key row then row else r
  nodup := by
    rw [map_key_of_key_eq]
    · exact t.nodup
    · intro r
      split
      · next h => exact h.symm
      · rfl

def insert (t : Table key) (row : ρ) : Option (Table key) :=
  if h : key row ∈ t.rows.map key then none
  else some ⟨row :: t.rows, List.nodup_cons.mpr ⟨h, t.nodup⟩⟩

def updateWhere (t : Table key) (cond : ρ → Bool) (f : ρ → ρ) (hf : ∀ r, key (f r) = key r) :
    Table key where
  rows := t.rows.map fun r => if cond r then f r else r
  nodup := by
    rw [map_key_of_key_eq]
    · exact t.nodup
    · intro r
      split
      · exact hf r
      · rfl

def deleteWhere (t : Table key) (cond : ρ → Bool) : Table key where
  rows := t.rows.filter fun r => !cond r
  nodup := (t.rows.filter_sublist.map key).nodup t.nodup

variable {t : Table key} {row : ρ} {r : ρ} {k : κ}

theorem insert_eq_none : t.insert row = none ↔ key row ∈ t.rows.map key := by
  unfold insert
  split
  · next h => exact iff_of_true rfl h
  · next h => exact iff_of_false (Option.some_ne_none _) h

theorem find_key (h : t.find k = some r) : key r = k := by
  have := List.find?_some h
  simpa using this

theorem find_mem (h : t.find k = some r) : r ∈ t.rows :=
  List.mem_of_find?_eq_some h

theorem find_of_mem (h : r ∈ t.rows) : t.find (key r) = some r := by
  obtain ⟨rows, nodup⟩ := t
  unfold find
  simp only at h ⊢
  induction rows with
  | nil => cases h
  | cons x xs ih =>
    rw [List.map_cons, List.nodup_cons] at nodup
    rcases List.mem_cons.mp h with rfl | hx
    · simp
    · have hne : key x ≠ key r := fun he => nodup.1 (he ▸ List.mem_map_of_mem hx)
      rw [List.find?_cons_of_neg (by simpa using hne)]
      exact ih nodup.2 hx

theorem find_map_rows (l : List ρ) (g : ρ → ρ) (hg : ∀ r, key (g r) = key r) (k : κ) :
    (l.map g).find? (fun r => decide (key r = k)) =
      (l.find? fun r => decide (key r = k)).map g := by
  have hcomp : (fun r => decide (key r = k)) ∘ g = fun r => decide (key r = k) := by
    funext r
    rw [Function.comp_apply, hg]
  rw [List.find?_map, hcomp]

theorem find_modify_self (t : Table key) (k : κ) (f : ρ → ρ) (hf : ∀ r, key (f r) = key r) :
    (t.modify k f hf).find k = (t.find k).map f := by
  unfold find modify
  rw [find_map_rows _ _ (fun r => by split <;> simp [hf])]
  rcases hr : t.rows.find? (fun r => decide (key r = k)) with _ | r
  · rfl
  · have hk := List.find?_some hr
    rw [decide_eq_true_eq] at hk
    simp [hk]

theorem find_modify_of_ne (t : Table key) {j k : κ} (f : ρ → ρ) (hf : ∀ r, key (f r) = key r)
    (hjk : j ≠ k) : (t.modify k f hf).find j = t.find j := by
  unfold find modify
  rw [find_map_rows _ _ (fun r => by split <;> simp [hf])]
  rcases hr : t.rows.find? (fun r => decide (key r = j)) with _ | r
  · rfl
  · have hk := List.find?_some hr
    rw [decide_eq_true_eq] at hk
    simp [hk, hjk]

theorem find_save_self {row r : ρ} (h : t.find (key row) = some r) :
    (t.save row).find (key row) = some row := by
  unfold find save at *
  rw [find_map_rows _ _ (fun r => by split <;> simp_all)]
  rw [h]
  have hk := List.find?_some h
  rw [decide_eq_true_eq] at hk
  simp [hk]

theorem find_save_of_ne (t : Table key) {j : κ} (hj : j ≠ key row) :
    (t.save row).find j = t.find j := by
  unfold find save
  rw [find_map_rows _ _ (fun r => by split <;> simp_all)]
  rcases hr : t.rows.find? (fun r => decide (key r = j)) with _ | r
  · rfl
  · have hk := List.find?_some hr
    rw [decide_eq_true_eq] at hk
    simp [hk, hj]

theorem find_insert_self {t t' : Table key} (h : t.insert row = some t') :
    t'.find (key row) = some row := by
  unfold insert at h
  split at h
  · cases h
  · cases h
    simp [find]

theorem find_insert_of_ne {t t' : Table key} {j : κ} (h : t.insert row = some t')
    (hj : j ≠ key row) : t'.find j = t.find j := by
  unfold insert at h
  split at h
  · cases h
  · cases h
    simp [find, Ne.symm hj]

theorem find_of_insert {t t' : Table key} (h : t.insert row = some t') :
    t.find (key row) = none := by
  unfold insert at h
  split at h
  · cases h
  · next hkey =>
    rcases hf : t.find (key row) with _ | r
    · rfl
    · exact absurd (find_key hf ▸ List.mem_map_of_mem (find_mem hf)) hkey

theorem find_updateWhere (t : Table key) (cond : ρ → Bool) (f : ρ → ρ)
    (hf : ∀ r, key (f r) = key r) (k : κ) :
    (t.updateWhere cond f hf).find k = (t.find k).map fun r => if cond r then f r else r := by
  apply find_map_rows
  intro r
  split
  · exact hf r
  · rfl

theorem find_deleteWhere_of_keep {cond : ρ → Bool} (h : t.find k = some r) (hc : cond r = false) :
    (t.deleteWhere cond).find k = some r := by
  have hmem : r ∈ (t.deleteWhere cond).rows :=
    List.mem_filter.mpr ⟨find_mem h, by rw [hc]; rfl⟩
  rw [← find_key h]
  exact find_of_mem hmem

theorem modify_id (t : Table key) (k : κ) (f : ρ → ρ) (hf : ∀ r, key (f r) = key r)
    (hid : ∀ r, f r = r) : t.modify k f hf = t := by
  apply ext_rows
  conv_rhs => rw [← List.map_id t.rows]
  apply List.map_congr_left
  intro r _
  simp [hid]

theorem modify_modify_cancel (t : Table key) (k : κ) (f g : ρ → ρ) (hf : ∀ r, key (f r) = key r)
    (hg : ∀ r, key (g r) = key r) (hgf : ∀ r, g (f r) = r) :
    (t.modify k f hf).modify k g hg = t := by
  apply ext_rows
  change (t.rows.map _).map _ = t.rows
  rw [List.map_map]
  conv_rhs => rw [← List.map_id t.rows]
  apply List.map_congr_left
  intro r _
  by_cases hr : key r = k
  · simp [hr, hf, hgf]
  · simp [hr]

end Table
