import Mathlib.Data.List.Nodup

/-!
# Rosters

Values under keys, each key at the position at which it first appeared.
-/

structure Roster (κ ν : Type*) where
  entries : List (κ × ν)
  nodup : (entries.map Prod.fst).Nodup

namespace Roster

variable {κ ν ι ε : Type*}

def empty : Roster κ ν := ⟨[], List.nodup_nil⟩

def keys (R : Roster κ ν) : List κ := R.entries.map Prod.fst

variable {R : Roster κ ν} {k : κ} {n : ℕ}

theorem keys_getElem? {v : ν} (h : R.entries[n]? = some (k, v)) : R.keys[n]? = some k := by
  unfold keys
  rw [List.getElem?_map, h]
  rfl

theorem nodup_append_key (h : k ∉ R.keys) (v : ν) :
    ((R.entries ++ [(k, v)]).map Prod.fst).Nodup := by
  rw [List.map_append, List.nodup_append]
  refine ⟨R.nodup, List.nodup_singleton _, ?_⟩
  intro a ha b hb hab
  have hbk : b = k := by simpa using hb
  rw [hab, hbk] at ha
  exact h ha

theorem exists_getElem?_of_mem (h : k ∈ R.keys) :
    ∃ (n : ℕ) (v : ν), R.entries[n]? = some (k, v) := by
  obtain ⟨⟨k', v⟩, he, rfl⟩ := List.mem_map.mp h
  obtain ⟨n, hn⟩ := List.getElem?_of_mem he
  exact ⟨n, v, hn⟩

variable [DecidableEq κ]

def position (R : Roster κ ν) (k : κ) : ℕ := R.keys.idxOf k

theorem position_eq (h : R.keys[n]? = some k) : R.position k = n := by
  obtain ⟨hn, hk⟩ := List.getElem?_eq_some_iff.mp h
  rw [← hk]
  exact R.nodup.idxOf_getElem n hn

theorem position_of_not_mem (h : k ∉ R.keys) : R.position k = R.entries.length := by
  unfold position
  rw [List.idxOf_eq_length h]
  exact List.length_map ..

theorem position_ne {k j : κ} (h : R.keys[n]? = some k) (hj : j ≠ k) : R.position j ≠ n := by
  rintro rfl
  obtain ⟨hn, hk⟩ := List.getElem?_eq_some_iff.mp h
  apply hj
  rw [← hk]
  exact (List.getElem_idxOf hn).symm

def get? (R : Roster κ ν) (k : κ) : Option ν :=
  (R.entries.find? fun e => decide (e.1 = k)).map Prod.snd

theorem get?_eq {v : ν} (h : R.entries[n]? = some (k, v)) : R.get? k = some v := by
  obtain ⟨entries, hnodup⟩ := R
  unfold get?
  simp only at h ⊢
  induction entries generalizing n with
  | nil => simp at h
  | cons e entries ih =>
    rw [List.map_cons, List.nodup_cons] at hnodup
    cases n with
    | zero =>
      have he : e = (k, v) := by simpa using h
      simp [he]
    | succ n =>
      have hmem : (k, v) ∈ entries := List.mem_of_getElem? (by simpa using h)
      have hne : e.1 ≠ k := by
        intro hek
        apply hnodup.1
        rw [hek]
        exact List.mem_map.mpr ⟨(k, v), hmem, rfl⟩
      rw [List.find?_cons_of_neg (by simp [hne])]
      exact ih hnodup.2 (by simpa using h)

theorem get?_eq_none (h : k ∉ R.keys) : R.get? k = none := by
  unfold get?
  rw [Option.map_eq_none_iff, List.find?_eq_none]
  intro e he hk
  exact h (List.mem_map.mpr ⟨e, he, by simpa using hk⟩)

theorem mem_keys_iff (R : Roster κ ν) (k : κ) : k ∈ R.keys ↔ (R.get? k).isSome = true := by
  constructor
  · intro h
    obtain ⟨n, v, hn⟩ := exists_getElem?_of_mem h
    rw [get?_eq hn]
    rfl
  · intro h
    by_contra hk
    rw [get?_eq_none hk] at h
    cases h

section Inputs

variable (key : ι → κ) (fresh : ι → ν) (absorb : ν → ι → ν)

def absorbed (x : ι) (e : κ × ν) : κ × ν := if e.1 = key x then (e.1, absorb e.2 x) else e

theorem fst_absorbed (x : ι) (e : κ × ν) : (absorbed key absorb x e).1 = e.1 := by
  unfold absorbed
  split <;> rfl

theorem map_fst_absorbed (x : ι) (l : List (κ × ν)) :
    (l.map (absorbed key absorb x)).map Prod.fst = l.map Prod.fst := by
  rw [List.map_map]
  exact List.map_congr_left fun e _ => fst_absorbed key absorb x e

def put (R : Roster κ ν) (x : ι) : Roster κ ν :=
  if h : key x ∈ R.keys then
    ⟨R.entries.map (absorbed key absorb x), by
      rw [map_fst_absorbed]
      exact R.nodup⟩
  else ⟨R.entries ++ [(key x, absorb (fresh x) x)], nodup_append_key h _⟩

variable {R : Roster κ ν} {x : ι} {n : ℕ} {k : κ} {v : ν}

theorem entries_put_of_mem (h : key x ∈ R.keys) :
    (R.put key fresh absorb x).entries = R.entries.map (absorbed key absorb x) := by
  unfold put
  rw [dif_pos h]

theorem entries_put_of_not_mem (h : key x ∉ R.keys) :
    (R.put key fresh absorb x).entries = R.entries ++ [(key x, absorb (fresh x) x)] := by
  unfold put
  rw [dif_neg h]

theorem keys_put_of_mem (h : key x ∈ R.keys) : (R.put key fresh absorb x).keys = R.keys := by
  unfold keys
  rw [entries_put_of_mem key fresh absorb h, map_fst_absorbed]

theorem keys_put_of_not_mem (h : key x ∉ R.keys) :
    (R.put key fresh absorb x).keys = R.keys ++ [key x] := by
  unfold keys
  rw [entries_put_of_not_mem key fresh absorb h, List.map_append]
  rfl

theorem keys_prefix_put (R : Roster κ ν) (x : ι) : R.keys <+: (R.put key fresh absorb x).keys := by
  by_cases h : key x ∈ R.keys
  · exact ⟨[], by rw [List.append_nil, keys_put_of_mem key fresh absorb h]⟩
  · rw [keys_put_of_not_mem key fresh absorb h]
    exact List.prefix_append _ _

theorem key_mem_put (R : Roster κ ν) (x : ι) : key x ∈ (R.put key fresh absorb x).keys := by
  by_cases h : key x ∈ R.keys
  · rw [keys_put_of_mem key fresh absorb h]
    exact h
  · rw [keys_put_of_not_mem key fresh absorb h]
    simp

theorem position_lt_put (R : Roster κ ν) (x : ι) :
    R.position (key x) < (R.put key fresh absorb x).keys.length := by
  by_cases h : key x ∈ R.keys
  · rw [keys_put_of_mem key fresh absorb h]
    exact List.idxOf_lt_length_iff.mpr h
  · rw [keys_put_of_not_mem key fresh absorb h, position_of_not_mem h]
    simp [keys]

theorem getElem?_put (h : R.entries[n]? = some (k, v)) (x : ι) :
    (R.put key fresh absorb x).entries[n]? =
      some (k, if k = key x then absorb v x else v) := by
  by_cases hx : key x ∈ R.keys
  · rw [entries_put_of_mem key fresh absorb hx, List.getElem?_map, h]
    simp only [Option.map_some, absorbed]
    split <;> rfl
  · have hk : k ≠ key x := by
      rintro rfl
      exact hx (List.mem_of_getElem? (keys_getElem? h))
    rw [entries_put_of_not_mem key fresh absorb hx, if_neg hk,
      List.getElem?_append_left (List.getElem?_eq_some_iff.mp h).1, h]

theorem getElem?_put_new (h : key x ∉ R.keys) :
    (R.put key fresh absorb x).entries[R.entries.length]? =
      some (key x, absorb (fresh x) x) := by
  rw [entries_put_of_not_mem key fresh absorb h]
  simp

theorem get?_put (R : Roster κ ν) (x : ι) (k : κ) :
    (R.put key fresh absorb x).get? k =
      if k = key x then some (absorb ((R.get? k).getD (fresh x)) x) else R.get? k := by
  by_cases hk : k ∈ R.keys
  · obtain ⟨n, v, hn⟩ := exists_getElem?_of_mem hk
    rw [get?_eq (getElem?_put key fresh absorb hn x), get?_eq hn]
    split <;> rfl
  · by_cases hx : k = key x
    · rw [hx] at hk ⊢
      rw [get?_eq (getElem?_put_new key fresh absorb hk), get?_eq_none hk, if_pos rfl]
      rfl
    · rw [if_neg hx, get?_eq_none hk, get?_eq_none]
      by_cases hmem : key x ∈ R.keys
      · rw [keys_put_of_mem key fresh absorb hmem]
        exact hk
      · rw [keys_put_of_not_mem key fresh absorb hmem]
        simp [hk, hx]

theorem position_put (h : k ∈ R.keys) (x : ι) :
    (R.put key fresh absorb x).position k = R.position k := by
  obtain ⟨n, v, hn⟩ := exists_getElem?_of_mem h
  have hput := getElem?_put key fresh absorb hn x
  rw [position_eq (keys_getElem? hn), position_eq (keys_getElem? hput)]

def puts (R : Roster κ ν) (xs : List ι) : Roster κ ν := xs.foldl (put key fresh absorb) R

theorem keys_prefix_puts (R : Roster κ ν) (xs : List ι) :
    R.keys <+: (R.puts key fresh absorb xs).keys := by
  induction xs generalizing R with
  | nil => exact List.prefix_rfl
  | cons x xs ih => exact (keys_prefix_put key fresh absorb R x).trans (ih _)

theorem mem_keys_puts (R : Roster κ ν) (xs : List ι) (k : κ) :
    k ∈ (R.puts key fresh absorb xs).keys ↔ k ∈ R.keys ∨ ∃ x ∈ xs, key x = k := by
  induction xs generalizing R with
  | nil => simp [puts]
  | cons x xs ih =>
    have hput : k ∈ (R.put key fresh absorb x).keys ↔ k ∈ R.keys ∨ key x = k := by
      by_cases h : key x ∈ R.keys
      · rw [keys_put_of_mem key fresh absorb h]
        constructor
        · exact Or.inl
        · rintro (hk | rfl)
          · exact hk
          · exact h
      · rw [keys_put_of_not_mem key fresh absorb h]
        simp [eq_comm]
    show k ∈ ((R.put key fresh absorb x).puts key fresh absorb xs).keys ↔ _
    rw [ih]
    simp only [List.exists_mem_cons_iff]
    tauto

theorem getElem?_puts (h : R.entries[n]? = some (k, v)) (xs : List ι) :
    (R.puts key fresh absorb xs).entries[n]? =
      some (k, (xs.filter fun x => decide (key x = k)).foldl absorb v) := by
  induction xs generalizing R v with
  | nil => exact h
  | cons x xs ih =>
    show ((R.put key fresh absorb x).puts key fresh absorb xs).entries[n]? = _
    rw [ih (getElem?_put key fresh absorb h x)]
    by_cases hx : key x = k
    · rw [if_pos hx.symm, List.filter_cons_of_pos (by simp [hx])]
      rfl
    · rw [if_neg (Ne.symm hx), List.filter_cons_of_neg (by simp [hx])]

variable (added : ℕ → ι → ε) (touch : ℕ → ν → ι → List ε)

def emit (R : Roster κ ν) (x : ι) : List ε :=
  match R.get? (key x) with
  | some v => touch (R.position (key x)) (absorb v x) x
  | none => added (R.position (key x)) x :: touch (R.position (key x)) (absorb (fresh x) x) x

def emits (R : Roster κ ν) : List ι → List ε
  | [] => []
  | x :: xs => emit key fresh absorb added touch R x ++ (R.put key fresh absorb x).emits xs

theorem puts_append (R : Roster κ ν) (xs ys : List ι) :
    R.puts key fresh absorb (xs ++ ys) =
      (R.puts key fresh absorb xs).puts key fresh absorb ys := List.foldl_append

theorem emits_append (R : Roster κ ν) (xs ys : List ι) :
    emits key fresh absorb added touch R (xs ++ ys) =
      emits key fresh absorb added touch R xs ++
        emits key fresh absorb added touch (R.puts key fresh absorb xs) ys := by
  induction xs generalizing R with
  | nil => rfl
  | cons x xs ih =>
    rw [List.cons_append, emits, ih, emits, List.append_assoc]
    rfl

def touches (n : ℕ) (v : ν) : List ι → List ε
  | [] => []
  | x :: xs => touch n (absorb v x) x ++ touches n (absorb v x) xs

theorem emit_of_getElem? (h : R.entries[n]? = some (key x, v)) :
    emit key fresh absorb added touch R x = touch n (absorb v x) x := by
  unfold emit
  rw [get?_eq h, position_eq (keys_getElem? h)]

variable {key fresh absorb added touch} (sits : ε → ℕ → Bool)
  (hadded : ∀ n x m, sits (added n x) m = decide (n = m))
  (htouch : ∀ n v x m, ∀ e ∈ touch n v x, sits e m = decide (n = m))

include hadded htouch

theorem sits_emit (R : Roster κ ν) (x : ι) (m : ℕ) :
    ∀ e ∈ emit key fresh absorb added touch R x,
      sits e m = decide (R.position (key x) = m) := by
  intro e he
  unfold emit at he
  split at he
  · exact htouch _ _ _ m e he
  · rcases List.mem_cons.mp he with rfl | he
    · exact hadded _ _ m
    · exact htouch _ _ _ m e he

theorem filter_emit_self (h : R.position (key x) = n) :
    (emit key fresh absorb added touch R x).filter (fun e => sits e n) =
      emit key fresh absorb added touch R x := by
  rw [List.filter_eq_self]
  intro e he
  rw [sits_emit sits hadded htouch R x n e he, h]
  simp

theorem filter_emit_other (h : R.position (key x) ≠ n) :
    (emit key fresh absorb added touch R x).filter (fun e => sits e n) = [] := by
  rw [List.filter_eq_nil_iff]
  intro e he
  rw [sits_emit sits hadded htouch R x n e he]
  simpa using h

theorem filter_emits (h : R.entries[n]? = some (k, v)) (xs : List ι) :
    (emits key fresh absorb added touch R xs).filter (fun e => sits e n) =
      touches absorb touch n v (xs.filter fun x => decide (key x = k)) := by
  induction xs generalizing R v with
  | nil => rfl
  | cons x xs ih =>
    rw [emits, List.filter_append, ih (getElem?_put key fresh absorb h x)]
    by_cases hx : key x = k
    · have hpos : R.position (key x) = n := by
        rw [hx]
        exact position_eq (keys_getElem? h)
      rw [filter_emit_self sits hadded htouch hpos, if_pos hx.symm,
        List.filter_cons_of_pos (by simp [hx]), touches]
      rw [← hx] at h
      rw [emit_of_getElem? key fresh absorb added touch h]
    · have hpos := position_ne (keys_getElem? h) hx
      rw [filter_emit_other sits hadded htouch hpos, if_neg (Ne.symm hx),
        List.filter_cons_of_neg (by simp [hx])]
      rfl

theorem filter_emits_new {w : ν} {xs : List ι} (hn : R.entries.length ≤ n)
    (h : (R.puts key fresh absorb xs).entries[n]? = some (k, w)) :
    ∃ x rest, (xs.filter fun x => decide (key x = k)) = x :: rest ∧
      (emits key fresh absorb added touch R xs).filter (fun e => sits e n) =
        added n x :: touches absorb touch n (fresh x) (x :: rest) ∧
      w = (x :: rest).foldl absorb (fresh x) := by
  induction xs generalizing R with
  | nil =>
    have hlt := (List.getElem?_eq_some_iff.mp h).1
    exact absurd hlt (by show ¬ n < R.entries.length; omega)
  | cons x xs ih =>
    have hrun : ((R.put key fresh absorb x).puts key fresh absorb xs).entries[n]? =
      some (k, w) := h
    by_cases hlen : (R.put key fresh absorb x).entries.length ≤ n
    · -- the input reports at an earlier position, and its key keeps that position
      obtain ⟨y, rest, hfilter, hemits, hw⟩ := ih hlen hrun
      have hlt := position_lt_put key fresh absorb R x
      have hle : (R.put key fresh absorb x).keys.length ≤ n := by
        simpa [keys] using hlen
      have hne : key x ≠ k := by
        rintro rfl
        have hmem := key_mem_put key fresh absorb R x
        obtain ⟨m, hm, hmk⟩ := List.getElem_of_mem hmem
        obtain ⟨t, ht⟩ := keys_prefix_puts key fresh absorb (R.put key fresh absorb x) xs
        have hfirst : ((R.put key fresh absorb x).puts key fresh absorb xs).keys[m]? =
            some (key x) := by
          rw [← ht, List.getElem?_append_left hm]
          exact List.getElem?_eq_some_iff.mpr ⟨hm, hmk⟩
        have hpos := position_eq hfirst
        rw [position_eq (keys_getElem? hrun)] at hpos
        omega
      refine ⟨y, rest, ?_, ?_, hw⟩
      · rw [List.filter_cons_of_neg (by simp [hne])]
        exact hfilter
      · rw [emits, List.filter_append, filter_emit_other sits hadded htouch (by omega), hemits]
        rfl
    · have hx : key x ∉ R.keys := by
        intro hx
        have hlength := congrArg List.length (keys_put_of_mem key fresh absorb hx)
        simp only [keys, List.length_map] at hlength
        omega
      have hnew := getElem?_put_new key fresh absorb hx
      have hlength : n = R.entries.length := by
        rw [entries_put_of_not_mem key fresh absorb hx, List.length_append,
          List.length_singleton] at hlen
        omega
      rw [← hlength] at hnew
      have hend := getElem?_puts key fresh absorb hnew xs
      rw [hrun, Option.some.injEq] at hend
      obtain ⟨rfl, rfl⟩ := hend
      refine ⟨x, xs.filter fun y => decide (key y = key x), ?_, ?_, rfl⟩
      · rw [List.filter_cons_of_pos (by simp)]
      · have hpos : R.position (key x) = n := by rw [position_of_not_mem hx, hlength]
        rw [emits, List.filter_append, filter_emit_self sits hadded htouch hpos,
          filter_emits sits hadded htouch hnew,
          emit, get?_eq_none hx, position_of_not_mem hx, ← hlength]
        rfl

theorem sits_emits_lt {xs : List ι} : ∀ e ∈ emits key fresh absorb added touch R xs,
      ∃ n < (R.puts key fresh absorb xs).entries.length, sits e n = true := by
  induction xs generalizing R with
  | nil => simp [emits]
  | cons x xs ih =>
    intro e he
    rw [emits, List.mem_append] at he
    rcases he with he | he
    · have hlt := position_lt_put key fresh absorb R x
      have hle := (keys_prefix_puts key fresh absorb (R.put key fresh absorb x) xs).length_le
      have hkeys : ((R.put key fresh absorb x).puts key fresh absorb xs).keys.length =
          ((R.put key fresh absorb x).puts key fresh absorb xs).entries.length :=
        List.length_map ..
      refine ⟨R.position (key x), ?_, ?_⟩
      · show _ < ((R.put key fresh absorb x).puts key fresh absorb xs).entries.length
        omega
      · rw [sits_emit sits hadded htouch R x _ e he]
        simp
    · exact ih e he

end Inputs

end Roster
