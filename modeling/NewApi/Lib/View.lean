/-!
# A fold seen through a view

A request keeps a view, or changes it by what the view itself shows.
-/

namespace View

variable {σ ρ ν : Type}

/-- How the requests that meet `asked` act on a view of states that meet `inv`. -/
structure Local (step : σ → ρ → σ) (inv : σ → Prop) (asked : ρ → Prop) (view : σ → ν)
    (own : ρ → Bool) (act : ν → ρ → ν) : Prop where
  keeps : ∀ s r, inv s → asked r → inv (step s r)
  foreign : ∀ s r, inv s → asked r → own r = false → view (step s r) = view s
  acts : ∀ s r, inv s → asked r → own r = true → view (step s r) = act (view s) r

theorem Local.foldl {step : σ → ρ → σ} {inv : σ → Prop} {asked : ρ → Prop} {view : σ → ν}
    {own : ρ → Bool} {act : ν → ρ → ν} (h : Local step inv asked view own act) {s : σ}
    (hs : inv s) {rs : List ρ} (hrs : ∀ r ∈ rs, asked r) :
    view (rs.foldl step s) = (rs.filter own).foldl act (view s) := by
  induction rs generalizing s with
  | nil => rfl
  | cons r rs ih =>
    have hr : asked r := hrs r List.mem_cons_self
    have hrest : ∀ x ∈ rs, asked x := fun x hx => hrs x (List.mem_cons_of_mem r hx)
    rw [List.foldl_cons, ih (h.keeps s r hs hr) hrest]
    cases ho : own r with
    | false => rw [List.filter_cons_of_neg (ne_true_of_eq_false ho),
        h.foreign s r hs hr ho]
    | true => rw [List.filter_cons_of_pos ho, List.foldl_cons, h.acts s r hs hr ho]

end View
