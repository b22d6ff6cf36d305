/-!
# Runs of a transition system

A system is a partial step function.
-/

namespace Transition

variable {σ ε : Type}

/-- The states that a run from `s` reaches when every step meets `ok`. -/
inductive Reach (next : σ → ε → Option σ) (ok : σ → ε → Prop) (s : σ) : σ → Prop
  | refl : Reach next ok s s
  | step {t u : σ} (e : ε) (h : Reach next ok s t) (hok : ok t e) (hn : next t e = some u) :
    Reach next ok s u

def Any (_ : σ) (_ : ε) : Prop := True

instance (s : σ) (e : ε) : Decidable (Any s e) := isTrue trivial

variable {next : σ → ε → Option σ} {ok : σ → ε → Prop}

theorem Reach.invariant {s t : σ} {I : σ → Prop} (h0 : I s)
    (hstep : ∀ t e u, I t → ok t e → next t e = some u → I u) (h : Reach next ok s t) : I t := by
  induction h with
  | refl => exact h0
  | step e _ hok hn ih => exact hstep _ e _ ih hok hn

/-- Runs the events in order; a step that is not enabled or breaks `ok` ends the run. -/
def execute (next : σ → ε → Option σ) (ok : σ → ε → Prop) [∀ s e, Decidable (ok s e)] :
    List ε → σ → Option σ
  | [], s => some s
  | e :: es, s => if ok s e then (next s e).bind (execute next ok es) else none

theorem Reach.trans {s t u : σ} (h : Reach next ok s t) (h' : Reach next ok t u) :
    Reach next ok s u := by
  induction h' with
  | refl => exact h
  | step e _ hok hn ih => exact .step e ih hok hn

theorem reach_of_execute [∀ s e, Decidable (ok s e)] {es : List ε} {s t : σ}
    (h : execute next ok es s = some t) : Reach next ok s t := by
  induction es generalizing s with
  | nil =>
    cases h
    exact .refl
  | cons e es ih =>
    unfold execute at h
    split at h
    · next hok =>
      rcases hn : next s e with _ | u
      · rw [hn] at h
        cases h
      · rw [hn] at h
        exact (Reach.refl.step e hok hn).trans (ih h)
    · cases h

theorem exists_reach_of_execute [∀ s e, Decidable (ok s e)] {es : List ε} {s : σ} {p : σ → Bool}
    (h : (execute next ok es s).map p = some true) : ∃ t, Reach next ok s t ∧ p t = true := by
  rcases he : execute next ok es s with _ | t
  · rw [he] at h
    cases h
  · rw [he] at h
    exact ⟨t, reach_of_execute he, Option.some.inj h⟩

theorem exists_reach_of_execute_twice [∀ s e, Decidable (ok s e)] {es fs : List ε} {s : σ}
    {p : σ → σ → Bool}
    (h : ((execute next ok es s).bind fun t => (execute next ok fs t).map (p t)) = some true) :
    ∃ t u, Reach next ok s t ∧ Reach next ok t u ∧ p t u = true := by
  obtain ⟨t, ht, hrest⟩ := Option.bind_eq_some_iff.mp h
  obtain ⟨u, hu, hp⟩ := exists_reach_of_execute hrest
  exact ⟨t, u, reach_of_execute ht, hu, hp⟩

end Transition
