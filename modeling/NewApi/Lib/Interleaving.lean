import Mathlib.Logic.Function.Basic
import NewApi.Lib.Transition

/-!
# Interleaved processes on a shared store

A process takes one step at a time on the store it shares with the others.
-/

namespace Transition

variable {ι σ π ε : Type} [DecidableEq ι]

structure Processes (ι σ π : Type) where
  store : σ
  point : ι → π

def interleave (step : ι → σ → π → ε → Option (σ × π)) (s : Processes ι σ π) (e : ι × ε) :
    Option (Processes ι σ π) :=
  (step e.1 s.store (s.point e.1) e.2).map fun r => ⟨r.1, Function.update s.point e.1 r.2⟩

def Locally (ok : ι → σ → π → ε → Prop) (s : Processes ι σ π) (e : ι × ε) : Prop :=
  ok e.1 s.store (s.point e.1) e.2

instance (ok : ι → σ → π → ε → Prop) [∀ i s p e, Decidable (ok i s p e)]
    (s : Processes ι σ π) (e : ι × ε) : Decidable (Locally ok s e) :=
  inferInstanceAs (Decidable (ok _ _ _ _))

structure Interleaved (shared : σ → Prop) (each : ι → σ → π → Prop)
    (s : Processes ι σ π) : Prop where
  store : shared s.store
  procs : ∀ i, each i s.store (s.point i)

/-- One step keeps what is shared, what its process has and what every other process has. -/
def KeepsAll (shared : σ → Prop) (each : ι → σ → π → Prop) (i : ι) (s s' : σ) (p' : π) :
    Prop :=
  shared s' ∧ each i s' p' ∧ ∀ j q, j ≠ i → each j s q → each j s' q

theorem Reach.interleaved_at {step : ι → σ → π → ε → Option (σ × π)}
    {ok : Processes ι σ π → ι × ε → Prop} {shared : σ → Prop} {each : ι → σ → π → Prop}
    {s t : Processes ι σ π} (h0 : Interleaved shared each s)
    (hstep : ∀ (t : Processes ι σ π) (i : ι) (e : ε) (u : σ) (p : π),
      Interleaved shared each t → ok t (i, e) → step i t.store (t.point i) e = some (u, p) →
      shared u ∧ each i u p ∧ ∀ j, j ≠ i → each j u (t.point j))
    (h : Reach (interleave step) ok s t) : Interleaved shared each t := by
  refine h.invariant h0 ?_
  intro t e t' hI hok hn
  obtain ⟨⟨u, p⟩, hs, rfl⟩ := Option.map_eq_some_iff.mp hn
  obtain ⟨hu, hp, hq⟩ := hstep t e.1 e.2 u p hI hok hs
  refine ⟨hu, fun j => ?_⟩
  by_cases hj : j = e.1
  · subst hj
    simpa using hp
  · simpa [Function.update_of_ne hj] using hq j hj

theorem Reach.interleaved {step : ι → σ → π → ε → Option (σ × π)} {ok : ι → σ → π → ε → Prop}
    {shared : σ → Prop} {each : ι → σ → π → Prop} {s t : Processes ι σ π}
    (h0 : Interleaved shared each s)
    (hstep : ∀ {i s p e u q}, shared s → each i s p → ok i s p e → step i s p e = some (u, q) →
      KeepsAll shared each i s u q)
    (h : Reach (interleave step) (Locally ok) s t) : Interleaved shared each t := by
  refine h.interleaved_at h0 ?_
  intro t i e u p hI hok hs
  obtain ⟨hu, hp, hq⟩ := hstep hI.store (hI.procs i) hok hs
  exact ⟨hu, hp, fun j hj => hq j _ hj (hI.procs j)⟩

end Transition
