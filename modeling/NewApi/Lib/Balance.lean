import Mathlib.Data.Int.Notation
import NewApi.Lib.ReadCommitted

/-!
# Amounts with an attributed part

An amount in a row that many programs change, with the part of it that one of them has put there.
-/

structure Balance where
  amount : ℤ
  credit : ℤ
  deriving DecidableEq, Repr

namespace Balance

def change (d : ℤ) (b : Balance) : Balance := { b with amount := b.amount + d }

def refund (q : ℤ) (b : Balance) : Balance := { amount := b.amount + q, credit := b.credit + q }

/-- A credit of `q` to an amount that counts what is used. -/
def unuse (q : ℤ) (b : Balance) : Balance := { amount := b.amount - q, credit := b.credit + q }

def creditOf (b : Option Balance) : ℤ := (b.map credit).getD 0

def outside {τ : Type} (r : Row τ (Option Balance)) (f : Balance → Option Balance) :
    Option (Row τ (Option Balance)) :=
  match r.pending with
  | none => some (.stored (r.committed.bind f))
  | some _ => none

variable {τ : Type} [DecidableEq τ] {i : τ} {r r' : Row τ (Option Balance)} {d : ℤ}

theorem creditOf_unwritten (h : r.own i = none) :
    creditOf (r.select i) = creditOf r.committed + 0 := by
  rw [Row.select_of_none h, Int.add_zero]

theorem creditOf_kept (hk : r.KeptFor i r')
    (h : creditOf (r.select i) = creditOf r.committed + d) :
    creditOf (r'.select i) = creditOf r'.committed + d := by
  obtain ⟨hsel, hcom⟩ | ⟨hsel, hsel'⟩ := hk.select
  · rw [hsel, hcom]
    exact h
  · rw [hsel] at h
    rw [hsel']
    omega

theorem creditOf_change (b : Option Balance) (d : ℤ) :
    creditOf (b.bind (some ∘ change d)) = creditOf b := by
  cases b <;> rfl

omit [DecidableEq τ] in
theorem outside_some {f : Balance → Option Balance} (h : outside r f = some r') :
    r.pending = none ∧ r' = .stored (r.committed.bind f) := by
  unfold outside at h
  split at h
  · next hp => exact ⟨hp, (Option.some.inj h).symm⟩
  · cases h

end Balance
