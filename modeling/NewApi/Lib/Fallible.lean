/-!
# Fallible calls and what they do to a view of the world

A call takes the world and returns an error or a value together with the new world.
-/

namespace Fallible

variable {W B ε α : Type}

/-- Seen through `view`, the result `r` of a call made in `w` is `R a` of the old view
when it is the value `a`, and the old view itself when it is an error. -/
def Does (view : W → B) (R : α → B → B → Prop) (w : W) (r : Except ε α × W) : Prop :=
  match r with
  | (.ok a, w') => R a (view w) (view w')
  | (.error _, w') => view w' = view w

def Atomic (view : W → B) (R : α → B → B → Prop) (op : W → Except ε α × W) : Prop :=
  ∀ w, Does view R w (op w)

/-- A call that applies `δ` to the view or fails without a trace. -/
def Shifts (view : W → B) (δ : B → B) (op : W → Except ε α × W) : Prop :=
  Atomic view (fun _ b b' => b' = δ b) op

def Frame (view : W → B) (op : W → Except ε α × W) : Prop :=
  ∀ w, view (op w).2 = view w

variable {op : W → Except ε α × W} {R : α → B → B → Prop} {view : W → B} {w w' : W}

theorem Does.pure {w : W} {a : α} (h : R a (view w) (view w)) :
    Does view R w ((.ok a : Except ε α), w) := h

theorem Does.imp {R S : α → B → B → Prop} {w : W} {r : Except ε α × W} (h : Does view R w r)
    (hRS : ∀ a b b', R a b b' → S a b b') : Does view S w r := by
  obtain ⟨r, w'⟩ := r
  cases r with
  | ok a => exact hRS _ _ _ h
  | error e => exact h

theorem Atomic.ok (h : Atomic view R op) {a : α} (hop : op w = (.ok a, w')) :
    R a (view w) (view w') := by
  have hw := h w
  rwa [hop] at hw

theorem Atomic.error (h : Atomic view R op) {e : ε} (hop : op w = (.error e, w')) :
    view w' = view w := by
  have hw := h w
  rwa [hop] at hw

theorem Frame.of_eq (h : Frame view op) {r : Except ε α} (hop : op w = (r, w')) :
    view w' = view w := by
  have hw := h w
  rwa [hop] at hw

end Fallible
