import LatticeGrid.Failure

/-!
# How an operation ends

An operation that changes a state ends with an answer, or with a failure and the state as it has been left.
`EndsIn Q P` is the judgment about both: the answer satisfies `Q`, or the failure and what it has left satisfy
`P`. It is composed like the operations themselves, with one lemma for each way to compose them. A step that
cannot touch the state needs `P` of the state before it (`EndsIn.leaving`), and that is where a check that
comes before the first write differs from one that comes after it.

Main statements: `EndsIn.bind` and `EndsIn.foldlM`.
-/

set_option autoImplicit false

namespace LatticeGrid

variable {σ β γ : Type}

/-- However a computation ends: its answer satisfies `Q`, or its failure and what it has left satisfy `P`. -/
def EndsIn (Q : β → Prop) (P : Failure → σ → Prop) : Except (Failure × σ) β → Prop
  | .ok b => Q b
  | .error (e, left) => P e left

namespace EndsIn

variable {Q R : β → Prop} {P P' : Failure → σ → Prop} {x y : Except (Failure × σ) β}

theorem of_eq_ok {b : β} (h : EndsIn Q P x) (hx : x = .ok b) : Q b := by
  rw [hx] at h
  exact h

theorem of_eq_error {e : Failure} {left : σ} (h : EndsIn Q P x) (hx : x = .error (e, left)) :
    P e left := by
  rw [hx] at h
  exact h

theorem mono (h : EndsIn Q P x) (hQ : ∀ b, Q b → R b) (hP : ∀ e left, P e left → P' e left) :
    EndsIn R P' x := by
  cases x with
  | ok b => exact hQ b h
  | error f => exact hP f.1 f.2 h

theorem bind {S : γ → Prop} {f : β → Except (Failure × σ) γ} (hx : EndsIn Q P x)
    (hf : ∀ b, Q b → EndsIn S P (f b)) : EndsIn S P (x >>= f) := by
  cases x with
  | ok b => exact hf b hx
  | error f => exact hx

theorem ite {p : Prop} [Decidable p] (hx : p → EndsIn Q P x) (hy : ¬ p → EndsIn Q P y) :
    EndsIn Q P (if p then x else y) := by
  split
  · next h => exact hx h
  · next h => exact hy h

/-- A step that does not touch the state leaves the state before it. -/
theorem leaving {state : σ} {x : Except Failure β} (h : ∀ e, x = .error e → P e state) :
    EndsIn (x = .ok ·) P (LatticeGrid.leaving state x) := by
  cases x with
  | ok b => exact rfl
  | error e => exact h e rfl

/-- What every round of a loop keeps, the whole loop keeps, also where it stops. -/
theorem foldlM {Q : σ → Prop} {step : σ → γ → Except (Failure × σ) σ} {l : List γ} {state : σ}
    (hstep : ∀ state c, Q state → EndsIn Q P (step state c)) (hstate : Q state) :
    EndsIn Q P (l.foldlM step state) := by
  induction l generalizing state with
  | nil => exact hstate
  | cons c l ih =>
      rw [List.foldlM_cons]
      exact bind (hstep state c hstate) fun next hnext => ih hnext

end EndsIn

end LatticeGrid
