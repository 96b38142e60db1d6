import LatticeGrid.Grid.Fill
import LatticeGrid.Proofs.Faults

/-!
# What every write keeps

A write leaves a grid of the same shape, whatever it was asked to write and wherever, and whether it succeeds
or not: a single element, a box, or the overlap with another grid. It is stopped by a fault or refused by a
report. A fault may come between two elements, so all that is known of the grid then is its shape
(`AfterFault`). A report comes from the geometry, which is looked at before the first element is written,
so it leaves the very same grid (`Grid.AfterFailure`).

Main statements: `Grid.endsIn_fillRegion`, `Grid.endsIn_copyFrom` and `Grid.keepsShape_copyPointwise`.
-/

set_option autoImplicit false

namespace LatticeGrid.Grid

variable {α : Type}

/-- What a write leaves that has failed: a grid of the same shape, and the very same grid if the failure is a
reported one. -/
structure AfterFailure (g : Grid α) (e : Failure) (left : Grid α) : Prop where
  shape_eq : left.shape = g.shape
  eq_of_isReported : e.isReported = true → left = g

/-- However some writes to a grid of a shape end, they leave a grid of that shape, and only a fault stops
them. -/
def KeepsShape (s : Shape) (written : Except (Failure × Grid α) (Grid α)) : Prop :=
  EndsIn (·.shape = s) (AfterFault (·.shape = s)) written

variable {g left : Grid α} {e : Failure}

theorem afterFailure_of_afterFault (h : AfterFault (·.shape = g.shape) e left) :
    AfterFailure g e left := by
  refine ⟨h.kept, fun he => ?_⟩
  rw [h.isReported_eq] at he
  cases he

theorem KeepsShape.endsIn {written : Except (Failure × Grid α) (Grid α)}
    (h : KeepsShape g.shape written) : EndsIn (·.shape = g.shape) (AfterFailure g) written :=
  EndsIn.mono h (fun _ hshape => hshape) fun _ _ => afterFailure_of_afterFault

/-- Before the first write the grid is what it was, whatever the failure. -/
theorem afterFailure_self (g : Grid α) (e : Failure) : AfterFailure g e g := ⟨rfl, fun _ => rfl⟩

/-- A step between the writes that can only have a fault. -/
theorem endsIn_leaving {β : Type} {s : Shape} {x : Except Failure β} (hx : OnlyFaults x)
    (hg : g.shape = s) : EndsIn (x = .ok ·) (AfterFault (·.shape = s)) (leaving g x) :=
  EndsIn.leaving fun e he => ⟨hx e he, hg⟩

/-! ## Single elements -/

section Elements

variable {s : Shape} (hg : g.shape = s)

include hg

theorem keepsShape_setAt (i : Nat) (v : α) : KeepsShape s (g.setAt i v) :=
  EndsIn.ite (fun _ => hg) fun _ => ⟨rfl, hg⟩

theorem keepsShape_set (p : Index) (v : α) : KeepsShape s (g.set p v) :=
  EndsIn.bind (endsIn_leaving (OnlyFaults.positionOf g p) hg) fun i _ => keepsShape_setAt hg i v

theorem endsIn_exchange (p : Index) (v : α) :
    EndsIn (·.2.shape = s) (AfterFault (·.shape = s)) (g.exchange p v) := by
  apply EndsIn.ite
  · intro _
    apply EndsIn.bind (endsIn_leaving (OnlyFaults.get g p) hg)
    intro old _
    exact EndsIn.bind (keepsShape_set hg p v) fun next hnext => hnext
  · intro _
    exact hg

end Elements

/-! ## Boxes -/

section FillRegion

variable (g) (box : Box) (value : α)

theorem endsIn_fillClipped : EndsIn (·.shape = g.shape) (AfterFailure g) (g.fillClipped box value) := by
  apply EndsIn.bind (EndsIn.leaving fun e _ => afterFailure_self g e)
  intro visit _
  -- the state of the visit is itself the outcome of the writes so far
  have hcall : ∀ (filled : Except (Failure × Grid α) (Grid α)) (_ : Index) (position : Nat),
      KeepsShape g.shape filled → KeepsShape g.shape (do (← filled).setAt position value) := by
    intro filled _ position hfilled
    exact EndsIn.bind hfilled fun g' hg' => keepsShape_setAt hg' position value
  have hstart : KeepsShape g.shape (.ok g) := rfl
  have hfold := visit.endsIn_fold hcall hstart
  split
  · next filled hok => exact (hfold.of_eq_ok hok).endsIn
  · next e filled herror =>
      obtain ⟨hfault, hfilled⟩ := hfold.of_eq_error herror
      apply EndsIn.bind hfilled.endsIn
      intro left hleft
      exact afterFailure_of_afterFault ⟨hfault, hleft⟩

theorem endsIn_fillRegion : EndsIn (·.shape = g.shape) (AfterFailure g) (g.fillRegion box value) := by
  apply EndsIn.bind (EndsIn.leaving fun e _ => afterFailure_self g e)
  intro _ _
  apply EndsIn.ite
  · intro _
    exact rfl
  · intro _
    apply EndsIn.ite
    · intro _
      exact rfl
    · intro _
      exact endsIn_fillClipped g box value

end FillRegion

/-! ## Copies -/

section Copies

variable (offset : Point) (source : Grid α)

theorem keepsShape_copyRow {s : Shape} (hg : g.shape = s) (target start length : Nat) :
    KeepsShape s (g.copyRow target source start length) := by
  apply EndsIn.bind (endsIn_leaving (OnlyFaults.checkRange g _ _) hg)
  intro _ _
  apply EndsIn.bind (endsIn_leaving (OnlyFaults.checkRange source _ _) hg)
  intro _ _
  refine EndsIn.foldlM ?_ hg
  intro g' i hg'
  apply EndsIn.bind (endsIn_leaving (OnlyFaults.getAt source _) hg')
  intro v _
  exact keepsShape_setAt hg' _ v

theorem keepsShape_copyOverlap (g : Grid α) (o : Overlap) :
    KeepsShape g.shape (g.copyOverlap source o) := by
  apply EndsIn.bind (endsIn_leaving (OnlyFaults.ofOrigins _ _ _ _ _) rfl)
  intro walk _
  refine walk.endsIn_fold ?_ ?_ rfl
  · intro g' row hg'
    exact keepsShape_copyRow source hg' _ _ _
  · intro e g' he hg'
    exact ⟨he, hg'⟩

/-- A copy is refused by the computation of the overlap and by nothing else. -/
theorem endsIn_copyFrom (g : Grid α) :
    EndsIn (·.shape = g.shape) (AfterFailure g) (g.copyFrom offset source) := by
  apply EndsIn.bind (EndsIn.leaving fun e _ => afterFailure_self g e)
  intro overlap _
  cases overlap with
  | none => exact rfl
  | some o => exact (keepsShape_copyOverlap source g o).endsIn

theorem keepsShape_copyPoint {s : Shape} (hg : g.shape = s) (p : Point) :
    KeepsShape s (g.copyPoint offset source p) := by
  apply EndsIn.bind (endsIn_leaving (OnlyFaults.pointSub p offset) hg)
  intro fromSource _
  apply EndsIn.ite
  · intro _
    exact hg
  · intro _
    apply EndsIn.ite
    · intro _
      apply EndsIn.bind (endsIn_leaving (OnlyFaults.lookup source _) hg)
      intro found _
      cases found with
      | none => exact ⟨rfl, hg⟩
      | some v => exact keepsShape_set hg _ v
    · intro _
      exact hg

/-- The copy by points never reports. -/
theorem keepsShape_copyPointwise (g : Grid α) :
    KeepsShape g.shape (g.copyPointwise offset source) := by
  apply EndsIn.bind (endsIn_leaving (OnlyFaults.sourceSides source) rfl)
  intro sides _
  apply EndsIn.bind (endsIn_leaving (OnlyFaults.points _) rfl)
  intro points _
  exact EndsIn.foldlM (fun g' p hg' => keepsShape_copyPoint offset source hg' p) rfl

end Copies

end LatticeGrid.Grid
