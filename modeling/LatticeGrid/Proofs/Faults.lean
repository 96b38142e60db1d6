import LatticeGrid.Copy.Pointwise
import LatticeGrid.Copy.Region
import LatticeGrid.Layout.Visit
import LatticeGrid.Proofs.Lattice.Lengths
import LatticeGrid.Proofs.Outcomes

/-!
# Failures that are faults

A reported failure is an answer about the geometry; every other failure is a fault. Arithmetic with words
and coordinates, positions, walks and the access to single elements never report, so an operation that is
composed of these reports only where it looks at the geometry itself (`OnlyFaults`). The lemmas here
follow the definitions: one for each way to compose computations, then one for each function that has only
faults. A loop that changes a state on its way may be stopped by a fault; what its rounds keep of the state is
kept then as well.

Main statements: `Visit.endsIn_fold` and `RowPairs.endsIn_fold`.
-/

set_option autoImplicit false

namespace LatticeGrid

/-- A computation that fails, if at all, by a fault. -/
def OnlyFaults {β : Type} (x : Except Failure β) : Prop :=
  ∀ e, x = .error e → e.isReported = false

/-- A computation that fails, if at all, by a report. -/
def OnlyReports {β : Type} (x : Except Failure β) : Prop :=
  ∀ e, x = .error e → e.isReported = true

namespace OnlyFaults

/-! ## Composed computations -/

section Compose

variable {β γ : Type} {x y : Except Failure β}

theorem ok (b : β) : OnlyFaults (.ok b : Except Failure β) := by
  intro e h
  cases h

theorem error {e : Failure} (h : e.isReported = false) : OnlyFaults (.error e : Except Failure β) := by
  intro e' he
  cases he
  exact h

theorem bind {f : β → Except Failure γ} (hx : OnlyFaults x) (hf : ∀ b, OnlyFaults (f b)) :
    OnlyFaults (x >>= f) := by
  intro e h
  rcases bind_eq_error_iff.1 h with h | ⟨b, -, h⟩
  · exact hx e h
  · exact hf b e h

theorem map (f : β → γ) (hx : OnlyFaults x) : OnlyFaults (f <$> x) := by
  intro e h
  cases x with
  | ok b => cases h
  | error e' =>
      cases h
      exact hx e rfl

theorem ite {p : Prop} [Decidable p] (hx : OnlyFaults x) (hy : OnlyFaults y) :
    OnlyFaults (if p then x else y) := by
  split
  · exact hx
  · exact hy

theorem foldlM {step : β → γ → Except Failure β} {l : List γ} (h : ∀ b c, OnlyFaults (step b c))
    (b : β) : OnlyFaults (l.foldlM step b) := by
  induction l generalizing b with
  | nil => exact ok b
  | cons c l ih =>
      rw [List.foldlM_cons]
      exact bind (h b c) ih

theorem mapM {f : β → Except Failure γ} {l : List β} (h : ∀ b, OnlyFaults (f b)) :
    OnlyFaults (l.mapM f) := by
  induction l with
  | nil => exact ok []
  | cons b l ih =>
      rw [List.mapM_cons]
      exact bind (h b) fun c => bind ih fun cs => ok (c :: cs)

end Compose

/-! ## Words, coordinates and points -/

theorem wordAdd (a b : Nat) : OnlyFaults (Word.add a b) := ite (ok _) (error rfl)

theorem wordSub (a b : Nat) : OnlyFaults (Word.sub a b) := ite (ok _) (error rfl)

theorem wordMul (a b : Nat) : OnlyFaults (Word.mul a b) := ite (ok _) (error rfl)

theorem wordDot (l : List (Nat × Nat)) : OnlyFaults (Word.dot l) := by
  apply foldlM
  intro acc q
  exact bind (wordMul _ _) fun n => wordAdd acc n

theorem pointCount (s : Shape) : OnlyFaults s.pointCount := foldlM wordMul 1

theorem position (strides : List Nat) (p : Index) : OnlyFaults (position strides p) :=
  ite (wordDot _) (error rfl)

theorem checked (step : Arithmetic) (n : Int) : OnlyFaults (Coord.checked step n) := by
  rw [Coord.checked]
  split
  · exact ok _
  · exact error rfl

theorem zipWith (f : Coord → Coord → Coord) (a b : Point) : OnlyFaults (Point.zipWith f a b) :=
  ite (ok _) (error rfl)

theorem pointSub (a b : Point) : OnlyFaults (a.sub b) := by
  apply ite
  · exact map _ (mapM fun q => checked .sub _)
  · exact error rfl

theorem points (b : Box) : OnlyFaults b.points := by
  have hruns : OnlyFaults b.runs := by
    apply ite
    · exact ok _
    · exact bind (zipWith _ _ _) fun upper => ok _
  apply bind hruns
  intro runs
  exact ite (ok _) (ok _)

/-! ## Walks -/

theorem step (axis : VisitAxis) (coord pos : Nat) : OnlyFaults (axis.step coord pos) := by
  apply bind (wordAdd _ _)
  intro next
  apply bind (wordAdd _ _)
  intro way
  apply bind (wordAdd _ _)
  intro stop
  apply ite
  · exact ok _
  · apply bind (wordMul _ _)
    intro back
    exact bind (wordSub _ _) fun start => ok _

theorem advance (axes : List RowAxis) (posA posB : Nat) :
    OnlyFaults (RowAxis.advance axes posA posB) := by
  induction axes generalizing posA posB with
  | nil => exact ok _
  | cons axis rest ih =>
      rw [RowAxis.advance]
      apply bind (ih posA posB)
      intro inner
      apply ite
      · apply bind (wordAdd _ _)
        intro row
        apply bind (wordAdd _ _)
        intro a
        apply bind (wordAdd _ _)
        intro b
        apply ite
        · exact ok _
        · apply bind (wordMul _ _)
          intro wayA
          apply bind (wordSub _ _)
          intro startA
          apply bind (wordMul _ _)
          intro wayB
          exact bind (wordSub _ _) fun startB => ok _
      · exact ok _

theorem next (w : RowPairs) : OnlyFaults w.next := by
  rw [RowPairs.next]
  split
  · exact ok _
  · exact bind (advance _ _ _) fun step => ok _

theorem ofOrigins (box : Shape) (stridesA : List Nat) (originA : Index) (stridesB : List Nat)
    (originB : Index) : OnlyFaults (RowPairs.ofOrigins box stridesA originA stridesB originB) := by
  apply ite
  · apply ite
    · exact ok _
    · apply bind (position _ _)
      intro startA
      exact bind (position _ _) fun startB => ok _
  · exact error rfl

/-! ## Single elements -/

section Access

variable {α : Type} (g : Grid α)

theorem getAt (i : Nat) : OnlyFaults (g.getAt i) := by
  rw [Grid.getAt]
  split
  · exact ok _
  · exact error rfl

theorem positionOf (p : Index) : OnlyFaults (g.positionOf p) := ite (position _ _) (error rfl)

theorem get (p : Index) : OnlyFaults (g.get p) := bind (positionOf g p) fun i => getAt g i

theorem lookup (p : Index) : OnlyFaults (g.lookup p) := ite (map _ (get g p)) (ok _)

theorem checkRange (start length : Nat) : OnlyFaults (span start length >>= g.checkRange) := by
  apply bind (bind (wordAdd _ _) fun stop => ok _)
  intro range
  exact ite (ok _) (error rfl)

/-- An axis of the source that is too long is a fault here. -/
theorem sourceSides (source : Grid α) : OnlyFaults source.sourceSides := by
  rw [Grid.sourceSides]
  by_cases hlong : ∃ n ∈ source.shape.lengths, 2 ^ 63 ≤ n
  · obtain ⟨axis, length, herror⟩ := Shape.exists_toPoint_eq_error hlong
    rw [herror]
    exact error rfl
  · simp only [not_exists, not_and, Nat.not_le] at hlong
    rw [Shape.toPoint_eq_ok hlong]
    exact ok _

end Access

end OnlyFaults

/-! ## Loops that change a state -/

section Loops

variable {σ : Type} {Q : σ → Prop}

/-- A fault has come, and what it has left satisfies `Q`. -/
structure AfterFault (Q : σ → Prop) (e : Failure) (left : σ) : Prop where
  isReported_eq : e.isReported = false
  kept : Q left

namespace VisitAxis

theorem endsIn_sweep {axis : VisitAxis} {inner : Nat → Nat → σ → Except (Failure × σ) (Nat × σ)}
    (hinner : ∀ coord pos state, Q state →
      EndsIn (fun ran => Q ran.2) (AfterFault Q) (inner coord pos state))
    (remaining coord pos : Nat) {state : σ} (hstate : Q state) :
    EndsIn (fun ran => Q ran.2) (AfterFault Q)
      (sweep axis inner remaining coord pos state) := by
  induction remaining generalizing coord pos state with
  | zero => exact hstate
  | succ remaining ih =>
      refine EndsIn.bind (hinner coord pos state hstate) ?_
      rintro ⟨there, next⟩ hnext
      refine EndsIn.bind (EndsIn.leaving fun e he => ⟨OnlyFaults.step _ _ _ e he, hnext⟩) ?_
      rintro ⟨next?, way⟩ -
      cases next? with
      | none => exact hnext
      | some coord => exact ih coord way hnext

theorem endsIn_walk {visit : σ → Index → Nat → σ}
    (hvisit : ∀ state p pos, Q state → Q (visit state p pos)) (axes : List VisitAxis) (outer : Index)
    (pos : Nat) {state : σ} (hstate : Q state) :
    EndsIn (fun ran => Q ran.2) (AfterFault Q)
      (walk visit axes outer pos state) := by
  induction axes generalizing outer pos state with
  | nil => exact hvisit state outer pos hstate
  | cons axis rest ih =>
      exact endsIn_sweep (fun coord pos state => ih (outer ++ [coord]) pos) _ _ _ hstate

end VisitAxis

/-- What every call of a visit keeps, the whole visit keeps, also if it is stopped. It is only ever stopped
by a fault. -/
theorem Visit.endsIn_fold {visit : σ → Index → Nat → σ}
    (hvisit : ∀ state p pos, Q state → Q (visit state p pos)) (v : Visit) {state : σ}
    (hstate : Q state) :
    EndsIn Q (AfterFault Q) (v.fold visit state) := by
  apply EndsIn.ite
  · intro _
    exact hstate
  · intro _
    refine EndsIn.bind (EndsIn.leaving fun e he => ⟨OnlyFaults.position _ _ e he, hstate⟩) ?_
    intro start _
    exact EndsIn.bind (VisitAxis.endsIn_walk hvisit _ _ _ hstate) fun ran hran => hran

theorem Visit.onlyFaults_fold (v : Visit) (visit : σ → Index → Nat → σ) (state : σ) :
    OnlyFaults (forget (v.fold visit state)) := by
  intro e h
  obtain ⟨left, h⟩ := forget_eq_error_iff.1 h
  have hends : EndsIn (fun _ => True) (AfterFault fun _ => True) (v.fold visit state) :=
    v.endsIn_fold (fun _ _ _ _ => trivial) trivial
  exact (hends.of_eq_error h).isReported_eq

namespace RowPairs

variable {P : Failure → σ → Prop} {change : σ → Nat × Nat → Except (Failure × σ) σ}

theorem endsIn_foldRows (hchange : ∀ state row, Q state → EndsIn Q P (change state row))
    (hfault : ∀ e state, e.isReported = false → Q state → P e state) (calls : Nat) (w : RowPairs)
    {state : σ} (hstate : Q state) : EndsIn Q P (foldRows change calls w state) := by
  induction calls generalizing w state with
  | zero => exact hstate
  | succ calls ih =>
      have hnext : ∀ e, w.next = .error e → P e state :=
        fun e he => hfault e state (OnlyFaults.next w e he) hstate
      refine EndsIn.bind (EndsIn.leaving hnext) ?_
      rintro ⟨row?, rest⟩ -
      cases row? with
      | none => exact hstate
      | some row => exact EndsIn.bind (hchange state row hstate) fun next hkept => ih rest hkept

/-- What the change by every row keeps, the loop over the rows keeps, also if it is stopped. -/
theorem endsIn_fold (hchange : ∀ state row, Q state → EndsIn Q P (change state row))
    (hfault : ∀ e state, e.isReported = false → Q state → P e state) (w : RowPairs) {state : σ}
    (hstate : Q state) : EndsIn Q P (w.fold change state) :=
  endsIn_foldRows hchange hfault w.count w hstate

end RowPairs

end Loops

end LatticeGrid
