import LatticeGrid.Proofs.Layout.Visit

/-!
# The loop of a visit

`Visit.fold` runs over the axes of its box one inside the other. The same visit can be made by one loop,
which keeps a multi-index and a flat position: after every call it steps on the innermost axis, and from
an axis that is past its end it goes back to the start of the axis and steps on the next outer one. The
loop is over when the outermost axis has come round.

Nothing in the loop counts down. `VisitAxis.Runs` therefore relates a loop to the answer that it comes to,
and a loop that never ends to no answer at all. The loop of a visit comes to exactly one answer, that of
`Visit.fold`, whether the box lies in the array or not and also when a step fails (`Visit.loops_iff`).
Below one coordinate of an outer axis the loop is a loop of the inner axes (`VisitAxis.Runs.under`), which
carries the induction over the axes.

Main statements: `Visit.loops_iff` and `Visit.calls_ofOrigin_eq_positions`.
-/

set_option autoImplicit false

namespace LatticeGrid

namespace VisitAxis

/-! ## One step of the loop -/

/-- Where the loop over a box stands after a step. -/
structure Cursor where
  /-- The multi-index of the next call. -/
  index : Index
  /-- The flat position of the next call. -/
  pos : Nat
  /-- Whether the outermost axis has come round, so that there is no next call. -/
  wrapped : Bool
deriving DecidableEq, Repr

/-- A step on an axis when the axes inside it have come round. -/
def carry (axis : VisitAxis) (coord : Nat) (inner : Index) (pos : Nat) : Except Failure Cursor := do
  match ← axis.step coord pos with
  | (some coord, pos) => .ok ⟨coord :: inner, pos, false⟩
  | (none, pos) => .ok ⟨axis.start :: inner, pos, true⟩

/-- The part of an axis in a step of the loop, after the step of the axes inside it. -/
def stepOver (axis : VisitAxis) (coord : Nat) (inner : Cursor) : Except Failure Cursor :=
  if inner.wrapped then
    axis.carry coord inner.index inner.pos
  else
    .ok ⟨coord :: inner.index, inner.pos, false⟩

/-- Steps on the innermost axis and carries into the outer ones. -/
def advance : List VisitAxis → Index → (pos : Nat) → Except Failure Cursor
  | axis :: rest, coord :: inner, pos => advance rest inner pos >>= axis.stepOver coord
  | _, p, pos => .ok ⟨p, pos, true⟩

/-- The answer that a loop comes to from where it stands: the first failure of a step and the state after the
last call before it, or the multi-index and the position at which it ends and the state after its last call. -/
inductive Runs {σ : Type} (visit : σ → Index → Nat → σ) (axes : List VisitAxis) :
    Except Failure Cursor → σ → Except (Failure × σ) (Index × Nat × σ) → Prop where
  /-- The last step has failed. -/
  | fault {e state} : Runs visit axes (.error e) state (.error (e, state))
  /-- The outermost axis has come round. -/
  | done {p pos state} : Runs visit axes (.ok ⟨p, pos, true⟩) state (.ok (p, pos, state))
  /-- One more call, and the step after it. -/
  | turn {p pos state answer} :
      Runs visit axes (advance axes p pos) (visit state p pos) answer →
        Runs visit axes (.ok ⟨p, pos, false⟩) state answer

variable {σ : Type} {visit : σ → Index → Nat → σ} {axis : VisitAxis} {axes rest : List VisitAxis}
  {coord pos : Nat} {p : Index}

/-- A step on an axis that has a next coordinate goes to it. -/
theorem of_step_eq_ok {next there : Nat} (h : axis.step coord pos = .ok (some next, there)) :
    next = coord + 1 ∧ coord + 1 < axis.start + axis.length := by
  simp only [step, bind_eq_ok_iff, Word.add_eq_ok_iff] at h
  obtain ⟨-, ⟨-, rfl⟩, way, -, stop, ⟨-, rfl⟩, h⟩ := h
  split at h
  · next hlt =>
      cases h
      exact ⟨rfl, hlt⟩
  · obtain ⟨back, -, h⟩ := bind_eq_ok_iff.1 h
    obtain ⟨there, -, h⟩ := bind_eq_ok_iff.1 h
    cases h

/-! ## The loop over the axes -/

/-- A loop comes to one answer at most. -/
theorem Runs.unique {here : Except Failure Cursor} {state : σ}
    {answer answer' : Except (Failure × σ) (Index × Nat × σ)} (h : Runs visit axes here state answer)
    (h' : Runs visit axes here state answer') : answer = answer' := by
  induction h with
  | fault => cases h'; rfl
  | done => cases h'; rfl
  | turn _ ih =>
      cases h' with
      | turn hrest => exact ih hrest

/-- While the axes inside an axis have not come round, its loop is theirs; from then on it goes on with
the step on the axis. -/
theorem Runs.under {here : Except Failure Cursor} {state : σ}
    {inner answer : Except (Failure × σ) (Index × Nat × σ)}
    (h : Runs (fun state q => visit state (coord :: q)) rest here state inner)
    (herror : ∀ e, inner = .error e → answer = .error e)
    (hafter : ∀ p pos last, inner = .ok (p, pos, last) →
      Runs visit (axis :: rest) (axis.carry coord p pos) last answer) :
    Runs visit (axis :: rest) (here >>= axis.stepOver coord) state answer := by
  induction h with
  | @fault e state =>
      rw [herror (e, state) rfl]
      exact .fault
  | @done p pos state => exact hafter p pos state rfl
  | turn _ ih => exact .turn (ih herror hafter)

section Sweep

variable {inner : Nat → Nat → σ → Except (Failure × σ) (Nat × σ)}
  (hinner : ∀ coord pos state, Runs (fun state q => visit state (coord :: q)) rest
    (.ok ⟨rest.map start, pos, false⟩) state ((inner coord pos state).map (Prod.mk (rest.map start))))

include hinner

/-- One coordinate of a sweep: the loop runs the inner axes and makes its step, and what is left of the
sweep is left of the loop. -/
theorem runs_sweep_succ {remaining : Nat} (hnext : coord + 1 < axis.start + axis.length → ∀ pos state,
      Runs visit (axis :: rest) (.ok ⟨(coord + 1) :: rest.map start, pos, false⟩) state
        ((sweep axis inner remaining (coord + 1) pos state).map (Prod.mk ((axis :: rest).map start))))
    (state : σ) :
    Runs visit (axis :: rest) (.ok ⟨coord :: rest.map start, pos, false⟩) state
      ((sweep axis inner (remaining + 1) coord pos state).map (Prod.mk ((axis :: rest).map start))) := by
  have hran := hinner coord pos state
  rw [sweep]
  cases hanswer : inner coord pos state with
  | error e =>
      rw [hanswer] at hran
      exact hran.under (fun e' he => he) fun p pos last hp => by cases hp
  | ok r =>
      -- the inner axes have come round, and the loop goes on with the step on this axis
      rcases r with ⟨there, last⟩
      rw [hanswer] at hran
      refine hran.under (fun e he => by cases he) ?_
      rintro p pos' last' hp
      cases hp
      simp only [bind, Except.bind, carry]
      cases hstep : axis.step coord there with
      | error e => exact .fault
      | ok after =>
          obtain ⟨next, way⟩ := after
          cases next with
          | none => exact .done
          | some next =>
              obtain ⟨rfl, hmore⟩ := of_step_eq_ok hstep
              exact hnext hmore way last

/-- The loop over one more axis makes the sweep of that axis. -/
theorem runs_sweep {remaining : Nat} (hcoord : coord + (remaining + 1) = axis.start + axis.length)
    (state : σ) :
    Runs visit (axis :: rest) (.ok ⟨coord :: rest.map start, pos, false⟩) state
      ((sweep axis inner (remaining + 1) coord pos state).map (Prod.mk ((axis :: rest).map start))) := by
  induction remaining generalizing coord pos state with
  | zero =>
      -- at the last coordinate the axis comes round
      apply runs_sweep_succ hinner
      intro hmore
      omega
  | succ remaining ih =>
      apply runs_sweep_succ hinner
      intro _ pos state
      exact ih (by omega) state

end Sweep

/-- The loop over some axes makes their walk and ends at their first coordinates. -/
theorem runs_walk (visit : σ → Index → Nat → σ) (hpos : ∀ axis ∈ axes, 0 < axis.length) (outer : Index)
    (pos : Nat) (state : σ) :
    Runs (fun state q => visit state (outer ++ q)) axes (.ok ⟨axes.map start, pos, false⟩) state
      ((walk visit axes outer pos state).map (Prod.mk (axes.map start))) := by
  induction axes generalizing outer pos state with
  | nil =>
      -- a box without axes has one multi-index, and the loop ends right after its call
      refine .turn ?_
      show Runs _ [] (.ok ⟨[], pos, true⟩) (visit state (outer ++ []) pos)
        (.ok ([], pos, visit state outer pos))
      rw [List.append_nil]
      exact .done
  | cons axis rest ih =>
      simp only [List.mem_cons, forall_eq_or_imp] at hpos
      obtain ⟨last, hlast⟩ := Nat.exists_eq_add_one.2 hpos.1
      rw [walk, hlast]
      apply runs_sweep _ (congrArg (axis.start + ·) hlast.symm)
      intro coord pos state
      simpa only [List.append_assoc, List.singleton_append] using ih hpos.2 (outer ++ [coord]) pos state

end VisitAxis

namespace Visit

variable {σ : Type} {visit : σ → Index → Nat → σ}

/-- The answer that the loop of a visit comes to. A box with an empty axis is not visited, and the position
of the origin is computed before the first call. -/
def Loops (v : Visit) (visit : σ → Index → Nat → σ) (state : σ) (answer : Except (Failure × σ) σ) : Prop :=
  if v.lengths.any (· == 0) then
    answer = .ok state
  else
    match position v.strides v.origin with
    | .error e => answer = .error (e, state)
    | .ok start => ∃ last, VisitAxis.Runs visit v.axes (.ok ⟨v.origin, start, false⟩) state last ∧
        answer = last.map fun ran => ran.2.2

/-- The coordinates at which the axes of a visit start are its origin. -/
theorem map_start_axes {v : Visit} (hv : v.Aligned) : v.axes.map VisitAxis.start = v.origin := by
  have hlen : v.origin.length = (v.lengths.zip v.strides).length := by
    rw [List.length_zip, hv.length_strides, Nat.min_self, hv.length_origin]
  rw [axes, List.map_map]
  exact List.map_fst_zip (Nat.le_of_eq hlen)

/-- The loop of a visit ends, and it does what the visit does: the same calls in the same order, and the
same failure after the same calls if there is one. -/
theorem loops_iff {v : Visit} (hv : v.Aligned) {state : σ} {answer : Except (Failure × σ) σ} :
    v.Loops visit state answer ↔ answer = v.fold visit state := by
  rw [Loops, fold]
  cases hempty : v.lengths.any (· == 0) with
  | true => rfl
  | false =>
      simp only [Bool.false_eq_true, if_false]
      cases position v.strides v.origin with
      | error e => rfl
      | ok start =>
          have hpos := length_pos_of_mem_axes (Shape.isEmpty_eq_false_iff (s := ⟨v.lengths⟩).1 hempty)
          have hruns := VisitAxis.runs_walk visit hpos [] start state
          simp only [map_start_axes hv, List.nil_append] at hruns
          -- where the loop ends is dropped on both sides
          have hlast : ((VisitAxis.walk visit v.axes [] start state).map (Prod.mk v.origin)).map
              (fun ran => ran.2.2) =
                (VisitAxis.walk visit v.axes [] start state >>= fun ran => .ok ran.2) := by
            cases VisitAxis.walk visit v.axes [] start state <;> rfl
          constructor
          · rintro ⟨last, hlooped, rfl⟩
            rw [hlooped.unique hruns]
            exact hlast
          · rintro rfl
            exact ⟨_, hruns, hlast.symm⟩

/-! ## The calls of a visit -/

/-- A visit that fits calls its function at words only. -/
theorem position_lt_of_fits {strides origin lengths : List Nat} (hlen : origin.length = lengths.length)
    (hstrides : strides.length = lengths.length) {start : Nat} (hstart : start < Word.bound)
    (hfits : VisitAxis.Fits (axes ⟨strides, origin, lengths⟩) start) {q : Index}
    (hq : q ∈ (⟨lengths⟩ : Shape)) : start + exactPosition strides q < Word.bound := by
  induction lengths generalizing strides origin start q with
  | nil =>
      obtain rfl := List.eq_nil_of_length_eq_zero hstrides
      exact hstart
  | cons n lengths ih =>
      obtain ⟨o, origin, rfl⟩ := List.exists_cons_of_length_eq_add_one hlen
      obtain ⟨stride, strides, rfl⟩ := List.exists_cons_of_length_eq_add_one hstrides
      cases q with
      | nil => exact absurd hq (Shape.not_nil_mem_cons n lengths)
      | cons c q =>
          rcases Shape.cons_mem_cons.1 hq with ⟨hc, hq⟩
          rcases hfits with ⟨-, hway, hrest⟩
          dsimp only at hway hrest
          -- the coordinate comes no later than the last one, at which the inner axes fit
          have hle : c * stride ≤ (n - 1) * stride := Nat.mul_le_mul_right _ (Nat.le_sub_one_of_lt hc)
          have hend : (n - 1) * stride ≤ n * stride := Nat.mul_le_mul_right _ (Nat.sub_le n 1)
          have hinner := VisitAxis.Fits.mono hrest (Nat.add_le_add_left hle start)
          rw [exactPosition_cons, ← Nat.add_assoc]
          exact ih (Nat.succ.inj hlen) (Nat.succ.inj hstrides) (by omega) hinner hq

/-- A visit that succeeds for one function succeeds for every function. It calls it at the multi-indices of
its box, moved to the origin, each with the position that its strides give it. -/
theorem exists_calls_of_fold_eq_ok {v : Visit} (hv : v.Aligned) {state last : σ}
    (h : v.fold visit state = .ok last) :
    ∃ calls, v.Calls calls ∧
      calls.map Prod.fst = (Shape.indicesOf v.lengths).map (addIndex v.origin) ∧
      ∀ call ∈ calls, position v.strides call.1 = .ok call.2 := by
  cases hempty : (⟨v.lengths⟩ : Shape).isEmpty with
  | true =>
      have hnone : Shape.indicesOf v.lengths = [] := Shape.indices_of_isEmpty hempty
      refine ⟨[], fun σ visit state => fold_of_isEmpty hempty state, ?_, List.forall_mem_nil _⟩
      rw [hnone]
      rfl
  | false =>
      have hpos := Shape.isEmpty_eq_false_iff.1 hempty
      obtain ⟨start, hstart, hfits, -⟩ := (fold_eq_ok_iff hpos hv).1 h
      refine ⟨(Shape.indicesOf v.lengths).map fun q =>
        (addIndex v.origin q, start + exactPosition v.strides q), ?_, ?_, ?_⟩
      · intro σ visit state
        refine (fold_eq_ok_iff hpos hv).2 ⟨start, hstart, hfits, ?_⟩
        rw [List.foldl_map]
      · rw [List.map_map]
        rfl
      · obtain ⟨-, hfit, rfl⟩ := position_eq_ok_iff.1 hstart
        rw [List.forall_mem_map]
        intro q hq
        have hq : q ∈ (⟨v.lengths⟩ : Shape) := Shape.mem_indices.1 hq
        have hlen : v.origin.length = q.length := hv.length_origin.trans hq.1.symm
        have hword := position_lt_of_fits hv.length_origin hv.length_strides hfit hfits hq
        -- the position that is carried along is the one that is computed afresh
        have hsum : exactPosition v.strides (addIndex v.origin q) =
            exactPosition v.strides v.origin + exactPosition v.strides q := exactPosition_zipWith_add hlen
        refine position_eq_ok_iff.2 ⟨?_, ?_, hsum.symm⟩
        · rw [addIndex, List.length_zipWith, ← hlen, Nat.min_self, hv.length_origin, hv.length_strides]
        · rwa [hsum]

/-- A box of the rank of an array can be visited from any origin of that rank, in or out of the bounds of
the array: the loop of the visit ends, with the answer of the visit. If it ends without a failure, it has
called its function at every multi-index of the box once, in lexicographic order, moved to the origin and
with the flat position that the strides of the array give it. -/
theorem calls_ofOrigin_eq_positions (array box : Shape) (origin : Index)
    (horigin : origin.length = array.rank) (hbox : box.rank = array.rank) :
    ∃ v, ofOrigin array origin box = .ok v ∧
      (∀ (σ : Type) (visit : σ → Index → Nat → σ) (state : σ) (answer : Except (Failure × σ) σ),
        v.Loops visit state answer ↔ answer = v.fold visit state) ∧
      (∀ (σ : Type) (visit : σ → Index → Nat → σ) (state last : σ), v.Loops visit state (.ok last) →
        ∃ calls, v.Calls calls ∧ calls.map Prod.fst = box.indices.map (addIndex origin) ∧
          (∀ call ∈ calls, position array.strides call.1 = .ok call.2) ∧ calls.length = box.size) ∧
      (box.lengths = [] → v.Calls [([], 0)]) ∧ (0 ∈ box.lengths → v.Calls []) ∧
      (∀ q, q ∈ box.indices ↔ q ∈ box) ∧ box.indices.Pairwise (· < ·) := by
  have hvisit : ofOrigin array origin box = .ok ⟨array.strides, origin, box.lengths⟩ :=
    if_pos ⟨horigin.symm, hbox.symm⟩
  have haligned := (aligned_of_ofOrigin_eq_ok hvisit).1
  refine ⟨_, hvisit, ?_, ?_, ?_, ?_, fun q => Shape.mem_indices, box.pairwise_lt_indices⟩
  · intro σ visit state answer
    exact loops_iff haligned
  · intro σ visit state last hloops
    obtain ⟨calls, hcalls, hindices, hpositions⟩ :=
      exists_calls_of_fold_eq_ok haligned ((loops_iff haligned).1 hloops).symm
    refine ⟨calls, hcalls, hindices, hpositions, ?_⟩
    have hlength := congrArg List.length hindices
    rw [List.length_map, List.length_map] at hlength
    exact hlength.trans (Shape.length_indices box)
  · intro hscalar
    rw [Shape.rank, hscalar] at hbox
    obtain rfl : origin = [] := List.eq_nil_of_length_eq_zero (horigin.trans hbox.symm)
    have hstrides : array.strides = [] :=
      List.eq_nil_of_length_eq_zero (array.length_strides.trans hbox.symm)
    rw [hscalar, hstrides]
    exact fun σ visit state => rfl
  · intro hzero σ visit state
    exact fold_of_isEmpty (Shape.isEmpty_iff_zero_mem.2 hzero) state

/-- A box across the far corner of an array, a box at the corner of an array whose outer stride is held at
the greatest word, and a box behind it, after whose only call the position leaves its word. -/
theorem calls_ofOrigin_eq_positions_outside :
    (∃ v calls, ofOrigin ⟨[3, 4]⟩ [2, 3] ⟨[2, 2]⟩ = .ok v ∧ v.Calls calls ∧
      calls.map Prod.fst = [[2, 3], [2, 4], [3, 3], [3, 4]] ∧
      ∀ call ∈ calls, position [4, 1] call.1 = .ok call.2) ∧
    (∃ v calls, ofOrigin ⟨[0, 18446744073709551615, 2]⟩ [0, 0, 0] ⟨[1, 1, 2]⟩ = .ok v ∧ v.Calls calls ∧
      calls.map Prod.fst = [[0, 0, 0], [0, 0, 1]] ∧
      ∀ call ∈ calls, position [18446744073709551615, 2, 1] call.1 = .ok call.2) ∧
    ∃ v, ofOrigin ⟨[0, 18446744073709551615, 2]⟩ [0, 5, 0] ⟨[1, 1, 1]⟩ = .ok v ∧
      v.Loops (fun count _ _ => count + 1) 0 (.error (.overflow .add, 1)) := by
  refine ⟨?_, ?_, ?_⟩
  · obtain ⟨v, hv, hloops, hcalls, -⟩ := calls_ofOrigin_eq_positions ⟨[3, 4]⟩ ⟨[2, 2]⟩ [2, 3] rfl rfl
    cases hv
    obtain ⟨calls, hcalls, hindices, hpositions, -⟩ :=
      hcalls Unit (fun _ _ _ => ()) () () ((hloops ..).2 rfl)
    exact ⟨_, calls, rfl, hcalls, hindices, hpositions⟩
  · obtain ⟨v, hv, hloops, hcalls, -⟩ :=
      calls_ofOrigin_eq_positions ⟨[0, 18446744073709551615, 2]⟩ ⟨[1, 1, 2]⟩ [0, 0, 0] rfl rfl
    cases hv
    obtain ⟨calls, hcalls, hindices, hpositions, -⟩ :=
      hcalls Unit (fun _ _ _ => ()) () () ((hloops ..).2 rfl)
    exact ⟨_, calls, rfl, hcalls, hindices, hpositions⟩
  · obtain ⟨v, hv, hloops, -⟩ :=
      calls_ofOrigin_eq_positions ⟨[0, 18446744073709551615, 2]⟩ ⟨[1, 1, 1]⟩ [0, 5, 0] rfl rfl
    cases hv
    exact ⟨_, rfl, (hloops ..).2 rfl⟩

end Visit

end LatticeGrid
