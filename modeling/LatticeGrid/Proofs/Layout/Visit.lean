import LatticeGrid.Layout.Visit
import LatticeGrid.Proofs.Layout.Boxes
import Mathlib.Data.List.Basic

/-!
# A visit calls its function once at every multi-index

The steps of a visit are checked, and the position is carried along instead of being computed afresh.
`VisitAxis.cells` lists the calls that a walk over some axes makes, without any word, and
`VisitAxis.Fits` says that no step of the walk leaves its word. A walk succeeds exactly when it fits,
comes back to the position at which it started, and has then made just these calls in this order
(`VisitAxis.walk_eq_ok_iff`). All of this rests on one description of a step (`VisitAxis.step_eq`). One axis
is settled first, over whatever its inner axes do (`VisitAxis.sweep_eq_ok` and `VisitAxis.of_sweep_eq_ok`);
the walk follows by induction over the axes.

A visit of a box that lies in an array always fits, and the positions of its calls are those of the
multi-indices of the box in the array. The visit of a whole array needs no more than that its size is a word,
and numbers its calls.

Main statements: `Visit.fold_eq_ok_iff`, `Visit.fold_of_holdsBox` and `Visit.calls_whole`.
-/

set_option autoImplicit false

namespace LatticeGrid

namespace VisitAxis

variable {σ : Type} {axis : VisitAxis} {pos : Nat}

/-! ## The calls of a walk -/

/-- The multi-indices that a walk over some axes visits, and their positions, in the order of the
visit. -/
def cells : List VisitAxis → (outer : Index) → (pos : Nat) → List (Index × Nat)
  | [], outer, pos => [(outer, pos)]
  | axis :: rest, outer, pos =>
      (List.range axis.length).flatMap fun c =>
        cells rest (outer ++ [axis.start + c]) (pos + c * axis.stride)

/-- No step of a walk from a position leaves its word: on each axis the coordinate past the end fits,
and so does the position there, reached with the outer axes at their last coordinates. -/
def Fits : List VisitAxis → (pos : Nat) → Prop
  | [], _ => True
  | axis :: rest, pos =>
      axis.start + axis.length < Word.bound ∧ pos + axis.length * axis.stride < Word.bound ∧
        Fits rest (pos + (axis.length - 1) * axis.stride)

/-- A walk that fits also fits from any position before. -/
theorem Fits.mono {axes : List VisitAxis} {pos' : Nat} (h : Fits axes pos) (hle : pos' ≤ pos) :
    Fits axes pos' := by
  induction axes generalizing pos pos' with
  | nil => trivial
  | cons axis rest ih =>
      rcases h with ⟨hcoord, hway, hrest⟩
      refine ⟨hcoord, Nat.lt_of_le_of_lt (Nat.add_le_add_right hle _) hway, ?_⟩
      exact ih hrest (Nat.add_le_add_right hle _)

/-! ## One axis -/

/-- The step on an axis from its coordinate number `done`. It goes to the next coordinate, or past the end
back to where the axis began; if it fails, it is by an addition, since past the last coordinate the way back
is a part of the position. -/
theorem step_eq (pos : Nat) {done : Nat} (hdone : done < axis.length) :
    axis.step (axis.start + done) (pos + done * axis.stride) =
      if axis.start + axis.length < Word.bound ∧ pos + (done + 1) * axis.stride < Word.bound then
        .ok (if done + 1 < axis.length then
          (some (axis.start + (done + 1)), pos + (done + 1) * axis.stride)
        else
          (none, pos))
      else
        .error (.overflow .add) := by
  have hsucc : (done + 1) * axis.stride = done * axis.stride + axis.stride := Nat.succ_mul ..
  split
  · next hfits =>
      obtain ⟨hend, hway⟩ := hfits
      have hcoord : Word.add (axis.start + done) 1 = .ok (axis.start + (done + 1)) :=
        Word.add_eq_ok_iff.2 ⟨by omega, rfl⟩
      have hpos : Word.add (pos + done * axis.stride) axis.stride = .ok (pos + (done + 1) * axis.stride) :=
        Word.add_eq_ok_iff.2 ⟨by omega, by omega⟩
      have hstop : Word.add axis.start axis.length = .ok (axis.start + axis.length) :=
        Word.add_eq_ok_iff.2 ⟨hend, rfl⟩
      simp only [step, hcoord, hpos, hstop, bind, Except.bind, Nat.add_lt_add_iff_left]
      split
      · rfl
      · next hlast =>
          -- the coordinate was the last one, so the whole way is there to be taken back
          have hlength : done + 1 = axis.length := by omega
          rw [hlength] at hway ⊢
          have hcomm : axis.stride * axis.length = axis.length * axis.stride := Nat.mul_comm ..
          have hmul : Word.mul axis.stride axis.length = .ok (axis.stride * axis.length) :=
            Word.mul_eq_ok_iff.2 ⟨by omega, rfl⟩
          have hsub : Word.sub (pos + axis.length * axis.stride) (axis.stride * axis.length) = .ok pos :=
            Word.sub_eq_ok_iff.2 ⟨by omega, by omega⟩
          simp only [hmul, hsub]
          rfl
  · next hleaves =>
      cases hstep : axis.step (axis.start + done) (pos + done * axis.stride) with
      | ok r =>
          simp only [step, bind_eq_ok_iff, Word.add_eq_ok_iff] at hstep
          obtain ⟨-, -, -, ⟨hway, -⟩, -, ⟨hend, -⟩, -⟩ := hstep
          exact absurd ⟨hend, by omega⟩ hleaves
      | error e =>
          -- were no addition the one that fails, then all of them would stay in their words
          rcases Word.add_bind_eq_error hstep with rfl | ⟨-, hstep⟩
          · rfl
          rcases Word.add_bind_eq_error hstep with rfl | ⟨hway, hstep⟩
          · rfl
          rcases Word.add_bind_eq_error hstep with rfl | ⟨hend, -⟩
          · rfl
          exact absurd ⟨hend, by omega⟩ hleaves

section Sweep

variable {inner : Nat → Nat → σ → Except (Failure × σ) (Nat × σ)} {remaining : Nat}

/-- A sweep of an axis that fits succeeds if the inner axes do, and comes back to the position at which
the axis began. -/
theorem sweep_eq_ok {call : Nat → σ → σ} (hcoord : axis.start + axis.length < Word.bound)
    (hway : pos + axis.length * axis.stride < Word.bound)
    (hinner : ∀ c < axis.length, ∀ state, inner (axis.start + c) (pos + c * axis.stride) state =
      .ok (pos + c * axis.stride, call c state))
    {done : Nat} (hdone : done + (remaining + 1) = axis.length) (state : σ) :
    sweep axis inner (remaining + 1) (axis.start + done) (pos + done * axis.stride) state =
      .ok (pos, (List.range' done (remaining + 1)).foldl (fun state c => call c state) state) := by
  induction remaining generalizing done state with
  | zero =>
      -- the last coordinate: the whole axis is taken back
      have hlast : done + 1 = axis.length := hdone
      have hstep := step_eq pos (show done < axis.length by omega)
      rw [hlast, if_pos ⟨hcoord, hway⟩, if_neg (Nat.lt_irrefl _)] at hstep
      simp only [sweep, hinner done (by omega), hstep, leaving_ok, bind, Except.bind]
      rfl
  | succ remaining ih =>
      have hmore : done + 1 < axis.length := by omega
      have hle : (done + 1) * axis.stride ≤ axis.length * axis.stride :=
        Nat.mul_le_mul_right _ (Nat.le_of_lt hmore)
      have hstep := step_eq pos (show done < axis.length by omega)
      rw [if_pos ⟨hcoord, by omega⟩, if_pos hmore] at hstep
      have hdone' : done + 1 + (remaining + 1) = axis.length := by omega
      rw [sweep]
      simp only [hinner done (by omega), hstep, leaving_ok, bind, Except.bind]
      exact ih hdone' (call done state)

/-- A sweep that succeeds fits, and the inner axes succeed at each of its coordinates. -/
theorem of_sweep_eq_ok {Ran : Nat → Prop}
    (hinner : ∀ c < axis.length, ∀ state r, inner (axis.start + c) (pos + c * axis.stride) state =
      .ok r → Ran c ∧ r.1 = pos + c * axis.stride)
    {done : Nat} (hdone : done + (remaining + 1) = axis.length) {state : σ} {r : Nat × σ}
    (h : sweep axis inner (remaining + 1) (axis.start + done) (pos + done * axis.stride) state =
      .ok r) :
    axis.start + axis.length < Word.bound ∧ pos + axis.length * axis.stride < Word.bound ∧
      ∀ c, done ≤ c → c < axis.length → Ran c := by
  induction remaining generalizing done state with
  | zero =>
      have hlast : done + 1 = axis.length := hdone
      obtain ⟨⟨there, next⟩, hran, h⟩ := bind_eq_ok_iff.1 h
      obtain ⟨hlastRan, rfl⟩ := hinner done (by omega) state _ hran
      obtain ⟨after, hstep, -⟩ := bind_eq_ok_iff.1 h
      rw [leaving_eq_ok_iff, step_eq _ (by omega), hlast] at hstep
      split at hstep
      · next hfits =>
          refine ⟨hfits.1, hfits.2, ?_⟩
          intro c hge hlt
          obtain rfl : c = done := by omega
          exact hlastRan
      · cases hstep
  | succ remaining ih =>
      obtain ⟨⟨there, next⟩, hran, h⟩ := bind_eq_ok_iff.1 h
      obtain ⟨hfirst, rfl⟩ := hinner done (by omega) state _ hran
      obtain ⟨after, hstep, h⟩ := bind_eq_ok_iff.1 h
      rw [leaving_eq_ok_iff, step_eq _ (by omega)] at hstep
      split at hstep
      · -- the axis goes on, one coordinate further
        rw [if_pos (by omega)] at hstep
        cases hstep
        obtain ⟨hcoord, hway, hlater⟩ := ih (by omega) h
        refine ⟨hcoord, hway, ?_⟩
        intro c hge hlt
        rcases Nat.eq_or_lt_of_le hge with rfl | hgt
        · exact hfirst
        · exact hlater c hgt hlt
      · cases hstep

/-- A whole axis that fits is swept if the inner axes succeed. -/
theorem sweep_axis_eq_ok {call : Nat → σ → σ} (hpos : 0 < axis.length)
    (hcoord : axis.start + axis.length < Word.bound)
    (hway : pos + axis.length * axis.stride < Word.bound)
    (hinner : ∀ c < axis.length, ∀ state, inner (axis.start + c) (pos + c * axis.stride) state =
      .ok (pos + c * axis.stride, call c state)) (state : σ) :
    sweep axis inner axis.length axis.start pos state =
      .ok (pos, (List.range axis.length).foldl (fun state c => call c state) state) := by
  obtain ⟨last, hlast⟩ := Nat.exists_eq_add_one.2 hpos
  have hsweep := sweep_eq_ok hcoord hway hinner (Nat.zero_add (last + 1) ▸ hlast.symm) state
  rwa [Nat.zero_mul, Nat.add_zero, Nat.add_zero, ← hlast, ← List.range_eq_range'] at hsweep

/-- A whole axis that has been swept fits, and the inner axes have succeeded at its coordinates. -/
theorem of_sweep_axis_eq_ok {Ran : Nat → Prop} (hpos : 0 < axis.length)
    (hinner : ∀ c < axis.length, ∀ state r, inner (axis.start + c) (pos + c * axis.stride) state =
      .ok r → Ran c ∧ r.1 = pos + c * axis.stride) {state : σ} {r : Nat × σ}
    (h : sweep axis inner axis.length axis.start pos state = .ok r) :
    axis.start + axis.length < Word.bound ∧ pos + axis.length * axis.stride < Word.bound ∧
      ∀ c < axis.length, Ran c := by
  obtain ⟨last, hlast⟩ := Nat.exists_eq_add_one.2 hpos
  have hsweep : sweep axis inner (last + 1) (axis.start + 0) (pos + 0 * axis.stride) state =
      .ok r := by
    rwa [Nat.zero_mul, Nat.add_zero, Nat.add_zero, ← hlast]
  obtain ⟨hcoord, hway, hran⟩ := of_sweep_eq_ok hinner (by omega) hsweep
  exact ⟨hcoord, hway, fun c hc => hran c (Nat.zero_le c) hc⟩

end Sweep

/-! ## All axes -/

variable {visit : σ → Index → Nat → σ} {axes : List VisitAxis} {outer : Index}

theorem cells_cons (axis : VisitAxis) (rest : List VisitAxis) (outer : Index) (pos : Nat) :
    cells (axis :: rest) outer pos = (List.range axis.length).flatMap fun c =>
      cells rest (outer ++ [axis.start + c]) (pos + c * axis.stride) := rfl

/-- A walk that fits succeeds, makes the calls of its cells and comes back to where it started. -/
theorem walk_eq_ok (hpos : ∀ axis ∈ axes, 0 < axis.length) (hfits : Fits axes pos) (state : σ) :
    walk visit axes outer pos state =
      .ok (pos, (cells axes outer pos).foldl (fun state cell => visit state cell.1 cell.2) state) := by
  induction axes generalizing outer pos state with
  | nil => rfl
  | cons axis rest ih =>
      simp only [List.mem_cons, forall_eq_or_imp] at hpos
      rcases hfits with ⟨hcoord, hway, hrest⟩
      -- at every coordinate of this axis the inner walk starts no later than at the last one
      have hinner : ∀ c < axis.length, ∀ state,
          walk visit rest (outer ++ [axis.start + c]) (pos + c * axis.stride) state =
            .ok (pos + c * axis.stride,
              (cells rest (outer ++ [axis.start + c]) (pos + c * axis.stride)).foldl
                (fun state cell => visit state cell.1 cell.2) state) := by
        intro c hc state
        have hle : c * axis.stride ≤ (axis.length - 1) * axis.stride :=
          Nat.mul_le_mul_right _ (Nat.le_sub_one_of_lt hc)
        exact ih hpos.2 (hrest.mono (Nat.add_le_add_left hle pos)) state
      rw [walk, cells_cons, List.foldl_flatMap]
      exact sweep_axis_eq_ok hpos.1 hcoord hway hinner state

/-- A walk that succeeds fits and has come back to where it started. -/
theorem of_walk_eq_ok (hpos : ∀ axis ∈ axes, 0 < axis.length) {state : σ} {r : Nat × σ}
    (h : walk visit axes outer pos state = .ok r) : Fits axes pos ∧ r.1 = pos := by
  induction axes generalizing outer pos state r with
  | nil =>
      cases h
      exact ⟨trivial, rfl⟩
  | cons axis rest ih =>
      have hinner : ∀ c < axis.length, ∀ state r,
          walk visit rest (outer ++ [axis.start + c]) (pos + c * axis.stride) state = .ok r →
            Fits rest (pos + c * axis.stride) ∧ r.1 = pos + c * axis.stride := by
        intro c _ state r hr
        exact ih (fun a ha => hpos a (List.mem_cons_of_mem axis ha)) hr
      rw [walk] at h
      obtain ⟨hcoord, hway, hran⟩ := of_sweep_axis_eq_ok (hpos axis List.mem_cons_self) hinner h
      have hfits : Fits (axis :: rest) pos :=
        ⟨hcoord, hway, hran _ (Nat.sub_one_lt_of_lt (hpos axis List.mem_cons_self))⟩
      refine ⟨hfits, ?_⟩
      rw [← walk, walk_eq_ok hpos hfits state] at h
      cases h
      rfl

/-- A walk over axes that are not empty succeeds exactly when it fits; it then has made the calls of its
cells, in their order, and has come back to where it started. -/
theorem walk_eq_ok_iff (hpos : ∀ axis ∈ axes, 0 < axis.length) {state : σ} {r : Nat × σ} :
    walk visit axes outer pos state = .ok r ↔ Fits axes pos ∧
      r = (pos, (cells axes outer pos).foldl (fun state cell => visit state cell.1 cell.2) state) := by
  constructor
  · intro h
    obtain ⟨hfits, -⟩ := of_walk_eq_ok hpos h
    rw [walk_eq_ok hpos hfits state] at h
    cases h
    exact ⟨hfits, rfl⟩
  · rintro ⟨hfits, rfl⟩
    exact walk_eq_ok hpos hfits state

end VisitAxis

theorem Shape.indices_of_isEmpty {s : Shape} (h : s.isEmpty = true) : s.indices = [] := by
  rw [← List.length_eq_zero_iff, length_indices]
  exact (isEmpty_iff_size_eq_zero s).1 h

namespace Visit

variable {σ : Type} {visit : σ → Index → Nat → σ}

/-- The origin, the lengths and the strides of a visit have one rank. -/
structure Aligned (v : Visit) : Prop where
  length_origin : v.origin.length = v.lengths.length
  length_strides : v.strides.length = v.lengths.length

/-- A visit is only made of an origin and lengths that have the rank of the array. -/
theorem aligned_of_ofOrigin_eq_ok {array box : Shape} {origin : Index} {v : Visit}
    (h : ofOrigin array origin box = .ok v) :
    v.Aligned ∧ v = ⟨array.strides, origin, box.lengths⟩ := by
  rw [ofOrigin] at h
  split at h
  · next hranks =>
      cases h
      refine ⟨⟨hranks.1.symm.trans hranks.2, ?_⟩, rfl⟩
      rw [Shape.length_strides]
      exact hranks.2
  · cases h

/-! ## The calls of a visit -/

/-- The cells of a visit are the multi-indices of its box, moved to the origin. -/
theorem cells_axes {strides origin lengths : List Nat} (hlen : origin.length = lengths.length)
    (hstrides : strides.length = lengths.length) (outer : Index) (pos : Nat) :
    VisitAxis.cells (axes ⟨strides, origin, lengths⟩) outer pos =
      (Shape.indicesOf lengths).map fun q =>
        (outer ++ addIndex origin q, pos + exactPosition strides q) := by
  induction lengths generalizing origin strides outer pos with
  | nil =>
      obtain rfl := List.eq_nil_of_length_eq_zero hlen
      obtain rfl := List.eq_nil_of_length_eq_zero hstrides
      simp [axes, VisitAxis.cells, Shape.indicesOf]
  | cons n lengths ih =>
      obtain ⟨o, origin, rfl⟩ := List.exists_cons_of_length_eq_add_one hlen
      obtain ⟨stride, strides, rfl⟩ := List.exists_cons_of_length_eq_add_one hstrides
      have haxes : axes ⟨stride :: strides, o :: origin, n :: lengths⟩ =
          ⟨o, n, stride⟩ :: axes ⟨strides, origin, lengths⟩ := rfl
      rw [haxes, VisitAxis.cells_cons]
      simp only [Shape.indicesOf, List.map_flatMap, List.map_map, Function.comp_def,
        ih (Nat.succ.inj hlen) (Nat.succ.inj hstrides), addIndex_cons, exactPosition_cons,
        List.append_assoc, List.singleton_append, Nat.add_assoc]

theorem length_pos_of_mem_axes {v : Visit} (h : ∀ n ∈ v.lengths, 0 < n) :
    ∀ axis ∈ v.axes, 0 < axis.length := by
  intro axis haxis
  simp only [axes, List.mem_map] at haxis
  obtain ⟨⟨o, n, stride⟩, hmem, rfl⟩ := haxis
  exact h n (List.of_mem_zip (List.of_mem_zip hmem).2).1

/-- A box with an empty axis is not visited. -/
theorem fold_of_isEmpty {v : Visit} (h : (⟨v.lengths⟩ : Shape).isEmpty = true) (state : σ) :
    v.fold visit state = .ok state := if_pos h

/-- The visit of a box without an empty axis succeeds exactly when the position of its origin is a word
and no step leaves its word; it then has called the function once for each multi-index of the box, in
row-major order. -/
theorem fold_eq_ok_iff {v : Visit} (hpos : ∀ n ∈ v.lengths, 0 < n) (hv : v.Aligned) {state r : σ} :
    v.fold visit state = .ok r ↔
      ∃ start, position v.strides v.origin = .ok start ∧ VisitAxis.Fits v.axes start ∧
        r = (Shape.indicesOf v.lengths).foldl (fun state q =>
          visit state (addIndex v.origin q) (start + exactPosition v.strides q)) state := by
  have hempty : v.lengths.any (· == 0) = false :=
    Shape.isEmpty_eq_false_iff (s := ⟨v.lengths⟩).2 hpos
  have hcells (start : Nat) : VisitAxis.cells v.axes [] start = _ :=
    cells_axes hv.length_origin hv.length_strides [] start
  rw [fold, if_neg (Bool.eq_false_iff.1 hempty), bind_eq_ok_iff]
  refine exists_congr fun start => ?_
  rw [leaving_eq_ok_iff]
  refine and_congr_right fun _ => ?_
  rw [bind_eq_ok_iff]
  constructor
  · rintro ⟨⟨pos, last⟩, hwalk, hlast⟩
    obtain ⟨hfits, hr⟩ := (VisitAxis.walk_eq_ok_iff (length_pos_of_mem_axes hpos)).1 hwalk
    cases hr
    cases hlast
    rw [hcells, List.foldl_map]
    exact ⟨hfits, rfl⟩
  · rintro ⟨hfits, rfl⟩
    refine ⟨_, VisitAxis.walk_eq_ok (length_pos_of_mem_axes hpos) hfits state, ?_⟩
    rw [hcells, List.foldl_map]
    rfl

/-- A visit that succeeds has called the function once for each multi-index of the box, in row-major
order, whether or not the box lies in the array. -/
theorem exists_eq_foldl_of_fold_eq_ok {v : Visit} (hv : v.Aligned) {state r : σ}
    (h : v.fold visit state = .ok r) :
    ∃ start, r = (Shape.indicesOf v.lengths).foldl (fun state q =>
      visit state (addIndex v.origin q) (start + exactPosition v.strides q)) state := by
  cases hempty : (⟨v.lengths⟩ : Shape).isEmpty with
  | true =>
      have hnone : Shape.indicesOf v.lengths = [] := Shape.indices_of_isEmpty hempty
      rw [fold_of_isEmpty hempty] at h
      cases h
      exact ⟨0, by rw [hnone, List.foldl_nil]⟩
  | false =>
      have hpos := Shape.isEmpty_eq_false_iff.1 hempty
      obtain ⟨start, -, -, hr⟩ := (fold_eq_ok_iff hpos hv).1 h
      exact ⟨start, hr⟩

/-- The visit does not fail, and it calls the function that it is given just so often, in this order. -/
def Calls (v : Visit) (calls : List (Index × Nat)) : Prop :=
  ∀ (σ : Type) (visit : σ → Index → Nat → σ) (state : σ),
    v.fold visit state = .ok (calls.foldl (fun state call => visit state call.1 call.2) state)

/-- The list of a visit is the list of its calls. -/
theorem Calls.toList_eq_ok {v : Visit} {calls : List (Index × Nat)} (h : v.Calls calls) :
    v.toList = .ok calls := by
  rw [toList, h]
  refine congrArg Except.ok ?_
  simp only [List.foldl_push_eq_append, List.map_id_fun', id_eq, List.append_toArray, List.nil_append]

/-! ## Boxes inside an array -/

/-- The visit of a box that lies in an array fits, wherever in a larger array that array begins. -/
theorem fits_of_holdsBox {array origin box : List Nat} (h : HoldsBox array origin box)
    (hbox : ∀ m ∈ box, 0 < m) {base limit : Nat} (hbase : base + Shape.size ⟨array⟩ ≤ limit)
    (hlimit : 2 * limit ≤ Word.bound) :
    VisitAxis.Fits (axes ⟨stridesOf array, origin, box⟩) (base + Shape.offset ⟨array⟩ origin) := by
  induction h generalizing base with
  | nil => trivial
  | @cons n o m array box origin hle hinner ih =>
      have harray := (HoldsBox.cons hle hinner).pos_of_pos hbox
      have hlen := Shape.length_le_size (s := ⟨n :: array⟩) harray n List.mem_cons_self
      simp only [List.mem_cons, forall_eq_or_imp] at hbox harray
      have hsize : Shape.size ⟨array⟩ ≤ Shape.size ⟨n :: array⟩ := Shape.size_le_size_cons harray.1
      have hoffset := Shape.offset_lt_size (hinner.origin_mem hbox.2)
      have hpos := Shape.size_pos (s := ⟨array⟩) harray.2
      have hfit : Shape.size ⟨array⟩ < Word.bound := by omega
      have haxes : axes ⟨stridesOf (n :: array), o :: origin, m :: box⟩ =
          ⟨o, m, Shape.size ⟨array⟩⟩ :: axes ⟨stridesOf array, origin, box⟩ := by
        rw [stridesOf, innerStride_eq_size harray.2 hfit]
        rfl
      rw [haxes, Shape.offset_cons]
      rw [Shape.size_cons] at hbase hlen
      -- past the last coordinate the position is at most one inner size past the end of the array
      have hlast : (o + m) * Shape.size ⟨array⟩ ≤ n * Shape.size ⟨array⟩ :=
        Nat.mul_le_mul_right _ hle
      rw [Nat.add_mul] at hlast
      have hway : m * Shape.size ⟨array⟩ = (m - 1) * Shape.size ⟨array⟩ + Shape.size ⟨array⟩ := by
        rw [← Nat.succ_mul, Nat.succ_eq_add_one, Nat.sub_add_cancel hbox.1]
      refine ⟨?_, ?_, ?_⟩
      · dsimp only
        omega
      · dsimp only
        omega
      · -- the inner axes see an array that begins at the last coordinates of the outer ones
        have hbase' : base + o * Shape.size ⟨array⟩ + (m - 1) * Shape.size ⟨array⟩ +
            Shape.size ⟨array⟩ ≤ limit := by omega
        apply (ih hbox.2 hbase').mono
        dsimp only
        omega

/-- The visit of a box that lies in an array of at most `2^63` elements calls the function once for each
multi-index of the box, in row-major order and with its place in the array. -/
theorem fold_of_holdsBox {array box : Shape} {origin : Index}
    (h : box.isEmpty = false → HoldsBox array.lengths origin box.lengths)
    (hfit : 2 * array.size ≤ Word.bound) (state : σ) :
    fold ⟨array.strides, origin, box.lengths⟩ visit state =
      .ok (box.indices.foldl (fun state q =>
        visit state (addIndex origin q) (array.offset (addIndex origin q))) state) := by
  cases hempty : box.isEmpty with
  | true =>
      rw [fold_of_isEmpty hempty, Shape.indices_of_isEmpty hempty]
      rfl
  | false =>
      have hholds := h hempty
      have hpos := Shape.isEmpty_eq_false_iff.1 hempty
      have harray := hholds.pos_of_pos hpos
      have hword : array.size < Word.bound := by
        have := Shape.size_pos harray
        omega
      have hexact (p : Index) : exactPosition array.strides p = array.offset p :=
        exactPosition_stridesOf harray hword
      have hlen : origin.length = box.lengths.length :=
        hholds.length_origin.trans hholds.length_box.symm
      have haligned : Aligned ⟨array.strides, origin, box.lengths⟩ :=
        ⟨hlen, (Shape.length_strides array).trans hholds.length_box.symm⟩
      refine (fold_eq_ok_iff hpos haligned).2 ⟨array.offset origin, ?_, ?_, ?_⟩
      · exact position_strides_eq_offset (hholds.origin_mem hpos) hword
      · -- the array is not part of a larger one
        have hbase : 0 + Shape.size ⟨array.lengths⟩ ≤ array.size := Nat.le_of_eq (Nat.zero_add _)
        have hfits := fits_of_holdsBox hholds hpos hbase hfit
        rwa [Nat.zero_add] at hfits
      · apply List.foldl_ext
        intro state q hq
        have hqlen : origin.length = q.length := by
          rw [hlen, (Shape.mem_indices.1 hq).1]
          rfl
        have hsum : array.offset origin + exactPosition array.strides q =
            array.offset (addIndex origin q) := by
          rw [← hexact, ← hexact]
          exact (exactPosition_zipWith_add hqlen).symm
        rw [hsum]

/-! ## Whole arrays -/

/-- The visit of a whole array fits as soon as its end is a word, wherever in a larger array it begins: past
the last coordinate of an axis the position is at most at that end. -/
theorem fits_whole {array : List Nat} (hpos : ∀ n ∈ array, 0 < n) {base : Nat}
    (hfit : base + Shape.size ⟨array⟩ < Word.bound) :
    VisitAxis.Fits (axes ⟨stridesOf array, List.replicate array.length 0, array⟩) base := by
  induction array generalizing base with
  | nil => trivial
  | cons n array ih =>
      have hlen := Shape.length_le_size (s := ⟨n :: array⟩) hpos n List.mem_cons_self
      simp only [List.mem_cons, forall_eq_or_imp] at hpos
      have hsize : Shape.size ⟨array⟩ ≤ Shape.size ⟨n :: array⟩ := Shape.size_le_size_cons hpos.1
      have haxes : axes ⟨stridesOf (n :: array), List.replicate (n :: array).length 0, n :: array⟩ =
          ⟨0, n, Shape.size ⟨array⟩⟩ :: axes ⟨stridesOf array, List.replicate array.length 0, array⟩ := by
        rw [stridesOf, innerStride_eq_size hpos.2 (by omega)]
        rfl
      rw [Shape.size_cons] at hfit hlen
      have hlast : (n - 1) * Shape.size ⟨array⟩ + Shape.size ⟨array⟩ = n * Shape.size ⟨array⟩ := by
        rw [← Nat.succ_mul, Nat.succ_eq_add_one, Nat.sub_add_cancel hpos.1]
      rw [haxes]
      refine ⟨?_, hfit, ?_⟩
      · dsimp only
        omega
      · -- at the last coordinate the inner axes end where this axis does
        apply ih hpos.2
        dsimp only
        omega

/-- The visit of a whole array whose size is a word calls the function once for each multi-index, in
row-major order, with the number of the call as the position. -/
theorem calls_whole {array : Shape} (hfit : array.size < Word.bound) :
    ∃ v, ofOrigin array (List.replicate array.rank 0) array = .ok v ∧ v.Calls array.indices.zipIdx := by
  have hvisit : ofOrigin array (List.replicate array.rank 0) array =
      .ok ⟨array.strides, List.replicate array.rank 0, array.lengths⟩ :=
    if_pos ⟨(List.length_replicate ..).symm, rfl⟩
  have haligned := (aligned_of_ofOrigin_eq_ok hvisit).1
  refine ⟨_, hvisit, ?_⟩
  intro σ visit state
  cases hempty : array.isEmpty with
  | true =>
      rw [fold_of_isEmpty hempty, Shape.indices_of_isEmpty hempty]
      rfl
  | false =>
      have hpos := Shape.isEmpty_eq_false_iff.1 hempty
      have hzero := exactPosition_zero array.strides array.rank
      refine (fold_eq_ok_iff hpos haligned).2 ⟨0, ?_, ?_, ?_⟩
      · refine position_eq_ok_iff.2 ⟨?_, ?_, hzero.symm⟩
        · rw [List.length_replicate, Shape.length_strides]
        · rw [hzero]
          decide
      · apply fits_whole hpos
        rwa [Nat.zero_add]
      · rw [Shape.zipIdx_indices, List.foldl_map]
        apply List.foldl_ext
        intro state q hq
        have hlen : q.length = array.rank := (Shape.mem_indices.1 hq).1
        rw [← hlen, addIndex_zero, Nat.zero_add, Shape.strides, exactPosition_stridesOf hpos hfit]

end Visit

end LatticeGrid
