import LatticeGrid.Copy.Overlap
import LatticeGrid.Proofs.Copy.Placement
import LatticeGrid.Proofs.Lattice.Lengths
import LatticeGrid.Proofs.Layout.Boxes

/-!
# The overlap is exact

`Overlap.between` finds all of the multi-indices at which a placed source and a target meet, and no
other. On one axis this is arithmetic on intervals, where the far end of the source is held at the
edge of the lattice (`AxisOverlap.exists_between_eq_ok`). The axes are gone through one after the
other, up to one without an overlap (`Clips`); if there is none of those, every axis is exact
(`Clipped`), and with them the whole overlap (`Overlap.Exact`).

Main statements: `exists_clip_eq_ok`, `Overlap.between_of_isEmpty`, `Overlap.exists_between_eq_ok` and
`Overlap.between_eq_rankMismatch`.
-/

set_option autoImplicit false

namespace LatticeGrid

/-! ## One axis -/

/-- A difference that lies on the lattice is computed exactly. -/
theorem Coord.exists_sub_eq_ok {a b : Coord} (hlow : -9223372036854775808 ≤ a.val - b.val)
    (hupp : a.val - b.val < 9223372036854775808) :
    ∃ c, a.sub b = .ok c ∧ c.val = a.val - b.val :=
  ⟨⟨_, hlow, hupp⟩, Coord.checked_eq_ok_iff.2 rfl, rfl⟩

namespace AxisOverlap

/-- The overlap on an axis of a source of length `source`, placed at `offset`, with a target of length
`target`: it has an element, lies in both grids, and leaves out no place where they meet. -/
structure Exact (offset : Coord) (source target : Nat) (a : AxisOverlap) : Prop where
  length_pos : 0 < a.length
  target_le : a.targetMin + a.length ≤ target
  source_le : a.sourceMin + a.length ≤ source
  targetMin_eq : offset.val + a.sourceMin = a.targetMin
  covers : ∀ t s : Nat, t < target → s < source → offset.val + s = t →
    a.targetMin ≤ t ∧ t < a.targetMin + a.length

/-- No place of the target, of length `target`, is a place of the source, of length `source` and placed at
`offset`. -/
def Apart (offset : Coord) (source target : Nat) : Prop :=
  ∀ t s : Nat, t < target → s < source → offset.val + s ≠ t

variable {source target : Nat}

/-- Holding the end of the source at the edge of the lattice does not change what lies below the end of
the target. -/
theorem val_min_saturatingAdd (offset : Coord) (hs : source < 2 ^ 63) (ht : target < 2 ^ 63) :
    (min (offset.saturatingAdd (Coord.clamp source)) (Coord.clamp target)).val =
      min (offset.val + source) target := by
  have hlow := offset.lower
  rw [Coord.val_min, Coord.saturatingAdd, Coord.val_clamp, Coord.val_clamp_natCast hs,
    Coord.val_clamp_natCast ht]
  omega

/-- The overlap on an axis is computed without a failure. There is none, and source and target do not
meet, or it is exact. -/
theorem exists_between_eq_ok (offset : Coord) (hs : source < 2 ^ 63) (ht : target < 2 ^ 63) :
    (between offset (Coord.clamp source) (Coord.clamp target) = .ok none ∧
        Apart offset source target) ∨
      ∃ a : AxisOverlap, between offset (Coord.clamp source) (Coord.clamp target) = .ok (some a) ∧
        a.Exact offset source target := by
  have hstart : (max offset Coord.zero).val = max offset.val 0 := Coord.val_max ..
  have hstop := val_min_saturatingAdd offset hs ht
  rw [between]
  generalize max offset Coord.zero = start at hstart ⊢
  generalize min (offset.saturatingAdd (Coord.clamp source)) (Coord.clamp target) = stop at hstop ⊢
  by_cases hlt : start < stop
  · have hval := Coord.lt_def.1 hlt
    -- the grids meet, so the offset is less than one source length below zero
    obtain ⟨fromSource, hfrom, hfromVal⟩ :=
      Coord.exists_sub_eq_ok (a := start) (b := offset) (by omega) (by omega)
    obtain ⟨length, hlength, hlengthVal⟩ :=
      Coord.exists_sub_eq_ok (a := stop) (b := start) (by omega) (by omega)
    refine Or.inr ⟨⟨start.toNat, fromSource.toNat, length.toNat⟩, ?_, ?_⟩
    · rw [if_pos hlt]
      simp only [hfrom, hlength, bind, Except.bind]
      rfl
    · constructor
      all_goals dsimp only [Coord.toNat]
      all_goals omega
  · have hval := mt Coord.lt_def.2 hlt
    refine Or.inl ⟨if_neg hlt, ?_⟩
    intro t s htt hss
    omega

/-- An exact overlap on an axis begins where both grids have begun, and ends where one of them does. -/
theorem Exact.bounds {offset : Coord} {a : AxisOverlap} (h : a.Exact offset source target) :
    (a.targetMin : Int) = max offset.val 0 ∧
      (a.targetMin : Int) + a.length = min (offset.val + source) target := by
  rcases h with ⟨hlength, htarget, hsource, hplace, hcovers⟩
  -- the first and the last place at which the grids can meet
  have hfirst := hcovers (max offset.val 0).toNat (max offset.val 0 - offset.val).toNat
    (by omega) (by omega) (by omega)
  have hlast := hcovers (min (offset.val + source) target - 1).toNat
    (min (offset.val + source) target - 1 - offset.val).toNat (by omega) (by omega) (by omega)
  omega

/-- Where there is an exact overlap, source and target meet. -/
theorem Exact.not_apart {offset : Coord} {a : AxisOverlap} (h : a.Exact offset source target) :
    ¬ Apart offset source target := by
  intro hapart
  have htarget := h.target_le
  have hsource := h.source_le
  have hlength := h.length_pos
  exact hapart a.targetMin a.sourceMin (by omega) (by omega) h.targetMin_eq

end AxisOverlap

/-! ## All axes -/

/-- Every axis of the overlap is exact. -/
inductive Clipped : (offset : List Coord) → (source target : List Nat) → List AxisOverlap → Prop
  | nil : Clipped [] [] [] []
  | cons {o : Coord} {n m : Nat} {offset : List Coord} {source target : List Nat} {a : AxisOverlap}
      {axes : List AxisOverlap} :
      a.Exact o n m → Clipped offset source target axes →
        Clipped (o :: offset) (n :: source) (m :: target) (a :: axes)

/-- The axes are clipped one after the other, up to one on which source and target do not meet, or to an
exact overlap on each of them. -/
inductive Clips : (offset : List Coord) → (source target : List Nat) →
    (answer : Option (List AxisOverlap)) → Prop
  | nil : Clips [] [] [] (some [])
  | apart {o : Coord} {n m : Nat} {offset : List Coord} {source target : List Nat} :
      AxisOverlap.Apart o n m → Clips (o :: offset) (n :: source) (m :: target) none
  | meet {o : Coord} {n m : Nat} {offset : List Coord} {source target : List Nat} {a : AxisOverlap}
      {answer : Option (List AxisOverlap)} :
      a.Exact o n m → Clips offset source target answer →
        Clips (o :: offset) (n :: source) (m :: target) (answer.map (a :: ·))

/-- The overlap of a source with a target has elements, lies in both grids, and pairs up all of the
multi-indices at which the two meet, and no others. -/
structure Overlap.Exact (offset : List Coord) (source target : List Nat) (o : Overlap) : Prop where
  pos : ∀ n ∈ o.shape.lengths, 0 < n
  holdsTarget : HoldsBox target o.targetMin o.shape.lengths
  holdsSource : HoldsBox source o.sourceMin o.shape.lengths
  sourceMin_eq : o.sourceMin.map Int.ofNat =
    List.zipWith (fun (n : Nat) (c : Coord) => (n : Int) - c.val) o.targetMin offset
  placed : ∀ q ∈ o.shape,
    placedIndex? offset (addIndex o.targetMin q) = some (addIndex o.sourceMin q)
  covers : ∀ t ∈ (⟨target⟩ : Shape), ∀ s ∈ (⟨source⟩ : Shape), placedIndex? offset t = some s →
    ∃ q ∈ o.shape, t = addIndex o.targetMin q

namespace Clipped

variable {offset : List Coord} {source target : List Nat} {axes : List AxisOverlap}

theorem pos (h : Clipped offset source target axes) :
    ∀ n ∈ (Overlap.ofAxes axes).shape.lengths, 0 < n := by
  induction h with
  | nil => simp [Overlap.ofAxes]
  | cons ha _ ih =>
      simp only [Overlap.ofAxes, List.map_cons, List.mem_cons, forall_eq_or_imp]
      exact ⟨ha.length_pos, ih⟩

theorem holds (h : Clipped offset source target axes) :
    HoldsBox target (Overlap.ofAxes axes).targetMin (Overlap.ofAxes axes).shape.lengths ∧
      HoldsBox source (Overlap.ofAxes axes).sourceMin (Overlap.ofAxes axes).shape.lengths := by
  induction h with
  | nil => exact ⟨.nil, .nil⟩
  | cons ha _ ih => exact ⟨.cons ha.target_le ih.1, .cons ha.source_le ih.2⟩

theorem sourceMin_eq (h : Clipped offset source target axes) :
    (Overlap.ofAxes axes).sourceMin.map Int.ofNat =
      List.zipWith (fun (n : Nat) (c : Coord) => (n : Int) - c.val)
        (Overlap.ofAxes axes).targetMin offset := by
  induction h with
  | nil => rfl
  | @cons o n m offset source target a axes ha _ ih =>
      have haxis : (a.sourceMin : Int) = a.targetMin - o.val := by
        have heq := ha.targetMin_eq
        omega
      exact congrArg₂ List.cons haxis ih

theorem placed (h : Clipped offset source target axes) {q : Index}
    (hq : q ∈ (Overlap.ofAxes axes).shape) :
    placedIndex? offset (addIndex (Overlap.ofAxes axes).targetMin q) =
      some (addIndex (Overlap.ofAxes axes).sourceMin q) := by
  induction h generalizing q with
  | nil => rfl
  | @cons o n m offset source target a axes ha _ ih =>
      cases q with
      | nil => exact absurd hq (Shape.not_nil_mem_cons _ _)
      | cons c q =>
          have haxis := ha.targetMin_eq
          show placedIndex? (o :: offset)
            ((a.targetMin + c) :: addIndex (Overlap.ofAxes axes).targetMin q) = _
          rw [placedIndex?_cons_eq_some_iff]
          exact ⟨a.sourceMin + c, _, rfl, by omega, ih (Shape.cons_mem_cons.1 hq).2⟩

theorem covers (h : Clipped offset source target axes) {t s : Index}
    (ht : t ∈ (⟨target⟩ : Shape)) (hs : s ∈ (⟨source⟩ : Shape))
    (hplaced : placedIndex? offset t = some s) :
    ∃ q ∈ (Overlap.ofAxes axes).shape, t = addIndex (Overlap.ofAxes axes).targetMin q := by
  induction h generalizing t s with
  | nil => exact ⟨[], Shape.nil_mem_nil, List.eq_nil_of_length_eq_zero ht.1⟩
  | @cons o n m offset source target a axes ha _ ih =>
      cases t with
      | nil => exact absurd ht (Shape.not_nil_mem_cons _ _)
      | cons c t =>
          rcases placedIndex?_cons_eq_some_iff.1 hplaced with ⟨d, s', rfl, hsum, hplaced⟩
          rcases Shape.cons_mem_cons.1 ht with ⟨hc, ht⟩
          rcases Shape.cons_mem_cons.1 hs with ⟨hd, hs⟩
          obtain ⟨hge, hlt⟩ := ha.covers c d hc hd hsum
          obtain ⟨q, hq, rfl⟩ := ih ht hs hplaced
          have hlength : c - a.targetMin < a.length := by omega
          refine ⟨(c - a.targetMin) :: q, Shape.cons_mem_cons.2 ⟨hlength, hq⟩, ?_⟩
          show c :: _ = (a.targetMin + (c - a.targetMin)) :: _
          rw [Nat.add_sub_cancel' hge]
          rfl

theorem exact (h : Clipped offset source target axes) :
    (Overlap.ofAxes axes).Exact offset source target :=
  ⟨h.pos, h.holds.1, h.holds.2, h.sourceMin_eq, fun _ hq => h.placed hq,
    fun _ ht _ hs hplaced => h.covers ht hs hplaced⟩

end Clipped

namespace Clips

variable {offset : List Coord} {source target : List Nat} {answer : Option (List AxisOverlap)}

theorem clipped (h : Clips offset source target answer) {axes : List AxisOverlap}
    (hsome : answer = some axes) : Clipped offset source target axes := by
  induction h generalizing axes with
  | nil =>
      cases hsome
      exact .nil
  | apart _ => cases hsome
  | meet ha _ ih =>
      obtain ⟨inner, hinner, rfl⟩ := Option.map_eq_some_iff.1 hsome
      exact .cons ha (ih hinner)

/-- Source and target do not meet if they do not meet on some axis. -/
theorem placedIndex?_ne_some (h : Clips offset source target answer) (hnone : answer = none)
    {t s : Index} (ht : t ∈ (⟨target⟩ : Shape)) (hs : s ∈ (⟨source⟩ : Shape)) :
    placedIndex? offset t ≠ some s := by
  induction h generalizing t s with
  | nil => cases hnone
  | @apart o n m offset source target hapart =>
      intro hplaced
      cases t with
      | nil => exact absurd ht (Shape.not_nil_mem_cons m target)
      | cons c t =>
          rcases placedIndex?_cons_eq_some_iff.1 hplaced with ⟨d, s, rfl, hsum, -⟩
          exact hapart c d (Shape.cons_mem_cons.1 ht).1 (Shape.cons_mem_cons.1 hs).1 hsum
  | @meet o n m offset source target a answer _ _ ih =>
      intro hplaced
      cases t with
      | nil => exact absurd ht (Shape.not_nil_mem_cons m target)
      | cons c t =>
          rcases placedIndex?_cons_eq_some_iff.1 hplaced with ⟨d, s, rfl, -, hplaced⟩
          exact ih (Option.map_eq_none_iff.1 hnone) (Shape.cons_mem_cons.1 ht).2
            (Shape.cons_mem_cons.1 hs).2 hplaced

end Clips

/-! ## The computed overlap -/

/-- The overlap on each axis of a source and a target, both given by their axis lengths. -/
def clip (offset : List Coord) (source target : List Nat) :
    Except Failure (Option (List AxisOverlap)) :=
  Overlap.axesBetween (offset.zip ((coordsOf source).zip (coordsOf target)))

theorem clip_cons_of_none {o : Coord} {n m : Nat} {offset : List Coord} {source target : List Nat}
    (h : AxisOverlap.between o (Coord.clamp n) (Coord.clamp m) = .ok none) :
    clip (o :: offset) (n :: source) (m :: target) = .ok none := by
  show Overlap.axesBetween ((o, Coord.clamp n, Coord.clamp m) :: _) = _
  rw [Overlap.axesBetween, h]
  rfl

theorem clip_cons_of_some {o : Coord} {n m : Nat} {offset : List Coord} {source target : List Nat}
    {a : AxisOverlap} {axes : Option (List AxisOverlap)}
    (h : AxisOverlap.between o (Coord.clamp n) (Coord.clamp m) = .ok (some a))
    (hrest : clip offset source target = .ok axes) :
    clip (o :: offset) (n :: source) (m :: target) = .ok (axes.map (a :: ·)) := by
  rw [clip] at hrest
  show Overlap.axesBetween ((o, Coord.clamp n, Coord.clamp m) ::
    offset.zip ((coordsOf source).zip (coordsOf target))) = _
  rw [Overlap.axesBetween, h, hrest]
  rfl

/-- The axes are gone through without a failure, and clipped. -/
theorem exists_clip_eq_ok {offset : List Coord} {source target : List Nat}
    (hs : source.length = offset.length) (ht : target.length = offset.length)
    (hsource : ∀ n ∈ source, n < 2 ^ 63) (htarget : ∀ m ∈ target, m < 2 ^ 63) :
    ∃ answer, clip offset source target = .ok answer ∧ Clips offset source target answer := by
  induction offset generalizing source target with
  | nil =>
      obtain rfl := List.eq_nil_of_length_eq_zero hs
      obtain rfl := List.eq_nil_of_length_eq_zero ht
      exact ⟨some [], rfl, .nil⟩
  | cons o offset ih =>
      obtain ⟨n, source, rfl⟩ := List.exists_cons_of_length_eq_add_one hs
      obtain ⟨m, target, rfl⟩ := List.exists_cons_of_length_eq_add_one ht
      simp only [List.mem_cons, forall_eq_or_imp] at hsource htarget
      rcases AxisOverlap.exists_between_eq_ok o hsource.1 htarget.1 with
        ⟨hnone, hapart⟩ | ⟨a, ha, hexact⟩
      · exact ⟨none, clip_cons_of_none hnone, .apart hapart⟩
      · obtain ⟨answer, hanswer, hclips⟩ :=
          ih (Nat.succ.inj hs) (Nat.succ.inj ht) hsource.2 htarget.2
        exact ⟨_, clip_cons_of_some ha hanswer, .meet hexact hclips⟩

namespace Overlap

variable {offset : Point} {source target : Shape}

/-- Grids of another rank are refused, and the answer names the rank found. -/
theorem between_eq_rankMismatch (h : ¬ (source.rank = offset.rank ∧ target.rank = offset.rank)) :
    ∃ found, found ≠ offset.rank ∧ (found = source.rank ∨ found = target.rank) ∧
      between offset source target = .error (.rankMismatch found offset.rank) := by
  by_cases hs : source.rank = offset.rank
  · -- the source is checked first, so it is the target that differs
    have ht : target.rank ≠ offset.rank := by
      intro ht
      exact h ⟨hs, ht⟩
    refine ⟨target.rank, ht, Or.inr rfl, ?_⟩
    rw [between, checkRank_eq_ok_iff.2 hs, checkRank, if_neg ht]
    rfl
  · refine ⟨source.rank, hs, Or.inl rfl, ?_⟩
    rw [between, checkRank, if_neg hs]
    rfl

section EqualRanks

variable (hs : source.rank = offset.rank) (ht : target.rank = offset.rank)

include hs ht

/-- An empty grid overlaps nothing, however long its other axes are. -/
theorem between_of_isEmpty (h : (source.isEmpty || target.isEmpty) = true) :
    between offset source target = .ok none := by
  rw [between, checkRank_eq_ok_iff.2 hs, checkRank_eq_ok_iff.2 ht, h]
  rfl

theorem between_of_isEmpty_eq_false (h : (source.isEmpty || target.isEmpty) = false)
    (hsource : ∀ n ∈ source.lengths, n < 2 ^ 63) (htarget : ∀ m ∈ target.lengths, m < 2 ^ 63)
    {axes : Option (List AxisOverlap)}
    (hclip : clip offset.coords source.lengths target.lengths = .ok axes) :
    between offset source target = .ok (axes.map ofAxes) := by
  rw [clip] at hclip
  rw [between, checkRank_eq_ok_iff.2 hs, checkRank_eq_ok_iff.2 ht, h,
    Shape.toPoint_eq_ok hsource, Shape.toPoint_eq_ok htarget]
  simp only [bind, Except.bind, Bool.false_eq_true, if_false, hclip]
  rfl

/-- Between grids with elements, of equal rank and with axes that fit the lattice, there either is an
exact overlap, or the source brings nothing to the target. -/
theorem exists_between_eq_ok_of_lt (h : (source.isEmpty || target.isEmpty) = false)
    (hsource : ∀ n ∈ source.lengths, n < 2 ^ 63) (htarget : ∀ m ∈ target.lengths, m < 2 ^ 63) :
    (between offset source target = .ok none ∧
        ∀ t ∈ target, ∀ s ∈ source, placedIndex? offset.coords t ≠ some s) ∨
      ∃ o, between offset source target = .ok (some o) ∧
        o.Exact offset.coords source.lengths target.lengths := by
  obtain ⟨answer, hanswer, hclips⟩ := exists_clip_eq_ok hs ht hsource htarget
  have hbetween := between_of_isEmpty_eq_false hs ht h hsource htarget hanswer
  cases answer with
  | none => exact Or.inl ⟨hbetween, fun t ht s hs => hclips.placedIndex?_ne_some rfl ht hs⟩
  | some axes => exact Or.inr ⟨_, hbetween, (hclips.clipped rfl).exact⟩

/-- Between grids of equal rank whose sizes fit the lattice there either is an exact overlap, or the
source brings nothing to the target. -/
theorem exists_between_eq_ok (hsource : source.size < 2 ^ 63) (htarget : target.size < 2 ^ 63) :
    (between offset source target = .ok none ∧
        ∀ t ∈ target, ∀ s ∈ source, placedIndex? offset.coords t ≠ some s) ∨
      ∃ o, between offset source target = .ok (some o) ∧
        o.Exact offset.coords source.lengths target.lengths := by
  cases hempty : source.isEmpty || target.isEmpty with
  | true =>
      refine Or.inl ⟨between_of_isEmpty hs ht hempty, ?_⟩
      intro t htt s hss
      rcases Bool.or_eq_true_iff.1 hempty with h | h
      · exact absurd hss (Shape.not_mem_of_isEmpty h s)
      · exact absurd htt (Shape.not_mem_of_isEmpty h t)
  | false =>
      rcases Bool.or_eq_false_iff.1 hempty with ⟨hs', ht'⟩
      -- without an empty axis, no axis is longer than the grid has elements
      exact exists_between_eq_ok_of_lt hs ht hempty
        (Shape.length_lt_of_size_lt (Shape.isEmpty_eq_false_iff.1 hs') hsource)
        (Shape.length_lt_of_size_lt (Shape.isEmpty_eq_false_iff.1 ht') htarget)

end EqualRanks

end Overlap

end LatticeGrid
