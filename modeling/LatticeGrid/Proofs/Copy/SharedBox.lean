import LatticeGrid.Proofs.Copy.Overlap

/-!
# The overlap is the box of the shared multi-indices

A source that is placed at an offset and a target share a set of multi-indices of the target, which is
given here by inequalities between unbounded integers (`Overlap.Shared`). `Overlap.between` answers
that set as a box (`InBox`), and no overlap if the set is empty. It never leaves the lattice
on the way, not even where the offset is the last coordinate of the lattice or the negation of the
offset is none, so that it fails only by reporting a geometry that it refuses: a rank that differs, or
an axis too long for the lattice in a grid that has elements.

Main statement: `Overlap.between_exact`.
-/

set_option autoImplicit false

namespace LatticeGrid

namespace Overlap

/-! ## Shared multi-indices -/

/-- The multi-index `t` lies in the target, and `t` minus the offset lies in the source, on every axis
and in unbounded integers. -/
def Shared (offset : Point) (source target : Shape) (t : Index) : Prop :=
  t.length = offset.rank ∧
    ∀ q ∈ t.zip (offset.coords.zip (source.lengths.zip target.lengths)),
      q.1 < q.2.2.2 ∧ 0 ≤ (q.1 : Int) - q.2.1.val ∧ (q.1 : Int) - q.2.1.val < q.2.2.1

instance (offset : Point) (source target : Shape) (t : Index) :
    Decidable (Shared offset source target t) :=
  inferInstanceAs (Decidable (t.length = offset.rank ∧
    ∀ q ∈ t.zip (offset.coords.zip (source.lengths.zip target.lengths)),
      q.1 < q.2.2.2 ∧ 0 ≤ (q.1 : Int) - q.2.1.val ∧ (q.1 : Int) - q.2.1.val < q.2.2.1))

/-- Sharing goes axis by axis. -/
theorem shared_cons {o : Coord} {n m c : Nat} {offset : List Coord} {source target : List Nat}
    {t : Index} :
    Shared ⟨o :: offset⟩ ⟨n :: source⟩ ⟨m :: target⟩ (c :: t) ↔
      (c < m ∧ 0 ≤ (c : Int) - o.val ∧ (c : Int) - o.val < n) ∧
        Shared ⟨offset⟩ ⟨source⟩ ⟨target⟩ t := by
  simp only [Shared, Point.rank, List.length_cons, List.zip_cons_cons, List.forall_mem_cons,
    Nat.add_right_cancel_iff]
  exact and_left_comm

/-- A shared multi-index is one of the target at which a multi-index of the source lies. -/
theorem shared_iff {offset : Point} {source target : Shape} {t : Index}
    (hs : source.rank = offset.rank) (ht : target.rank = offset.rank) :
    Shared offset source target t ↔
      t ∈ target ∧ ∃ s ∈ source, placedIndex? offset.coords t = some s := by
  rcases offset with ⟨offset⟩
  rcases source with ⟨source⟩
  rcases target with ⟨target⟩
  induction offset generalizing source target t with
  | nil =>
      obtain rfl := List.eq_nil_of_length_eq_zero hs
      obtain rfl := List.eq_nil_of_length_eq_zero ht
      constructor
      · intro h
        obtain rfl := List.eq_nil_of_length_eq_zero h.1
        exact ⟨Shape.nil_mem_nil, [], Shape.nil_mem_nil, rfl⟩
      · intro h
        obtain rfl := List.eq_nil_of_length_eq_zero h.1.1
        decide
  | cons o offset ih =>
      obtain ⟨n, source, rfl⟩ := List.exists_cons_of_length_eq_add_one hs
      obtain ⟨m, target, rfl⟩ := List.exists_cons_of_length_eq_add_one ht
      cases t with
      | nil =>
          constructor
          · intro h
            cases h.1
          · intro h
            exact absurd h.1 (Shape.not_nil_mem_cons m target)
      | cons c t =>
          rw [shared_cons, ih source (Nat.succ.inj hs) target (Nat.succ.inj ht), Shape.cons_mem_cons]
          constructor
          · rintro ⟨⟨hc, hlow, hupp⟩, htt, s, hss, hplaced⟩
            refine ⟨⟨hc, htt⟩, ((c : Int) - o.val).toNat :: s, ?_, ?_⟩
            · exact Shape.cons_mem_cons.2 ⟨by omega, hss⟩
            · exact placedIndex?_cons_eq_some_iff.2 ⟨_, s, rfl, by omega, hplaced⟩
          · rintro ⟨⟨hc, htt⟩, s, hss, hplaced⟩
            rcases placedIndex?_cons_eq_some_iff.1 hplaced with ⟨d, s', rfl, hsum, hplaced⟩
            rcases Shape.cons_mem_cons.1 hss with ⟨hd, hss⟩
            exact ⟨⟨hc, by omega, by omega⟩, htt, s', hss, hplaced⟩

/-! ## Accepted and refused geometries -/

variable {offset : Point} {source target : Shape}

/-- The box of an exact overlap has the shared multi-indices. -/
theorem Exact.shared_iff_inBox {o : Overlap} (hs : source.rank = offset.rank)
    (ht : target.rank = offset.rank) (h : o.Exact offset.coords source.lengths target.lengths)
    (t : Index) : Shared offset source target t ↔ InBox o.targetMin o.shape.lengths t := by
  have hlen : o.targetMin.length = o.shape.lengths.length :=
    h.holdsTarget.length_origin.trans h.holdsTarget.length_box.symm
  rw [shared_iff hs ht, inBox_iff_exists_addIndex hlen]
  constructor
  · rintro ⟨htt, s, hss, hplaced⟩
    exact h.covers t htt s hss hplaced
  · rintro ⟨q, hq, rfl⟩
    exact ⟨h.holdsTarget.add_mem hq, _, h.holdsSource.add_mem hq, h.placed q hq⟩

theorem Exact.exists_shared {o : Overlap} (hs : source.rank = offset.rank)
    (ht : target.rank = offset.rank) (h : o.Exact offset.coords source.lengths target.lengths) :
    ∃ t, Shared offset source target t := by
  obtain ⟨q, hq, -⟩ := Shape.exists_offset_eq (Shape.size_pos h.pos)
  refine ⟨addIndex o.targetMin q, (shared_iff hs ht).2 ⟨h.holdsTarget.add_mem hq, ?_⟩⟩
  exact ⟨_, h.holdsSource.add_mem hq, h.placed q hq⟩

section Accepted

variable (hs : source.rank = offset.rank) (ht : target.rank = offset.rank)
  (hempty : (source.isEmpty || target.isEmpty) = false)
  (hsource : ∀ n ∈ source.lengths, n < 2 ^ 63) (htarget : ∀ m ∈ target.lengths, m < 2 ^ 63)

include hs ht hempty hsource htarget

/-- Where something is shared, there is an exact overlap. -/
theorem exists_exact_of_shared (h : ∃ t, Shared offset source target t) :
    ∃ o, between offset source target = .ok (some o) ∧
      o.Exact offset.coords source.lengths target.lengths := by
  rcases exists_between_eq_ok_of_lt hs ht hempty hsource htarget with ⟨-, hapart⟩ | hsome
  · rcases h with ⟨t, hshared⟩
    rcases (shared_iff hs ht).1 hshared with ⟨htt, s, hss, hplaced⟩
    exact absurd hplaced (hapart t htt s hss)
  · exact hsome

theorem between_eq_ok_none_iff :
    between offset source target = .ok none ↔ ¬ ∃ t, Shared offset source target t := by
  constructor
  · intro hnone hshared
    obtain ⟨o, hsome, -⟩ := exists_exact_of_shared hs ht hempty hsource htarget hshared
    rw [hnone] at hsome
    cases hsome
  · intro hshared
    rcases exists_between_eq_ok_of_lt hs ht hempty hsource htarget with ⟨hnone, -⟩ | ⟨o, -, ho⟩
    · exact hnone
    · exact absurd (ho.exists_shared hs ht) hshared

end Accepted

/-- A grid with elements and an axis too long for the lattice is refused. -/
theorem exists_between_eq_axisTooLong (hs : source.rank = offset.rank)
    (ht : target.rank = offset.rank) (h : (source.isEmpty || target.isEmpty) = false)
    (hlong : (∃ n ∈ source.lengths, 2 ^ 63 ≤ n) ∨ ∃ m ∈ target.lengths, 2 ^ 63 ≤ m) :
    ∃ axis length, between offset source target = .error (.axisTooLong axis length) := by
  rw [between, checkRank_eq_ok_iff.2 hs, checkRank_eq_ok_iff.2 ht, h]
  by_cases hsource : ∃ n ∈ source.lengths, 2 ^ 63 ≤ n
  · obtain ⟨axis, length, herror⟩ := Shape.exists_toPoint_eq_error hsource
    refine ⟨axis, length, ?_⟩
    rw [herror]
    rfl
  · -- the source is a point of the lattice, so it is the target that is refused
    obtain ⟨axis, length, herror⟩ :=
      Shape.exists_toPoint_eq_error (hlong.resolve_left hsource)
    simp only [not_exists, not_and, Nat.not_le] at hsource
    refine ⟨axis, length, ?_⟩
    rw [Shape.toPoint_eq_ok hsource, herror]
    rfl

/-- A geometry is refused if the ranks do not all agree, or if a grid with elements has an axis too long
for the lattice. -/
def Refused (offset : Point) (source target : Shape) : Prop :=
  ¬ (source.rank = offset.rank ∧ target.rank = offset.rank) ∨
    ((0 ∉ source.lengths ∧ 0 ∉ target.lengths) ∧
      ((∃ n ∈ source.lengths, 2 ^ 63 ≤ n) ∨ ∃ m ∈ target.lengths, 2 ^ 63 ≤ m))

theorem isEmpty_or_eq_false_iff :
    (source.isEmpty || target.isEmpty) = false ↔ 0 ∉ source.lengths ∧ 0 ∉ target.lengths := by
  rw [Bool.or_eq_false_iff, ← Bool.not_eq_true, ← Bool.not_eq_true, Shape.isEmpty_iff_zero_mem,
    Shape.isEmpty_iff_zero_mem]

/-- A geometry that is refused is reported. -/
theorem exists_between_eq_error (h : Refused offset source target) :
    ∃ e, between offset source target = .error e ∧ e.isReported = true := by
  by_cases hranks : source.rank = offset.rank ∧ target.rank = offset.rank
  · rcases h.resolve_left (Classical.not_not.2 hranks) with ⟨hzero, hlong⟩
    obtain ⟨axis, length, herror⟩ := exists_between_eq_axisTooLong hranks.1 hranks.2
      (isEmpty_or_eq_false_iff.2 hzero) hlong
    exact ⟨_, herror, rfl⟩
  · obtain ⟨found, -, -, herror⟩ := between_eq_rankMismatch hranks
    exact ⟨_, herror, rfl⟩

/-- A geometry that is not refused is answered. -/
theorem exists_between_eq_ok_of_not_refused (h : ¬ Refused offset source target) :
    ∃ answer, between offset source target = .ok answer := by
  rw [Refused, not_or, Classical.not_not] at h
  rcases h with ⟨⟨hs, ht⟩, hlong⟩
  cases hempty : source.isEmpty || target.isEmpty with
  | true => exact ⟨none, between_of_isEmpty hs ht hempty⟩
  | false =>
      rw [not_and, not_or] at hlong
      rcases hlong (isEmpty_or_eq_false_iff.1 hempty) with ⟨hsource, htarget⟩
      simp only [not_exists, not_and, Nat.not_le] at hsource htarget
      rcases exists_between_eq_ok_of_lt hs ht hempty hsource htarget with ⟨hnone, -⟩ | ⟨o, hsome, -⟩
      · exact ⟨none, hnone⟩
      · exact ⟨some o, hsome⟩

/-- The refused geometries are those that are answered by a failure. -/
theorem exists_between_eq_error_iff :
    (∃ e, between offset source target = .error e) ↔ Refused offset source target := by
  constructor
  · rintro ⟨e, herror⟩
    apply Classical.byContradiction
    intro haccepted
    obtain ⟨answer, hok⟩ := exists_between_eq_ok_of_not_refused haccepted
    rw [hok] at herror
    cases herror
  · intro hrefused
    obtain ⟨e, herror, -⟩ := exists_between_eq_error hrefused
    exact ⟨e, herror⟩

/-- No precondition can be broken and no number can leave the lattice. -/
theorem isReported_of_between_eq_error {e : Failure}
    (h : between offset source target = .error e) : e.isReported = true := by
  obtain ⟨e', herror, hreported⟩ := exists_between_eq_error (exists_between_eq_error_iff.1 ⟨e, h⟩)
  rw [h] at herror
  cases herror
  exact hreported

/-- Between grids of equal rank, without an empty axis and with axes that fit the lattice, there is no
overlap exactly when nothing is shared, and otherwise the overlap is the box of the shared
multi-indices: it has a positive length on every axis, its place in the source is its place in the
target less the offset, and it ends inside of the source. Where an axis is empty there is no overlap,
however long the other axes are. A failure is answered exactly when the ranks do not all agree or a grid
with elements has an axis too long for the lattice, and it is always a reported one. -/
theorem between_exact (offset : Point) (source target : Shape) :
    (source.rank = offset.rank → target.rank = offset.rank →
      (∀ n ∈ source.lengths, 0 < n ∧ n < 2 ^ 63) → (∀ m ∈ target.lengths, 0 < m ∧ m < 2 ^ 63) →
        (between offset source target = .ok none ↔ ¬ ∃ t, Shared offset source target t) ∧
        ((∃ t, Shared offset source target t) → ∃ o, between offset source target = .ok (some o) ∧
          o.targetMin.length = offset.rank ∧
          (∀ t, Shared offset source target t ↔ InBox o.targetMin o.shape.lengths t) ∧
          (∀ n ∈ o.shape.lengths, 0 < n) ∧
          o.sourceMin.map Int.ofNat =
            List.zipWith (fun (n : Nat) (c : Coord) => (n : Int) - c.val) o.targetMin
              offset.coords ∧
          HoldsBox source.lengths o.sourceMin o.shape.lengths)) ∧
    (source.rank = offset.rank → target.rank = offset.rank →
      (0 ∈ source.lengths ∨ 0 ∈ target.lengths) → between offset source target = .ok none) ∧
    ((∃ e, between offset source target = .error e) ↔ Refused offset source target) ∧
    ∀ e, between offset source target = .error e → e.isReported = true := by
  refine ⟨?_, ?_, exists_between_eq_error_iff, fun e => isReported_of_between_eq_error⟩
  · intro hs ht hsource htarget
    have hempty : (source.isEmpty || target.isEmpty) = false := by
      apply isEmpty_or_eq_false_iff.2
      exact ⟨fun hzero => Nat.lt_irrefl 0 (hsource 0 hzero).1,
        fun hzero => Nat.lt_irrefl 0 (htarget 0 hzero).1⟩
    have hsource' : ∀ n ∈ source.lengths, n < 2 ^ 63 := fun n hn => (hsource n hn).2
    have htarget' : ∀ m ∈ target.lengths, m < 2 ^ 63 := fun m hm => (htarget m hm).2
    refine ⟨between_eq_ok_none_iff hs ht hempty hsource' htarget', ?_⟩
    intro hshared
    obtain ⟨o, hsome, ho⟩ := exists_exact_of_shared hs ht hempty hsource' htarget' hshared
    exact ⟨o, hsome, ho.holdsTarget.length_origin.trans ht, ho.shared_iff_inBox hs ht, ho.pos,
      ho.sourceMin_eq, ho.holdsSource⟩
  · intro hs ht hzero
    apply between_of_isEmpty hs ht
    rw [Bool.or_eq_true, Shape.isEmpty_iff_zero_mem, Shape.isEmpty_iff_zero_mem]
    exact hzero

/-- Two rectangles that overlap across the near edge of the outer axis; a source at the near end of the
lattice that stays short of the target by one coordinate; an empty source with an axis too long for the
lattice; and a target with elements and such an axis. -/
theorem between_exact_at_edges :
    (∃ o, between ⟨[Coord.clamp (-1), Coord.clamp 3]⟩ ⟨[4, 5]⟩ ⟨[2, 6]⟩ = .ok (some o) ∧
      InBox o.targetMin o.shape.lengths [1, 5] ∧ ¬ InBox o.targetMin o.shape.lengths [1, 2]) ∧
    between ⟨[Coord.clamp (-9223372036854775808)]⟩ ⟨[9223372036854775807]⟩ ⟨[3]⟩ = .ok none ∧
    between ⟨[Coord.clamp 0, Coord.clamp 0]⟩ ⟨[0, 18446744073709551615]⟩ ⟨[1, 1]⟩ = .ok none ∧
    ∃ e, between ⟨[Coord.clamp 0]⟩ ⟨[1]⟩ ⟨[9223372036854775808]⟩ = .error e ∧
      e.isReported = true := by
  refine ⟨?_, ?_, ?_, ?_⟩
  · obtain ⟨-, hsome⟩ := (between_exact ⟨[Coord.clamp (-1), Coord.clamp 3]⟩ ⟨[4, 5]⟩ ⟨[2, 6]⟩).1
      rfl rfl (by decide) (by decide)
    obtain ⟨o, hbetween, -, hbox, -⟩ := hsome ⟨[1, 5], by decide⟩
    exact ⟨o, hbetween, (hbox [1, 5]).1 (by decide), mt (hbox [1, 2]).2 (by decide)⟩
  · apply ((between_exact ⟨[Coord.clamp (-9223372036854775808)]⟩ ⟨[9223372036854775807]⟩ ⟨[3]⟩).1
      rfl rfl (by decide) (by decide)).1.2
    rintro ⟨t, hlen, hshared⟩
    obtain ⟨c, rfl⟩ := List.length_eq_one_iff.1 hlen
    have haxis := (hshared _ List.mem_cons_self).2.2
    have hoffset : (Coord.clamp (-9223372036854775808)).val = -9223372036854775808 := rfl
    simp only [hoffset] at haxis
    omega
  · exact (between_exact ⟨[Coord.clamp 0, Coord.clamp 0]⟩ ⟨[0, 18446744073709551615]⟩ ⟨[1, 1]⟩).2.1
      rfl rfl (by decide)
  · obtain ⟨-, -, hrefused, hreported⟩ :=
      between_exact ⟨[Coord.clamp 0]⟩ ⟨[1]⟩ ⟨[9223372036854775808]⟩
    obtain ⟨e, he⟩ := hrefused.2 (Or.inr ⟨by decide, by decide⟩)
    exact ⟨e, he, hreported e he⟩

end Overlap

end LatticeGrid
