import LatticeGrid.Proofs.Grid.Acceptance
import LatticeGrid.Proofs.Grid.FillWith
import LatticeGrid.Proofs.Layout.Numbering

/-!
# A grid that counts

`Grid.counting` narrows the count of elements to a signed number of 32 bits before it makes the store. A
count from `2^31` on does not survive that: whatever is left of it, negative, zero or positive, is less than
`2^31` and so less than the count, and the check of a new store finds the store too short. So there is no
grid with wrong values, and the grid that there is holds at every multi-index the number of multi-indices
that come before it.

Main statements: `Grid.counting_eq_ok_iff`, `Grid.counting_eq_error_iff` and `Grid.counting_numbers_members`.
-/

set_option autoImplicit false

namespace LatticeGrid

namespace Grid

variable {α : Type} {shape : Shape} {n : Nat}

/-! ## Narrowed counts -/

/-- A count below `2^31` is kept. -/
theorem narrowCount_of_lt (h : n < 2147483648) : narrowCount n = n :=
  Int.bmod_eq_of_le_mul_two (by omega) (by omega)

/-- What is left of a count is below `2^31`. -/
theorem toNat_narrowCount_lt (n : Nat) : (narrowCount n).toNat < 2147483648 := by
  have hlt : narrowCount n < (4294967296 + 1) / 2 := Int.bmod_lt (by decide)
  omega

/-! ## When there is a grid -/

section Made

variable {g : Grid Int} {e : Failure}

theorem size_map_range (f : Nat → α) (m : Nat) : ((List.range m).map f).toArray.size = m := by
  rw [List.size_toArray, List.length_map, List.length_range]

/-- Below `2^31` elements the store is as long as it should be. -/
theorem exists_counting_eq_ok (hcount : shape.pointCount = .ok n) (hn : n < 2147483648) :
    ∃ g, counting shape = .ok g ∧ g.shape = shape ∧
      g.values.toList = (List.range n).map Int.ofNat := by
  have hsize : ((List.range n).map Int.ofNat).toArray.size = shape.size := by
    rw [size_map_range, Shape.pointCount_eq_ok hcount]
  refine ⟨⟨shape, shape.strides, _, rfl, hsize⟩, ?_, rfl, rfl⟩
  simp only [counting, hcount, bind, Except.bind, narrowCount_of_lt hn, Int.toNat_natCast,
    ofValues_of_size_eq hcount hsize]

/-- From `2^31` elements on the store is too short, whatever is left of the count. -/
theorem counting_of_le (hcount : shape.pointCount = .ok n) (hn : 2147483648 ≤ n) :
    counting shape = .error (.countMismatch shape n (narrowCount n).toNat) := by
  obtain ⟨hfit, rfl⟩ :=
    Shape.pointCount?_eq_some_iff.1 (Shape.pointCount?_eq_some_iff_eq_ok.2 hcount)
  have hshort := toNat_narrowCount_lt shape.size
  have hrefused :
      ¬ Accepts shape ((List.range (narrowCount shape.size).toNat).map Int.ofNat).toArray := by
    rw [accepts_iff, size_map_range]
    omega
  simp only [counting, hcount, bind, Except.bind, ofValues_eq_error hrefused, if_pos hfit,
    size_map_range]

/-- There is a grid exactly when the elements can be counted and there are less than `2^31` of them; it then
holds 0, 1, 2, … -/
theorem counting_eq_ok_iff :
    counting shape = .ok g ↔ ∃ n, shape.pointCount = .ok n ∧ n < 2147483648 ∧ g.shape = shape ∧
      g.values.toList = (List.range n).map Int.ofNat := by
  constructor
  · intro h
    obtain ⟨n, hcount, -⟩ := bind_eq_ok_iff.1 h
    rcases Nat.lt_or_ge n 2147483648 with hn | hn
    · obtain ⟨made, hmade, hshape, hvalues⟩ := exists_counting_eq_ok hcount hn
      cases hmade.symm.trans h
      exact ⟨n, hcount, hn, hshape, hvalues⟩
    · cases (counting_of_le hcount hn).symm.trans h
  · rintro ⟨n, hcount, hn, rfl, hvalues⟩
    obtain ⟨made, hmade, hshape, hvalues'⟩ := exists_counting_eq_ok hcount hn
    rw [hmade]
    exact congrArg Except.ok (Grid.ext hshape (Array.toList_inj.1 (hvalues'.trans hvalues.symm)))

/-- There is no grid exactly when the elements cannot be counted, or there are `2^31` of them or more. -/
theorem counting_eq_error_iff :
    counting shape = .error e ↔ shape.pointCount = .error e ∨
      ∃ n, shape.pointCount = .ok n ∧ 2147483648 ≤ n ∧
        e = .countMismatch shape n (narrowCount n).toNat := by
  cases hcount : shape.pointCount with
  | error e' =>
      have hfails : counting shape = .error e' := by
        rw [counting, hcount]
        rfl
      rw [hfails]
      constructor
      · intro h
        cases h
        exact Or.inl rfl
      · rintro (h | ⟨n, h, -⟩)
        · cases h
          rfl
        · cases h
  | ok m =>
      constructor
      · intro h
        rcases Nat.lt_or_ge m 2147483648 with hm | hm
        · obtain ⟨g, hmade, -⟩ := exists_counting_eq_ok hcount hm
          cases hmade.symm.trans h
        · cases (counting_of_le hcount hm).symm.trans h
          exact Or.inr ⟨m, rfl, hm, rfl⟩
      · rintro (h | ⟨n, hn, hle, rfl⟩)
        · cases h
        · cases hn
          exact counting_of_le hcount hle

theorem onlyFaults_counting (shape : Shape) : OnlyFaults (counting shape) := by
  intro e h
  rcases counting_eq_error_iff.1 h with hcount | ⟨n, -, -, rfl⟩
  · exact OnlyFaults.pointCount shape e hcount
  · rfl

end Made

/-! ## What the grid holds -/

/-- A function whose answers do not depend on its state answers each multi-index by its own value. -/
theorem Answers.map_snd {σ : Type} {filler : σ → Index → α × σ} {state last : σ}
    {calls : List (Index × α)} {f : Index → α} (hf : ∀ s p, (filler s p).1 = f p)
    (h : Answers filler state calls last) : calls.map Prod.snd = (calls.map Prod.fst).map f := by
  induction h with
  | nil => rfl
  | cons _ ih => rw [List.map_cons, List.map_cons, List.map_cons, ih, hf]

/-- A grid of outcomes without a failure is collected to the grid of their values. -/
theorem collect_eq_ok {outcomes : Grid (Except Failure α)} {g : Grid α}
    (hcount : g.shape.pointCount = .ok n) (hshape : outcomes.shape = g.shape)
    (hvalues : outcomes.values.toList = g.values.toList.map Except.ok) : outcomes.collect = .ok g := by
  have houtcomes : outcomes.values.toList.mapM id = .ok g.values.toList := by
    rw [hvalues, List.mapM_map]
    exact (List.mapM_pure (f := id)).trans (congrArg Except.ok (List.map_id _))
  rw [collect, houtcomes, hshape]
  exact ofValues_self hcount

/-- The grid holds the number of each multi-index. -/
theorem get_counting {g : Grid Int} (h : counting shape = .ok g) {p : Index} (hp : p ∈ shape) :
    g.get p = .ok (shape.offset p) := by
  obtain ⟨n, hcount, -, rfl, hvalues⟩ := counting_eq_ok_iff.1 h
  have hlt : g.shape.offset p < n := Shape.pointCount_eq_ok hcount ▸ Shape.offset_lt_size hp
  apply get_eq_ok (Shape.size_lt_of_pointCount_eq_ok hcount)
  rw [element?_of_mem hp, ← Array.getElem?_toList, hvalues, List.getElem?_map, List.getElem?_range hlt]
  rfl

/-- Filling by the narrowed position of each multi-index makes the same grid. -/
theorem fillWith_positions_eq_counting {g : Grid Int} (h : counting shape = .ok g) :
    (do
      let outcomes ←
        fillWith 4 shape (fun (_ : Unit) p => (narrowCount <$> position shape.strides p, ())) ()
      outcomes.collect) = .ok g := by
  obtain ⟨n, hcount, hn, rfl, hvalues⟩ := counting_eq_ok_iff.1 h
  have hsize : n = g.shape.size := Shape.pointCount_eq_ok hcount
  have hbytes : n * 4 < byteBound := by
    rw [byteBound]
    omega
  have hstore : storeSize 4 g.shape = .ok n := storeSize_eq_ok_iff.2 ⟨hcount, hbytes⟩
  obtain ⟨outcomes, hfilled⟩ := exists_fillWith_eq_ok hstore
    (fun (_ : Unit) p => (narrowCount <$> position g.shape.strides p, ())) ()
  obtain ⟨hfit, hshape, calls, last, -, hcalls, hindices, hanswers⟩ :=
    exists_answers_of_fillWith_eq_ok hfilled
  rw [hfilled]
  apply collect_eq_ok hcount hshape
  rw [hanswers, hcalls.map_snd (f := fun p => narrowCount <$> position g.shape.strides p) fun _ _ => rfl,
    hindices, hvalues, hsize, ← Shape.map_offset_indices, List.map_map, List.map_map]
  apply List.map_congr_left
  intro p hp
  -- the position of a member is its number, which is below `2^31` like all of them
  have hp := Shape.mem_indices.1 hp
  have hlt : g.shape.offset p < 2147483648 := Nat.lt_trans (Shape.offset_lt_size hp) (hsize ▸ hn)
  rw [position_strides_eq_offset hp hfit]
  exact congrArg Except.ok (narrowCount_of_lt hlt)

/-- There is a grid exactly when the elements of the shape can be counted in a word and there are at most
`2^31 - 1` of them. It has the shape, it holds at each of its multi-indices the number of multi-indices of
the shape that come before it in lexicographic order, and it is the grid that is filled by the positions of
the multi-indices, narrowed like the count to four bytes each. For every other shape there is a fault: that
of the count, or that the store which has been made for what is left of the count is too short. -/
theorem counting_numbers_members (shape : Shape) :
    ((∃ g, counting shape = .ok g) ↔ ∃ n, shape.pointCount = .ok n ∧ n ≤ 2147483647) ∧
    (∀ g, counting shape = .ok g →
      g.shape = shape ∧
      (∀ p ∈ shape, g.get p = .ok ({q : Index | q ∈ shape ∧ q < p}.ncard : Int)) ∧
      (do
        let outcomes ←
          fillWith 4 shape (fun (_ : Unit) p => (narrowCount <$> position shape.strides p, ())) ()
        outcomes.collect) = .ok g) ∧
    (∀ e, counting shape = .error e → e.isReported = false) ∧
    ∀ e, counting shape = .error e ↔ shape.pointCount = .error e ∨
      ∃ n, shape.pointCount = .ok n ∧ 2147483647 < n ∧
        e = .countMismatch shape n (narrowCount n).toNat := by
  refine ⟨?_, ?_, onlyFaults_counting shape, fun e => counting_eq_error_iff⟩
  · constructor
    · rintro ⟨g, hg⟩
      obtain ⟨n, hcount, hn, -⟩ := counting_eq_ok_iff.1 hg
      exact ⟨n, hcount, Nat.le_of_lt_succ hn⟩
    · rintro ⟨n, hcount, hn⟩
      obtain ⟨g, hg, -⟩ := exists_counting_eq_ok hcount (Nat.lt_succ_of_le hn)
      exact ⟨g, hg⟩
  · intro g hg
    obtain ⟨n, -, -, hshape, -⟩ := counting_eq_ok_iff.1 hg
    refine ⟨hshape, ?_, fillWith_positions_eq_counting hg⟩
    intro p hp
    rw [get_counting hg hp, Shape.ncard_before hp]

/-- Two rows of three; a shape whose count is narrowed to 2; and one that cannot be counted. -/
theorem counting_numbers_members_narrowed :
    (∃ g, counting ⟨[2, 3]⟩ = .ok g ∧
      g.get [1, 0] = .ok ({q : Index | q ∈ (⟨[2, 3]⟩ : Shape) ∧ q < [1, 0]}.ncard : Int)) ∧
    narrowCount 4294967298 = 2 ∧
    counting ⟨[3, 1431655766]⟩ = .error (.countMismatch ⟨[3, 1431655766]⟩ 4294967298 2) ∧
    counting ⟨[9223372036854775808, 2, 0]⟩ = .error (.overflow .mul) := by
  refine ⟨?_, by decide, ?_, ?_⟩
  · obtain ⟨hmade, hheld, -⟩ := counting_numbers_members ⟨[2, 3]⟩
    obtain ⟨g, hg⟩ := hmade.2 ⟨6, rfl, by decide⟩
    exact ⟨g, hg, (hheld g hg).2.1 [1, 0] (by decide)⟩
  · obtain ⟨-, -, -, hfault⟩ := counting_numbers_members ⟨[3, 1431655766]⟩
    exact (hfault _).2 (Or.inr ⟨4294967298, by decide, by decide, rfl⟩)
  · obtain ⟨-, -, -, hfault⟩ := counting_numbers_members ⟨[9223372036854775808, 2, 0]⟩
    exact (hfault _).2 (Or.inl (by decide))

end Grid

end LatticeGrid
