import LatticeGrid.Proofs.Copy.CoveredBox
import LatticeGrid.Proofs.Copy.Region

/-!
# Copies one after the other

A window is filled from many chunks by one copy for each of them. `Grid.copyAll` carries out a list of
copies into one target. Each copy is described by what it brings to single multi-indices, so a whole
list is as well: at each multi-index stands what the last source brings that brings something
(`Grid.lastPlaced?`).

Two copies whose boxes in the target have no common point never bring a value to the same multi-index.
If this holds for every two copies of a list then the last source that brings a value is the only one,
and the order of the list does not matter.

Main statements: `Grid.exists_copyAll_eq_ok` and `Grid.element?_copyAll`.
-/

set_option autoImplicit false

namespace LatticeGrid

namespace Grid

variable {α : Type} {target : Grid α} {copies : List (Point × Grid α)} {t : Index}

/-- Copies the sources of a list, each of them placed at its offset, one after the other. -/
def copyAll (target : Grid α) (copies : List (Point × Grid α)) : Except (Failure × Grid α) (Grid α) :=
  copies.foldlM (fun g c => g.copyFrom c.1 c.2) target

/-- What the last source of a list brings to a multi-index, of those that bring something to it. -/
def lastPlaced? (copies : List (Point × Grid α)) (t : Index) : Option α :=
  copies.reverse.findSome? fun c => c.2.placed? c.1 t

/-- A source and its offset have the rank of the target, and the source has fewer than `2^63`
elements. -/
structure Placeable (rank : Nat) (c : Point × Grid α) : Prop where
  rank_offset : c.1.rank = rank
  rank_source : c.2.rank = rank
  size_lt : c.2.values.size < 2 ^ 63

theorem lastPlaced?_cons (c : Point × Grid α) (rest : List (Point × Grid α)) (t : Index) :
    lastPlaced? (c :: rest) t = (lastPlaced? rest t).or (c.2.placed? c.1 t) := by
  rw [lastPlaced?, List.reverse_cons, List.findSome?_append, List.findSome?_singleton]
  rfl

/-- A list of copies succeeds, and leaves at each multi-index what its last source brings there. -/
theorem exists_copyAll_eq_ok (htarget : target.values.size < 2 ^ 63)
    (hcopies : ∀ c ∈ copies, Placeable target.rank c) :
    ∃ result, target.copyAll copies = .ok result ∧ result.shape = target.shape ∧
      ∀ t ∈ target.shape, result.element? t = (lastPlaced? copies t).or (target.element? t) := by
  induction copies generalizing target with
  | nil =>
      refine ⟨target, rfl, rfl, ?_⟩
      intro t _
      exact Option.none_or.symm
  | cons c rest ih =>
      simp only [List.mem_cons, forall_eq_or_imp] at hcopies
      rcases hcopies with ⟨hc, hrest⟩
      have hs : c.2.rank = c.1.rank := hc.rank_source.trans hc.rank_offset.symm
      obtain ⟨g, hg, hcopy⟩ :=
        exists_copyFrom_eq_ok hs hc.rank_offset.symm hc.size_lt htarget
      -- the rest of the list starts from a grid of the same shape
      have hrank : g.rank = target.rank := congrArg Shape.rank hcopy.shape_eq
      have hsize : g.values.size < 2 ^ 63 := by
        rw [size_values_congr hcopy.shape_eq]
        exact htarget
      obtain ⟨result, hresult, hshape, helem⟩ := ih hsize (by rw [hrank]; exact hrest)
      refine ⟨result, ?_, hshape.trans hcopy.shape_eq, ?_⟩
      · rw [copyAll, List.foldlM_cons, hg]
        exact hresult
      · intro t ht
        rw [helem t (hcopy.shape_eq ▸ ht), hcopy.element?_eq t ht, lastPlaced?_cons,
          Option.or_assoc]

/-! ## Where the order does not matter -/

/-- If all sources that bring a value to a multi-index bring the same one, then the last of them brings
what any of them brings. -/
theorem lastPlaced?_eq_some_iff
    (hagree : ∀ c ∈ copies, ∀ d ∈ copies, ∀ v w, c.2.placed? c.1 t = some v →
      d.2.placed? d.1 t = some w → v = w) {v : α} :
    lastPlaced? copies t = some v ↔ ∃ c ∈ copies, c.2.placed? c.1 t = some v := by
  constructor
  · intro h
    obtain ⟨c, hc, hbrings⟩ := List.exists_of_findSome?_eq_some h
    exact ⟨c, List.mem_reverse.1 hc, hbrings⟩
  · rintro ⟨c, hc, hbrings⟩
    cases hlast : lastPlaced? copies t with
    | none =>
        have hnone := List.findSome?_eq_none_iff.1 hlast c (List.mem_reverse.2 hc)
        rw [hbrings] at hnone
        cases hnone
    | some w =>
        obtain ⟨d, hd, hbrings'⟩ := List.exists_of_findSome?_eq_some hlast
        rw [hagree d (List.mem_reverse.1 hd) c hc w v hbrings' hbrings]

/-- Two placed sources overlap the target in boxes that have no point in common. -/
def Apart (target : Shape) (c d : Point × Grid α) : Prop :=
  ∀ a b, Overlap.between c.1 c.2.shape target = .ok (some a) →
    Overlap.between d.1 d.2.shape target = .ok (some b) →
      ∀ p, ¬ (a.targetBox.contains p = .ok true ∧ b.targetBox.contains p = .ok true)

/-- Where a source brings a value, it overlaps the target in a box with that point. -/
theorem exists_targetBox_contains {c : Point × Grid α} (hc : Placeable target.rank c)
    (htarget : target.values.size < 2 ^ 63) (ht : t ∈ target.shape) {v : α}
    (hbrings : c.2.placed? c.1 t = some v) :
    ∃ o, Overlap.between c.1 c.2.shape target.shape = .ok (some o) ∧
      o.targetBox.contains ⟨coordsOf t⟩ = .ok true := by
  have hs : c.2.shape.rank = c.1.rank := hc.rank_source.trans hc.rank_offset.symm
  have hsource := hc.size_lt
  rw [size_values] at hsource htarget
  rcases placed?_eq_some_iff.1 hbrings with ⟨s, hplaced, hv⟩
  have hmem := mem_of_element?_eq_some hv
  rcases Overlap.exists_between_eq_ok hs hc.rank_offset.symm hsource htarget with
    ⟨-, hdisjoint⟩ | ⟨o, hsome, ho⟩
  · exact absurd hplaced (hdisjoint t ht s hmem)
  · obtain ⟨q, hq, rfl⟩ := ho.covers t ht s hmem hplaced
    exact ⟨o, hsome, Overlap.boxAt_contains ho.holdsTarget htarget hq⟩

/-- Sources whose boxes in the target are apart never bring values to one multi-index, unless they are
one and the same. -/
theorem agree_of_pairwise_apart (hcopies : ∀ c ∈ copies, Placeable target.rank c)
    (htarget : target.values.size < 2 ^ 63) (hapart : copies.Pairwise (Apart target.shape))
    (ht : t ∈ target.shape) :
    ∀ c ∈ copies, ∀ d ∈ copies, ∀ v w, c.2.placed? c.1 t = some v →
      d.2.placed? d.1 t = some w → v = w := by
  have hnever {c d : Point × Grid α} {v w : α} (hc : c ∈ copies) (hd : d ∈ copies)
      (hcd : Apart target.shape c d) (hv : c.2.placed? c.1 t = some v)
      (hw : d.2.placed? d.1 t = some w) : False := by
    obtain ⟨a, ha, hina⟩ := exists_targetBox_contains (hcopies c hc) htarget ht hv
    obtain ⟨b, hb, hinb⟩ := exists_targetBox_contains (hcopies d hd) htarget ht hw
    exact hcd a b ha hb _ ⟨hina, hinb⟩
  apply List.Pairwise.forall_of_forall_of_flip
  · intro c _ v w hv hw
    rw [hv] at hw
    exact Option.some.inj hw
  · apply hapart.imp_of_mem
    intro c d hc hd hcd v w hv hw
    exact (hnever hc hd hcd hv hw).elim
  · apply hapart.imp_of_mem
    intro c d hc hd hcd v w hv hw
    exact (hnever hc hd hcd hw hv).elim

/-- A list of copies of the rank of the target leaves at each multi-index what the last source brings
that brings something to it, and what was there before if there is no such source. If the boxes in
which the sources overlap the target are pairwise disjoint, then every order of the list gives the same
grid. -/
theorem element?_copyAll (target : Grid α) (copies : List (Point × Grid α))
    (htarget : target.values.size < 2 ^ 63) (hcopies : ∀ c ∈ copies, Placeable target.rank c) :
    (∃ result, target.copyAll copies = .ok result ∧ result.shape = target.shape ∧
      ∀ t ∈ target.shape, result.element? t = (lastPlaced? copies t).or (target.element? t)) ∧
    ∀ order : List (Point × Grid α), order.Perm copies → copies.Pairwise (Apart target.shape) →
      target.copyAll order = target.copyAll copies := by
  obtain ⟨result, hresult, hshape, helem⟩ := exists_copyAll_eq_ok htarget hcopies
  refine ⟨⟨result, hresult, hshape, helem⟩, ?_⟩
  intro order hperm hapart
  have horder : ∀ c ∈ order, Placeable target.rank c := by
    intro c hc
    exact hcopies c (hperm.mem_iff.1 hc)
  obtain ⟨result', hresult', hshape', helem'⟩ := exists_copyAll_eq_ok htarget horder
  rw [hresult, hresult']
  apply congrArg Except.ok
  apply ext_element? (hshape'.trans hshape.symm)
  intro t ht
  rw [hshape'] at ht
  rw [helem t ht, helem' t ht]
  -- both orders have the same sources that bring a value to this place
  have hagree := agree_of_pairwise_apart hcopies htarget hapart ht
  have hsame : lastPlaced? order t = lastPlaced? copies t := by
    apply Option.ext
    intro v
    rw [lastPlaced?_eq_some_iff hagree, lastPlaced?_eq_some_iff]
    · exact exists_congr fun c => and_congr_left fun _ => hperm.mem_iff
    · intro c hc d hd
      exact hagree c (hperm.mem_iff.1 hc) d (hperm.mem_iff.1 hd)
  rw [hsame]

/-- Two rows side by side in a row of four can be copied in either order. -/
theorem element?_copyAll_side_by_side :
    ∃ result, (⟨⟨[4]⟩, [1], #[0, 0, 0, 0], rfl, rfl⟩ : Grid Nat).copyAll
        [(⟨[Coord.clamp 0]⟩, ⟨⟨[2]⟩, [1], #[1, 2], rfl, rfl⟩),
          (⟨[Coord.clamp 2]⟩, ⟨⟨[1]⟩, [1], #[3], rfl, rfl⟩)] = .ok result ∧
      (⟨⟨[4]⟩, [1], #[0, 0, 0, 0], rfl, rfl⟩ : Grid Nat).copyAll
        [(⟨[Coord.clamp 2]⟩, ⟨⟨[1]⟩, [1], #[3], rfl, rfl⟩),
          (⟨[Coord.clamp 0]⟩, ⟨⟨[2]⟩, [1], #[1, 2], rfl, rfl⟩)] = .ok result ∧
      result.element? [1] = some 2 ∧ result.element? [2] = some 3 ∧ result.element? [3] = some 0 := by
  have hplaceable : ∀ c ∈ ([(⟨[Coord.clamp 0]⟩, ⟨⟨[2]⟩, [1], #[1, 2], rfl, rfl⟩),
      (⟨[Coord.clamp 2]⟩, ⟨⟨[1]⟩, [1], #[3], rfl, rfl⟩)] : List (Point × Grid Nat)), Placeable 1 c := by
    intro c hc
    simp only [List.mem_cons, List.not_mem_nil, or_false] at hc
    rcases hc with rfl | rfl
    · exact ⟨rfl, rfl, by decide⟩
    · exact ⟨rfl, rfl, by decide⟩
  obtain ⟨⟨result, hresult, -, helem⟩, horder⟩ :=
    element?_copyAll (⟨⟨[4]⟩, [1], #[0, 0, 0, 0], rfl, rfl⟩ : Grid Nat) _ (by decide) hplaceable
  refine ⟨result, hresult, (horder _ (List.Perm.swap ..) ?_).trans hresult, helem [1] (by decide),
    helem [2] (by decide), helem [3] (by decide)⟩
  apply List.pairwise_pair.2
  intro a b ha hb p hp
  obtain rfl : (⟨[0], [0], ⟨[2]⟩⟩ : Overlap) = a := Option.some.inj (Except.ok.inj ha)
  obtain rfl : (⟨[2], [0], ⟨[1]⟩⟩ : Overlap) = b := Option.some.inj (Except.ok.inj hb)
  -- the first box ends where the second one starts
  have hlt : p.AllLT ⟨[Coord.clamp 2]⟩ := ((Box.contains_eq_ok_true_iff rfl).1 hp.1).2
  have hle : Point.AllLE ⟨[Coord.clamp 2]⟩ p := ((Box.contains_eq_ok_true_iff rfl).1 hp.2).1
  rcases p with ⟨coords⟩
  obtain ⟨c, coords, rfl⟩ := List.exists_cons_of_length_eq_add_one hle.1.symm
  have hge := (Point.allLE_cons.1 hle).1
  exact Int.not_lt.2 hge (Point.allLT_cons.1 hlt).1

end Grid

end LatticeGrid
