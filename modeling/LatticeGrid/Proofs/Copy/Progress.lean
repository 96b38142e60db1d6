import LatticeGrid.Proofs.Copy.Placement

/-!
# How far a copy has come

A copy writes one element after the other. Between two writes the grid is described by the multi-indices
that have been written so far: these hold what the source brings to them, and all others hold what they
held at the start (`Progress`). One write adds one multi-index (`Progress.write`), a loop adds those of
its rounds (`Progress.exists_foldlM_eq_ok`), and a copy that has written every multi-index to which the
source brings a value is complete (`Progress.complete`).

The copy by rows and the copy by points both go through this description.
-/

set_option autoImplicit false

namespace LatticeGrid.Grid

variable {α : Type} {offset : Point} {source old : Grid α}

/-- The grid `g` has come out of `old` by copying the multi-indices in `done` from a placed source. -/
structure Progress (offset : Point) (source old : Grid α) (done : List Index) (g : Grid α) :
    Prop where
  shape_eq : g.shape = old.shape
  copied : ∀ t ∈ done, ∃ v, source.placed? offset t = some v ∧ g.element? t = some v
  kept : ∀ t, t ∉ done → g.element? t = old.element? t

/-- The elements of a complete copy are those that the source brings, and the old ones elsewhere. -/
structure IsCopy (offset : Point) (source old g : Grid α) : Prop where
  shape_eq : g.shape = old.shape
  element?_eq : ∀ t ∈ old.shape, g.element? t = (source.placed? offset t).or (old.element? t)

/-- A complete copy is unique. -/
theorem IsCopy.unique {a b : Grid α} (ha : IsCopy offset source old a)
    (hb : IsCopy offset source old b) : a = b := by
  apply ext_element? (ha.shape_eq.trans hb.shape_eq.symm)
  intro t ht
  rw [ha.shape_eq] at ht
  rw [ha.element?_eq t ht, hb.element?_eq t ht]

namespace Progress

variable {done : List Index} {g : Grid α}

theorem start (offset : Point) (source old : Grid α) : Progress offset source old [] old :=
  ⟨rfl, fun _ ht => absurd ht List.not_mem_nil, fun _ _ => rfl⟩

/-- Writing what the source brings to a multi-index adds that multi-index. -/
theorem write (h : Progress offset source old done g) {t s : Index} {v : α}
    (hplaced : placedIndex? offset.coords t = some s) (ht : t ∈ old.shape)
    (hv : source.element? s = some v) :
    Progress offset source old (done ++ [t]) (g.put (g.shape.offset t) v) := by
  have hmem : t ∈ g.shape := h.shape_eq ▸ ht
  have hbrings : source.placed? offset t = some v := placed?_eq_some_iff.2 ⟨s, hplaced, hv⟩
  refine ⟨h.shape_eq, ?_, ?_⟩
  · intro p hp
    rw [element?_put_offset hmem]
    -- the new place first, then those that the write leaves alone
    by_cases hpt : p = t
    · rw [if_pos hpt, hpt]
      exact ⟨v, hbrings, rfl⟩
    · rw [if_neg hpt]
      rcases List.mem_append.1 hp with hp | hp
      · exact h.copied p hp
      · exact absurd (List.mem_singleton.1 hp) hpt
  · intro p hp
    rw [List.mem_append, not_or, List.mem_singleton] at hp
    rw [element?_put_offset hmem, if_neg hp.2]
    exact h.kept p hp.1

/-- Copying from one flat position to another writes the multi-index that lies there. -/
theorem exists_setAt_eq_ok (h : Progress offset source old done g) {t s : Index}
    (hplaced : placedIndex? offset.coords t = some s) (ht : t ∈ old.shape) (hs : s ∈ source.shape) :
    ∃ next, leaving g (source.getAt (source.shape.offset s)) >>= g.setAt (old.shape.offset t) =
        .ok next ∧ Progress offset source old (done ++ [t]) next := by
  obtain ⟨v, hv⟩ := exists_element?_eq_some hs
  have hset := setAt_offset (g := g) (h.shape_eq ▸ ht) v
  refine ⟨_, ?_, h.write hplaced ht hv⟩
  rw [getAt_offset hv, ← h.shape_eq]
  exact hset

/-- A loop whose rounds each add some multi-indices adds all of them. -/
theorem exists_foldlM_eq_ok {β : Type} {step : Grid α → β → Except (Failure × Grid α) (Grid α)}
    {adds : β → List Index} {rounds : List β}
    (hstep : ∀ x ∈ rounds, ∀ done g, Progress offset source old done g →
      ∃ next, step g x = .ok next ∧ Progress offset source old (done ++ adds x) next)
    (h : Progress offset source old done g) :
    ∃ last, rounds.foldlM step g = .ok last ∧
      Progress offset source old (done ++ rounds.flatMap adds) last := by
  induction rounds generalizing done g with
  | nil =>
      refine ⟨g, rfl, ?_⟩
      rw [List.flatMap_nil, List.append_nil]
      exact h
  | cons x rounds ih =>
      simp only [List.mem_cons, forall_eq_or_imp] at hstep
      obtain ⟨next, hnext, hdone⟩ := hstep.1 done g h
      obtain ⟨last, hlast, hall⟩ := ih hstep.2 hdone
      refine ⟨last, ?_, ?_⟩
      · rw [List.foldlM_cons, hnext]
        exact hlast
      · rw [List.flatMap_cons, ← List.append_assoc]
        exact hall

/-- The copy is complete when nothing that the source brings has been left out. -/
theorem complete (h : Progress offset source old done g)
    (hall : ∀ t ∈ old.shape, ∀ v, source.placed? offset t = some v → t ∈ done) :
    IsCopy offset source old g := by
  refine ⟨h.shape_eq, ?_⟩
  intro t ht
  by_cases hdone : t ∈ done
  · obtain ⟨v, hbrings, helem⟩ := h.copied t hdone
    rw [helem, hbrings, Option.some_or]
  · rw [h.kept t hdone]
    cases hbrings : source.placed? offset t with
    | none => rw [Option.none_or]
    | some v => exact absurd (hall t ht v hbrings) hdone

end Progress

end LatticeGrid.Grid
