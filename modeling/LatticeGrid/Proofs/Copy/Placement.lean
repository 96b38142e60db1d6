import LatticeGrid.Copy.Placement
import LatticeGrid.Proofs.Grid.Element

/-!
# Placing a grid, axis by axis

`placedIndex?` subtracts an offset from a multi-index. This file gives its equation on one axis, what
that means for the value that a placed source brings to a multi-index (`Grid.placed?`), and how it
behaves when the roles of source and target are exchanged: subtracting the negated offset adds the
offset, also where the negation is held at the edge of the lattice.

Main statements: `placedIndex?_cons_eq_some_iff`, `Grid.placed?_eq_some_iff` and
`placedIndex?_saturatingNeg`.
-/

set_option autoImplicit false

namespace LatticeGrid

theorem placedIndex?_cons_eq_some_iff {o : Coord} {offset : List Coord} {n : Nat} {t s : Index} :
    placedIndex? (o :: offset) (n :: t) = some s ↔
      ∃ m s', s = m :: s' ∧ o.val + m = n ∧ placedIndex? offset t = some s' := by
  rw [placedIndex?]
  split
  · next hle =>
      rw [Option.map_eq_some_iff]
      constructor
      · rintro ⟨s', hs', rfl⟩
        exact ⟨_, s', rfl, by omega, hs'⟩
      · rintro ⟨m, s', rfl, hm, hs'⟩
        exact ⟨s', hs', by rw [show (n - o.val).toNat = m by omega]⟩
  · next hle =>
      constructor
      · intro h
        cases h
      · rintro ⟨m, s', -, hm, -⟩
        omega

theorem length_of_placedIndex?_eq_some {offset : List Coord} {t s : Index}
    (h : placedIndex? offset t = some s) : s.length = offset.length ∧ t.length = offset.length := by
  rcases placedIndex?_eq_some_iff.1 h with ⟨hlen, hsum⟩
  have ht := congrArg List.length hsum
  rw [List.length_zipWith, List.length_map, hlen, Nat.min_self] at ht
  exact ⟨hlen, ht.symm⟩

namespace Grid

variable {α : Type} {source : Grid α} {offset : Point} {t : Index}

theorem placed?_eq_some_iff {v : α} :
    source.placed? offset t = some v ↔
      ∃ s, placedIndex? offset.coords t = some s ∧ source.element? s = some v :=
  Option.bind_eq_some_iff

theorem placed?_of_placedIndex? {s : Index} (h : placedIndex? offset.coords t = some s) :
    source.placed? offset t = source.element? s := by
  rw [placed?, h, Option.bind_some]

/-- A placed source brings no value exactly where none of its multi-indices comes to lie. -/
theorem placed?_eq_none_iff :
    source.placed? offset t = none ↔
      ∀ s ∈ source.shape, placedIndex? offset.coords t ≠ some s := by
  constructor
  · intro h s hs hplaced
    obtain ⟨v, hv⟩ := exists_element?_eq_some hs
    rw [placed?_of_placedIndex? hplaced, hv] at h
    cases h
  · intro h
    cases hv : source.placed? offset t with
    | none => rfl
    | some v =>
        rcases placed?_eq_some_iff.1 hv with ⟨s, hplaced, helem⟩
        exact absurd hplaced (h s (mem_of_element?_eq_some helem))

end Grid

/-! ## The other direction -/

/-- Below the far edge of the lattice, the multi-index that the negated offset carries to `t` is the one
to which the offset carries `t`. -/
theorem placedIndex?_saturatingNeg {offset : List Coord} {t s : Index}
    (hfit : ∀ n ∈ t, n < 2 ^ 63 - 1) :
    placedIndex? (offset.map Coord.saturatingNeg) t = some s ↔ placedIndex? offset s = some t := by
  induction offset generalizing t s with
  | nil =>
      cases t with
      | nil => cases s <;> simp [placedIndex?]
      | cons n t => cases s <;> simp [placedIndex?]
  | cons o offset ih =>
      cases t with
      | nil =>
          constructor
          · intro h
            cases h
          · intro h
            cases (length_of_placedIndex?_eq_some h).1
      | cons n t =>
          simp only [List.mem_cons, forall_eq_or_imp] at hfit
          rcases hfit with ⟨hn, ht⟩
          -- the negation is held only for an offset that carries everything past the edge
          have haxis (m : Nat) : o.saturatingNeg.val + m = n ↔ o.val + n = m := by
            have hlow := o.lower
            have hupp := o.upper
            rw [Coord.saturatingNeg, Coord.val_clamp]
            omega
          rw [List.map_cons, placedIndex?_cons_eq_some_iff]
          constructor
          · rintro ⟨m, s', rfl, hm, hs'⟩
            rw [placedIndex?_cons_eq_some_iff]
            exact ⟨n, t, rfl, (haxis m).1 hm, (ih ht).1 hs'⟩
          · intro h
            cases s with
            | nil => cases h
            | cons m s =>
                rcases placedIndex?_cons_eq_some_iff.1 h with ⟨n', t', heq, hm, hs⟩
                rcases List.cons_eq_cons.1 heq with ⟨rfl, rfl⟩
                exact ⟨m, s, rfl, (haxis m).2 hm, (ih ht).2 hs⟩

end LatticeGrid
