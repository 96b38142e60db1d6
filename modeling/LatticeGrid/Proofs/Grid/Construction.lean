import LatticeGrid.Grid.Fill
import LatticeGrid.Proofs.Faults
import LatticeGrid.Proofs.Layout.Visit

/-!
# New grids have the right number of values

`Grid.ofValues` refuses a store that does not have one value for each element of the shape. It never has
to refuse a store that this library has made itself: a store filled with one value has been allocated for
the size of the shape, and a store that a function has filled, one value for each call, has as many values
because the function has been called once for each multi-index (`Grid.size_of_valuesOf_eq_ok`). So filling
fails only where the shape cannot be counted or allocated or walked through, and never reports.

Main statements: `Grid.fill_eq_ok_iff` and `Grid.fillWith_eq_ok_iff`, `Grid.onlyFaults_fill` and
`Grid.onlyFaults_fillWith`.
-/

set_option autoImplicit false

namespace LatticeGrid.Grid

variable {α : Type} {width : Nat} {shape : Shape} {values : Array α} {g : Grid α}

/-! ## Stores that are accepted -/

theorem ofValues_eq_ok_iff :
    ofValues shape values = .ok g ↔
      shape.pointCount? = some values.size ∧ g.shape = shape ∧ g.values = values := by
  constructor
  · intro h
    refine ⟨?_, ofValues_eq_ok h⟩
    unfold ofValues at h
    split at h
    · cases h
    · next count hcount =>
        split at h
        · next hsize => rw [hcount, hsize]
        · cases h
  · rintro ⟨hcount, rfl, rfl⟩
    unfold ofValues
    split
    · next hnone =>
        rw [hcount] at hnone
        cases hnone
    · next count hcount' =>
        rw [hcount] at hcount'
        -- the strides are those of the shape, so this is the grid that the store came from
        exact (dif_pos (Option.some.inj hcount').symm).trans (congrArg Except.ok (Grid.ext rfl rfl))

/-- A store of the right size for a shape that can be counted is accepted. -/
theorem ofValues_of_size_eq {n : Nat} (hcount : shape.pointCount = .ok n)
    (hsize : values.size = shape.size) :
    ofValues shape values = .ok ⟨shape, shape.strides, values, rfl, hsize⟩ := by
  refine ofValues_eq_ok_iff.2 ⟨?_, rfl, rfl⟩
  rw [Shape.pointCount?, hcount, Shape.pointCount_eq_ok hcount, hsize]
  rfl

/-- A grid whose elements can be counted is made again from its shape and its values. -/
theorem ofValues_self {n : Nat} (hcount : g.shape.pointCount = .ok n) :
    ofValues g.shape g.values = .ok g :=
  (ofValues_of_size_eq hcount g.size_values).trans (congrArg Except.ok (Grid.ext rfl rfl))

theorem storeSize_eq_ok_iff {n : Nat} :
    storeSize width shape = .ok n ↔ shape.pointCount = .ok n ∧ n * width < byteBound := by
  rw [storeSize, bind_eq_ok_iff]
  constructor
  · rintro ⟨count, hcount, h⟩
    split at h
    · next hlt =>
        cases h
        exact ⟨hcount, hlt⟩
    · cases h
  · rintro ⟨hcount, hlt⟩
    exact ⟨n, hcount, if_pos hlt⟩

theorem size_of_storeSize_eq_ok {n : Nat} (h : storeSize width shape = .ok n) : n = shape.size :=
  Shape.pointCount_eq_ok (storeSize_eq_ok_iff.1 h).1

theorem onlyFaults_storeSize (width : Nat) (shape : Shape) : OnlyFaults (storeSize width shape) := by
  apply OnlyFaults.bind (OnlyFaults.pointCount shape)
  intro count
  exact OnlyFaults.ite (OnlyFaults.ok count) (OnlyFaults.error rfl)

/-! ## One value everywhere -/

/-- Filling a store succeeds whenever the store can be allocated. -/
theorem fill_eq_ok_iff {value : α} :
    fill width shape value = .ok g ↔
      ∃ n, storeSize width shape = .ok n ∧ g.shape = shape ∧ g.values = Array.replicate n value := by
  rw [fill, bind_eq_ok_iff]
  refine exists_congr fun n => and_congr_right fun hn => ?_
  rw [ofValues_eq_ok_iff, Shape.pointCount?, (storeSize_eq_ok_iff.1 hn).1, Array.size_replicate]
  exact and_iff_right rfl

theorem onlyFaults_fill (width : Nat) (shape : Shape) (value : α) :
    OnlyFaults (fill width shape value) := by
  intro e h
  rcases bind_eq_error_iff.1 h with hstore | ⟨n, hn, hvalues⟩
  · exact onlyFaults_storeSize width shape e hstore
  · -- the store that has been allocated is never refused
    have hsize : (Array.replicate n value).size = shape.size := by
      rw [Array.size_replicate, size_of_storeSize_eq_ok hn]
    rw [ofValues_of_size_eq (storeSize_eq_ok_iff.1 hn).1 hsize] at hvalues
    cases hvalues

/-! ## One value for each call -/

section ValuesOf

variable {σ : Type} {filler : σ → Index → α × σ} {state last : σ}

/-- Each call adds one value to the store. -/
theorem size_foldl_filler (filler : σ → Index → α × σ) (indices : List Index) (acc : Array α × σ) :
    (indices.foldl (fun (acc : Array α × σ) p =>
      (acc.1.push (filler acc.2 p).1, (filler acc.2 p).2)) acc).1.size =
        acc.1.size + indices.length := by
  induction indices generalizing acc with
  | nil => rfl
  | cons p indices ih =>
      rw [List.foldl_cons, ih, Array.size_push, List.length_cons, Nat.add_assoc, Nat.add_comm 1]

/-- The store that a function fills has as many values as the shape has elements, before anything checks
their number. -/
theorem size_of_valuesOf_eq_ok (h : valuesOf shape filler state = .ok (values, last)) :
    values.size = shape.size := by
  obtain ⟨v, hv, hfold⟩ := bind_eq_ok_iff.1 h
  obtain ⟨haligned, rfl⟩ := Visit.aligned_of_ofOrigin_eq_ok hv
  obtain ⟨start, hcalls⟩ := Visit.exists_eq_foldl_of_fold_eq_ok haligned (forget_eq_ok_iff.1 hfold)
  have hsize := size_foldl_filler filler (shape.indices.map (addIndex (List.replicate shape.rank 0)))
    (#[], state)
  rw [List.foldl_map] at hsize
  have hvalues : values.size = 0 + _ := (congrArg (fun acc => acc.1.size) hcalls).trans hsize
  rw [hvalues, List.length_map, Shape.length_indices, Nat.zero_add]

/-- Every value of the store is the answer to some call. -/
theorem exists_call_of_mem_valuesOf (h : valuesOf shape filler state = .ok (values, last)) :
    ∀ value ∈ values, ∃ s p, value = (filler s p).1 := by
  obtain ⟨v, -, hfold⟩ := bind_eq_ok_iff.1 h
  have hpush : ∀ (acc : Array α × σ) (p : Index) (_ : Nat),
      (∀ value ∈ acc.1, ∃ s p, value = (filler s p).1) →
        ∀ value ∈ acc.1.push (filler acc.2 p).1, ∃ s p, value = (filler s p).1 := by
    intro acc p _ hacc value hvalue
    rcases Array.mem_push.1 hvalue with hvalue | rfl
    · exact hacc value hvalue
    · exact ⟨acc.2, p, rfl⟩
  have hstart : ∀ value ∈ (#[] : Array α), ∃ s p, value = (filler s p).1 := by
    intro value hvalue
    exact absurd hvalue (Array.not_mem_empty value)
  exact (Visit.endsIn_fold hpush v hstart).of_eq_ok (forget_eq_ok_iff.1 hfold)

/-- Filling a grid by a function succeeds whenever its store can be allocated and its multi-indices can
be gone through. -/
theorem fillWith_eq_ok_iff :
    fillWith width shape filler state = .ok g ↔
      (∃ n, storeSize width shape = .ok n) ∧ g.shape = shape ∧
        ∃ last, valuesOf shape filler state = .ok (g.values, last) := by
  rw [fillWith, bind_eq_ok_iff]
  constructor
  · rintro ⟨n, hn, h⟩
    obtain ⟨⟨values, last⟩, hvalues, hmade⟩ := bind_eq_ok_iff.1 h
    obtain ⟨hshape, rfl⟩ := ofValues_eq_ok hmade
    exact ⟨⟨n, hn⟩, hshape, last, hvalues⟩
  · rintro ⟨⟨n, hn⟩, rfl, last, hvalues⟩
    exact ⟨n, hn, bind_eq_ok_iff.2 ⟨_, hvalues, ofValues_self (storeSize_eq_ok_iff.1 hn).1⟩⟩

theorem onlyFaults_fillWith (width : Nat) (shape : Shape) (filler : σ → Index → α × σ) (state : σ) :
    OnlyFaults (fillWith width shape filler state) := by
  intro e h
  rcases bind_eq_error_iff.1 h with hstore | ⟨n, hn, h⟩
  · exact onlyFaults_storeSize width shape e hstore
  · rcases bind_eq_error_iff.1 h with hwalk | ⟨⟨values, last⟩, hvalues, hmade⟩
    · rcases bind_eq_error_iff.1 hwalk with horigin | ⟨v, -, hfold⟩
      · exact OnlyFaults.ite (OnlyFaults.ok _) (OnlyFaults.error rfl) e horigin
      · exact v.onlyFaults_fold _ _ e hfold
    · -- one value has been pushed for each multi-index, so the store is never refused
      have hmade' := ofValues_of_size_eq (storeSize_eq_ok_iff.1 hn).1 (size_of_valuesOf_eq_ok hvalues)
      cases hmade'.symm.trans hmade

end ValuesOf

end LatticeGrid.Grid
