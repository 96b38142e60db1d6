import LatticeGrid.Proofs.Grid.Construction
import LatticeGrid.Proofs.Grid.Element

/-!
# A grid filled by a function holds the answers to its calls

`Grid.fillWith` pushes what its function answers, in the order of a visit, and never looks at the position
that the visit hands out. `Answers` is the run of the function on its own: which multi-index each call is
made for, what it answers, and the state that goes from one call to the next. The visit of a whole array
goes through its multi-indices in row-major order, so the store that has been pushed together is the list of
these answers, and each of them stands at the position of the multi-index that it has been computed for.

Main statement: `Grid.fillWith_holds_answers`.
-/

set_option autoImplicit false

namespace LatticeGrid

namespace Grid

variable {α σ : Type}

/-! ## The calls of a function -/

/-- A run of calls of a function that carries a state: from the state before the first call, each with the
multi-index that it is made for and the value that it answers, to the state after the last one. -/
inductive Answers (filler : σ → Index → α × σ) : σ → List (Index × α) → σ → Prop
  | nil {state : σ} : Answers filler state [] state
  | cons {state last : σ} {p : Index} {calls : List (Index × α)} :
      Answers filler (filler state p).2 calls last →
        Answers filler state ((p, (filler state p).1) :: calls) last

section Calls

variable {width : Nat} {shape : Shape} {filler : σ → Index → α × σ} {state last : σ} {g : Grid α}

/-- Pushing one answer after the other appends the answers of a run of calls. -/
theorem exists_answers_of_foldl (filler : σ → Index → α × σ) (indices : List Index)
    (acc : Array α × σ) :
    ∃ calls, Answers filler acc.2 calls (indices.foldl (fun (acc : Array α × σ) p =>
        (acc.1.push (filler acc.2 p).1, (filler acc.2 p).2)) acc).2 ∧
      calls.map Prod.fst = indices ∧
      (indices.foldl (fun (acc : Array α × σ) p =>
        (acc.1.push (filler acc.2 p).1, (filler acc.2 p).2)) acc).1.toList =
          acc.1.toList ++ calls.map Prod.snd := by
  induction indices generalizing acc with
  | nil => exact ⟨[], .nil, rfl, (List.append_nil _).symm⟩
  | cons p indices ih =>
      obtain ⟨calls, hcalls, hindices, hvalues⟩ :=
        ih (acc.1.push (filler acc.2 p).1, (filler acc.2 p).2)
      refine ⟨(p, (filler acc.2 p).1) :: calls, .cons hcalls, congrArg (List.cons p) hindices, ?_⟩
      rw [List.foldl_cons, hvalues, Array.toList_push, List.append_assoc]
      rfl

/-- In a shape whose size is a word, the calls are made, one for each multi-index in row-major order, and
the store holds what they answer. -/
theorem exists_valuesOf_eq_ok (hfit : shape.size < Word.bound) (filler : σ → Index → α × σ) (state : σ) :
    ∃ values calls last, valuesOf shape filler state = .ok (values, last) ∧
      Answers filler state calls last ∧ calls.map Prod.fst = shape.indices ∧
      values.toList = calls.map Prod.snd := by
  obtain ⟨v, hv, hvisit⟩ := Visit.calls_whole hfit
  obtain ⟨calls, hcalls, hindices, hvalues⟩ :=
    exists_answers_of_foldl filler shape.indices (#[], state)
  refine ⟨_, calls, _, ?_, hcalls, hindices, hvalues⟩
  rw [valuesOf, hv]
  refine forget_eq_ok_iff.2 ((hvisit _ _ _).trans ?_)
  -- the position that comes with each multi-index is not looked at
  rw [Shape.zipIdx_indices, List.foldl_map]

/-- A shape that a store can be allocated for has a size that is a word, whatever an element takes. -/
theorem size_lt_of_storeSize_eq_ok {n : Nat} (h : storeSize width shape = .ok n) :
    shape.size < Word.bound := Shape.size_lt_of_pointCount_eq_ok (storeSize_eq_ok_iff.1 h).1

/-- Filling by a function succeeds as soon as the store can be allocated. -/
theorem exists_fillWith_eq_ok {n : Nat} (h : storeSize width shape = .ok n) (filler : σ → Index → α × σ)
    (state : σ) : ∃ g, fillWith width shape filler state = .ok g := by
  obtain ⟨values, calls, last, hvalues, -⟩ :=
    exists_valuesOf_eq_ok (size_lt_of_storeSize_eq_ok h) filler state
  exact ⟨⟨shape, shape.strides, values, rfl, size_of_valuesOf_eq_ok hvalues⟩,
    fillWith_eq_ok_iff.2 ⟨⟨n, h⟩, rfl, last, hvalues⟩⟩

/-- A grid that has been filled holds the answers of its calls, in the order of the calls. -/
theorem exists_answers_of_fillWith_eq_ok (h : fillWith width shape filler state = .ok g) :
    shape.size < Word.bound ∧ g.shape = shape ∧
      ∃ calls last, valuesOf shape filler state = .ok (g.values, last) ∧
        Answers filler state calls last ∧ calls.map Prod.fst = shape.indices ∧
        g.values.toList = calls.map Prod.snd := by
  obtain ⟨⟨n, hn⟩, hshape, last, hfilled⟩ := fillWith_eq_ok_iff.1 h
  have hfit := size_lt_of_storeSize_eq_ok hn
  obtain ⟨values, calls, last', hvalues, hcalls, hindices, hanswers⟩ :=
    exists_valuesOf_eq_ok hfit filler state
  -- both are the values of one and the same run
  cases hvalues.symm.trans hfilled
  exact ⟨hfit, hshape, calls, last, hvalues, hcalls, hindices, hanswers⟩

/-- The answer of each call stands where it belongs: at the number of the call in the store, which is the
position of the multi-index that the call has been made for. -/
theorem get_of_answers {calls : List (Index × α)} (hfit : g.shape.size < Word.bound)
    (hindices : calls.map Prod.fst = g.shape.indices) (hvalues : g.values.toList = calls.map Prod.snd)
    {i : Nat} {p : Index} {v : α} (hcall : calls[i]? = some (p, v)) :
    position g.strides p = .ok i ∧ g.getAt i = .ok v ∧ g.get p = .ok v := by
  have hp : g.shape.indices[i]? = some p := by rw [← hindices, List.getElem?_map, hcall]; rfl
  have hv : g.values[i]? = some v := by
    rw [← Array.getElem?_toList, hvalues, List.getElem?_map, hcall]
    rfl
  have hmem : p ∈ g.shape := Shape.mem_indices.1 (List.mem_of_getElem? hp)
  have hoffset : g.shape.offset p = i := Shape.offset_of_getElem?_indices hp
  have helement : g.element? p = some v := by rw [element?_of_mem hmem, hoffset, hv]
  have hgetAt := getAt_offset helement
  rw [hoffset] at hgetAt
  have hposition := position_strides_eq_offset hmem hfit
  rw [hoffset, ← g.strides_eq] at hposition
  exact ⟨hposition, hgetAt, get_eq_ok hfit helement⟩

/-- A function that always answers the same fills like its answer. -/
theorem fillWith_eq_fill {value : α} {h : Grid α} (hconst : ∀ s p, (filler s p).1 = value)
    (hg : fillWith width shape filler state = .ok g)
    (hh : fill width shape value = .ok h) : g = h := by
  obtain ⟨-, hshape, last, hvalues⟩ := fillWith_eq_ok_iff.1 hg
  obtain ⟨n, hn, hshape', hvalues'⟩ := fill_eq_ok_iff.1 hh
  apply Grid.ext (hshape.trans hshape'.symm)
  rw [hvalues', Array.eq_replicate_iff]
  constructor
  · rw [size_of_valuesOf_eq_ok hvalues, size_of_storeSize_eq_ok hn]
  · intro v hv
    obtain ⟨s, p, rfl⟩ := exists_call_of_mem_valuesOf hvalues v hv
    exact hconst s p

end Calls

/-! ## What the grid holds -/

/-- The visit of a whole array whose size is a word never fails, and hands out the positions 0, 1, 2, … in
this order. A grid is filled by a function, whatever state it carries, as soon as its store can be allocated.
Then the function has been called once for each multi-index of the shape and for nothing else, in
lexicographic order, and its state has gone from call to call; the store has as many values as the shape has
elements; and the answer of the call number `i` is the value at position `i`, which is the position of the
multi-index of that call, so reading that multi-index gives it. A function that always answers the same makes
the same grid as filling with that answer. -/
theorem fillWith_holds_answers (width : Nat) (shape : Shape) (filler : σ → Index → α × σ) (state : σ) :
    (shape.size < Word.bound → ∃ v, Visit.ofOrigin shape (List.replicate shape.rank 0) shape = .ok v ∧
      v.Calls shape.indices.zipIdx) ∧
    (∀ n, storeSize width shape = .ok n → ∃ g, fillWith width shape filler state = .ok g) ∧
    ∀ g, fillWith width shape filler state = .ok g →
      g.shape = shape ∧ g.values.size = shape.size ∧
      (∃ calls last, valuesOf shape filler state = .ok (g.values, last) ∧
        Answers filler state calls last ∧ (∀ p, p ∈ calls.map Prod.fst ↔ p ∈ shape) ∧
        (calls.map Prod.fst).Pairwise (· < ·) ∧ calls.length = shape.size ∧
        ∀ i p v, calls[i]? = some (p, v) →
          position g.strides p = .ok i ∧ g.getAt i = .ok v ∧ g.get p = .ok v) ∧
      ∀ value h, (∀ s p, (filler s p).1 = value) → fill width shape value = .ok h → g = h := by
  refine ⟨Visit.calls_whole, fun n hn => exists_fillWith_eq_ok hn filler state, ?_⟩
  intro g hg
  obtain ⟨hfit, rfl, calls, last, hrun, hcalls, hindices, hvalues⟩ :=
    exists_answers_of_fillWith_eq_ok hg
  refine ⟨rfl, g.size_values, ⟨calls, last, hrun, hcalls, ?_, ?_, ?_, ?_⟩, ?_⟩
  · intro p
    rw [hindices, Shape.mem_indices]
  · rw [hindices]
    exact g.shape.pairwise_lt_indices
  · rw [← Shape.length_indices, ← hindices, List.length_map]
  · intro i p v hcall
    exact get_of_answers hfit hindices hvalues hcall
  · intro value h hconst hfill
    exact fillWith_eq_fill hconst hg hfill

/-- A row of as many elements as a word can count is gone through to its end; and a function that counts its
calls fills two rows of two. -/
theorem fillWith_holds_answers_counted :
    (∃ v, Visit.ofOrigin ⟨[18446744073709551615]⟩ [0] ⟨[18446744073709551615]⟩ = .ok v ∧
      v.Calls (⟨[18446744073709551615]⟩ : Shape).indices.zipIdx) ∧
    ∃ g, fillWith 8 ⟨[2, 2]⟩ (fun (made : Nat) _ => (made, made + 1)) 0 = .ok g ∧
      ∃ calls last, Answers (fun (made : Nat) _ => (made, made + 1)) 0 calls last ∧ calls.length = 4 ∧
        ∀ i p v, calls[i]? = some (p, v) → g.getAt i = .ok v ∧ g.get p = .ok v := by
  constructor
  · exact (fillWith_holds_answers 0 ⟨[18446744073709551615]⟩ (fun (_ : Unit) _ => ((), ())) ()).1
      (by decide)
  · obtain ⟨-, hmade, hheld⟩ :=
      fillWith_holds_answers 8 ⟨[2, 2]⟩ (fun (made : Nat) _ => (made, made + 1)) 0
    obtain ⟨g, hg⟩ := hmade 4 (by decide)
    obtain ⟨-, -, ⟨calls, last, -, hcalls, -, -, hlength, hget⟩, -⟩ := hheld g hg
    exact ⟨g, hg, calls, last, hcalls, hlength, fun i p v hcall => (hget i p v hcall).2⟩

end Grid

end LatticeGrid
