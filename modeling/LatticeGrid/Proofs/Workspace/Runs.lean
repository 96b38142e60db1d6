import LatticeGrid.Proofs.Grid.Construction
import LatticeGrid.Proofs.Grid.Writes
import LatticeGrid.Workspace

/-!
# What a run of commands keeps

A command that succeeds does one of four things to a workspace: nothing, putting a new grid under a name,
removing the grid of a name, or writing a grid, which keeps its shape (`Workspace.Change`). A command that
fails has done nothing, unless a fault has stopped it between two writes to the grid that it writes
(`Workspace.Leaves`). A reported failure is no fault, so it leaves the workspace as it was. Both come from one
lemma about a command (`Workspace.ends_run`), which is composed of what each write keeps.

So over a whole run a grid that is neither replaced nor removed keeps its shape and its strides, and one that
no command writes keeps its elements too.

Every grid has as many values as its shape has elements, and its stored strides are those of its shape, since a
`Grid` carries the proofs: what makes a grid has shown them, and what writes one hands them on. The operations
that make a grid check the number of values with `Grid.ofValues`; for a store that the library has made itself
the check never fails.

Main statement: `Workspace.runAll_invariant`.
-/

set_option autoImplicit false

namespace LatticeGrid

/-- The part of a grid that no write changes: its shape and the stored strides. -/
def Grid.layout {α : Type} (g : Grid α) : Shape × List Nat := (g.shape, g.strides)

theorem Grid.layout_of_shape_eq {α : Type} {g : Grid α} {shape : Shape} (h : g.shape = shape) :
    g.layout = (shape, stridesOf shape.lengths) := by
  rw [layout, g.strides_eq, h]
  rfl

namespace Command

variable {α : Type}

/-- The name under which a command makes a new grid or removes the one that is there. -/
def renews : Command α → Option String
  | make name .. | fill name .. | fillWith name .. | clone _ name => name
  | takeOut name => some name
  | _ => none

/-- The name of the grid that a command writes. -/
def writes : Command α → Option String
  | set name .. | setAt name .. | exchange name .. | reset name .. | fillRegion name .. => some name
  | copy _ target _ | copyPointwise _ target _ => some target
  | readChunk _ window _ => some window
  | writeWindow _ chunk _ => some chunk
  | _ => none

end Command

namespace Workspace

variable {α : Type} {w next left : Workspace α} {c : Command α} {name : String} {e : Failure}

/-! ## One command -/

/-- What a command can do to a workspace. -/
inductive Change (w : Workspace α) (c : Command α) : Workspace α → Prop
  /-- The workspace stays as it was. -/
  | nothing : Change w c w
  /-- A new grid has a name, in place of the one that had it. -/
  | renewed {name : String} (g : Grid α) : c.renews = some name → Change w c (w.insert name g)
  /-- The grid of a name is gone. -/
  | removed {name : String} : c.renews = some name → Change w c (w.erase name)
  /-- A grid has other values. -/
  | written {name : String} {old g : Grid α} : c.writes = some name → w.get? name = some old →
      g.shape = old.shape → Change w c (w.insert name g)

/-- What a command that fails can leave of a workspace. -/
inductive Leaves (w : Workspace α) (c : Command α) (e : Failure) : Workspace α → Prop
  /-- The workspace stays as it was. -/
  | nothing : Leaves w c e w
  /-- A fault has stopped the command after it has written some values of a grid. -/
  | stopped {name : String} {old g : Grid α} : e.isReported = false → c.writes = some name →
      w.get? name = some old → g.shape = old.shape → Leaves w c e (w.insert name g)

theorem Leaves.eq_of_isReported (h : Leaves w c e left) (he : e.isReported = true) : left = w := by
  cases h with
  | nothing => rfl
  | stopped hfault hwrites hold hshape =>
      rw [hfault] at he
      cases he

theorem Leaves.change (h : Leaves w c e left) : Change w c left := by
  cases h with
  | nothing => exact .nothing
  | stopped hfault hwrites hold hshape => exact .written hwrites hold hshape

/-- However a command ends, it has made one of its changes or leaves what a failure can leave. -/
def Ends {β : Type} (w : Workspace α) (c : Command α) :
    Except (Failure × Workspace α) (β × Workspace α) → Prop :=
  EndsIn (fun ran => Change w c ran.2) (Leaves w c)

/-- A step before the first write. -/
theorem endsIn_leaving {β : Type} (x : Except Failure β) :
    EndsIn (x = .ok ·) (Leaves w c) (leaving w x) :=
  EndsIn.leaving fun _ _ => .nothing

/-- A command that only answers leaves the workspace alone. -/
theorem ends_answer {β : Type} (x : Except Failure β) (answer : β → Reply α) :
    Ends w c (do return (answer (← leaving w x), w)) :=
  EndsIn.bind (endsIn_leaving x) fun _ _ => .nothing

theorem ends_keep {key : Option String} (hkey : c.renews = key) (g : Grid α) :
    Ends w c (w.keep key g) := by
  cases key with
  | none => exact Leaves.nothing
  | some name => exact Change.renewed g hkey

section Write

variable {β : Type} {update : Grid α → Except (Failure × Grid α) (Grid α)}
  {change : Grid α → Except (Failure × Grid α) (β × Grid α)}

/-- A write that is refused puts back the grid that it has got, so that the workspace is the one before. -/
theorem ends_write (hwrites : c.writes = some name)
    (hchange : ∀ g, EndsIn (·.2.shape = g.shape) (Grid.AfterFailure g) (change g)) :
    Ends w c (w.write name change) := by
  apply EndsIn.bind (endsIn_leaving (w.find name))
  intro old hold
  have hold : w.get? name = some old := find_eq_ok_iff.1 hold
  split
  · next answer g hok =>
      exact Change.written hwrites hold ((hchange old).of_eq_ok hok)
  · next e g herror =>
      obtain ⟨hshape, hback⟩ := (hchange old).of_eq_error herror
      cases hreported : e.isReported with
      | true =>
          have hsame : w.insert name g = w := insert_of_get?_eq_some (hback hreported ▸ hold)
          show Leaves w c e (w.insert name g)
          rw [hsame]
          exact .nothing
      | false => exact Leaves.stopped hreported hwrites hold hshape

theorem ends_update (hwrites : c.writes = some name)
    (hupdate : ∀ g, EndsIn (·.shape = g.shape) (Grid.AfterFailure g) (update g)) :
    Ends w c (w.update name update) :=
  ends_write hwrites fun g => EndsIn.bind (hupdate g) fun _ hshape => hshape

/-- The source of a copy is read before the target is written. -/
theorem ends_copy {copy : Grid α → Grid α → Except (Failure × Grid α) (Grid α)}
    (hwrites : c.writes = some name) (source : String)
    (hcopy : ∀ a b, EndsIn (·.shape = b.shape) (Grid.AfterFailure b) (copy a b)) :
    Ends w c (do
      let a ← leaving w (w.find source)
      w.update name (copy a)) :=
  EndsIn.bind (endsIn_leaving _) fun a _ => ends_update hwrites (hcopy a)

end Write

/-- One command, by what it is composed of. -/
theorem ends_run [BEq α] (w : Workspace α) (c : Command α) : Ends w c (w.run c) := by
  cases c with
  | make name shape values =>
      exact EndsIn.bind (endsIn_leaving _) fun g _ => ends_keep rfl g
  | fill name shape value =>
      exact EndsIn.bind (endsIn_leaving _) fun g _ => ends_keep rfl g
  | fillWith name shape filler =>
      apply EndsIn.bind (endsIn_leaving _)
      intro outcomes _
      exact EndsIn.bind (endsIn_leaving _) fun g _ => ends_keep rfl g
  | clone source name =>
      exact EndsIn.bind (endsIn_leaving _) fun g _ => ends_keep rfl g
  | takeOut name =>
      exact EndsIn.bind (endsIn_leaving _) fun _ _ => Change.removed rfl
  | describe name => exact ends_answer _ _
  | compare a b => exact EndsIn.bind (endsIn_leaving _) fun ga _ => ends_answer _ _
  | contains name p => exact ends_answer _ _
  | get name p => exact ends_answer _ _
  | lookup name p => exact ends_answer _ _
  | getAt name position => exact ends_answer _ _
  | set name p value => exact ends_update rfl fun g => (Grid.keepsShape_set rfl p value).endsIn
  | setAt name position value =>
      exact ends_update rfl fun g => (Grid.keepsShape_setAt rfl position value).endsIn
  | exchange name p value =>
      apply ends_write rfl
      intro g
      have hexchange := (Grid.endsIn_exchange (g := g) rfl p value).mono (fun _ hshape => hshape)
        fun _ _ => Grid.afterFailure_of_afterFault
      exact EndsIn.bind hexchange fun _ hshape => hshape
  | reset name value => exact ends_update rfl fun g => Grid.shape_reset g value
  | fillRegion name box value => exact ends_update rfl fun g => Grid.endsIn_fillRegion g box value
  | copy source target offset => exact ends_copy rfl source (Grid.endsIn_copyFrom offset)
  | readChunk chunk window origin =>
      exact ends_copy rfl chunk (Grid.endsIn_copyFrom origin.saturatingNeg)
  | writeWindow window chunk origin => exact ends_copy rfl window (Grid.endsIn_copyFrom origin)
  | copyPointwise source target offset =>
      exact ends_copy rfl source fun g target => (Grid.keepsShape_copyPointwise offset g target).endsIn

theorem change_attempt [BEq α] (w : Workspace α) (c : Command α) : Change w c (w.attempt c).2 := by
  have hends := ends_run w c
  cases h : w.run c with
  | error failed =>
      rw [attempt_of_run_eq_error h]
      exact (hends.of_eq_error h).change
  | ok answer =>
      have hattempt : (w.attempt c).2 = answer.2 := by rw [attempt, h]
      rw [hattempt]
      exact hends.of_eq_ok h

/-! ## The frame -/

/-- A grid that a command neither replaces nor removes nor writes stays the same. -/
theorem Change.get?_eq (h : Change w c next) (hrenews : c.renews ≠ some name)
    (hwrites : c.writes ≠ some name) : next.get? name = w.get? name := by
  cases h with
  | nothing => rfl
  | renewed g hkey => exact get?_insert_of_ne w g fun heq => hrenews (heq ▸ hkey)
  | removed hkey => exact get?_erase_of_ne w fun heq => hrenews (heq ▸ hkey)
  | written hkey hold hshape => exact get?_insert_of_ne w _ fun heq => hwrites (heq ▸ hkey)

/-- With other values in one of its grids, a workspace has grids of the same layouts. -/
theorem map_layout_get?_insert {key : String} {old g : Grid α} (hold : w.get? key = some old)
    (hshape : g.shape = old.shape) (name : String) :
    ((w.insert key g).get? name).map Grid.layout = (w.get? name).map Grid.layout := by
  by_cases hname : name = key
  · rw [hname, get?_insert_self, hold, Option.map_some, Option.map_some, Grid.layout_of_shape_eq hshape,
      Grid.layout_of_shape_eq rfl]
  · rw [get?_insert_of_ne w g hname]

/-- A grid that a command neither replaces nor removes keeps its layout. -/
theorem Change.map_layout_get?_eq (h : Change w c next) (hrenews : c.renews ≠ some name) :
    (next.get? name).map Grid.layout = (w.get? name).map Grid.layout := by
  cases h with
  | nothing => rfl
  | renewed g hkey =>
      exact congrArg (Option.map Grid.layout) (get?_insert_of_ne w g fun heq => hrenews (heq ▸ hkey))
  | removed hkey =>
      exact congrArg (Option.map Grid.layout) (get?_erase_of_ne w fun heq => hrenews (heq ▸ hkey))
  | written hkey hold hshape => exact map_layout_get?_insert hold hshape name

/-- A command that fails neither replaces nor removes a grid, and only ever writes the one that it is asked
to write. -/
theorem Leaves.frame (h : Leaves w c e left) (name : String) :
    (left.get? name).map Grid.layout = (w.get? name).map Grid.layout ∧
      (c.writes ≠ some name → left.get? name = w.get? name) := by
  cases h with
  | nothing => exact ⟨rfl, fun _ => rfl⟩
  | stopped hfault hkey hold hshape =>
      refine ⟨map_layout_get?_insert hold hshape name, fun hwrites => ?_⟩
      exact get?_insert_of_ne w _ fun heq => hwrites (heq ▸ hkey)

/-! ## Runs -/

section Runs

variable [BEq α]

theorem runAll_cons (w : Workspace α) (c : Command α) (rest : List (Command α)) :
    (w.runAll (c :: rest)).2 = ((w.attempt c).2.runAll rest).2 := rfl

theorem get?_runAll (w : Workspace α) {commands : List (Command α)}
    (h : ∀ c ∈ commands, c.renews ≠ some name ∧ c.writes ≠ some name) :
    (w.runAll commands).2.get? name = w.get? name := by
  induction commands generalizing w with
  | nil => rfl
  | cons c rest ih =>
      simp only [List.mem_cons, forall_eq_or_imp] at h
      rw [runAll_cons, ih _ h.2]
      exact (change_attempt w c).get?_eq h.1.1 h.1.2

theorem map_layout_get?_runAll (w : Workspace α) {commands : List (Command α)}
    (h : ∀ c ∈ commands, c.renews ≠ some name) :
    ((w.runAll commands).2.get? name).map Grid.layout = (w.get? name).map Grid.layout := by
  induction commands generalizing w with
  | nil => rfl
  | cons c rest ih =>
      simp only [List.mem_cons, forall_eq_or_imp] at h
      rw [runAll_cons, ih _ h.2]
      exact (change_attempt w c).map_layout_get?_eq h.1

/-- Over every run of commands, of which each may fail and the next one goes on with what it leaves: every
grid has as many values as its shape has elements, and the strides that are stored with it are those of its
shape; a grid that no command replaces or removes keeps its shape and its strides; one that no command
writes either stays the same. After the run a command whose failure is a reported one leaves the whole
workspace as it was; one that has a fault replaces and removes nothing, keeps every shape, and leaves every
grid but the one that it writes. A new grid has the shape that is asked for, the strides of that shape, and
the values that are given for it, or one value everywhere, or what a function has computed; of the last two
there is the right number before anything checks it, so neither is ever refused. Two grids are equal exactly
when their shapes and their values are, though their stored strides are compared too. -/
theorem runAll_invariant (w : Workspace α) (commands : List (Command α)) :
    (∀ name g, (w.runAll commands).2.get? name = some g →
      g.values.size = g.shape.lengths.foldr (· * ·) 1 ∧ g.strides = stridesOf g.shape.lengths) ∧
    (∀ name, (∀ c ∈ commands, c.renews ≠ some name) →
      ((w.runAll commands).2.get? name).map Grid.layout = (w.get? name).map Grid.layout) ∧
    (∀ name, (∀ c ∈ commands, c.renews ≠ some name ∧ c.writes ≠ some name) →
      (w.runAll commands).2.get? name = w.get? name) ∧
    (∀ c e left, (w.runAll commands).2.run c = .error (e, left) →
      (w.runAll commands).2.attempt c = (.error e, left) ∧
      (e.isReported = true → left = (w.runAll commands).2) ∧
      ∀ name, (left.get? name).map Grid.layout = ((w.runAll commands).2.get? name).map Grid.layout ∧
        (c.writes ≠ some name → left.get? name = (w.runAll commands).2.get? name)) ∧
    (∀ (shape : Shape) (values : Array α) (g : Grid α), Grid.ofValues shape values = .ok g →
      g.layout = (shape, stridesOf shape.lengths) ∧ g.values = values) ∧
    (∀ (width : Nat) (shape : Shape) (value : α), OnlyFaults (Grid.fill width shape value) ∧
      ∀ g, Grid.fill width shape value = .ok g →
        g.layout = (shape, stridesOf shape.lengths) ∧ g.values = Array.replicate shape.size value) ∧
    (∀ (σ : Type) (width : Nat) (shape : Shape) (filler : σ → Index → α × σ) (state : σ),
      OnlyFaults (Grid.fillWith width shape filler state) ∧
      (∀ g, Grid.fillWith width shape filler state = .ok g → g.layout = (shape, stridesOf shape.lengths) ∧
        ∃ last, Grid.valuesOf shape filler state = .ok (g.values, last)) ∧
      ∀ values last, Grid.valuesOf shape filler state = .ok (values, last) → values.size = shape.size) ∧
    ∀ a b : Grid α, (a == b) = true ↔ a.shape = b.shape ∧ (a.values == b.values) = true := by
  refine ⟨?_, fun name => map_layout_get?_runAll w, fun name => get?_runAll w, ?_, ?_, ?_, ?_, ?_⟩
  · intro name g _
    exact ⟨g.size_values, g.strides_eq⟩
  · intro c e left h
    have hleaves : Leaves (w.runAll commands).2 c e left := (ends_run _ c).of_eq_error h
    exact ⟨attempt_of_run_eq_error h, hleaves.eq_of_isReported, hleaves.frame⟩
  · intro shape values g h
    obtain ⟨hshape, hvalues⟩ := Grid.ofValues_eq_ok h
    exact ⟨Grid.layout_of_shape_eq hshape, hvalues⟩
  · intro width shape value
    refine ⟨Grid.onlyFaults_fill width shape value, ?_⟩
    intro g h
    obtain ⟨n, hn, hshape, hvalues⟩ := Grid.fill_eq_ok_iff.1 h
    rw [Grid.size_of_storeSize_eq_ok hn] at hvalues
    exact ⟨Grid.layout_of_shape_eq hshape, hvalues⟩
  · intro σ width shape filler state
    refine ⟨Grid.onlyFaults_fillWith width shape filler state, ?_, ?_⟩
    · intro g h
      obtain ⟨-, hshape, hvalues⟩ := Grid.fillWith_eq_ok_iff.1 h
      exact ⟨Grid.layout_of_shape_eq hshape, hvalues⟩
    · intro values last h
      exact Grid.size_of_valuesOf_eq_ok h
  · intro a b
    exact Grid.beq_iff

end Runs

/-- A grid is written, another one is made beside it, and a box of another rank is refused after that. -/
theorem runAll_invariant_beside :
    (∃ g, ((⟨[("a", ⟨⟨[2]⟩, [1], #[0, 0], rfl, rfl⟩)], 8⟩ : Workspace Nat).runAll
        [.setAt "a" 1 9, .fill (some "b") ⟨[1, 3]⟩ 5]).2.get? "b" = some g ∧ g.values.size = 3 ∧
        g.strides = [3, 1]) ∧
    (((⟨[("a", ⟨⟨[2]⟩, [1], #[0, 0], rfl, rfl⟩)], 8⟩ : Workspace Nat).runAll
        [.setAt "a" 1 9, .fill (some "b") ⟨[1, 3]⟩ 5]).2.get? "a").map Grid.layout =
      some (⟨[2]⟩, [1]) ∧
    ((⟨[("a", ⟨⟨[2]⟩, [1], #[0, 0], rfl, rfl⟩)], 8⟩ : Workspace Nat).runAll
        [.fill (some "b") ⟨[1, 3]⟩ 5]).2.get? "a" = some ⟨⟨[2]⟩, [1], #[0, 0], rfl, rfl⟩ ∧
    ∃ left, ((⟨[("a", ⟨⟨[2]⟩, [1], #[0, 0], rfl, rfl⟩)], 8⟩ : Workspace Nat).runAll
        [.setAt "a" 1 9]).2.run (.fillRegion "a" ⟨⟨[]⟩, ⟨[]⟩⟩ 7) = .error (.rankMismatch 0 1, left) ∧
      left = ⟨[("a", ⟨⟨[2]⟩, [1], #[0, 9], rfl, rfl⟩)], 8⟩ := by
  refine ⟨?_, ?_, ?_, ?_⟩
  · obtain ⟨hgrids, -⟩ := runAll_invariant
      (⟨[("a", ⟨⟨[2]⟩, [1], #[0, 0], rfl, rfl⟩)], 8⟩ : Workspace Nat)
      [.setAt "a" 1 9, .fill (some "b") ⟨[1, 3]⟩ 5]
    have hb : _ = some (⟨⟨[1, 3]⟩, [3, 1], #[5, 5, 5], rfl, rfl⟩ : Grid Nat) := rfl
    exact ⟨_, hb, hgrids "b" _ hb⟩
  · exact (runAll_invariant (⟨[("a", ⟨⟨[2]⟩, [1], #[0, 0], rfl, rfl⟩)], 8⟩ : Workspace Nat)
      [.setAt "a" 1 9, .fill (some "b") ⟨[1, 3]⟩ 5]).2.1 "a" (by decide)
  · exact (runAll_invariant (⟨[("a", ⟨⟨[2]⟩, [1], #[0, 0], rfl, rfl⟩)], 8⟩ : Workspace Nat)
      [.fill (some "b") ⟨[1, 3]⟩ 5]).2.2.1 "a" (by decide)
  · obtain ⟨-, -, -, hfailed, -⟩ := runAll_invariant
      (⟨[("a", ⟨⟨[2]⟩, [1], #[0, 0], rfl, rfl⟩)], 8⟩ : Workspace Nat) [.setAt "a" 1 9]
    obtain ⟨-, hkept, -⟩ := hfailed (.fillRegion "a" ⟨⟨[]⟩, ⟨[]⟩⟩ 7) (.rankMismatch 0 1) _ rfl
    exact ⟨_, rfl, hkept rfl⟩

end Workspace

end LatticeGrid
