import LatticeGrid.Proofs.Grid.Element
import LatticeGrid.Proofs.Workspace.Runs

/-!
# Every grid of a workspace can be counted

The checked count of elements fails for some shapes that are empty, since a product may leave the word
before it comes to the axis of length 0. A grid is only ever made for a shape whose count succeeds, and no
write changes the shape, so the count of every grid in a workspace succeeds and is the size of its store.

Main statement: `Workspace.Counted.runAll`.
-/

set_option autoImplicit false

namespace LatticeGrid

variable {α : Type}

/-- The checked count of elements of the grid succeeds. It is then the size of the store. -/
def Grid.Counted (g : Grid α) : Prop := g.shape.pointCount? = some g.values.size

namespace Grid

variable {shape : Shape} {values : Array α} {g old : Grid α}

theorem counted_of_ofValues_eq_ok (h : ofValues shape values = .ok g) : g.Counted := by
  obtain ⟨hcount, rfl, rfl⟩ := ofValues_eq_ok_iff.1 h
  exact hcount

theorem counted_of_fill_eq_ok {width : Nat} {value : α} (h : fill width shape value = .ok g) :
    g.Counted := by
  obtain ⟨n, -, h⟩ := bind_eq_ok_iff.1 h
  exact counted_of_ofValues_eq_ok h

theorem counted_of_collect_eq_ok {outcomes : Grid (Except Failure α)}
    (h : outcomes.collect = .ok g) : g.Counted := by
  obtain ⟨vs, -, h⟩ := bind_eq_ok_iff.1 h
  exact counted_of_ofValues_eq_ok h

/-- Whether a grid can be counted is a matter of its shape. -/
theorem Counted.congr (h : old.Counted) (hshape : g.shape = old.shape) : g.Counted := by
  rw [Counted, size_values_congr hshape, hshape]
  exact h

end Grid

namespace Workspace

variable {w next : Workspace α} {c : Command α} {reply : Reply α} {g : Grid α}

/-- Every grid of the workspace can be counted. -/
def Counted (w : Workspace α) : Prop := ∀ name g, w.get? name = some g → g.Counted

theorem get?_erase_self (w : Workspace α) (name : String) : (w.erase name).get? name = none := by
  rw [get?, erase, List.lookup_eq_none_iff]
  intro entry hentry
  rw [bne_comm]
  exact (List.mem_filter.1 hentry).2

namespace Counted

theorem empty (width : Nat) : (empty width : Workspace α).Counted := by
  intro name g h
  cases h

theorem insert (h : w.Counted) (name : String) (hg : g.Counted) : (w.insert name g).Counted := by
  intro other g' hg'
  by_cases hname : other = name
  · rw [hname, get?_insert_self] at hg'
    cases hg'
    exact hg
  · rw [get?_insert_of_ne w g hname] at hg'
    exact h other g' hg'

theorem erase (h : w.Counted) (name : String) : (w.erase name).Counted := by
  intro other g hg
  by_cases hname : other = name
  · rw [hname, get?_erase_self] at hg
    cases hg
  · rw [get?_erase_of_ne w hname] at hg
    exact h other g hg

theorem written {name : String} {old : Grid α} (h : w.Counted) (hold : w.get? name = some old)
    (hshape : g.shape = old.shape) : (w.insert name g).Counted :=
  h.insert name ((h name old hold).congr hshape)

theorem of_keep_eq_ok {key : Option String} (h : w.Counted) (hg : g.Counted)
    (hkeep : w.keep key g = .ok (reply, next)) : next.Counted := by
  cases key with
  | none => cases hkeep
  | some name =>
      cases hkeep
      exact h.insert name hg

variable [BEq α]

/-- One command makes only grids that can be counted, and writes only shapes that are there. -/
theorem of_run_eq_ok (h : w.Counted) (hrun : w.run c = .ok (reply, next)) : next.Counted := by
  cases hrenews : c.renews with
  | none =>
      -- nothing can be renewed, so every shape was there before
      have hchange : Change w c next := (ends_run w c).of_eq_ok hrun
      cases hchange with
      | nothing => exact h
      | renewed g hkey => cases hrenews.symm.trans hkey
      | removed hkey => cases hrenews.symm.trans hkey
      | written hwrites hold hshape => exact h.written hold hshape
  | some name =>
      -- the five commands that renew a name, four of which make a grid
      cases c with
      | make name shape values =>
          obtain ⟨g, hg, hkeep⟩ := bind_eq_ok_iff.1 hrun
          exact h.of_keep_eq_ok (Grid.counted_of_ofValues_eq_ok (leaving_eq_ok_iff.1 hg)) hkeep
      | fill name shape value =>
          obtain ⟨g, hg, hkeep⟩ := bind_eq_ok_iff.1 hrun
          exact h.of_keep_eq_ok (Grid.counted_of_fill_eq_ok (leaving_eq_ok_iff.1 hg)) hkeep
      | fillWith name shape filler =>
          obtain ⟨outcomes, -, hrun⟩ := bind_eq_ok_iff.1 hrun
          obtain ⟨g, hg, hkeep⟩ := bind_eq_ok_iff.1 hrun
          exact h.of_keep_eq_ok (Grid.counted_of_collect_eq_ok (leaving_eq_ok_iff.1 hg)) hkeep
      | clone source name =>
          obtain ⟨g, hg, hkeep⟩ := bind_eq_ok_iff.1 hrun
          have hsource := find_eq_ok_iff.1 (leaving_eq_ok_iff.1 hg)
          exact h.of_keep_eq_ok (h source g hsource) hkeep
      | takeOut name =>
          obtain ⟨g, -, hrun⟩ := bind_eq_ok_iff.1 hrun
          cases hrun
          exact h.erase name
      | _ => cases hrenews

/-- A command that fails has at most written to shapes that are there. -/
theorem of_run_eq_error {e : Failure} {left : Workspace α} (h : w.Counted)
    (hrun : w.run c = .error (e, left)) : left.Counted := by
  have hleaves : Leaves w c e left := (ends_run w c).of_eq_error hrun
  cases hleaves with
  | nothing => exact h
  | stopped hfault hwrites hold hshape => exact h.written hold hshape

theorem attempt (h : w.Counted) (c : Command α) : (w.attempt c).2.Counted := by
  cases hrun : w.run c with
  | error failed =>
      rw [attempt_of_run_eq_error hrun]
      exact h.of_run_eq_error hrun
  | ok answer =>
      have hattempt : (w.attempt c).2 = answer.2 := by rw [Workspace.attempt, hrun]
      rw [hattempt]
      exact h.of_run_eq_ok hrun

/-- Every grid that a run of commands leaves can be counted. -/
theorem runAll (h : w.Counted) (commands : List (Command α)) : (w.runAll commands).2.Counted := by
  induction commands generalizing w with
  | nil => exact h
  | cons c rest ih =>
      rw [runAll_cons]
      exact ih (h.attempt c)

end Counted

end Workspace

end LatticeGrid
