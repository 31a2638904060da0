import Mathlib
import FiniteElement.Assembly.Parallel
import FiniteElement.Assembly.Serial
import FiniteElement.Proofs.Assembly.Workspace

/-! # What a walk over cells collects

Both assemblers walk lists of cells and keep a workspace that fits the form. As
a cell is computed alike in all of these, what a walk collects depends on its
cells alone.
-/

namespace FiniteElement

/-! ## Splitting the cells -/

namespace TaskTree

/-- The tasks split the first `count` cells in order, and none of them stops early. -/
def Covers (tree : TaskTree) (count : Nat) : Prop :=
  (∀ range ∈ tree.ranges, range.stopAfter = none) ∧ tree.cells = List.range count

theorem Covers.walked {tree : TaskTree} {count : Nat} (h : tree.Covers count) :
    tree.ranges.flatMap CellRange.walked = List.range count := by
  rw [← h.2, cells]
  apply List.flatMap_congr
  intro range hrange
  rw [CellRange.walked, h.1 range hrange]

theorem ranges_balanced (least first count : Nat) :
    (∀ range ∈ (balanced least first count).ranges, range.stopAfter = none) ∧
      (balanced least first count).cells = List.range' first count := by
  fun_induction balanced least first count with
  | case1 first count hsplit ihleft ihright =>
      obtain ⟨hleft, hleftCells⟩ := ihleft
      obtain ⟨hright, hrightCells⟩ := ihright
      refine ⟨?_, ?_⟩
      · intro range hrange
        rcases List.mem_append.mp hrange with hmem | hmem
        · exact hleft range hmem
        · exact hright range hmem
      · have hcount : count / 2 + (count - count / 2) = count := by omega
        have happend : List.range' first (count / 2) ++
            List.range' (first + count / 2) (count - count / 2) = List.range' first count := by
          rw [List.range'_append_1, hcount]
        rw [cells] at hleftCells hrightCells
        rw [cells, ranges, List.flatMap_append, hleftCells, hrightCells, happend]
  | case2 first count hwhole =>
      refine ⟨?_, ?_⟩
      · intro range hrange
        rw [List.mem_singleton.mp hrange]
      · rw [cells, ranges, List.flatMap_singleton, CellRange.cells]

end TaskTree

/-- Halving the cells covers them, whatever the least number of cells per task. -/
theorem ParallelAssembler.covers_schedule {α : Type} (assembler : ParallelAssembler)
    (mesh : Mesh α) : (assembler.schedule mesh).tree.Covers mesh.numCells := by
  obtain ⟨hranges, hcells⟩ := TaskTree.ranges_balanced
    (max assembler.options.minCellsPerTask 1) 0 mesh.numCells
  rw [← List.range_eq_range'] at hcells
  exact ⟨hranges, hcells⟩

variable {α σ τ : Type}

namespace Assembly

def HasCoefficients (assembly : Assembly α) : Prop :=
  assembly.coefficients.length = (assembly.form.dofMaps.drop assembly.form.rank).length

/-- A form that has passed the check has as many coefficients as spaces for them. -/
theorem hasCoefficients_of_prepare {assembly : Assembly α} {rank : Nat} {sizes : List Nat}
    (h : assembly.prepare rank = .ok sizes) : assembly.HasCoefficients := by
  rw [prepare, Checked.bind_eq_ok_iff] at h
  obtain ⟨_, hfit, -⟩ := h
  obtain ⟨hrank, hmaps, -⟩ := Form.checkFit_eq_ok hfit
  rw [HasCoefficients, List.length_drop, hmaps, hrank, Nat.add_sub_cancel_left]

end Assembly

variable [Scalar α]

namespace Assembly

theorem process_congr (assembly : Assembly α) {workspace workspace' : Workspace α}
    (h : workspace.Fits assembly.form) (h' : workspace'.Fits assembly.form) (cell : Nat) :
    assembly.process workspace cell = assembly.process workspace' cell := by
  rw [process, process, Workspace.computeCell_congr h h']

theorem fits_of_process {assembly : Assembly α} (hcoefficients : assembly.HasCoefficients)
    {workspace next : Workspace α} {cell : Nat} {logged : List Event}
    (h : workspace.Fits assembly.form)
    (hok : assembly.process workspace cell = .ok (next, logged)) : next.Fits assembly.form := by
  simp only [process, Checked.bind_eq_ok_iff, Checked.pure_eq_ok_iff, Prod.mk.injEq] at hok
  obtain ⟨computed, hcomputed, events, -, heq, -⟩ := hok
  rw [← heq]
  exact h.computeCell hcoefficients (Failure.lift_eq_ok_iff.mp hcomputed)

theorem fits_workspaceAfter {assembly : Assembly α} (hcoefficients : assembly.HasCoefficients)
    {workspace : Workspace α} (h : workspace.Fits assembly.form) (cell : Nat) :
    (assembly.workspaceAfter workspace cell).Fits assembly.form := by
  unfold workspaceAfter
  split
  · exact h
  · next next hnext => exact h.computeCell hcoefficients hnext

def addCell (assembly : Assembly α) (job : Job α σ τ) (fitted : Workspace α) (collected : σ)
    (cell : Nat) : Except Failure σ := do
  let (workspace, _) ← assembly.process fitted cell
  Failure.lift (job.accumulate collected workspace)

def collect (assembly : Assembly α) (job : Job α σ τ) (fitted : Workspace α) (collected : σ)
    (cells : List Nat) : Except Failure σ :=
  cells.foldlM (assembly.addCell job fitted) collected

end Assembly

/-! ## The serial walk -/

namespace Pass

variable {assembly : Assembly α} {job : Job α σ τ} {fitted : Workspace α}

theorem fits_step (hcoefficients : assembly.HasCoefficients) {pass : Pass α σ}
    (h : pass.workspace.Fits assembly.form) (cell : Nat) :
    (step assembly job pass cell).workspace.Fits assembly.form := by
  obtain ⟨value, events, workspace⟩ := pass
  cases value with
  | error failure => exact h
  | ok collected =>
    cases hprocess : assembly.process workspace cell with
    | error failure =>
      simp only [step, hprocess]
      exact Assembly.fits_workspaceAfter hcoefficients h cell
    | ok processed =>
      simp only [step, hprocess]
      exact Assembly.fits_of_process hcoefficients h hprocess

theorem value_step (hfitted : fitted.Fits assembly.form) {pass : Pass α σ}
    (h : pass.workspace.Fits assembly.form) (cell : Nat) :
    (step assembly job pass cell).value =
      pass.value >>= fun collected => assembly.addCell job fitted collected cell := by
  obtain ⟨value, events, workspace⟩ := pass
  cases value with
  | error failure => rfl
  | ok collected =>
    rw [Checked.ok_bind, Assembly.addCell, assembly.process_congr hfitted h]
    cases hprocess : assembly.process workspace cell with
    | error failure =>
      simp only [step, hprocess]
      rfl
    | ok processed => simp only [step, hprocess, Checked.ok_bind]

/-- A serial walk collects what its cells give in any fitting workspace. -/
theorem value_foldl (hcoefficients : assembly.HasCoefficients)
    (hfitted : fitted.Fits assembly.form) (cells : List Nat) {pass : Pass α σ}
    (h : pass.workspace.Fits assembly.form) :
    (cells.foldl (step assembly job) pass).value =
      pass.value >>= fun collected => assembly.collect job fitted collected cells := by
  induction cells generalizing pass with
  | nil =>
      cases hvalue : pass.value <;> rw [List.foldl_nil, hvalue] <;> rfl
  | cons cell cells ih =>
      have hstep : (step assembly job pass cell).value =
          pass.value >>= fun collected => assembly.addCell job fitted collected cell :=
        value_step hfitted h cell
      rw [List.foldl_cons, ih (fits_step hcoefficients h cell), hstep, bind_assoc]
      rfl

end Pass

/-! ## Tasks and trees of tasks -/

namespace ParallelAssembler

variable {assembly : Assembly α} {job : Job α σ τ} {fitted : Workspace α}
  {workspaces : Nat → Workspace α}

theorem value_step (hfitted : fitted.Fits assembly.form)
    (hfit : ∀ workspace : Workspace α, ∃ fitted', workspace.fitTo assembly.form = .ok fitted')
    (collected : Partial σ) (cell : Nat) :
    (step assembly job workspaces collected cell).value =
      collected.value >>= fun value => assembly.addCell job fitted value cell := by
  obtain ⟨value, events⟩ := collected
  cases value with
  | error failure => rfl
  | ok value =>
    obtain ⟨fitted', hfitted'⟩ := hfit (workspaces cell)
    have hsame := assembly.process_congr hfitted (Workspace.fits_of_fitTo hfitted') cell
    have hlift : Failure.lift (.ok fitted') = (.ok fitted' : Except Failure (Workspace α)) := rfl
    rw [Checked.ok_bind, Assembly.addCell, hsame]
    cases hprocess : assembly.process fitted' cell with
    | error failure =>
      simp only [step, hfitted', hlift, Checked.ok_bind, hprocess]
      rfl
    | ok processed => simp only [step, hfitted', hlift, Checked.ok_bind, hprocess]

/-- A task collects what its cells give in any fitting workspace. -/
theorem value_foldl (hfitted : fitted.Fits assembly.form)
    (hfit : ∀ workspace : Workspace α, ∃ fitted', workspace.fitTo assembly.form = .ok fitted')
    (cells : List Nat) (collected : Partial σ) :
    (cells.foldl (step assembly job workspaces) collected).value =
      collected.value >>= fun value => assembly.collect job fitted value cells := by
  induction cells generalizing collected with
  | nil =>
      cases hvalue : collected.value <;> rw [List.foldl_nil, hvalue] <;> rfl
  | cons cell cells ih =>
      rw [List.foldl_cons, ih, value_step hfitted hfit, bind_assoc]
      rfl

end ParallelAssembler

theorem Partial.value_join {combine : σ → σ → σ} {left right : Partial σ} {a b : σ}
    (hleft : left.value = .ok a) (hright : right.value = .ok b) :
    (Partial.join combine left right).value = .ok (combine a b) := by
  rw [Partial.join, hleft, hright]
end FiniteElement
