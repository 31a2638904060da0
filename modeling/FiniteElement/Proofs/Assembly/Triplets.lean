import Mathlib
import FiniteElement.Proofs.Assembly.Collection

/-! # The triplets of an assembly

If no cell fails, the triplets collected for a matrix are those of the cells in
order. The serial assembler appends them cell by cell, the tasks of a parallel
assembly append those of their cells, and joining neighbours appends again.
-/

namespace FiniteElement

variable {α : Type}

def Workspace.triplets (workspace : Workspace α) : Except Fault (List (Triplet α)) := do
  let rows ← Index.entry workspace.argumentNodes 0
  let cols ← Index.entry workspace.argumentNodes 1
  Job.elementTriplets cols rows workspace.tensor.toList

theorem Job.addElementTriplets_eq (triplets : Array (Triplet α)) (workspace : Workspace α) :
    addElementTriplets triplets workspace =
      workspace.triplets.map fun own : List (Triplet α) => triplets ++ own := by
  simp only [addElementTriplets, Workspace.triplets, Checked.map_bind]
  rfl

variable [Scalar α]

namespace Assembly

variable {assembly : Assembly α} {fitted : Workspace α}

def cellTriplets (assembly : Assembly α) (cell : Nat) : Except Failure (List (Triplet α)) := do
  let fitted ← Failure.lift (({} : Workspace α).fitTo assembly.form)
  let (workspace, _) ← assembly.process fitted cell
  Failure.lift workspace.triplets

theorem addCell_matrix (numRows numCols : Nat) (hfitted : fitted.Fits assembly.form) {cell : Nat}
    {own : List (Triplet α)} (hown : assembly.cellTriplets cell = .ok own)
    (collected : Array (Triplet α)) :
    assembly.addCell (Job.matrix numRows numCols) fitted collected cell =
      .ok (collected ++ own) := by
  simp only [cellTriplets, Checked.bind_eq_ok_iff, Failure.lift_eq_ok_iff] at hown
  obtain ⟨fresh, hfresh, ⟨workspace, logged⟩, hprocess, htriplets⟩ := hown
  rw [assembly.process_congr (Workspace.fits_of_fitTo hfresh) hfitted] at hprocess
  rw [addCell, hprocess, Checked.ok_bind]
  change Failure.lift (Job.addElementTriplets collected workspace) = _
  rw [Job.addElementTriplets_eq, htriplets]
  rfl

theorem collect_matrix (numRows numCols : Nat) (hfitted : fitted.Fits assembly.form)
    {cells : List Nat} {own : Nat → List (Triplet α)}
    (hcells : ∀ cell ∈ cells, assembly.cellTriplets cell = .ok (own cell))
    (collected : Array (Triplet α)) :
    assembly.collect (Job.matrix numRows numCols) fitted collected cells =
      .ok (collected ++ cells.flatMap own) := by
  induction cells generalizing collected with
  | nil => simp [collect, pure, Except.pure]
  | cons cell cells ih =>
      have hrest := ih (fun other hother => hcells other (List.mem_cons_of_mem _ hother))
        (collected ++ own cell)
      rw [collect] at hrest
      rw [collect, List.foldlM_cons, addCell_matrix _ _ hfitted
        (hcells cell List.mem_cons_self), Checked.ok_bind, hrest, List.flatMap_cons]
      apply congrArg
      apply Array.ext'
      simp

theorem hasCoefficients_of_matrixJob {job : Job α (Array (Triplet α)) (SparseMatrix α)}
    (h : assembly.matrixJob = .ok job) : assembly.HasCoefficients := by
  rw [matrixJob, Checked.bind_eq_ok_iff] at h
  obtain ⟨sizes, hsizes, -⟩ := h
  exact hasCoefficients_of_prepare hsizes

theorem exists_matrixJob_eq {job : Job α (Array (Triplet α)) (SparseMatrix α)}
    (h : assembly.matrixJob = .ok job) :
    ∃ numRows numCols, job = Job.matrix numRows numCols := by
  simp only [matrixJob, Checked.bind_eq_ok_iff, Checked.pure_eq_ok_iff] at h
  obtain ⟨sizes, -, numRows, -, numCols, -, heq⟩ := h
  exact ⟨numRows, numCols, heq.symm⟩

end Assembly

/-! ## Serial and parallel walks -/

section Walks

variable {assembly : Assembly α} {own : Nat → List (Triplet α)}

theorem SerialAssembler.value_pass_matrix (numRows numCols : Nat)
    (hcoefficients : assembly.HasCoefficients) {fitted : Workspace α}
    (hfitted : fitted.Fits assembly.form) {room : Except Fault Nat} {words : Nat}
    (hroom : room = .ok words)
    (hcells : ∀ cell < assembly.mesh.numCells, assembly.cellTriplets cell = .ok (own cell)) :
    (pass assembly (Job.matrix numRows numCols) room fitted).value =
      .ok ((List.range assembly.mesh.numCells).flatMap own).toArray := by
  have hstart : Failure.lift (do discard room; (Job.matrix numRows numCols : Job α _ _).initial) =
      .ok #[] := by
    rw [hroom]
    rfl
  have hcollect := assembly.collect_matrix numRows numCols hfitted
    (fun cell hcell => hcells cell (List.mem_range.mp hcell)) #[]
  rw [pass, Pass.value_foldl hcoefficients hfitted _ hfitted, hstart, Checked.ok_bind, hcollect]
  simp

/-- The triplets of a pass make the matrix. -/
theorem SerialAssembler.result_assembleMatrix {assembler : SerialAssembler α} {form : Form α}
    {mesh : Mesh α} {coefficients : List (Array α)}
    {job : Job α (Array (Triplet α)) (SparseMatrix α)}
    (hjob : (assembler.assembly form mesh coefficients).matrixJob = .ok job)
    {fitted : Workspace α} (hfit : assembler.workspace.fitTo form = .ok fitted)
    {triplets : Array (Triplet α)}
    (hpass : (pass (assembler.assembly form mesh coefficients) job (tripletRoom form mesh)
      fitted).value = .ok triplets) :
    (assembler.assembleMatrix form mesh coefficients).1.result =
      Failure.lift (job.finish triplets) := by
  have hfit' : assembler.workspace.fitTo (assembler.assembly form mesh coefficients).form =
      .ok fitted := hfit
  simp only [assembleMatrix, hjob, runJob, hfit', hpass, Checked.ok_bind, withCompletion]
  cases job.finish triplets <;> rfl

/-- The tasks of a tree collect the triplets of their cells in order. -/
theorem ParallelAssembler.value_runTree_matrix (numRows numCols : Nat) {fitted : Workspace α}
    (hfit : ({} : Workspace α).fitTo assembly.form = .ok fitted)
    (workspaces : Nat → Workspace α) (tree : TaskTree)
    (hcells : ∀ cell ∈ tree.ranges.flatMap CellRange.walked,
      assembly.cellTriplets cell = .ok (own cell)) :
    (runTree assembly (Job.matrix numRows numCols) workspaces tree).value =
      .ok ((tree.ranges.flatMap CellRange.walked).flatMap own).toArray := by
  have hfitted := Workspace.fits_of_fitTo hfit
  induction tree with
  | task range =>
      rw [TaskTree.ranges, List.flatMap_singleton] at hcells ⊢
      have hcollect := assembly.collect_matrix numRows numCols hfitted hcells #[]
      have htask : (runTask assembly (Job.matrix numRows numCols) workspaces range).value =
          .ok ((#[] : Array (Triplet α)) ++ range.walked.flatMap own) := by
        rw [runTask, value_foldl hfitted (Workspace.exists_fitTo hfit)]
        exact hcollect
      rw [runTree, Partial.value_join rfl htask]
      simp [Job.matrix]
  | split left right ihleft ihright =>
      rw [TaskTree.ranges, List.flatMap_append] at hcells ⊢
      have hleft := ihleft fun cell hcell => hcells cell (List.mem_append_left _ hcell)
      have hright := ihright fun cell hcell => hcells cell (List.mem_append_right _ hcell)
      rw [runTree, Partial.value_join hleft hright, List.flatMap_append]
      simp [Job.matrix]

end Walks

end FiniteElement
