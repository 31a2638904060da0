import Mathlib
import FiniteElement.Proofs.Assembly.Collection
import FiniteElement.Proofs.Assembly.MatrixEntries

/-! # Jobs that do not fail

A job is safe if its collections keep an invariant from which the next computed
cell can be added and the result can be made. A safe job comes to its result in
every serial pass and for every split of the cells into tasks, as long as the
cells themselves are computed.
-/

namespace FiniteElement

variable {α σ τ : Type}

/-- The job starts in an invariant, keeps it and can finish from it. `Cell` is what it relies on of
the workspace of a computed cell. -/
structure Job.Safe (job : Job α σ τ) (Cell : Workspace α → Prop) (Inv : σ → Prop) : Prop where
  initial : ∃ start, job.initial = .ok start ∧ Inv start
  accumulate : ∀ collected workspace, Inv collected → Cell workspace →
    ∃ next, job.accumulate collected workspace = .ok next ∧ Inv next
  combine : ∀ left right, Inv left → Inv right → Inv (job.combine left right)
  finish : ∀ collected, Inv collected → ∃ result, job.finish collected = .ok result

variable [Scalar α]

/-! ## The three jobs -/

namespace Job

theorem safe_scalar :
    (scalar : Job α α α).Safe (fun workspace => 0 < workspace.tensor.size) fun _ => True where
  initial := ⟨Scalar.zero, rfl, trivial⟩
  accumulate := by
    intro collected workspace _ hsize
    refine ⟨collected + workspace.tensor[0], ?_, trivial⟩
    change (Index.slot workspace.tensor 0 >>= fun value => .ok (collected + value)) = _
    rw [Index.slot_of_lt hsize, Checked.ok_bind]
  combine := fun _ _ _ _ => trivial
  finish := fun collected _ => ⟨collected, rfl⟩

theorem addAt_of_lt {vector : Array α} {node : Nat} (h : node < vector.size) (value : α) :
    addAt vector node value = .ok (vector.modify node (· + value)) := if_pos h

theorem exists_foldlM_addAt (entries : List (Nat × α)) {vector : Array α}
    (h : ∀ entry ∈ entries, entry.1 < vector.size) :
    ∃ next, entries.foldlM (fun vector (node, value) => addAt vector node value) vector =
      .ok next ∧ next.size = vector.size := by
  induction entries generalizing vector with
  | nil => exact ⟨vector, rfl, rfl⟩
  | cons entry entries ih =>
      have hfirst := addAt_of_lt (h entry List.mem_cons_self) entry.2
      have hsize : (vector.modify entry.1 (· + entry.2)).size = vector.size :=
        Array.size_modify
      have hrest : ∀ other ∈ entries, other.1 < (vector.modify entry.1 (· + entry.2)).size := by
        intro other hother
        rw [hsize]
        exact h other (List.mem_cons_of_mem _ hother)
      obtain ⟨next, hnext, hlength⟩ := ih hrest
      refine ⟨next, ?_, hlength.trans hsize⟩
      rw [List.foldlM_cons]
      dsimp only
      rw [hfirst, Checked.ok_bind, hnext]

theorem exists_addElementVector {workspace : Workspace α} {nodes : List Nat}
    (hnodes : workspace.argumentNodes = [nodes]) {collected : Array α}
    (hbound : ∀ node ∈ nodes, node < collected.size) :
    ∃ next, addElementVector collected workspace = .ok next ∧ next.size = collected.size := by
  have hentries : ∀ entry ∈ nodes.zip workspace.tensor.toList, entry.1 < collected.size :=
    fun entry hentry => hbound _ (List.of_mem_zip hentry).1
  obtain ⟨next, hnext, hsize⟩ := exists_foldlM_addAt _ hentries
  refine ⟨next, ?_, hsize⟩
  have hentry : Index.entry workspace.argumentNodes 0 = .ok nodes := by
    rw [hnodes]
    rfl
  rw [addElementVector, hentry, Checked.ok_bind, hnext]

/-- A cell can be added into a vector that reaches beyond all its nodes. -/
theorem safe_vector {length : Nat} (hlength : length < Index.capacity) :
    (vector length : Job α (Array α) (Array α)).Safe
      (fun workspace => ∃ nodes, workspace.argumentNodes = [nodes] ∧ ∀ node ∈ nodes, node < length)
      fun collected => collected.size = length where
  initial := by
    refine ⟨Array.replicate length Scalar.zero, ?_, Array.size_replicate⟩
    change (Index.length length).map _ = _
    rw [Index.length_eq_ok_iff.mpr ⟨hlength, rfl⟩]
    rfl
  accumulate := by
    intro collected workspace hsize ⟨nodes, hnodes, hbound⟩
    rw [← hsize] at hbound
    obtain ⟨next, hnext, heq⟩ := exists_addElementVector hnodes hbound
    exact ⟨next, hnext, heq.trans hsize⟩
  combine := by
    intro left right hleft hright
    change (Array.zipWith _ left right).size = length
    rw [Array.size_zipWith, hleft, hright, Nat.min_self]
  finish := fun collected _ => ⟨collected, rfl⟩

theorem addElementTriplets_eq_ok {workspace : Workspace α} {rows cols : List Nat}
    (hnodes : workspace.argumentNodes = [rows, cols])
    (hsize : workspace.tensor.size = rows.length * cols.length) (collected : Array (Triplet α)) :
    addElementTriplets collected workspace =
      .ok (collected ++ localTriplets rows cols workspace.tensor.toList) := by
  have hown : elementTriplets cols rows workspace.tensor.toList =
      .ok (localTriplets rows cols workspace.tensor.toList) := elementTriplets_eq_ok hsize
  have hfirst : Index.entry workspace.argumentNodes 0 = .ok rows := by
    rw [hnodes]
    rfl
  have hsecond : Index.entry workspace.argumentNodes 1 = .ok cols := by
    rw [hnodes]
    rfl
  rw [addElementTriplets, hfirst, Checked.ok_bind, hsecond, Checked.ok_bind, hown, Checked.ok_bind]
  rfl

/-- A cell can be collected for a matrix if its tensor has an entry for each of its places, and the
matrix can be made if all places are within it and there is room for its row offsets. -/
theorem safe_matrix {numRows : Nat} (hroom : numRows + 1 < Index.capacity) (numCols : Nat) :
    (matrix numRows numCols : Job α (Array (Triplet α)) (SparseMatrix α)).Safe
      (fun workspace => ∃ rows cols, workspace.argumentNodes = [rows, cols] ∧
        workspace.tensor.size = rows.length * cols.length ∧
        (∀ row ∈ rows, row < numRows) ∧ ∀ col ∈ cols, col < numCols)
      fun collected => ∀ triplet ∈ collected, triplet.row < numRows ∧ triplet.col < numCols where
  initial := ⟨#[], rfl, fun _ hmem => absurd hmem (Array.not_mem_empty _)⟩
  accumulate := by
    intro collected workspace hcollected ⟨rows, cols, hnodes, hsize, hrows, hcols⟩
    refine ⟨_, addElementTriplets_eq_ok hnodes hsize collected, ?_⟩
    intro triplet hmem
    rw [← Array.mem_toList_iff, Array.toList_appendList, List.mem_append] at hmem
    rcases hmem with hmem | hmem
    · exact hcollected triplet (Array.mem_toList_iff.mp hmem)
    · obtain ⟨hrow, hcol⟩ := mem_localTriplets hmem
      exact ⟨hrows _ hrow, hcols _ hcol⟩
  combine := by
    intro left right hleft hright triplet hmem
    rcases Array.mem_append.mp hmem with hmem | hmem
    · exact hleft triplet hmem
    · exact hright triplet hmem
  finish := by
    intro collected hcollected
    refine ⟨_, SparseMatrix.ofTriplets_eq_ok_iff.mpr ⟨?_, hroom, rfl⟩⟩
    exact fun triplet hmem => hcollected triplet (Array.mem_toList_iff.mp hmem)

end Job

/-! ## Walks -/

/-- The cell is computed in every workspace that fits the form, and `Cell` holds of what it is
computed to. -/
def Assembly.Computes (assembly : Assembly α) (Cell : Workspace α → Prop) (cell : Nat) : Prop :=
  ∀ fitted : Workspace α, fitted.Fits assembly.form →
    ∃ next logged, assembly.process fitted cell = .ok (next, logged) ∧ Cell next

namespace Job.Safe

variable {assembly : Assembly α} {job : Job α σ τ} {Cell : Workspace α → Prop} {Inv : σ → Prop}
  {fitted : Workspace α}

theorem exists_addCell (h : job.Safe Cell Inv) (hfitted : fitted.Fits assembly.form) {cell : Nat}
    (hcell : assembly.Computes Cell cell) {collected : σ} (hinv : Inv collected) :
    ∃ next, assembly.addCell job fitted collected cell = .ok next ∧ Inv next := by
  obtain ⟨workspace, logged, hprocess, hcomputed⟩ := hcell fitted hfitted
  obtain ⟨next, hnext, hkept⟩ := h.accumulate collected workspace hinv hcomputed
  refine ⟨next, ?_, hkept⟩
  rw [Assembly.addCell, hprocess, Checked.ok_bind]
  exact Failure.lift_eq_ok_iff.mpr hnext

theorem exists_collect (h : job.Safe Cell Inv) (hfitted : fitted.Fits assembly.form)
    {cells : List Nat} (hcells : ∀ cell ∈ cells, assembly.Computes Cell cell) {collected : σ}
    (hinv : Inv collected) :
    ∃ next, assembly.collect job fitted collected cells = .ok next ∧ Inv next := by
  induction cells generalizing collected with
  | nil => exact ⟨collected, rfl, hinv⟩
  | cons cell cells ih =>
      obtain ⟨first, hfirst, hkept⟩ :=
        h.exists_addCell hfitted (hcells cell List.mem_cons_self) hinv
      obtain ⟨next, hnext, hlast⟩ :=
        ih (fun other hother => hcells other (List.mem_cons_of_mem _ hother)) hkept
      refine ⟨next, ?_, hlast⟩
      rw [Assembly.collect, List.foldlM_cons, hfirst]
      exact hnext

theorem exists_pass (h : job.Safe Cell Inv) (hcoefficients : assembly.HasCoefficients)
    (hfitted : fitted.Fits assembly.form) {room : Except Fault Nat} {words : Nat}
    (hroom : room = .ok words)
    (hcells : ∀ cell < assembly.mesh.numCells, assembly.Computes Cell cell) :
    ∃ collected, (SerialAssembler.pass assembly job room fitted).value = .ok collected ∧
      Inv collected := by
  obtain ⟨start, hstart, hinv⟩ := h.initial
  have hlift : Failure.lift (do discard room; job.initial) = .ok start := by
    rw [hroom, hstart]
    rfl
  obtain ⟨collected, hcollect, hkept⟩ := h.exists_collect hfitted
    (fun cell hcell => hcells cell (List.mem_range.mp hcell)) hinv
  refine ⟨collected, ?_, hkept⟩
  rw [SerialAssembler.pass, Pass.value_foldl hcoefficients hfitted _ hfitted, hlift,
    Checked.ok_bind, hcollect]

/-- Joining what two tasks have collected keeps the invariant, so every tree of tasks ends in it. -/
theorem exists_runTree (h : job.Safe Cell Inv)
    (hfit : ∀ workspace : Workspace α, ∃ fitted, workspace.fitTo assembly.form = .ok fitted)
    (workspaces : Nat → Workspace α) (tree : TaskTree)
    (hcells : ∀ cell ∈ tree.ranges.flatMap CellRange.walked, assembly.Computes Cell cell) :
    ∃ collected, (ParallelAssembler.runTree assembly job workspaces tree).value = .ok collected ∧
      Inv collected := by
  induction tree with
  | task range =>
      rw [TaskTree.ranges, List.flatMap_singleton] at hcells
      obtain ⟨fresh, hfresh⟩ := hfit {}
      have hfitted := Workspace.fits_of_fitTo hfresh
      obtain ⟨start, hstart, hinv⟩ := h.initial
      obtain ⟨own, hown, hkept⟩ := h.exists_collect hfitted hcells hinv
      have hlift : Failure.lift job.initial = .ok start := Failure.lift_eq_ok_iff.mpr hstart
      have htask : (ParallelAssembler.runTask assembly job workspaces range).value = .ok own := by
        rw [ParallelAssembler.runTask, ParallelAssembler.value_foldl hfitted hfit, hlift]
        exact hown
      exact ⟨_, Partial.value_join hlift htask, h.combine _ _ hinv hkept⟩
  | split left right ihleft ihright =>
      rw [TaskTree.ranges, List.flatMap_append] at hcells
      obtain ⟨first, hfirst, hleft⟩ :=
        ihleft fun cell hcell => hcells cell (List.mem_append_left _ hcell)
      obtain ⟨second, hsecond, hright⟩ :=
        ihright fun cell hcell => hcells cell (List.mem_append_right _ hcell)
      exact ⟨_, Partial.value_join hfirst hsecond, h.combine _ _ hleft hright⟩

end Job.Safe

structure Job.Delivers (job : Job α σ τ) (assembly : Assembly α) : Prop where
  serial : ∀ (assembler : SerialAssembler α) {room : Except Fault Nat} {words : Nat},
    room = .ok words → ∃ result, (assembler.runJob assembly job room).1.result = .ok result
  parallel : ∀ schedule : Schedule α, schedule.tree.Covers assembly.mesh.numCells →
    ∃ result, (ParallelAssembler.runJob schedule assembly job).result = .ok result

theorem Job.Safe.delivers {assembly : Assembly α} {job : Job α σ τ} {Cell : Workspace α → Prop}
    {Inv : σ → Prop} (h : job.Safe Cell Inv) (hcoefficients : assembly.HasCoefficients)
    (hfit : ∀ workspace : Workspace α, ∃ fitted, workspace.fitTo assembly.form = .ok fitted)
    (hcells : ∀ cell < assembly.mesh.numCells, assembly.Computes Cell cell) :
    job.Delivers assembly where
  serial := by
    intro assembler room words hroom
    obtain ⟨fitted, hfitted⟩ := hfit assembler.workspace
    obtain ⟨collected, hpass, hinv⟩ :=
      h.exists_pass hcoefficients (Workspace.fits_of_fitTo hfitted) hroom hcells
    obtain ⟨result, hresult⟩ := h.finish collected hinv
    refine ⟨result, ?_⟩
    simp only [SerialAssembler.runJob, hfitted, hpass, Checked.ok_bind]
    exact Failure.lift_eq_ok_iff.mpr hresult
  parallel := by
    intro schedule hcovers
    have hwalked : ∀ cell ∈ schedule.tree.ranges.flatMap CellRange.walked,
        assembly.Computes Cell cell := by
      rw [hcovers.walked]
      intro cell hcell
      exact hcells cell (List.mem_range.mp hcell)
    obtain ⟨collected, htree, hinv⟩ :=
      h.exists_runTree hfit schedule.workspace schedule.tree hwalked
    obtain ⟨result, hresult⟩ := h.finish collected hinv
    refine ⟨result, ?_⟩
    simp only [ParallelAssembler.runJob, htree, Checked.ok_bind]
    exact Failure.lift_eq_ok_iff.mpr hresult

end FiniteElement
