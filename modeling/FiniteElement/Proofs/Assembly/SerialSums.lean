import Mathlib
import FiniteElement.Proofs.Assembly.Answers
import FiniteElement.Proofs.Assembly.SerialMatrix
import FiniteElement.Proofs.Assembly.VectorEntries

/-! # What a serial pass makes of the element tensors

A form that fits a mesh and computes all its element tensors leaves nothing else
to chance: a pass collects the tensors in the order of the cells, and its result
is a function of the nodes of the cells and of their tensors. A policy that finds
nothing to report in any tensor counts as ignoring them.
-/

namespace FiniteElement

variable {α σ τ : Type} [Scalar α]

def FinitenessPolicy.IsQuiet (α : Type) [Scalar α] (policy : FinitenessPolicy) : Prop :=
  ∀ cell, ∀ tensor : Array α, policy.inspect cell tensor = .ok []

/-- All rational numbers are finite. -/
theorem FinitenessPolicy.isQuiet_rat (policy : FinitenessPolicy) : policy.IsQuiet Rat := by
  intro cell tensor
  have hall : tensor.all Scalar.isFinite = true := by
    rw [Array.all_eq_true]
    exact fun _ _ => rfl
  cases policy with
  | ignore => rfl
  | warn => rw [inspect, if_pos hall]
  | error => rw [inspect, if_pos hall]

/-- The form fits the mesh and the coefficients, its buffers can be stored, and it computes the
given element tensors. -/
structure Form.Tabulates (form : Form α) (mesh : Mesh α) (coefficients : List (Array α))
    (tensor : Nat → List α) : Prop where
  wellFormed : mesh.WellFormed
  fit : form.checkFit form.rank mesh coefficients = .ok ()
  rank_le : form.rank ≤ 2
  numbering : ∀ map ∈ form.dofMaps, map.HasNumbering mesh
  size_lt : ∀ map ∈ form.dofMaps, map.size < Index.capacity
  entries_lt : form.tensorEntries < Index.capacity
  elementTensor_eq : ∀ cell < mesh.numCells,
    form.elementTensor mesh coefficients cell = .ok (tensor cell)

/-- A form whose buffers can be stored, and which never fails, has its element tensors. -/
theorem Form.exists_tabulates {form : Form α} {mesh : Mesh α} {coefficients : List (Array α)}
    (hmesh : mesh.WellFormed) (hfit : form.checkFit form.rank mesh coefficients = .ok ())
    (hrank : form.rank ≤ 2) (hnumbering : ∀ map ∈ form.dofMaps, map.HasNumbering mesh)
    (hsizes : ∀ map ∈ form.dofMaps, map.size < Index.capacity)
    (hentries : form.tensorEntries < Index.capacity)
    (hcomputes : form.ComputesOn mesh coefficients) :
    ∃ tensor, form.Tabulates mesh coefficients tensor := by
  have hlength := (checkFit_eq_ok hfit).2.1
  have hsize := tensorSize_of_rank_le_two hrank (by omega) hsizes hentries
  have htensors := (computesOn_iff hmesh hsize).mp hcomputes
  choose! tensor htensor using htensors
  exact ⟨tensor, hmesh, hfit, hrank, hnumbering, hsizes, hentries, htensor⟩

namespace Form.Tabulates

variable {form : Form α} {mesh : Mesh α} {coefficients : List (Array α)} {tensor : Nat → List α}

theorem rank_le_length (h : form.Tabulates mesh coefficients tensor) :
    form.rank ≤ form.dofMaps.length := by
  have hlength := (checkFit_eq_ok h.fit).2.1
  omega

theorem tensorSize_eq_ok (h : form.Tabulates mesh coefficients tensor) :
    form.tensorSize = .ok form.tensorEntries :=
  tensorSize_of_rank_le_two h.rank_le h.rank_le_length h.size_lt h.entries_lt

theorem length_tensor (h : form.Tabulates mesh coefficients tensor) {cell : Nat}
    (hc : cell < mesh.numCells) : (tensor cell).length = form.tensorEntries :=
  length_of_elementTensor h.tensorSize_eq_ok (h.elementTensor_eq cell hc)

theorem exists_fitTo (h : form.Tabulates mesh coefficients tensor) (workspace : Workspace α) :
    ∃ fitted, workspace.fitTo form = .ok fitted :=
  workspace.exists_fitTo_of_rank_le_two h.rank_le h.rank_le_length h.size_lt h.entries_lt

/-- A cell is processed without a report, and leaves its nodes and its tensor in the workspace. -/
theorem process_eq_ok (h : form.Tabulates mesh coefficients tensor) {policy : FinitenessPolicy}
    (hquiet : policy.IsQuiet α) {workspace : Workspace α} (hfits : workspace.Fits form) {cell : Nat}
    (hc : cell < mesh.numCells) :
    ∃ next, Assembly.process ⟨form, mesh, coefficients, policy⟩ workspace cell = .ok (next, []) ∧
      next.argumentNodes =
        (form.dofMaps.take form.rank).map (fun map => map.cellNodes mesh cell) ∧
      next.tensor.toList = tensor cell := by
  obtain ⟨next, hnext, hnodes, htensor⟩ := Workspace.computeCell_eq_ok h.wellFormed hc
    h.rank_le_length h.numbering (checkFit_eq_ok h.fit).2.2 hfits (h.elementTensor_eq cell hc)
  refine ⟨next, ?_, hnodes, htensor⟩
  rw [Assembly.process, hnext]
  show ((policy.inspect cell next.tensor).mapError Failure.rejected >>= _) = _
  rw [hquiet cell next.tensor]
  rfl

theorem hasCoefficients (h : form.Tabulates mesh coefficients tensor) (policy : FinitenessPolicy) :
    Assembly.HasCoefficients ⟨form, mesh, coefficients, policy⟩ := by
  have hlength := (checkFit_eq_ok h.fit).2.1
  show coefficients.length = (form.dofMaps.drop form.rank).length
  rw [List.length_drop, hlength, Nat.add_sub_cancel_left]

def Does (form : Form α) (mesh : Mesh α) (tensor : Nat → List α) (job : Job α σ τ)
    (act : σ → Nat → Except Fault σ) : Prop :=
  ∀ cell < mesh.numCells, ∀ workspace : Workspace α,
    workspace.argumentNodes =
      (form.dofMaps.take form.rank).map (fun map => map.cellNodes mesh cell) →
    workspace.tensor.toList = tensor cell →
    ∀ collected, job.accumulate collected workspace = act collected cell

variable {job : Job α σ τ} {act : σ → Nat → Except Fault σ} {policy : FinitenessPolicy}

theorem collect_eq_lift (h : form.Tabulates mesh coefficients tensor) (hquiet : policy.IsQuiet α)
    (hact : Does form mesh tensor job act) {fitted : Workspace α} (hfits : fitted.Fits form)
    {cells : List Nat} (hcells : ∀ cell ∈ cells, cell < mesh.numCells) (collected : σ) :
    Assembly.collect ⟨form, mesh, coefficients, policy⟩ job fitted collected cells =
      Failure.lift (cells.foldlM act collected) := by
  induction cells generalizing collected with
  | nil => rfl
  | cons cell cells ih =>
      have hc := hcells cell List.mem_cons_self
      obtain ⟨next, hnext, hnodes, htensor⟩ := h.process_eq_ok hquiet hfits hc
      have hadded : Assembly.addCell ⟨form, mesh, coefficients, policy⟩ job fitted collected cell =
          Failure.lift (act collected cell) := by
        rw [Assembly.addCell, hnext, Checked.ok_bind]
        exact congrArg Failure.lift (hact cell hc next hnodes htensor collected)
      have hothers : ∀ other ∈ cells, other < mesh.numCells :=
        fun other hother => hcells other (List.mem_cons_of_mem _ hother)
      have hrest := fun start => ih hothers start
      simp only [Assembly.collect] at hrest
      rw [Assembly.collect, List.foldlM_cons, hadded, List.foldlM_cons, Failure.lift_bind]
      simp only [hrest]

/-- A pass does with the cells in order what the job does with their nodes and tensors. -/
theorem result_runJob (h : form.Tabulates mesh coefficients tensor) (hquiet : policy.IsQuiet α)
    (hact : Does form mesh tensor job act) (assembler : SerialAssembler α)
    (room : Except Fault Nat) :
    (assembler.runJob ⟨form, mesh, coefficients, policy⟩ job room).1.result =
      Failure.lift (do
        discard room
        let start ← job.initial
        let collected ← (List.range mesh.numCells).foldlM act start
        job.finish collected) := by
  obtain ⟨fitted, hfitted⟩ := h.exists_fitTo assembler.workspace
  have hfits := Workspace.fits_of_fitTo hfitted
  have hvalue : (SerialAssembler.pass ⟨form, mesh, coefficients, policy⟩ job room fitted).value =
      Failure.lift (do
        discard room
        let start ← job.initial
        (List.range mesh.numCells).foldlM act start) := by
    rw [SerialAssembler.pass, Pass.value_foldl (h.hasCoefficients policy) hfits _ hfits]
    simp only [h.collect_eq_lift hquiet hact hfits (fun _ => List.mem_range.mp),
      ← Failure.lift_bind, bind_assoc]
  simp only [SerialAssembler.runJob, hfitted, hvalue, ← Failure.lift_bind, bind_assoc]

theorem prepare_eq_ok (h : form.Tabulates mesh coefficients tensor)
    (policy : FinitenessPolicy) {sizes : List Nat}
    (hsizes : form.argumentSizes mesh = .ok sizes) :
    Assembly.prepare ⟨form, mesh, coefficients, policy⟩ form.rank = .ok sizes := by
  simp only [Assembly.prepare, h.fit, hsizes, Checked.ok_bind]
  rfl

/-! ## Scalars -/

theorem does_scalar (h : form.Tabulates mesh coefficients tensor) (hrank : form.rank = 0) :
    Does form mesh tensor Job.scalar fun sum cell =>
      .ok (sum + (tensor cell).getD 0 Scalar.zero) := by
  intro cell hc workspace _ htensor sum
  have hlength : (tensor cell).length = 1 := by
    rw [h.length_tensor hc, tensorEntries, hrank]
    rfl
  have hsize : 0 < workspace.tensor.size := by
    rw [← Array.length_toList, htensor, hlength]
    exact Nat.one_pos
  have hentry : (tensor cell).getD 0 Scalar.zero = workspace.tensor[0] := by
    rw [← htensor, List.getD_eq_getElem?_getD, Array.getElem?_toList,
      Array.getElem?_eq_getElem hsize, Option.getD_some]
  show (Index.slot workspace.tensor 0 >>= fun value => .ok (sum + value)) =
    .ok (sum + (tensor cell).getD 0 Scalar.zero)
  rw [Index.slot_of_lt hsize, hentry]
  rfl

/-- A form without arguments is assembled into the sum of its tensors from the left. -/
theorem result_assembleScalar (h : form.Tabulates mesh coefficients tensor) (hrank : form.rank = 0)
    (assembler : SerialAssembler α) (hquiet : assembler.options.nonFinite.IsQuiet α) :
    (assembler.assembleScalar form mesh coefficients).1.result =
      .ok ((List.range mesh.numCells).foldl
        (fun sum cell => sum + (tensor cell).getD 0 Scalar.zero) Scalar.zero) := by
  have hsizes : form.argumentSizes mesh = .ok [] := by
    rw [argumentSizes, argumentMaps_of_le h.rank_le_length, hrank]
    rfl
  have hprepared := h.prepare_eq_ok assembler.options.nonFinite hsizes
  rw [hrank] at hprepared
  have hjob : (assembler.assembly form mesh coefficients).scalarJob = .ok Job.scalar := by
    rw [SerialAssembler.assembly, Assembly.scalarJob, hprepared]
    rfl
  have hfold : ∀ (cells : List Nat) (sum : α), cells.foldlM (m := Except Fault)
      (fun sum cell => .ok (sum + (tensor cell).getD 0 Scalar.zero)) sum =
        .ok (cells.foldl (fun sum cell => sum + (tensor cell).getD 0 Scalar.zero) sum) := by
    intro cells
    induction cells with
    | nil => exact fun _ => rfl
    | cons cell cells ih => exact fun sum => ih _
  simp only [SerialAssembler.assembleScalar, hjob]
  rw [SerialAssembler.assembly, h.result_runJob hquiet (h.does_scalar hrank)]
  show Failure.lift (List.foldlM (m := Except Fault) _ Scalar.zero _ >>= .ok) = _
  rw [hfold]
  rfl

/-! ## Vectors -/

theorem does_vector {map : DofMap α} {maps : List (DofMap α)} (hrank : form.rank = 1)
    (hmaps : form.dofMaps = map :: maps) (length : Nat) :
    Does form mesh tensor (Job.vector length) fun vector cell =>
      Job.addAll ((map.cellNodes mesh cell).zip (tensor cell)) vector := by
  intro cell _ workspace hnodes htensor vector
  rw [hrank, hmaps] at hnodes
  have hentry : Index.entry workspace.argumentNodes 0 = .ok (map.cellNodes mesh cell) := by
    rw [hnodes]
    rfl
  show Job.addElementVector vector workspace = _
  rw [Job.addElementVector, hentry, htensor]
  rfl

/-- A form with one argument is assembled by adding its tensors, entry by entry and cell by cell,
to a vector of zeros. -/
theorem result_assembleVector (h : form.Tabulates mesh coefficients tensor) (hrank : form.rank = 1)
    {map : DofMap α} {maps : List (DofMap α)} (hmaps : form.dofMaps = map :: maps) {length : Nat}
    (hlength : map.globalDimension mesh.entityCounts = .ok length) (assembler : SerialAssembler α)
    (hquiet : assembler.options.nonFinite.IsQuiet α) :
    (assembler.assembleVector form mesh coefficients).1.result =
      Failure.lift (do
        let length ← Index.length length
        Job.addAll ((List.range mesh.numCells).flatMap fun cell =>
          (map.cellNodes mesh cell).zip (tensor cell)) (Array.replicate length Scalar.zero)) := by
  have hsizes : form.argumentSizes mesh = .ok [length] := by
    rw [argumentSizes, argumentMaps_of_le h.rank_le_length, hrank, hmaps]
    show ([map].mapM (DofMap.globalDimension mesh.entityCounts)) = _
    rw [List.mapM_cons, hlength]
    rfl
  have hprepared := h.prepare_eq_ok assembler.options.nonFinite hsizes
  rw [hrank] at hprepared
  have hjob : (assembler.assembly form mesh coefficients).vectorJob = .ok (Job.vector length) := by
    rw [SerialAssembler.assembly, Assembly.vectorJob, hprepared]
    rfl
  have hfold : ∀ (cells : List Nat) (vector : Array α), cells.foldlM
      (fun vector cell => Job.addAll ((map.cellNodes mesh cell).zip (tensor cell)) vector) vector =
        Job.addAll (cells.flatMap fun cell => (map.cellNodes mesh cell).zip (tensor cell))
          vector := by
    intro cells
    induction cells with
    | nil => exact fun _ => rfl
    | cons cell cells ih =>
        intro vector
        simp only [List.foldlM_cons, ih, List.flatMap_cons, Job.addAll_append]
  simp only [SerialAssembler.assembleVector, hjob]
  rw [SerialAssembler.assembly, h.result_runJob hquiet (does_vector hrank hmaps length)]
  simp only [hfold]
  show Failure.lift ((Index.length length).map _ >>= fun start => Job.addAll _ start >>= .ok) = _
  cases Index.length length with
  | error fault => rfl
  | ok n =>
      show Failure.lift (Job.addAll _ _ >>= pure) = _
      rw [bind_pure]
      rfl

/-! ## Matrices -/

theorem does_matrix (h : form.Tabulates mesh coefficients tensor) {rowMap colMap : DofMap α}
    {maps : List (DofMap α)} (hrank : form.rank = 2)
    (hmaps : form.dofMaps = rowMap :: colMap :: maps) (numRows numCols : Nat) :
    Does form mesh tensor (Job.matrix numRows numCols) fun triplets cell =>
      .ok (triplets ++ localTriplets (rowMap.cellNodes mesh cell) (colMap.cellNodes mesh cell)
        (tensor cell)) := by
  intro cell hc workspace hnodes htensor triplets
  rw [hrank, hmaps] at hnodes
  have hrow := (h.numbering rowMap (hmaps ▸ List.mem_cons_self)).1
  have hcol := (h.numbering colMap (hmaps ▸ List.mem_cons_of_mem _ List.mem_cons_self)).1
  have hsize : workspace.tensor.size =
      (rowMap.cellNodes mesh cell).length * (colMap.cellNodes mesh cell).length := by
    rw [← Array.length_toList, htensor, h.length_tensor hc, tensorEntries_of_rank_two hrank hmaps,
      DofMap.length_cellNodes h.wellFormed hrow hc, DofMap.length_cellNodes h.wellFormed hcol hc]
  have hadded := Job.addElementTriplets_eq_ok hnodes hsize triplets
  rw [htensor] at hadded
  exact hadded

/-- A form with two arguments is assembled into the matrix of the entries of its tensors, unless
there is no room for them. -/
theorem result_assembleMatrix (h : form.Tabulates mesh coefficients tensor) (hrank : form.rank = 2)
    {rowMap colMap : DofMap α} {maps : List (DofMap α)}
    (hmaps : form.dofMaps = rowMap :: colMap :: maps) {numRows numCols : Nat}
    (hrows : rowMap.globalDimension mesh.entityCounts = .ok numRows)
    (hcols : colMap.globalDimension mesh.entityCounts = .ok numCols) (assembler : SerialAssembler α)
    (hquiet : assembler.options.nonFinite.IsQuiet α) :
    (assembler.assembleMatrix form mesh coefficients).1.result =
      Failure.lift (do
        discard (SerialAssembler.tripletRoom form mesh)
        SparseMatrix.ofTriplets numRows numCols ((List.range mesh.numCells).flatMap fun cell =>
          localTriplets (rowMap.cellNodes mesh cell) (colMap.cellNodes mesh cell)
            (tensor cell))) := by
  have hfit := h.fit
  rw [hrank] at hfit
  have hjob : (assembler.assembly form mesh coefficients).matrixJob =
      .ok (Job.matrix numRows numCols) :=
    Assembly.matrixJob_eq_ok hfit hrank hmaps hrows hcols
  have hfold : ∀ (cells : List Nat) (triplets : Array (Triplet α)),
      cells.foldlM (m := Except Fault) (fun (triplets : Array (Triplet α)) cell =>
        .ok (triplets ++ localTriplets (rowMap.cellNodes mesh cell) (colMap.cellNodes mesh cell)
          (tensor cell))) triplets =
        .ok (triplets ++ cells.flatMap fun cell => localTriplets (rowMap.cellNodes mesh cell)
          (colMap.cellNodes mesh cell) (tensor cell)) := by
    intro cells
    induction cells with
    | nil =>
        intro triplets
        simp [pure, Except.pure]
    | cons cell cells ih =>
        intro triplets
        rw [List.foldlM_cons, Checked.ok_bind, ih, List.flatMap_cons]
        apply congrArg
        apply Array.ext'
        simp
  simp only [SerialAssembler.assembleMatrix, hjob,
    SerialAssembler.result_withCompletion]
  rw [SerialAssembler.assembly,
    h.result_runJob hquiet (h.does_matrix hrank hmaps numRows numCols)]
  apply congrArg Failure.lift
  apply congrArg (discard (SerialAssembler.tripletRoom form mesh) >>= ·)
  funext _
  show (List.foldlM (m := Except Fault) _ #[] _ >>= _) = _
  rw [hfold, Checked.ok_bind]
  show SparseMatrix.ofTriplets numRows numCols _ = _
  simp

end Form.Tabulates

end FiniteElement
