import Mathlib
import FiniteElement.Form.Probe
import FiniteElement.Proofs.Assembly.ElementTensor
import FiniteElement.Proofs.Assembly.MatrixEntries
import FiniteElement.Proofs.Assembly.Sizing
import FiniteElement.Proofs.Assembly.Triplets
import FiniteElement.Proofs.Mesh.Unit
import FiniteElement.Proofs.Samples

/-! # Serial assembly of matrices

A form with two arguments that fits a mesh is assembled into the matrix of its
element tensors, provided that its buffers and triplets can be stored and that
the form itself computes the tensors.
-/

namespace FiniteElement

variable {α : Type}

/-! ## What must hold of a form and a mesh -/

/-- A mesh that is made from lists or as one of the unit meshes. -/
def Mesh.IsBuilt [Scalar α] (mesh : Mesh α) : Prop :=
  (∃ data, Mesh.ofData data = .ok mesh) ∨ ∃ kind n, UnitMesh.build kind n = .ok mesh

theorem Mesh.IsBuilt.wellFormed [Scalar α] {mesh : Mesh α} (h : mesh.IsBuilt) :
    mesh.WellFormed := by
  rcases h with ⟨data, hdata⟩ | ⟨kind, n, hbuild⟩
  · exact Mesh.wellFormed_of_ofData hdata
  · exact UnitMesh.wellFormed_of_build hbuild

namespace Form

/-- The buffers for a cell, the triplets of all cells and the row offsets, one more than the first
argument has degrees of freedom, have lengths that can be stored. -/
structure IsStorable (form : Form α) (mesh : Mesh α) : Prop where
  nodes : ∀ map ∈ form.dofMaps, map.size < Index.capacity
  tensor : form.tensorEntries < Index.capacity
  offsets : ∀ map ∈ form.dofMaps.head?, ∀ n,
    map.globalDimension mesh.entityCounts = .ok n → n + 1 < Index.capacity
  triplets : 3 * (mesh.numCells * form.tensorEntries) < Index.capacity

def ComputesOn [Scalar α] (form : Form α) (mesh : Mesh α) (coefficients : List (Array α)) : Prop :=
  ∀ cell < mesh.numCells, ∀ view coordinates, mesh.view cell #[] = .ok (view, coordinates) →
    ∃ tensor, form.computeTensor (Vector.replicate form.tensorEntries Scalar.zero)
      (nodalValues (form.dofMaps.drop form.rank) mesh coefficients cell) view = .ok tensor

end Form

/-! ## Sizing -/

section Sizing

variable {form : Form α} {mesh : Mesh α} {rowMap colMap : DofMap α} {maps : List (DofMap α)}

theorem Form.exists_two_dofMaps (h : 2 ≤ form.dofMaps.length) :
    ∃ rowMap colMap maps, form.dofMaps = rowMap :: colMap :: maps := by
  cases hfirst : form.dofMaps with
  | nil =>
      rw [hfirst] at h
      cases h
  | cons rowMap rest =>
      cases rest with
      | nil =>
          rw [hfirst, List.length_singleton] at h
          omega
      | cons colMap maps => exact ⟨rowMap, colMap, maps, rfl⟩

theorem Form.argumentMaps_of_rank_two (hrank : form.rank = 2)
    (hmaps : form.dofMaps = rowMap :: colMap :: maps) :
    form.argumentMaps = .ok [rowMap, colMap] := by
  rw [argumentMaps, hrank, hmaps, Index.split_of_le (by simp)]
  rfl

theorem Form.IsStorable.tensorSize_eq_ok (h : form.IsStorable mesh) (hrank : form.rank = 2)
    (hmaps : form.dofMaps = rowMap :: colMap :: maps) :
    form.tensorSize = .ok form.tensorEntries :=
  tensorSize_of_rank_le_two (Nat.le_of_eq hrank) (by rw [hrank, hmaps]; simp) h.nodes h.tensor

theorem Form.IsStorable.tripletRoom_eq_ok [Scalar α] (h : form.IsStorable mesh)
    (hrank : form.rank = 2) (hmaps : form.dofMaps = rowMap :: colMap :: maps) :
    SerialAssembler.tripletRoom form mesh =
      .ok (3 * (mesh.numCells * form.tensorEntries)) :=
  SerialAssembler.tripletRoom_of_lt (h.tensorSize_eq_ok hrank hmaps) h.triplets

theorem Form.IsStorable.exists_fitTo [Scalar α] (h : form.IsStorable mesh) (hrank : form.rank = 2)
    (hmaps : form.dofMaps = rowMap :: colMap :: maps) (workspace : Workspace α) :
    ∃ fitted, workspace.fitTo form = .ok fitted :=
  workspace.exists_fitTo_of_rank_le_two (Nat.le_of_eq hrank) (by rw [hrank, hmaps]; simp) h.nodes
    h.tensor

end Sizing

/-! ## Cells -/

section Cells

variable [Scalar α] {form : Form α} {mesh : Mesh α} {rowMap colMap : DofMap α}
  {maps : List (DofMap α)} {coefficients : List (Array α)}

theorem Form.computesOn_iff (hmesh : mesh.WellFormed)
    (hsize : form.tensorSize = .ok form.tensorEntries) :
    form.ComputesOn mesh coefficients ↔
      ∀ cell < mesh.numCells, ∃ tensor, form.elementTensor mesh coefficients cell = .ok tensor := by
  constructor
  · intro h cell hc
    obtain ⟨view, coordinates, hview, -⟩ := hmesh.view_eq_ok hc #[]
    obtain ⟨tensor, htensor⟩ := h cell hc view coordinates hview
    refine ⟨tensor.toList, ?_⟩
    simp only [elementTensor, hsize, hview, htensor, Checked.ok_bind]
    rfl
  · intro h cell hc view coordinates hview
    obtain ⟨entries, hentries⟩ := h cell hc
    simp only [elementTensor, hsize, hview, Checked.ok_bind, Checked.bind_eq_ok_iff] at hentries
    obtain ⟨tensor, htensor, -⟩ := hentries
    exact ⟨tensor, htensor⟩

theorem Form.length_of_elementTensor {cell : Nat} {tensor : List α}
    (hsize : form.tensorSize = .ok form.tensorEntries)
    (h : form.elementTensor mesh coefficients cell = .ok tensor) :
    tensor.length = form.tensorEntries := by
  simp only [elementTensor, hsize, Checked.ok_bind, Checked.bind_eq_ok_iff,
    Checked.pure_eq_ok_iff] at h
  obtain ⟨-, -, computed, -, heq⟩ := h
  rw [← heq, Vector.length_toList]

/-- A cell contributes its element tensor at its nodes in the spaces of the arguments. -/
theorem Assembly.cellTriplets_eq_ok (hmesh : mesh.WellFormed) (hrank : form.rank = 2)
    (hmaps : form.dofMaps = rowMap :: colMap :: maps)
    (hnumbering : ∀ map ∈ form.dofMaps, map.HasNumbering mesh)
    (hsizes : ∀ pair ∈ coefficients.zip (form.dofMaps.drop 2),
      pair.2.globalDimension mesh.entityCounts = .ok pair.1.size)
    (hstorable : form.IsStorable mesh) {cell : Nat} (hc : cell < mesh.numCells)
    {tensor : List α} (htensor : form.elementTensor mesh coefficients cell = .ok tensor) :
    cellTriplets ⟨form, mesh, coefficients, .ignore⟩ cell =
      .ok (localTriplets (rowMap.cellNodes mesh cell) (colMap.cellNodes mesh cell) tensor) := by
  obtain ⟨fresh, hfresh⟩ := hstorable.exists_fitTo hrank hmaps {}
  have htwo : form.rank ≤ form.dofMaps.length := by
    rw [hrank, hmaps, List.length_cons, List.length_cons]
    omega
  rw [← hrank] at hsizes
  obtain ⟨next, hnext, hnodes, hentries⟩ := Workspace.computeCell_eq_ok hmesh hc htwo hnumbering
    hsizes (Workspace.fits_of_fitTo hfresh) htensor
  rw [hrank, hmaps] at hnodes
  have hrow := hnumbering rowMap (hmaps ▸ List.mem_cons_self)
  have hcol := hnumbering colMap (hmaps ▸ List.mem_cons_of_mem _ List.mem_cons_self)
  have hrowNodes := DofMap.length_cellNodes hmesh hrow.1 hc
  have hcolNodes := DofMap.length_cellNodes hmesh hcol.1 hc
  have hlength := Form.length_of_elementTensor (hstorable.tensorSize_eq_ok hrank hmaps) htensor
  rw [Form.tensorEntries_of_rank_two hrank hmaps, ← hrowNodes, ← hcolNodes] at hlength
  have htriplets : next.triplets = .ok
      (localTriplets (rowMap.cellNodes mesh cell) (colMap.cellNodes mesh cell) tensor) := by
    rw [Workspace.triplets, hnodes, hentries]
    exact elementTriplets_eq_ok hlength
  have hprocess : process ⟨form, mesh, coefficients, .ignore⟩ fresh cell = .ok (next, []) := by
    simp only [process, hnext, Failure.lift, FinitenessPolicy.inspect]
    rfl
  simp only [cellTriplets, hfresh, hprocess, htriplets, Failure.lift, Except.mapError,
    Checked.ok_bind]

theorem Assembly.matrixJob_eq_ok {policy : FinitenessPolicy}
    (hfit : form.checkFit 2 mesh coefficients = .ok ()) (hrank : form.rank = 2)
    (hmaps : form.dofMaps = rowMap :: colMap :: maps) {numRows numCols : Nat}
    (hrows : rowMap.globalDimension mesh.entityCounts = .ok numRows)
    (hcols : colMap.globalDimension mesh.entityCounts = .ok numCols) :
    matrixJob ⟨form, mesh, coefficients, policy⟩ = .ok (Job.matrix numRows numCols) := by
  have hsizes : form.argumentSizes mesh = .ok [numRows, numCols] := by
    simp only [Form.argumentSizes, Form.argumentMaps_of_rank_two hrank hmaps, List.mapM_cons,
      List.mapM_nil, hrows, hcols, Checked.ok_bind]
    rfl
  simp only [matrixJob, prepare, hfit, hsizes, Checked.ok_bind]
  rfl

end Cells

/-! ## The assembled matrix -/

variable [Scalar α]

/-- The matrix is made of the triplets of all cells in order. -/
theorem SerialAssembler.result_eq_ofTriplets (assembler : SerialAssembler α)
    (hpolicy : assembler.options.nonFinite = .ignore) {form : Form α} {mesh : Mesh α}
    (hmesh : mesh.WellFormed) {coefficients : List (Array α)}
    (hfit : form.checkFit 2 mesh coefficients = .ok ()) {rowMap colMap : DofMap α}
    {maps : List (DofMap α)} (hmaps : form.dofMaps = rowMap :: colMap :: maps)
    (hnumbering : ∀ map ∈ form.dofMaps, map.HasNumbering mesh) (hstorable : form.IsStorable mesh)
    {numRows numCols : Nat} (hrows : rowMap.globalDimension mesh.entityCounts = .ok numRows)
    (hcols : colMap.globalDimension mesh.entityCounts = .ok numCols) {tensor : Nat → List α}
    (htensor : ∀ cell < mesh.numCells,
      form.elementTensor mesh coefficients cell = .ok (tensor cell)) :
    (assembler.assembleMatrix form mesh coefficients).1.result =
      Failure.lift (SparseMatrix.ofTriplets numRows numCols
        ((List.range mesh.numCells).flatMap fun cell =>
          localTriplets (rowMap.cellNodes mesh cell) (colMap.cellNodes mesh cell)
            (tensor cell))) := by
  obtain ⟨hrank, -, hsizes⟩ := Form.checkFit_eq_ok hfit
  have hassembly : assembler.assembly form mesh coefficients =
      ⟨form, mesh, coefficients, .ignore⟩ := by
    rw [SerialAssembler.assembly, hpolicy]
  have hjob : (assembler.assembly form mesh coefficients).matrixJob =
      .ok (Job.matrix numRows numCols) :=
    Assembly.matrixJob_eq_ok hfit hrank hmaps hrows hcols
  have hcells : ∀ cell < mesh.numCells,
      (assembler.assembly form mesh coefficients).cellTriplets cell =
        .ok (localTriplets (rowMap.cellNodes mesh cell) (colMap.cellNodes mesh cell)
          (tensor cell)) := by
    intro cell hc
    rw [hassembly]
    exact Assembly.cellTriplets_eq_ok hmesh hrank hmaps hnumbering hsizes hstorable hc
      (htensor cell hc)
  obtain ⟨fitted, hfitted⟩ := hstorable.exists_fitTo hrank hmaps assembler.workspace
  have hpass := value_pass_matrix numRows numCols (Assembly.hasCoefficients_of_matrixJob hjob)
    (Workspace.fits_of_fitTo hfitted) (hstorable.tripletRoom_eq_ok hrank hmaps) hcells
  exact result_assembleMatrix hjob hfitted hpass

/-- A form with two arguments is assembled into the sum of its element tensors, at the rows and
columns that their spaces tabulate. -/
theorem SerialAssembler.assembleMatrix_eq_sum (assembler : SerialAssembler α)
    (hpolicy : assembler.options.nonFinite = .ignore) {form : Form α} {mesh : Mesh α}
    (hmesh : mesh.IsBuilt) {coefficients : List (Array α)}
    (hfit : form.checkFit 2 mesh coefficients = .ok ())
    (hnumbering : ∀ map ∈ form.dofMaps, map.HasNumbering mesh)
    (hstorable : form.IsStorable mesh) (hcomputes : form.ComputesOn mesh coefficients) :
    ∃ rowMap colMap maps numRows numCols matrix, ∃ tensor : Nat → List α,
      form.dofMaps = rowMap :: colMap :: maps ∧
      rowMap.globalDimension mesh.entityCounts = .ok numRows ∧
      colMap.globalDimension mesh.entityCounts = .ok numCols ∧
      (∀ cell < mesh.numCells,
        (∀ buffer : List Nat, buffer.length = rowMap.size →
          rowMap.tabulate mesh cell buffer = .ok (rowMap.cellNodes mesh cell)) ∧
        (∀ buffer : List Nat, buffer.length = colMap.size →
          colMap.tabulate mesh cell buffer = .ok (colMap.cellNodes mesh cell)) ∧
        form.elementTensor mesh coefficients cell = .ok (tensor cell) ∧
        (tensor cell).length = rowMap.size * colMap.size) ∧
      (assembler.assembleMatrix form mesh coefficients).1.result = .ok matrix ∧
      matrix.numRows = numRows ∧ matrix.numCols = numCols ∧ matrix.IsCsr ∧
      (∀ row col, (∃ value, matrix.value? row col = some value) ↔
        ∃ cell < mesh.numCells,
          row ∈ rowMap.cellNodes mesh cell ∧ col ∈ colMap.cellNodes mesh cell) ∧
      ∀ (M : Type) [AddCommMonoid M] (exact : α → M),
        (∀ a b, exact (a + b) = exact a + exact b) →
        ∀ row col value, matrix.value? row col = some value →
          exact value = ∑ cell ∈ Finset.range mesh.numCells,
            ∑ i ∈ Finset.range rowMap.size, ∑ j ∈ Finset.range colMap.size,
              if (rowMap.cellNodes mesh cell)[i]? = some row ∧
                  (colMap.cellNodes mesh cell)[j]? = some col then
                exact ((tensor cell).getD (i * colMap.size + j) Scalar.zero)
              else 0 := by
  have hwell := hmesh.wellFormed
  obtain ⟨hrank, hlength, -⟩ := Form.checkFit_eq_ok hfit
  have htwo : 2 ≤ form.dofMaps.length := by omega
  obtain ⟨rowMap, colMap, maps, hmaps⟩ := Form.exists_two_dofMaps htwo
  obtain ⟨hrowMap, numRows, hrows⟩ := hnumbering rowMap (hmaps ▸ List.mem_cons_self)
  obtain ⟨hcolMap, numCols, hcols⟩ :=
    hnumbering colMap (hmaps ▸ List.mem_cons_of_mem _ List.mem_cons_self)
  have hsize := hstorable.tensorSize_eq_ok hrank hmaps
  have htensors := (Form.computesOn_iff hwell hsize).mp hcomputes
  choose! tensor htensor using htensors
  have hresult := assembler.result_eq_ofTriplets hpolicy hwell hfit hmaps hnumbering hstorable hrows
    hcols htensor
  obtain ⟨matrix, hmatrix, hnumRows, hnumCols, hcompressed, hexplicit, hsum⟩ :=
    exists_matrix_of_cells
      (fun cell hc => DofMap.lt_of_mem_cellNodes_of_globalDimension hwell hrowMap hrows hc)
      (fun cell hc => DofMap.lt_of_mem_cellNodes_of_globalDimension hwell hcolMap hcols hc) tensor
  have hroom : numRows + 1 < Index.capacity :=
    hstorable.offsets rowMap (hmaps ▸ rfl) numRows hrows
  refine ⟨rowMap, colMap, maps, numRows, numCols, matrix, tensor, hmaps, hrows, hcols, ?_, ?_,
    hnumRows, hnumCols, hcompressed.isCsr, hexplicit, ?_⟩
  · intro cell hc
    refine ⟨?_, ?_, htensor cell hc, ?_⟩
    · exact fun buffer => DofMap.HasNumbering.tabulate_eq_ok ⟨hrowMap, numRows, hrows⟩ hwell hc
    · exact fun buffer => DofMap.HasNumbering.tabulate_eq_ok ⟨hcolMap, numCols, hcols⟩ hwell hc
    · rw [Form.length_of_elementTensor hsize (htensor cell hc),
        Form.tensorEntries_of_rank_two hrank hmaps]
  · rw [hresult]
    exact Failure.lift_eq_ok_iff.mpr ((hmatrix matrix).mpr ⟨hroom, rfl⟩)
  · intro M _ exact hexact row col value hvalue
    rw [hsum M exact hexact row col value hvalue]
    apply Finset.sum_congr rfl
    intro cell hcell
    have hc := Finset.mem_range.mp hcell
    rw [DofMap.length_cellNodes hwell hrowMap hc, DofMap.length_cellNodes hwell hcolMap hc]

/-- Two intervals that share a vertex, whose entry is the sum of one entry of each tensor. -/
theorem SerialAssembler.assembleMatrix_eq_sum_of_two_intervals :
    let corners : LayoutMap Rat := LayoutMap.p1 .interval
    let form : Form Rat := .probe "probe" 2 0 [.single corners, .single corners] none []
    let assembler : SerialAssembler Rat := .fresh {}
    ∃ (mesh : Mesh Rat) (matrix : SparseMatrix Rat),
      Mesh.ofData ⟨.interval, 1, #[0, 1, 2], #[0, 1, 1, 2]⟩ = .ok mesh ∧
      form.checkFit 2 mesh [] = .ok () ∧ (∀ map ∈ form.dofMaps, map.HasNumbering mesh) ∧
      form.IsStorable mesh ∧ form.ComputesOn mesh [] ∧
      (assembler.assembleMatrix form mesh []).1.result = .ok matrix ∧
      matrix.value? 1 1 = some 105 := by
  intro corners form assembler
  let mesh : Mesh Rat := Sample.intervals [0, 1, 2] 2
  have hdata : Mesh.ofData ⟨.interval, 1, #[0, 1, 2], #[0, 1, 1, 2]⟩ = .ok mesh :=
    Sample.ofData_intervals [0, 1, 2] 2 (Nat.le_refl 2)
  have hfit : form.checkFit 2 mesh [] = .ok () := by
    decide +kernel
  have hglobal : ∀ map ∈ form.dofMaps, map.globalDimension mesh.entityCounts = .ok 3 := by
    decide +kernel
  have hstorable : form.IsStorable mesh := by
    refine ⟨by decide +kernel, by decide +kernel, ?_, by decide +kernel⟩
    intro map hmap n hn
    rw [hglobal map (List.mem_of_mem_head? hmap), Except.ok.injEq] at hn
    rw [← hn]
    decide
  have hfirst : form.elementTensor mesh [] 0 = .ok [1, 2, 3, 4] := by
    decide +kernel
  have hsecond : form.elementTensor mesh [] 1 = .ok [101, 102, 103, 104] := by
    decide +kernel
  have hcomputes : form.ComputesOn mesh [] := by
    rw [Form.computesOn_iff (Mesh.wellFormed_of_ofData hdata) rfl]
    intro cell hc
    have hcases : cell = 0 ∨ cell = 1 := by
      have hlt : cell < 2 := hc
      omega
    rcases hcases with heq | heq
    · exact ⟨_, heq ▸ hfirst⟩
    · exact ⟨_, heq ▸ hsecond⟩
  have hcorners : (DofMap.single corners).HasNumbering mesh :=
    ⟨DofMap.isOn_single.mpr ⟨rfl, rfl⟩, 3, rfl⟩
  have hnumbering : ∀ map ∈ form.dofMaps, map.HasNumbering mesh := by
    intro map hmap
    have heq : map = .single corners := by simpa [form, Form.probe] using hmap
    rw [heq]
    exact hcorners
  obtain ⟨rowMap, colMap, maps, numRows, numCols, matrix, tensor, hmaps, -, -, htensor, hresult, -,
    -, -, hexplicit, hsum⟩ := assembleMatrix_eq_sum assembler rfl (Or.inl ⟨_, hdata⟩) hfit
      hnumbering hstorable hcomputes
  refine ⟨mesh, matrix, hdata, hfit, hnumbering, hstorable, hcomputes, hresult, ?_⟩
  have htwo : [.single corners, .single corners] = rowMap :: colMap :: maps := hmaps
  cases htwo
  have hnodes : (DofMap.single corners).cellNodes mesh 0 = [0, 1] := by
    decide +kernel
  have hnodes' : (DofMap.single corners).cellNodes mesh 1 = [1, 2] := by
    decide +kernel
  have htensor₀ : tensor 0 = [1, 2, 3, 4] := by
    have hown := (htensor 0 (by decide)).2.2.1
    rw [hfirst, Except.ok.injEq] at hown
    exact hown.symm
  have htensor₁ : tensor 1 = [101, 102, 103, 104] := by
    have hown := (htensor 1 (by decide)).2.2.1
    rw [hsecond, Except.ok.injEq] at hown
    exact hown.symm
  obtain ⟨value, hvalue⟩ := (hexplicit 1 1).mpr ⟨0, by decide, by simp [hnodes], by simp [hnodes]⟩
  have heq := hsum Rat id (fun _ _ => rfl) 1 1 value hvalue
  have hcells : mesh.numCells = 2 := rfl
  have hcount : (DofMap.single corners).size = 2 := rfl
  rw [hcells, hcount] at heq
  simp only [Finset.sum_range_succ, Finset.sum_range_zero, hnodes, hnodes', htensor₀,
    htensor₁] at heq
  norm_num at heq
  rw [hvalue, heq]

/-- A form whose sizes are all in range, but whose tensor cannot be stored, has no matrix even on a
mesh without cells. -/
theorem SerialAssembler.assembleMatrix_fails_on_wide_tensor :
    let wide := Sample.inside (2 ^ 60) (by decide)
    let narrow : LayoutMap Rat := LayoutMap.p0 .interval
    let form : Form Rat := .probe "wide" 2 0 [.single wide, .single narrow] none []
    let mesh : Mesh Rat := Sample.intervals [] 0
    let assembler : SerialAssembler Rat := .fresh {}
    Mesh.ofData ⟨.interval, 1, #[], #[]⟩ = .ok mesh ∧ form.checkFit 2 mesh [] = .ok () ∧
      (∀ map ∈ form.dofMaps, map.HasNumbering mesh) ∧ form.tensorSize = .ok (2 ^ 60) ∧
      form.ComputesOn mesh [] ∧ assembler.options.nonFinite = .ignore ∧
      (assembler.assembleMatrix form mesh []).1.result = .error (.fault .tooManyEntries) := by
  intro wide narrow form mesh assembler
  have hdata : Mesh.ofData ⟨.interval, 1, #[], #[]⟩ = .ok mesh :=
    Sample.ofData_intervals [] 0 (Nat.le_refl 0)
  have hnumbering : ∀ map ∈ form.dofMaps, map.HasNumbering mesh :=
    List.forall_mem_cons.mpr
      ⟨⟨by decide, 0, rfl⟩, List.forall_mem_singleton.mpr ⟨by decide, 0, rfl⟩⟩
  refine ⟨hdata, by decide +kernel, hnumbering, by decide +kernel, ?_, rfl, by decide +kernel⟩
  intro cell hc
  exact absurd hc (Nat.not_lt_zero cell)

end FiniteElement
