import Mathlib
import FiniteElement.Proofs.Assembly.ExactSums
import FiniteElement.Proofs.Form.LinearElements

/-! # Exact tensors of linear elements

On rational numbers the forms on linear elements are assembled exactly on the
meshes whose counts can be stored, and into sums over the cells: of the masses
and stiffnesses of two vertices, of the loads of a vertex, of the integrals of a
coefficient. These sums do not mention the local order of the vertices.
-/

namespace FiniteElement

/-- An answer is only given to a form that fits, once all its spaces have been numbered. -/
theorem SerialAssembler.fit_of_answer {α : Type} [Scalar α] {assembler : SerialAssembler α}
    {request : Request α} (h : ∃ tensor, (assembler.answer request).1.result = .ok tensor) :
    request.form.checkFit request.kind.rank request.mesh request.coefficients = .ok () ∧
      ∀ map ∈ request.form.dofMaps,
        ∃ n, map.globalDimension request.mesh.entityCounts = .ok n := by
  obtain ⟨tensor, h⟩ := h
  obtain ⟨kind, form, mesh, coefficients⟩ := request
  cases hprepare : (assembler.assembly form mesh coefficients).prepare kind.rank with
  | ok sizes =>
      obtain ⟨_, hfit, -⟩ := Checked.bind_eq_ok_iff.mp hprepare
      exact ⟨hfit, Form.exists_globalDimension_of_prepare hprepare⟩
  | error failure =>
      cases kind with
      | scalar =>
          rw [answer_scalar, assembleScalar, Assembly.scalarJob_eq_error hprepare] at h
          cases h
      | vector =>
          rw [answer_vector, assembleVector, Assembly.vectorJob_eq_error hprepare] at h
          cases h
      | matrix =>
          rw [answer_matrix, assembleMatrix, Assembly.matrixJob_eq_error hprepare] at h
          cases h

theorem SerialAssembler.exists_tripletRoom_iff {α : Type} {form : Form α} {mesh : Mesh α}
    {entries : Nat} (hsize : form.tensorSize = .ok entries) :
    (∃ words, tripletRoom form mesh = .ok words) ↔
      3 * (mesh.numCells * entries) < Index.capacity := by
  have hle : Index.capacity ≤ Index.bound := by decide
  simp only [tripletRoom, hsize, Checked.ok_bind, Checked.bind_eq_ok_iff, Index.length_eq_ok_iff]
  constructor
  · rintro ⟨words, count, hcount, hlt, -⟩
    rw [Index.mul, Index.guard_eq_ok_iff] at hcount
    rw [hcount.2]
    exact hlt
  · intro hlt
    have hcount : mesh.numCells * entries < Index.bound := by omega
    exact ⟨_, _, Index.guard_of_lt hcount, hlt, rfl⟩

/-- Some matrix adds up any numbers that cells have for their pairs of nodes. -/
theorem exists_isCellSum_of_kernel {size numCells : Nat} {nodes : Nat → List Nat}
    (hlt : ∀ cell < numCells, ∀ v ∈ nodes cell, v < size)
    (hnodup : ∀ cell < numCells, (nodes cell).Nodup) (kernel : Nat → Nat → Nat → Rat) :
    ∃ matrix : SparseMatrix Rat, matrix.IsCellSum size numCells nodes kernel := by
  have hkernel : ∀ cell < numCells, ∀ i j v w,
      (nodes cell)[i]? = some v → (nodes cell)[j]? = some w →
      (squareTensor (nodes cell).length fun i j =>
        kernel cell ((nodes cell).getD i 0) ((nodes cell).getD j 0)).getD
          (i * (nodes cell).length + j) 0 = kernel cell v w := by
    intro cell _ i j v w hv hw
    have hi := (List.getElem?_eq_some_iff.mp hv).1
    have hj := (List.getElem?_eq_some_iff.mp hw).1
    rw [getD_squareTensor hi hj, List.getD_eq_getElem?_getD, List.getD_eq_getElem?_getD, hv, hw]
    rfl
  obtain ⟨matrix, -, hmatrix⟩ := exists_isCellSum hlt hnodup hkernel
  exact ⟨matrix, hmatrix⟩

namespace Mesh

variable (mesh : Mesh Rat) (cell : Nat)

/-- The gradient on a cell of the function that is one at a vertex. -/
def gradient (v : Nat) : Vec3 Rat := (mesh.simplex cell).hatGradient (mesh.vertexList cell) v

def mass (v w : Nat) : Rat := massEntry (mesh.simplex cell).volume mesh.dimension v w

def stiffness (v w : Nat) : Rat :=
  (mesh.simplex cell).volume * (mesh.gradient cell v).dot (mesh.gradient cell w)

theorem mass_comm (v w : Nat) : mesh.mass cell v w = mesh.mass cell w v := by
  simp only [mass, massEntry, eq_comm]

theorem mass_eq (v w : Nat) : mesh.mass cell v w = (mesh.simplex cell).volume /
    ((mesh.dimension + 1) * (mesh.dimension + 2)) * ((if v = w then 1 else 0) + 1) := by
  show (if v = w then 2 * ((mesh.simplex cell).volume /
      ((mesh.dimension + 1) * (mesh.dimension + 2))) else (mesh.simplex cell).volume /
        ((mesh.dimension + 1) * (mesh.dimension + 2)) : Rat) = _
  split <;> ring

theorem stiffness_comm (v w : Nat) : mesh.stiffness cell v w = mesh.stiffness cell w v := by
  rw [stiffness, stiffness, Vec3.dot_comm]

end Mesh

namespace PiecewiseSpace

def load (space : PiecewiseSpace) (mesh : Mesh Rat) (values : Array Rat) (cell v : Nat) : Rat :=
  match space with
  | .constant => (mesh.simplex cell).volume / (mesh.dimension + 1) * values.getD cell 0
  | .linear => ∑ w ∈ (mesh.vertexList cell).toFinset, mesh.mass cell v w * values.getD w 0

def cellIntegral (space : PiecewiseSpace) (mesh : Mesh Rat) (values : Array Rat) (cell : Nat) :
    Rat :=
  match space with
  | .constant => (mesh.simplex cell).volume * values.getD cell 0
  | .linear => (mesh.simplex cell).volume / (mesh.dimension + 1) *
      ∑ w ∈ (mesh.vertexList cell).toFinset, values.getD w 0

end PiecewiseSpace

namespace Form

section Linear

variable {mesh : Mesh Rat} (hmesh : mesh.WellFormed)
  (hvolumetric : mesh.geometricDimension = mesh.dimension) (assembler : SerialAssembler Rat)

include hmesh hvolumetric

/-! ## Matrices -/

/-- A form with linear arguments that fills square tensors assembles their entries, seen as numbers
of pairs of vertices. -/
theorem result_assembleMatrix_of_square_iff {form : Form Rat} (hform : form.OnLinearElements)
    (hrank : form.rank = 2) (hcount : form.numCoefficients = 0)
    (hmaps : form.dofMaps = [.single (LayoutMap.p1 mesh.shape), .single (LayoutMap.p1 mesh.shape)])
    {entry kernel : Nat → Nat → Nat → Rat}
    (htensor : ∀ cell < mesh.numCells,
      form.elementTensor mesh [] cell = .ok (squareTensor (mesh.dimension + 1) (entry cell)))
    (hkernel : ∀ cell < mesh.numCells, ∀ i j v w, (mesh.vertexList cell)[i]? = some v →
      (mesh.vertexList cell)[j]? = some w → entry cell i j = kernel cell v w)
    {matrix : SparseMatrix Rat} :
    (assembler.assembleMatrix form mesh []).1.result = .ok matrix ↔
      mesh.numVertices + 1 < Index.capacity ∧
        3 * (mesh.numCells * ((mesh.dimension + 1) * (mesh.dimension + 1))) < Index.capacity ∧
        matrix.IsCellSum mesh.numVertices mesh.numCells mesh.vertexList kernel := by
  have hdims : ∀ map ∈ form.dofMaps, map.dimension = mesh.dimension := by
    intro map hmap
    rw [hmaps] at hmap
    rw [List.eq_of_mem_replicate (n := 2) hmap]
    rfl
  have haccepted : Request.Accepted ⟨.matrix, form, mesh, []⟩ :=
    ⟨hrank, by rw [hmaps, hrank, hcount]; rfl, hcount.symm, hvolumetric, hdims, by simp⟩
  by_cases hbound : mesh.numVertices < Index.bound
  · have hglobal : (DofMap.single (LayoutMap.p1 mesh.shape) : DofMap Rat).globalDimension
        mesh.entityCounts = .ok mesh.numVertices := by
      rw [DofMap.globalDimension_p1, Index.guard_of_lt hbound]
    have hnumbering : ∀ map ∈ form.dofMaps,
        ∃ n, map.globalDimension mesh.entityCounts = .ok n := by
      intro map hmap
      rw [hmaps] at hmap
      rw [List.eq_of_mem_replicate (n := 2) hmap]
      exact ⟨_, hglobal⟩
    have htabulates := hform.tabulates hmesh haccepted hnumbering htensor
    have hsize : form.tensorSize = .ok ((mesh.dimension + 1) * (mesh.dimension + 1)) := by
      rw [htabulates.tensorSize_eq_ok, tensorEntries_of_rank_two hrank hmaps, size_p1]
      rfl
    rw [htabulates.result_assembleMatrix_iff assembler hglobal
      (fun cell hc => DofMap.cellNodes_p1 hmesh hc) hrank hmaps ?_,
      SerialAssembler.exists_tripletRoom_iff hsize]
    · exact and_left_comm
    · intro cell hc i j v w hv hw
      have hi := (List.getElem?_eq_some_iff.mp hv).1
      have hj := (List.getElem?_eq_some_iff.mp hw).1
      have hlength := hmesh.length_vertexList hc
      rw [hlength] at hi hj
      rw [hlength, getD_squareTensor hi hj]
      exact hkernel cell hc i j v w hv hw
  · constructor
    · intro h
      have hanswer : ∃ tensor,
          (assembler.answer ⟨.matrix, form, mesh, []⟩).1.result = .ok tensor :=
        Outcome.exists_map Tensor.matrix ⟨matrix, h⟩
      obtain ⟨-, hnumbering⟩ := SerialAssembler.fit_of_answer hanswer
      obtain ⟨n, hn⟩ := hnumbering _ (hmaps ▸ List.mem_cons_self)
      rw [DofMap.globalDimension_p1, Index.guard_eq_ok_iff] at hn
      exact absurd hn.1 hbound
    · intro h
      have hle : Index.capacity ≤ Index.bound := by decide
      exact absurd (Nat.lt_of_lt_of_le (Nat.lt_of_succ_lt h.1) hle) hbound

omit hvolumetric in
theorem massEntry_eq_mass {cell i j v w : Nat} (hc : cell < mesh.numCells)
    (hv : (mesh.vertexList cell)[i]? = some v) (hw : (mesh.vertexList cell)[j]? = some w) :
    massEntry (mesh.simplex cell).volume mesh.dimension i j = mesh.mass cell v w := by
  have hiff : i = j ↔ v = w := by
    constructor
    · intro heq
      rw [heq, hw, Option.some.injEq] at hv
      exact hv.symm
    · intro heq
      have hi := (List.getElem?_eq_some_iff.mp hv).1
      exact (List.getElem?_inj hi (hmesh.nodup_vertexList hc)).mp (hv.trans (heq ▸ hw.symm))
  simp only [Mesh.mass, massEntry, hiff]

/-- The mass matrix is assembled exactly if the counts of the mesh can be stored. -/
theorem result_mass_iff {matrix : SparseMatrix Rat} :
    (assembler.assembleMatrix (mass mesh.shape) mesh []).1.result = .ok matrix ↔
      mesh.numVertices + 1 < Index.capacity ∧
        3 * (mesh.numCells * ((mesh.dimension + 1) * (mesh.dimension + 1))) < Index.capacity ∧
        matrix.IsCellSum mesh.numVertices mesh.numCells mesh.vertexList mesh.mass := by
  apply result_assembleMatrix_of_square_iff hmesh hvolumetric assembler (.mass mesh.shape) rfl rfl
    rfl (fun cell hc => elementTensor_mass hmesh hvolumetric hc [])
  intro cell hc i j v w hv hw
  exact massEntry_eq_mass hmesh hc hv hw

theorem result_laplace_iff {matrix : SparseMatrix Rat} :
    (assembler.assembleMatrix (laplace mesh.shape) mesh []).1.result = .ok matrix ↔
      mesh.numVertices + 1 < Index.capacity ∧
        3 * (mesh.numCells * ((mesh.dimension + 1) * (mesh.dimension + 1))) < Index.capacity ∧
        matrix.IsCellSum mesh.numVertices mesh.numCells mesh.vertexList mesh.stiffness := by
  apply result_assembleMatrix_of_square_iff hmesh hvolumetric assembler (.laplace mesh.shape) rfl
    rfl rfl (fun cell hc => elementTensor_laplace hmesh hvolumetric hc [])
  intro cell hc i j v w hv hw
  have hplace : ∀ {k u : Nat}, (mesh.vertexList cell)[k]? = some u →
      (mesh.simplex cell).gradients.getD k ⟨0, 0, 0⟩ = mesh.gradient cell u := by
    intro k u hu
    obtain ⟨hk, heq⟩ := List.getElem?_eq_some_iff.mp hu
    rw [Mesh.gradient, AffineCell.hatGradient, ← heq,
      (hmesh.nodup_vertexList hc).idxOf_getElem k hk]
    rfl
  have hentry : stiffnessEntry (mesh.simplex cell).volume (mesh.simplex cell).gradients i j =
      (mesh.simplex cell).volume * ((mesh.simplex cell).gradients.getD (min i j) ⟨0, 0, 0⟩).dot
        ((mesh.simplex cell).gradients.getD (max i j) ⟨0, 0, 0⟩) := rfl
  rw [hentry, Mesh.stiffness]
  -- of the two entries only the one above the diagonal is computed, so the factors may be exchanged
  rcases le_total i j with hle | hle
  · rw [min_eq_left hle, max_eq_right hle, hplace hv, hplace hw]
  · rw [min_eq_right hle, max_eq_left hle, hplace hv, hplace hw, Vec3.dot_comm]

theorem exists_result_mass (hoffsets : mesh.numVertices + 1 < Index.capacity)
    (htriplets : 3 * (mesh.numCells * ((mesh.dimension + 1) * (mesh.dimension + 1))) <
      Index.capacity) :
    ∃ matrix, (assembler.assembleMatrix (mass mesh.shape) mesh []).1.result = .ok matrix := by
  obtain ⟨matrix, hmatrix⟩ := exists_isCellSum_of_kernel
    (fun cell hc v => hmesh.lt_of_mem_vertexList hc) (fun cell hc => hmesh.nodup_vertexList hc)
    mesh.mass
  exact ⟨matrix, (result_mass_iff hmesh hvolumetric assembler).mpr ⟨hoffsets, htriplets, hmatrix⟩⟩

theorem exists_result_laplace (hoffsets : mesh.numVertices + 1 < Index.capacity)
    (htriplets : 3 * (mesh.numCells * ((mesh.dimension + 1) * (mesh.dimension + 1))) <
      Index.capacity) :
    ∃ matrix, (assembler.assembleMatrix (laplace mesh.shape) mesh []).1.result = .ok matrix := by
  obtain ⟨matrix, hmatrix⟩ := exists_isCellSum_of_kernel
    (fun cell hc v => hmesh.lt_of_mem_vertexList hc) (fun cell hc => hmesh.nodup_vertexList hc)
    mesh.stiffness
  exact ⟨matrix,
    (result_laplace_iff hmesh hvolumetric assembler).mpr ⟨hoffsets, htriplets, hmatrix⟩⟩

/-! ## Vectors and scalars -/

theorem tabulates_source (space : PiecewiseSpace) {values : Array Rat}
    (hvertices : mesh.numVertices < Index.bound) (hdofs : space.numDofs mesh < Index.bound)
    (hsize : space.numDofs mesh = values.size) :
    (source mesh.shape space).Tabulates mesh [values] fun cell =>
      List.ofFn fun i : Fin (mesh.dimension + 1) => space.sourceLoad mesh values cell i := by
  have hglobal : (space.dofMap mesh.shape : DofMap Rat).globalDimension mesh.entityCounts =
      .ok values.size := by
    rw [space.globalDimension_dofMap, Index.guard_of_lt hdofs, hsize]
  have haccepted : Request.Accepted ⟨.vector, source mesh.shape space, mesh, [values]⟩ := by
    refine ⟨rfl, rfl, rfl, hvolumetric, ?_, ?_⟩
    · refine List.forall_mem_cons.mpr ⟨rfl, List.forall_mem_singleton.mpr ?_⟩
      cases space <;> rfl
    · exact List.forall_mem_singleton.mpr hglobal
  apply OnLinearElements.tabulates (.source mesh.shape space) hmesh haccepted
  · refine List.forall_mem_cons.mpr ⟨⟨mesh.numVertices, ?_⟩,
      List.forall_mem_singleton.mpr ⟨_, hglobal⟩⟩
    rw [DofMap.globalDimension_p1, Index.guard_of_lt hvertices]
  · intro cell hc
    exact elementTensor_source hmesh hvolumetric hc space values

theorem tabulates_integral (space : PiecewiseSpace) {values : Array Rat}
    (hdofs : space.numDofs mesh < Index.bound) (hsize : space.numDofs mesh = values.size) :
    (integral mesh.shape space).Tabulates mesh [values] fun cell =>
      [(mesh.simplex cell).volume *
        mean ((space.cellDofs mesh cell).map (values.getD · Scalar.zero))] := by
  have hglobal : (space.dofMap mesh.shape : DofMap Rat).globalDimension mesh.entityCounts =
      .ok values.size := by
    rw [space.globalDimension_dofMap, Index.guard_of_lt hdofs, hsize]
  have haccepted : Request.Accepted ⟨.scalar, integral mesh.shape space, mesh, [values]⟩ := by
    refine ⟨rfl, rfl, rfl, hvolumetric, List.forall_mem_singleton.mpr ?_,
      List.forall_mem_singleton.mpr hglobal⟩
    cases space <;> rfl
  apply OnLinearElements.tabulates (.integral mesh.shape space) hmesh haccepted
  · exact List.forall_mem_singleton.mpr ⟨_, hglobal⟩
  · intro cell hc
    exact elementTensor_integral hmesh hvolumetric hc space values

omit hvolumetric in
theorem sourceLoad_eq (space : PiecewiseSpace) (values : Array Rat) {cell i v : Nat}
    (hc : cell < mesh.numCells) (hi : (mesh.vertexList cell)[i]? = some v) :
    space.sourceLoad mesh values cell i = space.load mesh values cell v := by
  cases space with
  | constant =>
      show values.getD cell 0 * (mesh.simplex cell).volume / ((mesh.dimension + 1 : Nat) : Rat) =
        (mesh.simplex cell).volume / (mesh.dimension + 1) * values.getD cell 0
      push_cast
      ring
  | linear =>
      show Scalar.sum (((mesh.vertexList cell).map (values.getD · 0)).zipIdx.map fun (value, j) =>
          massEntry (mesh.simplex cell).volume mesh.dimension i j * value) =
        ∑ w ∈ (mesh.vertexList cell).toFinset, mesh.mass cell v w * values.getD w 0
      rw [Scalar.sum_rat, List.sum_toFinset _ (hmesh.nodup_vertexList hc)]
      apply congrArg List.sum
      apply List.ext_getElem
      · simp
      · intro j hj hj'
        rw [List.length_map] at hj'
        simp only [List.getElem_map, List.getElem_zipIdx, Nat.zero_add]
        rw [massEntry_eq_mass hmesh hc hi (List.getElem?_eq_getElem hj')]

omit hvolumetric in
theorem mean_eq_cellIntegral (space : PiecewiseSpace) (values : Array Rat) {cell : Nat}
    (hc : cell < mesh.numCells) :
    (mesh.simplex cell).volume * mean ((space.cellDofs mesh cell).map (values.getD · Scalar.zero)) =
      space.cellIntegral mesh values cell := by
  cases space with
  | constant =>
      show (mesh.simplex cell).volume * (Scalar.sum [values.getD cell 0] / (1 : Nat)) =
        (mesh.simplex cell).volume * values.getD cell 0
      rw [Scalar.sum_rat, List.sum_singleton, Nat.cast_one, div_one]
  | linear =>
      show (mesh.simplex cell).volume * (Scalar.sum ((mesh.vertexList cell).map (values.getD · 0)) /
          (((mesh.vertexList cell).map (values.getD · 0)).length : Nat)) =
        (mesh.simplex cell).volume / (mesh.dimension + 1) *
          ∑ w ∈ (mesh.vertexList cell).toFinset, values.getD w 0
      rw [Scalar.sum_rat, List.sum_toFinset _ (hmesh.nodup_vertexList hc), List.length_map,
        hmesh.length_vertexList hc]
      push_cast
      ring

/-- The vector of a source is assembled exactly if it can be stored and the coefficient has one
value for each degree of freedom. -/
theorem result_source_iff (space : PiecewiseSpace) {values vector : Array Rat} :
    (assembler.assembleVector (source mesh.shape space) mesh [values]).1.result = .ok vector ↔
      (mesh.numVertices < Index.capacity ∧ space.numDofs mesh < Index.bound) ∧
        space.numDofs mesh = values.size ∧
        IsNodalSum vector mesh.numVertices mesh.numCells mesh.vertexList
          (space.load mesh values) := by
  have hle : Index.capacity ≤ Index.bound := by decide
  by_cases hfit : mesh.numVertices < Index.bound ∧ space.numDofs mesh < Index.bound ∧
      space.numDofs mesh = values.size
  · obtain ⟨hvertices, hdofs, hsize⟩ := hfit
    have htabulates := tabulates_source hmesh hvolumetric space hvertices hdofs hsize
    have hglobal : (DofMap.single (LayoutMap.p1 mesh.shape) : DofMap Rat).globalDimension
        mesh.entityCounts = .ok mesh.numVertices := by
      rw [DofMap.globalDimension_p1, Index.guard_of_lt hvertices]
    rw [htabulates.result_assembleVector_iff assembler hglobal
      (fun cell hc => DofMap.cellNodes_p1 hmesh hc) rfl rfl ?_]
    · exact ⟨fun h => ⟨⟨h.1, hdofs⟩, hsize, h.2⟩, fun h => ⟨h.1.1, h.2.2⟩⟩
    · intro cell hc
      have hlength := hmesh.length_vertexList hc
      apply List.ext_getElem
      · rw [List.length_ofFn, List.length_map, hlength]
      · intro i hi hi'
        rw [List.length_map] at hi'
        rw [List.getElem_ofFn, List.getElem_map]
        exact sourceLoad_eq hmesh space values hc (List.getElem?_eq_getElem hi')
  · constructor
    · intro h
      have hanswer : ∃ tensor, (assembler.answer
          ⟨.vector, source mesh.shape space, mesh, [values]⟩).1.result = .ok tensor :=
        Outcome.exists_map Tensor.vector ⟨vector, h⟩
      obtain ⟨hcheck, hnumbering⟩ := SerialAssembler.fit_of_answer hanswer
      obtain ⟨n, hn⟩ := hnumbering _ List.mem_cons_self
      rw [DofMap.globalDimension_p1, Index.guard_eq_ok_iff] at hn
      have hvalues := (checkFit_eq_ok hcheck).2.2 (values, space.dofMap mesh.shape)
        List.mem_cons_self
      rw [space.globalDimension_dofMap, Index.guard_eq_ok_iff] at hvalues
      exact absurd ⟨hn.1, hvalues⟩ hfit
    · rintro ⟨⟨hvertices, hdofs⟩, hsize, -⟩
      exact absurd ⟨Nat.lt_of_lt_of_le hvertices hle, hdofs, hsize⟩ hfit

theorem exists_result_source (space : PiecewiseSpace) {values : Array Rat}
    (hvertices : mesh.numVertices < Index.capacity) (hdofs : space.numDofs mesh < Index.bound)
    (hsize : values.size = space.numDofs mesh) :
    ∃ vector, (assembler.assembleVector (source mesh.shape space) mesh [values]).1.result =
      .ok vector := by
  obtain ⟨vector, hvector⟩ := exists_isNodalSum mesh.numVertices mesh.numCells mesh.vertexList
    (space.load mesh values)
  exact ⟨vector, (result_source_iff hmesh hvolumetric assembler space).mpr
    ⟨⟨hvertices, hdofs⟩, hsize.symm, hvector⟩⟩

theorem result_integral_iff (space : PiecewiseSpace) {values : Array Rat} {value : Rat} :
    (assembler.assembleScalar (integral mesh.shape space) mesh [values]).1.result = .ok value ↔
      space.numDofs mesh < Index.bound ∧ space.numDofs mesh = values.size ∧
        value = ∑ cell ∈ Finset.range mesh.numCells, space.cellIntegral mesh values cell := by
  by_cases hfit : space.numDofs mesh < Index.bound ∧ space.numDofs mesh = values.size
  · obtain ⟨hdofs, hsize⟩ := hfit
    have htabulates := tabulates_integral hmesh hvolumetric space hdofs hsize
    have hsum : ∑ cell ∈ Finset.range mesh.numCells, [(mesh.simplex cell).volume *
        mean ((space.cellDofs mesh cell).map (values.getD · Scalar.zero))].getD 0 0 =
          ∑ cell ∈ Finset.range mesh.numCells, space.cellIntegral mesh values cell := by
      apply Finset.sum_congr rfl
      intro cell hcell
      exact mean_eq_cellIntegral hmesh space values (Finset.mem_range.mp hcell)
    rw [htabulates.result_assembleScalar_eq_sum assembler rfl, hsum, Except.ok.injEq]
    exact ⟨fun h => ⟨hdofs, hsize, h.symm⟩, fun h => h.2.2.symm⟩
  · constructor
    · intro h
      have hanswer : ∃ tensor, (assembler.answer
          ⟨.scalar, integral mesh.shape space, mesh, [values]⟩).1.result = .ok tensor :=
        Outcome.exists_map Tensor.scalar ⟨value, h⟩
      obtain ⟨hcheck, -⟩ := SerialAssembler.fit_of_answer hanswer
      have hvalues := (checkFit_eq_ok hcheck).2.2 (values, space.dofMap mesh.shape)
        List.mem_cons_self
      rw [space.globalDimension_dofMap, Index.guard_eq_ok_iff] at hvalues
      exact absurd hvalues hfit
    · intro h
      exact absurd ⟨h.1, h.2.1⟩ hfit

theorem exists_result_integral (space : PiecewiseSpace) {values : Array Rat}
    (hdofs : space.numDofs mesh < Index.bound) (hsize : values.size = space.numDofs mesh) :
    ∃ value, (assembler.assembleScalar (integral mesh.shape space) mesh [values]).1.result =
      .ok value :=
  ⟨_, (result_integral_iff hmesh hvolumetric assembler space).mpr ⟨hdofs, hsize.symm, rfl⟩⟩

/-- All forms on linear elements are assembled if the vertices and triplets of the mesh can be
stored, and for matrices one number more than there are vertices. -/
theorem exists_results (hvertices : mesh.numVertices < Index.capacity)
    (htriplets : 3 * (mesh.numCells * ((mesh.dimension + 1) * (mesh.dimension + 1))) <
      Index.capacity) :
    (mesh.numVertices + 1 < Index.capacity →
      (∃ matrix, (assembler.assembleMatrix (mass mesh.shape) mesh []).1.result = .ok matrix) ∧
      ∃ matrix, (assembler.assembleMatrix (laplace mesh.shape) mesh []).1.result = .ok matrix) ∧
    ∀ (space : PiecewiseSpace) (values : Array Rat), values.size = space.numDofs mesh →
      (∃ vector, (assembler.assembleVector (source mesh.shape space) mesh
        [values]).1.result = .ok vector) ∧
      ∃ value, (assembler.assembleScalar (integral mesh.shape space) mesh
        [values]).1.result = .ok value := by
  have hle : Index.capacity ≤ Index.bound := by decide
  have hbound : mesh.numVertices < Index.bound := Nat.lt_of_lt_of_le hvertices hle
  have hcells : mesh.numCells ≤
      3 * (mesh.numCells * ((mesh.dimension + 1) * (mesh.dimension + 1))) := by
    have hwidth : 0 < (mesh.dimension + 1) * (mesh.dimension + 1) := by positivity
    have hone := Nat.le_mul_of_pos_right mesh.numCells hwidth
    omega
  have hdofs : ∀ space : PiecewiseSpace, space.numDofs mesh < Index.bound := by
    intro space
    cases space with
    | constant => exact Nat.lt_of_lt_of_le (Nat.lt_of_le_of_lt hcells htriplets) hle
    | linear => exact hbound
  refine ⟨fun hoffsets => ⟨exists_result_mass hmesh hvolumetric assembler hoffsets htriplets,
    exists_result_laplace hmesh hvolumetric assembler hoffsets htriplets⟩, ?_⟩
  intro space values hsize
  exact ⟨exists_result_source hmesh hvolumetric assembler space hvertices (hdofs space) hsize,
    exists_result_integral hmesh hvolumetric assembler space (hdofs space) hsize⟩

end Linear
end Form
end FiniteElement
