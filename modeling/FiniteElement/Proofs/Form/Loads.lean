import Mathlib
import FiniteElement.Proofs.Form.Assembled

/-! # Loads, masses and integrals

On exact numbers the loads of a source are its masses, and add up over the
vertices to its integral: on each cell, since the functions of the vertices add
up to one, and therefore on the whole mesh. A source with one value everywhere
has the same loads and the same integral whether it is constant on each cell or
linear.
-/

namespace FiniteElement

namespace Mesh.WellFormed

variable {mesh : Mesh Rat} (hmesh : mesh.WellFormed) {cell : Nat} (hc : cell < mesh.numCells)

include hmesh hc

theorem card_vertexList : (mesh.vertexList cell).toFinset.card = mesh.dimension + 1 := by
  rw [List.toFinset_card_of_nodup (hmesh.nodup_vertexList hc), hmesh.length_vertexList hc]

/-- The masses of a vertex add up to its share of the cell. -/
theorem sum_mass {v : Nat} (hv : v ∈ mesh.vertexList cell) :
    ∑ w ∈ (mesh.vertexList cell).toFinset, mesh.mass cell v w =
      (mesh.simplex cell).volume / (mesh.dimension + 1) := by
  have hfirst : (mesh.dimension : Rat) + 1 ≠ 0 := by positivity
  have hsecond : (mesh.dimension : Rat) + 2 ≠ 0 := by positivity
  simp only [Mesh.mass_eq]
  rw [← Finset.mul_sum, Finset.sum_add_distrib, Finset.sum_ite_eq,
    if_pos (List.mem_toFinset.mpr hv), Finset.sum_const, nsmul_one, hmesh.card_vertexList hc]
  push_cast
  field_simp
  ring

/-- The loads of the vertices of a cell add up to the integral over the cell. -/
theorem sum_load (space : PiecewiseSpace) (values : Array Rat) :
    ∑ v ∈ (mesh.vertexList cell).toFinset, space.load mesh values cell v =
      space.cellIntegral mesh values cell := by
  cases space with
  | constant =>
      have hpos : (mesh.dimension : Rat) + 1 ≠ 0 := by positivity
      show ∑ v ∈ (mesh.vertexList cell).toFinset,
        (mesh.simplex cell).volume / (mesh.dimension + 1) * values.getD cell 0 =
          (mesh.simplex cell).volume * values.getD cell 0
      rw [Finset.sum_const, nsmul_eq_mul, hmesh.card_vertexList hc]
      push_cast
      field_simp
  | linear =>
      show ∑ v ∈ (mesh.vertexList cell).toFinset, ∑ w ∈ (mesh.vertexList cell).toFinset,
          mesh.mass cell v w * values.getD w 0 =
        (mesh.simplex cell).volume / (mesh.dimension + 1) *
          ∑ w ∈ (mesh.vertexList cell).toFinset, values.getD w 0
      rw [Finset.sum_comm, Finset.mul_sum]
      apply Finset.sum_congr rfl
      intro w hw
      rw [← Finset.sum_mul, ← hmesh.sum_mass hc (List.mem_toFinset.mp hw)]
      simp only [mesh.mass_comm cell w]

/-- Of a coefficient with one value on all places of a cell only this value counts. -/
theorem load_of_constant (space : PiecewiseSpace) {values : Array Rat} {a : Rat}
    (hvalues : ∀ i ∈ space.cellDofs mesh cell, values.getD i 0 = a) {v : Nat}
    (hv : v ∈ mesh.vertexList cell) :
    space.load mesh values cell v = (mesh.simplex cell).volume / (mesh.dimension + 1) * a := by
  cases space with
  | constant =>
      show (mesh.simplex cell).volume / (mesh.dimension + 1) * values.getD cell 0 = _
      rw [hvalues cell (List.mem_singleton_self cell)]
  | linear =>
      show ∑ w ∈ (mesh.vertexList cell).toFinset, mesh.mass cell v w * values.getD w 0 = _
      rw [← hmesh.sum_mass hc hv, Finset.sum_mul]
      apply Finset.sum_congr rfl
      intro w hw
      rw [hvalues w (List.mem_toFinset.mp hw)]

theorem cellIntegral_of_constant (space : PiecewiseSpace) {values : Array Rat} {a : Rat}
    (hvalues : ∀ i ∈ space.cellDofs mesh cell, values.getD i 0 = a) :
    space.cellIntegral mesh values cell = (mesh.simplex cell).volume * a := by
  have hpos : (mesh.dimension : Rat) + 1 ≠ 0 := by positivity
  have hloads : ∀ v ∈ (mesh.vertexList cell).toFinset, space.load mesh values cell v =
      (mesh.simplex cell).volume / (mesh.dimension + 1) * a :=
    fun v hv => hmesh.load_of_constant hc space hvalues (List.mem_toFinset.mp hv)
  rw [← hmesh.sum_load hc, Finset.sum_congr rfl hloads, Finset.sum_const, nsmul_eq_mul,
    hmesh.card_vertexList hc]
  push_cast
  field_simp

end Mesh.WellFormed

section Assembled

variable {mesh : Mesh Rat} (hmesh : mesh.WellFormed)

include hmesh

/-- The loads of a linear source are the masses times its values. -/
theorem IsNodalSum.getElem?_eq_mulVec {values vector : Array Rat} {matrix : SparseMatrix Rat}
    (h : IsNodalSum vector mesh.numVertices mesh.numCells mesh.vertexList
      (PiecewiseSpace.linear.load mesh values))
    (hmatrix : matrix.IsCellSum mesh.numVertices mesh.numCells mesh.vertexList mesh.mass)
    {v : Nat} (hv : v < mesh.numVertices) :
    vector[v]? = some (matrix.mulVec (values.getD · 0) v) := by
  rw [h.getElem?_eq v hv, hmatrix.mulVec_eq fun cell hc w => hmesh.lt_of_mem_vertexList hc]
  rfl

theorem IsNodalSum.sum_eq_integral {space : PiecewiseSpace} {values vector : Array Rat}
    (h : IsNodalSum vector mesh.numVertices mesh.numCells mesh.vertexList
      (space.load mesh values)) :
    vector.toList.sum =
      ∑ cell ∈ Finset.range mesh.numCells, space.cellIntegral mesh values cell := by
  rw [h.sum_eq fun cell hc v => hmesh.lt_of_mem_vertexList hc]
  apply Finset.sum_congr rfl
  intro cell hcell
  exact hmesh.sum_load (Finset.mem_range.mp hcell) space values

/-- All places of a coefficient on a cell are below the number of its values. -/
theorem PiecewiseSpace.lt_of_mem_cellDofs (space : PiecewiseSpace) {cell : Nat}
    (hc : cell < mesh.numCells) {i : Nat} (hi : i ∈ space.cellDofs mesh cell) :
    i < space.numDofs mesh := by
  cases space with
  | constant =>
      rw [List.mem_singleton.mp hi]
      exact hc
  | linear => exact hmesh.lt_of_mem_vertexList hc hi

theorem PiecewiseSpace.getD_replicate (space : PiecewiseSpace) (a : Rat) {cell : Nat}
    (hc : cell < mesh.numCells) :
    ∀ i ∈ space.cellDofs mesh cell, (Array.replicate (space.numDofs mesh) a).getD i 0 = a := by
  intro i hi
  have hlt := space.lt_of_mem_cellDofs hmesh hc hi
  rw [Array.getD_eq_getD_getElem?, Array.getElem?_replicate, if_pos hlt, Option.getD_some]

/-- Two sources with one value everywhere, the same for both, have the same loads. -/
theorem IsNodalSum.eq_of_constant {space space' : PiecewiseSpace} {a : Rat}
    {vector vector' : Array Rat}
    (h : IsNodalSum vector mesh.numVertices mesh.numCells mesh.vertexList
      (space.load mesh (Array.replicate (space.numDofs mesh) a)))
    (h' : IsNodalSum vector' mesh.numVertices mesh.numCells mesh.vertexList
      (space'.load mesh (Array.replicate (space'.numDofs mesh) a))) : vector = vector' := by
  refine h.eq ((isNodalSum_renumbered_iff (Set.bijOn_id _) (fun _ _ _ => Iff.rfl) ?_).mp h')
  intro cell hc v hv
  rw [hmesh.load_of_constant hc space' (space'.getD_replicate hmesh a hc) hv]
  exact (hmesh.load_of_constant hc space (space.getD_replicate hmesh a hc) hv).symm

end Assembled

namespace Form

/-- Loads, masses and integrals on a mesh that fills its space, be its cells degenerate or not. The
load vector of a linear source is the mass matrix times its values, the load vector of any source
adds up to the integral of the source, and a source with one value everywhere may be given by its
values on the cells or at the vertices. All these are assembled if the counts of the mesh can be
stored. -/
theorem loads_agree {data : MeshData Rat} {mesh : Mesh Rat} (hdata : Mesh.ofData data = .ok mesh)
    (hvolumetric : mesh.geometricDimension = mesh.dimension) (first second : SerialAssembler Rat) :
    (mesh.numVertices < Index.capacity →
      3 * (mesh.numCells * ((mesh.dimension + 1) * (mesh.dimension + 1))) < Index.capacity →
      (mesh.numVertices + 1 < Index.capacity →
        ∃ matrix, (first.assembleMatrix (mass mesh.shape) mesh []).1.result = .ok matrix) ∧
        ∀ (space : PiecewiseSpace) (values : Array Rat), values.size = space.numDofs mesh →
          (∃ b, (first.assembleVector (source mesh.shape space) mesh [values]).1.result = .ok b) ∧
            ∃ s, (first.assembleScalar (integral mesh.shape space) mesh [values]).1.result =
              .ok s) ∧
    (∀ f b matrix, (first.assembleVector (source mesh.shape .linear) mesh [f]).1.result = .ok b →
      (second.assembleMatrix (mass mesh.shape) mesh []).1.result = .ok matrix →
      b.size = mesh.numVertices ∧ matrix.numRows = mesh.numVertices ∧
        matrix.numCols = mesh.numVertices ∧
        ∀ v < mesh.numVertices, b[v]? = some (matrix.mulVec (f.getD · 0) v)) ∧
    (∀ space values b s,
      (first.assembleVector (source mesh.shape space) mesh [values]).1.result = .ok b →
      (second.assembleScalar (integral mesh.shape space) mesh [values]).1.result = .ok s →
      b.toList.sum = s) ∧
    ∀ (a : Rat) (space space' : PiecewiseSpace),
      (∀ b b', (first.assembleVector (source mesh.shape space) mesh
          [Array.replicate (space.numDofs mesh) a]).1.result = .ok b →
        (second.assembleVector (source mesh.shape space') mesh
          [Array.replicate (space'.numDofs mesh) a]).1.result = .ok b' → b = b') ∧
      ∀ s s', (first.assembleScalar (integral mesh.shape space) mesh
          [Array.replicate (space.numDofs mesh) a]).1.result = .ok s →
        (second.assembleScalar (integral mesh.shape space') mesh
          [Array.replicate (space'.numDofs mesh) a]).1.result = .ok s' → s = s' := by
  have hmesh := Mesh.wellFormed_of_ofData hdata
  refine ⟨?_, ?_⟩
  · intro hvertices htriplets
    obtain ⟨hmatrices, hvalues⟩ := exists_results hmesh hvolumetric first hvertices htriplets
    exact ⟨fun hoffsets => (hmatrices hoffsets).1, hvalues⟩
  simp only [result_source_iff hmesh hvolumetric, result_mass_iff hmesh hvolumetric,
    result_integral_iff hmesh hvolumetric]
  refine ⟨?_, ?_, ?_⟩
  · rintro f b matrix ⟨-, -, hvector⟩ ⟨-, -, hmatrix⟩
    exact ⟨hvector.size_eq, hmatrix.numRows_eq, hmatrix.numCols_eq,
      fun v hv => hvector.getElem?_eq_mulVec hmesh hmatrix hv⟩
  · rintro space values b s ⟨-, -, hvector⟩ ⟨-, -, hs⟩
    rw [hs, hvector.sum_eq_integral hmesh]
  · intro a space space'
    constructor
    · rintro b b' ⟨-, -, hvector⟩ ⟨-, -, hvector'⟩
      exact hvector.eq_of_constant hmesh hvector'
    · rintro s s' ⟨-, -, hs⟩ ⟨-, -, hs'⟩
      rw [hs, hs']
      apply Finset.sum_congr rfl
      intro cell hcell
      have hc := Finset.mem_range.mp hcell
      rw [hmesh.cellIntegral_of_constant hc space (space.getD_replicate hmesh a hc),
        hmesh.cellIntegral_of_constant hc space' (space'.getD_replicate hmesh a hc)]

/-- A short and a long interval, listed in opposite directions. -/
theorem loads_agree_on_two_intervals :
    let data : MeshData Rat := ⟨.interval, 1, #[0, 1, 3], #[0, 1, 2, 1]⟩
    let mesh : Mesh Rat :=
      { shape := .interval, geometricDimension := 1, points := #[[0], [1], [3]],
        cells := #[[0, 1], [2, 1]] }
    let matrix : SparseMatrix Rat :=
      ⟨3, 3, #[[(0, 1 / 3), (1, 1 / 6)], [(0, 1 / 6), (1, 1), (2, 1 / 3)],
        [(1, 1 / 3), (2, 2 / 3)]]⟩
    let assembler : SerialAssembler Rat := .fresh {}
    let f : Array Rat := #[6, 0, 9]
    Mesh.ofData data = .ok mesh ∧ mesh.geometricDimension = mesh.dimension ∧
      (assembler.assembleMatrix (mass mesh.shape) mesh []).1.result = .ok matrix ∧
      (assembler.assembleVector (source mesh.shape .linear) mesh [f]).1.result =
        .ok #[2, 4, 6] ∧
      (assembler.assembleScalar (integral mesh.shape .linear) mesh [f]).1.result = .ok 12 ∧
      (∀ v < 3, (#[2, 4, 6] : Array Rat)[v]? = some (matrix.mulVec (f.getD · 0) v)) ∧
      (#[2, 4, 6] : Array Rat).toList.sum = 12 := by
  intro data mesh matrix assembler f
  have hdata : Mesh.ofData data = .ok mesh := Mesh.ofData_eq_ok_iff.mpr (by decide +kernel)
  have hmatrix : (assembler.assembleMatrix (mass mesh.shape) mesh []).1.result = .ok matrix := by
    decide +kernel
  have hvector : (assembler.assembleVector (source mesh.shape .linear) mesh [f]).1.result =
      .ok #[2, 4, 6] := by
    decide +kernel
  have hscalar : (assembler.assembleScalar (integral mesh.shape .linear) mesh [f]).1.result =
      .ok 12 := by
    decide +kernel
  obtain ⟨-, hproduct, hsum, -⟩ := loads_agree hdata rfl assembler assembler
  exact ⟨hdata, rfl, hmatrix, hvector, hscalar, (hproduct f _ _ hvector hmatrix).2.2.2,
    hsum .linear f _ _ hvector hscalar⟩

end Form
end FiniteElement
