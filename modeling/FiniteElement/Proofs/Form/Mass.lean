import Mathlib
import FiniteElement.Proofs.Form.Loads
import FiniteElement.Proofs.Samples

/-! # The mass matrix

On exact numbers the rows of the mass matrix share the volume of the mesh among
its vertices, and its quadratic form is a sum of squares of the values at the
vertices and of their sums on the cells. On a mesh without degenerate cells it
is therefore positive on all values that do not vanish on every cell.
-/

namespace FiniteElement

namespace Mesh

variable {mesh : Mesh Rat}

/-- The masses of a cell make a sum of squares. -/
theorem sum_mass_mul (mesh : Mesh Rat) (cell : Nat) (u : Nat → Rat) :
    ∑ v ∈ (mesh.vertexList cell).toFinset, ∑ w ∈ (mesh.vertexList cell).toFinset,
        u v * mesh.mass cell v w * u w =
      (mesh.simplex cell).volume / ((mesh.dimension + 1) * (mesh.dimension + 2)) *
        (∑ v ∈ (mesh.vertexList cell).toFinset, u v ^ 2 +
          (∑ v ∈ (mesh.vertexList cell).toFinset, u v) ^ 2) := by
  have hrow : ∀ v ∈ (mesh.vertexList cell).toFinset,
      ∑ w ∈ (mesh.vertexList cell).toFinset, u v * mesh.mass cell v w * u w =
        (mesh.simplex cell).volume / ((mesh.dimension + 1) * (mesh.dimension + 2)) *
          (u v ^ 2 + u v * ∑ w ∈ (mesh.vertexList cell).toFinset, u w) := by
    intro v hv
    have hterm : ∀ w, u v * mesh.mass cell v w * u w =
        (mesh.simplex cell).volume / ((mesh.dimension + 1) * (mesh.dimension + 2)) *
          ((if v = w then u v * u w else 0) + u v * u w) := by
      intro w
      rw [mass_eq]
      split <;> ring
    simp only [hterm]
    rw [← Finset.mul_sum, Finset.sum_add_distrib, Finset.sum_ite_eq, if_pos hv, ← Finset.mul_sum,
      pow_two]
  rw [Finset.sum_congr rfl hrow, ← Finset.mul_sum, Finset.sum_add_distrib, ← Finset.sum_mul,
    ← pow_two]

namespace WellFormed

variable (hmesh : mesh.WellFormed) {cell : Nat} (hc : cell < mesh.numCells)

include hmesh hc

/-- The masses of a cell add up to its volume. -/
theorem sum_sum_mass : ∑ v ∈ (mesh.vertexList cell).toFinset,
    ∑ w ∈ (mesh.vertexList cell).toFinset, mesh.mass cell v w = (mesh.simplex cell).volume := by
  have hpos : (mesh.dimension : Rat) + 1 ≠ 0 := by positivity
  rw [Finset.sum_congr rfl fun v hv => hmesh.sum_mass hc (List.mem_toFinset.mp hv),
    Finset.sum_const, hmesh.card_vertexList hc, nsmul_eq_mul]
  push_cast
  field_simp

theorem sum_vertexList (f : Nat → Rat) :
    ∑ v ∈ (mesh.vertexList cell).toFinset, f v = ((mesh.vertexList cell).map f).sum :=
  List.sum_toFinset f (hmesh.nodup_vertexList hc)

end WellFormed
end Mesh

namespace SparseMatrix.IsCellSum

variable {mesh : Mesh Rat} {matrix : SparseMatrix Rat}
  (h : matrix.IsCellSum mesh.numVertices mesh.numCells mesh.vertexList mesh.mass)
  (hmesh : mesh.WellFormed)

include h hmesh

/-- Each vertex has its share of all cells that it is in. -/
theorem sum_row_eq_shares (i : Nat) :
    ∑ j ∈ Finset.range mesh.numVertices, matrix.entry i j =
      ∑ cell ∈ Finset.range mesh.numCells with i ∈ mesh.vertexList cell,
        (mesh.simplex cell).volume / (mesh.dimension + 1) := by
  have hones := h.mulVec_eq (fun cell hc v => hmesh.lt_of_mem_vertexList hc) (fun _ => 1) i
  rw [mulVec, h.numCols_eq] at hones
  simp only [mul_one] at hones
  rw [hones, Finset.sum_filter]
  apply Finset.sum_congr rfl
  intro cell hcell
  by_cases hi : i ∈ mesh.vertexList cell
  · rw [if_pos hi, if_pos hi, hmesh.sum_mass (Finset.mem_range.mp hcell) hi]
  · rw [if_neg hi, if_neg hi]

theorem sum_values_eq_volume : matrix.values.toList.sum =
    ∑ cell ∈ Finset.range mesh.numCells, (mesh.simplex cell).volume := by
  rw [h.compressed.sum_values, h.energy_eq fun cell hc v => hmesh.lt_of_mem_vertexList hc]
  apply Finset.sum_congr rfl
  intro cell hcell
  simp only [one_mul, mul_one]
  exact hmesh.sum_sum_mass (Finset.mem_range.mp hcell)

theorem energy_eq_sum_squares (u : Nat → Rat) :
    matrix.energy u = ∑ cell ∈ Finset.range mesh.numCells,
      (mesh.simplex cell).volume / ((mesh.dimension + 1) * (mesh.dimension + 2)) *
        (((mesh.vertexList cell).map fun v => u v ^ 2).sum +
          ((mesh.vertexList cell).map u).sum ^ 2) := by
  rw [h.energy_eq fun cell hc v => hmesh.lt_of_mem_vertexList hc]
  apply Finset.sum_congr rfl
  intro cell hcell
  have hc := Finset.mem_range.mp hcell
  rw [mesh.sum_mass_mul, hmesh.sum_vertexList hc, hmesh.sum_vertexList hc]

/-- Where no cell is degenerate, one value at a vertex of a cell makes the quadratic form
positive. -/
theorem energy_pos (hdet : ∀ cell < mesh.numCells, (mesh.simplex cell).det ≠ 0) {u : Nat → Rat}
    {cell v : Nat} (hc : cell < mesh.numCells) (hv : v ∈ mesh.vertexList cell) (hu : u v ≠ 0) :
    0 < matrix.energy u := by
  have hsquare : ∀ values : List Rat, ∀ x ∈ values.map fun y => y ^ 2, 0 ≤ x := by
    intro values x hx
    obtain ⟨y, -, heq⟩ := List.mem_map.mp hx
    exact heq ▸ sq_nonneg y
  rw [h.energy_eq_sum_squares hmesh]
  apply Finset.sum_pos'
  · intro other _
    have hsum := List.sum_nonneg (hsquare ((mesh.vertexList other).map u))
    rw [List.map_map] at hsum
    exact mul_nonneg (div_nonneg (AffineCell.volume_nonneg _) (by positivity))
      (add_nonneg hsum (sq_nonneg _))
  · refine ⟨cell, Finset.mem_range.mpr hc, ?_⟩
    have hvolume := AffineCell.volume_pos_iff.mpr (hdet cell hc)
    have hsum := List.single_le_sum (hsquare ((mesh.vertexList cell).map u)) (u v ^ 2)
      (List.mem_map_of_mem (List.mem_map_of_mem hv))
    rw [List.map_map] at hsum
    have hpos : 0 < u v ^ 2 := by positivity
    exact mul_pos (by positivity)
      (add_pos_of_pos_of_nonneg (lt_of_lt_of_le hpos hsum) (sq_nonneg _))

end SparseMatrix.IsCellSum

namespace Form

/-- On a mesh that fills its space the mass matrix is assembled if its counts can be stored. It is
symmetric, its rows share the cells among their vertices, all its entries add up to the volume of
the mesh, and its quadratic form is a sum of squares, positive where no cell is degenerate and some
vertex of a cell has a value. -/
theorem mass_energy {data : MeshData Rat} {mesh : Mesh Rat} (hdata : Mesh.ofData data = .ok mesh)
    (hvolumetric : mesh.geometricDimension = mesh.dimension) (assembler : SerialAssembler Rat) :
    ∃ (vertices : Nat → List Nat) (simplex : Nat → AffineCell Rat),
      (∀ cell < mesh.numCells, mesh.cellVertices cell = .ok (vertices cell) ∧
        mesh.affineCell cell = .ok (simplex cell)) ∧
      ((∃ matrix, (assembler.assembleMatrix (mass mesh.shape) mesh []).1.result = .ok matrix) ↔
        mesh.numVertices + 1 < Index.capacity ∧
          3 * (mesh.numCells * ((mesh.dimension + 1) * (mesh.dimension + 1))) < Index.capacity) ∧
      ∀ matrix, (assembler.assembleMatrix (mass mesh.shape) mesh []).1.result = .ok matrix →
        matrix.numRows = mesh.numVertices ∧ matrix.numCols = mesh.numVertices ∧
        (∀ i j, matrix.value? i j = matrix.value? j i) ∧
        (∀ i < mesh.numVertices, ∑ j ∈ Finset.range mesh.numVertices, matrix.entry i j =
          ∑ cell ∈ Finset.range mesh.numCells with i ∈ vertices cell,
            (simplex cell).volume / (mesh.dimension + 1)) ∧
        matrix.values.toList.sum = ∑ cell ∈ Finset.range mesh.numCells, (simplex cell).volume ∧
        ∀ u : Nat → Rat,
          matrix.energy u = ∑ cell ∈ Finset.range mesh.numCells,
            (simplex cell).volume / ((mesh.dimension + 1) * (mesh.dimension + 2)) *
              (((vertices cell).map fun v => u v ^ 2).sum + ((vertices cell).map u).sum ^ 2) ∧
          ((∀ cell < mesh.numCells, (simplex cell).det ≠ 0) →
            (∃ cell < mesh.numCells, ∃ v ∈ vertices cell, u v ≠ 0) → 0 < matrix.energy u) := by
  have hmesh := Mesh.wellFormed_of_ofData hdata
  refine ⟨mesh.vertexList, mesh.simplex, ?_, ?_, ?_⟩
  · intro cell hc
    exact ⟨Mesh.cellVertices_eq_ok hc, hmesh.affineCell_eq_ok hvolumetric hc⟩
  · constructor
    · rintro ⟨matrix, hmatrix⟩
      obtain ⟨hoffsets, htriplets, -⟩ := (result_mass_iff hmesh hvolumetric assembler).mp hmatrix
      exact ⟨hoffsets, htriplets⟩
    · rintro ⟨hoffsets, htriplets⟩
      exact exists_result_mass hmesh hvolumetric assembler hoffsets htriplets
  · intro matrix hmatrix
    obtain ⟨-, -, h⟩ := (result_mass_iff hmesh hvolumetric assembler).mp hmatrix
    refine ⟨h.numRows_eq, h.numCols_eq, h.value?_comm mesh.mass_comm,
      fun i _ => h.sum_row_eq_shares hmesh i, h.sum_values_eq_volume hmesh, ?_⟩
    intro u
    refine ⟨h.energy_eq_sum_squares hmesh u, ?_⟩
    rintro hdet ⟨cell, hc, v, hv, hu⟩
    exact h.energy_pos hmesh hdet hc hv hu

/-- A rectangle of two triangles that are turned against each other: a vertex that both have gets
two thirds of its area. -/
theorem mass_energy_on_two_triangles :
    let data : MeshData Rat := ⟨.triangle, 2, #[0, 0, 2, 0, 0, 1, 2, 1], #[0, 1, 2, 3, 1, 2]⟩
    let mesh := Sample.rectangle [3, 1, 2]
    Mesh.ofData data = .ok mesh ∧ mesh.geometricDimension = mesh.dimension ∧
      ∃ matrix, ((SerialAssembler.fresh {}).assembleMatrix (mass mesh.shape) mesh []).1.result =
        .ok matrix ∧ ∑ j ∈ Finset.range mesh.numVertices, matrix.entry 1 j = 2 / 3 ∧
          matrix.values.toList.sum = 2 ∧
          matrix.energy (fun v => if v = 0 then 3 else 1) = 4 ∧
          ∀ u : Nat → Rat, u 3 ≠ 0 → 0 < matrix.energy u := by
  intro data mesh
  have hdata : Mesh.ofData data = .ok mesh := Sample.ofData_rectangle (by decide)
  have hcells : ∀ cell < mesh.numCells, mesh.cellVertices cell = .ok (mesh.vertexList cell) ∧
      mesh.affineCell cell = .ok (mesh.simplex cell) ∧ (mesh.simplex cell).det ≠ 0 := by
    decide +kernel
  obtain ⟨vertices, simplex, hknown, hexists, h⟩ :=
    mass_energy hdata rfl (SerialAssembler.fresh {})
  have hvertices : ∀ cell < mesh.numCells, vertices cell = mesh.vertexList cell := fun cell hc =>
    Except.ok.inj ((hknown cell hc).1.symm.trans (hcells cell hc).1)
  have hsimplex : ∀ cell < mesh.numCells, simplex cell = mesh.simplex cell := fun cell hc =>
    Except.ok.inj ((hknown cell hc).2.symm.trans (hcells cell hc).2.1)
  obtain ⟨matrix, hmatrix⟩ := hexists.mpr (by decide)
  obtain ⟨-, -, -, hrows, hvalues, henergy⟩ := h matrix hmatrix
  have hrange : Finset.range mesh.numCells = {0, 1} := by decide
  refine ⟨hdata, rfl, matrix, hmatrix, ?_, ?_, ?_, ?_⟩
  · rw [hrows 1 (by decide), Finset.sum_filter, hrange, Finset.sum_pair (by decide),
      hvertices 0 (by decide), hvertices 1 (by decide), hsimplex 0 (by decide),
      hsimplex 1 (by decide)]
    decide +kernel
  · rw [hvalues, hrange, Finset.sum_pair (by decide), hsimplex 0 (by decide),
      hsimplex 1 (by decide)]
    decide +kernel
  · rw [(henergy _).1, hrange, Finset.sum_pair (by decide), hvertices 0 (by decide),
      hvertices 1 (by decide), hsimplex 0 (by decide), hsimplex 1 (by decide)]
    decide +kernel
  · intro u hu
    apply (henergy u).2
    · intro cell hc
      rw [hsimplex cell hc]
      exact (hcells cell hc).2.2
    · refine ⟨1, by decide, 3, ?_, hu⟩
      rw [hvertices 1 (by decide)]
      decide

end Form
end FiniteElement
