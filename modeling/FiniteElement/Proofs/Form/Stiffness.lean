import Mathlib
import FiniteElement.Proofs.Form.Assembled
import FiniteElement.Proofs.Samples

/-! # The stiffness matrix

On exact numbers the quadratic form of the stiffness matrix is the integral of
the squared slope of the linear interpolation of nodal values, added up over the
cells. The matrix is symmetric, its rows add up to zero, and its quadratic form
vanishes exactly on the values that do not vary on any cell.
-/

namespace FiniteElement

theorem Vec3.dot_ofList {d : Nat} (hd : d ≤ 3) (g : Nat → Rat) (x : List Rat) :
    (ofFn fun k => if k < d then g k else 0).dot (ofList x) =
      ∑ k ∈ Finset.range d, g k * x.getD k 0 := by
  have hcomponents : (ofList x : Vec3 Rat) = ⟨x.getD 0 0, x.getD 1 0, x.getD 2 0⟩ := rfl
  rw [hcomponents, dot_eq]
  interval_cases d
  all_goals simp [ofFn, Finset.sum_range_succ]

theorem Vec3.dot_self_ofFn {d : Nat} (hd : d ≤ 3) (g : Nat → Rat) :
    (ofFn fun k => if k < d then g k else 0).dot (ofFn fun k => if k < d then g k else 0) =
      ∑ k ∈ Finset.range d, g k ^ 2 := by
  rw [dot_eq]
  interval_cases d
  all_goals simp [ofFn, Finset.sum_range_succ, pow_two]

theorem Vec3.isFlat_ofFn (d : Nat) (g : Nat → Rat) :
    (ofFn fun k => if k < d then g k else 0).IsFlat d := by
  intro k hk hlt
  rw [dot_unit_ofFn _ hlt]
  exact if_neg (Nat.not_lt.mpr hk)

namespace Mesh

variable {mesh : Mesh Rat}

/-- The gradient on a cell of the linear interpolation of the values at its vertices. -/
def slope (mesh : Mesh Rat) (cell : Nat) (u : Nat → Rat) : Vec3 Rat :=
  Vec3.combination (mesh.vertexList cell).toFinset u (mesh.gradient cell)

theorem WellFormed.hatGradients (hmesh : mesh.WellFormed) {cell : Nat} (hc : cell < mesh.numCells)
    (hdet : (mesh.simplex cell).det ≠ 0) :
    HatGradients mesh.dimension (mesh.vertexList cell).toFinset mesh.position
      (mesh.gradient cell) := by
  have hlength := hmesh.length_vertexList hc
  have hle : mesh.dimension ≤ 3 := mesh.shape.dimension_le_three
  have h := AffineCell.hatGradients_ofVertices (hmesh.nodup_vertexList hc)
    (hlength ▸ Nat.succ_pos _) (hlength ▸ Nat.succ_le_succ hle) hdet
  rw [hlength, Nat.add_sub_cancel] at h
  exact h

/-- The stiffnesses of a cell make the integral of the squared slope. -/
theorem sum_stiffness (mesh : Mesh Rat) (cell : Nat) (u : Nat → Rat) :
    ∑ v ∈ (mesh.vertexList cell).toFinset, ∑ w ∈ (mesh.vertexList cell).toFinset,
        u v * mesh.stiffness cell v w * u w =
      (mesh.simplex cell).volume * (mesh.slope cell u).dot (mesh.slope cell u) := by
  rw [slope, ← Vec3.sum_dot_eq_dot_combination, Finset.mul_sum]
  apply Finset.sum_congr rfl
  intro v _
  rw [Finset.mul_sum]
  apply Finset.sum_congr rfl
  intro w _
  rw [stiffness]
  ring

end Mesh

namespace SparseMatrix.IsCellSum

variable {mesh : Mesh Rat} {matrix : SparseMatrix Rat}
  (h : matrix.IsCellSum mesh.numVertices mesh.numCells mesh.vertexList mesh.stiffness)
  (hmesh : mesh.WellFormed)

include h hmesh

theorem energy_eq_sum_slopes (u : Nat → Rat) :
    matrix.energy u = ∑ cell ∈ Finset.range mesh.numCells,
      (mesh.simplex cell).volume * (mesh.slope cell u).dot (mesh.slope cell u) := by
  rw [h.energy_eq fun cell hc v => hmesh.lt_of_mem_vertexList hc]
  apply Finset.sum_congr rfl
  intro cell _
  exact mesh.sum_stiffness cell u

theorem energy_nonneg (u : Nat → Rat) : 0 ≤ matrix.energy u := by
  rw [h.energy_eq_sum_slopes hmesh]
  apply Finset.sum_nonneg
  intro cell _
  exact mul_nonneg (AffineCell.volume_nonneg _) (Vec3.dot_self_nonneg _)

variable (hdet : ∀ cell < mesh.numCells, (mesh.simplex cell).det ≠ 0)

include hdet

theorem sum_entry_eq_zero (i : Nat) :
    ∑ j ∈ Finset.range mesh.numVertices, matrix.entry i j = 0 := by
  have hones := h.mulVec_eq (fun cell hc v => hmesh.lt_of_mem_vertexList hc) (fun _ => 1) i
  rw [mulVec, h.numCols_eq] at hones
  simp only [mul_one] at hones
  rw [hones]
  apply Finset.sum_eq_zero
  intro cell hcell
  have hgradients := hmesh.hatGradients (Finset.mem_range.mp hcell)
    (hdet cell (Finset.mem_range.mp hcell))
  split
  case isTrue hi =>
      simp only [mesh.stiffness_comm cell i]
      simp only [Mesh.stiffness]
      rw [← Finset.mul_sum, hgradients.sum_dot_gradient, mul_zero]
  case isFalse => rfl

/-- The quadratic form vanishes exactly on values that are constant on each cell. -/
theorem energy_eq_zero_iff (u : Nat → Rat) :
    matrix.energy u = 0 ↔ ∀ cell < mesh.numCells,
      ∀ v ∈ mesh.vertexList cell, ∀ w ∈ mesh.vertexList cell, u v = u w := by
  have hterm : ∀ cell ∈ Finset.range mesh.numCells,
      0 ≤ (mesh.simplex cell).volume * (mesh.slope cell u).dot (mesh.slope cell u) :=
    fun cell _ => mul_nonneg (AffineCell.volume_nonneg _) (Vec3.dot_self_nonneg _)
  rw [h.energy_eq_sum_slopes hmesh, Finset.sum_eq_zero_iff_of_nonneg hterm]
  simp only [Finset.mem_range]
  apply forall₂_congr
  intro cell hc
  have hvolume := (AffineCell.volume_pos_iff.mpr (hdet cell hc)).ne'
  rw [mul_eq_zero, or_iff_right hvolume, Vec3.dot_self_eq_zero_iff, Mesh.slope,
    (hmesh.hatGradients hc (hdet cell hc)).combination_eq_zero_iff]
  simp only [List.mem_toFinset]

/-- Values of an affine function have the energy of its gradient. -/
theorem energy_of_affine {u g : Nat → Rat} {b : Rat} (hu : ∀ v < mesh.numVertices,
      u v = ∑ k ∈ Finset.range mesh.dimension, g k * (mesh.points.getD v []).getD k 0 + b) :
    matrix.energy u = (∑ k ∈ Finset.range mesh.dimension, g k ^ 2) *
      ∑ cell ∈ Finset.range mesh.numCells, (mesh.simplex cell).volume := by
  have hle : mesh.dimension ≤ 3 := mesh.shape.dimension_le_three
  rw [h.energy_eq_sum_slopes hmesh, Finset.mul_sum, ← Vec3.dot_self_ofFn hle]
  apply Finset.sum_congr rfl
  intro cell hcell
  have hc := Finset.mem_range.mp hcell
  have hslope : mesh.slope cell u = Vec3.ofFn fun k => if k < mesh.dimension then g k else 0 := by
    apply (hmesh.hatGradients hc (hdet cell hc)).combination_eq_of_affine (Vec3.isFlat_ofFn _ g)
      (b := b)
    intro v hv
    rw [hu v (hmesh.lt_of_mem_vertexList hc (List.mem_toFinset.mp hv)), Mesh.position,
      Vec3.dot_ofList hle]
  rw [hslope, mul_comm]

end SparseMatrix.IsCellSum
namespace Form

/-- On a mesh without degenerate cells the stiffness matrix is assembled if its counts can be
stored. It is symmetric and positive semidefinite, takes constants to zero, vanishes exactly on what
is constant on each cell, and measures the slope of affine functions over the volume of the mesh. -/
theorem laplace_energy {data : MeshData Rat} {mesh : Mesh Rat} (hdata : Mesh.ofData data = .ok mesh)
    (hvolumetric : mesh.geometricDimension = mesh.dimension) {simplex : Nat → AffineCell Rat}
    (hcells : ∀ cell < mesh.numCells,
      mesh.affineCell cell = .ok (simplex cell) ∧ (simplex cell).det ≠ 0)
    (assembler : SerialAssembler Rat) :
    ((∃ matrix, (assembler.assembleMatrix (laplace mesh.shape) mesh []).1.result = .ok matrix) ↔
      mesh.numVertices + 1 < Index.capacity ∧
        3 * (mesh.numCells * ((mesh.dimension + 1) * (mesh.dimension + 1))) < Index.capacity) ∧
    ∀ matrix, (assembler.assembleMatrix (laplace mesh.shape) mesh []).1.result = .ok matrix →
      matrix.numRows = mesh.numVertices ∧ matrix.numCols = mesh.numVertices ∧
      (∀ i j, matrix.value? i j = matrix.value? j i) ∧
      (∀ i < mesh.numVertices, ∑ j ∈ Finset.range mesh.numVertices, matrix.entry i j = 0) ∧
      ∀ u : Nat → Rat, 0 ≤ matrix.energy u ∧
        (matrix.energy u = 0 ↔ ∀ cell < mesh.numCells, ∀ vertices,
          mesh.cellVertices cell = .ok vertices → ∀ v ∈ vertices, ∀ w ∈ vertices, u v = u w) ∧
        ∀ (g : Nat → Rat) (b : Rat), (∀ v < mesh.numVertices, ∀ x, mesh.vertex v = .ok x →
          u v = ∑ k ∈ Finset.range mesh.dimension, g k * x.getD k 0 + b) →
            matrix.energy u = (∑ k ∈ Finset.range mesh.dimension, g k ^ 2) *
              ∑ cell ∈ Finset.range mesh.numCells, (simplex cell).volume := by
  have hmesh := Mesh.wellFormed_of_ofData hdata
  have hsimplex : ∀ cell < mesh.numCells, simplex cell = mesh.simplex cell := by
    intro cell hc
    have hcell := (hcells cell hc).1
    rw [hmesh.affineCell_eq_ok hvolumetric hc, Except.ok.injEq] at hcell
    exact hcell.symm
  have hdet : ∀ cell < mesh.numCells, (mesh.simplex cell).det ≠ 0 := by
    intro cell hc
    rw [← hsimplex cell hc]
    exact (hcells cell hc).2
  constructor
  · constructor
    · rintro ⟨matrix, hmatrix⟩
      obtain ⟨hoffsets, htriplets, -⟩ :=
        (result_laplace_iff hmesh hvolumetric assembler).mp hmatrix
      exact ⟨hoffsets, htriplets⟩
    · rintro ⟨hoffsets, htriplets⟩
      exact exists_result_laplace hmesh hvolumetric assembler hoffsets htriplets
  · intro matrix hmatrix
    obtain ⟨-, -, h⟩ := (result_laplace_iff hmesh hvolumetric assembler).mp hmatrix
    refine ⟨h.numRows_eq, h.numCols_eq, h.value?_comm mesh.stiffness_comm,
      fun i _ => h.sum_entry_eq_zero hmesh hdet i, ?_⟩
    intro u
    refine ⟨h.energy_nonneg hmesh u, ?_, ?_⟩
    · rw [h.energy_eq_zero_iff hmesh hdet]
      apply forall₂_congr
      intro cell hc
      simp only [Mesh.cellVertices_eq_ok hc, Except.ok.injEq, forall_eq']
    · intro g b hu
      rw [h.energy_of_affine hmesh hdet (g := g) (b := b)]
      · apply congrArg
        apply Finset.sum_congr rfl
        intro cell hcell
        rw [hsimplex cell (Finset.mem_range.mp hcell)]
      · intro v hv
        exact hu v hv _ (Mesh.vertex_eq_ok hv)

/-- A rectangle of two triangles that are turned against each other: the function that doubles the
second coordinate has the energy `4` over an area of `2`. -/
theorem laplace_energy_on_two_triangles :
    let data : MeshData Rat := ⟨.triangle, 2, #[0, 0, 2, 0, 0, 1, 2, 1], #[0, 1, 2, 3, 1, 2]⟩
    let mesh := Sample.rectangle [3, 1, 2]
    let u : Nat → Rat := fun v => if v < 2 then 0 else 2
    Mesh.ofData data = .ok mesh ∧ mesh.geometricDimension = mesh.dimension ∧
      (∀ cell < mesh.numCells, mesh.affineCell cell = .ok (mesh.simplex cell) ∧
        (mesh.simplex cell).det ≠ 0) ∧
      ∃ matrix, ((SerialAssembler.fresh {}).assembleMatrix (laplace mesh.shape) mesh []).1.result =
        .ok matrix ∧ matrix.energy u = 8 := by
  intro data mesh u
  have hdata : Mesh.ofData data = .ok mesh := Sample.ofData_rectangle (by decide)
  have hcells : ∀ cell < mesh.numCells, mesh.affineCell cell = .ok (mesh.simplex cell) ∧
      (mesh.simplex cell).det ≠ 0 := by
    decide +kernel
  let g : Nat → Rat := fun k => if k = 1 then 2 else 0
  have hvalues : ∀ v < mesh.numVertices, u v =
      ∑ k ∈ Finset.range mesh.dimension, g k * (mesh.points.getD v []).getD k 0 + 0 := by
    decide +kernel
  have haffine : ∀ v < mesh.numVertices, ∀ x, mesh.vertex v = .ok x →
      u v = ∑ k ∈ Finset.range mesh.dimension, g k * x.getD k 0 + 0 := by
    intro v hv x hx
    rw [Mesh.vertex_eq_ok hv, Except.ok.injEq] at hx
    rw [← hx]
    exact hvalues v hv
  have hnumber : (∑ k ∈ Finset.range mesh.dimension, g k ^ 2) *
      ∑ cell ∈ Finset.range mesh.numCells, (mesh.simplex cell).volume = 8 := by
    decide +kernel
  obtain ⟨hexists, h⟩ := laplace_energy hdata rfl hcells (SerialAssembler.fresh {})
  obtain ⟨matrix, hmatrix⟩ := hexists.mpr (by decide)
  obtain ⟨-, -, -, -, henergy⟩ := h matrix hmatrix
  exact ⟨hdata, rfl, hcells, matrix, hmatrix,
    ((henergy u).2.2 g 0 haffine).trans hnumber⟩

end Form
end FiniteElement
