import Mathlib
import FiniteElement.Proofs.Form.Mass
import FiniteElement.Proofs.Lattice.Volumes

/-! # The measure of the unit meshes

On exact numbers all cells of a unit mesh have the same volume, and together they
measure one: as the integral of the constant one over the mesh, whether it is given
by its values on the cells or at the vertices, and as the sum of all masses.
-/

namespace FiniteElement

open FiniteElement.Lattice

/-- A coefficient with one value everywhere has the integral of this value over the volume of the
mesh. -/
theorem Form.result_integral_replicate {mesh : Mesh Rat} (hmesh : mesh.WellFormed)
    (hvolumetric : mesh.geometricDimension = mesh.dimension) (assembler : SerialAssembler Rat)
    (space : PiecewiseSpace) (hdofs : space.numDofs mesh < Index.bound) (a : Rat) :
    (assembler.assembleScalar (integral mesh.shape space) mesh
        [Array.replicate (space.numDofs mesh) a]).1.result =
      .ok ((∑ cell ∈ Finset.range mesh.numCells, (mesh.simplex cell).volume) * a) := by
  rw [result_integral_iff hmesh hvolumetric]
  refine ⟨hdofs, Array.size_replicate.symm, ?_⟩
  rw [Finset.sum_mul]
  apply Finset.sum_congr rfl
  intro cell hcell
  have hc := Finset.mem_range.mp hcell
  exact (hmesh.cellIntegral_of_constant hc space (space.getD_replicate hmesh a hc)).symm

namespace UnitMesh

def cellVolume (kind : UnitMesh) (n : Nat) : Rat :=
  match kind with
  | interval => 1 / n
  | square => 1 / (2 * n ^ 2)
  | box => 1 / (6 * n ^ 3)

/-- A unit mesh is a lattice of cubes that are cut into cells of the same volume. -/
theorem exists_isLattice (kind : UnitMesh) {n : Nat} (hn : 1 ≤ n) :
    ∃ (d : Nat) (cut : Cut d), cut.Fills ∧ (kind.mesh n : Mesh Rat).IsLattice cut n ∧
      kind.cellVolume n = 1 / (d.factorial * n ^ d) := by
  cases kind with
  | interval =>
      exact ⟨1, intervalCut, fills_interval, isLattice_unitInterval hn, by simp [cellVolume]⟩
  | square => exact ⟨2, _, fills_square, isLattice_unitSquare hn, by simp [cellVolume]⟩
  | box => exact ⟨3, _, fills_box, isLattice_unitBox hn, by simp [cellVolume, Nat.factorial]⟩

/-- The entities that a unit mesh sets room aside for are those that it has. -/
theorem entityCounts_mesh {α : Type} [Scalar α] (kind : UnitMesh) {n : Nat} (hn : 1 ≤ n) :
    (kind.mesh n : Mesh α).entityCounts =
      ⟨(n + 1) ^ kind.shape.dimension :: (kind.innerCounts n ++ [kind.numCells n])⟩ := by
  cases kind with
  | interval =>
      have hvertices := numVertices_mesh (α := α) interval (Nat.ne_of_gt hn)
      have hcells := numCells_mesh (α := α) interval n
      rw [← hvertices, ← hcells]
      rfl
  | square => exact entityCounts_unitSquare hn
  | box => exact entityCounts_unitBox hn

/-- All degrees of freedom of both spaces have numbers if the mesh can be stored. -/
theorem IsStorable.numDofs_lt {kind : UnitMesh} {n : Nat} (h : kind.IsStorable n) (hn : 1 ≤ n)
    (space : PiecewiseSpace) : space.numDofs (kind.mesh n : Mesh Rat) < Index.bound := by
  have hle : Index.capacity ≤ Index.bound := by decide
  cases space with
  | constant =>
      have hcells := h.numCells_lt
      rw [← kind.numCells_mesh (α := Rat)] at hcells
      exact Nat.lt_of_lt_of_le hcells hle
  | linear =>
      have hvertices := h.succ_numVertices_lt (α := Rat) (Nat.ne_of_gt hn)
      exact Nat.lt_of_lt_of_le (Nat.lt_of_succ_lt hvertices) hle

/-- At every resolution that can be stored all cells of a unit mesh have the same volume and fill
the unit cube, the constant one has the integral one, and so do all masses together, which are
assembled if their triplets can be stored. -/
theorem measure_eq_one (kind : UnitMesh) {n : Nat} (hn : 1 ≤ n) (hstorable : kind.IsStorable n)
    (assembler : SerialAssembler Rat) :
    ∃ mesh : Mesh Rat, kind.build n = .ok mesh ∧
      mesh.numCells * kind.cellVolume n = 1 ∧
      (∀ cell < mesh.numCells, ∃ simplex, mesh.affineCell cell = .ok simplex ∧
        simplex.volume = kind.cellVolume n) ∧
      (∀ space : PiecewiseSpace,
        (assembler.assembleScalar (Form.integral mesh.shape space) mesh
          [Array.replicate (space.numDofs mesh) 1]).1.result = .ok 1) ∧
      ((∃ matrix, (assembler.assembleMatrix (Form.mass mesh.shape) mesh []).1.result = .ok matrix) ↔
        3 * (mesh.numCells * ((mesh.dimension + 1) * (mesh.dimension + 1))) < Index.capacity) ∧
      ∀ matrix, (assembler.assembleMatrix (Form.mass mesh.shape) mesh []).1.result = .ok matrix →
        matrix.values.toList.sum = 1 := by
  obtain ⟨d, cut, hcut, h, hvolume⟩ := kind.exists_isLattice hn
  have hvolumetric := h.geometricDimension_eq.trans h.dimension_eq.symm
  have hdofs := hstorable.numDofs_lt hn
  have hoffsets := hstorable.succ_numVertices_lt (α := Rat) (Nat.ne_of_gt hn)
  have htotal := h.sum_volume hcut hn
  generalize hmesh : (kind.mesh n : Mesh Rat) = mesh at h hvolumetric hdofs hoffsets htotal
  refine ⟨mesh, ?_, ?_, ?_, ?_, ?_, ?_⟩
  · exact build_eq_ok_iff.mpr ⟨hstorable, hmesh⟩
  · have hconstant : ∀ cell ∈ Finset.range mesh.numCells,
        (mesh.simplex cell).volume = kind.cellVolume n := by
      intro cell hcell
      rw [hvolume, h.volume_eq hcut (Finset.mem_range.mp hcell)]
    rw [Finset.sum_congr rfl hconstant, Finset.sum_const, Finset.card_range, nsmul_eq_mul] at htotal
    exact htotal
  · intro cell hc
    refine ⟨mesh.simplex cell, h.wellFormed.affineCell_eq_ok hvolumetric hc, ?_⟩
    rw [hvolume, h.volume_eq hcut hc]
  · intro space
    rw [Form.result_integral_replicate h.wellFormed hvolumetric assembler space (hdofs space),
      htotal, one_mul]
  · constructor
    · rintro ⟨matrix, hmatrix⟩
      exact ((Form.result_mass_iff h.wellFormed hvolumetric assembler).mp hmatrix).2.1
    · exact Form.exists_result_mass h.wellFormed hvolumetric assembler hoffsets
  · intro matrix hmatrix
    obtain ⟨-, -, hsum⟩ := (Form.result_mass_iff h.wellFormed hvolumetric assembler).mp hmatrix
    rw [hsum.sum_values_eq_volume h.wellFormed, htotal]

/-- Eight triangles of one eighth each. -/
theorem measure_eq_one_of_eight_triangles :
    ∃ mesh : Mesh Rat, UnitMesh.square.build 2 = .ok mesh ∧
      (∀ cell < mesh.numCells, ∃ simplex, mesh.affineCell cell = .ok simplex ∧
        simplex.volume = 1 / 8) ∧
      ((SerialAssembler.fresh {}).assembleScalar (Form.integral mesh.shape .constant) mesh
        [Array.replicate mesh.numCells 1]).1.result = .ok 1 ∧
      ∃ matrix,
        ((SerialAssembler.fresh {}).assembleMatrix (Form.mass mesh.shape) mesh []).1.result =
          .ok matrix ∧ matrix.values.toList.sum = 1 := by
  have hstorable : UnitMesh.square.IsStorable 2 := by decide
  obtain ⟨mesh, hbuild, -, hcells, hscalar, hexists, hmass⟩ :=
    measure_eq_one .square (by decide : 1 ≤ 2) hstorable (SerialAssembler.fresh {})
  have hmesh : UnitMesh.square.mesh 2 = mesh := (build_eq_ok_iff.mp hbuild).2
  have htriplets :
      3 * (mesh.numCells * ((mesh.dimension + 1) * (mesh.dimension + 1))) < Index.capacity := by
    rw [← hmesh]
    decide +kernel
  obtain ⟨matrix, hmatrix⟩ := hexists.mpr htriplets
  have hvolume : cellVolume .square 2 = 1 / 8 := by norm_num [cellVolume]
  rw [hvolume] at hcells
  exact ⟨mesh, hbuild, hcells, hscalar .constant, matrix, hmatrix, hmass matrix hmatrix⟩

/-- The vertices of `2 ^ 60` intervals have numbers, but their coordinates cannot be stored. -/
theorem unitInterval_not_built :
    2 ^ 60 + 1 < Index.bound ∧
      (UnitMesh.interval.build (2 ^ 60) : Except Fault (Mesh Rat)) = .error .tooManyEntries := by
  have hlarge : ¬ UnitMesh.interval.IsStorable (2 ^ 60) := by decide +kernel
  exact ⟨by decide +kernel, if_neg hlarge⟩

end UnitMesh
end FiniteElement
