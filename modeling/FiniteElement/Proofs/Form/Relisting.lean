import Mathlib
import FiniteElement.Proofs.Form.Assembled

/-! # Meshes listed in another order

A mesh may list its cells in any order, and each cell its vertices in any order,
which may turn the orientation of the cell. On exact numbers nothing that is
assembled from linear elements depends on that: volumes and gradients belong to
the vertices of a cell, and the sums run over all cells.
-/

namespace FiniteElement

/-- The values of a coefficient for cells in another order: those on cells go along with them, those
at vertices stay. -/
def PiecewiseSpace.relist {α : Type} [Scalar α] (space : PiecewiseSpace) (order : Nat → Nat)
    (values : Array α) : Array α :=
  match space with
  | .constant => (Array.range values.size).map fun cell => values.getD (order cell) Scalar.zero
  | .linear => values

theorem PiecewiseSpace.size_relist {α : Type} [Scalar α] (space : PiecewiseSpace)
    (order : Nat → Nat) (values : Array α) : (space.relist order values).size = values.size := by
  cases space with
  | constant => rw [relist, Array.size_map, Array.size_range]
  | linear => rfl

namespace Mesh

/-- The mesh has the cells of another one in some order, each with its vertices in some order. -/
structure Relists {α : Type} (mesh' mesh : Mesh α) (order : Nat → Nat) : Prop where
  shape_eq : mesh'.shape = mesh.shape
  geometricDimension_eq : mesh'.geometricDimension = mesh.geometricDimension
  points_eq : mesh'.points = mesh.points
  numCells_eq : mesh'.numCells = mesh.numCells
  bijOn : Set.BijOn order (Set.Iio mesh.numCells) (Set.Iio mesh.numCells)
  perm : ∀ cell < mesh.numCells, (mesh'.vertexList cell).Perm (mesh.vertexList (order cell))

namespace Relists

section Lists

variable {α : Type} {mesh' mesh : Mesh α} {order : Nat → Nat} (h : mesh'.Relists mesh order)

include h

theorem dimension_eq : mesh'.dimension = mesh.dimension := by
  rw [dimension, h.shape_eq, dimension]

theorem numVertices_eq : mesh'.numVertices = mesh.numVertices := by
  rw [numVertices, h.points_eq, numVertices]

theorem exists_perm {cell : List Nat} (hcell : cell ∈ mesh'.cells) :
    ∃ other ∈ mesh.cells, cell.Perm other := by
  obtain ⟨i, hi, heq⟩ := Array.getElem_of_mem hcell
  have hlt : i < mesh.numCells := h.numCells_eq ▸ hi
  have hother : order i < mesh.numCells := h.bijOn.mapsTo hlt
  have hperm := h.perm i hlt
  rw [vertexList, vertexList, Array.getD_eq_getD_getElem?, Array.getElem?_eq_getElem hi,
    Option.getD_some, Array.getD_eq_getD_getElem?, Array.getElem?_eq_getElem hother,
    Option.getD_some, heq] at hperm
  exact ⟨_, Array.getElem_mem hother, hperm⟩

theorem wellFormed (hmesh : mesh.WellFormed) : mesh'.WellFormed where
  dimension_le := by
    rw [h.dimension_eq, h.geometricDimension_eq]
    exact hmesh.dimension_le
  length_point := by
    rw [h.points_eq, h.geometricDimension_eq]
    exact hmesh.length_point
  length_cell := by
    intro cell hcell
    obtain ⟨other, hother, hperm⟩ := h.exists_perm hcell
    rw [hperm.length_eq, h.shape_eq]
    exact hmesh.length_cell other hother
  lt_numVertices := by
    intro cell hcell v hv
    obtain ⟨other, hother, hperm⟩ := h.exists_perm hcell
    rw [h.numVertices_eq]
    exact hmesh.lt_numVertices other hother v (hperm.mem_iff.mp hv)
  nodup_cell := by
    intro cell hcell
    obtain ⟨other, hother, hperm⟩ := h.exists_perm hcell
    exact hperm.nodup_iff.mpr (hmesh.nodup_cell other hother)

theorem numDofs_eq (space : PiecewiseSpace) : space.numDofs mesh' = space.numDofs mesh := by
  cases space with
  | constant => exact h.numCells_eq
  | linear => exact h.numVertices_eq

end Lists

/-! ## Cells of a mesh listed otherwise -/

section Cells

variable {mesh' mesh : Mesh Rat} {order : Nat → Nat} (h : mesh'.Relists mesh order)
  (hmesh : mesh.WellFormed) {cell : Nat} (hc : cell < mesh.numCells)

include h

theorem position_eq : mesh'.position = mesh.position := by
  funext v
  rw [position, h.points_eq, position]

include hmesh hc

theorem length_le_four : (mesh'.vertexList cell).length ≤ 4 := by
  have hle : mesh.dimension ≤ 3 := mesh.shape.dimension_le_three
  rw [(h.perm cell hc).length_eq, hmesh.length_vertexList (h.bijOn.mapsTo hc)]
  omega

theorem volume_eq : (mesh'.simplex cell).volume = (mesh.simplex (order cell)).volume := by
  rw [simplex, simplex, h.position_eq]
  apply AffineCell.volume_perm ((h.perm cell hc).map _)
  rw [List.length_map]
  exact h.length_le_four hmesh hc

theorem mass_eq (v w : Nat) : mesh'.mass cell v w = mesh.mass (order cell) v w := by
  rw [mass, mass, h.volume_eq hmesh hc, h.dimension_eq]

theorem gradient_eq (hdet : (mesh.simplex (order cell)).det ≠ 0) {v : Nat}
    (hv : v ∈ mesh.vertexList (order cell)) :
    mesh'.gradient cell v = mesh.gradient (order cell) v := by
  have hperm := h.perm cell hc
  have hle := h.length_le_four hmesh hc
  rw [hperm.length_eq] at hle
  rw [gradient, gradient, simplex, simplex, h.position_eq]
  exact (AffineCell.hatGradient_perm hperm.symm (hmesh.nodup_vertexList (h.bijOn.mapsTo hc)) hle
    hdet hv).symm

theorem stiffness_eq (hdet : (mesh.simplex (order cell)).det ≠ 0) {v w : Nat}
    (hv : v ∈ mesh.vertexList (order cell)) (hw : w ∈ mesh.vertexList (order cell)) :
    mesh'.stiffness cell v w = mesh.stiffness (order cell) v w := by
  rw [stiffness, stiffness, h.volume_eq hmesh hc, h.gradient_eq hmesh hc hdet hv,
    h.gradient_eq hmesh hc hdet hw]

omit h hmesh in
theorem getD_relist {values : Array Rat} (hsize : values.size = mesh.numCells) :
    (PiecewiseSpace.constant.relist order values).getD cell 0 = values.getD (order cell) 0 := by
  have hlt : cell < (Array.range values.size).size := by
    rw [Array.size_range, hsize]
    exact hc
  rw [PiecewiseSpace.relist, Array.getD_eq_getD_getElem?, Array.getElem?_map,
    Array.getElem?_eq_getElem hlt, Array.getElem_range]
  rfl

theorem load_eq (space : PiecewiseSpace) {values : Array Rat}
    (hsize : values.size = space.numDofs mesh) (v : Nat) :
    space.load mesh' (space.relist order values) cell v =
      space.load mesh values (order cell) v := by
  cases space with
  | constant =>
      show (mesh'.simplex cell).volume / (mesh'.dimension + 1) * _ =
        (mesh.simplex (order cell)).volume / (mesh.dimension + 1) * values.getD (order cell) 0
      rw [h.volume_eq hmesh hc, h.dimension_eq, getD_relist hc hsize]
  | linear =>
      show ∑ w ∈ (mesh'.vertexList cell).toFinset, mesh'.mass cell v w * values.getD w 0 =
        ∑ w ∈ (mesh.vertexList (order cell)).toFinset,
          mesh.mass (order cell) v w * values.getD w 0
      rw [List.toFinset_eq_of_perm _ _ (h.perm cell hc)]
      simp only [h.mass_eq hmesh hc]

theorem cellIntegral_eq (space : PiecewiseSpace) {values : Array Rat}
    (hsize : values.size = space.numDofs mesh) :
    space.cellIntegral mesh' (space.relist order values) cell =
      space.cellIntegral mesh values (order cell) := by
  cases space with
  | constant =>
      show (mesh'.simplex cell).volume * _ =
        (mesh.simplex (order cell)).volume * values.getD (order cell) 0
      rw [h.volume_eq hmesh hc, getD_relist hc hsize]
  | linear =>
      show (mesh'.simplex cell).volume / (mesh'.dimension + 1) *
          ∑ w ∈ (mesh'.vertexList cell).toFinset, values.getD w 0 =
        (mesh.simplex (order cell)).volume / (mesh.dimension + 1) *
          ∑ w ∈ (mesh.vertexList (order cell)).toFinset, values.getD w 0
      rw [h.volume_eq hmesh hc, h.dimension_eq, List.toFinset_eq_of_perm _ _ (h.perm cell hc)]

end Cells
end Relists
end Mesh

namespace Form

/-- A mesh without degenerate cells that is listed otherwise is accepted and has the same mass and
stiffness matrices, load vectors and integrals; values on cells go along with their cells. All are
assembled if the vertices and triplets of the mesh can be stored. -/
theorem assembly_of_relisted {data : MeshData Rat} {mesh mesh' : Mesh Rat} {order : Nat → Nat}
    (hdata : Mesh.ofData data = .ok mesh)
    (hvolumetric : mesh.geometricDimension = mesh.dimension)
    (hcells : ∀ cell < mesh.numCells, ∃ simplex, mesh.affineCell cell = .ok simplex ∧
      simplex.det ≠ 0)
    (hrelists : mesh'.Relists mesh order) (first second : SerialAssembler Rat) :
    Mesh.ofData mesh'.data = .ok mesh' ∧
    (mesh.numVertices < Index.capacity →
      3 * (mesh.numCells * ((mesh.dimension + 1) * (mesh.dimension + 1))) < Index.capacity →
      (mesh.numVertices + 1 < Index.capacity →
        (∃ matrix, (first.assembleMatrix (mass mesh.shape) mesh []).1.result = .ok matrix) ∧
        ∃ matrix, (first.assembleMatrix (laplace mesh.shape) mesh []).1.result = .ok matrix) ∧
      ∀ (space : PiecewiseSpace) (values : Array Rat), values.size = space.numDofs mesh →
        (∃ vector, (first.assembleVector (source mesh.shape space) mesh
          [values]).1.result = .ok vector) ∧
        ∃ value, (first.assembleScalar (integral mesh.shape space) mesh
          [values]).1.result = .ok value) ∧
    (∀ matrix, (second.assembleMatrix (mass mesh'.shape) mesh' []).1.result = .ok matrix ↔
      (first.assembleMatrix (mass mesh.shape) mesh []).1.result = .ok matrix) ∧
    (∀ matrix, (second.assembleMatrix (laplace mesh'.shape) mesh' []).1.result = .ok matrix ↔
      (first.assembleMatrix (laplace mesh.shape) mesh []).1.result = .ok matrix) ∧
    ∀ (space : PiecewiseSpace) (values : Array Rat),
      (∀ vector, (second.assembleVector (source mesh'.shape space) mesh'
          [space.relist order values]).1.result = .ok vector ↔
        (first.assembleVector (source mesh.shape space) mesh [values]).1.result = .ok vector) ∧
      ∀ value, (second.assembleScalar (integral mesh'.shape space) mesh'
          [space.relist order values]).1.result = .ok value ↔
        (first.assembleScalar (integral mesh.shape space) mesh [values]).1.result =
          .ok value := by
  have hmesh := Mesh.wellFormed_of_ofData hdata
  have hmesh' := hrelists.wellFormed hmesh
  have hvolumetric' : mesh'.geometricDimension = mesh'.dimension := by
    rw [hrelists.geometricDimension_eq, hrelists.dimension_eq, hvolumetric]
  have hnodes : ∀ cell < mesh.numCells, ∀ v,
      v ∈ mesh'.vertexList cell ↔ v ∈ mesh.vertexList (order cell) :=
    fun cell hc v => (hrelists.perm cell hc).mem_iff
  have hdet : ∀ cell < mesh.numCells, (mesh.simplex (order cell)).det ≠ 0 := by
    intro cell hc
    obtain ⟨simplex, hsimplex, hne⟩ := hcells (order cell) (hrelists.bijOn.mapsTo hc)
    rw [hmesh.affineCell_eq_ok hvolumetric (hrelists.bijOn.mapsTo hc), Except.ok.injEq] at hsimplex
    rw [hsimplex]
    exact hne
  refine ⟨hmesh'.ofData_data, exists_results hmesh hvolumetric first, ?_⟩
  simp only [result_source_iff hmesh hvolumetric, result_mass_iff hmesh hvolumetric,
    result_integral_iff hmesh hvolumetric, result_laplace_iff hmesh hvolumetric,
    result_source_iff hmesh' hvolumetric', result_mass_iff hmesh' hvolumetric',
    result_integral_iff hmesh' hvolumetric', result_laplace_iff hmesh' hvolumetric',
    hrelists.numCells_eq, hrelists.numVertices_eq, hrelists.dimension_eq, hrelists.numDofs_eq,
    PiecewiseSpace.size_relist]
  refine ⟨?_, ?_, ?_⟩
  · intro matrix
    rw [isCellSum_renumbered_iff hrelists.bijOn hnodes
      (fun cell hc v _ w _ => hrelists.mass_eq hmesh hc v w)]
  · intro matrix
    rw [isCellSum_renumbered_iff hrelists.bijOn hnodes
      (fun cell hc v hv w hw => hrelists.stiffness_eq hmesh hc (hdet cell hc) hv hw)]
  · intro space values
    constructor
    · intro vector
      apply and_congr_right
      intro _
      apply and_congr_right
      intro hsize
      exact isNodalSum_renumbered_iff hrelists.bijOn hnodes
        (fun cell hc v _ => hrelists.load_eq hmesh hc space hsize.symm v)
    · intro value
      apply and_congr_right
      intro _
      apply and_congr_right
      intro hsize
      have hsum : ∑ cell ∈ Finset.range mesh.numCells,
          space.cellIntegral mesh' (space.relist order values) cell =
            ∑ cell ∈ Finset.range mesh.numCells, space.cellIntegral mesh values cell := by
        rw [← sum_renumbered hrelists.bijOn (space.cellIntegral mesh values)]
        apply Finset.sum_congr rfl
        intro cell hcell
        exact hrelists.cellIntegral_eq hmesh (Finset.mem_range.mp hcell) space hsize.symm
      rw [hsum]

/-- Two triangles in either order, the first of them turned over and the second turned around. -/
theorem assembly_of_two_relisted_triangles :
    let data : MeshData Rat := ⟨.triangle, 2, #[0, 0, 2, 0, 0, 1, 4, 2], #[0, 1, 2, 1, 3, 2]⟩
    let mesh : Mesh Rat :=
      { shape := .triangle, geometricDimension := 2, points := #[[0, 0], [2, 0], [0, 1], [4, 2]],
        cells := #[[0, 1, 2], [1, 3, 2]] }
    let mesh' : Mesh Rat :=
      { shape := .triangle, geometricDimension := 2, points := mesh.points,
        cells := #[[3, 2, 1], [1, 0, 2]] }
    let order : Nat → Nat := (1 - ·)
    let assembler : SerialAssembler Rat := .fresh {}
    Mesh.ofData data = .ok mesh ∧ mesh.geometricDimension = mesh.dimension ∧
      (∀ cell < mesh.numCells, ∃ simplex, mesh.affineCell cell = .ok simplex ∧
        simplex.det ≠ 0) ∧
      mesh'.Relists mesh order ∧ Mesh.ofData mesh'.data = .ok mesh' ∧
      (∃ matrix, (assembler.assembleMatrix (laplace mesh.shape) mesh []).1.result = .ok matrix ∧
        (assembler.assembleMatrix (laplace mesh'.shape) mesh' []).1.result = .ok matrix) ∧
      (assembler.assembleScalar (integral mesh.shape .constant) mesh [#[3, 5]]).1.result = .ok 18 ∧
      (assembler.assembleScalar (integral mesh'.shape .constant) mesh' [#[5, 3]]).1.result =
        .ok 18 := by
  intro data mesh mesh' order assembler
  have hdata : Mesh.ofData data = .ok mesh := Mesh.ofData_eq_ok_iff.mpr (by decide +kernel)
  have hmesh := Mesh.wellFormed_of_ofData hdata
  have hdet : ∀ cell < mesh.numCells, mesh.affineCell cell = .ok (mesh.simplex cell) ∧
      (mesh.simplex cell).det ≠ 0 := by
    decide +kernel
  have hcells : ∀ cell < mesh.numCells, ∃ simplex, mesh.affineCell cell = .ok simplex ∧
      simplex.det ≠ 0 := fun cell hc => ⟨_, hdet cell hc⟩
  have hrelists : mesh'.Relists mesh order := by
    refine ⟨rfl, rfl, rfl, rfl, ⟨?_, ?_, ?_⟩, by decide +kernel⟩
    · intro cell hcell
      show 1 - cell < 2
      omega
    · intro cell hcell other hother heq
      have hlt : cell < 2 := hcell
      have hlt' : other < 2 := hother
      have hsub : 1 - cell = 1 - other := heq
      omega
    · intro cell hcell
      have hlt : cell < 2 := hcell
      exact ⟨1 - cell, by show 1 - cell < 2; omega, by show 1 - (1 - cell) = cell; omega⟩
  obtain ⟨hdata', hassembled, -, hlaplace, hvalues⟩ :=
    assembly_of_relisted hdata rfl hcells hrelists assembler assembler
  obtain ⟨-, matrix, hmatrix⟩ := (hassembled (by decide) (by decide)).1 (by decide)
  have hvalue : (assembler.assembleScalar (integral mesh.shape .constant) mesh
      [#[3, 5]]).1.result = .ok 18 :=
    (result_integral_iff hmesh rfl assembler .constant).mpr ⟨by decide, rfl, by decide +kernel⟩
  have hrelist : PiecewiseSpace.constant.relist order (#[3, 5] : Array Rat) = #[5, 3] := by
    decide +kernel
  have hvalue' := ((hvalues .constant #[3, 5]).2 18).mpr hvalue
  rw [hrelist] at hvalue'
  exact ⟨hdata, rfl, hcells, hrelists, hdata', ⟨matrix, hmatrix, (hlaplace matrix).mpr hmatrix⟩,
    hvalue, hvalue'⟩

end Form
end FiniteElement
