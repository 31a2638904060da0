import Mathlib
import FiniteElement.Proofs.Geometry.CellMap
import FiniteElement.Proofs.Mesh.RoundTrip
import FiniteElement.Proofs.Mesh.View

/-! # Geometry of the cells of a mesh

The view of a cell holds the points of its vertices in the order in which the
cell lists them. On a mesh that fills its space the affine map of a cell is that
of these points.
-/

namespace FiniteElement.Mesh

variable {α : Type}

def vertexList (mesh : Mesh α) (cell : Nat) : List Nat := mesh.cells.getD cell []

theorem cellVertices_eq_ok {mesh : Mesh α} {cell : Nat} (hc : cell < mesh.numCells) :
    mesh.cellVertices cell = .ok (mesh.vertexList cell) := by
  rw [cellVertices_eq_ok_iff, vertexList, Array.getD_eq_getD_getElem?,
    Array.getElem?_eq_getElem hc, Option.getD_some]

/-- A group cut out of rows of equal length that are laid side by side is a row. -/
theorem extract_flatten {β : Type} {rows : List (List β)} {n : Nat}
    (h : ∀ row ∈ rows, row.length = n) {i : Nat} (hi : i < rows.length) :
    (rows.flatten.toArray.extract (n * i) (n * (i + 1))).toList = rows[i] := by
  have hwidth : n * (i + 1) - n * i = n := by
    rw [Nat.mul_succ, Nat.add_sub_cancel_left]
  rw [Array.toList_extract, List.extract_eq_take_drop, hwidth]
  exact take_drop_flatten h (List.getElem?_eq_getElem hi)

section WellFormed

variable {mesh : Mesh α} (hmesh : mesh.WellFormed) {cell : Nat} (hc : cell < mesh.numCells)

include hmesh hc

theorem WellFormed.length_vertexList : (mesh.vertexList cell).length = mesh.dimension + 1 :=
  hmesh.length_cell _ (Array.mem_of_getElem? (cellVertices_eq_ok_iff.mp (cellVertices_eq_ok hc)))

theorem WellFormed.nodup_vertexList : (mesh.vertexList cell).Nodup :=
  hmesh.nodup_cell _ (Array.mem_of_getElem? (cellVertices_eq_ok_iff.mp (cellVertices_eq_ok hc)))

theorem WellFormed.lt_of_mem_vertexList {v : Nat} (hv : v ∈ mesh.vertexList cell) :
    v < mesh.numVertices :=
  hmesh.lt_numVertices _
    (Array.mem_of_getElem? (cellVertices_eq_ok_iff.mp (cellVertices_eq_ok hc))) v hv

/-- A vertex of the view of a cell is the point of that vertex of the mesh. -/
theorem WellFormed.vertex_view {buffer coordinates : Array α} {view : CellView α}
    (hview : mesh.view cell buffer = .ok (view, coordinates)) {i : Nat}
    (hi : i < (mesh.vertexList cell).length) :
    view.vertex i = mesh.vertex (mesh.vertexList cell)[i] := by
  obtain ⟨corners, hcorners, hlength⟩ :=
    hmesh.mapM_vertex fun v hv => hmesh.lt_of_mem_vertexList hc hv
  have hcount : corners.length = (mesh.vertexList cell).length :=
    Checked.length_of_mapM_eq_ok hcorners
  have hlt : i < corners.length := by
    rw [hcount]
    exact hi
  have hcorner : mesh.vertex (mesh.vertexList cell)[i] = .ok corners[i] :=
    (List.forall₂_iff_get.mp (Checked.mapM_eq_ok_iff.mp hcorners)).2 i hi hlt
  rw [view_eq_of_buffer] at hview
  simp only [Mesh.view, cellVertices_eq_ok hc, hcorners, foldl_push_corners, Checked.ok_bind,
    Checked.bind_eq_ok_iff, Checked.pure_eq_ok_iff, CellView.ofParts] at hview
  obtain ⟨entities, -, parts, hparts, heq⟩ := hview
  split at hparts
  · cases hparts
    cases heq
    have hsize : mesh.geometricDimension * (i + 1) ≤ corners.flatten.length := by
      rw [length_flatten_of_length hlength, Nat.mul_comm]
      exact Nat.mul_le_mul_right _ hlt
    rw [hcorner, ← extract_flatten hlength hlt]
    simpa [CellView.vertex] using hsize
  · cases hparts

end WellFormed

/-! ## Affine maps -/

section Affine

variable [Scalar α]

def position (mesh : Mesh α) (v : Nat) : Vec3 α := Vec3.ofList (mesh.points.getD v [])

def affineCell (mesh : Mesh α) (cell : Nat) : Except Fault (AffineCell α) := do
  let (view, _) ← mesh.view cell #[]
  AffineCell.ofCell view

/-- The affine map that takes the reference simplex to the vertices of a cell in their order. -/
def simplex (mesh : Mesh α) (cell : Nat) : AffineCell α :=
  .ofVertices ((mesh.vertexList cell).map mesh.position)

variable {mesh : Mesh α} {cell : Nat}

omit [Scalar α] in
theorem vertex_eq_ok {v : Nat} (hv : v < mesh.numVertices) :
    mesh.vertex v = .ok (mesh.points.getD v []) := by
  rw [vertex, Index.slot_eq_ok_iff, Array.getD_eq_getD_getElem?, Array.getElem?_eq_getElem hv,
    Option.getD_some]

theorem WellFormed.dimension_simplex (hmesh : mesh.WellFormed) (hc : cell < mesh.numCells) :
    (mesh.simplex cell).dimension = mesh.dimension := by
  rw [simplex, AffineCell.dimension_ofVertices, List.length_map, hmesh.length_vertexList hc,
    Nat.add_sub_cancel]

/-- The view of a cell that fills its space has the affine map of its vertices. -/
theorem WellFormed.ofCell_view_eq_ok (hmesh : mesh.WellFormed)
    (hvolumetric : mesh.geometricDimension = mesh.dimension) (hc : cell < mesh.numCells)
    {view : CellView α} {coordinates : Array α}
    (hview : mesh.view cell #[] = .ok (view, coordinates)) :
    AffineCell.ofCell view = .ok (mesh.simplex cell) := by
  obtain ⟨hdim, hgeometric, hcount⟩ := hmesh.dimensions_view hview
  have hfills : view.Fills mesh.shape := ⟨hdim, hgeometric.trans hvolumetric, hcount⟩
  have hpoints : (List.range mesh.shape.numVertices).map view.point =
      (mesh.vertexList cell).map mesh.position := by
    apply List.ext_getElem
    · rw [List.length_map, List.length_range, List.length_map, hmesh.length_vertexList hc]
      rfl
    · intro i _ hi
      rw [List.length_map] at hi
      have hvertex := hmesh.vertex_view hc hview hi
      rw [vertex_eq_ok (hmesh.lt_of_mem_vertexList hc (List.getElem_mem hi))] at hvertex
      rw [List.getElem_map, List.getElem_range, List.getElem_map,
        CellView.point_eq_of_vertex hvertex, position]
  rw [AffineCell.ofCell_eq_ok hfills, hpoints, simplex]

theorem WellFormed.affineCell_eq_ok (hmesh : mesh.WellFormed)
    (hvolumetric : mesh.geometricDimension = mesh.dimension) (hc : cell < mesh.numCells) :
    mesh.affineCell cell = .ok (mesh.simplex cell) := by
  obtain ⟨view, coordinates, hview, -⟩ := hmesh.view_eq_ok hc #[]
  rw [affineCell, hview, Checked.ok_bind]
  exact hmesh.ofCell_view_eq_ok hvolumetric hc hview

end Affine

end FiniteElement.Mesh
