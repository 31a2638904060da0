import Mathlib
import FiniteElement.Proofs.Mesh.Entities

/-! # Views of the cells of a well-formed mesh

The view of a cell does not depend on the buffer in which its coordinates are
gathered. Every cell of a well-formed mesh has a view, which lists the entities
of the cell for each dimension up to its own.
-/

namespace FiniteElement.Mesh

variable {α : Type} {mesh : Mesh α}

theorem view_eq_of_buffer (mesh : Mesh α) (cell : Nat) (buffer : Array α) :
    mesh.view cell buffer = mesh.view cell #[] := by
  simp [view]

theorem foldl_push_corners (corners : List (List α)) (buffer : Array α) :
    corners.foldl (fun buffer corner => corner.foldl Array.push buffer) buffer =
      buffer ++ corners.flatten.toArray := by
  induction corners generalizing buffer with
  | nil => simp
  | cons corner corners ih =>
      rw [List.foldl_cons, List.foldl_push_eq_append', ih, List.flatten_cons]
      simp [Array.append_assoc]

theorem WellFormed.mapM_vertex (hmesh : mesh.WellFormed) {vertices : List Nat}
    (h : ∀ v ∈ vertices, v < mesh.numVertices) :
    ∃ corners, vertices.mapM mesh.vertex = .ok corners ∧
      ∀ corner ∈ corners, corner.length = mesh.geometricDimension := by
  have hall : ∀ v ∈ vertices, ∃ corner, mesh.vertex v = .ok corner := fun v hv =>
    ⟨_, Index.slot_of_lt (h v hv)⟩
  obtain ⟨corners, hcorners⟩ := Checked.exists_mapM_eq_ok hall
  refine ⟨corners, hcorners, ?_⟩
  intro corner hcorner
  obtain ⟨i, hi⟩ := List.getElem?_of_mem hcorner
  obtain ⟨hlt, rfl⟩ := List.getElem?_eq_some_iff.mp hi
  have hrel := Checked.mapM_eq_ok_iff.mp hcorners
  have hget := (List.forall₂_iff_get.mp hrel).2 i (hrel.length_eq ▸ hlt) hlt
  exact hmesh.length_point _ (Array.mem_of_getElem? (Index.slot_eq_ok_iff.mp hget))

def localEntities (mesh : Mesh α) (cell : Nat) : List (List Nat) :=
  (List.range (mesh.dimension + 1)).map fun dim => (mesh.table dim).ofCell.getD cell []

theorem cellEntities_eq_ok {dim cell : Nat} (h : dim ≤ mesh.dimension) (hc : cell < mesh.numCells) :
    mesh.cellEntities cell dim = .ok ((mesh.table dim).ofCell.getD cell []) := by
  obtain ⟨entities, hentities⟩ := exists_cellEntities h hc
  rw [hentities]
  rw [cellEntities_eq_ok_iff h] at hentities
  rw [Array.getD_eq_getD_getElem?, hentities, Option.getD_some]

theorem getElem?_localEntities {dim cell : Nat} {entities : List Nat} (h : dim ≤ mesh.dimension)
    (hentities : mesh.cellEntities cell dim = .ok entities) :
    (mesh.localEntities cell)[dim]? = some entities := by
  have hc := lt_numCells_of_cellEntities h hentities
  rw [cellEntities_eq_ok h hc, Except.ok.injEq] at hentities
  rw [localEntities, List.getElem?_map, List.getElem?_range (Nat.lt_succ_of_le h), Option.map_some,
    hentities]

/-- A cell of a well-formed mesh has a view with its entities and all its vertices. -/
theorem WellFormed.exists_view (hmesh : mesh.WellFormed) {cell : Nat} (hc : cell < mesh.numCells)
    (buffer : Array α) :
    ∃ view coordinates, mesh.view cell buffer = .ok (view, coordinates) ∧
      view.entities = mesh.localEntities cell ∧
      view.geometricDimension = mesh.geometricDimension ∧
      view.numVertices = mesh.shape.numVertices := by
  have hrows : (List.range (mesh.dimension + 1)).mapM (mesh.cellEntities cell) =
      .ok (mesh.localEntities cell) := by
    apply Checked.mapM_eq_ok_map
    intro dim hdim
    exact cellEntities_eq_ok (Nat.le_of_lt_succ (List.mem_range.mp hdim)) hc
  obtain ⟨vertices, hvertices⟩ : ∃ vertices, mesh.cellVertices cell = .ok vertices :=
    exists_cellEntities (Nat.zero_le _) hc
  have hmem := Array.mem_of_getElem? (cellVertices_eq_ok_iff.mp hvertices)
  obtain ⟨corners, hcorners, hlength⟩ := hmesh.mapM_vertex (hmesh.lt_numVertices vertices hmem)
  have hpos : 0 < mesh.geometricDimension :=
    Nat.lt_of_lt_of_le mesh.shape.dimension_pos hmesh.dimension_le
  have hcount : corners.flatten.toArray.size =
      mesh.shape.numVertices * mesh.geometricDimension := by
    rw [List.size_toArray, length_flatten_of_length hlength,
      Checked.length_of_mapM_eq_ok hcorners, hmesh.length_cell vertices hmem]
  have hsize : corners.flatten.toArray.size % mesh.geometricDimension = 0 := by
    rw [hcount, Nat.mul_mod_left]
  refine ⟨⟨mesh.localEntities cell, corners.flatten.toArray, mesh.geometricDimension, hpos, hsize⟩,
    corners.flatten.toArray, ?_, rfl, rfl, ?_⟩
  · have hempty : buffer.shrink 0 = #[] := by simp
    simp only [view, hrows, hvertices, hcorners, Checked.ok_bind, hempty, foldl_push_corners,
      Array.empty_append]
    rw [CellView.ofParts, dif_pos ⟨hpos, hsize⟩]
    rfl
  · rw [CellView.numVertices, hcount, Nat.mul_div_cancel _ hpos]

theorem lt_numCells_of_view {cell : Nat} {view : CellView α} {buffer coordinates : Array α}
    (hview : mesh.view cell buffer = .ok (view, coordinates)) : cell < mesh.numCells := by
  simp only [Mesh.view, Checked.bind_eq_ok_iff] at hview
  obtain ⟨-, -, vertices, hvertices, -⟩ := hview
  exact lt_numCells_of_cellEntities (Nat.zero_le _) hvertices

theorem WellFormed.dimensions_view (hmesh : mesh.WellFormed) {cell : Nat} {view : CellView α}
    {buffer coordinates : Array α} (hview : mesh.view cell buffer = .ok (view, coordinates)) :
    view.dimension = mesh.dimension ∧ view.geometricDimension = mesh.geometricDimension ∧
      view.numVertices = mesh.shape.numVertices := by
  obtain ⟨view', coordinates', hview', hentities, hgeometric, hcount⟩ :=
    hmesh.exists_view (lt_numCells_of_view hview) buffer
  rw [hview] at hview'
  cases hview'
  refine ⟨?_, hgeometric, hcount⟩
  rw [CellView.dimension, hentities, localEntities, List.length_map, List.length_range,
    Nat.add_sub_cancel]

theorem WellFormed.view_eq_ok (hmesh : mesh.WellFormed) {cell : Nat} (hc : cell < mesh.numCells)
    (buffer : Array α) :
    ∃ view coordinates, mesh.view cell buffer = .ok (view, coordinates) ∧
      view.entities = mesh.localEntities cell := by
  obtain ⟨view, coordinates, hview, hentities, -⟩ := hmesh.exists_view hc buffer
  exact ⟨view, coordinates, hview, hentities⟩

end FiniteElement.Mesh
