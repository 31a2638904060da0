import Mathlib
import FiniteElement.Proofs.Mesh.Entities
import FiniteElement.Proofs.Samples

/-! # The numbering of the entities of a mesh

Between the vertices and the cells, the entities of an accepted mesh are its
sets of vertices, numbered in the order in which they first appear when the
cells are walked. The vertices keep their indices and the cells are numbered by
their place.
-/

namespace FiniteElement

namespace Mesh

variable {α : Type} {mesh : Mesh α}

theorem WellFormed.length_entityIndices (hmesh : mesh.WellFormed) {dim : Nat}
    (h : dim ≤ mesh.dimension) :
    (mesh.entityIndices dim).length = mesh.numCells * mesh.shape.numEntities dim := by
  rw [entityIndices_eq h, length_flatten_of_length fun row => hmesh.length_of_mem_table h,
    Array.length_toList, size_table h]

/-- Entry `n * cell + index` is local entity `index` of the cell, where each cell has `n`. -/
theorem WellFormed.getElem?_entityIndices (hmesh : mesh.WellFormed) {dim cell index e : Nat}
    (h : dim ≤ mesh.dimension) (hentity : mesh.HasEntity cell dim index e) :
    (mesh.entityIndices dim)[mesh.shape.numEntities dim * cell + index]? = some e := by
  obtain ⟨row, hrow, he⟩ := hentity
  have hindex : index < mesh.shape.numEntities dim := by
    rw [← hmesh.length_cellEntities h hrow]
    exact (List.getElem?_eq_some_iff.mp he).1
  rw [cellEntities_eq_ok_iff h, ← Array.getElem?_toList] at hrow
  rw [entityIndices_eq h,
    getElem?_flatten_of_length (fun row => hmesh.length_of_mem_table h) cell hindex, hrow]
  exact he

theorem inOrderOfAppearance_entityIndices {dim : Nat} (hpos : 0 < dim)
    (hlt : dim < mesh.dimension) : InOrderOfAppearance (mesh.entityIndices dim) := by
  rw [entityIndices_eq (Nat.le_of_lt hlt), table_between hpos hlt]
  exact (EntityTable.places_flatten_byFirstAppearance mesh.shape dim mesh.cells).inOrderOfAppearance

/-- The sets of vertices of the entities of a dimension. -/
def vertexSets (mesh : Mesh α) (dim : Nat) : Set (Set Nat) :=
  {s | ∃ cell index, cell < mesh.numCells ∧ index < mesh.shape.numEntities dim ∧
    s = mesh.entityVertices cell dim index}

theorem WellFormed.ncard_vertexSets (hmesh : mesh.WellFormed) {dim : Nat} (hpos : 0 < dim)
    (hlt : dim < mesh.dimension) : (mesh.vertexSets dim).ncard = (mesh.table dim).count := by
  have hle := Nat.le_of_lt hlt
  -- each index is that of some local entity, whose vertices are its set
  have howner : ∀ e, e < (mesh.table dim).count →
      ∃ cell index, mesh.HasEntity cell dim index e := fun e he =>
    (mem_entityIndices_iff hle).mp ((mem_entityIndices_of_pos hpos hle).mpr he)
  choose cell index hentity using howner
  apply Set.ncard_eq_of_bijective fun e he => mesh.entityVertices (cell e he) dim (index e he)
  · intro s ⟨c, i, hc, hi, hs⟩
    obtain ⟨e, he⟩ := hmesh.exists_hasEntity hle hc hi
    have hcount : e < (mesh.table dim).count :=
      (mem_entityIndices_of_pos hpos hle).mp ((mem_entityIndices_iff hle).mpr ⟨c, i, he⟩)
    refine ⟨e, hcount, ?_⟩
    rw [hs]
    exact (hmesh.entity_eq_iff hlt (hentity e hcount) he).mp rfl
  · intro e he
    obtain ⟨hc, hi⟩ := hmesh.lt_of_hasEntity hle (hentity e he)
    exact ⟨cell e he, index e he, hc, hi, rfl⟩
  · intro e e' he he' heq
    exact (hmesh.entity_eq_iff hlt (hentity e he) (hentity e' he')).mpr heq

/-- In an accepted mesh the entities between vertices and cells are numbered by their set of
vertices in order of first appearance, and the tables of all dimensions are complete. -/
theorem entities_numbered_by_vertices {data : MeshData α} (h : ofData data = .ok mesh) :
    (∀ dim, 0 < dim → dim < mesh.dimension →
      (∀ cell index e cell' index' e', mesh.HasEntity cell dim index e →
        mesh.HasEntity cell' dim index' e' →
        (e = e' ↔ mesh.entityVertices cell dim index = mesh.entityVertices cell' dim index')) ∧
      (∃ count, mesh.entityCounts.numEntities dim = .ok count ∧
        (∀ e, e ∈ mesh.entityIndices dim ↔ e < count) ∧
        (mesh.vertexSets dim).ncard = count) ∧
      InOrderOfAppearance (mesh.entityIndices dim)) ∧
    (∀ dim, dim ≤ mesh.dimension →
      (mesh.entityIndices dim).length = mesh.numCells * mesh.shape.numEntities dim ∧
      (∃ count, mesh.entityCounts.numEntities dim = .ok count ∧
        ∀ e ∈ mesh.entityIndices dim, e < count) ∧
      ∀ cell < mesh.numCells, ∀ index < mesh.shape.numEntities dim,
        ∃ e, mesh.HasEntity cell dim index e ∧
          (mesh.entityIndices dim)[mesh.shape.numEntities dim * cell + index]? = some e) ∧
    mesh.entityIndices 0 = data.cells.toList ∧
    ∀ cell < mesh.numCells, mesh.cellEntities cell mesh.dimension = .ok [cell] := by
  have hmesh := wellFormed_of_ofData h
  refine ⟨?_, ?_, ?_, fun cell hcell => cellEntities_dimension hcell⟩
  · intro dim hpos hlt
    have hle := Nat.le_of_lt hlt
    refine ⟨?_, ⟨_, numEntities_eq_ok hle, ?_, hmesh.ncard_vertexSets hpos hlt⟩,
      inOrderOfAppearance_entityIndices hpos hlt⟩
    · intro cell index e cell' index' e' he he'
      exact hmesh.entity_eq_iff hlt he he'
    · intro e
      exact mem_entityIndices_of_pos hpos hle
  · intro dim hle
    refine ⟨hmesh.length_entityIndices hle, ⟨_, numEntities_eq_ok hle, ?_⟩, ?_⟩
    · intro e he
      obtain ⟨cell, index, row, hrow, hindex⟩ := (mem_entityIndices_iff hle).mp he
      exact hmesh.lt_count hle hrow e (List.mem_of_getElem? hindex)
    · intro cell hcell index hindex
      obtain ⟨e, he⟩ := hmesh.exists_hasEntity hle hcell hindex
      exact ⟨e, he, hmesh.getElem?_entityIndices hle he⟩
  · rw [entityIndices_eq (Nat.zero_le _), table_zero]
    exact flatten_cells_of_ofData h

/-- Two triangles with a common edge have five edges, and the common one has one index. -/
theorem shared_edge_numbered_once :
    ∃ mesh : Mesh Rat,
      ofData ⟨.triangle, 2, #[0, 0, 2, 0, 0, 1, 2, 1], #[0, 1, 2, 1, 2, 3]⟩ = .ok mesh ∧
      (mesh.vertexSets 1).ncard = 5 ∧
      ∃ e, mesh.HasEntity 0 1 0 e ∧ mesh.HasEntity 1 1 2 e := by
  have hperm : [1, 2, 3].Perm [1, 2, 3] := .refl _
  have hdata := Sample.ofData_rectangle hperm
  obtain ⟨hbetween, hall, -, -⟩ := entities_numbered_by_vertices hdata
  obtain ⟨hsame, ⟨count, hcount, -, hncard⟩, -⟩ := hbetween 1 (by decide) (by decide)
  obtain ⟨-, -, hrows⟩ := hall 1 (by decide)
  obtain ⟨e, he, -⟩ := hrows 0 (by decide) 0 (by decide)
  obtain ⟨e', he', -⟩ := hrows 1 (by decide) 2 (by decide)
  have hvertices := Sample.entityVertices_rectangle hperm (show [1, 2, 3][2]? = some 3 from rfl)
  refine ⟨Sample.rectangle [1, 2, 3], hdata, ?_, e, he, ?_⟩
  · rw [Sample.entityCounts_rectangle hperm] at hcount
    cases hcount
    exact hncard
  · rw [(hsame 0 0 e 1 2 e' he he').mpr hvertices]
    exact he'

end Mesh
end FiniteElement
