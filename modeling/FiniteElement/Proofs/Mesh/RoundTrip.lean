import Mathlib
import FiniteElement.Proofs.Mesh.CheckedTables
import FiniteElement.Proofs.Mesh.Unit

/-! # Meshes as flat lists and back

The lists of a well-formed mesh are accepted and give the mesh again, with the
numbering of its entities. The lists that a mesh was accepted with are those it
gives. The unit meshes are made without a check, so that their lists are accepted
is a fact about their cells.
-/

namespace FiniteElement

/-- Rows of equal length are recovered by cutting their entries into groups of that length. -/
theorem map_take_drop_flatten {β : Type} {rows : List (List β)} {n : Nat}
    (h : ∀ row ∈ rows, row.length = n) :
    (List.range rows.length).map (fun i => (rows.flatten.drop (n * i)).take n) = rows := by
  induction rows with
  | nil => rfl
  | cons row rows ih =>
      rw [List.forall_mem_cons] at h
      have hnext : ∀ i, (row ++ rows.flatten).drop (n * (i + 1)) = rows.flatten.drop (n * i) := by
        intro i
        rw [Nat.mul_succ, Nat.add_comm, ← List.drop_drop, List.drop_left' h.1]
      rw [List.length_cons, List.range_succ_eq_map, List.map_cons, List.map_map,
        List.flatten_cons, Nat.mul_zero, List.drop_zero, List.take_left' h.1]
      simp only [Function.comp_def, Nat.succ_eq_add_one, hnext]
      rw [ih h.2]

/-- A row of rows of equal length that are laid side by side. -/
theorem take_drop_flatten {β : Type} {rows : List (List β)} {n : Nat}
    (h : ∀ row ∈ rows, row.length = n) {i : Nat} {row : List β} (hi : rows[i]? = some row) :
    (rows.flatten.drop (n * i)).take n = row := by
  obtain ⟨hlt, heq⟩ := List.getElem?_eq_some_iff.mp hi
  have hcut := congrArg (·[i]?) (map_take_drop_flatten h)
  simpa [List.getElem?_range hlt, hi] using hcut

theorem toList_flatMap_toArray {β : Type} (rows : Array (List β)) :
    (rows.flatMap List.toArray).toList = rows.toList.flatten := by
  simp [List.flatMap_id']

theorem size_flatMap_toArray {β : Type} {rows : Array (List β)} {n : Nat}
    (h : ∀ row ∈ rows, row.length = n) : (rows.flatMap List.toArray).size = rows.size * n := by
  rw [← Array.length_toList, toList_flatMap_toArray,
    length_flatten_of_length fun row hrow => h row (Array.mem_toList_iff.mp hrow),
    Array.length_toList]

theorem groups_flatMap_toArray {β : Type} {rows : Array (List β)} {n : Nat} (hpos : 0 < n)
    (h : ∀ row ∈ rows, row.length = n) : groups n (rows.flatMap List.toArray) = rows := by
  apply Array.ext'
  rw [toList_groups, size_flatMap_toArray h, Nat.mul_div_cancel _ hpos, toList_flatMap_toArray,
    ← Array.length_toList]
  exact map_take_drop_flatten fun row hrow => h row (Array.mem_toList_iff.mp hrow)

namespace Mesh

variable {α : Type} {mesh : Mesh α}

namespace WellFormed

theorem points_data (hmesh : mesh.WellFormed) : mesh.data.points = mesh.points :=
  groups_flatMap_toArray (Nat.lt_of_lt_of_le mesh.shape.dimension_pos hmesh.dimension_le)
    hmesh.length_point

theorem cellLists_data (hmesh : mesh.WellFormed) : mesh.data.cellLists = mesh.cells :=
  groups_flatMap_toArray (Nat.succ_pos _) hmesh.length_cell

theorem error?_data (hmesh : mesh.WellFormed) : mesh.data.error? = none := by
  have hpos : 0 < mesh.geometricDimension :=
    Nat.lt_of_lt_of_le mesh.shape.dimension_pos hmesh.dimension_le
  have hvertices : mesh.data.vertices.size = mesh.numVertices * mesh.geometricDimension :=
    size_flatMap_toArray hmesh.length_point
  have hcells : mesh.data.cells.size = mesh.numCells * mesh.shape.numVertices :=
    size_flatMap_toArray hmesh.length_cell
  rw [MeshData.error?_eq_none_iff, hvertices, hcells, hmesh.cellLists_data]
  refine ⟨hmesh.dimension_le, Nat.dvd_mul_left _ _, Nat.dvd_mul_left _ _, ?_, hmesh.nodup_cell⟩
  intro v hv
  change v < mesh.numVertices * mesh.geometricDimension / mesh.geometricDimension
  rw [Nat.mul_div_cancel _ hpos]
  have hv' : v ∈ mesh.cells.toList.flatten := by
    rw [← toList_flatMap_toArray]
    exact Array.mem_toList_iff.mpr hv
  obtain ⟨cell, hcell, hmem⟩ := List.mem_flatten.mp hv'
  exact hmesh.lt_numVertices cell (Array.mem_toList_iff.mp hcell) v hmem

/-- The lists of a well-formed mesh are accepted and give the mesh again. -/
theorem ofData_data (hmesh : mesh.WellFormed) : ofData mesh.data = .ok mesh :=
  ofData_eq_ok_iff.mpr
    ⟨hmesh.error?_data, rfl, rfl, hmesh.points_data.symm, hmesh.cellLists_data.symm⟩

end WellFormed

/-- An accepted mesh gives the lists that it was accepted with. -/
theorem data_of_ofData {data : MeshData α} (h : ofData data = .ok mesh) : mesh.data = data := by
  obtain ⟨herror, hshape, hdim, hpoints, hcells⟩ := ofData_eq_ok_iff.mp h
  obtain ⟨-, hvertices, hwhole, -, -⟩ := MeshData.error?_eq_none_iff.mp herror
  have hflat : mesh.vertices = data.vertices := by
    apply Array.ext'
    rw [vertices, hpoints, toList_flatMap_toArray, MeshData.points, flatten_groups hvertices]
  have hflat' : mesh.connectivity = data.cells := by
    apply Array.ext'
    rw [connectivity, toList_flatMap_toArray, hcells, MeshData.cellLists, flatten_groups hwhole]
  rw [Mesh.data, hshape, hdim, hflat, hflat']

/-- The entities of a unit mesh that is built are numbered without a fault. -/
theorem checkedTables_of_build [Scalar α] {kind : UnitMesh} {n : Nat}
    (h : kind.build n = .ok mesh) : mesh.data.checkedTables = .ok (.ok mesh.tables) := by
  obtain ⟨hstorable, heq⟩ := UnitMesh.build_eq_ok_iff.mp h
  have hmesh := UnitMesh.wellFormed_of_build h
  have hshape : mesh.shape = kind.shape := by rw [← heq, UnitMesh.shape_mesh]
  have hcells : mesh.data.cellLists.size = kind.numCells n := by
    rw [hmesh.cellLists_data, ← kind.numCells_mesh (α := α), heq, numCells]
  rw [MeshData.checkedTables_eq_ok _ hmesh.error?_data, hmesh.ofData_data]
  · rfl
  · intro dim _ htop
    change dim ≠ mesh.shape.dimension at htop
    change mesh.data.cellLists.size * mesh.shape.numEntities dim < Index.capacity
    rw [hshape] at htop
    rw [hcells, hshape]
    rcases Nat.lt_or_gt_of_ne htop with hlt | hgt
    · exact hstorable.mul_numEntities_lt hlt
    · rw [Shape.numEntities, Shape.entities_eq_nil hgt, List.length_nil, Nat.mul_zero]
      decide

/-- A mesh that was accepted or built gives lists that are accepted as the same mesh, and an
accepted mesh gives back its lists. The unit meshes whose lists can be stored are built. -/
theorem data_roundtrip [Scalar α] :
    (∀ (data : MeshData α) (mesh : Mesh α), ofData data = .ok mesh →
      ofData mesh.data = .ok mesh ∧ mesh.data = data) ∧
    (∀ (kind : UnitMesh) (n : Nat) (mesh : Mesh α), kind.build n = .ok mesh →
      ofData mesh.data = .ok mesh) ∧
    ∀ (kind : UnitMesh) (n : Nat), kind.IsStorable n →
      ∃ mesh : Mesh α, kind.build n = .ok mesh := by
  refine ⟨?_, ?_, ?_⟩
  · intro data mesh h
    exact ⟨(wellFormed_of_ofData h).ofData_data, data_of_ofData h⟩
  · intro kind n mesh h
    exact (UnitMesh.wellFormed_of_build h).ofData_data
  · intro kind n h
    exact ⟨kind.mesh n, UnitMesh.build_eq_ok_iff.mpr ⟨h, rfl⟩⟩

/-- Two triangles in space and the box of eight cubes, there and back. -/
theorem data_roundtrip_of_two_triangles :
    let data : MeshData Rat :=
      ⟨.triangle, 3, #[0, 0, 0, 1, 0, 0, 0, 1, 0, 0, 0, 1], #[0, 1, 2, 3, 1, 0]⟩
    ∃ mesh box : Mesh Rat, ofData data = .ok mesh ∧ ofData mesh.data = .ok mesh ∧
      mesh.data = data ∧ UnitMesh.box.build 2 = .ok box ∧ ofData box.data = .ok box := by
  intro data
  have haccepted : data.error? = none := by decide +kernel
  let mesh : Mesh Rat :=
    { shape := .triangle, geometricDimension := 3, points := data.points, cells := data.cellLists }
  have hmesh : ofData data = .ok mesh := ofData_eq_ok_iff.mpr ⟨haccepted, rfl, rfl, rfl, rfl⟩
  obtain ⟨haccept, hbuilt, hstored⟩ := data_roundtrip (α := Rat)
  obtain ⟨box, hbox⟩ := hstored .box 2 (by decide)
  exact ⟨mesh, box, hmesh, (haccept data mesh hmesh).1, (haccept data mesh hmesh).2, hbox,
    hbuilt .box 2 box hbox⟩

end Mesh
end FiniteElement
