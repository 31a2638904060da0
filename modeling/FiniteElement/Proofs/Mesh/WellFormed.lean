import Mathlib
import FiniteElement.Mesh.Basic
import FiniteElement.Proofs.Checked

/-! # Well-formed meshes

A mesh is well-formed when its space has room for its cells, its points have one
coordinate per dimension and its cells list distinct vertices that exist. Lists
are accepted exactly when they are whole groups with these properties, so every
mesh made from lists is well-formed.
-/

namespace FiniteElement

/-! ## Groups -/

theorem getElem?_flatten_of_length {β : Type} {rows : List (List β)} {n : Nat}
    (h : ∀ row ∈ rows, row.length = n) (c : Nat) {i : Nat} (hi : i < n) :
    rows.flatten[n * c + i]? = rows[c]?.bind fun row => row[i]? := by
  induction rows generalizing c with
  | nil => simp
  | cons row rows ih =>
      have hrow : row.length = n := h row List.mem_cons_self
      have hrows : ∀ row ∈ rows, row.length = n := fun r hr => h r (List.mem_cons_of_mem _ hr)
      rw [List.flatten_cons]
      cases c with
      | zero =>
          have hlt : n * 0 + i < row.length := by omega
          rw [List.getElem?_append_left hlt]
          simp
      | succ c =>
          have hle : row.length ≤ n * (c + 1) + i := by
            rw [Nat.mul_succ]
            omega
          have hshift : n * (c + 1) + i - row.length = n * c + i := by
            rw [Nat.mul_succ]
            omega
          rw [List.getElem?_append_right hle, hshift, ih hrows]
          simp

theorem length_flatten_of_length {β : Type} {rows : List (List β)} {n : Nat}
    (h : ∀ row ∈ rows, row.length = n) : rows.flatten.length = rows.length * n := by
  rw [List.length_flatten, List.map_congr_left h, List.map_const', List.sum_replicate, smul_eq_mul]

theorem flatMap_take_drop {β : Type} (xs : List β) (n count : Nat) :
    (List.range count).flatMap (fun i => (xs.drop (n * i)).take n) = xs.take (n * count) := by
  induction count with
  | zero => simp
  | succ count ih =>
      rw [List.range_succ, List.flatMap_append, ih, Nat.mul_succ, List.take_add]
      simp

theorem size_groups {β : Type} (n : Nat) (entries : Array β) :
    (groups n entries).size = entries.size / n := by
  simp [groups]

theorem toList_groups {β : Type} (n : Nat) (entries : Array β) :
    (groups n entries).toList =
      (List.range (entries.size / n)).map fun i => (entries.toList.drop (n * i)).take n := by
  simp [groups, List.extract_eq_take_drop]

/-- Entries in whole groups are recovered by laying the groups side by side. -/
theorem flatten_groups {β : Type} {n : Nat} {entries : Array β} (h : n ∣ entries.size) :
    (groups n entries).toList.flatten = entries.toList := by
  rw [toList_groups, ← List.flatMap_def, flatMap_take_drop, Nat.mul_div_cancel' h]
  simp

theorem length_of_mem_groups {β : Type} {n : Nat} {entries : Array β} {group : List β}
    (h : group ∈ groups n entries) : group.length = n := by
  rw [← Array.mem_toList_iff, toList_groups, List.mem_map] at h
  obtain ⟨i, hi, rfl⟩ := h
  have hle : n * (i + 1) ≤ entries.size :=
    le_trans (Nat.mul_le_mul_left n (List.mem_range.mp hi)) (Nat.mul_div_le _ _)
  rw [List.length_take, List.length_drop, Array.length_toList]
  rw [Nat.mul_succ] at hle
  omega

theorem mem_of_mem_groups {β : Type} {n : Nat} {entries : Array β} {group : List β} {x : β}
    (h : group ∈ groups n entries) (hx : x ∈ group) : x ∈ entries := by
  rw [← Array.mem_toList_iff, toList_groups, List.mem_map] at h
  obtain ⟨i, -, rfl⟩ := h
  exact Array.mem_toList_iff.mp (List.mem_of_mem_drop (List.mem_of_mem_take hx))

/-! ## Acceptance -/

theorem hasRepeat_eq_false_iff {cell : List Nat} : hasRepeat cell = false ↔ cell.Nodup := by
  induction cell with
  | nil => simp [hasRepeat]
  | cons v cell ih => simp [hasRepeat, ih]

/-- The conditions on the lists of a mesh, in the order in which they are checked. -/
theorem MeshData.error?_eq_none_iff {α : Type} {data : MeshData α} :
    data.error? = none ↔
      data.shape.dimension ≤ data.geometricDimension ∧
        data.geometricDimension ∣ data.vertices.size ∧
        data.shape.numVertices ∣ data.cells.size ∧
        (∀ v ∈ data.cells, v < data.vertices.size / data.geometricDimension) ∧
        ∀ cell ∈ data.cellLists, cell.Nodup := by
  unfold MeshData.error?
  dsimp only
  by_cases hdim : data.geometricDimension < data.shape.dimension
  · simp [hdim, Nat.not_le.mpr hdim]
  rw [if_neg hdim]
  by_cases hvertices : data.vertices.size % data.geometricDimension = 0
  swap
  · simp [hvertices, Nat.dvd_iff_mod_eq_zero]
  rw [if_neg (not_not.mpr hvertices)]
  by_cases hcells : data.cells.size % data.shape.numVertices = 0
  swap
  · simp [hcells, Nat.dvd_iff_mod_eq_zero]
  rw [if_neg (not_not.mpr hcells)]
  have hdvd := Nat.dvd_of_mod_eq_zero hvertices
  have hdvd' := Nat.dvd_of_mod_eq_zero hcells
  cases hfind : data.cells.find? (data.vertices.size / data.geometricDimension ≤ ·) with
  | some v =>
      have hle := Array.find?_some hfind
      have hmem := Array.mem_of_find?_eq_some hfind
      simp only [reduceCtorEq, false_iff, not_and, not_forall]
      intro _ _ _ hlt
      exact absurd (hlt v hmem) (by simpa using hle)
  | none =>
      have hlt : ∀ v ∈ data.cells, v < data.vertices.size / data.geometricDimension := by
        simpa using hfind
      simp only [Option.map_eq_none_iff, Array.find?_eq_none, Bool.not_eq_true,
        hasRepeat_eq_false_iff]
      exact ⟨fun h => ⟨Nat.not_lt.mp hdim, hdvd, hdvd', hlt, h⟩, fun h => h.2.2.2.2⟩

namespace Mesh

variable {α : Type}

/-- A mesh whose points and cells fit its space and its shape. -/
structure WellFormed (mesh : Mesh α) : Prop where
  dimension_le : mesh.dimension ≤ mesh.geometricDimension
  length_point : ∀ point ∈ mesh.points, point.length = mesh.geometricDimension
  length_cell : ∀ cell ∈ mesh.cells, cell.length = mesh.shape.numVertices
  lt_numVertices : ∀ cell ∈ mesh.cells, ∀ v ∈ cell, v < mesh.numVertices
  nodup_cell : ∀ cell ∈ mesh.cells, cell.Nodup

theorem WellFormed.of_cells {mesh : Mesh α} (hdim : mesh.geometricDimension = mesh.dimension)
    (hpoints : ∀ point ∈ mesh.points, point.length = mesh.geometricDimension)
    (hcells : ∀ cell ∈ mesh.cells, cell.length = mesh.shape.numVertices ∧ cell.Nodup ∧
      ∀ v ∈ cell, v < mesh.numVertices) : mesh.WellFormed where
  dimension_le := hdim.ge
  length_point := hpoints
  length_cell cell hcell := (hcells cell hcell).1
  lt_numVertices cell hcell := (hcells cell hcell).2.2
  nodup_cell cell hcell := (hcells cell hcell).2.1

theorem ofData_eq_ok_iff {data : MeshData α} {mesh : Mesh α} :
    ofData data = .ok mesh ↔ data.error? = none ∧ mesh.shape = data.shape ∧
      mesh.geometricDimension = data.geometricDimension ∧ mesh.points = data.points ∧
      mesh.cells = data.cellLists := by
  unfold ofData
  cases herror : data.error? with
  | some error => simp
  | none =>
      simp only [Except.ok.injEq, true_and]
      constructor
      · intro heq
        rw [← heq]
        exact ⟨rfl, rfl, rfl, rfl⟩
      · intro h
        obtain ⟨hshape, hdim, hpoints, hcells⟩ := h
        exact (eq_of_parts hshape hdim hpoints hcells).symm

theorem wellFormed_of_ofData {data : MeshData α} {mesh : Mesh α} (h : ofData data = .ok mesh) :
    mesh.WellFormed := by
  obtain ⟨herror, hshape, hdim, hpoints, hcells⟩ := ofData_eq_ok_iff.mp h
  obtain ⟨hle, -, -, hlt, hnodup⟩ := MeshData.error?_eq_none_iff.mp herror
  constructor
  · rw [dimension, hshape, hdim]
    exact hle
  · intro point hpoint
    rw [hpoints] at hpoint
    rw [hdim]
    exact length_of_mem_groups hpoint
  · intro cell hcell
    rw [hcells] at hcell
    rw [hshape]
    exact length_of_mem_groups hcell
  · intro cell hcell v hv
    rw [hcells] at hcell
    rw [numVertices, hpoints, MeshData.points, size_groups]
    exact hlt v (mem_of_mem_groups hcell hv)
  · intro cell hcell
    rw [hcells] at hcell
    exact hnodup cell hcell

/-- The cells of an accepted mesh, laid side by side, are the list it was accepted with. -/
theorem flatten_cells_of_ofData {data : MeshData α} {mesh : Mesh α} (h : ofData data = .ok mesh) :
    mesh.cells.toList.flatten = data.cells.toList := by
  obtain ⟨herror, -, -, -, hcells⟩ := ofData_eq_ok_iff.mp h
  obtain ⟨-, -, hdvd, -, -⟩ := MeshData.error?_eq_none_iff.mp herror
  rw [hcells]
  exact flatten_groups hdvd

end Mesh
end FiniteElement
