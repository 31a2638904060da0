import Mathlib
import FiniteElement.Proofs.Mesh.CheckedTables
import FiniteElement.Proofs.Mesh.EntityNumbering
import FiniteElement.Proofs.Mesh.RoundTrip
import FiniteElement.Proofs.Mesh.View

/-! # Validation of mesh lists

What each error says about the lists of a mesh does not mention the search that
finds it. The lists are accepted exactly when they are whole points and whole
cells of distinct vertices that exist, and otherwise the error is the first in
the order of the search that they give occasion for.
-/

namespace FiniteElement

/-! ## First entries -/

def IsFirst {β : Type} (p : β → Prop) (entries : Array β) (x : β) : Prop :=
  ∃ i : Nat, entries[i]? = some x ∧ p x ∧ ∀ j < i, ∀ y, entries[j]? = some y → ¬ p y

namespace IsFirst

variable {β : Type} {p : β → Prop} {entries : Array β} {x y : β}

theorem exists_mem (h : IsFirst p entries x) : ∃ y ∈ entries, p y := by
  obtain ⟨i, hi, hp, -⟩ := h
  exact ⟨x, Array.mem_of_getElem? hi, hp⟩

theorem unique (hx : IsFirst p entries x) (hy : IsFirst p entries y) : x = y := by
  obtain ⟨i, hi, hpx, hbefore⟩ := hx
  obtain ⟨j, hj, hpy, hbefore'⟩ := hy
  rcases Nat.lt_trichotomy i j with hlt | heq | hgt
  · exact absurd hpx (hbefore' i hlt x hi)
  · rw [heq, hj] at hi
    exact (Option.some.inj hi).symm
  · exact absurd hpy (hbefore j hgt y hj)

theorem of_find?_eq_some {q : β → Bool} (hq : ∀ y, q y = true ↔ p y)
    (h : entries.find? q = some x) : IsFirst p entries x := by
  obtain ⟨hx, i, hi, heq, hbefore⟩ := Array.find?_eq_some_iff_getElem.mp h
  refine ⟨i, ?_, (hq x).mp hx, ?_⟩
  · rw [Array.getElem?_eq_getElem hi, heq]
  · intro j hj y hy hpy
    have hlt : j < entries.size := Nat.lt_trans hj hi
    rw [Array.getElem?_eq_getElem hlt, Option.some.injEq] at hy
    have hnot := hbefore j hj
    rw [hy, (hq y).mpr hpy] at hnot
    cases hnot

end IsFirst

/-! ## Errors -/

/-- The place of an error in the order in which errors are looked for. -/
def MeshError.place : MeshError → Nat
  | .spaceTooSmall _ _ => 0
  | .raggedVertices => 1
  | .raggedCells => 2
  | .unknownVertex _ _ => 3
  | .repeatedVertex _ => 4

namespace MeshData

variable {α : Type}

/-- What an error says about the lists, whatever else is wrong with them. -/
def Violates (data : MeshData α) : MeshError → Prop
  | .spaceTooSmall geometricDimension dimension =>
    geometricDimension = data.geometricDimension ∧ dimension = data.shape.dimension ∧
      geometricDimension < dimension
  | .raggedVertices => ¬ data.geometricDimension ∣ data.vertices.size
  | .raggedCells => ¬ data.shape.numVertices ∣ data.cells.size
  | .unknownVertex index numVertices =>
    numVertices = data.vertices.size / data.geometricDimension ∧
      IsFirst (numVertices ≤ ·) data.cells index
  | .repeatedVertex cell => IsFirst (¬ ·.Nodup) data.cellLists cell

structure IsMesh (data : MeshData α) : Prop where
  dimension_le : data.shape.dimension ≤ data.geometricDimension
  dvd_vertices : data.geometricDimension ∣ data.vertices.size
  dvd_cells : data.shape.dimension + 1 ∣ data.cells.size
  lt_numVertices : ∀ v ∈ data.cells, v < data.vertices.size / data.geometricDimension
  distinct_in_cell : ∀ c < data.cells.size / (data.shape.dimension + 1),
    ∀ i j, i < j → j < data.shape.dimension + 1 →
      data.cells[(data.shape.dimension + 1) * c + i]? ≠
        data.cells[(data.shape.dimension + 1) * c + j]?

end MeshData

/-! ## Groups -/

theorem getElem?_groups {β : Type} {n : Nat} {entries : Array β} {i : Nat}
    (hi : i < entries.size / n) :
    (groups n entries)[i]? = some (entries.extract (n * i) (n * (i + 1))).toList := by
  simp [groups, hi, Nat.mul_succ]

/-- A group has distinct entries if no two of its places in the array have the same. -/
theorem nodup_group_iff {n : Nat} {entries : Array Nat} {c : Nat} (hc : c < entries.size / n) :
    (entries.extract (n * c) (n * (c + 1))).toList.Nodup ↔
      ∀ i j, i < j → j < n → entries[n * c + i]? ≠ entries[n * c + j]? := by
  have hle : n * (c + 1) ≤ entries.size :=
    Nat.le_trans (Nat.mul_le_mul_left n hc) (Nat.mul_div_le _ _)
  have hlength : (entries.extract (n * c) (n * (c + 1))).toList.length = n := by
    rw [Array.length_toList, Array.size_extract, Nat.min_eq_left hle, Nat.mul_succ,
      Nat.add_sub_cancel_left]
  have hget : ∀ i < n, (entries.extract (n * c) (n * (c + 1))).toList[i]? =
      entries[n * c + i]? := by
    intro i hi
    rw [Array.getElem?_toList, Array.getElem?_extract, Nat.min_eq_left hle, Nat.mul_succ,
      Nat.add_sub_cancel_left, if_pos hi]
  rw [List.nodup_iff_getElem?_ne_getElem?, hlength]
  constructor
  · intro h i j hij hj
    rw [← hget i (Nat.lt_trans hij hj), ← hget j hj]
    exact h i j hij hj
  · intro h i j hij hj
    rw [hget i (Nat.lt_trans hij hj), hget j hj]
    exact h i j hij hj

namespace MeshData

variable {α : Type} {data : MeshData α}

theorem nodup_cellLists_iff :
    (∀ cell ∈ data.cellLists, cell.Nodup) ↔
      ∀ c < data.cells.size / (data.shape.dimension + 1),
        ∀ i j, i < j → j < data.shape.dimension + 1 →
          data.cells[(data.shape.dimension + 1) * c + i]? ≠
            data.cells[(data.shape.dimension + 1) * c + j]? := by
  constructor
  · intro h c hc
    rw [← nodup_group_iff hc]
    exact h _ (Array.mem_of_getElem? (getElem?_groups hc))
  · intro h cell hcell
    obtain ⟨c, hc, heq⟩ := Array.getElem_of_mem hcell
    rw [cellLists, size_groups] at hc
    have hgroup : data.cellLists[c]? = _ := getElem?_groups hc
    rw [Array.getElem?_eq_getElem (by rwa [cellLists, size_groups]), heq,
      Option.some.injEq] at hgroup
    rw [hgroup]
    exact (nodup_group_iff hc).mpr (h c hc)

theorem error?_eq_none_iff_isMesh : data.error? = none ↔ data.IsMesh := by
  rw [error?_eq_none_iff, nodup_cellLists_iff]
  constructor
  · intro h
    obtain ⟨hdim, hvertices, hcells, hlt, hdistinct⟩ := h
    exact ⟨hdim, hvertices, hcells, hlt, hdistinct⟩
  · intro h
    exact ⟨h.dimension_le, h.dvd_vertices, h.dvd_cells, h.lt_numVertices, h.distinct_in_cell⟩

/-! ## The first error -/

def Clear (data : MeshData α) (place : Nat) : Prop :=
  ∀ error : MeshError, error.place = place → ¬ data.Violates error

theorem clear_zero (h : data.shape.dimension ≤ data.geometricDimension) : data.Clear 0 := by
  intro error hplace hviolates
  cases error with
  | spaceTooSmall geometricDimension dimension =>
      obtain ⟨hspace, hdim, hlt⟩ := hviolates
      omega
  | _ => simp [MeshError.place] at hplace

theorem clear_one (h : data.geometricDimension ∣ data.vertices.size) : data.Clear 1 := by
  intro error hplace hviolates
  cases error with
  | raggedVertices => exact hviolates h
  | _ => simp [MeshError.place] at hplace

theorem clear_two (h : data.shape.numVertices ∣ data.cells.size) : data.Clear 2 := by
  intro error hplace hviolates
  cases error with
  | raggedCells => exact hviolates h
  | _ => simp [MeshError.place] at hplace

theorem clear_three (h : ∀ v ∈ data.cells, v < data.vertices.size / data.geometricDimension) :
    data.Clear 3 := by
  intro error hplace hviolates
  cases error with
  | unknownVertex index numVertices =>
      obtain ⟨hcount, hfirst⟩ := hviolates
      obtain ⟨v, hv, hle⟩ := hfirst.exists_mem
      have hlt := h v hv
      omega
  | _ => simp [MeshError.place] at hplace

theorem clear_four (h : ∀ cell ∈ data.cellLists, cell.Nodup) : data.Clear 4 := by
  intro error hplace hviolates
  cases error with
  | repeatedVertex cell =>
      have hfirst : IsFirst (¬ ·.Nodup) data.cellLists cell := hviolates
      obtain ⟨cell', hcell', hnot⟩ := hfirst.exists_mem
      exact hnot (h cell' hcell')
  | _ => simp [MeshError.place] at hplace

theorem not_violates_of_isMesh (h : data.IsMesh) (error : MeshError) : ¬ data.Violates error := by
  cases error with
  | spaceTooSmall => exact clear_zero h.dimension_le _ rfl
  | raggedVertices => exact clear_one h.dvd_vertices _ rfl
  | raggedCells => exact clear_two h.dvd_cells _ rfl
  | unknownVertex => exact clear_three h.lt_numVertices _ rfl
  | repeatedVertex => exact clear_four (nodup_cellLists_iff.mpr h.distinct_in_cell) _ rfl

/-- The error that is found is one of the lists, and those before it are not. -/
theorem violates_of_error?_eq_some {error : MeshError} (h : data.error? = some error) :
    data.Violates error ∧ ∀ place < error.place, data.Clear place := by
  unfold error? at h
  dsimp only at h
  by_cases hdim : data.geometricDimension < data.shape.dimension
  · rw [if_pos hdim, Option.some.injEq] at h
    subst h
    exact ⟨⟨rfl, rfl, hdim⟩, fun place hplace => absurd hplace (Nat.not_lt_zero _)⟩
  -- each check that is passed clears one more place
  have hclear : ∀ place < 1, data.Clear place := by
    intro place hplace
    rw [Nat.lt_one_iff.mp hplace]
    exact clear_zero (Nat.not_lt.mp hdim)
  rw [if_neg hdim] at h
  by_cases hvertices : data.vertices.size % data.geometricDimension = 0
  swap
  · rw [if_pos hvertices, Option.some.injEq] at h
    subst h
    exact ⟨fun hdvd => hvertices (Nat.mod_eq_zero_of_dvd hdvd), hclear⟩
  replace hclear : ∀ place < 2, data.Clear place :=
    Nat.forall_lt_succ_right.mpr ⟨hclear, clear_one (Nat.dvd_of_mod_eq_zero hvertices)⟩
  rw [if_neg (not_not.mpr hvertices)] at h
  by_cases hcells : data.cells.size % data.shape.numVertices = 0
  swap
  · rw [if_pos hcells, Option.some.injEq] at h
    subst h
    exact ⟨fun hdvd => hcells (Nat.mod_eq_zero_of_dvd hdvd), hclear⟩
  replace hclear : ∀ place < 3, data.Clear place :=
    Nat.forall_lt_succ_right.mpr ⟨hclear, clear_two (Nat.dvd_of_mod_eq_zero hcells)⟩
  rw [if_neg (not_not.mpr hcells)] at h
  cases hfind : data.cells.find? (data.vertices.size / data.geometricDimension ≤ ·) with
  | some index =>
      rw [hfind] at h
      dsimp only at h
      rw [Option.some.injEq] at h
      subst h
      have hfirst : IsFirst (data.vertices.size / data.geometricDimension ≤ ·) data.cells index :=
        IsFirst.of_find?_eq_some (fun _ => decide_eq_true_iff) hfind
      exact ⟨⟨rfl, hfirst⟩, hclear⟩
  | none =>
      rw [hfind] at h
      dsimp only at h
      have hlt : ∀ v ∈ data.cells, v < data.vertices.size / data.geometricDimension := by
        simpa using hfind
      obtain ⟨cell, hcell, heq⟩ := Option.map_eq_some_iff.mp h
      subst heq
      have hrepeat : ∀ cell : List Nat, hasRepeat cell = true ↔ ¬ cell.Nodup := by
        intro cell
        rw [← hasRepeat_eq_false_iff, Bool.not_eq_false]
      exact ⟨IsFirst.of_find?_eq_some hrepeat hcell,
        Nat.forall_lt_succ_right.mpr ⟨hclear, clear_three hlt⟩⟩

/-- Errors of one kind that the lists give occasion for are one error. -/
theorem Violates.eq_of_place_eq {error error' : MeshError} (h : data.Violates error)
    (h' : data.Violates error') (hplace : error.place = error'.place) : error = error' := by
  cases error with
  | spaceTooSmall g d =>
      cases error' with
      | spaceTooSmall g' d' => rw [h.1, h.2.1, h'.1, h'.2.1]
      | _ => simp [MeshError.place] at hplace
  | raggedVertices =>
      cases error' with
      | raggedVertices => rfl
      | _ => simp [MeshError.place] at hplace
  | raggedCells =>
      cases error' with
      | raggedCells => rfl
      | _ => simp [MeshError.place] at hplace
  | unknownVertex index numVertices =>
      cases error' with
      | unknownVertex index' numVertices' =>
          obtain ⟨hcount, hfirst⟩ := h
          obtain ⟨hcount', hfirst'⟩ := h'
          rw [← hcount] at hcount'
          rw [hcount'] at hfirst' ⊢
          rw [hfirst.unique hfirst']
      | _ => simp [MeshError.place] at hplace
  | repeatedVertex cell =>
      cases error' with
      | repeatedVertex cell' =>
          have hfirst : IsFirst (¬ ·.Nodup) data.cellLists cell := h
          rw [hfirst.unique h']
      | _ => simp [MeshError.place] at hplace

/-- The error is the first that the lists give occasion for. -/
theorem error?_eq_some_iff {error : MeshError} :
    data.error? = some error ↔ data.Violates error ∧
      ∀ earlier : MeshError, earlier.place < error.place → ¬ data.Violates earlier := by
  constructor
  · intro h
    obtain ⟨hviolates, hclear⟩ := violates_of_error?_eq_some h
    exact ⟨hviolates, fun earlier hplace => hclear _ hplace earlier rfl⟩
  · intro h
    obtain ⟨hviolates, hbefore⟩ := h
    cases hfound : data.error? with
    | none =>
        exact absurd hviolates (not_violates_of_isMesh (error?_eq_none_iff_isMesh.mp hfound) _)
    | some found =>
        -- neither of the two can come before the other, so they are of one kind
        obtain ⟨hfirst, hclear⟩ := violates_of_error?_eq_some hfound
        rcases Nat.lt_trichotomy found.place error.place with hlt | heq | hgt
        · exact absurd hfirst (hbefore found hlt)
        · rw [hfirst.eq_of_place_eq hviolates heq]
        · exact absurd hviolates (hclear _ hgt error rfl)

end MeshData

/-! ## Accepted lists -/

namespace Mesh

variable {α : Type} {data : MeshData α} {mesh : Mesh α}

theorem ofData_eq_error_iff {error : MeshError} :
    ofData data = .error error ↔ data.error? = some error := by
  unfold ofData
  cases data.error? with
  | some found => simp
  | none => simp

theorem exists_ofData_eq_ok_iff : (∃ mesh, ofData data = .ok mesh) ↔ data.IsMesh := by
  rw [← MeshData.error?_eq_none_iff_isMesh]
  constructor
  · intro h
    obtain ⟨mesh, hmesh⟩ := h
    exact (ofData_eq_ok_iff.mp hmesh).1
  · intro h
    unfold ofData
    rw [h]
    exact ⟨_, rfl⟩

section Accepted

variable (h : ofData data = .ok mesh)

include h

theorem numVertices_of_ofData :
    mesh.numVertices = data.vertices.size / data.geometricDimension := by
  obtain ⟨-, -, -, hpoints, -⟩ := ofData_eq_ok_iff.mp h
  rw [numVertices, hpoints, MeshData.points, size_groups]

theorem numCells_of_ofData : mesh.numCells = data.cells.size / (data.shape.dimension + 1) := by
  obtain ⟨-, -, -, -, hcells⟩ := ofData_eq_ok_iff.mp h
  rw [numCells, hcells, MeshData.cellLists, size_groups]
  rfl

/-- The coordinates of a vertex are cut out of the list. -/
theorem vertex_of_ofData {i : Nat} (hi : i < mesh.numVertices) :
    data.geometricDimension * (i + 1) ≤ data.vertices.size ∧
      mesh.vertex i = .ok (data.vertices.extract (data.geometricDimension * i)
        (data.geometricDimension * (i + 1))).toList := by
  obtain ⟨-, -, -, hpoints, -⟩ := ofData_eq_ok_iff.mp h
  rw [numVertices_of_ofData h] at hi
  constructor
  · exact Nat.le_trans (Nat.mul_le_mul_left _ hi) (Nat.mul_div_le _ _)
  · rw [vertex, Index.slot_eq_ok_iff, hpoints]
    exact getElem?_groups hi

/-- The vertices of a cell are cut out of the list. -/
theorem cellVertices_of_ofData {c : Nat} (hc : c < mesh.numCells) :
    (data.shape.dimension + 1) * (c + 1) ≤ data.cells.size ∧
      mesh.cellVertices c = .ok (data.cells.extract ((data.shape.dimension + 1) * c)
        ((data.shape.dimension + 1) * (c + 1))).toList := by
  obtain ⟨-, -, -, -, hcells⟩ := ofData_eq_ok_iff.mp h
  rw [numCells_of_ofData h] at hc
  constructor
  · exact Nat.le_trans (Nat.mul_le_mul_left _ hc) (Nat.mul_div_le _ _)
  · rw [cellVertices_eq_ok_iff, hcells]
    exact getElem?_groups hc

end Accepted

/-- The entities of a cell are cut out of those of all cells. -/
theorem WellFormed.cellEntities_eq_slice (hmesh : mesh.WellFormed) {c d : Nat}
    (hc : c < mesh.numCells) (hd : d ≤ mesh.dimension) :
    mesh.shape.numEntities d * (c + 1) ≤ (mesh.entityIndices d).length ∧
      mesh.cellEntities c d =
        .ok (((mesh.entityIndices d).drop (mesh.shape.numEntities d * c)).take
          (mesh.shape.numEntities d)) := by
  constructor
  · rw [hmesh.length_entityIndices hd, Nat.mul_comm]
    exact Nat.mul_le_mul_right _ hc
  · obtain ⟨row, hrow⟩ := exists_cellEntities hd hc
    have hplace := (cellEntities_eq_ok_iff hd).mp hrow
    rw [← Array.getElem?_toList] at hplace
    rw [hrow, entityIndices_eq hd,
      take_drop_flatten (fun _ hmem => hmesh.length_of_mem_table hd hmem) hplace]

/-- Lists are accepted exactly when they form a mesh, and are otherwise refused with the first error
that they give occasion for. The search and the numbering of entities divide by nothing that is zero
and reach past the end of no list; only more entities than can be stored are too many. An accepted
mesh has the lists that it was made from, and its vertices and cells lie within them. -/
theorem ofData_accepts_meshes (data : MeshData α) :
    ((∃ mesh, ofData data = .ok mesh) ↔ data.IsMesh) ∧
    (∀ error, ofData data = .error error ↔ data.Violates error ∧
      ∀ earlier : MeshError, earlier.place < error.place → ¬ data.Violates earlier) ∧
    (data.checkedTables = .ok ((ofData data).map Mesh.tables) ∨
      data.checkedTables = .error .tooManyEntries ∧ 2 * Index.capacity ≤ 3 * data.cells.size) ∧
    ∀ mesh, ofData data = .ok mesh →
      mesh.data = data ∧
      mesh.numVertices = data.vertices.size / data.geometricDimension ∧
      mesh.numCells = data.cells.size / (data.shape.dimension + 1) ∧
      (∀ i < mesh.numVertices,
        data.geometricDimension * (i + 1) ≤ data.vertices.size ∧
        mesh.vertex i = .ok (data.vertices.extract (data.geometricDimension * i)
          (data.geometricDimension * (i + 1))).toList) ∧
      ∀ c < mesh.numCells,
        (data.shape.dimension + 1) * (c + 1) ≤ data.cells.size ∧
        mesh.cellVertices c = .ok (data.cells.extract ((data.shape.dimension + 1) * c)
          ((data.shape.dimension + 1) * (c + 1))).toList ∧
        ∀ d ≤ data.shape.dimension,
          data.shape.numEntities d * (c + 1) ≤ (mesh.entityIndices d).length ∧
          mesh.cellEntities c d =
            .ok (((mesh.entityIndices d).drop (data.shape.numEntities d * c)).take
              (data.shape.numEntities d)) := by
  refine ⟨exists_ofData_eq_ok_iff, ?_, data.checkedTables_eq_ok_or, ?_⟩
  · intro error
    rw [ofData_eq_error_iff, MeshData.error?_eq_some_iff]
  · intro mesh h
    have hmesh := wellFormed_of_ofData h
    obtain ⟨-, hshape, -⟩ := ofData_eq_ok_iff.mp h
    refine ⟨data_of_ofData h, numVertices_of_ofData h, numCells_of_ofData h,
      fun i hi => vertex_of_ofData h hi, ?_⟩
    intro c hc
    obtain ⟨hle, hvertices⟩ := cellVertices_of_ofData h hc
    refine ⟨hle, hvertices, ?_⟩
    intro d hd
    rw [← hshape] at hd ⊢
    exact hmesh.cellEntities_eq_slice hc hd

/-- Two triangles in space are a mesh. With a vertex repeated in the first triangle and one that
does not exist in the second, the vertex that does not exist is reported. -/
theorem ofData_accepts_two_triangles :
    let data : MeshData Rat :=
      ⟨.triangle, 3, #[0, 0, 0, 1, 0, 0, 0, 1, 0, 1, 1, 0], #[0, 1, 2, 3, 1, 2]⟩
    let broken : MeshData Rat :=
      ⟨.triangle, 3, #[0, 0, 0, 1, 0, 0, 0, 1, 0, 1, 1, 0], #[0, 1, 1, 3, 7, 2]⟩
    (∃ mesh, ofData data = .ok mesh ∧ mesh.data = data ∧ mesh.numVertices = 4 ∧
      mesh.numCells = 2 ∧ mesh.vertex 3 = .ok [1, 1, 0] ∧ mesh.cellVertices 1 = .ok [3, 1, 2]) ∧
    ofData broken = .error (.unknownVertex 7 4) ∧ ¬ broken.IsMesh ∧
    broken.Violates (.unknownVertex 7 4) ∧ broken.Violates (.repeatedVertex [0, 1, 1]) ∧
    ¬ broken.Violates .raggedCells := by
  intro data broken
  have hdata : data.IsMesh := by
    rw [← MeshData.error?_eq_none_iff_isMesh]
    decide +kernel
  obtain ⟨haccepts, -, -, haccepted⟩ := ofData_accepts_meshes data
  obtain ⟨mesh, hmesh⟩ := haccepts.mpr hdata
  obtain ⟨hsame, hvertices, hcells, hvertex, hcell⟩ := haccepted mesh hmesh
  have hfour : mesh.numVertices = 4 := by
    rw [hvertices]
    decide +kernel
  have htwo : mesh.numCells = 2 := by
    rw [hcells]
    decide +kernel
  have hpoint := (hvertex 3 (by omega)).2
  have hlast := (hcell 1 (by omega)).2.1
  have hslice : (data.vertices.extract (3 * 3) (3 * (3 + 1))).toList = [1, 1, 0] := by
    decide +kernel
  have hslice' : (data.cells.extract (3 * 1) (3 * (1 + 1))).toList = [3, 1, 2] := by
    decide +kernel
  obtain ⟨hbroken, herror, -, -⟩ := ofData_accepts_meshes broken
  have hfound : ofData broken = .error (.unknownVertex 7 4) :=
    ofData_eq_error_iff.mpr (by decide +kernel)
  obtain ⟨hunknown, hearlier⟩ := (herror _).mp hfound
  have hrefused : ¬ broken.IsMesh := by
    intro hmesh
    obtain ⟨mesh', hmesh'⟩ := hbroken.mpr hmesh
    rw [hfound] at hmesh'
    cases hmesh'
  refine ⟨⟨mesh, hmesh, hsame, hfour, htwo, ?_, ?_⟩, hfound, hrefused, hunknown,
    ⟨0, by decide +kernel, by decide, by decide⟩, hearlier .raggedCells (by decide)⟩
  · rw [← hslice]
    exact hpoint
  · rw [← hslice']
    exact hlast

end Mesh

end FiniteElement
