import Mathlib
import FiniteElement.Proofs.Mesh.Entities

/-! # Validation and numbering with checks

The search for errors in the lists of a mesh and the numbering of its entities,
once more with every division and every access checked. No check fails, so the
result is the same: the divisors are not zero once the space has room for the
cells, and the accesses stay within whole cells. Only lists of more entities than
can be stored are refused.
-/

namespace FiniteElement

namespace Index

def quotient (m n : Nat) : Except Fault Nat := if n = 0 then .error .overflow else .ok (m / n)

def remainder (m n : Nat) : Except Fault Nat := if n = 0 then .error .overflow else .ok (m % n)

def slice {β : Type} (entries : Array β) (start stop : Nat) : Except Fault (List β) :=
  if start ≤ stop ∧ stop ≤ entries.size then .ok (entries.extract start stop).toList
  else .error .outOfBounds

theorem quotient_of_pos {m n : Nat} (h : 0 < n) : quotient m n = .ok (m / n) :=
  if_neg (Nat.ne_of_gt h)

theorem remainder_of_pos {m n : Nat} (h : 0 < n) : remainder m n = .ok (m % n) :=
  if_neg (Nat.ne_of_gt h)

end Index

/-! ## Repeated vertices -/

/-- Whether the entry at a place of a cell occurs before it, with the places checked. -/
def checkedRepeatsAt (cell : List Nat) (i : Nat) : Except Fault Bool := do
  let (before, _) ← Index.split i cell
  let v ← Index.entry cell i
  return before.contains v

def checkedHasRepeat (cell : List Nat) : Except Fault Bool :=
  (List.range cell.length).anyM (checkedRepeatsAt cell)

/-- A list has distinct entries if none of them occurs before its place. -/
theorem nodup_iff_not_mem_take {cell : List Nat} :
    cell.Nodup ↔ ∀ i (hi : i < cell.length), cell[i] ∉ cell.take i := by
  rw [List.Nodup, List.pairwise_iff_getElem]
  constructor
  · intro h i hi hmem
    obtain ⟨j, hj, heq⟩ := List.mem_take_iff_getElem.mp hmem
    exact h j i (by omega) hi (by omega) heq
  · intro h i j hi hj hij heq
    apply h j hj
    rw [List.mem_take_iff_getElem]
    exact ⟨i, by omega, heq⟩

theorem checkedRepeatsAt_eq_ok {cell : List Nat} {i : Nat} (hi : i < cell.length) :
    checkedRepeatsAt cell i = .ok ((cell.take i).contains (cell.getD i 0)) := by
  rw [checkedRepeatsAt, Index.split_of_le (Nat.le_of_lt hi), Checked.ok_bind]
  dsimp only
  rw [Index.entry_of_lt hi, Checked.ok_bind, List.getD_eq_getElem _ _ hi]
  rfl

theorem checkedHasRepeat_eq_ok (cell : List Nat) :
    checkedHasRepeat cell = .ok (hasRepeat cell) := by
  -- the checks look back from each place and the search looks ahead: both decide `Nodup`
  have hany : (List.range cell.length).any (fun i => (cell.take i).contains (cell.getD i 0)) =
      hasRepeat cell := by
    rw [Bool.eq_iff_iff, ← not_iff_not, Bool.not_eq_true, Bool.not_eq_true, List.any_eq_false,
      hasRepeat_eq_false_iff, nodup_iff_not_mem_take]
    constructor
    · intro h i hi hmem
      apply h i (List.mem_range.mpr hi)
      rwa [List.contains_iff_mem, List.getD_eq_getElem _ _ hi]
    · intro h i hmem hcontains
      have hi := List.mem_range.mp hmem
      rw [List.contains_iff_mem, List.getD_eq_getElem _ _ hi] at hcontains
      exact h i hi hcontains
  rw [checkedHasRepeat, ← hany]
  exact Checked.anyM_eq_ok_any fun i hi => checkedRepeatsAt_eq_ok (List.mem_range.mp hi)

/-! ## Tables -/

namespace EntityTable

variable {shape : Shape} {dim : Nat}

def checkedKey (shape : Shape) (dim : Nat) (cell : List Nat) (index : Nat) :
    Except Fault (List Nat) := do
  let entity ← shape.entityVertices dim index
  let vertices ← entity.mapM (Index.entry cell)
  return vertices.mergeSort (· ≤ ·)

def checkedVisitCell (shape : Shape) (dim : Nat)
    (state : Array (List Nat) × Numbering (List Nat)) (cell : List Nat) :
    Except Fault (Array (List Nat) × Numbering (List Nat)) := do
  let keys ← (List.range (shape.numEntities dim)).mapM (checkedKey shape dim cell)
  let (numbers, numbering) := state.2.visitAll keys
  return (state.1.push numbers, numbering)

def checkedOfCells (shape : Shape) (numVertices : Nat) (cells : List (List Nat)) (dim : Nat) :
    Except Fault EntityTable := do
  if dim = 0 then return ⟨numVertices, cells.toArray⟩
  else if dim = shape.dimension then
    return ⟨cells.length, (Array.range cells.length).map fun c => [c]⟩
  else
    let _ ← Index.length (cells.length * shape.numEntities dim)
    let (table, numbering) ← cells.foldlM (checkedVisitCell shape dim) (#[], Numbering.empty)
    return ⟨numbering.size, table⟩

theorem checkedKey_eq_ok {cell : List Nat}
    (hcell : cell.length = shape.numVertices) {index : Nat} {entity : List Nat}
    (hentity : (shape.entities dim)[index]? = some entity) :
    checkedKey shape dim cell index = .ok (entityKey cell entity) := by
  have hvertices : entity.mapM (Index.entry cell) = .ok (entity.map fun v => cell.getD v 0) := by
    apply Checked.mapM_eq_ok_map
    intro v hv
    have hlt := Shape.lt_numVertices_of_mem_entities (List.mem_of_getElem? hentity) v hv
    rw [← hcell] at hlt
    rw [Index.entry_of_lt hlt, List.getD_eq_getElem _ _ hlt]
  rw [checkedKey, Shape.entityVertices_eq_ok_iff.mpr hentity, Checked.ok_bind, hvertices,
    Checked.ok_bind]
  rfl

theorem checkedVisitCell_eq_ok {cell : List Nat}
    (hcell : cell.length = shape.numVertices)
    (state : Array (List Nat) × Numbering (List Nat)) :
    checkedVisitCell shape dim state cell = .ok (visitCell shape dim state cell) := by
  have hkeys : (List.range (shape.numEntities dim)).mapM (checkedKey shape dim cell) =
      .ok (keys shape dim cell) := by
    rw [Checked.mapM_eq_ok_iff, List.forall₂_iff_get]
    refine ⟨by rw [List.length_range, keys, List.length_map, Shape.numEntities], ?_⟩
    intro i hi hi'
    rw [keys, List.length_map] at hi'
    have hkey := checkedKey_eq_ok hcell (List.getElem?_eq_getElem hi')
    simpa [keys] using hkey
  rw [checkedVisitCell, hkeys, Checked.ok_bind]
  rfl

/-- The largest number of entities for each vertex of a cell is that of the edges of tetrahedra. -/
theorem two_mul_numEntities_le (shape : Shape) (hdim : dim ≤ shape.dimension) :
    2 * shape.numEntities dim ≤ 3 * shape.numVertices := by
  have hall : ∀ dim ≤ shape.dimension, 2 * shape.numEntities dim ≤ 3 * shape.numVertices := by
    cases shape
    all_goals decide
  exact hall dim hdim

/-- Whole cells have the table of their entities, if there is room for it. -/
theorem checkedOfCells_eq_ok (numVertices : Nat) {cells : List (List Nat)}
    (hcells : ∀ cell ∈ cells, cell.length = shape.numVertices)
    (hroom : dim ≠ 0 → dim ≠ shape.dimension →
      cells.length * shape.numEntities dim < Index.capacity) :
    checkedOfCells shape numVertices cells dim =
      .ok (ofCells shape numVertices cells.toArray dim) := by
  unfold checkedOfCells ofCells
  by_cases hzero : dim = 0
  · rw [if_pos hzero, if_pos hzero]
    rfl
  rw [if_neg hzero, if_neg hzero]
  by_cases htop : dim = shape.dimension
  · rw [if_pos htop, if_pos htop, List.size_toArray]
    rfl
  · have hfold := Checked.foldlM_eq_ok_foldl (f := checkedVisitCell shape dim)
      (fun state cell hcell => checkedVisitCell_eq_ok (hcells cell hcell) state)
      (#[], Numbering.empty)
    rw [if_neg htop, if_neg htop, Index.length, if_pos (hroom hzero htop), Checked.ok_bind, hfold,
      Checked.ok_bind, byFirstAppearance, ← Array.foldl_toList]
    rfl

theorem checkedOfCells_eq_ok_or (numVertices : Nat) {cells : List (List Nat)}
    (hcells : ∀ cell ∈ cells, cell.length = shape.numVertices) (hdim : dim ≤ shape.dimension) :
    checkedOfCells shape numVertices cells dim = .ok (ofCells shape numVertices cells.toArray dim) ∨
      checkedOfCells shape numVertices cells dim = .error .tooManyEntries ∧
        2 * Index.capacity ≤ 3 * (cells.length * shape.numVertices) := by
  by_cases hroom : dim ≠ 0 → dim ≠ shape.dimension →
      cells.length * shape.numEntities dim < Index.capacity
  · exact Or.inl (checkedOfCells_eq_ok numVertices hcells hroom)
  · right
    push Not at hroom
    obtain ⟨hzero, htop, hlarge⟩ := hroom
    rw [checkedOfCells, if_neg hzero, if_neg htop, Index.length, if_neg (Nat.not_lt.mpr hlarge)]
    refine ⟨rfl, ?_⟩
    have hentities := Nat.mul_le_mul_left cells.length (two_mul_numEntities_le shape hdim)
    rw [Nat.mul_left_comm, Nat.mul_left_comm cells.length 3] at hentities
    omega

end EntityTable

/-! ## Lists -/

namespace MeshData

variable {α : Type} (data : MeshData α)

def checkedCells : Except Fault (List (List Nat)) := do
  let numCells ← Index.quotient data.cells.size data.shape.numVertices
  (List.range numCells).mapM fun c =>
    Index.slice data.cells (data.shape.numVertices * c) (data.shape.numVertices * (c + 1))

def checkedError? : Except Fault (Option MeshError) := do
  if data.geometricDimension < data.shape.dimension then
    return some (.spaceTooSmall data.geometricDimension data.shape.dimension)
  else
    let excess ← Index.remainder data.vertices.size data.geometricDimension
    if excess ≠ 0 then return some .raggedVertices
    else
      let excess ← Index.remainder data.cells.size data.shape.numVertices
      if excess ≠ 0 then return some .raggedCells
      else
        let numVertices ← Index.quotient data.vertices.size data.geometricDimension
        match data.cells.find? (numVertices ≤ ·) with
        | some index => return some (.unknownVertex index numVertices)
        | none =>
          let cells ← data.checkedCells
          let repeated ← cells.findM? checkedHasRepeat
          return repeated.map .repeatedVertex

/-- The error of the lists, or else the entities of their mesh by dimension, with every division and
every access checked. -/
def checkedTables : Except Fault (Except MeshError (List EntityTable)) := do
  match ← data.checkedError? with
  | some error => return .error error
  | none =>
    let numVertices ← Index.quotient data.vertices.size data.geometricDimension
    let cells ← data.checkedCells
    let tables ← (List.range (data.shape.dimension + 1)).mapM
      (EntityTable.checkedOfCells data.shape numVertices cells)
    return .ok tables

theorem checkedCells_eq_ok : data.checkedCells = .ok data.cellLists.toList := by
  have hpos : 0 < data.shape.numVertices := Nat.succ_pos _
  have hcells : (List.range (data.cells.size / data.shape.numVertices)).mapM (fun c =>
      Index.slice data.cells (data.shape.numVertices * c) (data.shape.numVertices * (c + 1))) =
        .ok ((List.range (data.cells.size / data.shape.numVertices)).map fun c =>
          (data.cells.extract (data.shape.numVertices * c)
            (data.shape.numVertices * (c + 1))).toList) := by
    apply Checked.mapM_eq_ok_map
    intro c hc
    have hle : data.shape.numVertices * (c + 1) ≤ data.cells.size :=
      Nat.le_trans (Nat.mul_le_mul_left _ (List.mem_range.mp hc)) (Nat.mul_div_le _ _)
    have hstart := Nat.mul_le_mul_left data.shape.numVertices (Nat.le_succ c)
    rw [Index.slice, if_pos ⟨hstart, hle⟩]
  rw [checkedCells, Index.quotient_of_pos hpos, Checked.ok_bind, hcells, cellLists,
    groups, Array.toList_map, Array.toList_range]
  rfl

theorem checkedError?_eq_ok : data.checkedError? = .ok data.error? := by
  unfold checkedError? error?
  dsimp only
  by_cases hdim : data.geometricDimension < data.shape.dimension
  · rw [if_pos hdim, if_pos hdim]
    rfl
  have hpos : 0 < data.geometricDimension :=
    Nat.lt_of_lt_of_le data.shape.dimension_pos (Nat.not_lt.mp hdim)
  have hshape : 0 < data.shape.numVertices := Nat.succ_pos _
  rw [if_neg hdim, if_neg hdim, Index.remainder_of_pos hpos, Checked.ok_bind]
  by_cases hvertices : data.vertices.size % data.geometricDimension ≠ 0
  · rw [if_pos hvertices, if_pos hvertices]
    rfl
  rw [if_neg hvertices, if_neg hvertices, Index.remainder_of_pos hshape, Checked.ok_bind]
  by_cases hcells : data.cells.size % data.shape.numVertices ≠ 0
  · rw [if_pos hcells, if_pos hcells]
    rfl
  rw [if_neg hcells, if_neg hcells, Index.quotient_of_pos hpos, Checked.ok_bind]
  cases data.cells.find? (data.vertices.size / data.geometricDimension ≤ ·) with
  | some index => rfl
  | none =>
      have hfind : data.cellLists.toList.findM? checkedHasRepeat =
          .ok (data.cellLists.toList.find? hasRepeat) :=
        Checked.findM?_eq_ok_find? fun cell _ => checkedHasRepeat_eq_ok cell
      dsimp only
      rw [data.checkedCells_eq_ok, Checked.ok_bind, hfind, Checked.ok_bind, Array.find?_toList]
      rfl

theorem length_of_mem_cellLists {cell : List Nat} (h : cell ∈ data.cellLists.toList) :
    cell.length = data.shape.numVertices :=
  length_of_mem_groups (Array.mem_toList_iff.mp h)

theorem tables_ofData (herror : data.error? = none) :
    (Mesh.ofData data).map Mesh.tables = .ok ((List.range (data.shape.dimension + 1)).map
      (EntityTable.ofCells data.shape (data.vertices.size / data.geometricDimension)
        data.cellLists.toList.toArray)) := by
  rw [Mesh.ofData, herror, Array.toArray_toList, ← size_groups]
  rfl

theorem checkedTables_eq_mapM (herror : data.error? = none) :
    data.checkedTables = (List.range (data.shape.dimension + 1)).mapM
      (EntityTable.checkedOfCells data.shape (data.vertices.size / data.geometricDimension)
        data.cellLists.toList) >>= fun tables => .ok (.ok tables) := by
  have hpos := Nat.lt_of_lt_of_le data.shape.dimension_pos (error?_eq_none_iff.mp herror).1
  rw [checkedTables, data.checkedError?_eq_ok, Checked.ok_bind, herror]
  dsimp only
  rw [Index.quotient_of_pos hpos, Checked.ok_bind, data.checkedCells_eq_ok, Checked.ok_bind]
  rfl

/-- Lists without an error have the tables of their mesh, if there is room for them. -/
theorem checkedTables_eq_ok (herror : data.error? = none)
    (hroom : ∀ dim, dim ≠ 0 → dim ≠ data.shape.dimension →
      data.cellLists.size * data.shape.numEntities dim < Index.capacity) :
    data.checkedTables = .ok ((Mesh.ofData data).map Mesh.tables) := by
  have htables := Checked.mapM_eq_ok_map
    fun dim (_ : dim ∈ List.range (data.shape.dimension + 1)) =>
      EntityTable.checkedOfCells_eq_ok (data.vertices.size / data.geometricDimension)
        (fun _ => data.length_of_mem_cellLists) (hroom dim)
  rw [data.checkedTables_eq_mapM herror, htables, data.tables_ofData herror]
  rfl

/-- The checks change nothing, unless there are more entities of a dimension than can be stored. -/
theorem checkedTables_eq_ok_or :
    data.checkedTables = .ok ((Mesh.ofData data).map Mesh.tables) ∨
      data.checkedTables = .error .tooManyEntries ∧ 2 * Index.capacity ≤ 3 * data.cells.size := by
  cases herror : data.error? with
  | some error =>
      left
      rw [checkedTables, data.checkedError?_eq_ok, Checked.ok_bind, herror, Mesh.ofData, herror]
      rfl
  | none =>
      have hsize : data.cellLists.toList.length * data.shape.numVertices = data.cells.size := by
        rw [Array.length_toList, cellLists, size_groups,
          Nat.div_mul_cancel (error?_eq_none_iff.mp herror).2.2.1]
      have htables := Checked.mapM_eq_ok_map_or
        fun dim (hrange : dim ∈ List.range (data.shape.dimension + 1)) =>
          EntityTable.checkedOfCells_eq_ok_or (data.vertices.size / data.geometricDimension)
            (fun _ => data.length_of_mem_cellLists) (Nat.le_of_lt_succ (List.mem_range.mp hrange))
      rw [hsize] at htables
      rw [data.checkedTables_eq_mapM herror]
      rcases htables with hok | ⟨hfault, hlarge⟩
      · left
        rw [hok, data.tables_ofData herror]
        rfl
      · right
        rw [hfault]
        exact ⟨rfl, hlarge⟩

end MeshData
end FiniteElement
