import Mathlib
import FiniteElement.Proofs.Checked
import FiniteElement.Proofs.Mesh.EntityTable
import FiniteElement.Proofs.Mesh.WellFormed

/-! # Entities of a well-formed mesh and of its reference shape

An entity of a mesh is known by its vertices, and so is an entity of a reference
simplex. The closure of a facet is the set of the entities within its vertices.
-/

namespace FiniteElement

/-! ## Entities of a well-formed mesh

Each cell lists as many entities of a dimension as its shape has, with indices
below the count of that dimension. Below the dimension of the cells two of them
are the same entity exactly when they have the same vertices; in that dimension
the only entity of a cell is the cell itself. Every entity belongs to a cell,
except for vertices that no cell uses.
-/

theorem Shape.le_dimension_of_mem_entities {shape : Shape} {dim : Nat} {entity : List Nat}
    (h : entity ∈ shape.entities dim) : dim ≤ shape.dimension := by
  by_contra hgt
  rw [Shape.entities_eq_nil (Nat.lt_of_not_le hgt)] at h
  cases h

theorem Shape.entityVertices_eq_ok_iff {shape : Shape} {dim index : Nat} {entity : List Nat} :
    shape.entityVertices dim index = .ok entity ↔ (shape.entities dim)[index]? = some entity := by
  unfold Shape.entityVertices
  by_cases h : shape.dimension < dim
  · simp [h, Shape.entities_eq_nil h]
  · rw [if_neg h, Index.entry_eq_ok_iff]

theorem Shape.nodup_of_mem_entities {shape : Shape} {dim : Nat} {entity : List Nat}
    (h : entity ∈ shape.entities dim) : entity.Nodup := by
  have hall : ∀ dim ≤ shape.dimension, ∀ entity ∈ shape.entities dim, entity.Nodup := by
    cases shape <;> decide
  exact hall dim (Shape.le_dimension_of_mem_entities h) entity h

theorem Shape.lt_numVertices_of_mem_entities {shape : Shape} {dim : Nat} {entity : List Nat}
    (h : entity ∈ shape.entities dim) : ∀ v ∈ entity, v < shape.numVertices := by
  have hall : ∀ dim ≤ shape.dimension, ∀ entity ∈ shape.entities dim,
      ∀ v ∈ entity, v < shape.numVertices := by
    cases shape <;> decide
  exact hall dim (Shape.le_dimension_of_mem_entities h) entity h

theorem Shape.eq_singleton_of_entities_zero {shape : Shape} {index : Nat} {entity : List Nat}
    (h : (shape.entities 0)[index]? = some entity) : entity = [index] := by
  have hall : ∀ i < shape.numEntities 0, (shape.entities 0)[i]? = some [i] := by
    cases shape <;> decide
  obtain ⟨hlt, -⟩ := List.getElem?_eq_some_iff.mp h
  rw [hall index hlt] at h
  exact (Option.some.inj h).symm

theorem Shape.nodup_entities (shape : Shape) {dim : Nat} (h : dim ≤ shape.dimension) :
    (shape.entities dim).Nodup := by
  have hall : ∀ dim ≤ shape.dimension, (shape.entities dim).Nodup := by
    cases shape <;> decide
  exact hall dim h

/-- The entities of a dimension have equally many vertices, so none lies within another. -/
theorem Shape.eq_of_subset {shape : Shape} {dim : Nat} {entity entity' : List Nat}
    (h : entity ∈ shape.entities dim) (h' : entity' ∈ shape.entities dim)
    (hsubset : ∀ v ∈ entity, v ∈ entity') : entity = entity' := by
  have hall : ∀ dim ≤ shape.dimension, ∀ entity ∈ shape.entities dim,
      ∀ entity' ∈ shape.entities dim, (∀ v ∈ entity, v ∈ entity') → entity = entity' := by
    cases shape <;> decide
  exact hall dim (Shape.le_dimension_of_mem_entities h) entity h entity' h' hsubset

namespace Mesh

variable {α : Type} {mesh : Mesh α}

/-- Local entity `index` of dimension `dim` of a cell has the global index `entity`. -/
def HasEntity (mesh : Mesh α) (cell dim index entity : Nat) : Prop :=
  ∃ entities, mesh.cellEntities cell dim = .ok entities ∧ entities[index]? = some entity

def entityVertices (mesh : Mesh α) (cell dim index : Nat) : Set Nat :=
  {v | ∃ entity vertices, mesh.shape.entityVertices dim index = .ok entity ∧
    mesh.cellVertices cell = .ok vertices ∧ ∃ k ∈ entity, vertices[k]? = some v}

/-! ### Tables -/

def table (mesh : Mesh α) (dim : Nat) : EntityTable :=
  EntityTable.ofCells mesh.shape mesh.points.size mesh.cells dim

theorem getElem?_tables {dim : Nat} (h : dim ≤ mesh.dimension) :
    mesh.tables[dim]? = some (mesh.table dim) := by
  have hlt : dim < mesh.shape.dimension + 1 := Nat.lt_succ_of_le h
  rw [mesh.tables_eq, EntityTable.all, List.getElem?_map, List.getElem?_range hlt]
  rfl

theorem numEntities_eq_ok {dim : Nat} (h : dim ≤ mesh.dimension) :
    mesh.entityCounts.numEntities dim = .ok (mesh.table dim).count := by
  rw [EntityCounts.numEntities, Index.entry_eq_ok_iff, entityCounts, List.getElem?_map,
    getElem?_tables h]
  rfl

theorem cellEntities_eq_ok_iff {dim cell : Nat} {entities : List Nat} (h : dim ≤ mesh.dimension) :
    mesh.cellEntities cell dim = .ok entities ↔ (mesh.table dim).ofCell[cell]? = some entities := by
  have hentry : Index.entry mesh.tables dim = .ok (mesh.table dim) :=
    Index.entry_eq_ok_iff.mpr (getElem?_tables h)
  rw [cellEntities, hentry, Checked.ok_bind, Index.slot_eq_ok_iff]

theorem table_zero : mesh.table 0 = ⟨mesh.numVertices, mesh.cells⟩ := by
  simp [table, EntityTable.ofCells, numVertices]

theorem table_dimension :
    mesh.table mesh.dimension =
      ⟨mesh.numCells, (Array.range mesh.numCells).map fun c => [c]⟩ := by
  have hpos : mesh.shape.dimension ≠ 0 := Nat.ne_of_gt mesh.shape.dimension_pos
  simp [table, EntityTable.ofCells, dimension, numCells, hpos]

theorem table_between {dim : Nat} (hpos : 0 < dim) (hlt : dim < mesh.dimension) :
    mesh.table dim = EntityTable.byFirstAppearance mesh.shape dim mesh.cells := by
  have hne : dim ≠ mesh.shape.dimension := Nat.ne_of_lt hlt
  simp [table, EntityTable.ofCells, hne, Nat.ne_of_gt hpos]

theorem cellVertices_eq_ok_iff {cell : Nat} {vertices : List Nat} :
    mesh.cellVertices cell = .ok vertices ↔ mesh.cells[cell]? = some vertices := by
  rw [cellVertices, cellEntities_eq_ok_iff (Nat.zero_le _), table_zero]

theorem places_row {dim cell : Nat} {entities vertices : List Nat} (hpos : 0 < dim)
    (hlt : dim < mesh.dimension) (hcell : mesh.cells[cell]? = some vertices)
    (h : mesh.cellEntities cell dim = .ok entities) :
    Places (firstAppearances (EntityTable.allKeys mesh.shape dim mesh.cells)) entities
      (EntityTable.keys mesh.shape dim vertices) := by
  rw [cellEntities_eq_ok_iff (Nat.le_of_lt hlt), table_between hpos hlt,
    ← Array.getElem?_toList] at h
  rw [← Array.getElem?_toList] at hcell
  obtain ⟨hrow, hrow'⟩ := List.getElem?_eq_some_iff.mp h
  obtain ⟨hcol, hcol'⟩ := List.getElem?_eq_some_iff.mp hcell
  have hall := EntityTable.places_byFirstAppearance mesh.shape dim mesh.cells
  have hget := (List.forall₂_iff_get.mp hall).2 cell hrow hcol
  simp only [List.get_eq_getElem, hrow', hcol'] at hget
  exact hget

/-! ### Rows -/

theorem size_table {dim : Nat} (h : dim ≤ mesh.dimension) :
    (mesh.table dim).ofCell.size = mesh.numCells := by
  rcases Nat.eq_zero_or_pos dim with rfl | hpos
  · rw [table_zero]
    rfl
  rcases Nat.lt_or_eq_of_le h with hlt | rfl
  · have hall := EntityTable.places_byFirstAppearance mesh.shape dim mesh.cells
    have hlength := hall.length_eq
    rw [table_between hpos hlt, numCells]
    simpa using hlength
  · rw [table_dimension]
    simp

theorem exists_cellEntities {dim cell : Nat} (h : dim ≤ mesh.dimension)
    (hc : cell < mesh.numCells) : ∃ entities, mesh.cellEntities cell dim = .ok entities := by
  have hlt : cell < (mesh.table dim).ofCell.size := by
    rw [size_table h]
    exact hc
  exact ⟨_, (cellEntities_eq_ok_iff h).mpr (Array.getElem?_eq_getElem hlt)⟩

theorem lt_numCells_of_cellEntities {dim cell : Nat} {entities : List Nat}
    (h : dim ≤ mesh.dimension) (hentities : mesh.cellEntities cell dim = .ok entities) :
    cell < mesh.numCells := by
  rw [cellEntities_eq_ok_iff h] at hentities
  obtain ⟨hlt, -⟩ := Array.getElem?_eq_some_iff.mp hentities
  rwa [size_table h] at hlt

theorem cellEntities_dimension {cell : Nat} (hc : cell < mesh.numCells) :
    mesh.cellEntities cell mesh.dimension = .ok [cell] := by
  rw [cellEntities_eq_ok_iff (Nat.le_refl _), table_dimension]
  simp [hc]

theorem WellFormed.length_cellEntities (hmesh : mesh.WellFormed) {dim cell : Nat}
    {entities : List Nat} (h : dim ≤ mesh.dimension)
    (hentities : mesh.cellEntities cell dim = .ok entities) :
    entities.length = mesh.shape.numEntities dim := by
  have hc := lt_numCells_of_cellEntities h hentities
  have hcell : mesh.cells[cell]? = some mesh.cells[cell] := Array.getElem?_eq_getElem hc
  rcases Nat.eq_zero_or_pos dim with rfl | hpos
  · have hvertices := cellVertices_eq_ok_iff.mp hentities
    rw [Shape.numEntities_zero]
    exact hmesh.length_cell entities (Array.mem_of_getElem? hvertices)
  rcases Nat.lt_or_eq_of_le h with hlt | rfl
  · rw [(places_row hpos hlt hcell hentities).length_eq]
    simp [EntityTable.keys, Shape.numEntities]
  · rw [cellEntities_dimension hc] at hentities
    cases hentities
    exact (Shape.numEntities_dimension mesh.shape).symm

theorem WellFormed.lt_count (hmesh : mesh.WellFormed) {dim cell : Nat} {entities : List Nat}
    (h : dim ≤ mesh.dimension) (hentities : mesh.cellEntities cell dim = .ok entities) :
    ∀ e ∈ entities, e < (mesh.table dim).count := by
  intro e he
  have hc := lt_numCells_of_cellEntities h hentities
  have hcell : mesh.cells[cell]? = some mesh.cells[cell] := Array.getElem?_eq_getElem hc
  rcases Nat.eq_zero_or_pos dim with rfl | hpos
  · have hvertices := cellVertices_eq_ok_iff.mp hentities
    rw [table_zero]
    exact hmesh.lt_numVertices entities (Array.mem_of_getElem? hvertices) e he
  rcases Nat.lt_or_eq_of_le h with hlt | rfl
  · obtain ⟨i, hi⟩ := List.getElem?_of_mem he
    obtain ⟨key, -, hplace⟩ := (places_row hpos hlt hcell hentities).getElem?_number hi
    rw [table_between hpos hlt, EntityTable.count_byFirstAppearance]
    exact (List.getElem?_eq_some_iff.mp hplace).1
  · rw [cellEntities_dimension hc] at hentities
    cases hentities
    rw [List.mem_singleton.mp he, table_dimension]
    exact hc

theorem WellFormed.exists_hasEntity (hmesh : mesh.WellFormed) {dim cell index : Nat}
    (h : dim ≤ mesh.dimension) (hc : cell < mesh.numCells)
    (hi : index < mesh.shape.numEntities dim) : ∃ e, mesh.HasEntity cell dim index e := by
  obtain ⟨entities, hentities⟩ := exists_cellEntities h hc
  rw [← hmesh.length_cellEntities h hentities] at hi
  exact ⟨entities[index], entities, hentities, List.getElem?_eq_getElem hi⟩

/-! ### Vertices of entities -/

theorem WellFormed.entityVertices_eq (hmesh : mesh.WellFormed) {dim cell index : Nat}
    {vertices entity : List Nat} (h : dim ≤ mesh.dimension)
    (hcell : mesh.cells[cell]? = some vertices)
    (hentity : (mesh.shape.entities dim)[index]? = some entity) :
    mesh.entityVertices cell dim index = {v | v ∈ globalVertices vertices entity} := by
  have hmem := List.mem_of_getElem? hentity
  have hlt : ∀ v ∈ entity, v < vertices.length := by
    rw [hmesh.length_cell vertices (Array.mem_of_getElem? hcell)]
    exact Shape.lt_numVertices_of_mem_entities hmem
  have hlocal : mesh.shape.entityVertices dim index = .ok entity := by
    have hle : ¬ mesh.shape.dimension < dim := Nat.not_lt.mpr h
    rw [Shape.entityVertices, if_neg hle, Index.entry_eq_ok_iff]
    exact hentity
  ext v
  rw [Set.mem_ofPred_eq, mem_globalVertices hlt]
  constructor
  · intro ⟨entity', vertices', hentity', hvertices', hv⟩
    rw [hlocal] at hentity'
    rw [cellVertices_eq_ok_iff, hcell] at hvertices'
    cases hentity'
    cases hvertices'
    exact hv
  · intro hv
    exact ⟨entity, vertices, hlocal, cellVertices_eq_ok_iff.mpr hcell, hv⟩

theorem WellFormed.nodup_globalVertices (hmesh : mesh.WellFormed) {dim cell : Nat}
    {vertices entity : List Nat} (hcell : mesh.cells[cell]? = some vertices)
    (hentity : entity ∈ mesh.shape.entities dim) : (globalVertices vertices entity).Nodup := by
  have hmem := Array.mem_of_getElem? hcell
  apply FiniteElement.nodup_globalVertices (hmesh.nodup_cell vertices hmem)
    (Shape.nodup_of_mem_entities hentity)
  rw [hmesh.length_cell vertices hmem]
  exact Shape.lt_numVertices_of_mem_entities hentity

theorem WellFormed.exists_of_hasEntity (hmesh : mesh.WellFormed) {dim cell index e : Nat}
    (h : dim ≤ mesh.dimension) (hentity : mesh.HasEntity cell dim index e) :
    ∃ vertices entity, mesh.cells[cell]? = some vertices ∧
      (mesh.shape.entities dim)[index]? = some entity := by
  obtain ⟨entities, hentities, he⟩ := hentity
  have hc := lt_numCells_of_cellEntities h hentities
  obtain ⟨hi, -⟩ := List.getElem?_eq_some_iff.mp he
  rw [hmesh.length_cellEntities h hentities] at hi
  exact ⟨mesh.cells[cell], _, Array.getElem?_eq_getElem hc, List.getElem?_eq_getElem hi⟩

theorem WellFormed.lt_of_hasEntity (hmesh : mesh.WellFormed) {dim cell index e : Nat}
    (h : dim ≤ mesh.dimension) (hentity : mesh.HasEntity cell dim index e) :
    cell < mesh.numCells ∧ index < mesh.shape.numEntities dim := by
  obtain ⟨vertices, entity, hcell, hlocal⟩ := hmesh.exists_of_hasEntity h hentity
  exact ⟨(Array.getElem?_eq_some_iff.mp hcell).1, (List.getElem?_eq_some_iff.mp hlocal).1⟩

theorem getElem?_distinctKeys {dim cell index e : Nat} {vertices entity : List Nat}
    (hpos : 0 < dim) (hlt : dim < mesh.dimension) (hentity : mesh.HasEntity cell dim index e)
    (hcell : mesh.cells[cell]? = some vertices)
    (hlocal : (mesh.shape.entities dim)[index]? = some entity) :
    (firstAppearances (EntityTable.allKeys mesh.shape dim mesh.cells))[e]? =
      some (entityKey vertices entity) := by
  obtain ⟨entities, hentities, he⟩ := hentity
  obtain ⟨key, hkey, hplace⟩ := (places_row hpos hlt hcell hentities).getElem?_number he
  rw [EntityTable.keys, List.getElem?_map, hlocal, Option.map_some, Option.some.injEq] at hkey
  rw [hplace, hkey]

theorem WellFormed.entityVertices_zero (hmesh : mesh.WellFormed) {cell index e : Nat}
    (h : mesh.HasEntity cell 0 index e) : mesh.entityVertices cell 0 index = {e} := by
  obtain ⟨vertices, entity, hcell, hlocal⟩ := hmesh.exists_of_hasEntity (Nat.zero_le _) h
  obtain ⟨entities, hentities, he⟩ := h
  rw [cellVertices_eq_ok_iff.mp hentities, Option.some.injEq] at hcell
  subst hcell
  rw [hmesh.entityVertices_eq (Nat.zero_le _) (cellVertices_eq_ok_iff.mp hentities) hlocal,
    Shape.eq_singleton_of_entities_zero hlocal]
  ext v
  simp [globalVertices, he]

/-- Below the dimension of the cells an entity is determined by its vertices. -/
theorem WellFormed.entity_eq_iff (hmesh : mesh.WellFormed) {dim cell index e cell' index' e' : Nat}
    (hlt : dim < mesh.dimension) (h : mesh.HasEntity cell dim index e)
    (h' : mesh.HasEntity cell' dim index' e') :
    e = e' ↔ mesh.entityVertices cell dim index = mesh.entityVertices cell' dim index' := by
  rcases Nat.eq_zero_or_pos dim with rfl | hpos
  · rw [hmesh.entityVertices_zero h, hmesh.entityVertices_zero h', Set.singleton_eq_singleton_iff]
  have hle := Nat.le_of_lt hlt
  obtain ⟨vertices, entity, hcell, hlocal⟩ := hmesh.exists_of_hasEntity hle h
  obtain ⟨vertices', entity', hcell', hlocal'⟩ := hmesh.exists_of_hasEntity hle h'
  have hnodup := hmesh.nodup_globalVertices hcell (List.mem_of_getElem? hlocal)
  have hnodup' := hmesh.nodup_globalVertices hcell' (List.mem_of_getElem? hlocal')
  have hkeys : e = e' ↔ entityKey vertices entity = entityKey vertices' entity' :=
    place_eq_iff (nodup_firstAppearances _) (getElem?_distinctKeys hpos hlt h hcell hlocal)
      (getElem?_distinctKeys hpos hlt h' hcell' hlocal')
  rw [hkeys, entityKey_eq_iff hnodup hnodup', hmesh.entityVertices_eq hle hcell hlocal,
    hmesh.entityVertices_eq hle hcell' hlocal', Set.ext_iff]
  rfl

theorem entity_eq_cell {cell index e : Nat} (h : mesh.HasEntity cell mesh.dimension index e) :
    e = cell := by
  obtain ⟨entities, hentities, he⟩ := h
  rw [cellEntities_dimension (lt_numCells_of_cellEntities (Nat.le_refl _) hentities)] at hentities
  cases hentities
  exact List.mem_singleton.mp (List.mem_of_getElem? he)

/-- The local entities of one cell are different entities. -/
theorem WellFormed.index_eq_of_hasEntity (hmesh : mesh.WellFormed) {dim cell index index' e : Nat}
    (h : dim ≤ mesh.dimension) (he : mesh.HasEntity cell dim index e)
    (he' : mesh.HasEntity cell dim index' e) : index = index' := by
  rcases Nat.lt_or_eq_of_le h with hlt | rfl
  · obtain ⟨vertices, entity, hcell, hlocal⟩ := hmesh.exists_of_hasEntity h he
    obtain ⟨vertices', entity', hcell', hlocal'⟩ := hmesh.exists_of_hasEntity h he'
    rw [hcell, Option.some.injEq] at hcell'
    subst hcell'
    have hmem := Array.mem_of_getElem? hcell
    have hsame := (hmesh.entity_eq_iff hlt he he').mp rfl
    rw [hmesh.entityVertices_eq h hcell hlocal, hmesh.entityVertices_eq h hcell hlocal'] at hsame
    have hbound : ∀ entity ∈ mesh.shape.entities dim, ∀ v ∈ entity, v < vertices.length := by
      intro entity hentity
      rw [hmesh.length_cell vertices hmem]
      exact Shape.lt_numVertices_of_mem_entities hentity
    have hsubset := subset_of_globalVertices_subset (hmesh.nodup_cell vertices hmem)
      (hbound entity (List.mem_of_getElem? hlocal)) (hbound entity' (List.mem_of_getElem? hlocal'))
      fun v hv => (Set.ext_iff.mp hsame v).mp hv
    have heq := Shape.eq_of_subset (List.mem_of_getElem? hlocal) (List.mem_of_getElem? hlocal')
      hsubset
    rw [heq, ← hlocal'] at hlocal
    have hindex := (List.getElem?_eq_some_iff.mp hlocal').1
    exact ((List.getElem?_inj hindex (mesh.shape.nodup_entities h)).mp hlocal.symm).symm
  · have hlt := (hmesh.lt_of_hasEntity h he).2
    have hlt' := (hmesh.lt_of_hasEntity h he').2
    have hone := Shape.numEntities_dimension mesh.shape
    rw [dimension] at hlt hlt'
    omega

/-- Two local entities of one dimension are the same entity of the mesh: they have the same
vertices, or they are the same cell. -/
def SameEntity (mesh : Mesh α) (dim cell index cell' index' : Nat) : Prop :=
  if dim < mesh.dimension then
    mesh.entityVertices cell dim index = mesh.entityVertices cell' dim index'
  else cell = cell'

theorem WellFormed.entity_eq_iff_sameEntity (hmesh : mesh.WellFormed)
    {dim cell index e cell' index' e' : Nat} (h : dim ≤ mesh.dimension)
    (he : mesh.HasEntity cell dim index e) (he' : mesh.HasEntity cell' dim index' e') :
    e = e' ↔ mesh.SameEntity dim cell index cell' index' := by
  unfold SameEntity
  rcases Nat.lt_or_eq_of_le h with hlt | rfl
  · rw [if_pos hlt]
    exact hmesh.entity_eq_iff hlt he he'
  · rw [if_neg (Nat.lt_irrefl _), entity_eq_cell he, entity_eq_cell he']

/-! ### Walking all entities -/

/-- The entities of a dimension, cell after cell in local order. -/
def entityIndices (mesh : Mesh α) (dim : Nat) : List Nat :=
  (mesh.tables[dim]?.map fun table => table.ofCell.toList.flatten).getD []

theorem entityIndices_eq {dim : Nat} (h : dim ≤ mesh.dimension) :
    mesh.entityIndices dim = (mesh.table dim).ofCell.toList.flatten := by
  rw [entityIndices, getElem?_tables h]
  rfl

theorem mem_entityIndices_iff {dim e : Nat} (h : dim ≤ mesh.dimension) :
    e ∈ mesh.entityIndices dim ↔ ∃ cell index, mesh.HasEntity cell dim index e := by
  rw [entityIndices_eq h, List.mem_flatten]
  constructor
  · intro ⟨row, hrow, he⟩
    obtain ⟨cell, hcell⟩ := List.getElem?_of_mem hrow
    obtain ⟨index, hindex⟩ := List.getElem?_of_mem he
    rw [Array.getElem?_toList] at hcell
    exact ⟨cell, index, row, (cellEntities_eq_ok_iff h).mpr hcell, hindex⟩
  · intro ⟨cell, index, row, hrow, hindex⟩
    rw [cellEntities_eq_ok_iff h, ← Array.getElem?_toList] at hrow
    exact ⟨row, List.mem_of_getElem? hrow, List.mem_of_getElem? hindex⟩

/-- Every entity other than a vertex belongs to some cell. -/
theorem mem_entityIndices_of_pos {dim e : Nat} (hpos : 0 < dim) (h : dim ≤ mesh.dimension) :
    e ∈ mesh.entityIndices dim ↔ e < (mesh.table dim).count := by
  rw [entityIndices_eq h]
  rcases Nat.lt_or_eq_of_le h with hlt | rfl
  · have hplaces := EntityTable.places_flatten_byFirstAppearance mesh.shape dim mesh.cells
    rw [table_between hpos hlt, EntityTable.count_byFirstAppearance]
    exact hplaces.mem_numbers_iff fun key hkey => mem_firstAppearances.mp hkey
  · rw [table_dimension]
    simp

theorem WellFormed.length_of_mem_table (hmesh : mesh.WellFormed) {dim : Nat} {row : List Nat}
    (h : dim ≤ mesh.dimension) (hrow : row ∈ (mesh.table dim).ofCell.toList) :
    row.length = mesh.shape.numEntities dim := by
  obtain ⟨cell, hcell⟩ := List.getElem?_of_mem hrow
  rw [Array.getElem?_toList] at hcell
  exact hmesh.length_cellEntities h ((cellEntities_eq_ok_iff h).mpr hcell)

end Mesh

/-! ## Facets of the reference simplices

The closure of a facet consists of the entities whose vertices all belong to the
facet. All facets of a shape have equally many entities of each dimension, and
any `dim + 1` vertices of a simplex span one of its entities.
-/

namespace Shape

theorem mem_facetClosure_iff {shape : Shape} {facet dim index : Nat} :
    (dim, index) ∈ shape.facetClosure facet ↔ dim < shape.dimension ∧ ∃ entity,
      (shape.entities dim)[index]? = some entity ∧
        ∀ v ∈ entity, v ∈ shape.facetVertices facet := by
  simp only [facetClosure, entitiesWithin, List.mem_flatMap, List.mem_range, List.mem_filterMap,
    Prod.exists, List.mem_zipIdx_iff_getElem?]
  constructor
  · intro ⟨dim', hdim, entity, index', hentity, hwithin⟩
    split at hwithin
    · next hall =>
        cases hwithin
        exact ⟨hdim, entity, hentity, by simpa using hall⟩
    · cases hwithin
  · intro ⟨hdim, entity, hentity, hall⟩
    exact ⟨dim, hdim, entity, index, hentity, if_pos (by simpa using hall)⟩

theorem getElem?_facets {shape : Shape} {facet : Nat} (h : facet < shape.numFacets) :
    (shape.entities (shape.dimension - 1))[facet]? = some (shape.facetVertices facet) := by
  rw [← numEntities_facet, numEntities] at h
  rw [facetVertices, List.getD_eq_getElem _ _ h, List.getElem?_eq_getElem h]

/-- The closures of all facets list as many entities of each dimension, in the same order. -/
theorem map_fst_facetClosure {shape : Shape} {facet : Nat} (h : facet < shape.numFacets) :
    (shape.facetClosure facet).map Prod.fst = (shape.facetClosure 0).map Prod.fst := by
  have hall : ∀ facet < shape.numFacets,
      (shape.facetClosure facet).map Prod.fst = (shape.facetClosure 0).map Prod.fst := by
    cases shape <;> decide
  exact hall facet h

/-- The closure of a facet is listed by dimension and then by local index. -/
theorem pairwise_facetClosure {shape : Shape} {facet : Nat} (h : facet < shape.numFacets) :
    (shape.facetClosure facet).Pairwise fun entity entity' =>
      entity.1 < entity'.1 ∨ entity.1 = entity'.1 ∧ entity.2 < entity'.2 := by
  have hall : ∀ facet < shape.numFacets, (shape.facetClosure facet).Pairwise
      fun entity entity' => entity.1 < entity'.1 ∨ entity.1 = entity'.1 ∧ entity.2 < entity'.2 := by
    cases shape <;> decide
  exact hall facet h

theorem length_of_mem_entities {shape : Shape} {dim : Nat} {entity : List Nat}
    (h : entity ∈ shape.entities dim) : entity.length = dim + 1 := by
  have hall : ∀ dim ≤ shape.dimension, ∀ entity ∈ shape.entities dim,
      entity.length = dim + 1 := by
    cases shape <;> decide
  exact hall dim (le_dimension_of_mem_entities h) entity h

/-- Any `dim + 1` vertices are those of an entity. -/
theorem exists_entity_of_card {shape : Shape} {dim : Nat} {vertices : Finset Nat}
    (hvertices : vertices ⊆ Finset.range shape.numVertices) (hcard : vertices.card = dim + 1) :
    ∃ (index : Nat) (entity : List Nat), (shape.entities dim)[index]? = some entity ∧
      entity.toFinset = vertices := by
  have hdim : dim ≤ shape.dimension := by
    have hle := Finset.card_le_card hvertices
    rw [hcard, Finset.card_range, numVertices] at hle
    omega
  have hall : ∀ dim ≤ shape.dimension,
      ∀ vertices ∈ (Finset.range shape.numVertices).powersetCard (dim + 1),
        ∃ entity ∈ shape.entities dim, entity.toFinset = vertices := by
    cases shape <;> decide
  obtain ⟨entity, hmem, heq⟩ :=
    hall dim hdim vertices (Finset.mem_powersetCard.mpr ⟨hvertices, hcard⟩)
  obtain ⟨index, hindex⟩ := List.getElem?_of_mem hmem
  exact ⟨index, entity, hindex, heq⟩

end Shape
end FiniteElement
