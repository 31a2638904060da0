import Mathlib
import FiniteElement.Mesh.Boundary
import FiniteElement.Proofs.Mesh.Entities
import FiniteElement.Proofs.Mesh.EntityNumbering
import FiniteElement.Proofs.Offset

/-! # Facets on the boundary

The uses of a facet are its occurrences when the cells are walked. As facets are
numbered by their vertices, a facet is used once exactly when no other facet of
any cell has its vertices. The entities whose vertices belong to a facet of a
cell are those that the cell has in the closure of the facet.
-/

namespace FiniteElement

/-- An entry occurs once if it stands nowhere but in its place. -/
theorem count_eq_one_iff_of_getElem? {xs : List Nat} {i x : Nat} (hi : xs[i]? = some x) :
    xs.count x = 1 ↔ ∀ j, xs[j]? = some x → j = i := by
  have hpos : 0 < xs.count x := List.count_pos_iff.mpr (List.mem_of_getElem? hi)
  have htwice : xs.count x = 1 ↔ ¬ xs.Duplicate x := by
    rw [List.duplicate_iff_two_le_count]
    omega
  rw [htwice, List.duplicate_iff_exists_distinct_get]
  obtain ⟨hilt, hix⟩ := List.getElem?_eq_some_iff.mp hi
  constructor
  · intro hnot j hj
    obtain ⟨hjlt, hjx⟩ := List.getElem?_eq_some_iff.mp hj
    by_contra hne
    rcases Nat.lt_or_gt_of_ne hne with hlt | hgt
    · exact hnot ⟨⟨j, hjlt⟩, ⟨i, hilt⟩, hlt, hjx.symm, hix.symm⟩
    · exact hnot ⟨⟨i, hilt⟩, ⟨j, hjlt⟩, hgt, hix.symm, hjx.symm⟩
  · intro hall ⟨m, n, hlt, hm, hn⟩
    have hmi : m.val = i := hall m (List.getElem?_eq_some_iff.mpr ⟨m.isLt, hm.symm⟩)
    have hni : n.val = i := hall n (List.getElem?_eq_some_iff.mpr ⟨n.isLt, hn.symm⟩)
    have hval : m.val < n.val := hlt
    omega

/-- Counting entries in place adds to each counter the occurrences of its index. -/
theorem getElem?_foldl_modify_succ (xs : List Nat) (counters : Array Nat) (x : Nat) :
    (xs.foldl (fun counters x => counters.modify x (· + 1)) counters)[x]? =
      counters[x]?.map (· + xs.count x) := by
  induction xs generalizing counters with
  | nil => simp
  | cons y xs ih =>
      rw [List.foldl_cons, ih, Array.getElem?_modify, List.count_cons]
      by_cases hyx : y = x
      · simp [hyx, Function.comp_def, Nat.add_assoc, Nat.add_comm 1]
      · simp [hyx]

/-- Distinct vertices of a facet of a cell have as many places in the facet. -/
theorem exists_places {vertices facet keys : List Nat} (hvertices : vertices.Nodup)
    (hbound : ∀ k ∈ facet, k < vertices.length) (hnodup : keys.Nodup)
    (hwithin : ∀ v ∈ keys, v ∈ globalVertices vertices facet) :
    ∃ places : Finset Nat, (∀ k ∈ places, k ∈ facet) ∧ places.card = keys.length ∧
      places.image (fun k => vertices.getD k 0) = keys.toFinset := by
  let places := facet.toFinset.filter fun k => vertices.getD k 0 ∈ keys
  have hsubset : ∀ k ∈ places, k ∈ facet := fun k hk =>
    List.mem_toFinset.mp (Finset.mem_filter.mp hk).1
  have himage : places.image (fun k => vertices.getD k 0) = keys.toFinset := by
    ext v
    simp only [places, Finset.mem_image, Finset.mem_filter, List.mem_toFinset]
    constructor
    · intro ⟨k, ⟨_, hk⟩, heq⟩
      rwa [← heq]
    · intro hv
      obtain ⟨k, hk, heq⟩ := List.mem_map.mp (hwithin v hv)
      exact ⟨k, ⟨hk, by rwa [heq]⟩, heq⟩
  have hinj : Set.InjOn (fun k => vertices.getD k 0) places := by
    intro k hk k' hk' heq
    have hlt := hbound k (hsubset k hk)
    have hlt' := hbound k' (hsubset k' hk')
    dsimp only at heq
    rw [List.getD_eq_getElem _ _ hlt, List.getD_eq_getElem _ _ hlt'] at heq
    exact hvertices.getElem_inj_iff.mp heq
  refine ⟨places, hsubset, ?_, himage⟩
  rw [← Finset.card_image_of_injOn hinj, himage, List.toFinset_card_of_nodup hnodup]

namespace Mesh

variable {α : Type} {mesh : Mesh α}

theorem facetTable_eq (mesh : Mesh α) : mesh.facetTable = mesh.table (mesh.dimension - 1) := by
  rw [facetTable, List.getD_eq_getElem?_getD, getElem?_tables (Nat.sub_le _ _), Option.getD_some]

theorem facetUses_eq_foldl (mesh : Mesh α) :
    mesh.facetUses = (mesh.entityIndices (mesh.dimension - 1)).foldl
      (fun uses facet => uses.modify facet (· + 1))
      (Array.replicate (mesh.table (mesh.dimension - 1)).count 0) := by
  rw [facetUses, facetTable_eq, entityIndices_eq (Nat.sub_le _ _), ← Array.foldl_toList,
    ← List.foldl_flatten]

theorem getElem?_facetUses {facet : Nat} (h : facet < (mesh.table (mesh.dimension - 1)).count) :
    mesh.facetUses[facet]? = some ((mesh.entityIndices (mesh.dimension - 1)).count facet) := by
  rw [facetUses_eq_foldl, getElem?_foldl_modify_succ, Array.getElem?_replicate, if_pos h]
  simp

/-- A local entity and its place in the walk over all entities. -/
theorem WellFormed.hasEntity_iff_getElem? (hmesh : mesh.WellFormed) {dim cell index e : Nat}
    (h : dim ≤ mesh.dimension) (hindex : index < mesh.shape.numEntities dim) :
    mesh.HasEntity cell dim index e ↔
      (mesh.entityIndices dim)[mesh.shape.numEntities dim * cell + index]? = some e := by
  rw [entityIndices_eq h,
    getElem?_flatten_of_length (fun row => hmesh.length_of_mem_table h) cell hindex,
    Array.getElem?_toList, Option.bind_eq_some_iff]
  unfold HasEntity
  simp only [cellEntities_eq_ok_iff h]

/-- An entity occurs once in the walk if it belongs to one cell in one place. -/
theorem WellFormed.count_entityIndices_eq_one_iff (hmesh : mesh.WellFormed) {dim cell index e : Nat}
    (h : dim ≤ mesh.dimension) (hentity : mesh.HasEntity cell dim index e) :
    (mesh.entityIndices dim).count e = 1 ↔
      ∀ cell' index', mesh.HasEntity cell' dim index' e → cell' = cell ∧ index' = index := by
  have hindex := (hmesh.lt_of_hasEntity h hentity).2
  rw [count_eq_one_iff_of_getElem? ((hmesh.hasEntity_iff_getElem? h hindex).mp hentity)]
  constructor
  · intro hall cell' index' hentity'
    have hindex' := (hmesh.lt_of_hasEntity h hentity').2
    have heq := hall _ ((hmesh.hasEntity_iff_getElem? h hindex').mp hentity')
    exact (mul_add_inj hindex' hindex).mp heq
  · intro hall place hplace
    have hpos : 0 < mesh.shape.numEntities dim := Nat.zero_lt_of_lt hindex
    have hmod := Nat.mod_lt place hpos
    rw [← Nat.div_add_mod place (mesh.shape.numEntities dim)] at hplace
    obtain ⟨hcell, hlocal⟩ := hall _ _ ((hmesh.hasEntity_iff_getElem? h hmod).mpr hplace)
    rw [← Nat.div_add_mod place (mesh.shape.numEntities dim), hcell, hlocal]

def facetVertices (mesh : Mesh α) (cell facet : Nat) : Set Nat :=
  mesh.entityVertices cell (mesh.dimension - 1) facet

/-- A facet whose vertices are those of no other facet of any cell. -/
def IsBoundaryFacet (mesh : Mesh α) (cell facet : Nat) : Prop :=
  cell < mesh.numCells ∧ facet < mesh.shape.numFacets ∧
    ∀ cell' < mesh.numCells, ∀ facet' < mesh.shape.numFacets,
      mesh.facetVertices cell' facet' = mesh.facetVertices cell facet →
        cell' = cell ∧ facet' = facet

theorem mem_boundaryFacets_iff_uses {cell facet : Nat} :
    (cell, facet) ∈ mesh.boundaryFacets ↔
      ∃ e, mesh.HasEntity cell (mesh.dimension - 1) facet e ∧ mesh.facetUses[e]? = some 1 := by
  unfold HasEntity
  simp only [boundaryFacets, facetTable_eq, List.mem_flatMap, List.mem_filterMap, Prod.exists,
    List.mem_zipIdx_iff_getElem?, Array.getElem?_toList, cellEntities_eq_ok_iff (Nat.sub_le _ _)]
  constructor
  · intro ⟨row, cell', hrow, e, facet', he, hused⟩
    split at hused
    · next hone =>
        cases hused
        exact ⟨e, ⟨row, hrow, he⟩, hone⟩
    · cases hused
  · intro ⟨e, ⟨row, hrow, he⟩, hone⟩
    exact ⟨row, cell, hrow, e, facet, he, if_pos hone⟩

theorem WellFormed.mem_boundaryFacets_iff (hmesh : mesh.WellFormed) {cell facet : Nat} :
    (cell, facet) ∈ mesh.boundaryFacets ↔ mesh.IsBoundaryFacet cell facet := by
  have hle : mesh.dimension - 1 ≤ mesh.dimension := Nat.sub_le _ _
  have hlt : mesh.dimension - 1 < mesh.dimension := Nat.sub_lt mesh.shape.dimension_pos Nat.one_pos
  have hfacets : mesh.shape.numEntities (mesh.dimension - 1) = mesh.shape.numFacets :=
    mesh.shape.numEntities_facet
  have hunique : ∀ e, mesh.HasEntity cell (mesh.dimension - 1) facet e →
      (mesh.facetUses[e]? = some 1 ↔ ∀ cell' facet',
        mesh.HasEntity cell' (mesh.dimension - 1) facet' e → cell' = cell ∧ facet' = facet) := by
    intro e he
    have hcount : e < (mesh.table (mesh.dimension - 1)).count := by
      obtain ⟨row, hrow, hindex⟩ := he
      exact hmesh.lt_count hle hrow e (List.mem_of_getElem? hindex)
    rw [getElem?_facetUses hcount, Option.some.injEq]
    exact hmesh.count_entityIndices_eq_one_iff hle he
  rw [mem_boundaryFacets_iff_uses]
  constructor
  · intro ⟨e, he, hone⟩
    obtain ⟨hc, hfacet⟩ := hmesh.lt_of_hasEntity hle he
    rw [hfacets] at hfacet
    refine ⟨hc, hfacet, ?_⟩
    intro cell' hc' facet' hfacet' hsame
    rw [← hfacets] at hfacet'
    obtain ⟨e', he'⟩ := hmesh.exists_hasEntity hle hc' hfacet'
    have heq := (hmesh.entity_eq_iff hlt he' he).mpr hsame
    rw [heq] at he'
    exact (hunique e he).mp hone cell' facet' he'
  · intro ⟨hc, hfacet, hother⟩
    rw [← hfacets] at hfacet
    obtain ⟨e, he⟩ := hmesh.exists_hasEntity hle hc hfacet
    refine ⟨e, he, (hunique e he).mpr ?_⟩
    intro cell' facet' he'
    obtain ⟨hc', hfacet'⟩ := hmesh.lt_of_hasEntity hle he'
    rw [hfacets] at hfacet'
    exact hother cell' hc' facet' hfacet' ((hmesh.entity_eq_iff hlt he' he).mp rfl)

/-! ## Entities within a facet -/

/-- The vertices of an entity: those that cells have in its place. -/
def verticesOf (mesh : Mesh α) (dim e : Nat) : Set Nat :=
  if dim = 0 then {e}
  else {v | ∃ cell index, mesh.HasEntity cell dim index e ∧ v ∈ mesh.entityVertices cell dim index}

/-- Every cell with the entity has its vertices in the place of the entity. -/
theorem WellFormed.verticesOf_eq (hmesh : mesh.WellFormed) {dim cell index e : Nat}
    (hlt : dim < mesh.dimension) (hentity : mesh.HasEntity cell dim index e) :
    mesh.verticesOf dim e = mesh.entityVertices cell dim index := by
  unfold verticesOf
  split
  · next hzero =>
      subst hzero
      exact (hmesh.entityVertices_zero hentity).symm
  · ext v
    constructor
    · intro ⟨cell', index', hentity', hv⟩
      rwa [(hmesh.entity_eq_iff hlt hentity hentity').mp rfl]
    · intro hv
      exact ⟨cell, index, hentity, hv⟩

theorem WellFormed.eq_of_verticesOf_eq (hmesh : mesh.WellFormed) {dim cell index e e' : Nat}
    (hlt : dim < mesh.dimension) (hentity : mesh.HasEntity cell dim index e)
    (he : e' < (mesh.table dim).count) (hsame : mesh.verticesOf dim e = mesh.verticesOf dim e') :
    e = e' := by
  rcases Nat.eq_zero_or_pos dim with rfl | hpos
  · simpa [verticesOf] using hsame
  · have hle := Nat.le_of_lt hlt
    obtain ⟨cell', index', hentity'⟩ :=
      (mem_entityIndices_iff hle).mp ((mem_entityIndices_of_pos hpos hle).mpr he)
    rw [hmesh.verticesOf_eq hlt hentity, hmesh.verticesOf_eq hlt hentity'] at hsame
    exact (hmesh.entity_eq_iff hlt hentity hentity').mpr hsame

/-- Vertices of a facet that are as many as those of an entity are the vertices of one. -/
theorem WellFormed.exists_entity_of_vertices (hmesh : mesh.WellFormed) {dim cell facet : Nat}
    {vertices keys : List Nat} (hcell : mesh.cells[cell]? = some vertices)
    (hfacet : facet < mesh.shape.numFacets) (hnodup : keys.Nodup) (hlength : keys.length = dim + 1)
    (hwithin : {v | v ∈ keys} ⊆ mesh.facetVertices cell facet) :
    ∃ (index : Nat) (entity : List Nat), (mesh.shape.entities dim)[index]? = some entity ∧
      (∀ k ∈ entity, k ∈ mesh.shape.facetVertices facet) ∧
      {v | v ∈ globalVertices vertices entity} = {v | v ∈ keys} := by
  have hlocal := Shape.getElem?_facets hfacet
  have hmem := Array.mem_of_getElem? hcell
  have hbound : ∀ k ∈ mesh.shape.facetVertices facet, k < vertices.length := by
    rw [hmesh.length_cell vertices hmem]
    exact Shape.lt_numVertices_of_mem_entities (List.mem_of_getElem? hlocal)
  rw [facetVertices, hmesh.entityVertices_eq (Nat.sub_le _ _) hcell hlocal] at hwithin
  obtain ⟨places, hsubset, hcard, himage⟩ :=
    exists_places (hmesh.nodup_cell vertices hmem) hbound hnodup hwithin
  have hrange : places ⊆ Finset.range mesh.shape.numVertices := by
    intro k hk
    rw [Finset.mem_range, ← hmesh.length_cell vertices hmem]
    exact hbound k (hsubset k hk)
  rw [hlength] at hcard
  obtain ⟨index, entity, hentity, heq⟩ := Shape.exists_entity_of_card hrange hcard
  have hplaces : ∀ k, k ∈ entity ↔ k ∈ places := fun k => by rw [← heq, List.mem_toFinset]
  refine ⟨index, entity, hentity, fun k hk => hsubset k ((hplaces k).mp hk), ?_⟩
  ext v
  have hv : v ∈ places.image (fun k => vertices.getD k 0) ↔ v ∈ keys := by
    rw [himage, List.mem_toFinset]
  change v ∈ globalVertices vertices entity ↔ v ∈ keys
  rw [← hv, globalVertices, List.mem_map, Finset.mem_image]
  simp only [hplaces]

/-- The entities whose vertices belong to a facet are those in its closure. -/
theorem WellFormed.verticesOf_subset_iff (hmesh : mesh.WellFormed) {dim e cell facet : Nat}
    (hlt : dim < mesh.dimension) (he : e < (mesh.table dim).count) (hc : cell < mesh.numCells)
    (hfacet : facet < mesh.shape.numFacets) :
    mesh.verticesOf dim e ⊆ mesh.facetVertices cell facet ↔
      ∃ index, mesh.HasEntity cell dim index e ∧ (dim, index) ∈ mesh.shape.facetClosure facet := by
  have hle := Nat.le_of_lt hlt
  have hcell : mesh.cells[cell]? = some mesh.cells[cell] := Array.getElem?_eq_getElem hc
  constructor
  · intro hwithin
    have hkeys : ∃ keys : List Nat, keys.Nodup ∧ keys.length = dim + 1 ∧
        {v | v ∈ keys} = mesh.verticesOf dim e := by
      rcases Nat.eq_zero_or_pos dim with rfl | hpos
      · exact ⟨[e], List.nodup_singleton e, rfl, by simp [verticesOf]⟩
      · obtain ⟨cell', index', hentity⟩ :=
          (mem_entityIndices_iff hle).mp ((mem_entityIndices_of_pos hpos hle).mpr he)
        obtain ⟨vertices, entity, hcell', hlocal⟩ := hmesh.exists_of_hasEntity hle hentity
        have hmem := List.mem_of_getElem? hlocal
        refine ⟨globalVertices vertices entity, hmesh.nodup_globalVertices hcell' hmem, ?_, ?_⟩
        · rw [globalVertices, List.length_map, Shape.length_of_mem_entities hmem]
        · rw [hmesh.verticesOf_eq hlt hentity, hmesh.entityVertices_eq hle hcell' hlocal]
    obtain ⟨keys, hnodup, hlength, heq⟩ := hkeys
    rw [← heq] at hwithin
    obtain ⟨index, entity, hlocal, hclosure, hsame⟩ :=
      hmesh.exists_entity_of_vertices hcell hfacet hnodup hlength hwithin
    obtain ⟨e', hentity'⟩ :=
      hmesh.exists_hasEntity hle hc (List.getElem?_eq_some_iff.mp hlocal).1
    have hvertices : mesh.verticesOf dim e' = mesh.verticesOf dim e := by
      rw [hmesh.verticesOf_eq hlt hentity', hmesh.entityVertices_eq hle hcell hlocal, hsame, heq]
    rw [hmesh.eq_of_verticesOf_eq hlt hentity' he hvertices] at hentity'
    exact ⟨index, hentity', Shape.mem_facetClosure_iff.mpr ⟨hlt, entity, hlocal, hclosure⟩⟩
  · rintro ⟨index, hentity, hclosure⟩
    obtain ⟨-, entity, hlocal, hall⟩ := Shape.mem_facetClosure_iff.mp hclosure
    rw [hmesh.verticesOf_eq hlt hentity, facetVertices,
      hmesh.entityVertices_eq hle hcell hlocal,
      hmesh.entityVertices_eq (Nat.sub_le _ _) hcell (Shape.getElem?_facets hfacet)]
    intro v hv
    obtain ⟨k, hk, rfl⟩ := List.mem_map.mp hv
    exact List.mem_map.mpr ⟨k, hall k hk, rfl⟩

end Mesh
end FiniteElement
