import Mathlib
import FiniteElement.Proofs.Mesh.Boundary
import FiniteElement.Proofs.Mesh.View

/-! # The search for boundary facets

The search counts how often each facet occurs in a cell and lists those that occur
once, cell after cell. So they come in lexicographic order and without repetition.
With every access and every count checked the search has the same outcome: it does
not fail on a mesh whose vertices and cells can be stored.
-/

namespace FiniteElement

def countUse (uses : Array Nat) (facet : Nat) : Except Fault (Array Nat) := do
  let count ← Index.slot uses facet
  let next ← Index.add count 1
  return uses.setIfInBounds facet next

theorem countUse_eq_ok {uses : Array Nat} {facet : Nat} (hfacet : facet < uses.size)
    (hroom : uses[facet] + 1 < Index.bound) :
    countUse uses facet = .ok (uses.modify facet (· + 1)) := by
  have hmodify : uses.setIfInBounds facet (uses[facet] + 1) = uses.modify facet (· + 1) := by
    apply Array.ext
    · simp
    · intro i hi hi'
      rw [Array.getElem_setIfInBounds, Array.getElem_modify]
      split
      · next heq => simp only [heq]
      · rfl
  have hadd : Index.add uses[facet] 1 = .ok (uses[facet] + 1) := Index.guard_of_lt hroom
  rw [countUse, Index.slot_of_lt hfacet, Checked.ok_bind, hadd, Checked.ok_bind, hmodify]
  rfl

/-- Counting a list of facets succeeds if each of them has a counter and no counter can pass the
number of facets left. -/
theorem foldlM_countUse_eq_ok {facets : List Nat} {uses : Array Nat}
    (hfacets : ∀ facet ∈ facets, facet < uses.size)
    (hroom : ∀ count ∈ uses, count + facets.length < Index.bound) :
    facets.foldlM countUse uses =
      .ok (facets.foldl (fun uses facet => uses.modify facet (· + 1)) uses) := by
  induction facets generalizing uses with
  | nil => rfl
  | cons facet facets ih =>
      have hfacet := hfacets facet List.mem_cons_self
      rw [List.length_cons] at hroom
      have hfirst := hroom uses[facet] (Array.getElem_mem hfacet)
      rw [List.foldlM_cons, countUse_eq_ok hfacet (by omega), Checked.ok_bind, ih]
      · rfl
      · intro other hother
        rw [Array.size_modify]
        exact hfacets other (List.mem_cons_of_mem _ hother)
      · intro count hcount
        obtain ⟨i, hi, rfl⟩ := Array.mem_iff_getElem.mp hcount
        rw [Array.size_modify] at hi
        have hold := hroom uses[i] (Array.getElem_mem hi)
        rw [Array.getElem_modify]
        split <;> omega

namespace Mesh

variable {α : Type} {mesh : Mesh α}

/-! ## The order of the boundary facets -/

def facetsOf (mesh : Mesh α) (cell : Nat) : List Nat :=
  (mesh.table (mesh.dimension - 1)).ofCell.getD cell []

theorem boundaryFacets_eq_flatMap (mesh : Mesh α) :
    mesh.boundaryFacets = (List.range mesh.numCells).flatMap fun cell =>
      (mesh.facetsOf cell).zipIdx.filterMap fun (facet, localFacet) =>
        if mesh.facetUses[facet]? = some 1 then some (cell, localFacet) else none := by
  have hsize : (mesh.table (mesh.dimension - 1)).ofCell.size = mesh.numCells :=
    size_table (Nat.sub_le _ _)
  have hrows : mesh.facetTable.ofCell.toList.zipIdx =
      (List.range mesh.numCells).map fun cell => (mesh.facetsOf cell, cell) := by
    rw [facetTable_eq]
    apply List.ext_getElem
    · simp [hsize]
    · intro cell hc hc'
      simp only [List.length_zipIdx, Array.length_toList] at hc
      simp [facetsOf, hc]
  rw [boundaryFacets, hrows, List.flatMap_map]

/-- The boundary facets are listed in lexicographic order, each of them once. -/
theorem pairwise_boundaryFacets (mesh : Mesh α) :
    mesh.boundaryFacets.Pairwise (Prod.Lex (· < ·) (· < ·)) := by
  rw [boundaryFacets_eq_flatMap, List.pairwise_flatMap]
  constructor
  · intro cell _
    refine (pairwise_snd_zipIdx _ _).filterMap _ ?_
    intro ⟨e, i⟩ ⟨e', i'⟩ hlt facet hfacet facet' hfacet'
    simp only [Option.ite_none_right_eq_some, Option.some.injEq] at hfacet hfacet'
    rw [← hfacet.2, ← hfacet'.2]
    exact Prod.Lex.right cell hlt
  · refine List.pairwise_lt_range.imp ?_
    intro cell other hlt facet hfacet facet' hfacet'
    obtain ⟨⟨e, i⟩, -, hplace⟩ := List.mem_filterMap.mp hfacet
    obtain ⟨⟨e', i'⟩, -, hplace'⟩ := List.mem_filterMap.mp hfacet'
    simp only [Option.ite_none_right_eq_some, Option.some.injEq] at hplace hplace'
    rw [← hplace.2, ← hplace'.2]
    exact Prod.Lex.left i i' hlt

/-! ## The search with checks -/

def checkedFacetUses (mesh : Mesh α) : Except Fault (Array Nat) := do
  let table ← Index.entry mesh.tables (mesh.dimension - 1)
  let size ← Index.length table.count
  table.ofCell.toList.flatten.foldlM countUse (Array.replicate size 0)

def checkedFacetsOf (mesh : Mesh α) (uses : Array Nat) (cell : Nat) :
    Except Fault (List (Nat × Nat)) := do
  let facets ← mesh.cellEntities cell (mesh.dimension - 1)
  let counts ← facets.mapM (Index.slot uses)
  return counts.zipIdx.filterMap fun (count, localFacet) =>
    if count = 1 then some (cell, localFacet) else none

/-- The facets on the boundary, with every access and every count checked. -/
def checkedBoundaryFacets (mesh : Mesh α) : Except Fault (List (Nat × Nat)) := do
  let uses ← mesh.checkedFacetUses
  let found ← (List.range mesh.numCells).mapM (mesh.checkedFacetsOf uses)
  return found.flatten

theorem checkedFacetUses_eq_ok (hmesh : mesh.WellFormed)
    (hcount : (mesh.table (mesh.dimension - 1)).count < Index.capacity)
    (hroom : (mesh.entityIndices (mesh.dimension - 1)).length < Index.bound) :
    mesh.checkedFacetUses = .ok mesh.facetUses := by
  have hle : mesh.dimension - 1 ≤ mesh.dimension := Nat.sub_le _ _
  have htable : Index.entry mesh.tables (mesh.dimension - 1) =
      .ok (mesh.table (mesh.dimension - 1)) := Index.entry_eq_ok_iff.mpr (getElem?_tables hle)
  have hsize : Index.length (mesh.table (mesh.dimension - 1)).count =
      .ok (mesh.table (mesh.dimension - 1)).count := Index.length_eq_ok_iff.mpr ⟨hcount, rfl⟩
  rw [checkedFacetUses, htable, Checked.ok_bind, hsize, Checked.ok_bind, ← entityIndices_eq hle,
    facetUses_eq_foldl]
  apply foldlM_countUse_eq_ok
  · intro facet hfacet
    obtain ⟨cell, index, row, hrow, hindex⟩ := (mem_entityIndices_iff hle).mp hfacet
    rw [Array.size_replicate]
    exact hmesh.lt_count hle hrow facet (List.mem_of_getElem? hindex)
  · intro count hzero
    rw [(Array.mem_replicate.mp hzero).2, Nat.zero_add]
    exact hroom

theorem checkedFacetsOf_eq_ok (hmesh : mesh.WellFormed) {cell : Nat}
    (hcell : cell < mesh.numCells) :
    mesh.checkedFacetsOf mesh.facetUses cell =
      .ok ((mesh.facetsOf cell).zipIdx.filterMap fun (facet, localFacet) =>
        if mesh.facetUses[facet]? = some 1 then some (cell, localFacet) else none) := by
  have hle : mesh.dimension - 1 ≤ mesh.dimension := Nat.sub_le _ _
  have hfacets : mesh.cellEntities cell (mesh.dimension - 1) = .ok (mesh.facetsOf cell) :=
    cellEntities_eq_ok hle hcell
  have huses : ∀ facet ∈ mesh.facetsOf cell, mesh.facetUses[facet]? =
      some ((mesh.entityIndices (mesh.dimension - 1)).count facet) := fun facet hfacet =>
    getElem?_facetUses (hmesh.lt_count hle hfacets facet hfacet)
  have hcounts : (mesh.facetsOf cell).mapM (Index.slot mesh.facetUses) =
      .ok ((mesh.facetsOf cell).map (mesh.entityIndices (mesh.dimension - 1)).count) :=
    Checked.mapM_eq_ok_map fun facet hfacet => Index.slot_eq_ok_iff.mpr (huses facet hfacet)
  rw [checkedFacetsOf, hfacets, Checked.ok_bind, hcounts, Checked.ok_bind, Checked.pure_eq_ok_iff,
    List.zipIdx_map, List.filterMap_map]
  apply List.filterMap_congr
  intro ⟨facet, localFacet⟩ hplace
  have huse := huses facet (List.fst_mem_of_mem_zipIdx hplace)
  simp only [Function.comp_apply, Prod.map_apply, id_eq, huse, Option.some.injEq]

theorem checkedBoundaryFacets_eq_ok (hmesh : mesh.WellFormed)
    (hcount : (mesh.table (mesh.dimension - 1)).count < Index.capacity)
    (hroom : (mesh.entityIndices (mesh.dimension - 1)).length < Index.bound) :
    mesh.checkedBoundaryFacets = .ok mesh.boundaryFacets := by
  have hfound := Checked.mapM_eq_ok_map (fun cell (hcell : cell ∈ List.range mesh.numCells) =>
    checkedFacetsOf_eq_ok hmesh (List.mem_range.mp hcell))
  rw [checkedBoundaryFacets, checkedFacetUses_eq_ok hmesh hcount hroom, Checked.ok_bind, hfound,
    Checked.ok_bind, boundaryFacets_eq_flatMap, List.flatMap_def]
  rfl

/-! ## Storable meshes -/

/-- A mesh has no more facets than it has vertices or cells have facets. -/
theorem count_facets_le (mesh : Mesh α) :
    (mesh.table (mesh.dimension - 1)).count ≤
      max mesh.numVertices (mesh.entityIndices (mesh.dimension - 1)).length := by
  rcases Nat.eq_zero_or_pos (mesh.dimension - 1) with hzero | hpos
  · rw [hzero, table_zero]
    exact Nat.le_max_left _ _
  · have hsubset : Finset.range (mesh.table (mesh.dimension - 1)).count ⊆
        (mesh.entityIndices (mesh.dimension - 1)).toFinset := by
      intro facet hfacet
      rw [List.mem_toFinset, mem_entityIndices_of_pos hpos (Nat.sub_le _ _)]
      exact Finset.mem_range.mp hfacet
    have hcard := Finset.card_le_card hsubset
    rw [Finset.card_range] at hcard
    exact Nat.le_trans (Nat.le_trans hcard (List.toFinset_card_le _)) (Nat.le_max_right _ _)

theorem numVertices_le_of_ofData {data : MeshData α} (h : ofData data = .ok mesh) :
    mesh.numVertices ≤ data.vertices.size := by
  obtain ⟨-, -, -, hpoints, -⟩ := ofData_eq_ok_iff.mp h
  rw [numVertices, hpoints, MeshData.points, size_groups]
  exact Nat.div_le_self _ _

/-- The cells have as many facets as vertices. -/
theorem length_entityIndices_facets_of_ofData {data : MeshData α} (h : ofData data = .ok mesh) :
    (mesh.entityIndices (mesh.dimension - 1)).length = data.cells.size := by
  have hmesh := wellFormed_of_ofData h
  have hlength : ∀ cell ∈ mesh.cells.toList, cell.length = mesh.shape.numVertices :=
    fun cell hcell => hmesh.length_cell cell (Array.mem_toList_iff.mp hcell)
  calc (mesh.entityIndices (mesh.dimension - 1)).length
      = mesh.numCells * mesh.shape.numEntities (mesh.dimension - 1) :=
        hmesh.length_entityIndices (Nat.sub_le _ _)
    _ = mesh.numCells * mesh.shape.numVertices := by
        rw [dimension, Shape.numEntities_facet, Shape.numFacets]
    _ = mesh.cells.toList.flatten.length := by
        rw [length_flatten_of_length hlength, Array.length_toList, numCells]
    _ = data.cells.size := by
        rw [flatten_cells_of_ofData h, Array.length_toList]

/-- On an accepted mesh the boundary facets are, in lexicographic order and each of them once, the
pairs of a cell and a facet of it whose vertices are those of no other such pair. No step of the
search fails, if only the lists of vertices and cells can be stored. -/
theorem boundaryFacets_unshared {data : MeshData α} (h : ofData data = .ok mesh) :
    mesh.boundaryFacets.Pairwise (Prod.Lex (· < ·) (· < ·)) ∧
    (∀ cell facet, (cell, facet) ∈ mesh.boundaryFacets ↔ mesh.IsBoundaryFacet cell facet) ∧
    (data.vertices.size < Index.capacity → data.cells.size < Index.capacity →
      mesh.checkedBoundaryFacets = .ok mesh.boundaryFacets) := by
  have hmesh := wellFormed_of_ofData h
  refine ⟨mesh.pairwise_boundaryFacets, fun cell facet => hmesh.mem_boundaryFacets_iff, ?_⟩
  intro hvertices hcells
  have hle : Index.capacity ≤ Index.bound := by decide
  have hnum := numVertices_le_of_ofData h
  have hlength := length_entityIndices_facets_of_ofData h
  have hcount := mesh.count_facets_le
  exact checkedBoundaryFacets_eq_ok hmesh (by omega) (by omega)

/-- Five intervals in the plane, of which four meet in one vertex and two are the same but for their
direction: only the first and the last vertex of the chain belong to one interval. -/
theorem boundaryFacets_unshared_of_five_intervals :
    ∃ mesh : Mesh Nat,
      ofData ⟨.interval, 2, #[0, 0, 1, 0, 2, 0, 2, 1, 3, 0], #[0, 1, 1, 2, 1, 3, 3, 1, 4, 2]⟩ =
        .ok mesh ∧
      mesh.boundaryFacets = [(0, 0), (4, 0)] ∧
      mesh.checkedBoundaryFacets = .ok [(0, 0), (4, 0)] ∧
      mesh.IsBoundaryFacet 4 0 ∧ ¬ mesh.IsBoundaryFacet 2 1 := by
  let mesh : Mesh Nat :=
    { shape := .interval, geometricDimension := 2,
      points := #[[0, 0], [1, 0], [2, 0], [2, 1], [3, 0]],
      cells := #[[0, 1], [1, 2], [1, 3], [3, 1], [4, 2]] }
  have hdata : ofData ⟨.interval, 2, #[0, 0, 1, 0, 2, 0, 2, 1, 3, 0],
      #[0, 1, 1, 2, 1, 3, 3, 1, 4, 2]⟩ = .ok mesh :=
    ofData_eq_ok_iff.mpr (by decide +kernel)
  have hfacets : mesh.boundaryFacets = [(0, 0), (4, 0)] := by decide +kernel
  obtain ⟨-, hmem, hchecked⟩ := boundaryFacets_unshared hdata
  have hok := hchecked (by decide) (by decide)
  rw [hfacets] at hok hmem
  exact ⟨mesh, hdata, hfacets, hok, (hmem 4 0).mp (by decide),
    fun hboundary => absurd ((hmem 2 1).mpr hboundary) (by decide)⟩

end Mesh
end FiniteElement
