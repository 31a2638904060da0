import Mathlib
import FiniteElement.Mesh.Boundary
import FiniteElement.Proofs.DofMap.FacetDofs
import FiniteElement.Proofs.DofMap.GlobalNumbering
import FiniteElement.Proofs.Mesh.FacetCount
import FiniteElement.Proofs.Samples

/-! # Nodes on the boundary

The nodes of the boundary facets, sorted and without repetition. They are the
indices of the degrees of freedom on the closure of the boundary: those on
entities whose vertices all belong to one boundary facet.
-/

namespace FiniteElement

/-! ## Removing repetitions -/

theorem eraseRepsBy_loop_eq (x : Nat) (xs seen : List Nat) :
    List.eraseRepsBy.loop (· == ·) x xs seen =
      seen.reverse ++ List.eraseRepsBy.loop (· == ·) x xs [] := by
  induction xs generalizing x seen with
  | nil => simp [List.eraseRepsBy.loop]
  | cons y xs ih =>
      rw [List.eraseRepsBy.loop, List.eraseRepsBy.loop]
      cases x == y with
      | true => exact ih x seen
      | false =>
          dsimp only
          rw [ih y (x :: seen), ih y [x], List.reverse_cons, List.append_assoc]
          rfl

theorem eraseReps_cons_cons (x y : Nat) (xs : List Nat) :
    (x :: y :: xs).eraseReps =
      if x = y then (x :: xs).eraseReps else x :: (y :: xs).eraseReps := by
  unfold List.eraseReps List.eraseRepsBy
  dsimp only
  rw [List.eraseRepsBy.loop]
  by_cases hxy : x = y
  · simp [hxy]
  · rw [if_neg hxy, beq_false_of_ne hxy]
    dsimp only
    rw [eraseRepsBy_loop_eq]
    rfl

theorem mem_eraseReps {x : Nat} {xs : List Nat} : x ∈ xs.eraseReps ↔ x ∈ xs := by
  cases xs with
  | nil => rfl
  | cons y xs =>
      induction xs generalizing y with
      | nil => rfl
      | cons z xs ih =>
          rw [eraseReps_cons_cons]
          split
          · next hyz =>
              rw [ih, hyz, List.mem_cons, List.mem_cons, List.mem_cons, ← or_assoc, or_self]
          · rw [List.mem_cons, ih, List.mem_cons, List.mem_cons, List.mem_cons]

/-- Without repetitions a sorted list is strictly increasing. -/
theorem pairwise_lt_eraseReps {xs : List Nat} (h : xs.Pairwise (· ≤ ·)) :
    xs.eraseReps.Pairwise (· < ·) := by
  cases xs with
  | nil => exact List.Pairwise.nil
  | cons x xs =>
      induction xs generalizing x with
      | nil => exact List.pairwise_singleton _ x
      | cons y xs ih =>
          obtain ⟨hx, hrest⟩ := List.pairwise_cons.mp h
          rw [eraseReps_cons_cons]
          split
          · next hxy =>
              rw [hxy]
              exact ih y hrest
          · next hne =>
              refine List.Pairwise.cons ?_ (ih y hrest)
              intro z hz
              have hxy : x < y := Nat.lt_of_le_of_ne (hx y List.mem_cons_self) hne
              rcases List.mem_cons.mp (mem_eraseReps.mp hz) with heq | hmem
              · rwa [heq]
              · exact Nat.lt_of_lt_of_le hxy ((List.pairwise_cons.mp hrest).1 z hmem)

namespace Mesh

variable {α : Type} {mesh : Mesh α} {map : DofMap α}

/-! ## Walking facets -/

structure FacetWalk.Fits (walk : FacetWalk α) (map : DofMap α) : Prop where
  length_nodeBuffer : walk.nodeBuffer.length = map.size
  length_dofBuffer : walk.dofBuffer.length = DofMap.sizeOnFacet map.leaves

/-- The nodes of a cell in the places of its local degrees of freedom on a facet. -/
def facetNodes (mesh : Mesh α) (map : DofMap α) (facet : Nat × Nat) : List Nat :=
  (map.facetDofs facet.2).map fun i => (map.cellNodes mesh facet.1).getD i 0

theorem mapM_entry_facetDofs (hmap : map.IsOn mesh.shape) (facet : Nat × Nat) :
    (map.facetDofs facet.2).mapM (Index.entry (map.cellNodes mesh facet.1)) =
      .ok (mesh.facetNodes map facet) := by
  apply Checked.mapM_eq_ok_map
  intro i hi
  obtain ⟨dof, hdof, -⟩ := (DofMap.mem_facetDofs_iff hmap).mp hi
  have hlt : i < (map.cellNodes mesh facet.1).length := by
    rw [DofMap.cellNodes, List.length_map]
    exact (List.getElem?_eq_some_iff.mp hdof).1
  rw [Index.entry_of_lt hlt, List.getD_eq_getElem _ _ hlt]

theorem length_facetNodes (hmap : map.IsOn mesh.shape) {facet : Nat × Nat}
    (hfacet : facet.2 < mesh.shape.numFacets) :
    (mesh.facetNodes map facet).length = map.facetSize := by
  rw [facetNodes, List.length_map, DofMap.length_facetDofs hmap hfacet, DofMap.facetSize_eq]

/-- Whatever its buffers hold, a walk with room for the nodes of the facet adds them and keeps room
for the next. -/
theorem WellFormed.visitFacet_eq_ok (hmesh : mesh.WellFormed) (hmap : map.IsOn mesh.shape)
    (hbound : DofMap.sizeOn mesh.entityCounts map.leaves < Index.bound)
    (hsize : map.size < Index.bound) {facet : Nat × Nat} (hc : facet.1 < mesh.numCells)
    (hfacet : facet.2 < mesh.shape.numFacets) {walk : FacetWalk α} (hwalk : walk.Fits map)
    (hroom : walk.found.size + map.facetSize < Index.capacity) :
    ∃ next, mesh.visitFacet map walk facet = .ok next ∧ next.Fits map ∧
      next.found = walk.found ++ mesh.facetNodes map facet := by
  obtain ⟨view, coordinates, hview, hentities⟩ := hmesh.view_eq_ok hc walk.coordinates
  have hnodes := DofMap.writeNodes_cell_eq_ok hmesh hmap hbound hc hentities
    hwalk.length_nodeBuffer
  rw [DofMap.size_eq] at hsize
  have hdofs := DofMap.writeFacetDofs_eq_ok hfacet map hmap hsize walk.dofBuffer
    hwalk.length_dofBuffer
  have hentries := mapM_entry_facetDofs hmap facet
  rw [← length_facetNodes hmap hfacet] at hroom
  refine ⟨⟨map.cellNodes mesh facet.1, map.facetDofs facet.2, coordinates,
    walk.found ++ mesh.facetNodes map facet⟩, ?_, ⟨?_, ?_⟩, rfl⟩
  · simp only [visitFacet, hview, hnodes, hdofs, hentries, Checked.ok_bind,
      Index.length_eq_ok_iff.mpr ⟨hroom, rfl⟩]
    rfl
  · exact DofMap.length_cellNodes hmesh hmap hc
  · exact DofMap.length_facetDofs hmap hfacet

theorem WellFormed.foldlM_visitFacet_eq_ok (hmesh : mesh.WellFormed) (hmap : map.IsOn mesh.shape)
    (hbound : DofMap.sizeOn mesh.entityCounts map.leaves < Index.bound)
    (hsize : map.size < Index.bound) (facets : List (Nat × Nat))
    (hfacets : ∀ facet ∈ facets, facet.1 < mesh.numCells ∧ facet.2 < mesh.shape.numFacets)
    {walk : FacetWalk α} (hwalk : walk.Fits map)
    (hroom : walk.found.size + facets.length * map.facetSize < Index.capacity) :
    ∃ last, facets.foldlM (mesh.visitFacet map) walk = .ok last ∧
      last.found.toList = walk.found.toList ++ facets.flatMap (mesh.facetNodes map) := by
  induction facets generalizing walk with
  | nil => exact ⟨walk, rfl, by simp⟩
  | cons facet facets ih =>
      obtain ⟨hc, hfacet⟩ := hfacets facet List.mem_cons_self
      rw [List.length_cons, Nat.succ_mul] at hroom
      obtain ⟨next, hnext, hfits, hfound⟩ :=
        hmesh.visitFacet_eq_ok hmap hbound hsize hc hfacet hwalk (by omega)
      have hcount : next.found.size = walk.found.size + map.facetSize := by
        rw [hfound, ← Array.length_toList, Array.toList_appendList, List.length_append,
          Array.length_toList, length_facetNodes hmap hfacet]
      obtain ⟨last, hlast, hall⟩ :=
        ih (fun facet hmem => hfacets facet (List.mem_cons_of_mem _ hmem)) hfits (by omega)
      refine ⟨last, ?_, ?_⟩
      · rw [List.foldlM_cons, hnext, Checked.ok_bind, hlast]
      · rw [hall, hfound, List.flatMap_cons]
        simp

def boundaryNodeList (mesh : Mesh α) (map : DofMap α) : List Nat :=
  ((mesh.boundaryFacets.flatMap (mesh.facetNodes map)).mergeSort (· ≤ ·)).eraseReps

theorem mem_boundaryNodeList_iff {g : Nat} :
    g ∈ mesh.boundaryNodeList map ↔
      ∃ facet ∈ mesh.boundaryFacets, g ∈ mesh.facetNodes map facet := by
  rw [boundaryNodeList, mem_eraseReps, List.mem_mergeSort, List.mem_flatMap]

theorem pairwise_boundaryNodeList (mesh : Mesh α) (map : DofMap α) :
    (mesh.boundaryNodeList map).Pairwise (· < ·) :=
  pairwise_lt_eraseReps (List.pairwise_mergeSort' (· ≤ ·) _)

/-- What is set aside for the boundary nodes can be stored: a node for each local degree of freedom,
two words for each boundary facet, and the nodes on all boundary facets before they are sorted. -/
structure BoundaryIsStorable (mesh : Mesh α) (map : DofMap α) : Prop where
  nodes : map.size < Index.capacity
  facets : 2 * mesh.boundaryFacets.length < Index.capacity
  found : mesh.boundaryFacets.length * map.facetSize < Index.capacity

/-- No more facets lie on the boundary than the cells have. -/
theorem WellFormed.boundaryIsStorable (hmesh : mesh.WellFormed) (hnodes : map.size < Index.capacity)
    (hfound : mesh.numCells * mesh.shape.numFacets * max 2 map.facetSize < Index.capacity) :
    mesh.BoundaryIsStorable map := by
  have hle := hmesh.length_boundaryFacets_le
  have htwo := Nat.mul_le_mul hle (Nat.le_max_left 2 map.facetSize)
  have hsize := Nat.mul_le_mul hle (Nat.le_max_right 2 map.facetSize)
  exact ⟨hnodes, by omega, by omega⟩

theorem WellFormed.boundaryNodes_eq_ok (hmesh : mesh.WellFormed) (hmap : map.IsOn mesh.shape)
    (hbound : DofMap.sizeOn mesh.entityCounts map.leaves < Index.bound)
    (hstorable : mesh.BoundaryIsStorable map) :
    mesh.boundaryNodes map = .ok (mesh.boundaryNodeList map) := by
  obtain ⟨hsize, hpairs, hfound⟩ := hstorable
  have hle : Index.capacity ≤ Index.bound := by decide
  obtain ⟨hcount, hfacetSize⟩ := DofMap.facetDimension_of_lt hmap hsize
  have hfacets : ∀ facet ∈ mesh.boundaryFacets,
      facet.1 < mesh.numCells ∧ facet.2 < mesh.shape.numFacets := by
    intro facet hfacet
    obtain ⟨hc, hlt, -⟩ := hmesh.mem_boundaryFacets_iff.mp hfacet
    exact ⟨hc, hlt⟩
  have hfits : FacetWalk.Fits ⟨List.replicate map.size 0,
      List.replicate (DofMap.sizeOnFacet map.leaves) 0, #[], #[]⟩ map :=
    ⟨List.length_replicate, List.length_replicate⟩
  obtain ⟨last, hlast, hall⟩ := hmesh.foldlM_visitFacet_eq_ok hmap hbound
    (Nat.lt_of_lt_of_le hsize hle) mesh.boundaryFacets hfacets hfits
    (by rwa [Array.size_empty, Nat.zero_add])
  simp only [boundaryNodes, boundaryNodeList, DofMap.localDimension_of_lt hsize, hcount,
    Index.length_eq_ok_iff.mpr ⟨hsize, rfl⟩, Index.length_eq_ok_iff.mpr ⟨hfacetSize, rfl⟩,
    Checked.ok_bind]
  generalize mesh.boundaryFacets = facets at hlast hall hpairs
  cases facets with
  | nil => simp [List.eraseReps, List.eraseRepsBy]
  | cons facet facets =>
      dsimp only
      rw [Index.length_eq_ok_iff.mpr ⟨hpairs, rfl⟩, Checked.ok_bind, hlast, Checked.ok_bind, hall]
      rfl

/-! ## The closure of the boundary -/

theorem mem_facetNodes_iff_mem_localDofs (hmap : map.IsOn mesh.shape) {facet : Nat × Nat}
    {g : Nat} :
    g ∈ mesh.facetNodes map facet ↔ ∃ source ∈ map.localDofs,
      (source.dim, source.entity) ∈ mesh.shape.facetClosure facet.2 ∧
      map.globalIndex mesh.entityCounts (source.onCell (mesh.localEntities facet.1)) = g := by
  have hplace : ∀ i source, map.localDofs[i]? = some source →
      (map.cellNodes mesh facet.1).getD i 0 =
        map.globalIndex mesh.entityCounts (source.onCell (mesh.localEntities facet.1)) := by
    intro i source hsource
    rw [DofMap.cellNodes, List.getD_eq_getElem?_getD, List.getElem?_map, hsource]
    rfl
  rw [facetNodes, List.mem_map]
  constructor
  · rintro ⟨i, hi, heq⟩
    obtain ⟨source, hsource, hclosure⟩ := (DofMap.mem_facetDofs_iff hmap).mp hi
    rw [hplace i source hsource] at heq
    exact ⟨source, List.mem_of_getElem? hsource, hclosure, heq⟩
  · rintro ⟨source, hmem, hclosure, heq⟩
    obtain ⟨i, hi⟩ := List.getElem?_of_mem hmem
    rw [← hplace i source hi] at heq
    exact ⟨i, (DofMap.mem_facetDofs_iff hmap).mpr ⟨source, hi, hclosure⟩, heq⟩

theorem WellFormed.lt_of_mem_boundaryNodeList (hmesh : mesh.WellFormed)
    (hmap : map.IsOn mesh.shape) :
    ∀ g ∈ mesh.boundaryNodeList map, g < DofMap.sizeOn mesh.entityCounts map.leaves := by
  intro g hg
  obtain ⟨facet, hfacet, hnode⟩ := mem_boundaryNodeList_iff.mp hg
  have hc := (hmesh.mem_boundaryFacets_iff.mp hfacet).1
  obtain ⟨source, hsource, -, heq⟩ := (mem_facetNodes_iff_mem_localDofs hmap).mp hnode
  rw [← heq]
  exact DofMap.globalIndex_lt (DofMap.hasDof_of_mem_localDofs hmesh hmap hc hsource)

/-- The nodes of a cell on a facet are the indices on the entities whose vertices belong to it. -/
theorem WellFormed.mem_facetNodes_iff (hmesh : mesh.WellFormed) (hmap : map.IsOn mesh.shape)
    {facet : Nat × Nat} (hc : facet.1 < mesh.numCells) (hfacet : facet.2 < mesh.shape.numFacets)
    {g : Nat} :
    g ∈ mesh.facetNodes map facet ↔ ∃ dof, map.HasDof mesh.entityCounts dof ∧
      map.globalIndex mesh.entityCounts dof = g ∧ dof.dim < mesh.dimension ∧
      mesh.verticesOf dof.dim dof.entity ⊆ mesh.facetVertices facet.1 facet.2 := by
  rw [mem_facetNodes_iff_mem_localDofs hmap]
  constructor
  · rintro ⟨source, hsource, hclosure, heq⟩
    have hlt : source.dim < mesh.dimension := (Shape.mem_facetClosure_iff.mp hclosure).1
    have hdof := DofMap.hasDof_of_mem_localDofs hmesh hmap hc hsource
    obtain ⟨-, hhas⟩ := hmesh.hasEntity_onCell hmap hc hsource
    have hcount := lt_count_of_hasDof hmap hdof
    exact ⟨source.onCell (mesh.localEntities facet.1), hdof, heq, hlt,
      (hmesh.verticesOf_subset_iff hlt hcount hc hfacet).mpr ⟨source.entity, hhas, hclosure⟩⟩
  · rintro ⟨dof, hdof, heq, hlt, hwithin⟩
    obtain ⟨index, hhas, hclosure⟩ :=
      (hmesh.verticesOf_subset_iff hlt (lt_count_of_hasDof hmap hdof) hc hfacet).mp hwithin
    obtain ⟨hsource, hcell⟩ := hmesh.onCell_eq_of_hasEntity hmap hdof hhas
    rw [← hcell] at heq
    exact ⟨{ dof with entity := index }, hsource, hclosure, heq⟩

/-- On an accepted mesh the boundary nodes are in increasing order the indices of the degrees of
freedom on the closure of the boundary, for every space on its cells for which all that is set aside
can be stored. -/
theorem boundaryNodes_eq_closure_dofs {data : MeshData α} (h : ofData data = .ok mesh)
    (hmap : map.IsOn mesh.shape) {n : Nat} (hn : map.globalDimension mesh.entityCounts = .ok n)
    (hstorable : mesh.BoundaryIsStorable map) :
    ∃ nodes, mesh.boundaryNodes map = .ok nodes ∧ nodes.Pairwise (· < ·) ∧ (∀ g ∈ nodes, g < n) ∧
      ∀ g, g ∈ nodes ↔ ∃ dof, map.HasDof mesh.entityCounts dof ∧
        map.globalIndex mesh.entityCounts dof = g ∧ dof.dim < mesh.dimension ∧
        ∃ cell facet, mesh.IsBoundaryFacet cell facet ∧
          mesh.verticesOf dof.dim dof.entity ⊆ mesh.facetVertices cell facet := by
  have hmesh := wellFormed_of_ofData h
  obtain ⟨hbound, hcount⟩ :=
    (DofMap.globalDimension_eq_ok_iff mesh.length_entityCounts map hmap n).mp hn
  refine ⟨mesh.boundaryNodeList map, hmesh.boundaryNodes_eq_ok hmap hbound hstorable,
    mesh.pairwise_boundaryNodeList map, ?_, ?_⟩
  · rw [← hcount]
    exact hmesh.lt_of_mem_boundaryNodeList hmap
  · intro g
    rw [mem_boundaryNodeList_iff]
    constructor
    · rintro ⟨⟨cell, facet⟩, hfacet, hg⟩
      have hboundary := hmesh.mem_boundaryFacets_iff.mp hfacet
      obtain ⟨dof, hdof, heq, hlt, hwithin⟩ :=
        (hmesh.mem_facetNodes_iff hmap hboundary.1 hboundary.2.1).mp hg
      exact ⟨dof, hdof, heq, hlt, cell, facet, hboundary, hwithin⟩
    · rintro ⟨dof, hdof, heq, hlt, cell, facet, hboundary, hwithin⟩
      exact ⟨(cell, facet), hmesh.mem_boundaryFacets_iff.mpr hboundary,
        (hmesh.mem_facetNodes_iff hmap hboundary.1 hboundary.2.1).mpr
          ⟨dof, hdof, heq, hlt, hwithin⟩⟩

/-- A layout with vertices and edges beside a nested one with vertices, on two triangles with a
common edge: the index on that edge belongs to no boundary node. -/
theorem boundaryNodes_eq_closure_dofs_of_two_triangles :
    let map := Sample.quadraticAndLinear
    ∃ mesh : Mesh Rat,
      ofData ⟨.triangle, 2, #[0, 0, 2, 0, 0, 1, 2, 1], #[0, 1, 2, 1, 2, 3]⟩ = .ok mesh ∧
      map.IsOn mesh.shape ∧ map.globalDimension mesh.entityCounts = .ok 13 ∧
      mesh.BoundaryIsStorable map ∧
      ∃ e nodes, mesh.HasEntity 0 1 0 e ∧ mesh.boundaryNodes map = .ok nodes ∧
        map.globalIndex mesh.entityCounts ⟨0, 1, e, 0⟩ ∉ nodes := by
  intro map
  let mesh := Sample.rectangle [1, 2, 3]
  have hperm : [1, 2, 3].Perm [1, 2, 3] := .refl _
  have hdata := Sample.ofData_rectangle hperm
  have hmap : map.IsOn mesh.shape := by decide +kernel
  have hdimension : map.globalDimension mesh.entityCounts = .ok 13 := by
    rw [Sample.entityCounts_rectangle hperm]
    decide +kernel
  have hmesh := wellFormed_of_ofData hdata
  have hlt : 1 < mesh.dimension := by decide
  obtain ⟨e, he⟩ := hmesh.exists_hasEntity (Nat.le_of_lt hlt) (show 0 < mesh.numCells by decide)
    (show 0 < mesh.shape.numEntities 1 by decide)
  have hvertices : mesh.facetVertices 0 0 = mesh.facetVertices 1 2 :=
    Sample.entityVertices_rectangle hperm rfl
  have hentity : e < (mesh.table 1).count := by
    obtain ⟨row, hrow, hindex⟩ := he
    exact hmesh.lt_count (Nat.le_of_lt hlt) hrow e (List.mem_of_getElem? hindex)
  have hdof : map.HasDof mesh.entityCounts ⟨0, 1, e, 0⟩ :=
    ⟨LayoutMap.p2 .triangle, 1, (mesh.table 1).count, rfl, rfl,
      Index.entry_eq_ok_iff.mp (numEntities_eq_ok (Nat.le_of_lt hlt)), hentity, Nat.one_pos⟩
  have hstorable : mesh.BoundaryIsStorable map :=
    hmesh.boundaryIsStorable (by decide) (by decide)
  obtain ⟨nodes, hnodes, -, -, hmem⟩ :=
    boundaryNodes_eq_closure_dofs hdata hmap hdimension hstorable
  refine ⟨mesh, hdata, hmap, hdimension, hstorable, e, nodes, he, hnodes, ?_⟩
  intro hg
  obtain ⟨dof, hdof', heq, -, cell, facet, ⟨hc, hfacet, hother⟩, hwithin⟩ := (hmem _).mp hg
  rw [(DofMap.globalIndex_inj hdof' hdof).mp heq,
    hmesh.verticesOf_subset_iff hlt hentity hc hfacet] at hwithin
  obtain ⟨index, hhas, hclosure⟩ := hwithin
  have hindex : index = facet := by
    have hall : ∀ facet < 3, ∀ entity ∈ Shape.facetClosure .triangle facet,
        entity.1 = 1 → entity.2 = facet := by decide
    exact hall facet hfacet _ hclosure rfl
  rw [hindex] at hhas
  have hsame : mesh.facetVertices 0 0 = mesh.facetVertices cell facet :=
    (hmesh.entity_eq_iff hlt he hhas).mp rfl
  have hfirst := hother 0 (by decide) 0 (by decide) hsame
  have hsecond := hother 1 (by decide) 2 (by decide) (hvertices.symm.trans hsame)
  omega

/-- On a mesh without cells a space has no degree of freedom in the interior of a cell, but the
buffer for those of one cell is asked for all the same. -/
theorem boundaryNodes_fails_on_wide_layout :
    let wide := Sample.inside (2 ^ 60) (by decide)
    let mesh : Mesh Rat := Sample.intervals [] 0
    ofData ⟨.interval, 1, #[], #[]⟩ = .ok mesh ∧ (DofMap.single wide).IsOn mesh.shape ∧
      (DofMap.single wide).globalDimension mesh.entityCounts = .ok 0 ∧
      mesh.boundaryNodes (.single wide) = .error .tooManyEntries :=
  ⟨Sample.ofData_intervals [] 0 (Nat.le_refl 0), by decide, rfl, by decide +kernel⟩

end Mesh
end FiniteElement
