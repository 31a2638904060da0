import Mathlib
import FiniteElement.Proofs.Mesh.BoundaryNodes
import FiniteElement.Proofs.Samples

/-! # Facets that two cells share

Each cell sees a shared facet in its own local order. The nodes that it picks for
the facet are nevertheless the same, and as many as the space has degrees of
freedom on a facet.
-/

namespace FiniteElement

namespace DofMap

variable {α : Type} {mesh : Mesh α} {map : DofMap α}

/-- The nodes of a cell in the places that the space writes for one of its facets. -/
def nodesOnFacet (map : DofMap α) (mesh : Mesh α) (cell facet : Nat)
    (nodeBuffer dofBuffer : List Nat) : Except Fault (List Nat) := do
  let nodes ← map.tabulate mesh cell nodeBuffer
  let dofs ← map.writeFacetDofs facet dofBuffer
  dofs.mapM (Index.entry nodes)

theorem nodesOnFacet_eq_ok (hmesh : mesh.WellFormed) (hmap : map.IsOn mesh.shape)
    (hbound : sizeOn mesh.entityCounts map.leaves < Index.bound) {cell facet : Nat}
    (hc : cell < mesh.numCells) (hfacet : facet < mesh.shape.numFacets)
    {nodeBuffer dofBuffer : List Nat} (hnodes : nodeBuffer.length = map.size)
    (hdofs : dofBuffer.length = sizeOnFacet map.leaves) :
    map.nodesOnFacet mesh cell facet nodeBuffer dofBuffer =
      .ok (mesh.facetNodes map (cell, facet)) := by
  have hlocal := size_le_sizeOn hmesh hmap hc
  rw [size_eq] at hlocal
  rw [nodesOnFacet, tabulate_eq_ok hmesh hmap hbound hc hnodes, Checked.ok_bind,
    writeFacetDofs_eq_ok hfacet map hmap (by omega) dofBuffer hdofs, Checked.ok_bind]
  exact Mesh.mapM_entry_facetDofs hmap (cell, facet)

/-- The local degrees of freedom of a facet are distinct, and so are the nodes of a cell. -/
theorem nodup_facetNodes (hmesh : mesh.WellFormed) (hmap : map.IsOn mesh.shape) {cell facet : Nat}
    (hc : cell < mesh.numCells) (hfacet : facet < mesh.shape.numFacets) :
    (mesh.facetNodes map (cell, facet)).Nodup := by
  have hbelow : ∀ i ∈ map.facetDofs facet, i < (map.cellNodes mesh cell).length := by
    intro i hi
    obtain ⟨dof, hdof, -⟩ := (mem_facetDofs_iff hmap).mp hi
    rw [cellNodes, List.length_map]
    exact (List.getElem?_eq_some_iff.mp hdof).1
  have hdistinct : (map.facetDofs facet).Nodup :=
    (pairwise_facetDofs hmap hfacet).imp Nat.ne_of_lt
  apply hdistinct.map_on
  intro i hi j hj heq
  rw [List.getD_eq_getElem _ _ (hbelow i hi), List.getD_eq_getElem _ _ (hbelow j hj)] at heq
  exact (nodup_cellNodes hmesh hmap hc).getElem_inj_iff.mp heq

theorem card_facetNodes (hmesh : mesh.WellFormed) (hmap : map.IsOn mesh.shape) {cell facet : Nat}
    (hc : cell < mesh.numCells) (hfacet : facet < mesh.shape.numFacets) :
    (mesh.facetNodes map (cell, facet)).toFinset.card = sizeOnFacet map.leaves := by
  rw [List.toFinset_card_of_nodup (nodup_facetNodes hmesh hmap hc hfacet), Mesh.facetNodes,
    List.length_map, length_facetDofs hmap hfacet]

/-- Which nodes lie on a facet of a cell is determined by the vertices of the facet. -/
theorem toFinset_facetNodes_eq (hmesh : mesh.WellFormed) (hmap : map.IsOn mesh.shape)
    {cell facet cell' facet' : Nat} (hc : cell < mesh.numCells)
    (hfacet : facet < mesh.shape.numFacets) (hc' : cell' < mesh.numCells)
    (hfacet' : facet' < mesh.shape.numFacets)
    (hshared : mesh.facetVertices cell facet = mesh.facetVertices cell' facet') :
    (mesh.facetNodes map (cell, facet)).toFinset =
      (mesh.facetNodes map (cell', facet')).toFinset := by
  ext g
  rw [List.mem_toFinset, List.mem_toFinset, hmesh.mem_facetNodes_iff hmap hc hfacet,
    hmesh.mem_facetNodes_iff hmap hc' hfacet', hshared]

/-- On an accepted mesh two cells with a common facet pick the same nodes for it, as many as the
space has degrees of freedom on a facet, whatever their local orders are. -/
theorem shared_facet_nodes {data : MeshData α} (h : Mesh.ofData data = .ok mesh)
    (hmap : map.IsOn mesh.shape) {n : Nat} (hn : map.globalDimension mesh.entityCounts = .ok n)
    {cell facet cell' facet' : Nat} (hc : cell < mesh.numCells)
    (hfacet : facet < mesh.shape.numFacets) (hc' : cell' < mesh.numCells)
    (hfacet' : facet' < mesh.shape.numFacets)
    (hshared : mesh.facetVertices cell facet = mesh.facetVertices cell' facet') :
    ∃ size count, map.localDimension = .ok size ∧ map.facetDimension = .ok count ∧
      ∀ nodeBuffer dofBuffer nodeBuffer' dofBuffer' : List Nat,
        nodeBuffer.length = size → dofBuffer.length = count →
        nodeBuffer'.length = size → dofBuffer'.length = count →
        ∃ nodes nodes', map.nodesOnFacet mesh cell facet nodeBuffer dofBuffer = .ok nodes ∧
          map.nodesOnFacet mesh cell' facet' nodeBuffer' dofBuffer' = .ok nodes' ∧
          nodes.toFinset = nodes'.toFinset ∧ nodes.toFinset.card = count ∧
          nodes'.toFinset.card = count := by
  have hmesh := Mesh.wellFormed_of_ofData h
  obtain ⟨hbound, -⟩ := (globalDimension_eq_ok_iff mesh.length_entityCounts map hmap n).mp hn
  have hlocal := size_le_sizeOn hmesh hmap hc
  have hle := sizeOnFacet_le hmap
  have hsize := size_eq map
  have hcount : map.facetDimension = .ok (sizeOnFacet map.leaves) := by
    rw [facetDimension, facetSize_eq, Index.guard_of_lt (by omega)]
  refine ⟨map.size, sizeOnFacet map.leaves, Index.guard_of_lt (by omega), hcount, ?_⟩
  intro nodeBuffer dofBuffer nodeBuffer' dofBuffer' hnodes hdofs hnodes' hdofs'
  exact ⟨_, _, nodesOnFacet_eq_ok hmesh hmap hbound hc hfacet hnodes hdofs,
    nodesOnFacet_eq_ok hmesh hmap hbound hc' hfacet' hnodes' hdofs',
    toFinset_facetNodes_eq hmesh hmap hc hfacet hc' hfacet' hshared,
    card_facetNodes hmesh hmap hc hfacet, card_facetNodes hmesh hmap hc' hfacet'⟩

/-- Two triangles that walk their common edge in opposite directions pick the same eight nodes of a
space with two degrees of freedom on each edge beside a nested one with two on each vertex. -/
theorem shared_facet_nodes_of_two_triangles :
    let edges : LayoutMap Rat := { layout := ⟨.lagrange, .triangle, 3, [1, 2, 1], []⟩ }
    let corners : LayoutMap Rat := { layout := ⟨.lagrange, .triangle, 1, [2, 0, 0], []⟩ }
    let map : DofMap Rat := .mixed [.single edges, .mixed [.single corners]]
    ∃ mesh : Mesh Rat,
      Mesh.ofData ⟨.triangle, 2, #[0, 0, 2, 0, 0, 1, 2, 1], #[0, 1, 2, 3, 2, 1]⟩ = .ok mesh ∧
      map.IsOn mesh.shape ∧ map.globalDimension mesh.entityCounts = .ok 24 ∧
      mesh.facetVertices 0 0 = mesh.facetVertices 1 0 ∧
      ∃ nodes nodes', map.nodesOnFacet mesh 0 0 (List.replicate 16 0) (List.replicate 8 0) =
          .ok nodes ∧
        map.nodesOnFacet mesh 1 0 (List.replicate 16 7) (List.replicate 8 7) = .ok nodes' ∧
        nodes.toFinset = nodes'.toFinset ∧ nodes.toFinset.card = 8 := by
  intro edges corners map
  let mesh := Sample.rectangle [3, 2, 1]
  have hperm : [3, 2, 1].Perm [1, 2, 3] := by decide
  have hdata := Sample.ofData_rectangle hperm
  have hmap : map.IsOn mesh.shape := by decide
  have hdimension : map.globalDimension mesh.entityCounts = .ok 24 := by
    rw [Sample.entityCounts_rectangle hperm]
    rfl
  have hshared : mesh.facetVertices 0 0 = mesh.facetVertices 1 0 :=
    Sample.entityVertices_rectangle hperm rfl
  refine ⟨mesh, hdata, hmap, hdimension, hshared, ?_⟩
  obtain ⟨size, count, hsize, hcount, hall⟩ := shared_facet_nodes hdata hmap hdimension
    (show 0 < mesh.numCells by decide) (show 0 < mesh.shape.numFacets by decide)
    (show 1 < mesh.numCells by decide) (show 0 < mesh.shape.numFacets by decide) hshared
  have hsize' : map.localDimension = .ok 16 := by decide +kernel
  have hcount' : map.facetDimension = .ok 8 := by decide +kernel
  rw [hsize', Except.ok.injEq] at hsize
  rw [hcount', Except.ok.injEq] at hcount
  subst hsize hcount
  obtain ⟨nodes, nodes', hnodes, hnodes', hsame, hcard, -⟩ :=
    hall (List.replicate 16 0) (List.replicate 8 0) (List.replicate 16 7) (List.replicate 8 7)
      List.length_replicate List.length_replicate List.length_replicate List.length_replicate
  exact ⟨nodes, nodes', hnodes, hnodes', hsame, hcard⟩

end DofMap
end FiniteElement
