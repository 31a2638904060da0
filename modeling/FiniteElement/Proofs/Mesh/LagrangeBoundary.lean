import Mathlib
import FiniteElement.Proofs.Mesh.BoundaryNodes
import FiniteElement.Proofs.Mesh.FacetCount

/-! # Boundary nodes of the Lagrange spaces

The piecewise linear space has one degree of freedom for each vertex, and the
piecewise quadratic space one more for each edge. Their boundary nodes are therefore
the indices of the vertices, and of the edges, on the closure of the boundary.
-/

namespace FiniteElement

/-- The facet itself is the only entity of its dimension in its closure. -/
theorem Shape.eq_of_facet_mem_facetClosure {shape : Shape} {facet index : Nat}
    (hfacet : facet < shape.numFacets)
    (h : (shape.dimension - 1, index) ∈ shape.facetClosure facet) : index = facet := by
  have hall : ∀ facet < shape.numFacets, ∀ entity ∈ shape.facetClosure facet,
      entity.1 = shape.dimension - 1 → entity.2 = facet := by
    cases shape <;> decide
  exact hall facet hfacet _ h rfl

/-! ## One degree of freedom per entity -/

namespace LayoutMap

variable {α : Type} {map : LayoutMap α} {shape : Shape} {counts : EntityCounts} {k : Nat}

/-- The layout has one degree of freedom on each entity of dimension below `k`, and no other. -/
structure IsUniform (map : LayoutMap α) (shape : Shape) (k : Nat) : Prop where
  shape_eq : map.layout.shape = shape
  dofsPerEntity_eq : map.layout.dofsPerEntity =
    (List.range (shape.dimension + 1)).map fun dim => if dim < k then 1 else 0

theorem isUniform_p1 [Scalar α] (shape : Shape) : (p1 shape : LayoutMap α).IsUniform shape 1 where
  shape_eq := rfl
  dofsPerEntity_eq := by simp [p1, ofElement, DofLayout.p1, DofLayout.onlyOn]

theorem isUniform_p2 [Scalar α] (shape : Shape) : (p2 shape : LayoutMap α).IsUniform shape 2 where
  shape_eq := rfl
  dofsPerEntity_eq := by simp [p2, ofElement, DofLayout.p2]

namespace IsUniform

theorem isOn (h : map.IsUniform shape k) : (DofMap.single map).IsOn shape := by
  rw [DofMap.isOn_single]
  refine ⟨h.shape_eq, ?_⟩
  rw [h.dofsPerEntity_eq, List.length_map, List.length_range]

theorem getElem?_dofsPerEntity (h : map.IsUniform shape k) {dim : Nat}
    (hdim : dim ≤ shape.dimension) :
    map.layout.dofsPerEntity[dim]? = some (if dim < k then 1 else 0) := by
  rw [h.dofsPerEntity_eq, List.getElem?_map, List.getElem?_range (Nat.lt_succ_of_le hdim),
    Option.map_some]

theorem hasDof_iff (h : map.IsUniform shape k)
    (hcounts : counts.counts.length = shape.dimension + 1) {dof : Dof} :
    (DofMap.single map).HasDof counts dof ↔ dof.dim < k ∧
      (∃ count, counts.counts[dof.dim]? = some count ∧ dof.entity < count) ∧
      dof = ⟨0, dof.dim, dof.entity, 0⟩ := by
  constructor
  · rintro ⟨leaf, n, count, hleaf, hn, hcount, hentity, hposition⟩
    obtain ⟨hzero, rfl⟩ : dof.leaf = 0 ∧ leaf = map := by
      simpa [DofMap.leaves, List.getElem?_singleton, eq_comm] using hleaf
    have hdim := (List.getElem?_eq_some_iff.mp hcount).1
    rw [h.getElem?_dofsPerEntity (by omega), Option.some.injEq] at hn
    split at hn
    · next hk =>
        refine ⟨hk, ⟨count, hcount, hentity⟩, Dof.ext hzero rfl rfl ?_⟩
        change dof.position = 0
        omega
    · omega
  · rintro ⟨hk, ⟨count, hcount, hentity⟩, heq⟩
    have hdim := (List.getElem?_eq_some_iff.mp hcount).1
    have hn : map.layout.dofsPerEntity[dof.dim]? = some 1 := by
      rw [h.getElem?_dofsPerEntity (by omega), if_pos hk]
    refine ⟨map, 1, count, ?_, hn, hcount, hentity, ?_⟩
    · rw [heq]
      rfl
    · rw [heq]
      exact Nat.one_pos

theorem getElem?_dimensionSizes (h : map.IsUniform shape k)
    (hcounts : counts.counts.length = shape.dimension + 1) (dim : Nat) :
    (map.dimensionSizes counts)[dim]? = counts.counts[dim]?.map fun count =>
      if dim < k then count else 0 := by
  rcases Nat.lt_or_ge dim counts.counts.length with hlt | hge
  · have hcount := List.getElem?_eq_getElem hlt
    rw [LayoutMap.getElem?_dimensionSizes (h.getElem?_dofsPerEntity (by omega)) hcount, hcount,
      Option.map_some]
    split <;> simp
  · rw [List.getElem?_eq_none hge, List.getElem?_eq_none, Option.map_none]
    simp [dimensionSizes, h.dofsPerEntity_eq]
    omega

/-- The degrees of freedom on an entity come after those on all entities of lower dimension. -/
theorem globalIndex_eq (h : map.IsUniform shape k)
    (hcounts : counts.counts.length = shape.dimension + 1) {dim : Nat} (hk : dim < k)
    (hdim : dim ≤ shape.dimension) (e : Nat) :
    (DofMap.single map).globalIndex counts ⟨0, dim, e, 0⟩ = offset counts.counts dim + e := by
  have hbelow : (map.dimensionSizes counts).take dim = counts.counts.take dim := by
    apply List.ext_getElem?
    intro i
    rw [List.getElem?_take, List.getElem?_take]
    split
    · next hi =>
        have hik : i < k := Nat.lt_trans hi hk
        simp [h.getElem?_dimensionSizes hcounts, hik]
    · rfl
  have hone : map.layout.dofsOn dim = 1 := by
    rw [dofsOn_eq (h.getElem?_dofsPerEntity hdim), if_pos hk]
  have hleaf : (DofMap.single map).leaves[0]? = some map := rfl
  rw [DofMap.globalIndex_eq hleaf, indexOf, hone, offset, offset, offset, hbelow]
  simp

theorem sizeOn_le (h : map.IsUniform shape k)
    (hcounts : counts.counts.length = shape.dimension + 1) :
    DofMap.sizeOn counts (DofMap.single map).leaves ≤ counts.counts.sum := by
  have hle : List.Forall₂ (· ≤ ·) (map.dimensionSizes counts) counts.counts := by
    have hlength : (map.dimensionSizes counts).length = counts.counts.length := by
      simp [dimensionSizes, h.dofsPerEntity_eq, hcounts]
    refine List.forall₂_iff_get.mpr ⟨hlength, ?_⟩
    intro dim hdim hdim'
    have hget := h.getElem?_dimensionSizes hcounts dim
    rw [List.getElem?_eq_getElem hdim, List.getElem?_eq_getElem hdim', Option.map_some,
      Option.some.injEq] at hget
    rw [List.get_eq_getElem, List.get_eq_getElem, hget]
    split
    · exact Nat.le_refl _
    · exact Nat.zero_le _
  simpa [DofMap.sizeOn, DofMap.leaves] using hle.sum_le_sum

end IsUniform
end LayoutMap

/-! ## Boundary nodes -/

namespace Mesh

variable {α : Type} {mesh : Mesh α} {map : LayoutMap α} {k : Nat}

theorem getElem?_entityCounts {dim : Nat} (h : dim ≤ mesh.dimension) :
    mesh.entityCounts.counts[dim]? = some (mesh.table dim).count :=
  Index.entry_eq_ok_iff.mp (numEntities_eq_ok h)

/-- The supported elements have at most six degrees of freedom on a facet, so there is room for
their boundary nodes where there is room for six on each boundary facet. -/
theorem boundaryIsStorable_ofElement [Scalar α] {family : ElementFamily} {shape : Shape}
    {degree : Nat} {layout : DofLayout α} (h : DofLayout.ofElement family shape degree = .ok layout)
    (hroom : 6 * mesh.boundaryFacets.length < Index.capacity) :
    mesh.BoundaryIsStorable (.single (.ofElement h)) := by
  have hsize : (DofMap.single (.ofElement h)).size ≤ 10 := DofLayout.ofElement_size_le h
  have hfacet : (DofMap.single (.ofElement h)).facetSize ≤ 6 :=
    DofLayout.ofElement_facetSize_le h
  have hfound := Nat.mul_le_mul_left mesh.boundaryFacets.length hfacet
  exact ⟨Nat.lt_of_le_of_lt hsize (by decide), by omega, by omega⟩

def OnBoundary (mesh : Mesh α) (dim e : Nat) : Prop :=
  ∃ cell facet, mesh.IsBoundaryFacet cell facet ∧
    mesh.verticesOf dim e ⊆ mesh.facetVertices cell facet

theorem onBoundary_zero_iff {v : Nat} :
    mesh.OnBoundary 0 v ↔
      ∃ cell facet, mesh.IsBoundaryFacet cell facet ∧ v ∈ mesh.facetVertices cell facet := by
  simp [OnBoundary, verticesOf]

theorem WellFormed.onBoundary_facet_iff (hmesh : mesh.WellFormed) (hdim : 1 < mesh.dimension)
    {e : Nat} (he : e < (mesh.table (mesh.dimension - 1)).count) :
    mesh.OnBoundary (mesh.dimension - 1) e ↔
      (mesh.cellsWith (mesh.dimension - 1) e).ncard = 1 := by
  have hle : mesh.dimension - 1 ≤ mesh.dimension := Nat.sub_le _ _
  have hlt : mesh.dimension - 1 < mesh.dimension := Nat.sub_lt mesh.shape.dimension_pos Nat.one_pos
  constructor
  · rintro ⟨cell, facet, hboundary, hwithin⟩
    obtain ⟨index, hentity, hclosure⟩ :=
      (hmesh.verticesOf_subset_iff hlt he hboundary.1 hboundary.2.1).mp hwithin
    rw [Shape.eq_of_facet_mem_facetClosure hboundary.2.1 hclosure] at hentity
    exact (hmesh.isBoundaryFacet_iff hentity).mp hboundary
  · intro hone
    obtain ⟨cell, facet, hentity⟩ := (mem_entityIndices_iff hle).mp
      ((mem_entityIndices_of_pos (Nat.sub_pos_of_lt hdim) hle).mpr he)
    refine ⟨cell, facet, (hmesh.isBoundaryFacet_iff hentity).mpr hone, ?_⟩
    rw [hmesh.verticesOf_eq hlt hentity]
    rfl

/-- The facets on the boundary are counted once each by the cells that they belong to. -/
theorem WellFormed.ncard_facets_onBoundary (hmesh : mesh.WellFormed) (hdim : 1 < mesh.dimension) :
    {e | e < (mesh.table (mesh.dimension - 1)).count ∧
      mesh.OnBoundary (mesh.dimension - 1) e}.ncard = mesh.boundaryFacets.length := by
  rw [hmesh.length_boundaryFacets_eq_card hdim, ← Set.ncard_coe_finset]
  congr 1
  ext e
  rw [Finset.mem_coe, Finset.mem_filter, Finset.mem_range, Set.mem_ofPred_eq]
  exact and_congr_right fun he => hmesh.onBoundary_facet_iff hdim he

/-- The boundary nodes of a space with one degree of freedom per entity are the indices of the
entities on the boundary. -/
theorem WellFormed.boundaryNodes_uniform (hmesh : mesh.WellFormed)
    (hmap : map.IsUniform mesh.shape k) (hbound : mesh.entityCounts.counts.sum < Index.bound)
    (hstorable : mesh.BoundaryIsStorable (.single map)) :
    ∃ nodes, mesh.boundaryNodes (.single map) = .ok nodes ∧ nodes.Pairwise (· < ·) ∧
      ∀ g, g ∈ nodes ↔ ∃ dim < min k mesh.dimension, ∃ e < (mesh.table dim).count,
        mesh.OnBoundary dim e ∧ offset mesh.entityCounts.counts dim + e = g := by
  have hcounts := mesh.length_entityCounts
  refine ⟨_, hmesh.boundaryNodes_eq_ok hmap.isOn
    (Nat.lt_of_le_of_lt (hmap.sizeOn_le hcounts) hbound) hstorable,
    mesh.pairwise_boundaryNodeList _, ?_⟩
  intro g
  rw [mem_boundaryNodeList_iff]
  constructor
  · rintro ⟨⟨cell, facet⟩, hfacet, hg⟩
    have hboundary := hmesh.mem_boundaryFacets_iff.mp hfacet
    obtain ⟨dof, hdof, hindex, hlt, hwithin⟩ :=
      (hmesh.mem_facetNodes_iff hmap.isOn hboundary.1 hboundary.2.1).mp hg
    obtain ⟨hk, -, heq⟩ := (hmap.hasDof_iff hcounts).mp hdof
    refine ⟨dof.dim, Nat.lt_min.mpr ⟨hk, hlt⟩, dof.entity, lt_count_of_hasDof hmap.isOn hdof,
      ⟨cell, facet, hboundary, hwithin⟩, ?_⟩
    rw [heq, hmap.globalIndex_eq hcounts hk (Nat.le_of_lt hlt)] at hindex
    exact hindex
  · rintro ⟨dim, hdim, e, he, ⟨cell, facet, hboundary, hwithin⟩, rfl⟩
    obtain ⟨hk, hlt⟩ := Nat.lt_min.mp hdim
    refine ⟨(cell, facet), hmesh.mem_boundaryFacets_iff.mpr hboundary,
      (hmesh.mem_facetNodes_iff hmap.isOn hboundary.1 hboundary.2.1).mpr
        ⟨⟨0, dim, e, 0⟩, (hmap.hasDof_iff hcounts).mpr ⟨hk, ⟨_, ?_, he⟩, rfl⟩,
          hmap.globalIndex_eq hcounts hk (Nat.le_of_lt hlt) e, hlt, hwithin⟩⟩
    exact getElem?_entityCounts (Nat.le_of_lt hlt)

/-- There is one boundary node for each entity on the boundary that carries one. -/
theorem WellFormed.length_boundaryNodes_uniform (hmesh : mesh.WellFormed)
    (hmap : map.IsUniform mesh.shape k) (hbound : mesh.entityCounts.counts.sum < Index.bound)
    (hstorable : mesh.BoundaryIsStorable (.single map)) :
    ∃ nodes, mesh.boundaryNodes (.single map) = .ok nodes ∧
      nodes.length = ∑ dim ∈ Finset.range (min k mesh.dimension),
        {e | e < (mesh.table dim).count ∧ mesh.OnBoundary dim e}.ncard := by
  classical
  obtain ⟨nodes, hnodes, hsorted, hmem⟩ := hmesh.boundaryNodes_uniform hmap hbound hstorable
  refine ⟨nodes, hnodes, ?_⟩
  let onBoundary (dim : Nat) : Finset Nat :=
    (Finset.range (mesh.table dim).count).filter (mesh.OnBoundary dim)
  have hset : ∀ dim, {e | e < (mesh.table dim).count ∧ mesh.OnBoundary dim e}.ncard =
      (onBoundary dim).card := by
    intro dim
    rw [← Set.ncard_coe_finset]
    congr 1
    ext e
    simp [onBoundary]
  have hunion : nodes.toFinset = (Finset.range (min k mesh.dimension)).biUnion fun dim =>
      (onBoundary dim).image (offset mesh.entityCounts.counts dim + ·) := by
    ext g
    simp only [List.mem_toFinset, hmem, Finset.mem_biUnion, Finset.mem_range, Finset.mem_image,
      onBoundary, Finset.mem_filter, and_assoc]
  -- indices on entities of different dimensions lie in different blocks
  have hdisjoint : (Finset.range (min k mesh.dimension) : Set Nat).PairwiseDisjoint fun dim =>
      (onBoundary dim).image (offset mesh.entityCounts.counts dim + ·) := by
    intro dim hdim dim' hdim' hne
    rw [Function.onFun, Finset.disjoint_left]
    intro g hg hg'
    obtain ⟨e, he, rfl⟩ := Finset.mem_image.mp hg
    obtain ⟨e', he', heq⟩ := Finset.mem_image.mp hg'
    have hle := (Nat.lt_min.mp (Finset.mem_range.mp hdim)).2
    have hle' := (Nat.lt_min.mp (Finset.mem_range.mp hdim')).2
    exact hne ((offset_add_inj (getElem?_entityCounts (Nat.le_of_lt hle))
      (getElem?_entityCounts (Nat.le_of_lt hle'))
      (Finset.mem_range.mp (Finset.mem_filter.mp he).1)
      (Finset.mem_range.mp (Finset.mem_filter.mp he').1)).mp heq.symm).1
  rw [← List.toFinset_card_of_nodup (hsorted.imp Nat.ne_of_lt), hunion,
    Finset.card_biUnion hdisjoint]
  apply Finset.sum_congr rfl
  intro dim _
  rw [hset, Finset.card_image_of_injective _ (add_right_injective _)]

end Mesh
end FiniteElement
