import Mathlib
import FiniteElement.Proofs.DofMap.FacetDofs
import FiniteElement.Proofs.Samples

/-! # Facet tables

The degrees of freedom on a facet are found from the offsets of the entities in its
closure, the nodes of a cell by walking all its entities. Both agree for every
layout: what a space writes for a facet are the places in its local order whose
entity has all its vertices in the facet. All facets have equally many, so a buffer
of the size of facet 0 is filled by each of them.
-/

namespace FiniteElement

/-- A degree of freedom sits on an entity below the dimension of the cell that has all its vertices
among those of a facet. -/
def Dof.IsOnFacet (dof : Dof) (shape : Shape) (facet : Nat) : Prop :=
  dof.dim < shape.dimension ∧ ∃ entity vertices,
    shape.entityVertices dof.dim dof.entity = .ok entity ∧
    shape.entityVertices (shape.dimension - 1) facet = .ok vertices ∧
    ∀ v ∈ entity, v ∈ vertices

namespace Shape

/-- The closure of a facet holds the entities whose vertices belong to it. -/
theorem mem_facetClosure_iff_isOnFacet {shape : Shape} {facet : Nat} (h : facet < shape.numFacets)
    {dof : Dof} : (dof.dim, dof.entity) ∈ shape.facetClosure facet ↔ dof.IsOnFacet shape facet := by
  have hvertices : shape.entityVertices (shape.dimension - 1) facet =
      .ok (shape.facetVertices facet) :=
    entityVertices_eq_ok_iff.mpr (getElem?_facets h)
  rw [mem_facetClosure_iff]
  unfold Dof.IsOnFacet
  rw [hvertices]
  constructor
  · intro ⟨hdim, entity, hentity, hall⟩
    exact ⟨hdim, entity, _, entityVertices_eq_ok_iff.mpr hentity, rfl, hall⟩
  · intro ⟨hdim, entity, vertices, hentity, heq, hall⟩
    cases heq
    exact ⟨hdim, entity, entityVertices_eq_ok_iff.mp hentity, hall⟩

end Shape

namespace LayoutMap

variable {α : Type}

/-- A layout whose degrees of freedom on a cell can be counted has a dof map if those on its facets
can be stored, on one facet as on any other. -/
theorem exists_ofLayout_iff {layout : DofLayout α}
    (hlength : layout.dofsPerEntity.length = layout.shape.dimension + 1)
    (hsize : layout.size < Index.bound) :
    (∃ map, ofLayout layout = .ok map) ↔ ∀ facet < layout.shape.numFacets,
      Block.total (layout.facetBlocks facet) < Index.capacity := by
  constructor
  · intro ⟨map, hmap⟩ facet hfacet
    have hlayout := ofLayout_eq_ok_iff.mp hmap
    rw [← hlayout] at hfacet ⊢
    rw [total_facetBlocks hfacet]
    exact map.storable
  · intro hall
    exact ⟨⟨layout, by omega, hsize, hall 0 (Nat.succ_pos _)⟩, ofLayout_eq_ok_iff.mpr rfl⟩

end LayoutMap

namespace DofMap

variable {α : Type} {map : DofMap α} {shape : Shape}

/-- Each leaf fills a buffer of its own, and a space lays these lists out one after the other, each
shifted by the local dimensions of the leaves before. -/
theorem exists_parts_facetDofs (hmap : map.IsOn shape) {facet : Nat}
    (hfacet : facet < shape.numFacets) :
    ∃ parts : List (List Nat),
      map.leaves.mapM (fun leaf => leaf.writeFacetDofs facet
        (List.replicate leaf.facetDimension 0)) = .ok parts ∧
      map.facetDofs facet = parts.zipIdx.flatMap fun (part, i) =>
        part.map (offset (map.leaves.map fun leaf => leaf.layout.size) i + ·) := by
  refine ⟨map.leaves.map fun leaf => leaf.facetDofs facet, ?_, ?_⟩
  · apply Checked.mapM_eq_ok_map
    intro leaf hleaf
    rw [← (hmap leaf hleaf).1] at hfacet
    exact LayoutMap.writeFacetDofs_eq_ok hfacet List.length_replicate
  · rw [facetDofs, shiftedFrom_eq_flatMap]
    simp only [Nat.zero_add]

/-- A space that fills a buffer has a size, whatever the facet. -/
theorem exists_localDimension_of_writeFacetDofs {facet : Nat} (hmap : map.IsOn shape)
    (hfacet : facet < shape.numFacets) {buffer dofs : List Nat}
    (hroom : map.facetDimension = .ok buffer.length)
    (hwrite : map.writeFacetDofs facet buffer = .ok dofs) :
    ∃ size, map.localDimension = .ok size := by
  obtain ⟨hlt, heq⟩ := Index.guard_eq_ok_iff.mp hroom
  rw [facetSize_eq] at hlt heq
  have hleaves : ∀ leaf ∈ map.leaves, facet < leaf.layout.shape.numFacets := by
    intro leaf hleaf
    rwa [(hmap leaf hleaf).1]
  rw [writeFacetDofs_eq_guarded map hleaves hlt buffer heq.symm, ← size_eq] at hwrite
  split at hwrite
  · next hsize => exact ⟨map.size, Index.guard_of_lt hsize⟩
  · cases hwrite

/-- The nodes that a space writes for a cell are those of its local degrees of freedom, in their
order. -/
theorem getElem?_of_writeNodes (hmap : map.IsOn shape) {mesh : EntityCounts} {cell : CellView α}
    (hcell : cell.Fits shape mesh) {n size : Nat} (hn : map.globalDimension mesh = .ok n)
    (hsize : map.localDimension = .ok size) {buffer : List Nat} (hroom : size ≤ buffer.length) :
    ∃ nodes, map.writeNodes mesh cell buffer = .ok nodes ∧
      ∀ (i : Nat) (dof : Dof), map.localDofs[i]? = some dof →
        nodes[i]? = some (map.globalIndex mesh (dof.onCell cell.entities)) := by
  obtain ⟨hglobal, -⟩ := (globalDimension_eq_ok_iff hcell.length_counts map hmap n).mp hn
  obtain ⟨hlocal, hlength⟩ := Index.guard_eq_ok_iff.mp hsize
  rw [size_eq] at hlocal hlength
  refine ⟨_, writeNodes_eq_ok hcell map hmap hglobal hlocal buffer (by omega), ?_⟩
  intro i dof hi
  have hlt := (List.getElem?_eq_some_iff.mp hi).1
  rw [nodesFrom_eq_map hcell hmap, List.getElem?_append_left (by simpa using hlt),
    List.getElem?_map, hi, Option.map_some]

/-- A layout has a dof map where the degrees of freedom on its facets can be stored. On every space
of such layouts whose local dimension is an index, each facet fills a buffer of the same size, with
the places in the local order of the nodes whose entity lies in the facet, in increasing order and
leaf after leaf. A space without such a local dimension writes no facet. -/
theorem facetDofs_cover_closure :
    (∀ layout : DofLayout α, layout.dofsPerEntity.length = layout.shape.dimension + 1 →
      layout.size < Index.bound →
      ((∃ map, LayoutMap.ofLayout layout = .ok map ∧ (single map).IsOn layout.shape ∧
          (single map).localDimension = .ok layout.size) ↔
        ∀ facet < layout.shape.numFacets,
          Block.total (layout.facetBlocks facet) < Index.capacity)) ∧
    ∀ (shape : Shape) (map : DofMap α), map.IsOn shape →
      (∀ size, map.localDimension = .ok size →
        (∃ n, map.facetDimension = .ok n ∧ ∀ facet < shape.numFacets, ∃ dofs parts,
          (∀ buffer : List Nat, buffer.length = n →
            map.writeFacetDofs facet buffer = .ok dofs) ∧
          dofs.length = n ∧ dofs.Pairwise (· < ·) ∧ (∀ i ∈ dofs, i < size) ∧
          (∀ i, i ∈ dofs ↔
            ∃ dof, map.localDofs[i]? = some dof ∧ dof.IsOnFacet shape facet) ∧
          map.leaves.mapM (fun leaf => leaf.writeFacetDofs facet
            (List.replicate leaf.facetDimension 0)) = .ok parts ∧
          dofs = parts.zipIdx.flatMap fun (part, i) =>
            part.map (offset (map.leaves.map fun leaf => leaf.layout.size) i + ·)) ∧
        ∀ (mesh : EntityCounts) (cell : CellView α) (n : Nat), cell.Fits shape mesh →
          map.globalDimension mesh = .ok n → ∀ buffer : List Nat, size ≤ buffer.length →
          ∃ nodes, map.writeNodes mesh cell buffer = .ok nodes ∧
            ∀ (i : Nat) (dof : Dof), map.localDofs[i]? = some dof →
              nodes[i]? = some (map.globalIndex mesh (dof.onCell cell.entities))) ∧
      ∀ facet < shape.numFacets, ∀ buffer dofs : List Nat,
        map.facetDimension = .ok buffer.length → map.writeFacetDofs facet buffer = .ok dofs →
        ∃ size, map.localDimension = .ok size := by
  constructor
  · intro layout hlength hsize
    rw [← LayoutMap.exists_ofLayout_iff hlength hsize]
    constructor
    · intro ⟨map, hmap, _⟩
      exact ⟨map, hmap⟩
    · intro ⟨map, hmap⟩
      have hlayout := LayoutMap.ofLayout_eq_ok_iff.mp hmap
      refine ⟨map, hmap, ?_, ?_⟩
      · rw [isOn_single, LayoutMap.IsOn, hlayout]
        exact ⟨rfl, hlength⟩
      · rw [← hlayout]
        exact Index.guard_of_lt map.fits
  · intro shape map hmap
    refine ⟨?_, fun facet hfacet buffer dofs hroom hwrite =>
      exists_localDimension_of_writeFacetDofs hmap hfacet hroom hwrite⟩
    intro size hsize
    refine ⟨?_, fun mesh cell n hcell hn buffer hroom =>
      getElem?_of_writeNodes hmap hcell hn hsize hroom⟩
    obtain ⟨hlt, heq⟩ := Index.guard_eq_ok_iff.mp hsize
    rw [size_eq] at hlt heq
    have hle := sizeOnFacet_le hmap
    have hn : map.facetDimension = .ok (sizeOnFacet map.leaves) := by
      rw [facetDimension, facetSize_eq, Index.guard_of_lt (by omega)]
    refine ⟨_, hn, ?_⟩
    intro facet hfacet
    obtain ⟨parts, hparts, hdofs⟩ := exists_parts_facetDofs hmap hfacet
    refine ⟨map.facetDofs facet, parts, ?_, length_facetDofs hmap hfacet,
      pairwise_facetDofs hmap hfacet, ?_, ?_, hparts, hdofs⟩
    · intro buffer hroom
      exact writeFacetDofs_eq_ok hfacet map hmap hlt buffer hroom
    · intro i hi
      have hbelow := lt_of_mem_facetDofs i hi
      omega
    · intro i
      rw [mem_facetDofs_iff hmap]
      simp only [Shape.mem_facetClosure_iff_isOnFacet hfacet]

/-- Three nested leaves on a triangle. The facet opposite vertex 1 has vertex 2, which the last leaf
numbers 14, but not vertex 1, which it numbers 13. -/
theorem facetDofs_cover_closure_of_three_leaves :
    let edges : DofLayout Rat := ⟨.lagrange, .triangle, 3, [1, 2, 0], []⟩
    let map := Sample.threeLeaves
    map.IsOn .triangle ∧ map.localDimension = .ok 15 ∧ map.facetDimension = .ok 6 ∧
      (∃ map, LayoutMap.ofLayout edges = .ok map) ∧
      ∃ dofs, map.writeFacetDofs 1 (List.replicate 6 9) = .ok dofs ∧ dofs.length = 6 ∧
        14 ∈ dofs ∧ 13 ∉ dofs := by
  intro edges map
  have hmap : map.IsOn .triangle := by decide +kernel
  have hsize : map.localDimension = .ok 15 := by decide +kernel
  have hn : map.facetDimension = .ok 6 := by decide +kernel
  obtain ⟨hlayouts, hspaces⟩ := facetDofs_cover_closure (α := Rat)
  obtain ⟨edges', hedges, -⟩ := (hlayouts edges rfl (by decide)).mpr (by decide)
  obtain ⟨hsized, -⟩ := hspaces .triangle map hmap
  obtain ⟨⟨n, hcount, hfacets⟩, -⟩ := hsized 15 hsize
  obtain ⟨dofs, parts, hwrite, hlength, -, -, hmem, -⟩ := hfacets 1 (by decide)
  rw [hn, Except.ok.injEq] at hcount
  rw [← hcount] at hwrite hlength
  refine ⟨hmap, hsize, hn, ⟨edges', hedges⟩, dofs, hwrite _ List.length_replicate, hlength, ?_, ?_⟩
  · exact (hmem 14).mpr ⟨⟨2, 0, 2, 0⟩, by decide +kernel, by decide, [2], [0, 2], rfl, rfl,
      by decide⟩
  · intro h13
    obtain ⟨dof, hdof, -, entity, vertices, hentity, hvertices, hall⟩ := (hmem 13).mp h13
    have hone : map.localDofs[13]? = some ⟨2, 0, 1, 0⟩ := by decide +kernel
    rw [hone, Option.some.injEq] at hdof
    subst hdof
    cases hentity
    cases hvertices
    exact absurd (hall 1 (by decide)) (by decide)

/-- Degrees of freedom on a facet that are too many to be stored keep a layout of an index of them
from having a dof map, and two spaces in the interior of an interval, neither of them with a degree
of freedom on a facet, are too large side by side. -/
theorem facetDofs_fail_on_wide_spaces :
    let ends : DofLayout Rat := ⟨.lagrange, .interval, 1, [2 ^ 60, 0], []⟩
    let interior := Sample.inside (2 ^ 63) (by decide)
    (ends.dofsPerEntity.length = ends.shape.dimension + 1 ∧ ends.size < Index.bound ∧
      LayoutMap.ofLayout ends = .error .tooManyEntries) ∧
    (DofMap.mixed [.single interior, .single interior]).IsOn .interval ∧
    (DofMap.single interior).localDimension = .ok (2 ^ 63) ∧
    (DofMap.mixed [.single interior, .single interior]).facetDimension = .ok 0 ∧
    (DofMap.mixed [.single interior, .single interior]).writeFacetDofs 0 [] = .error .overflow := by
  intro ends interior
  have hends : LayoutMap.ofLayout ends = .error .tooManyEntries := by
    rw [LayoutMap.ofLayout, dif_pos (by decide), dif_pos (by decide), dif_neg (by decide)]
  exact ⟨⟨rfl, by decide, hends⟩, by decide, by decide, by decide, by decide⟩

end DofMap
end FiniteElement
