import Mathlib
import FiniteElement.Proofs.DofMap.LocalDofs
import FiniteElement.Proofs.Mesh.Entities

/-! # Degrees of freedom on a facet

The local degrees of freedom that a space writes for a facet are those on the
entities in its closure. For the components of a mixed space they are shifted by
the local dimensions before them, as the local order is.
-/

namespace FiniteElement

theorem Block.mem_indices_mk {start size i : Nat} :
    i ∈ (Block.mk start size).indices ↔ start ≤ i ∧ i < start + size :=
  List.mem_range'_1

/-! ## Offsets of entities -/

namespace DofLayout

variable {α : Type} {layout : DofLayout α}

theorem sizeBelow_succ (layout : DofLayout α) (dim : Nat) :
    layout.sizeBelow (dim + 1) =
      layout.sizeBelow dim + layout.dofsOn dim * layout.shape.numEntities dim := by
  simp only [sizeBelow, ← List.sum_eq_foldr]
  simp [List.range_succ]

theorem sizeBelow_mono {dim dim' : Nat} (h : dim ≤ dim') :
    layout.sizeBelow dim ≤ layout.sizeBelow dim' := by
  induction h with
  | refl => exact Nat.le_refl _
  | step _ ih =>
      rw [sizeBelow_succ]
      omega

/-- The degrees of freedom of an entity end before those of any later entity begin. -/
theorem entityOffset_add_le {dim index dim' index' : Nat}
    (hindex : index < layout.shape.numEntities dim)
    (hlater : dim < dim' ∨ dim = dim' ∧ index < index') :
    layout.entityOffset dim index + layout.dofsOn dim ≤ layout.entityOffset dim' index' := by
  unfold entityOffset
  rcases hlater with hdim | ⟨rfl, hlt⟩
  · have hmono := layout.sizeBelow_mono (Nat.succ_le_of_lt hdim)
    have hown : layout.dofsOn dim * (index + 1) ≤
        layout.dofsOn dim * layout.shape.numEntities dim := Nat.mul_le_mul_left _ hindex
    rw [Nat.succ_eq_add_one, sizeBelow_succ] at hmono
    rw [Nat.mul_succ] at hown
    omega
  · have hnext : layout.dofsOn dim * (index + 1) ≤ layout.dofsOn dim * index' :=
      Nat.mul_le_mul_left _ hlt
    rw [Nat.mul_succ] at hnext
    omega

end DofLayout

/-! ## Places in the local order -/

namespace LayoutMap

variable {α : Type} {map : LayoutMap α} {shape : Shape}

def localSizes (map : LayoutMap α) : List Nat :=
  map.layout.dofsPerEntity.zipIdx.map fun (n, dim) => n * map.layout.shape.numEntities dim

theorem getElem?_localSizes {dim n : Nat} (hn : map.layout.dofsPerEntity[dim]? = some n) :
    map.localSizes[dim]? = some (n * map.layout.shape.numEntities dim) := by
  simp [localSizes, List.getElem?_zipIdx, hn]

theorem sizeBelow_eq_offset {dim : Nat} (h : dim ≤ map.layout.dofsPerEntity.length) :
    map.layout.sizeBelow dim = offset map.localSizes dim := by
  induction dim with
  | zero => rfl
  | succ dim ih =>
      have hn := List.getElem?_eq_getElem (show dim < map.layout.dofsPerEntity.length from h)
      rw [DofLayout.sizeBelow_succ, ih (Nat.le_of_succ_le h),
        offset_succ (getElem?_localSizes hn), ← dofsOn_eq hn]

theorem size_eq_sum (map : LayoutMap α) : map.layout.size = map.localSizes.sum := by
  rw [DofLayout.size, sizeBelow_eq_offset (Nat.le_refl _), ← offset_length]
  congr 1
  simp [localSizes]

theorem map_length_blocks (map : LayoutMap α) (leaf : Nat) :
    (map.layout.dofsPerEntity.zipIdx.map fun (n, dim) =>
      (List.range (map.layout.shape.numEntities dim)).flatMap fun entity =>
        (List.range n).map fun position => Dof.mk leaf dim entity position).map List.length =
      map.localSizes := by
  rw [localSizes, List.map_map]
  apply List.map_congr_left
  intro ⟨n, dim⟩ _
  simp [List.length_flatMap, Nat.mul_comm]

theorem length_localDofs (map : LayoutMap α) (leaf : Nat) :
    (map.localDofs leaf).length = map.layout.size := by
  rw [size_eq_sum, ← map_length_blocks map leaf, localDofs, List.flatMap_def, List.length_flatten]

/-- The place of a local degree of freedom is the offset of its entity plus its position. -/
theorem getElem?_localDofs (leaf : Nat) {dim n entity position : Nat}
    (hn : map.layout.dofsPerEntity[dim]? = some n)
    (hentity : entity < map.layout.shape.numEntities dim) (hposition : position < n) :
    (map.localDofs leaf)[map.layout.entityOffset dim entity + position]? =
      some ⟨leaf, dim, entity, position⟩ := by
  have hdim := (List.getElem?_eq_some_iff.mp hn).1
  have hblock : (map.layout.dofsPerEntity.zipIdx.map fun (n, dim) =>
      (List.range (map.layout.shape.numEntities dim)).flatMap fun entity =>
        (List.range n).map fun position => Dof.mk leaf dim entity position)[dim]? =
      some ((List.range (map.layout.shape.numEntities dim)).map fun entity =>
        (List.range n).map fun position => Dof.mk leaf dim entity position).flatten := by
    simp [List.getElem?_zipIdx, hn, List.flatMap_def]
  have hrows : ∀ row ∈ (List.range (map.layout.shape.numEntities dim)).map (fun entity =>
      (List.range n).map fun position => Dof.mk leaf dim entity position), row.length = n := by
    simp
  have hplace : n * entity + position < ((List.range (map.layout.shape.numEntities dim)).map
      fun entity => (List.range n).map fun position =>
        Dof.mk leaf dim entity position).flatten.length := by
    rw [length_flatten_of_length hrows, List.length_map, List.length_range,
      Nat.mul_comm (map.layout.shape.numEntities dim) n]
    exact mul_add_lt hentity hposition
  have hget := getElem?_flatten_offset hblock hplace
  rw [map_length_blocks, getElem?_flatten_of_length hrows entity hposition] at hget
  rw [DofLayout.entityOffset, dofsOn_eq hn, sizeBelow_eq_offset (Nat.le_of_lt hdim), localDofs,
    List.flatMap_def, Nat.add_assoc, hget]
  simp [hentity, hposition]

theorem getElem?_localDofs_iff {leaf i : Nat} {dof : Dof} :
    (map.localDofs leaf)[i]? = some dof ↔ dof ∈ map.localDofs leaf ∧
      i = map.layout.entityOffset dof.dim dof.entity + dof.position := by
  constructor
  · intro hi
    have hmem := List.mem_of_getElem? hi
    obtain ⟨hleaf, n, hn, hentity, hposition⟩ := mem_localDofs_iff.mp hmem
    have hget := getElem?_localDofs leaf hn hentity hposition
    rw [← hleaf] at hget
    refine ⟨hmem, ?_⟩
    have hlt := (List.getElem?_eq_some_iff.mp hi).1
    rw [← hleaf] at hi hlt
    exact (List.getElem?_inj hlt (map.nodup_localDofs _)).mp (hi.trans hget.symm)
  · intro ⟨hmem, hi⟩
    obtain ⟨hleaf, n, hn, hentity, hposition⟩ := mem_localDofs_iff.mp hmem
    rw [hi, getElem?_localDofs leaf hn hentity hposition, ← hleaf]

/-! ## Facets of one layout -/

def facetDofs (map : LayoutMap α) (facet : Nat) : List Nat :=
  (map.layout.facetBlocks facet).flatMap Block.indices

theorem total_facetBlocks {facet : Nat} (h : facet < map.layout.shape.numFacets) :
    Block.total (map.layout.facetBlocks facet) = map.layout.facetSize := by
  have htotal : ∀ facet, Block.total (map.layout.facetBlocks facet) =
      (((map.layout.shape.facetClosure facet).map Prod.fst).map map.layout.dofsOn).sum := by
    intro facet
    simp [Block.total, DofLayout.facetBlocks, List.sum_eq_foldr, Function.comp_def]
  rw [htotal, Shape.map_fst_facetClosure h, ← htotal]
  rfl

theorem length_facetDofs {facet : Nat} (h : facet < map.layout.shape.numFacets) :
    (map.facetDofs facet).length = map.layout.facetSize := by
  rw [facetDofs, Block.length_flatMap_indices, total_facetBlocks h]

theorem writeFacetDofs_eq_ok {facet : Nat} (h : facet < map.layout.shape.numFacets)
    {buffer : List Nat} (hroom : buffer.length = map.layout.facetSize) :
    map.writeFacetDofs facet buffer = .ok (map.facetDofs facet) := by
  have htotal : ¬ Block.total (map.layout.facetBlocks facet) ≠ buffer.length := by
    rw [total_facetBlocks h, hroom]
    simp
  rw [writeFacetDofs, if_neg (Nat.not_le.mpr h), if_neg htotal, facetDofs]

/-- A layout writes the local degrees of freedom of the entities in the closure of the facet. -/
theorem mem_facetDofs_iff (hmap : map.IsOn shape) (leaf : Nat) {facet i : Nat} :
    i ∈ map.facetDofs facet ↔ ∃ dof, (map.localDofs leaf)[i]? = some dof ∧
      (dof.dim, dof.entity) ∈ shape.facetClosure facet := by
  obtain ⟨hshape, hlength⟩ := hmap
  simp only [facetDofs, DofLayout.facetBlocks, List.mem_flatMap, List.mem_map, Prod.exists,
    hshape]
  constructor
  · rintro ⟨block, ⟨dim, entity, hclosure, rfl⟩, hi⟩
    obtain ⟨hdim, vertices, hentity, -⟩ := Shape.mem_facetClosure_iff.mp hclosure
    have hn := List.getElem?_eq_getElem
      (show dim < map.layout.dofsPerEntity.length by omega)
    have hlt := (List.getElem?_eq_some_iff.mp hentity).1
    rw [Block.mem_indices_mk, dofsOn_eq hn] at hi
    have hget := getElem?_localDofs leaf hn (by rw [hshape]; exact hlt)
      (show i - map.layout.entityOffset dim entity < _ by omega)
    rw [Nat.add_sub_cancel' hi.1] at hget
    exact ⟨_, hget, hclosure⟩
  · rintro ⟨dof, hget, hclosure⟩
    obtain ⟨hmem, hi⟩ := getElem?_localDofs_iff.mp hget
    obtain ⟨-, n, hn, -, hposition⟩ := mem_localDofs_iff.mp hmem
    refine ⟨_, ⟨dof.dim, dof.entity, hclosure, rfl⟩, ?_⟩
    rw [Block.mem_indices_mk, dofsOn_eq hn]
    omega

/-- A layout writes the local degrees of freedom of a facet in increasing order. -/
theorem pairwise_facetDofs {facet : Nat} (h : facet < map.layout.shape.numFacets) :
    (map.facetDofs facet).Pairwise (· < ·) := by
  rw [facetDofs, DofLayout.facetBlocks, List.flatMap_map, List.pairwise_flatMap]
  refine ⟨fun entity _ => List.pairwise_lt_range', ?_⟩
  refine (Shape.pairwise_facetClosure h).imp_of_mem ?_
  intro entity entity' hentity _ hlater i hi j hj
  obtain ⟨-, vertices, hlocal, -⟩ := Shape.mem_facetClosure_iff.mp hentity
  have hindex := (List.getElem?_eq_some_iff.mp hlocal).1
  have hle := map.layout.entityOffset_add_le hindex hlater
  rw [Block.mem_indices_mk] at hi hj
  omega

/-- The local degrees of freedom of a facet are among those of the cell. -/
theorem lt_size_of_mem_facetDofs {facet i : Nat} (h : i ∈ map.facetDofs facet) :
    i < map.layout.size := by
  obtain ⟨block, hblock, hi⟩ := List.mem_flatMap.mp h
  obtain ⟨⟨dim, entity⟩, hclosure, rfl⟩ := List.mem_map.mp hblock
  obtain ⟨hdim, vertices, hentity, -⟩ := Shape.mem_facetClosure_iff.mp hclosure
  have hcovers := map.covers
  have hlater : dim < map.layout.dofsPerEntity.length ∨
      dim = map.layout.dofsPerEntity.length ∧ entity < 0 := Or.inl (by omega)
  have hle := map.layout.entityOffset_add_le (List.getElem?_eq_some_iff.mp hentity).1 hlater
  rw [Block.mem_indices_mk] at hi
  rw [DofLayout.size]
  unfold DofLayout.entityOffset at hle hi
  omega

/-- A facet has no more degrees of freedom than the cell. -/
theorem facetSize_le (hmap : map.IsOn shape) : map.layout.facetSize ≤ map.layout.size := by
  obtain ⟨hshape, hlength⟩ := hmap
  rw [DofLayout.facetSize_eq, DofLayout.size, DofLayout.sizeBelow, hlength, hshape]
  cases shape <;>
    simp [Shape.facetClosure_interval, Shape.facetClosure_triangle,
      Shape.facetClosure_tetrahedron, Shape.dimension, Shape.numEntities, Shape.entities,
      List.range_succ] <;>
    omega

end LayoutMap

/-! ## Facets of several layouts -/

namespace DofMap

variable {α : Type} {map : DofMap α} {shape : Shape}

def facetDofs (map : DofMap α) (facet : Nat) : List Nat :=
  shiftedFrom (fun leaf => leaf.layout.size) (fun leaf => leaf.facetDofs facet) 0 map.leaves

def sizeOnFacet (leaves : List (LayoutMap α)) : Nat :=
  (leaves.map fun leaf => leaf.layout.facetSize).sum

mutual

theorem facetSize_eq (map : DofMap α) : map.facetSize = sizeOnFacet map.leaves := by
  cases map with
  | single map => simp [facetSize, leaves, sizeOnFacet, LayoutMap.facetDimension]
  | mixed components =>
      rw [facetSize, leaves]
      exact totalFacetSize_eq components

theorem totalFacetSize_eq (maps : List (DofMap α)) :
    totalFacetSize maps = sizeOnFacet (allLeaves maps) := by
  cases maps with
  | nil => rfl
  | cons map rest =>
      rw [totalFacetSize, allLeaves, sizeOnFacet, List.map_append, List.sum_append,
        facetSize_eq map, totalFacetSize_eq rest, sizeOnFacet, sizeOnFacet]

end

theorem sizeOnFacet_le {leaves : List (LayoutMap α)} (hleaves : ∀ leaf ∈ leaves, leaf.IsOn shape) :
    sizeOnFacet leaves ≤ sizeOnCell leaves :=
  List.sum_le_sum fun leaf hleaf => LayoutMap.facetSize_le (hleaves leaf hleaf)

/-- If the local degrees of freedom can be stored, those of a facet can. -/
theorem facetDimension_of_lt (hmap : map.IsOn shape) (h : map.size < Index.capacity) :
    map.facetDimension = .ok (sizeOnFacet map.leaves) ∧
      sizeOnFacet map.leaves < Index.capacity := by
  have hle : Index.capacity ≤ Index.bound := by decide
  have hfacet := sizeOnFacet_le hmap
  rw [size_eq] at h
  rw [facetDimension, facetSize_eq, Index.guard_of_lt (by omega)]
  exact ⟨rfl, by omega⟩

theorem map_length_localDofs (map : DofMap α) :
    (map.leaves.zipIdx.map fun (leaf, i) => leaf.localDofs i).map List.length =
      map.leaves.map fun leaf => leaf.layout.size := by
  rw [List.map_map]
  nth_rewrite 2 [← List.zipIdx_map_fst 0 map.leaves]
  rw [List.map_map]
  apply List.map_congr_left
  intro ⟨leaf, i⟩ _
  exact leaf.length_localDofs i

/-- The local degrees of freedom of a leaf follow those of the leaves before it. -/
theorem getElem?_localDofs {i r : Nat} {leaf : LayoutMap α} (hleaf : map.leaves[i]? = some leaf)
    (hr : r < leaf.layout.size) :
    map.localDofs[offset (map.leaves.map fun leaf => leaf.layout.size) i + r]? =
      (leaf.localDofs i)[r]? := by
  have hblock : (map.leaves.zipIdx.map fun (leaf, i) => leaf.localDofs i)[i]? =
      some (leaf.localDofs i) := by
    simp [List.getElem?_zipIdx, hleaf]
  rw [localDofs, List.flatMap_def, ← map_length_localDofs]
  exact getElem?_flatten_offset hblock (by rwa [leaf.length_localDofs])

theorem length_localDofs (map : DofMap α) : map.localDofs.length = map.size := by
  rw [localDofs, List.flatMap_def, List.length_flatten, map_length_localDofs, size_eq, sizeOnCell]

/-- A space writes the local degrees of freedom of the entities in the closure of the facet. -/
theorem mem_facetDofs_iff (hmap : map.IsOn shape) {facet i : Nat} :
    i ∈ map.facetDofs facet ↔ ∃ dof, map.localDofs[i]? = some dof ∧
      (dof.dim, dof.entity) ∈ shape.facetClosure facet := by
  rw [facetDofs, mem_shiftedFrom_iff]
  constructor
  · rintro ⟨place, leaf, r, hleaf, hr, rfl⟩
    have hon := hmap leaf (List.mem_of_getElem? hleaf)
    obtain ⟨dof, hdof, hclosure⟩ := (LayoutMap.mem_facetDofs_iff hon place).mp hr
    have hlt := (List.getElem?_eq_some_iff.mp hdof).1
    rw [leaf.length_localDofs] at hlt
    exact ⟨dof, by rw [Nat.zero_add, getElem?_localDofs hleaf hlt, hdof], hclosure⟩
  · rintro ⟨dof, hdof, hclosure⟩
    have hlt := (List.getElem?_eq_some_iff.mp hdof).1
    rw [length_localDofs, size_eq, sizeOnCell] at hlt
    obtain ⟨place, n, r, hn, hr, rfl⟩ := exists_offset_add hlt
    rw [List.getElem?_map, Option.map_eq_some_iff] at hn
    obtain ⟨leaf, hleaf, rfl⟩ := hn
    have hon := hmap leaf (List.mem_of_getElem? hleaf)
    rw [getElem?_localDofs hleaf hr] at hdof
    exact ⟨place, leaf, r, hleaf, (LayoutMap.mem_facetDofs_iff hon place).mpr ⟨dof, hdof, hclosure⟩,
      (Nat.zero_add _).symm⟩

theorem length_facetDofs (hmap : map.IsOn shape) {facet : Nat} (h : facet < shape.numFacets) :
    (map.facetDofs facet).length = sizeOnFacet map.leaves := by
  rw [facetDofs, length_shiftedFrom, sizeOnFacet]
  congr 1
  apply List.map_congr_left
  intro leaf hleaf
  rw [← (hmap leaf hleaf).1] at h
  exact LayoutMap.length_facetDofs h

theorem lt_of_mem_facetDofs {leaves : List (LayoutMap α)} {start facet : Nat} :
    ∀ i ∈ shiftedFrom (fun leaf => leaf.layout.size) (fun leaf => leaf.facetDofs facet) start
      leaves, i < start + sizeOnCell leaves :=
  lt_of_mem_shiftedFrom fun _ _ _ => LayoutMap.lt_size_of_mem_facetDofs

/-- A space writes the local degrees of freedom of a facet in increasing order. -/
theorem pairwise_facetDofs (hmap : map.IsOn shape) {facet : Nat} (h : facet < shape.numFacets) :
    (map.facetDofs facet).Pairwise (· < ·) := by
  apply pairwise_shiftedFrom
  · intro leaf _ i hi
    exact LayoutMap.lt_size_of_mem_facetDofs hi
  · intro leaf hleaf
    rw [← (hmap leaf hleaf).1] at h
    exact LayoutMap.pairwise_facetDofs h

/-! ## Writing -/

theorem sizeOnFacet_append (leaves others : List (LayoutMap α)) :
    sizeOnFacet (leaves ++ others) = sizeOnFacet leaves + sizeOnFacet others := by
  simp [sizeOnFacet]

section Leaves

variable {facet start : Nat} {map : DofMap α}

theorem mapM_add_facetDofs (h : start + sizeOnCell map.leaves < Index.bound) :
    (map.facetDofs facet).mapM (Index.add start) =
      .ok (shiftedFrom (fun leaf => leaf.layout.size) (fun leaf => leaf.facetDofs facet) start
        map.leaves) := by
  rw [Index.mapM_add_of_lt, facetDofs, map_add_shiftedFrom, Nat.add_zero]
  intro i hi
  have hlt := lt_of_mem_facetDofs i hi
  omega

/-- The offset of the next component leaves the range, or the size of this one already does. -/
theorem writeFacetDofsFrom_cons_eq_overflow (h : ¬ start + sizeOnCell map.leaves < Index.bound)
    (maps : List (DofMap α)) (buffer : List Nat) :
    writeFacetDofsFrom facet (map :: maps) start buffer = .error .overflow := by
  rw [writeFacetDofsFrom]
  by_cases hsize : sizeOnCell map.leaves < Index.bound
  · rw [localDimension, size_eq, Index.guard_of_lt hsize, Checked.ok_bind, Index.add,
      Index.guard, if_neg h]
    rfl
  · rw [localDimension, size_eq, Index.guard, if_neg hsize]
    rfl

mutual

/-- A space writes the local degrees of freedom of its leaves on a facet, shifted by the sizes of
the leaves before, if these sizes are in range. -/
theorem writeFacetDofs_eq_guarded (map : DofMap α)
    (hfacet : ∀ leaf ∈ map.leaves, facet < leaf.layout.shape.numFacets)
    (hfacets : sizeOnFacet map.leaves < Index.bound) (buffer : List Nat)
    (hroom : buffer.length = sizeOnFacet map.leaves) :
    writeFacetDofs facet map buffer =
      if sizeOnCell map.leaves < Index.bound then .ok (map.facetDofs facet)
      else .error .overflow := by
  cases map with
  | single map =>
      have hlt : sizeOnCell [map] < Index.bound := by
        have hfits := map.fits
        simpa [sizeOnCell] using hfits
      have hroom' : buffer.length = map.layout.facetSize := by
        simpa [leaves, sizeOnFacet] using hroom
      rw [leaves, if_pos hlt, writeFacetDofs,
        LayoutMap.writeFacetDofs_eq_ok (hfacet map List.mem_cons_self) hroom']
      simp [facetDofs, leaves, shiftedFrom]
  | mixed components =>
      have hzero : 0 < Index.bound := by decide
      have hall := writeFacetDofsFrom_eq_guarded components hfacet hfacets 0 hzero buffer hroom
      rw [Nat.zero_add] at hall
      rw [writeFacetDofs, hall]
      rfl

theorem writeFacetDofsFrom_eq_guarded (maps : List (DofMap α))
    (hfacet : ∀ leaf ∈ allLeaves maps, facet < leaf.layout.shape.numFacets)
    (hfacets : sizeOnFacet (allLeaves maps) < Index.bound) (start : Nat)
    (hstart : start < Index.bound) (buffer : List Nat)
    (hroom : buffer.length = sizeOnFacet (allLeaves maps)) :
    writeFacetDofsFrom facet maps start buffer =
      if start + sizeOnCell (allLeaves maps) < Index.bound then
        .ok (shiftedFrom (fun leaf => leaf.layout.size) (fun leaf => leaf.facetDofs facet) start
          (allLeaves maps))
      else .error .overflow := by
  cases maps with
  | nil =>
      rw [writeFacetDofsFrom, List.length_eq_zero_iff.mp hroom]
      exact (if_pos hstart).symm
  | cons map rest =>
      simp only [allLeaves] at hfacet
      have hmap : ∀ leaf ∈ map.leaves, facet < leaf.layout.shape.numFacets := fun leaf hleaf =>
        hfacet leaf (List.mem_append_left _ hleaf)
      have hrest : ∀ leaf ∈ allLeaves rest, facet < leaf.layout.shape.numFacets :=
        fun leaf hleaf => hfacet leaf (List.mem_append_right _ hleaf)
      simp only [allLeaves, sizeOnCell_append, sizeOnFacet_append] at hfacets hroom ⊢
      have hcount : map.facetDimension = .ok (sizeOnFacet map.leaves) := by
        rw [facetDimension, facetSize_eq, Index.guard_of_lt (by omega)]
      have hsplit : Index.split (sizeOnFacet map.leaves) buffer = .ok
          (buffer.take (sizeOnFacet map.leaves), buffer.drop (sizeOnFacet map.leaves)) :=
        Index.split_of_le (by omega)
      have hdofs := writeFacetDofs_eq_guarded map hmap (by omega)
        (buffer.take (sizeOnFacet map.leaves)) (by rw [List.length_take]; omega)
      by_cases hnext : start + sizeOnCell map.leaves < Index.bound
      · have hsize : map.localDimension = .ok (sizeOnCell map.leaves) := by
          rw [localDimension, size_eq, Index.guard_of_lt (by omega)]
        have hadd : Index.add start (sizeOnCell map.leaves) =
            .ok (start + sizeOnCell map.leaves) := Index.guard_of_lt hnext
        have hothers := writeFacetDofsFrom_eq_guarded rest hrest (by omega)
          (start + sizeOnCell map.leaves) hnext (buffer.drop (sizeOnFacet map.leaves))
          (by rw [List.length_drop]; omega)
        rw [if_pos (by omega)] at hdofs
        simp only [writeFacetDofsFrom, hsize, hadd, hcount, hsplit, hdofs,
          mapM_add_facetDofs hnext, hothers, Checked.ok_bind, shiftedFrom_append, ← Nat.add_assoc]
        by_cases htotal : start + sizeOnCell map.leaves + sizeOnCell (allLeaves rest) < Index.bound
        · rw [if_pos htotal, if_pos htotal]
          rfl
        · rw [if_neg htotal, if_neg htotal]
          rfl
      · rw [if_neg (by omega)]
        exact writeFacetDofsFrom_cons_eq_overflow hnext rest buffer

end

end Leaves

/-- A space fills a buffer of its facet dimension. -/
theorem writeFacetDofs_eq_ok {facet : Nat} (hfacet : facet < shape.numFacets) (map : DofMap α)
    (hmap : map.IsOn shape) (hlocal : sizeOnCell map.leaves < Index.bound) (buffer : List Nat)
    (hroom : buffer.length = sizeOnFacet map.leaves) :
    writeFacetDofs facet map buffer = .ok (map.facetDofs facet) := by
  have hle := sizeOnFacet_le hmap
  rw [writeFacetDofs_eq_guarded map ?_ (by omega) buffer hroom, if_pos hlocal]
  intro leaf hleaf
  rwa [(hmap leaf hleaf).1]

end DofMap
end FiniteElement
