import Mathlib
import FiniteElement.Proofs.DofMap.Buffers
import FiniteElement.Proofs.DofMap.FacetDofs
import FiniteElement.Proofs.DofMap.Points

/-! # Flattening nested spaces

The components of a mixed space may be mixed spaces themselves, some of them
without components. What a space writes depends on its leaves only: the shifts
of the levels add up, and the pieces of a buffer for a nested space are the
pieces for its leaves. So a nested space can be replaced by the mixed space of
its leaves, which stand side by side there.
-/

namespace FiniteElement

def CellView.IsWithin {α : Type} (cell : CellView α) (mesh : EntityCounts) : Prop :=
  ∀ dim entities count, cell.entityIndices dim = .ok entities →
    mesh.numEntities dim = .ok count → ∀ e ∈ entities, e < count

/-! ## Leaves by themselves -/

namespace LayoutMap

variable {α : Type} {map : LayoutMap α} {mesh : EntityCounts} {cell : CellView α}

/-- The blocks of a cell with entities of the mesh stay below the number of degrees of freedom. -/
theorem le_sum_of_mem_blocksFrom (hcell : cell.IsWithin mesh) {counts sizes : List Nat}
    {dim start : Nat} {blocks : List Block}
    (h : blocksFrom mesh cell dim start counts = .ok blocks)
    (hsizes : ((counts.zipIdx dim).mapM fun (n, dim) => do
      let count ← mesh.numEntities dim
      return n * count) = .ok sizes) :
    ∀ block ∈ blocks, block.start + block.size ≤ start + sizes.sum := by
  induction counts generalizing dim start blocks sizes with
  | nil =>
      cases h
      simp
  | cons n counts ih =>
      rw [List.zipIdx_cons, List.mapM_cons] at hsizes
      simp only [Checked.bind_eq_ok_iff, Checked.pure_eq_ok_iff] at hsizes
      obtain ⟨first, ⟨count, hcount, hfirst⟩, rest, hrest, hcons⟩ := hsizes
      rw [← hcons, List.sum_cons, ← hfirst]
      intro block hblock
      obtain ⟨-, hskip⟩ | ⟨-, entities, count', others, hentities, -, hcount', -, hothers, heq⟩ :=
        blocksFrom_cons_eq_ok h
      · have hle := ih hskip hrest block hblock
        omega
      rw [hcount, Except.ok.injEq] at hcount'
      rw [← hcount'] at hothers
      rw [heq, List.mem_append] at hblock
      rcases hblock with hmem | hmem
      · obtain ⟨e, he, hown⟩ := List.mem_map.mp hmem
        have hlt := hcell dim entities count hentities hcount e he
        have hmul : n * (e + 1) ≤ n * count := Nat.mul_le_mul_left n hlt
        rw [Nat.mul_succ] at hmul
        rw [← hown]
        dsimp only
        omega
      · have hle := ih hothers hrest block hmem
        omega

theorem le_bound_of_mem_blocksFrom {counts : List Nat} {dim start : Nat} {blocks : List Block}
    (h : blocksFrom mesh cell dim start counts = .ok blocks) :
    ∀ block ∈ blocks, block.start + block.size ≤ Index.bound := by
  induction counts generalizing dim start blocks with
  | nil =>
      cases h
      simp
  | cons n counts ih =>
      obtain ⟨-, hskip⟩ | ⟨-, entities, count, others, -, hfits, -, -, hothers, heq⟩ :=
        blocksFrom_cons_eq_ok h
      · exact ih hskip
      intro block hblock
      rw [heq, List.mem_append] at hblock
      rcases hblock with hmem | hmem
      · obtain ⟨e, he, hown⟩ := List.mem_map.mp hmem
        rw [← hown]
        exact hfits e he
      · exact ih hothers block hmem

/-- A layout fills a buffer of its size with the blocks of the cell. -/
theorem exists_blocks_of_writeNodes {own nodes : List Nat}
    (hlength : own.length = map.localDimension) (h : map.writeNodes mesh cell own = .ok nodes) :
    ∃ blocks, map.blocks mesh cell = .ok blocks ∧ Block.total blocks = map.localDimension ∧
      nodes = blocks.flatMap Block.indices := by
  rw [writeNodes, Checked.bind_eq_ok_iff] at h
  obtain ⟨blocks, hblocks, hwrite⟩ := h
  by_cases htotal : Block.total blocks = map.localDimension
  · rw [if_neg (not_not.mpr htotal), if_neg (by omega),
      List.drop_eq_nil_of_le (Nat.le_of_eq hlength), List.append_nil, Except.ok.injEq] at hwrite
    exact ⟨blocks, hblocks, htotal, hwrite.symm⟩
  · rw [if_pos htotal] at hwrite
    cases hwrite

/-- What a layout writes to a buffer of its size are indices, and it writes the same to the front of
a larger one. -/
theorem writeNodes_of_length_eq {own nodes : List Nat} (hlength : own.length = map.localDimension)
    (h : map.writeNodes mesh cell own = .ok nodes) :
    (∀ buffer : List Nat, map.layout.size ≤ buffer.length →
      map.writeNodes mesh cell buffer = .ok (nodes ++ buffer.drop map.layout.size)) ∧
    ∀ node ∈ nodes, node < Index.bound := by
  obtain ⟨blocks, hblocks, htotal, rfl⟩ := exists_blocks_of_writeNodes hlength h
  constructor
  · intro buffer hroom
    have hle : ¬ buffer.length < map.localDimension := Nat.not_lt.mpr hroom
    rw [writeNodes, hblocks, Checked.ok_bind, if_neg (not_not.mpr htotal), if_neg hle]
    rfl
  · intro node hnode
    obtain ⟨block, hblock, hmem⟩ := List.mem_flatMap.mp hnode
    have hle := le_bound_of_mem_blocksFrom hblocks block hblock
    have hlt := (Block.mem_indices_mk.mp hmem).2
    omega

/-- On a cell with entities of the mesh a layout writes global indices of the mesh. -/
theorem lt_of_writeNodes (hcell : cell.IsWithin mesh) {own nodes : List Nat} {count : Nat}
    (hlength : own.length = map.localDimension) (h : map.writeNodes mesh cell own = .ok nodes)
    (hcount : map.globalDimension mesh = .ok count) : ∀ node ∈ nodes, node < count := by
  obtain ⟨blocks, hblocks, -, rfl⟩ := exists_blocks_of_writeNodes hlength h
  obtain ⟨sizes, hsizes, hguard⟩ := Checked.bind_eq_ok_iff.mp hcount
  have hsum : sizes.sum = count := (Index.guard_eq_ok_iff.mp hguard).2
  intro node hnode
  obtain ⟨block, hblock, hmem⟩ := List.mem_flatMap.mp hnode
  have hle := le_sum_of_mem_blocksFrom hcell hblocks hsizes block hblock
  have hlt := (Block.mem_indices_mk.mp hmem).2
  omega

theorem lt_numFacets_of_writeFacetDofs {facet : Nat} {buffer dofs : List Nat}
    (h : map.writeFacetDofs facet buffer = .ok dofs) : facet < map.layout.shape.numFacets := by
  by_contra hle
  rw [writeFacetDofs, if_pos (Nat.not_lt.mp hle)] at h
  cases h

end LayoutMap

namespace DofMap

variable {α : Type}

def flatten (map : DofMap α) : DofMap α := mixed (map.leaves.map single)

theorem leaves_flatten (map : DofMap α) : map.flatten.leaves = map.leaves :=
  allLeaves_map_single map.leaves

/-! ## Sizes -/

theorem size_flatten (map : DofMap α) : map.flatten.size = map.size := by
  rw [size_eq, size_eq, leaves_flatten]

theorem facetSize_flatten (map : DofMap α) : map.flatten.facetSize = map.facetSize := by
  rw [facetSize_eq, facetSize_eq, leaves_flatten]

mutual

theorem usesEntities_eq_any (dim : Nat) (map : DofMap α) :
    map.usesEntities dim = map.leaves.any (LayoutMap.usesEntities · dim) := by
  cases map with
  | single map => simp [usesEntities, leaves]
  | mixed components =>
      rw [usesEntities, leaves]
      exact someUsesEntities_eq_any dim components

theorem someUsesEntities_eq_any (dim : Nat) (maps : List (DofMap α)) :
    someUsesEntities dim maps = (allLeaves maps).any (LayoutMap.usesEntities · dim) := by
  cases maps with
  | nil => rfl
  | cons map rest =>
      rw [someUsesEntities, allLeaves, List.any_append, usesEntities_eq_any dim map,
        someUsesEntities_eq_any dim rest]

end

theorem globalDimension_flatten_eq_ok_iff (mesh : EntityCounts) (map : DofMap α) (n : Nat) :
    map.flatten.globalDimension mesh = .ok n ↔ map.globalDimension mesh = .ok n := by
  rw [globalDimension_eq_ok_iff_leaves, globalDimension_eq_ok_iff_leaves, leaves_flatten]

/-! ## Nodes -/

section Nodes

variable {mesh : EntityCounts} {cell : CellView α} {map : DofMap α}

theorem exists_leavesWrite {n : Nat} (hglobal : map.globalDimension mesh = .ok n)
    (hnodes : ∀ leaf ∈ map.leaves, ∀ own : List Nat, own.length = leaf.localDimension →
      ∃ nodes, leaf.writeNodes mesh cell own = .ok nodes) :
    ∃ count nodes, LeavesWrite mesh cell count nodes map.leaves ∧
      (map.leaves.map count).sum = n ∧ n < Index.bound := by
  obtain ⟨counts, hcounts, hlt, hsum⟩ := (globalDimension_eq_ok_iff_leaves mesh map n).mp hglobal
  have hcount : ∀ leaf ∈ map.leaves, ∃ count, leaf.globalDimension mesh = .ok count := by
    intro leaf hleaf
    obtain ⟨count, -, hcount⟩ := (Checked.exists_of_mapM_eq_ok hcounts).2 leaf hleaf
    exact ⟨count, hcount⟩
  have hown : ∀ leaf ∈ map.leaves, ∃ nodes,
      leaf.writeNodes mesh cell (List.replicate leaf.localDimension 0) = .ok nodes :=
    fun leaf hleaf => hnodes leaf hleaf _ List.length_replicate
  choose! count hcount using hcount
  choose! nodes hnodes using hown
  refine ⟨count, nodes, ⟨hcount, ?_, ?_⟩, ?_, ?_⟩
  · intro leaf hleaf
    exact (LayoutMap.writeNodes_of_length_eq List.length_replicate (hnodes leaf hleaf)).1
  · intro leaf hleaf
    exact (LayoutMap.writeNodes_of_length_eq List.length_replicate (hnodes leaf hleaf)).2
  · rw [Checked.mapM_eq_ok_map hcount, Except.ok.injEq] at hcounts
    rw [hcounts, hsum]
  · omega

theorem writeNodes_flatten {buffer : List Nat} {n : Nat}
    (hlocal : map.localDimension = .ok buffer.length) (hglobal : map.globalDimension mesh = .ok n)
    (hnodes : ∀ leaf ∈ map.leaves, ∀ own : List Nat, own.length = leaf.localDimension →
      ∃ nodes, leaf.writeNodes mesh cell own = .ok nodes) :
    map.flatten.writeNodes mesh cell buffer = map.writeNodes mesh cell buffer := by
  obtain ⟨count, nodes, hwrite, hsum, hlt⟩ := exists_leavesWrite hglobal hnodes
  obtain ⟨hsize, hroom⟩ := Index.guard_eq_ok_iff.mp hlocal
  rw [size_eq] at hsize hroom
  have hflat : LeavesWrite mesh cell count nodes map.flatten.leaves := by
    rw [leaves_flatten]
    exact hwrite
  rw [writeNodes_eq_guarded map hwrite (by omega) hsize buffer (by omega),
    writeNodes_eq_guarded map.flatten hflat (by rw [leaves_flatten]; omega)
      (by rw [leaves_flatten]; omega) buffer (by rw [leaves_flatten]; omega), leaves_flatten]

theorem exists_writeNodes {buffer : List Nat} {n : Nat}
    (hlocal : map.localDimension = .ok buffer.length) (hglobal : map.globalDimension mesh = .ok n)
    (hnodes : ∀ leaf ∈ map.leaves, ∀ own : List Nat, own.length = leaf.localDimension →
      ∃ nodes, leaf.writeNodes mesh cell own = .ok nodes) (hcell : cell.IsWithin mesh) :
    ∃ nodes, map.writeNodes mesh cell buffer = .ok nodes := by
  obtain ⟨count, nodes, hwrite, hsum, hlt⟩ := exists_leavesWrite hglobal hnodes
  obtain ⟨hsize, hroom⟩ := Index.guard_eq_ok_iff.mp hlocal
  rw [size_eq] at hsize hroom
  have hown : ∀ leaf ∈ map.leaves, ∀ node ∈ nodes leaf, node < count leaf := by
    intro leaf hleaf
    have hlength : (List.replicate leaf.localDimension 0).length = leaf.localDimension :=
      List.length_replicate
    have hleafNodes := hwrite.writeNodes leaf hleaf _ (Nat.le_of_eq hlength.symm)
    have hempty : (List.replicate leaf.localDimension 0).drop leaf.layout.size = [] :=
      List.drop_eq_nil_of_le (Nat.le_of_eq hlength)
    rw [hempty, List.append_nil] at hleafNodes
    exact LayoutMap.lt_of_writeNodes hcell hlength hleafNodes (hwrite.globalDimension leaf hleaf)
  rw [writeNodes_eq_guarded map hwrite (by omega) hsize buffer (by omega), Index.mapM_guard_of_lt]
  · exact ⟨_, rfl⟩
  · intro node hnode
    have hnode' := lt_of_mem_shiftedFrom hown node hnode
    omega

end Nodes

/-! ## Facets -/

section Facets

variable {map : DofMap α} {facet : Nat} {buffer : List Nat}

theorem writeFacetDofs_eq_guarded_of_leaves (hfacets : map.facetDimension = .ok buffer.length)
    (hdofs : ∀ leaf ∈ map.leaves, ∀ own : List Nat, own.length = leaf.facetDimension →
      ∃ dofs, leaf.writeFacetDofs facet own = .ok dofs) :
    map.writeFacetDofs facet buffer =
      if sizeOnCell map.leaves < Index.bound then .ok (map.facetDofs facet)
      else .error .overflow := by
  obtain ⟨hsize, hroom⟩ := Index.guard_eq_ok_iff.mp hfacets
  rw [facetSize_eq] at hsize hroom
  apply writeFacetDofs_eq_guarded map ?_ hsize buffer hroom.symm
  intro leaf hleaf
  obtain ⟨dofs, hwrite⟩ := hdofs leaf hleaf (List.replicate leaf.facetDimension 0)
    List.length_replicate
  exact LayoutMap.lt_numFacets_of_writeFacetDofs hwrite

theorem writeFacetDofs_flatten (hfacets : map.facetDimension = .ok buffer.length)
    (hdofs : ∀ leaf ∈ map.leaves, ∀ own : List Nat, own.length = leaf.facetDimension →
      ∃ dofs, leaf.writeFacetDofs facet own = .ok dofs) :
    map.flatten.writeFacetDofs facet buffer = map.writeFacetDofs facet buffer := by
  have hflat : map.flatten.facetDimension = .ok buffer.length := by
    rw [facetDimension, facetSize_flatten]
    exact hfacets
  rw [writeFacetDofs_eq_guarded_of_leaves hfacets hdofs,
    writeFacetDofs_eq_guarded_of_leaves hflat (by rwa [leaves_flatten]), facetDofs, facetDofs,
    leaves_flatten]

end Facets

/-! ## Flattening -/

/-- A nested space and the mixed space of its leaves have the same numbers of degrees of freedom on
cells, facets and meshes, use the same entities, and write the same to buffers of their exact
lengths, whatever the mesh, the cell and the facet on which the leaves by themselves can write.
Points and facets are always written then, and nodes are if the entities of the cell are among
those of the mesh. -/
theorem flatten_writes_same (map : DofMap α) :
    map.flatten.localDimension = map.localDimension ∧
    map.flatten.facetDimension = map.facetDimension ∧
    (∀ dim, map.flatten.usesEntities dim = map.usesEntities dim) ∧
    (∀ mesh n, map.flatten.globalDimension mesh = .ok n ↔ map.globalDimension mesh = .ok n) ∧
    (∀ (mesh : EntityCounts) (cell : CellView α) (buffer : List Nat) (n : Nat),
      map.localDimension = .ok buffer.length → map.globalDimension mesh = .ok n →
      (∀ leaf ∈ map.leaves, ∀ own : List Nat, own.length = leaf.localDimension →
        ∃ nodes, leaf.writeNodes mesh cell own = .ok nodes) →
      map.flatten.writeNodes mesh cell buffer = map.writeNodes mesh cell buffer ∧
        (cell.IsWithin mesh → ∃ nodes, map.writeNodes mesh cell buffer = .ok nodes)) ∧
    (∀ (facet : Nat) (buffer : List Nat), map.facetDimension = .ok buffer.length →
      (∀ leaf ∈ map.leaves, ∀ own : List Nat, own.length = leaf.facetDimension →
        ∃ dofs, leaf.writeFacetDofs facet own = .ok dofs) →
      map.flatten.writeFacetDofs facet buffer = map.writeFacetDofs facet buffer ∧
        ((∃ size, map.localDimension = .ok size) →
          ∃ dofs, map.writeFacetDofs facet buffer = .ok dofs)) ∧
    (∀ [Scalar α] (cell : CellView α) (buffer : List α) (size : Nat),
      map.localDimension = .ok size → buffer.length = cell.geometricDimension * size →
      (∀ leaf ∈ map.leaves, ∀ own : List α,
        own.length = cell.geometricDimension * leaf.localDimension →
          ∃ points, leaf.writePoints cell own = .ok points) →
      map.flatten.writePoints cell buffer = map.writePoints cell buffer ∧
        ∃ points, map.writePoints cell buffer = .ok points) := by
  refine ⟨?_, ?_, ?_, fun mesh n => globalDimension_flatten_eq_ok_iff mesh map n, ?_, ?_, ?_⟩
  · rw [localDimension, localDimension, size_flatten]
  · rw [facetDimension, facetDimension, facetSize_flatten]
  · intro dim
    rw [usesEntities_eq_any, usesEntities_eq_any, leaves_flatten]
  · intro mesh cell buffer n hlocal hglobal hnodes
    exact ⟨writeNodes_flatten hlocal hglobal hnodes, exists_writeNodes hlocal hglobal hnodes⟩
  · intro facet buffer hfacets hdofs
    refine ⟨writeFacetDofs_flatten hfacets hdofs, ?_⟩
    rintro ⟨size, hsize⟩
    have hlt := (Index.guard_eq_ok_iff.mp hsize).1
    rw [size_eq] at hlt
    exact ⟨_, (writeFacetDofs_eq_guarded_of_leaves hfacets hdofs).trans (if_pos hlt)⟩
  · intro _ cell buffer size hsize hroom hpoints
    obtain ⟨hlt, heq⟩ := Index.guard_eq_ok_iff.mp hsize
    have hleaves := writePoints_eq_leaves map hlt buffer (by rw [hroom, heq])
    rw [hleaves]
    refine ⟨rfl, exists_writePointsFrom_leaves map.leaves hpoints buffer ?_⟩
    rw [hroom, ← heq, size_eq]

/-- Linear, constant and linear functions on one interval, nested with an empty space. -/
theorem flatten_writes_same_of_three_leaves :
    let p1 : LayoutMap Rat := LayoutMap.p1 .interval
    let p0 : LayoutMap Rat := LayoutMap.p0 .interval
    let map : DofMap Rat :=
      .mixed [.mixed [], .mixed [.single p1, .mixed [.single p0]], .single p1]
    let mesh : EntityCounts := ⟨[2, 1]⟩
    let cell : CellView Rat := ⟨[[0, 1], [0]], #[0, 2], 1, by decide, by decide⟩
    map.localDimension = .ok 5 ∧ map.globalDimension mesh = .ok 5 ∧ map.facetDimension = .ok 2 ∧
      map.flatten.writeNodes mesh cell [9, 9, 9, 9, 9] =
        map.writeNodes mesh cell [9, 9, 9, 9, 9] ∧
      map.flatten.writeFacetDofs 1 [9, 9] = map.writeFacetDofs 1 [9, 9] ∧
      map.flatten.writePoints cell [9, 9, 9, 9, 9] = map.writePoints cell [9, 9, 9, 9, 9] := by
  intro p1 p0 map mesh cell
  have hleaves : ∀ leaf ∈ map.leaves, leaf = p1 ∨ leaf = p0 := by
    intro leaf hleaf
    simp only [map, leaves, allLeaves, List.append_nil, List.nil_append, List.cons_append,
      List.mem_cons, List.not_mem_nil, or_false] at hleaf
    tauto
  have hnodes : ∀ leaf ∈ map.leaves, ∀ own : List Nat, own.length = leaf.localDimension →
      ∃ nodes, leaf.writeNodes mesh cell own = .ok nodes := by
    intro leaf hleaf own hown
    rw [LayoutMap.writeNodes_congr hown (List.length_replicate : (List.replicate _ 0).length = _)]
    rcases hleaves leaf hleaf with heq | heq <;> rw [heq] <;> exact ⟨_, rfl⟩
  have hdofs : ∀ leaf ∈ map.leaves, ∀ own : List Nat, own.length = leaf.facetDimension →
      ∃ dofs, leaf.writeFacetDofs 1 own = .ok dofs := by
    intro leaf hleaf own hown
    rcases hleaves leaf hleaf with heq | heq <;> rw [heq] at hown ⊢ <;>
      exact ⟨_, LayoutMap.writeFacetDofs_eq_ok (by decide) hown⟩
  have hpoints : ∀ leaf ∈ map.leaves, ∀ own : List Rat,
      own.length = cell.geometricDimension * leaf.localDimension →
        ∃ points, leaf.writePoints cell own = .ok points := by
    intro leaf hleaf own _
    obtain ⟨simplex, hsimplex, hdim⟩ :
        ∃ simplex, AffineCell.ofCell cell = .ok simplex ∧ simplex.dimension = 1 := ⟨_, rfl, rfl⟩
    have hle : simplex.dimension ≤ leaf.layout.shape.dimension := by
      rcases hleaves leaf hleaf with heq | heq <;> rw [heq, hdim] <;> decide
    exact ⟨_, LayoutMap.writePoints_eq_ok hsimplex hle rfl⟩
  obtain ⟨-, -, -, -, hwriteNodes, hwriteFacets, hwritePoints⟩ := flatten_writes_same map
  have hlocal : map.localDimension = .ok 5 := rfl
  have hglobal : map.globalDimension mesh = .ok 5 := rfl
  have hfacets : map.facetDimension = .ok 2 := by decide +kernel
  exact ⟨hlocal, hglobal, hfacets,
    (hwriteNodes mesh cell [9, 9, 9, 9, 9] 5 hlocal hglobal hnodes).1,
    (hwriteFacets 1 [9, 9] hfacets hdofs).1,
    (hwritePoints cell [9, 9, 9, 9, 9] 5 hlocal rfl hpoints).1⟩

end DofMap
end FiniteElement
