import Mathlib
import FiniteElement.Proofs.Checked
import FiniteElement.Proofs.DofMap.Dof

/-! # Writing the global indices of a cell

A single layout writes one block per entity of the cell, and the components of a
mixed space write one after the other into pieces of the buffer, each shifted by
the global dimensions before it. What is written follows the leaves: the entry
of each local degree of freedom is its global index on the entity of the cell.
-/

namespace FiniteElement

/-- The cell lists the entities of a cell of the shape, and the mesh counts them. -/
structure CellView.Fits {α : Type} (cell : CellView α) (shape : Shape) (mesh : EntityCounts) :
    Prop where
  length_counts : mesh.counts.length = shape.dimension + 1
  exists_row : ∀ dim ≤ shape.dimension, ∃ entities count,
    cell.entities[dim]? = some entities ∧ mesh.counts[dim]? = some count ∧
      entities.length = shape.numEntities dim ∧ ∀ e ∈ entities, e < count

def Dof.onCell (entities : List (List Nat)) (dof : Dof) : Dof :=
  { dof with entity := (entities.getD dof.dim []).getD dof.entity 0 }

namespace LayoutMap

variable {α : Type} {map : LayoutMap α} {shape : Shape} {mesh : EntityCounts} {cell : CellView α}

/-! ## The global dimension -/

theorem globalDimension_eq_bind (map : LayoutMap α) (mesh : EntityCounts) :
    map.globalDimension mesh = (map.layout.dofsPerEntity.zipIdx.mapM fun pair => do
      let count ← mesh.numEntities pair.2
      return pair.1 * count) >>= fun sizes => Index.guard sizes.sum := rfl

/-- On a mesh with a count for every dimension that a layout lists, its degrees of freedom are added
up dimension by dimension. -/
theorem globalDimension_eq_guard (h : map.layout.dofsPerEntity.length ≤ mesh.counts.length) :
    map.globalDimension mesh = Index.guard (map.dimensionSizes mesh).sum := by
  have hsizes : (map.layout.dofsPerEntity.zipIdx.mapM fun pair => do
      let count ← mesh.numEntities pair.2
      return pair.1 * count) = .ok (map.dimensionSizes mesh) := by
    apply Checked.mapM_eq_ok_map
    intro pair hmem
    have hdim := (List.getElem?_eq_some_iff.mp (List.mem_zipIdx_iff_getElem?.mp hmem)).1
    have hlt : pair.2 < mesh.counts.length := Nat.lt_of_lt_of_le hdim h
    have hcount : mesh.numEntities pair.2 = .ok (mesh.counts.getD pair.2 0) := by
      rw [EntityCounts.numEntities, Index.entry_of_lt hlt, List.getD_eq_getElem _ _ hlt]
    simp only [hcount, Checked.ok_bind]
    rfl
  rw [globalDimension_eq_bind, hsizes, Checked.ok_bind]

theorem globalDimension_eq (hmap : map.IsOn shape)
    (hcounts : mesh.counts.length = shape.dimension + 1) :
    map.globalDimension mesh = Index.guard (map.dimensionSizes mesh).sum := by
  apply globalDimension_eq_guard
  rw [hmap.2, hcounts]

theorem lt_of_globalDimension_eq_ok {n : Nat} (h : map.globalDimension mesh = .ok n) :
    n < Index.bound := by
  obtain ⟨sizes, -, hguard⟩ := Checked.bind_eq_ok_iff.mp h
  obtain ⟨hlt, heq⟩ := Index.guard_eq_ok_iff.mp hguard
  rwa [heq] at hlt

/-! ## The nodes of one layout -/

def nodes (map : LayoutMap α) (mesh : EntityCounts) (entities : List (List Nat)) : List Nat :=
  map.layout.dofsPerEntity.zipIdx.flatMap fun (n, dim) =>
    (entities.getD dim []).flatMap fun e => (List.range n).map (map.indexOf mesh dim e)

theorem indices_eq_map {dim n e : Nat} (hn : map.layout.dofsPerEntity[dim]? = some n) :
    (Block.mk (offset (map.dimensionSizes mesh) dim + n * e) n).indices =
      (List.range n).map (map.indexOf mesh dim e) := by
  rw [Block.indices, List.range'_eq_map_range]
  apply List.map_congr_left
  intro position _
  rw [indexOf, dofsOn_eq hn, Nat.add_assoc]

/-- The blocks of one dimension stay below the offset of the next. -/
theorem mapM_checked_eq_ok {start n count : Nat} {entities : List Nat}
    (hlt : ∀ e ∈ entities, e < count) (hbound : start + n * count < Index.bound) :
    (entities.mapM fun e => Block.checked ⟨start + n * e, n⟩) =
      .ok (entities.map fun e => ⟨start + n * e, n⟩) := by
  apply Checked.mapM_eq_ok_map
  intro e he
  have hmul : n * (e + 1) ≤ n * count := Nat.mul_le_mul_left n (hlt e he)
  rw [Nat.mul_succ] at hmul
  have hfits : start + n * e + n ≤ Index.bound := by omega
  simp only [Block.checked, if_pos hfits]

/-- What the blocks of one more dimension are, where they can be written: none without degrees of
freedom, and else one block per entity of the cell, all of them in range. -/
theorem blocksFrom_cons_eq_ok {n dim start : Nat} {counts : List Nat} {blocks : List Block}
    (h : blocksFrom mesh cell dim start (n :: counts) = .ok blocks) :
    (n = 0 ∧ blocksFrom mesh cell (dim + 1) start counts = .ok blocks) ∨
      (n ≠ 0 ∧ ∃ entities count others, cell.entityIndices dim = .ok entities ∧
        (∀ e ∈ entities, start + n * e + n ≤ Index.bound) ∧
        mesh.numEntities dim = .ok count ∧ start + n * count < Index.bound ∧
        blocksFrom mesh cell (dim + 1) (start + n * count) counts = .ok others ∧
        blocks = entities.map (fun e => ⟨start + n * e, n⟩) ++ others) := by
  rw [blocksFrom] at h
  by_cases hzero : n = 0
  · rw [if_pos hzero] at h
    exact Or.inl ⟨hzero, h⟩
  simp only [if_neg hzero, Checked.bind_eq_ok_iff, Checked.pure_eq_ok_iff] at h
  obtain ⟨entities, hentities, own, hown, count, hcount, next, hnext, others, hothers, heq⟩ := h
  obtain ⟨hbound, hnext⟩ := Index.guard_eq_ok_iff.mp hnext
  have hfits : ∀ e ∈ entities, start + n * e + n ≤ Index.bound := by
    intro e he
    obtain ⟨block, -, hchecked⟩ := (Checked.exists_of_mapM_eq_ok hown).2 e he
    rw [Block.checked] at hchecked
    by_contra hgt
    rw [if_neg hgt] at hchecked
    cases hchecked
  have hmap : own = entities.map fun e => ⟨start + n * e, n⟩ := by
    have hchecked : entities.mapM (fun e => Block.checked ⟨start + n * e, n⟩) =
        .ok (entities.map fun e => ⟨start + n * e, n⟩) :=
      Checked.mapM_eq_ok_map fun e he => if_pos (hfits e he)
    rw [hown, Except.ok.injEq] at hchecked
    exact hchecked
  rw [← hnext] at hothers
  exact Or.inr ⟨hzero, entities, count, others, hentities, hfits, hcount, hbound, hothers,
    by rw [← heq, hmap]⟩

/-- Where the blocks of a cell can be written, the offsets between the dimensions are indices. -/
theorem lt_bound_of_blocksFrom {counts : List Nat} {dim start : Nat} {blocks : List Block}
    (h : blocksFrom mesh cell dim start counts = .ok blocks) (hstart : start < Index.bound) :
    start + ((counts.zipIdx dim).map fun entry => entry.1 * mesh.counts.getD entry.2 0).sum <
      Index.bound := by
  induction counts generalizing dim start blocks with
  | nil => exact hstart
  | cons n counts ih =>
      rw [List.zipIdx_cons, List.map_cons, List.sum_cons]
      obtain ⟨hzero, hrest⟩ | ⟨-, entities, count, others, -, -, hcount, hbound, hothers, -⟩ :=
        blocksFrom_cons_eq_ok h
      · rw [hzero, Nat.zero_mul, Nat.zero_add]
        exact ih hrest hstart
      · rw [List.getD_eq_getElem?_getD, Index.entry_eq_ok_iff.mp hcount, Option.getD_some,
          ← Nat.add_assoc]
        exact ih hothers hbound

/-- The blocks from a dimension on, when the blocks of the dimensions before are as they should. -/
theorem blocksFrom_eq_ok (hcell : cell.Fits shape mesh) (hmap : map.IsOn shape)
    (hbound : (map.dimensionSizes mesh).sum < Index.bound) (rest : List Nat) (dim : Nat)
    (hrest : map.layout.dofsPerEntity.drop dim = rest) :
    ∃ blocks,
      blocksFrom mesh cell dim (offset (map.dimensionSizes mesh) dim) rest = .ok blocks ∧
      blocks.flatMap Block.indices = (rest.zipIdx dim).flatMap fun (n, dim) =>
        (cell.entities.getD dim []).flatMap fun e =>
          (List.range n).map (map.indexOf mesh dim e) := by
  induction rest generalizing dim with
  | nil => exact ⟨[], rfl, rfl⟩
  | cons n rest ih =>
      have hn : map.layout.dofsPerEntity[dim]? = some n := by
        have hget := congrArg (fun ns : List Nat => ns[0]?) hrest
        simpa using hget
      have hdim : dim ≤ shape.dimension := by
        have hlt := (List.getElem?_eq_some_iff.mp hn).1
        rw [hmap.2] at hlt
        exact Nat.le_of_lt_succ hlt
      obtain ⟨entities, count, hentities, hcount, -, hlt⟩ := hcell.exists_row dim hdim
      have hnext := offset_succ (getElem?_dimensionSizes hn hcount)
      have htail : map.layout.dofsPerEntity.drop (dim + 1) = rest := by
        rw [← List.tail_drop, hrest, List.tail_cons]
      obtain ⟨others, hothers, hindices⟩ := ih (dim + 1) htail
      have hle := offset_le_sum (map.dimensionSizes mesh) (dim + 1)
      by_cases hzero : n = 0
      · subst hzero
        simp only [Nat.zero_mul, Nat.add_zero] at hnext
        rw [hnext] at hothers
        refine ⟨others, ?_, ?_⟩
        · rw [blocksFrom, if_pos rfl, hothers]
        · rw [hindices, List.zipIdx_cons, List.flatMap_cons]
          simp
      · have hbelow : offset (map.dimensionSizes mesh) dim + n * count < Index.bound := by omega
        have hblocks := mapM_checked_eq_ok hlt hbelow
        have hrow : cell.entityIndices dim = .ok entities :=
          Index.entry_eq_ok_iff.mpr hentities
        have hnum : mesh.numEntities dim = .ok count := Index.entry_eq_ok_iff.mpr hcount
        refine ⟨entities.map (fun e => ⟨offset (map.dimensionSizes mesh) dim + n * e, n⟩) ++ others,
          ?_, ?_⟩
        · rw [blocksFrom, if_neg hzero]
          simp only [hrow, hblocks, hnum, Checked.ok_bind]
          rw [← hnext, Index.guard_of_lt (Nat.lt_of_le_of_lt hle hbound)]
          simp only [hothers, Checked.ok_bind]
          rfl
        · rw [List.flatMap_append, hindices, List.zipIdx_cons, List.flatMap_cons,
            List.flatMap_map]
          simp only [indices_eq_map hn, List.getD_eq_getElem?_getD, hentities, Option.getD_some]

theorem blocks_eq_ok (hcell : cell.Fits shape mesh) (hmap : map.IsOn shape)
    (hbound : (map.dimensionSizes mesh).sum < Index.bound) :
    ∃ blocks, map.blocks mesh cell = .ok blocks ∧
      blocks.flatMap Block.indices = map.nodes mesh cell.entities := by
  have hall := blocksFrom_eq_ok hcell hmap hbound map.layout.dofsPerEntity 0 rfl
  rw [offset_zero] at hall
  exact hall

theorem length_nodes (hcell : cell.Fits shape mesh) (hmap : map.IsOn shape) :
    (map.nodes mesh cell.entities).length = map.layout.size := by
  have hlength : ∀ dim n, map.layout.dofsPerEntity[dim]? = some n →
      ((cell.entities.getD dim []).flatMap fun e =>
        (List.range n).map (map.indexOf mesh dim e)).length =
        n * map.layout.shape.numEntities dim := by
    intro dim n hn
    have hlt := (List.getElem?_eq_some_iff.mp hn).1
    rw [hmap.2] at hlt
    obtain ⟨entities, count, hentities, -, hlen, -⟩ := hcell.exists_row dim (Nat.le_of_lt_succ hlt)
    rw [List.getD_eq_getElem?_getD, hentities, Option.getD_some, List.length_flatMap]
    simp [hlen, hmap.1, Nat.mul_comm]
  rw [nodes, List.length_flatMap, DofLayout.size, DofLayout.sizeBelow]
  congr 1
  apply List.ext_getElem?
  intro dim
  rw [List.getElem?_map, List.getElem?_map, List.getElem?_zipIdx, Nat.zero_add]
  cases hn : map.layout.dofsPerEntity[dim]? with
  | none =>
      rw [List.getElem?_eq_none_iff] at hn
      simp [hn]
  | some n =>
      have hlt := (List.getElem?_eq_some_iff.mp hn).1
      rw [Option.map_some, Option.map_some, hlength dim n hn, List.getElem?_range hlt,
        Option.map_some, dofsOn_eq hn]

theorem lt_of_mem_nodes (hcell : cell.Fits shape mesh) (hmap : map.IsOn shape) :
    ∀ node ∈ map.nodes mesh cell.entities, node < (map.dimensionSizes mesh).sum := by
  intro node hnode
  obtain ⟨⟨n, dim⟩, hdim, hnode⟩ := List.mem_flatMap.mp hnode
  obtain ⟨e, he, hnode⟩ := List.mem_flatMap.mp hnode
  obtain ⟨position, hposition, heq⟩ := List.mem_map.mp hnode
  have hn := List.mem_zipIdx_iff_getElem?.mp hdim
  have hlt := (List.getElem?_eq_some_iff.mp hn).1
  rw [hmap.2] at hlt
  obtain ⟨entities, count, hentities, hcount, -, hall⟩ :=
    hcell.exists_row dim (Nat.le_of_lt_succ hlt)
  rw [List.getD_eq_getElem?_getD, hentities, Option.getD_some] at he
  rw [← heq]
  exact indexOf_lt hn hcount (hall e he) (List.mem_range.mp hposition)

/-- A layout writes its nodes to the front of a buffer with room for them. -/
theorem writeNodes_eq_ok (hcell : cell.Fits shape mesh) (hmap : map.IsOn shape)
    (hbound : (map.dimensionSizes mesh).sum < Index.bound) {buffer : List Nat}
    (hroom : map.layout.size ≤ buffer.length) :
    map.writeNodes mesh cell buffer =
      .ok (map.nodes mesh cell.entities ++ buffer.drop map.layout.size) := by
  obtain ⟨blocks, hblocks, hindices⟩ := blocks_eq_ok hcell hmap hbound
  have htotal : Block.total blocks = map.localDimension := by
    rw [← Block.length_flatMap_indices, hindices, length_nodes hcell hmap, localDimension]
  have hle : ¬ buffer.length < map.localDimension := Nat.not_lt.mpr hroom
  rw [writeNodes, hblocks, Checked.ok_bind, if_neg (not_not.mpr htotal), if_neg hle, hindices,
    localDimension]

end LayoutMap

namespace DofMap

variable {α : Type} {shape : Shape} {mesh : EntityCounts} {cell : CellView α}

/-! ## The nodes of several layouts -/

def sizeOn (mesh : EntityCounts) (leaves : List (LayoutMap α)) : Nat :=
  (leaves.map fun leaf => (leaf.dimensionSizes mesh).sum).sum

def sizeOnCell (leaves : List (LayoutMap α)) : Nat :=
  (leaves.map fun leaf => leaf.layout.size).sum

def nodesFrom (mesh : EntityCounts) (entities : List (List Nat)) :
    Nat → List (LayoutMap α) → List Nat
  | _, [] => []
  | start, leaf :: rest =>
    (leaf.nodes mesh entities).map (start + ·) ++
      nodesFrom mesh entities (start + (leaf.dimensionSizes mesh).sum) rest

theorem sizeOnCell_append (leaves others : List (LayoutMap α)) :
    sizeOnCell (leaves ++ others) = sizeOnCell leaves + sizeOnCell others := by
  simp [sizeOnCell]

theorem nodesFrom_eq (entities : List (List Nat)) (start : Nat) (leaves : List (LayoutMap α)) :
    nodesFrom mesh entities start leaves = shiftedFrom (fun leaf => (leaf.dimensionSizes mesh).sum)
      (fun leaf => leaf.nodes mesh entities) start leaves := by
  induction leaves generalizing start with
  | nil => rfl
  | cons leaf leaves ih => rw [nodesFrom, shiftedFrom, ih]

theorem length_nodesFrom (hcell : cell.Fits shape mesh) (start : Nat)
    {leaves : List (LayoutMap α)} (hleaves : ∀ leaf ∈ leaves, leaf.IsOn shape) :
    (nodesFrom mesh cell.entities start leaves).length = sizeOnCell leaves := by
  rw [nodesFrom_eq, length_shiftedFrom, sizeOnCell]
  apply congrArg List.sum
  apply List.map_congr_left
  intro leaf hleaf
  exact LayoutMap.length_nodes hcell (hleaves leaf hleaf)

/-! ## Sizes -/

mutual

theorem size_eq (map : DofMap α) : map.size = sizeOnCell map.leaves := by
  cases map with
  | single map => simp [size, leaves, sizeOnCell, LayoutMap.localDimension]
  | mixed components =>
      rw [size, leaves]
      exact totalSize_eq components

theorem totalSize_eq (maps : List (DofMap α)) : totalSize maps = sizeOnCell (allLeaves maps) := by
  cases maps with
  | nil => rfl
  | cons map rest => rw [totalSize, allLeaves, sizeOnCell_append, size_eq map, totalSize_eq rest]

end

theorem localDimension_of_lt {map : DofMap α} (h : map.size < Index.capacity) :
    map.localDimension = .ok map.size := by
  have hle : Index.capacity ≤ Index.bound := by decide
  rw [localDimension, Index.guard_of_lt (Nat.lt_of_lt_of_le h hle)]

mutual

/-- The numbers of degrees of freedom of the leaves on a mesh are added up. -/
theorem globalDimension_eq_ok_iff_leaves (mesh : EntityCounts) (map : DofMap α) (n : Nat) :
    map.globalDimension mesh = .ok n ↔ ∃ counts,
      map.leaves.mapM (LayoutMap.globalDimension · mesh) = .ok counts ∧
        counts.sum < Index.bound ∧ counts.sum = n := by
  cases map with
  | single map =>
      rw [globalDimension, leaves, List.mapM_cons, List.mapM_nil]
      constructor
      · intro h
        refine ⟨[n], ?_, ?_, ?_⟩
        · rw [h]
          rfl
        · rw [List.sum_singleton]
          exact LayoutMap.lt_of_globalDimension_eq_ok h
        · exact List.sum_singleton
      · rintro ⟨counts, hcounts, -, hsum⟩
        obtain ⟨own, hown, heq⟩ := Checked.bind_eq_ok_iff.mp hcounts
        cases heq
        rw [hown, ← hsum, List.sum_singleton]
  | mixed components =>
      rw [globalDimension, leaves]
      exact totalGlobalDimension_eq_ok_iff_leaves mesh components n

theorem totalGlobalDimension_eq_ok_iff_leaves (mesh : EntityCounts) (maps : List (DofMap α))
    (n : Nat) :
    totalGlobalDimension mesh maps = .ok n ↔ ∃ counts,
      (allLeaves maps).mapM (LayoutMap.globalDimension · mesh) = .ok counts ∧
        counts.sum < Index.bound ∧ counts.sum = n := by
  cases maps with
  | nil =>
      have hpos : 0 < Index.bound := by decide
      simp [totalGlobalDimension, allLeaves, hpos]
  | cons map rest =>
      have hown := globalDimension_eq_ok_iff_leaves mesh map
      have hothers := totalGlobalDimension_eq_ok_iff_leaves mesh rest
      simp only [totalGlobalDimension, allLeaves, List.mapM_append, Checked.bind_eq_ok_iff,
        Checked.pure_eq_ok_iff, hown, hothers, Index.add_eq_ok_iff]
      constructor
      · rintro ⟨own, ⟨first, hfirst, -, hfirstSum⟩, others, ⟨second, hsecond, -, hsecondSum⟩, hlt,
          heq⟩
        have hsum : (first ++ second).sum = own + others := by
          rw [List.sum_append, hfirstSum, hsecondSum]
        exact ⟨_, ⟨first, hfirst, second, hsecond, rfl⟩, by omega, by omega⟩
      · intro ⟨counts, ⟨first, hfirst, second, hsecond, hcounts⟩, hlt, hsum⟩
        rw [← hcounts, List.sum_append] at hlt hsum
        exact ⟨_, ⟨first, hfirst, by omega, rfl⟩, _, ⟨second, hsecond, by omega, rfl⟩, hlt, hsum⟩

end

theorem globalDimension_eq_ok_iff (hcounts : mesh.counts.length = shape.dimension + 1)
    (map : DofMap α) (hmap : map.IsOn shape) (n : Nat) :
    map.globalDimension mesh = .ok n ↔ sizeOn mesh map.leaves < Index.bound ∧
      sizeOn mesh map.leaves = n := by
  have hleaves : map.leaves.mapM (LayoutMap.globalDimension · mesh) =
      (map.leaves.map fun leaf => (leaf.dimensionSizes mesh).sum).mapM Index.guard := by
    rw [List.mapM_map]
    apply Checked.mapM_congr
    intro leaf hleaf
    exact LayoutMap.globalDimension_eq (hmap leaf hleaf) hcounts
  rw [globalDimension_eq_ok_iff_leaves, hleaves, Index.mapM_guard]
  constructor
  · intro ⟨counts, hok, hlt, hsum⟩
    split at hok
    · cases hok
      exact ⟨hlt, hsum⟩
    · cases hok
  · intro ⟨hlt, hsum⟩
    refine ⟨_, if_pos ?_, hlt, hsum⟩
    intro size hsize
    exact Nat.lt_of_le_of_lt (List.le_sum_of_mem hsize) hlt

/-! ## Writing -/

/-- What each of some layouts counts on a mesh and writes for a cell, by itself. -/
structure LeavesWrite (mesh : EntityCounts) (cell : CellView α) (count : LayoutMap α → Nat)
    (nodes : LayoutMap α → List Nat) (leaves : List (LayoutMap α)) : Prop where
  globalDimension : ∀ leaf ∈ leaves, leaf.globalDimension mesh = .ok (count leaf)
  writeNodes : ∀ leaf ∈ leaves, ∀ buffer : List Nat, leaf.layout.size ≤ buffer.length →
    leaf.writeNodes mesh cell buffer = .ok (nodes leaf ++ buffer.drop leaf.layout.size)
  lt_bound : ∀ leaf ∈ leaves, ∀ node ∈ nodes leaf, node < Index.bound

theorem LeavesWrite.of_subset {count : LayoutMap α → Nat} {nodes : LayoutMap α → List Nat}
    {leaves others : List (LayoutMap α)} (h : LeavesWrite mesh cell count nodes leaves)
    (hsub : others ⊆ leaves) : LeavesWrite mesh cell count nodes others where
  globalDimension := fun leaf hleaf => h.globalDimension leaf (hsub hleaf)
  writeNodes := fun leaf hleaf => h.writeNodes leaf (hsub hleaf)
  lt_bound := fun leaf hleaf => h.lt_bound leaf (hsub hleaf)

section Leaves

variable {count : LayoutMap α → Nat} {nodes : LayoutMap α → List Nat}

mutual

/-- A space writes what its leaves write, shifted by the counts of the leaves before, if all indices
that come of this are in range. -/
theorem writeNodes_eq_guarded (map : DofMap α)
    (h : LeavesWrite mesh cell count nodes map.leaves)
    (hglobal : (map.leaves.map count).sum < Index.bound)
    (hlocal : sizeOnCell map.leaves < Index.bound) (buffer : List Nat)
    (hroom : sizeOnCell map.leaves ≤ buffer.length) :
    writeNodes mesh cell map buffer = (do
      let written ← (shiftedFrom count nodes 0 map.leaves).mapM Index.guard
      return written ++ buffer.drop (sizeOnCell map.leaves)) := by
  cases map with
  | single map =>
      have hown : map ∈ [map] := List.mem_cons_self
      have hlist : shiftedFrom count nodes 0 [map] = nodes map := by simp [shiftedFrom]
      have hsize : sizeOnCell [map] = map.layout.size := by simp [sizeOnCell]
      simp only [leaves, hlist, hsize] at h hroom ⊢
      rw [writeNodes, h.writeNodes map hown buffer hroom,
        Index.mapM_guard_of_lt (h.lt_bound map hown)]
      rfl
  | mixed components =>
      rw [writeNodes]
      simp only [leaves] at h hglobal hlocal hroom ⊢
      exact writeNodesFrom_eq_guarded components h 0 (by omega) hlocal buffer hroom

theorem writeNodesFrom_eq_guarded (maps : List (DofMap α))
    (h : LeavesWrite mesh cell count nodes (allLeaves maps)) (start : Nat)
    (hglobal : start + ((allLeaves maps).map count).sum < Index.bound)
    (hlocal : sizeOnCell (allLeaves maps) < Index.bound) (buffer : List Nat)
    (hroom : sizeOnCell (allLeaves maps) ≤ buffer.length) :
    writeNodesFrom mesh cell maps start buffer = (do
      let written ← (shiftedFrom count nodes start (allLeaves maps)).mapM Index.guard
      return written ++ buffer.drop (sizeOnCell (allLeaves maps))) := by
  cases maps with
  | nil =>
      rw [writeNodesFrom]
      rfl
  | cons map rest =>
      simp only [allLeaves] at h
      have hfirst := h.of_subset (List.subset_append_left _ _)
      have hrest := h.of_subset (List.subset_append_right _ _)
      simp only [allLeaves, List.map_append, List.sum_append, sizeOnCell_append]
        at hglobal hlocal hroom ⊢
      have hsize : map.localDimension = .ok (sizeOnCell map.leaves) := by
        rw [localDimension, size_eq, Index.guard_of_lt (by omega)]
      have hcount : map.globalDimension mesh = .ok (map.leaves.map count).sum :=
        (globalDimension_eq_ok_iff_leaves mesh map _).mpr
          ⟨_, Checked.mapM_eq_ok_map hfirst.globalDimension, by omega, rfl⟩
      have hnext : Index.add start (map.leaves.map count).sum =
          .ok (start + (map.leaves.map count).sum) := Index.guard_of_lt (by omega)
      have hown := writeNodes_eq_guarded map hfirst (by omega) (by omega)
        (buffer.take (sizeOnCell map.leaves)) (by rw [List.length_take]; omega)
      have hempty : (buffer.take (sizeOnCell map.leaves)).drop (sizeOnCell map.leaves) = [] := by
        rw [List.drop_eq_nil_iff, List.length_take]
        omega
      have hshift := Index.mapM_guard_bind_add start (shiftedFrom count nodes 0 map.leaves)
      rw [map_add_shiftedFrom, Nat.add_zero] at hshift
      have hothers := writeNodesFrom_eq_guarded rest hrest (start + (map.leaves.map count).sum)
        (by omega) (by omega) (buffer.drop (sizeOnCell map.leaves))
        (by rw [List.length_drop]; omega)
      have hsplit : Index.split (sizeOnCell map.leaves) buffer = .ok
          (buffer.take (sizeOnCell map.leaves), buffer.drop (sizeOnCell map.leaves)) :=
        Index.split_of_le (by omega)
      simp only [writeNodesFrom, hsize, hsplit, hown, hempty, hcount, hnext, hothers,
        Checked.ok_bind, List.append_nil, bind_pure]
      rw [shiftedFrom_append, List.mapM_append, ← hshift]
      simp only [bind_assoc, pure_bind, List.append_assoc, List.drop_drop]

end

end Leaves

theorem lt_sizeOn_of_mem_nodesFrom (hcell : cell.Fits shape mesh) {start : Nat}
    {leaves : List (LayoutMap α)} (hleaves : ∀ leaf ∈ leaves, leaf.IsOn shape) :
    ∀ node ∈ nodesFrom mesh cell.entities start leaves, node < start + sizeOn mesh leaves := by
  rw [nodesFrom_eq]
  apply lt_of_mem_shiftedFrom
  intro leaf hleaf
  exact LayoutMap.lt_of_mem_nodes hcell (hleaves leaf hleaf)

/-- A space writes its nodes to the front of a buffer with room for them. -/
theorem writeNodes_eq_ok (hcell : cell.Fits shape mesh) (map : DofMap α) (hmap : map.IsOn shape)
    (hglobal : sizeOn mesh map.leaves < Index.bound)
    (hlocal : sizeOnCell map.leaves < Index.bound) (buffer : List Nat)
    (hroom : sizeOnCell map.leaves ≤ buffer.length) :
    writeNodes mesh cell map buffer = .ok
      (nodesFrom mesh cell.entities 0 map.leaves ++ buffer.drop (sizeOnCell map.leaves)) := by
  have hle : ∀ leaf ∈ map.leaves, (leaf.dimensionSizes mesh).sum ≤ sizeOn mesh map.leaves :=
    fun leaf hleaf => List.le_sum_of_mem (List.mem_map_of_mem hleaf)
  have hwrite : LeavesWrite mesh cell (fun leaf => (leaf.dimensionSizes mesh).sum)
      (fun leaf => leaf.nodes mesh cell.entities) map.leaves := by
    constructor
    · intro leaf hleaf
      have hlt := hle leaf hleaf
      rw [LayoutMap.globalDimension_eq (hmap leaf hleaf) hcell.length_counts,
        Index.guard_of_lt (by omega)]
    · intro leaf hleaf own hown
      have hlt := hle leaf hleaf
      exact LayoutMap.writeNodes_eq_ok hcell (hmap leaf hleaf) (by omega) hown
    · intro leaf hleaf node hnode
      have hlt := hle leaf hleaf
      have hnodes := LayoutMap.lt_of_mem_nodes hcell (hmap leaf hleaf) node hnode
      omega
  rw [writeNodes_eq_guarded map hwrite hglobal hlocal buffer hroom, ← nodesFrom_eq,
    Index.mapM_guard_of_lt]
  · rfl
  · intro node hnode
    have hlt := lt_sizeOn_of_mem_nodesFrom hcell hmap node hnode
    omega

/-! ## Meshes whose degrees of freedom can be numbered -/

theorem exists_totalGlobalDimension_of_writeNodesFrom {maps : List (DofMap α)} {start : Nat}
    {buffer nodes : List Nat} (h : writeNodesFrom mesh cell maps start buffer = .ok nodes)
    (hstart : start < Index.bound) :
    ∃ n, totalGlobalDimension mesh maps = .ok n ∧ start + n < Index.bound := by
  induction maps generalizing start buffer nodes with
  | nil => exact ⟨0, rfl, hstart⟩
  | cons map rest ih =>
      simp only [writeNodesFrom, Checked.bind_eq_ok_iff] at h
      obtain ⟨-, -, ⟨own, others⟩, -, -, -, -, -, count, hcount, next, hnext, written, hwritten,
        -⟩ := h
      obtain ⟨hlt, heq⟩ := Index.add_eq_ok_iff.mp hnext
      obtain ⟨sum, hsum, hbound⟩ := ih hwritten (heq ▸ hlt)
      refine ⟨count + sum, ?_, by omega⟩
      rw [totalGlobalDimension, hcount, Checked.ok_bind, hsum, Checked.ok_bind,
        Index.add_eq_ok_iff]
      exact ⟨by omega, rfl⟩

/-- Where the nodes of a cell can be written, the degrees of freedom of the mesh can be numbered. -/
theorem sizeOn_lt_of_writeNodes {map : DofMap α}
    (hcounts : mesh.counts.length = shape.dimension + 1) (hmap : map.IsOn shape)
    {buffer nodes : List Nat} (h : map.writeNodes mesh cell buffer = .ok nodes) :
    sizeOn mesh map.leaves < Index.bound := by
  have hpos : 0 < Index.bound := by decide
  cases map with
  | single map =>
      rw [writeNodes, LayoutMap.writeNodes, Checked.bind_eq_ok_iff] at h
      obtain ⟨blocks, hblocks, -⟩ := h
      have hlt := LayoutMap.lt_bound_of_blocksFrom hblocks hpos
      rw [Nat.zero_add] at hlt
      simpa [sizeOn, leaves, LayoutMap.dimensionSizes] using hlt
  | mixed components =>
      rw [writeNodes] at h
      obtain ⟨n, hn, -⟩ := exists_totalGlobalDimension_of_writeNodesFrom h hpos
      exact ((globalDimension_eq_ok_iff hcounts (mixed components) hmap n).mp hn).1

end DofMap
end FiniteElement
