import Mathlib
import FiniteElement.Proofs.DofMap.Flatten

/-! # Entities that a space uses

A space says for each dimension whether it uses the entities of that dimension.
What it counts on a mesh and writes for a cell depends on the dimensions that it
uses only: the other dimensions may hold anything. Conversely the number of degrees
of freedom on a mesh does depend on every dimension that the space uses.
-/

namespace FiniteElement

/-- Two meshes of one dimension with a cell each, which agree wherever entities are used. -/
structure AgreeOn {α : Type} (used : Nat → Bool) (mesh mesh' : EntityCounts)
    (cell cell' : CellView α) : Prop where
  length_counts : mesh.counts.length = mesh'.counts.length
  numEntities : ∀ dim, used dim = true → mesh.numEntities dim = mesh'.numEntities dim
  entityIndices : ∀ dim, used dim = true → cell.entityIndices dim = cell'.entityIndices dim

theorem AgreeOn.mono {α : Type} {used used' : Nat → Bool} {mesh mesh' : EntityCounts}
    {cell cell' : CellView α} (h : AgreeOn used mesh mesh' cell cell')
    (hle : ∀ dim, used' dim = true → used dim = true) : AgreeOn used' mesh mesh' cell cell' where
  length_counts := h.length_counts
  numEntities dim hdim := h.numEntities dim (hle dim hdim)
  entityIndices dim hdim := h.entityIndices dim (hle dim hdim)

def EntityCounts.onlyOn (length dim count : Nat) : EntityCounts :=
  ⟨(List.replicate length 0).set dim count⟩

/-- Whether a mesh has a count for a dimension is a matter of its length. -/
theorem EntityCounts.numEntities_bind_const {β : Type} {mesh mesh' : EntityCounts}
    (h : mesh.counts.length = mesh'.counts.length) (dim : Nat) (next : Except Fault β) :
    (mesh.numEntities dim >>= fun _ => next) = mesh'.numEntities dim >>= fun _ => next := by
  rcases Nat.lt_or_ge dim mesh.counts.length with hlt | hge
  · have hlt' : dim < mesh'.counts.length := h ▸ hlt
    rw [numEntities, numEntities, Index.entry_of_lt hlt, Index.entry_of_lt hlt']
    rfl
  · have hge' : mesh'.counts.length ≤ dim := h ▸ hge
    rw [numEntities, numEntities, Index.entry_of_le hge, Index.entry_of_le hge']

namespace LayoutMap

variable {α : Type} {map : LayoutMap α} {mesh mesh' : EntityCounts} {cell cell' : CellView α}

theorem usesEntities_iff {dim : Nat} :
    map.usesEntities dim = true ↔ ∃ n, map.layout.dofsPerEntity[dim]? = some n ∧ n ≠ 0 := by
  rw [usesEntities, decide_eq_true_eq, DofLayout.dofsOn, List.getD_eq_getElem?_getD]
  cases map.layout.dofsPerEntity[dim]? with
  | none => simp
  | some n => simp [Nat.pos_iff_ne_zero]

theorem globalDimension_of_agree (h : AgreeOn map.usesEntities mesh mesh' cell cell') :
    map.globalDimension mesh = map.globalDimension mesh' := by
  have hsizes : (map.layout.dofsPerEntity.zipIdx.mapM fun pair => do
        let count ← mesh.numEntities pair.2
        return pair.1 * count) = map.layout.dofsPerEntity.zipIdx.mapM fun pair => do
        let count ← mesh'.numEntities pair.2
        return pair.1 * count := by
    apply Checked.mapM_congr
    intro ⟨n, dim⟩ hmem
    by_cases hzero : n = 0
    · -- a count that is multiplied by zero matters only in that there is one
      simp only [hzero, Nat.zero_mul]
      exact EntityCounts.numEntities_bind_const h.length_counts dim _
    · have hused := usesEntities_iff.mpr ⟨n, List.mem_zipIdx_iff_getElem?.mp hmem, hzero⟩
      simp only [h.numEntities dim hused]
  rw [globalDimension_eq_bind, hsizes, ← globalDimension_eq_bind]

/-- The counts from a dimension on, where the dimensions with degrees of freedom agree. -/
theorem blocksFrom_of_agree {counts : List Nat} {dim start : Nat}
    (h : ∀ i n, counts[i]? = some n → n ≠ 0 →
      mesh.numEntities (dim + i) = mesh'.numEntities (dim + i) ∧
        cell.entityIndices (dim + i) = cell'.entityIndices (dim + i)) :
    blocksFrom mesh cell dim start counts = blocksFrom mesh' cell' dim start counts := by
  induction counts generalizing dim start with
  | nil => rfl
  | cons n counts ih =>
      have hrest : ∀ i k, counts[i]? = some k → k ≠ 0 →
          mesh.numEntities (dim + 1 + i) = mesh'.numEntities (dim + 1 + i) ∧
            cell.entityIndices (dim + 1 + i) = cell'.entityIndices (dim + 1 + i) := by
        intro i k hk hne
        have hnext := h (i + 1) k (by rwa [List.getElem?_cons_succ]) hne
        rwa [← Nat.add_assoc, Nat.add_right_comm] at hnext
      rw [blocksFrom, blocksFrom]
      by_cases hzero : n = 0
      · rw [if_pos hzero, if_pos hzero, ih hrest]
      · obtain ⟨hcount, hentities⟩ := h 0 n List.getElem?_cons_zero hzero
        rw [Nat.add_zero] at hcount hentities
        simp only [if_neg hzero, hcount, hentities, ih hrest]

theorem writeNodes_of_agree (h : AgreeOn map.usesEntities mesh mesh' cell cell')
    (buffer : List Nat) : map.writeNodes mesh cell buffer = map.writeNodes mesh' cell' buffer := by
  have hblocks : map.blocks mesh cell = map.blocks mesh' cell' := by
    apply blocksFrom_of_agree
    intro dim n hn hne
    have hused := usesEntities_iff.mpr ⟨n, hn, hne⟩
    rw [Nat.zero_add]
    exact ⟨h.numEntities dim hused, h.entityIndices dim hused⟩
  rw [writeNodes, writeNodes, hblocks]

theorem dimensionSizes_onlyOn_zero (map : LayoutMap α) (length dim : Nat) :
    (map.dimensionSizes (.onlyOn length dim 0)).sum = 0 := by
  apply List.sum_eq_zero
  intro size hsize
  obtain ⟨⟨n, d⟩, -, rfl⟩ := List.mem_map.mp hsize
  have hcount : (EntityCounts.onlyOn length dim 0).counts.getD d 0 = 0 := by
    simp [EntityCounts.onlyOn, List.set_replicate_self]
  simp only [hcount, Nat.mul_zero]

/-- A mesh has no fewer degrees of freedom than entities of a dimension that the layout uses. -/
theorem le_sum_dimensionSizes {dim count : Nat} (hused : map.usesEntities dim = true)
    (hcount : mesh.counts[dim]? = some count) : count ≤ (map.dimensionSizes mesh).sum := by
  obtain ⟨n, hn, hne⟩ := usesEntities_iff.mp hused
  calc count ≤ n * count := Nat.le_mul_of_pos_left count (Nat.pos_of_ne_zero hne)
    _ ≤ (map.dimensionSizes mesh).sum :=
      List.le_sum_of_mem (List.mem_of_getElem? (getElem?_dimensionSizes hn hcount))

end LayoutMap

namespace DofMap

variable {α : Type} {mesh mesh' : EntityCounts} {cell cell' : CellView α}

mutual

theorem globalDimension_of_agree (map : DofMap α)
    (h : AgreeOn map.usesEntities mesh mesh' cell cell') :
    map.globalDimension mesh = map.globalDimension mesh' := by
  cases map with
  | single map => exact LayoutMap.globalDimension_of_agree (h.mono fun dim hdim => hdim)
  | mixed components => exact totalGlobalDimension_of_agree components (h.mono fun dim hdim => hdim)

theorem totalGlobalDimension_of_agree (maps : List (DofMap α))
    (h : AgreeOn (someUsesEntities · maps) mesh mesh' cell cell') :
    totalGlobalDimension mesh maps = totalGlobalDimension mesh' maps := by
  cases maps with
  | nil => rfl
  | cons map rest =>
      have hown := globalDimension_of_agree map
        (h.mono fun dim hdim => by rw [someUsesEntities, hdim, Bool.true_or])
      have hothers := totalGlobalDimension_of_agree rest
        (h.mono fun dim hdim => by rw [someUsesEntities, hdim, Bool.or_true])
      rw [totalGlobalDimension, totalGlobalDimension, hown, hothers]

end

mutual

theorem writeNodes_of_agree (map : DofMap α) (h : AgreeOn map.usesEntities mesh mesh' cell cell')
    (buffer : List Nat) : writeNodes mesh cell map buffer = writeNodes mesh' cell' map buffer := by
  cases map with
  | single map => exact LayoutMap.writeNodes_of_agree (h.mono fun dim hdim => hdim) buffer
  | mixed components =>
      exact writeNodesFrom_of_agree components (h.mono fun dim hdim => hdim) 0 buffer

theorem writeNodesFrom_of_agree (maps : List (DofMap α))
    (h : AgreeOn (someUsesEntities · maps) mesh mesh' cell cell') (start : Nat)
    (buffer : List Nat) :
    writeNodesFrom mesh cell maps start buffer = writeNodesFrom mesh' cell' maps start buffer := by
  cases maps with
  | nil => rfl
  | cons map rest =>
      have hfirst : AgreeOn map.usesEntities mesh mesh' cell cell' :=
        h.mono fun dim hdim => by rw [someUsesEntities, hdim, Bool.true_or]
      have hrest : AgreeOn (someUsesEntities · rest) mesh mesh' cell cell' :=
        h.mono fun dim hdim => by rw [someUsesEntities, hdim, Bool.or_true]
      -- the shift of the later components comes from the numbers of the earlier ones
      have hcount := globalDimension_of_agree map hfirst
      have hown := writeNodes_of_agree map hfirst
      have hothers := writeNodesFrom_of_agree rest hrest
      simp only [writeNodesFrom, hcount, hown, hothers]

end

/-! ## Used dimensions -/

/-- One entity more in a dimension that a space uses changes its number of degrees of freedom. -/
theorem exists_globalDimension_ne {map : DofMap α} {dim : Nat}
    (hused : map.usesEntities dim = true) :
    ∃ mesh mesh' : EntityCounts, mesh.counts.length = mesh'.counts.length ∧
      (∀ d, d ≠ dim → mesh.numEntities d = mesh'.numEntities d) ∧
      map.globalDimension mesh ≠ map.globalDimension mesh' := by
  rw [usesEntities_eq_any, List.any_eq_true] at hused
  obtain ⟨leaf, hleaf, hused⟩ := hused
  -- enough dimensions for every leaf to find its counts
  let length := dim + 1 + (map.leaves.map fun leaf => leaf.layout.dofsPerEntity.length).sum
  have hlength : ∀ count, (EntityCounts.onlyOn length dim count).counts.length = length := by
    intro count
    simp [EntityCounts.onlyOn]
  have hcovers : ∀ count, ∀ leaf ∈ map.leaves,
      leaf.globalDimension (.onlyOn length dim count) =
        Index.guard (leaf.dimensionSizes (.onlyOn length dim count)).sum := by
    intro count leaf hleaf
    have hle : leaf.layout.dofsPerEntity.length ≤
        (map.leaves.map fun leaf => leaf.layout.dofsPerEntity.length).sum :=
      List.le_sum_of_mem (List.mem_map_of_mem hleaf)
    apply LayoutMap.globalDimension_eq_guard
    rw [hlength]
    omega
  have hnone : map.globalDimension (.onlyOn length dim 0) = .ok 0 := by
    rw [globalDimension_eq_ok_iff_leaves]
    refine ⟨map.leaves.map fun _ => 0, Checked.mapM_eq_ok_map fun leaf hleaf => ?_, ?_⟩
    · rw [hcovers 0 leaf hleaf, leaf.dimensionSizes_onlyOn_zero]
      rfl
    · simp [Index.bound]
  have hone : map.globalDimension (.onlyOn length dim 1) ≠ .ok 0 := by
    rw [Ne, globalDimension_eq_ok_iff_leaves]
    rintro ⟨counts, hcounts, -, hsum⟩
    obtain ⟨count, hcount, hown⟩ := (Checked.exists_of_mapM_eq_ok hcounts).2 leaf hleaf
    rw [hcovers 1 leaf hleaf] at hown
    have hentity : (EntityCounts.onlyOn length dim 1).counts[dim]? = some 1 := by
      have hlt : dim < length := by omega
      simp [EntityCounts.onlyOn, hlt]
    have hpos := LayoutMap.le_sum_dimensionSizes hused hentity
    have hle := List.le_sum_of_mem hcount
    rw [← (Index.guard_eq_ok_iff.mp hown).2] at hle
    omega
  refine ⟨.onlyOn length dim 0, .onlyOn length dim 1, by rw [hlength, hlength], ?_, ?_⟩
  · intro d hd
    simp [EntityCounts.numEntities, EntityCounts.onlyOn, Index.entry, List.getElem?_set_ne hd.symm]
  · rw [hnone]
    exact hone.symm

/-- The entities that a space uses are those that its numbers depend on. Two meshes of one
dimension, each with a cell, that agree on the used dimensions have as many degrees of freedom, and
writing the nodes of the cells leaves the same buffer or fails for both, whatever is listed in the
other dimensions. No dimension is said to be used without need: the number of degrees of freedom
differs on some meshes that differ in this dimension only. -/
theorem used_entities_determine_nodes (map : DofMap α) :
    (∀ (mesh mesh' : EntityCounts) (cell cell' : CellView α),
      AgreeOn map.usesEntities mesh mesh' cell cell' →
        map.globalDimension mesh = map.globalDimension mesh' ∧
        ∀ buffer, map.writeNodes mesh cell buffer = map.writeNodes mesh' cell' buffer) ∧
    ∀ dim, map.usesEntities dim = true →
      ∃ mesh mesh' : EntityCounts, mesh.counts.length = mesh'.counts.length ∧
        (∀ d, d ≠ dim → mesh.numEntities d = mesh'.numEntities d) ∧
        map.globalDimension mesh ≠ map.globalDimension mesh' :=
  ⟨fun _ _ _ _ h => ⟨globalDimension_of_agree map h, writeNodes_of_agree map h⟩,
    fun _ hused => exists_globalDimension_ne hused⟩

/-- Vertices and interiors are used, edges are not: a mesh with many edges and a cell that lists
none of them give the nodes of a mesh without edges and a cell that lists four. -/
theorem used_entities_determine_nodes_without_edges :
    let p1 : DofMap Rat := .single (LayoutMap.p1 .triangle)
    let p0 : DofMap Rat := .single (LayoutMap.p0 .triangle)
    let map : DofMap Rat := .mixed [p0, .mixed [p1, p0]]
    let mesh : EntityCounts := ⟨[4, 2 ^ 63, 2]⟩
    let mesh' : EntityCounts := ⟨[4, 0, 2]⟩
    let cell : CellView Rat := ⟨[[1, 2, 3], [], [1]], #[], 2, by decide, by decide⟩
    let cell' : CellView Rat := ⟨[[1, 2, 3], [9, 9, 9, 9], [1]], #[], 3, by decide, by decide⟩
    AgreeOn map.usesEntities mesh mesh' cell cell' ∧
      map.globalDimension mesh = map.globalDimension mesh' ∧
      map.writeNodes mesh cell [7, 7, 7, 7, 7, 7] = map.writeNodes mesh' cell' [7, 7, 7, 7, 7, 7] ∧
      map.writeNodes mesh' cell' [7, 7, 7, 7, 7, 7] = .ok [1, 3, 4, 5, 7, 7] := by
  intro p1 p0 map mesh mesh' cell cell'
  have hagree : AgreeOn map.usesEntities mesh mesh' cell cell' := by
    refine ⟨rfl, ?_, ?_⟩ <;> intro dim hused <;> match dim, hused with
      | 0, _ => rfl
      | 2, _ => rfl
      | dim + 3, _ => rfl
  obtain ⟨hcount, hnodes⟩ := (used_entities_determine_nodes map).1 mesh mesh' cell cell' hagree
  exact ⟨hagree, hcount, hnodes [7, 7, 7, 7, 7, 7], by decide +kernel⟩

end DofMap
end FiniteElement
