import Mathlib
import FiniteElement.Proofs.DofMap.Tabulation

/-! # Local degrees of freedom

The local degrees of freedom of a cell, in their order and so without repetition.
The nodes that a space writes are their global indices on the entities of the
cell, in this order.
-/

namespace FiniteElement

namespace LayoutMap

variable {α : Type} {map : LayoutMap α} {shape : Shape} {mesh : EntityCounts} {cell : CellView α}

theorem mem_localDofs_iff {leaf : Nat} {dof : Dof} :
    dof ∈ map.localDofs leaf ↔ dof.leaf = leaf ∧ ∃ n,
      map.layout.dofsPerEntity[dof.dim]? = some n ∧
      dof.entity < map.layout.shape.numEntities dof.dim ∧ dof.position < n := by
  simp only [localDofs, List.mem_flatMap, List.mem_map, List.mem_range, Prod.exists,
    List.mem_zipIdx_iff_getElem?]
  constructor
  · intro ⟨n, dim, hn, entity, hentity, position, hposition, heq⟩
    subst heq
    exact ⟨rfl, n, hn, hentity, hposition⟩
  · intro ⟨hleaf, n, hn, hentity, hposition⟩
    refine ⟨n, dof.dim, hn, dof.entity, hentity, dof.position, hposition, ?_⟩
    rw [← hleaf]

/-- The local degrees of freedom are listed in their order. -/
theorem pairwise_localDofs (map : LayoutMap α) (leaf : Nat) :
    (map.localDofs leaf).Pairwise Dof.Before := by
  rw [localDofs, List.pairwise_flatMap]
  constructor
  · intro ⟨n, dim⟩ _
    rw [List.pairwise_flatMap]
    constructor
    · intro entity _
      rw [List.pairwise_map]
      exact List.pairwise_lt_range.imp fun hlt => Or.inr ⟨rfl, Or.inr ⟨rfl, Or.inr ⟨rfl, hlt⟩⟩⟩
    · apply List.pairwise_lt_range.imp
      intro entity entity' hlt dof hdof dof' hdof'
      obtain ⟨position, -, rfl⟩ := List.mem_map.mp hdof
      obtain ⟨position', -, rfl⟩ := List.mem_map.mp hdof'
      exact Or.inr ⟨rfl, Or.inr ⟨rfl, Or.inl hlt⟩⟩
  · apply (pairwise_snd_zipIdx _ _).imp
    intro ⟨n, dim⟩ ⟨n', dim'⟩ hlt dof hdof dof' hdof'
    simp only [List.mem_flatMap, List.mem_map] at hdof hdof'
    obtain ⟨entity, -, position, -, rfl⟩ := hdof
    obtain ⟨entity', -, position', -, rfl⟩ := hdof'
    exact Or.inr ⟨rfl, Or.inl hlt⟩

theorem nodup_localDofs (map : LayoutMap α) (leaf : Nat) : (map.localDofs leaf).Nodup :=
  (map.pairwise_localDofs leaf).imp Dof.Before.ne

/-- Each node is the index of the local degree of freedom in its place. -/
theorem nodes_eq_map (hcell : cell.Fits shape mesh) (hmap : map.IsOn shape) (leaf : Nat) :
    map.nodes mesh cell.entities = (map.localDofs leaf).map fun dof =>
      map.indexOf mesh dof.dim (dof.onCell cell.entities).entity dof.position := by
  rw [nodes, localDofs, List.map_flatMap]
  apply List.flatMap_congr
  intro pair hmem
  obtain ⟨n, dim⟩ := pair
  have hlt := (List.getElem?_eq_some_iff.mp (List.mem_zipIdx_iff_getElem?.mp hmem)).1
  rw [hmap.2] at hlt
  obtain ⟨entities, count, hentities, -, hlen, -⟩ := hcell.exists_row dim (Nat.le_of_lt_succ hlt)
  have hrow : cell.entities.getD dim [] = entities := by
    rw [List.getD_eq_getElem?_getD, hentities, Option.getD_some]
  -- the entities of the cell, listed by their local index
  have hlist : (List.range (map.layout.shape.numEntities dim)).map (entities.getD · 0) =
      entities := by
    apply List.ext_getElem
    · simp [hlen, hmap.1]
    · intro i hi hi'
      simp [hi']
  dsimp only
  rw [hrow, List.map_flatMap]
  nth_rewrite 1 [← hlist]
  rw [List.flatMap_map]
  simp only [List.map_map, Function.comp_def, Dof.onCell, hrow]

end LayoutMap

namespace DofMap

variable {α : Type} {map : DofMap α} {shape : Shape} {mesh : EntityCounts} {cell : CellView α}

theorem mem_localDofs_iff {dof : Dof} :
    dof ∈ map.localDofs ↔ ∃ leaf n, map.leaves[dof.leaf]? = some leaf ∧
      leaf.layout.dofsPerEntity[dof.dim]? = some n ∧
      dof.entity < leaf.layout.shape.numEntities dof.dim ∧ dof.position < n := by
  simp only [localDofs, List.mem_flatMap, Prod.exists, List.mem_zipIdx_iff_getElem?,
    LayoutMap.mem_localDofs_iff]
  constructor
  · intro ⟨leaf, i, hleaf, hi, n, hn, hentity, hposition⟩
    rw [← hi] at hleaf
    exact ⟨leaf, n, hleaf, hn, hentity, hposition⟩
  · intro ⟨leaf, n, hleaf, hn, hentity, hposition⟩
    exact ⟨leaf, dof.leaf, hleaf, rfl, n, hn, hentity, hposition⟩

/-- The local degrees of freedom of a space are listed in their order. -/
theorem pairwise_localDofs (map : DofMap α) : map.localDofs.Pairwise Dof.Before := by
  rw [localDofs, List.pairwise_flatMap]
  constructor
  · intro ⟨leaf, i⟩ _
    exact leaf.pairwise_localDofs i
  · apply (pairwise_snd_zipIdx _ _).imp
    intro ⟨leaf, i⟩ ⟨leaf', i'⟩ hlt dof hdof dof' hdof'
    have hi := (LayoutMap.mem_localDofs_iff.mp hdof).1
    have hi' := (LayoutMap.mem_localDofs_iff.mp hdof').1
    rw [← hi, ← hi'] at hlt
    exact Or.inl hlt

theorem nodup_localDofs (map : DofMap α) : map.localDofs.Nodup :=
  map.pairwise_localDofs.imp Dof.Before.ne

/-- The nodes from a leaf on, when the leaves before have the indices below. -/
theorem nodesFrom_eq_flatMap (hcell : cell.Fits shape mesh) (hmap : map.IsOn shape)
    (rest : List (LayoutMap α)) (i : Nat) (hrest : map.leaves.drop i = rest) :
    nodesFrom mesh cell.entities (offset (map.leafSizes mesh) i) rest =
      (rest.zipIdx i).flatMap fun (leaf, i) =>
        (leaf.localDofs i).map fun dof => map.globalIndex mesh (dof.onCell cell.entities) := by
  induction rest generalizing i with
  | nil => rfl
  | cons leaf rest ih =>
      have hleaf : map.leaves[i]? = some leaf := by
        have hget := congrArg (fun leaves : List (LayoutMap α) => leaves[0]?) hrest
        simpa using hget
      have htail : map.leaves.drop (i + 1) = rest := by
        rw [← List.tail_drop, hrest, List.tail_cons]
      have hown : (leaf.nodes mesh cell.entities).map (offset (map.leafSizes mesh) i + ·) =
          (leaf.localDofs i).map fun dof => map.globalIndex mesh (dof.onCell cell.entities) := by
        rw [LayoutMap.nodes_eq_map hcell (hmap leaf (List.mem_of_getElem? hleaf)) i, List.map_map]
        apply List.map_congr_left
        intro dof hdof
        have hi := (LayoutMap.mem_localDofs_iff.mp hdof).1
        rw [← hi] at hleaf ⊢
        have hleaf' : map.leaves[(dof.onCell cell.entities).leaf]? = some leaf := hleaf
        rw [globalIndex_eq hleaf']
        rfl
      rw [nodesFrom, List.zipIdx_cons, List.flatMap_cons, hown,
        ← offset_succ (getElem?_leafSizes hleaf), ih (i + 1) htail]

/-- The nodes of a cell are the global indices of its local degrees of freedom. -/
theorem nodesFrom_eq_map (hcell : cell.Fits shape mesh) (hmap : map.IsOn shape) :
    nodesFrom mesh cell.entities 0 map.leaves =
      map.localDofs.map fun dof => map.globalIndex mesh (dof.onCell cell.entities) := by
  have hall := nodesFrom_eq_flatMap hcell hmap map.leaves 0 rfl
  rw [offset_zero] at hall
  rw [hall, localDofs, List.map_flatMap]

theorem hasDof_onCell (hcell : cell.Fits shape mesh) (hmap : map.IsOn shape) {dof : Dof}
    (h : dof ∈ map.localDofs) : map.HasDof mesh (dof.onCell cell.entities) := by
  obtain ⟨leaf, n, hleaf, hn, hentity, hposition⟩ := mem_localDofs_iff.mp h
  obtain ⟨hshape, hlength⟩ := hmap leaf (List.mem_of_getElem? hleaf)
  have hlt := (List.getElem?_eq_some_iff.mp hn).1
  rw [hlength] at hlt
  obtain ⟨entities, count, hentities, hcount, hlen, hall⟩ :=
    hcell.exists_row dof.dim (Nat.le_of_lt_succ hlt)
  refine ⟨leaf, n, count, hleaf, hn, hcount, ?_, hposition⟩
  rw [hshape, ← hlen] at hentity
  have hget : (dof.onCell cell.entities).entity = entities[dof.entity] := by
    simp [Dof.onCell, hentities, hentity]
  rw [hget]
  exact hall _ (List.getElem_mem hentity)

end DofMap
end FiniteElement
