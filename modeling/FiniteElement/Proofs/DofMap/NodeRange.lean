import Mathlib
import FiniteElement.Proofs.DofMap.LocalDofs
import FiniteElement.Proofs.Samples

/-! # Range of the nodes of a cell

The offsets that a space computes while it writes the nodes of a cell grow towards
its number of degrees of freedom on the mesh. So if that number is an index, all of
them are, whatever the counts of the layouts, and however the components are
nested. The entities of the cell need not be distinct for this.
-/

namespace FiniteElement.DofMap

variable {α : Type} {map : DofMap α} {shape : Shape} {mesh : EntityCounts} {cell : CellView α}

/-- On cells of one shape, the local degrees of freedom are those on the entities of the shape. -/
theorem mem_localDofs_iff_of_isOn (hmap : map.IsOn shape) {dof : Dof} :
    dof ∈ map.localDofs ↔ ∃ leaf count, map.leaves[dof.leaf]? = some leaf ∧
      leaf.layout.dofsPerEntity[dof.dim]? = some count ∧
      dof.entity < shape.numEntities dof.dim ∧ dof.position < count := by
  rw [mem_localDofs_iff]
  refine exists_congr fun leaf => exists_congr fun count => and_congr_right fun hleaf => ?_
  rw [(hmap leaf (List.mem_of_getElem? hleaf)).1]

/-- A space whose degrees of freedom on a mesh and on a cell can be counted writes the nodes of the
cell to the front of every buffer with room for them: one for each local degree of freedom, in their
order, all of them below the number of degrees of freedom on the mesh. -/
theorem writeNodes_in_range (hmap : map.IsOn shape) (hcell : cell.Fits shape mesh) {n size : Nat}
    (hn : map.globalDimension mesh = .ok n) (hsize : map.localDimension = .ok size)
    {buffer : List Nat} (hroom : size ≤ buffer.length) :
    map.writeNodes mesh cell buffer = .ok
      ((map.localDofs.map fun dof => map.globalIndex mesh (dof.onCell cell.entities)) ++
        buffer.drop size) ∧
    (∀ dof ∈ map.localDofs, map.globalIndex mesh (dof.onCell cell.entities) < n) ∧
    map.localDofs.length = size ∧ map.localDofs.Pairwise Dof.Before ∧
    ∀ dof, dof ∈ map.localDofs ↔ ∃ leaf count, map.leaves[dof.leaf]? = some leaf ∧
      leaf.layout.dofsPerEntity[dof.dim]? = some count ∧
      dof.entity < shape.numEntities dof.dim ∧ dof.position < count := by
  obtain ⟨hbound, hglobal⟩ := (globalDimension_eq_ok_iff hcell.length_counts map hmap n).mp hn
  obtain ⟨hlocal, hlength⟩ := Index.guard_eq_ok_iff.mp hsize
  have hnodes := nodesFrom_eq_map hcell hmap
  have hlist : map.localDofs.length = size := by
    have hcount := length_nodesFrom hcell 0 hmap
    rw [hnodes, List.length_map, ← size_eq, hlength] at hcount
    exact hcount
  rw [size_eq] at hlocal hlength
  rw [← hlength] at hroom
  refine ⟨?_, ?_, hlist, map.pairwise_localDofs, fun dof => mem_localDofs_iff_of_isOn hmap⟩
  · rw [writeNodes_eq_ok hcell map hmap hbound hlocal buffer hroom, hnodes, hlength]
  · intro dof hdof
    rw [← hglobal]
    exact globalIndex_lt (hasDof_onCell hcell hmap hdof)

/-- Three nested leaves on a triangle that lists a vertex and an edge twice; the last two entries of
the buffer stay. -/
theorem writeNodes_in_range_of_three_leaves :
    let map := Sample.threeLeaves
    let mesh : EntityCounts := ⟨[5, 4, 2]⟩
    let cell : CellView Rat := ⟨[[4, 4, 0], [3, 1, 1], [1]], #[], 2, by decide, by decide⟩
    map.IsOn .triangle ∧ cell.Fits .triangle mesh ∧ map.globalDimension mesh = .ok 24 ∧
      map.localDimension = .ok 15 ∧ 15 ≤ (List.replicate 17 9).length ∧
      map.writeNodes mesh cell (List.replicate 17 9) = .ok
        [4, 4, 0, 11, 12, 7, 8, 7, 8, 16, 17, 18, 23, 23, 19, 9, 9] := by
  intro map mesh cell
  have hmap : map.IsOn .triangle := by decide +kernel
  have hcell : cell.Fits .triangle mesh := by
    refine ⟨rfl, ?_⟩
    intro dim hdim
    have hcases : dim = 0 ∨ dim = 1 ∨ dim = 2 := by
      rw [Shape.dimension] at hdim
      omega
    rcases hcases with rfl | rfl | rfl <;> exact ⟨_, _, rfl, rfl, rfl, by decide⟩
  have hn : map.globalDimension mesh = .ok 24 := by decide +kernel
  have hsize : map.localDimension = .ok 15 := by decide +kernel
  have hroom : 15 ≤ (List.replicate 17 9).length := by decide
  refine ⟨hmap, hcell, hn, hsize, hroom, ?_⟩
  rw [(writeNodes_in_range hmap hcell hn hsize hroom).1]
  decide +kernel

end FiniteElement.DofMap
