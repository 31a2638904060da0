import Mathlib
import FiniteElement.Proofs.DofMap.LocalDofs

/-! # Components of a mixed space

The leaves of the components of a mixed space stand side by side. A degree of
freedom of a component is one of the mixed space, whose leaf comes after those of
the components before, and its index is shifted by their degrees of freedom.
-/

namespace FiniteElement

def Dof.after (first : Nat) (dof : Dof) : Dof := { dof with leaf := first + dof.leaf }

namespace DofMap

variable {α : Type} {map : DofMap α} {maps : List (DofMap α)} {shape : Shape}
  {mesh : EntityCounts}

def firstLeaf (maps : List (DofMap α)) (i : Nat) : Nat :=
  offset (maps.map fun map => map.leaves.length) i

theorem leaves_mixed (maps : List (DofMap α)) :
    (mixed maps).leaves = (maps.map leaves).flatten := by
  rw [leaves]
  induction maps with
  | nil => rfl
  | cons map maps ih => rw [allLeaves, ih, List.map_cons, List.flatten_cons]

theorem isOn_mixed : (mixed maps).IsOn shape ↔ ∀ map ∈ maps, map.IsOn shape := by
  simp only [IsOn, leaves_mixed, List.mem_flatten, List.mem_map]
  constructor
  · intro h map hmap leaf hleaf
    exact h leaf ⟨map.leaves, ⟨map, hmap, rfl⟩, hleaf⟩
  · rintro h leaf ⟨_, ⟨map, hmap, rfl⟩, hleaf⟩
    exact h map hmap leaf hleaf

/-! ## Sizes -/

theorem leafSizes_mixed (maps : List (DofMap α)) :
    (mixed maps).leafSizes mesh = (maps.map (leafSizes · mesh)).flatten := by
  rw [leafSizes, leaves_mixed, List.map_flatten, List.map_map]
  rfl

theorem map_sum_leafSizes (maps : List (DofMap α)) :
    (maps.map (leafSizes · mesh)).map List.sum = maps.map fun map => sizeOn mesh map.leaves := by
  rw [List.map_map]
  rfl

theorem sizeOn_mixed (maps : List (DofMap α)) :
    sizeOn mesh (mixed maps).leaves = (maps.map fun map => sizeOn mesh map.leaves).sum := by
  change ((mixed maps).leafSizes mesh).sum = _
  rw [leafSizes_mixed, List.sum_flatten, map_sum_leafSizes]

theorem size_mixed (maps : List (DofMap α)) : (mixed maps).size = (maps.map size).sum := by
  rw [size]
  induction maps with
  | nil => rfl
  | cons map maps ih => rw [totalSize, ih, List.map_cons, List.sum_cons]

theorem sizeOn_le_mixed (hmap : map ∈ maps) :
    sizeOn mesh map.leaves ≤ sizeOn mesh (mixed maps).leaves := by
  rw [sizeOn_mixed]
  exact List.le_sum_of_mem (List.mem_map_of_mem hmap)

theorem size_le_mixed (hmap : map ∈ maps) : map.size ≤ (mixed maps).size := by
  rw [size_mixed]
  exact List.le_sum_of_mem (List.mem_map_of_mem hmap)

theorem facetSize_mixed (maps : List (DofMap α)) :
    (mixed maps).facetSize = (maps.map facetSize).sum := by
  rw [facetSize]
  induction maps with
  | nil => rfl
  | cons map maps ih => rw [totalFacetSize, ih, List.map_cons, List.sum_cons]

theorem facetSize_le_mixed (hmap : map ∈ maps) : map.facetSize ≤ (mixed maps).facetSize := by
  rw [facetSize_mixed]
  exact List.le_sum_of_mem (List.mem_map_of_mem hmap)

/-- A space of copies has no components, or those it has are the space of the layout. -/
theorem components_of_vector {layout : DofLayout α} {k : Nat}
    (h : vector layout k = .ok (mixed maps)) :
    k = 0 ∧ maps = [] ∨
      0 < k ∧ ∃ scalar, ofLayout layout = .ok scalar ∧ maps = List.replicate k scalar := by
  obtain ⟨-, -, hcopies⟩ := Checked.bind_eq_ok_iff.mp h
  split at hcopies
  · next hzero =>
      cases hcopies
      exact Or.inl ⟨hzero, rfl⟩
  · next hne =>
      obtain ⟨scalar, hscalar, hcopies⟩ := Checked.bind_eq_ok_iff.mp hcopies
      cases hcopies
      exact Or.inr ⟨Nat.pos_of_ne_zero hne, scalar, hscalar, rfl⟩

/-! ## Degrees of freedom -/

theorem getElem?_leaves_mixed {i r : Nat} (hi : maps[i]? = some map) (hr : r < map.leaves.length) :
    (mixed maps).leaves[firstLeaf maps i + r]? = map.leaves[r]? := by
  have hblock : (maps.map leaves)[i]? = some map.leaves := by
    rw [List.getElem?_map, hi, Option.map_some]
  have hget := getElem?_flatten_offset hblock hr
  rw [List.map_map] at hget
  rw [leaves_mixed]
  exact hget

/-- The index of a degree of freedom of a component. -/
theorem globalIndex_after {i : Nat} (hi : maps[i]? = some map) (dof : Dof)
    (hdof : dof.leaf < map.leaves.length) :
    (mixed maps).globalIndex mesh (dof.after (firstLeaf maps i)) =
      offset (maps.map fun map => sizeOn mesh map.leaves) i + map.globalIndex mesh dof := by
  have hleaf := List.getElem?_eq_getElem hdof
  have hleaf' : (mixed maps).leaves[(dof.after (firstLeaf maps i)).leaf]? =
      some map.leaves[dof.leaf] := by
    rw [Dof.after, getElem?_leaves_mixed hi hdof, hleaf]
  have hblock : (maps.map (leafSizes · mesh))[i]? = some (map.leafSizes mesh) := by
    rw [List.getElem?_map, hi, Option.map_some]
  have hle : dof.leaf ≤ (map.leafSizes mesh).length := by
    rw [leafSizes, List.length_map]
    exact Nat.le_of_lt hdof
  have hoffset := offset_flatten hblock hle
  have hlengths : (maps.map (leafSizes · mesh)).map List.length =
      maps.map fun map => map.leaves.length := by
    simp [leafSizes, Function.comp_def]
  rw [hlengths, map_sum_leafSizes, ← leafSizes_mixed] at hoffset
  rw [globalIndex_eq hleaf, globalIndex_eq hleaf', ← Nat.add_assoc, ← hoffset]
  rfl

theorem globalIndex_onCell_after {i : Nat} (hi : maps[i]? = some map) {dof : Dof}
    (hdof : dof ∈ map.localDofs) (entities : List (List Nat)) :
    (mixed maps).globalIndex mesh ((dof.after (firstLeaf maps i)).onCell entities) =
      offset (maps.map fun map => sizeOn mesh map.leaves) i +
        map.globalIndex mesh (dof.onCell entities) := by
  obtain ⟨leaf, n, hleaf, -⟩ := mem_localDofs_iff.mp hdof
  exact globalIndex_after hi (dof.onCell entities) (List.getElem?_eq_some_iff.mp hleaf).1

/-- The local degrees of freedom of a mixed space are those of its components. -/
theorem mem_localDofs_mixed_iff {source : Dof} :
    source ∈ (mixed maps).localDofs ↔ ∃ (i : Nat) (map : DofMap α) (dof : Dof),
      maps[i]? = some map ∧ dof ∈ map.localDofs ∧ source = dof.after (firstLeaf maps i) := by
  constructor
  · intro hsource
    obtain ⟨leaf, n, hleaf, hn, hentity, hposition⟩ := mem_localDofs_iff.mp hsource
    have hlt := (List.getElem?_eq_some_iff.mp hleaf).1
    rw [leaves_mixed, List.length_flatten, List.map_map] at hlt
    obtain ⟨i, length, r, hlength, hr, heq⟩ := exists_offset_add hlt
    rw [List.getElem?_map, Option.map_eq_some_iff] at hlength
    obtain ⟨map, hi, rfl⟩ := hlength
    have hplace : source.leaf = firstLeaf maps i + r := heq
    rw [hplace, getElem?_leaves_mixed hi hr] at hleaf
    refine ⟨i, map, { source with leaf := r }, hi,
      mem_localDofs_iff.mpr ⟨leaf, n, hleaf, hn, hentity, hposition⟩, ?_⟩
    rw [Dof.after, ← hplace]
  · rintro ⟨i, map, dof, hi, hdof, rfl⟩
    obtain ⟨leaf, n, hleaf, hn, hentity, hposition⟩ := mem_localDofs_iff.mp hdof
    have hlt := (List.getElem?_eq_some_iff.mp hleaf).1
    refine mem_localDofs_iff.mpr ⟨leaf, n, ?_, hn, hentity, hposition⟩
    rw [Dof.after, getElem?_leaves_mixed hi hlt, hleaf]

end DofMap
end FiniteElement
