import Mathlib
import FiniteElement.Proofs.Assembly.ElementTensor
import FiniteElement.Proofs.Mesh.CellGeometry

/-! # Numbering of piecewise constant and linear functions

A layout with one degree of freedom on each entity of one dimension, and none
elsewhere, is numbered like these entities. Piecewise linear functions have the
numbers of the vertices, piecewise constant ones the numbers of the cells.
-/

namespace FiniteElement

variable {α : Type}

/-- The only piece that is not empty is all there is. -/
theorem flatMap_range_ite {β : Type} {n k : Nat} (hk : k < n) (piece : List β) :
    ((List.range n).flatMap fun i => if i = k then piece else []) = piece := by
  induction n with
  | zero => exact absurd hk (Nat.not_lt_zero k)
  | succ n ih =>
      rw [List.range_succ, List.flatMap_append, List.flatMap_singleton]
      rcases Nat.lt_or_eq_of_le (Nat.le_of_lt_succ hk) with hlt | heq
      · rw [ih hlt, if_neg (Nat.ne_of_gt hlt), List.append_nil]
      · have hbefore : ((List.range n).flatMap fun i => if i = k then piece else []) = [] := by
          rw [List.flatMap_eq_nil_iff]
          intro i hi
          have hne : i ≠ k := Nat.ne_of_lt (heq ▸ List.mem_range.mp hi)
          rw [if_neg hne]
        rw [hbefore, if_pos heq.symm, List.nil_append]

namespace LayoutMap

variable {map : LayoutMap α} {shape : Shape} {k : Nat} {counts : EntityCounts}

/-- One degree of freedom on each entity of dimension `k`, and none on the others. -/
structure CarriesOne (map : LayoutMap α) (shape : Shape) (k : Nat) : Prop where
  shape_eq : map.layout.shape = shape
  dofsPerEntity_eq : map.layout.dofsPerEntity = DofLayout.onlyOn shape k 1
  le_dimension : k ≤ shape.dimension

theorem carriesOne_p1 [Scalar α] (shape : Shape) : (p1 shape : LayoutMap α).CarriesOne shape 0 :=
  ⟨rfl, rfl, Nat.zero_le _⟩

theorem carriesOne_p0 [Scalar α] (shape : Shape) :
    (p0 shape : LayoutMap α).CarriesOne shape shape.dimension :=
  ⟨rfl, rfl, Nat.le_refl _⟩

namespace CarriesOne

theorem isOn (h : map.CarriesOne shape k) : map.IsOn shape := by
  refine ⟨h.shape_eq, ?_⟩
  rw [h.dofsPerEntity_eq, DofLayout.onlyOn, List.length_map, List.length_range]

theorem dimensionSizes_eq (h : map.CarriesOne shape k) :
    map.dimensionSizes counts = (List.range (shape.dimension + 1)).map fun dim =>
      if dim = k then counts.counts.getD k 0 else 0 := by
  rw [dimensionSizes, h.dofsPerEntity_eq, DofLayout.onlyOn]
  apply List.ext_getElem
  · simp
  · intro dim hdim hdim'
    by_cases heq : dim = k
    · simp [heq]
    · simp [heq]

theorem sum_dimensionSizes (h : map.CarriesOne shape k) :
    (map.dimensionSizes counts).sum = counts.counts.getD k 0 := by
  rw [h.dimensionSizes_eq]
  show ∑ dim ∈ Finset.range (shape.dimension + 1), _ = _
  rw [Finset.sum_ite_eq', if_pos (Finset.mem_range.mpr (Nat.lt_succ_of_le h.le_dimension))]

theorem indexOf_eq (h : map.CarriesOne shape k) (e : Nat) : map.indexOf counts k e 0 = e := by
  have hlt : k < shape.dimension + 1 := Nat.lt_succ_of_le h.le_dimension
  have hon : map.layout.dofsOn k = 1 := by
    simp [DofLayout.dofsOn, h.dofsPerEntity_eq, DofLayout.onlyOn, hlt]
  have hbelow : offset (map.dimensionSizes counts) k = 0 := by
    rw [h.dimensionSizes_eq, offset, ← List.map_take, List.take_range, Nat.min_eq_left hlt.le]
    show ∑ dim ∈ Finset.range k, _ = 0
    apply Finset.sum_eq_zero
    intro dim hdim
    rw [if_neg (Nat.ne_of_lt (Finset.mem_range.mp hdim))]
  rw [indexOf, hon, hbelow]
  omega

theorem nodes_eq (h : map.CarriesOne shape k) (entities : List (List Nat)) :
    map.nodes counts entities = entities.getD k [] := by
  have hlt : k < shape.dimension + 1 := Nat.lt_succ_of_le h.le_dimension
  have hpairs : map.layout.dofsPerEntity.zipIdx = (List.range (shape.dimension + 1)).map fun dim =>
      (if dim = k then 1 else 0, dim) := by
    rw [h.dofsPerEntity_eq, DofLayout.onlyOn]
    apply List.ext_getElem
    · simp
    · intro dim hdim hdim'
      simp
  have hpieces : ∀ dim, (entities.getD dim []).flatMap (fun e =>
      (List.range (if dim = k then 1 else 0)).map (map.indexOf counts dim e)) =
        if dim = k then entities.getD k [] else [] := by
    intro dim
    by_cases heq : dim = k
    · simp [heq, h.indexOf_eq]
    · simp [heq]
  rw [nodes, hpairs, List.flatMap_map]
  simp only [hpieces]
  exact flatMap_range_ite hlt _

end CarriesOne
end LayoutMap

namespace DofMap

variable {mesh : Mesh α} {map : LayoutMap α} {k : Nat}

/-- The degrees of freedom of a cell are its entities of the dimension that carries them. -/
theorem cellNodes_single (hmesh : mesh.WellFormed) (h : map.CarriesOne mesh.shape k) {cell : Nat}
    (hc : cell < mesh.numCells) :
    (single map).cellNodes mesh cell = (mesh.localEntities cell).getD k [] := by
  obtain ⟨view, -, -, hview⟩ := hmesh.view_eq_ok hc #[]
  have hnodes := nodesFrom_eq_map (hmesh.fits hc hview) (isOn_single.mpr h.isOn)
  rw [hview] at hnodes
  rw [cellNodes, ← hnodes, leaves, nodesFrom, nodesFrom, List.append_nil, h.nodes_eq]
  simp

theorem globalDimension_single (h : map.CarriesOne mesh.shape k) :
    (single map).globalDimension mesh.entityCounts =
      Index.guard (mesh.entityCounts.counts.getD k 0) := by
  rw [globalDimension, LayoutMap.globalDimension_eq h.isOn mesh.length_entityCounts,
    h.sum_dimensionSizes]

variable [Scalar α]

theorem cellNodes_p1 (hmesh : mesh.WellFormed) {cell : Nat} (hc : cell < mesh.numCells) :
    (single (LayoutMap.p1 mesh.shape) : DofMap α).cellNodes mesh cell = mesh.vertexList cell := by
  have hzero := Mesh.getElem?_localEntities (Nat.zero_le mesh.dimension)
    (Mesh.cellVertices_eq_ok hc)
  rw [cellNodes_single hmesh (LayoutMap.carriesOne_p1 mesh.shape) hc, List.getD_eq_getElem?_getD,
    hzero, Option.getD_some]

theorem cellNodes_p0 (hmesh : mesh.WellFormed) {cell : Nat} (hc : cell < mesh.numCells) :
    (single (LayoutMap.p0 mesh.shape) : DofMap α).cellNodes mesh cell = [cell] := by
  have hown := Mesh.getElem?_localEntities (Nat.le_refl mesh.dimension)
    (Mesh.cellEntities_dimension hc)
  rw [cellNodes_single hmesh (LayoutMap.carriesOne_p0 mesh.shape) hc, List.getD_eq_getElem?_getD]
  show ((mesh.localEntities cell)[mesh.dimension]?).getD [] = [cell]
  rw [hown, Option.getD_some]

theorem globalDimension_p1 (mesh : Mesh α) :
    (single (LayoutMap.p1 mesh.shape) : DofMap α).globalDimension mesh.entityCounts =
      Index.guard mesh.numVertices := by
  have hcount := Index.entry_eq_ok_iff.mp (Mesh.numEntities_eq_ok (Nat.zero_le mesh.dimension))
  rw [globalDimension_single (LayoutMap.carriesOne_p1 mesh.shape), List.getD_eq_getElem?_getD,
    hcount, Option.getD_some, Mesh.table_zero]

theorem globalDimension_p0 (mesh : Mesh α) :
    (single (LayoutMap.p0 mesh.shape) : DofMap α).globalDimension mesh.entityCounts =
      Index.guard mesh.numCells := by
  have hcount := Index.entry_eq_ok_iff.mp (Mesh.numEntities_eq_ok (Nat.le_refl mesh.dimension))
  rw [Mesh.table_dimension] at hcount
  rw [globalDimension_single (LayoutMap.carriesOne_p0 mesh.shape), List.getD_eq_getElem?_getD]
  exact congrArg Index.guard (congrArg (Option.getD · 0) hcount)

end DofMap
end FiniteElement
