import Mathlib
import FiniteElement.DofMap.Basic
import FiniteElement.Proofs.Offset

/-! # Degrees of freedom and their global indices

A degree of freedom is named by the single layout it belongs to, the entity it
sits on and its position there. The single layouts of a nested space are its
leaves from left to right. Global indices are laid out in blocks inside blocks:
first by leaf, then by dimension, then by entity, then by position. The global
index of a degree of freedom is a bijection onto the indices below the global
dimension.
-/

namespace FiniteElement

/-! ## Leaves -/

/-- A degree of freedom: the leaf it belongs to, the dimension and the index of the entity it
sits on, and its position there. -/
@[ext] structure Dof where
  leaf : Nat
  dim : Nat
  entity : Nat
  position : Nat
  deriving DecidableEq, Repr

def Dof.Before (dof other : Dof) : Prop :=
  dof.leaf < other.leaf ∨ dof.leaf = other.leaf ∧ (dof.dim < other.dim ∨ dof.dim = other.dim ∧
    (dof.entity < other.entity ∨ dof.entity = other.entity ∧ dof.position < other.position))

theorem Dof.Before.ne {dof other : Dof} (h : dof.Before other) : dof ≠ other := by
  rintro rfl
  unfold Before at h
  omega

namespace LayoutMap

variable {α : Type}

/-- The layout is one on cells of the shape and lists a number for each dimension. -/
def IsOn (map : LayoutMap α) (shape : Shape) : Prop :=
  map.layout.shape = shape ∧ map.layout.dofsPerEntity.length = shape.dimension + 1

instance (map : LayoutMap α) (shape : Shape) : Decidable (map.IsOn shape) :=
  inferInstanceAs (Decidable (_ ∧ _))

def dimensionSizes (map : LayoutMap α) (mesh : EntityCounts) : List Nat :=
  map.layout.dofsPerEntity.zipIdx.map fun (n, dim) => n * mesh.counts.getD dim 0

def indexOf (map : LayoutMap α) (mesh : EntityCounts) (dim entity position : Nat) : Nat :=
  offset (map.dimensionSizes mesh) dim + (map.layout.dofsOn dim * entity + position)

/-- The local degrees of freedom: by dimension, then by local entity, then by position. -/
def localDofs (map : LayoutMap α) (leaf : Nat) : List Dof :=
  map.layout.dofsPerEntity.zipIdx.flatMap fun (n, dim) =>
    (List.range (map.layout.shape.numEntities dim)).flatMap fun entity =>
      (List.range n).map fun position => ⟨leaf, dim, entity, position⟩

theorem getElem?_dimensionSizes {map : LayoutMap α} {mesh : EntityCounts} {dim n count : Nat}
    (hn : map.layout.dofsPerEntity[dim]? = some n) (hcount : mesh.counts[dim]? = some count) :
    (map.dimensionSizes mesh)[dim]? = some (n * count) := by
  simp [dimensionSizes, List.getElem?_zipIdx, hn, hcount]

theorem dofsOn_eq {map : LayoutMap α} {dim n : Nat}
    (hn : map.layout.dofsPerEntity[dim]? = some n) : map.layout.dofsOn dim = n := by
  simp [DofLayout.dofsOn, hn]

theorem indexOf_lt {map : LayoutMap α} {mesh : EntityCounts} {dim n count entity position : Nat}
    (hn : map.layout.dofsPerEntity[dim]? = some n) (hcount : mesh.counts[dim]? = some count)
    (hentity : entity < count) (hposition : position < n) :
    map.indexOf mesh dim entity position < (map.dimensionSizes mesh).sum := by
  rw [indexOf, dofsOn_eq hn]
  exact offset_add_lt_sum (getElem?_dimensionSizes hn hcount) (mul_add_lt hentity hposition)

end LayoutMap

namespace DofMap

variable {α : Type}

mutual

/-- The single layouts of a space from left to right. -/
def leaves : DofMap α → List (LayoutMap α)
  | single map => [map]
  | mixed components => allLeaves components

def allLeaves : List (DofMap α) → List (LayoutMap α)
  | [] => []
  | map :: rest => map.leaves ++ allLeaves rest

end

def IsOn (map : DofMap α) (shape : Shape) : Prop := ∀ leaf ∈ map.leaves, leaf.IsOn shape

instance (map : DofMap α) (shape : Shape) : Decidable (map.IsOn shape) :=
  inferInstanceAs (Decidable (∀ leaf ∈ map.leaves, leaf.IsOn shape))

@[simp] theorem isOn_single {map : LayoutMap α} {shape : Shape} :
    (single map).IsOn shape ↔ map.IsOn shape := by
  simp [IsOn, leaves]

def leafSizes (map : DofMap α) (mesh : EntityCounts) : List Nat :=
  map.leaves.map fun leaf => (leaf.dimensionSizes mesh).sum

def localDofs (map : DofMap α) : List Dof :=
  map.leaves.zipIdx.flatMap fun (leaf, i) => leaf.localDofs i

def HasDof (map : DofMap α) (mesh : EntityCounts) (dof : Dof) : Prop :=
  ∃ leaf n count, map.leaves[dof.leaf]? = some leaf ∧
    leaf.layout.dofsPerEntity[dof.dim]? = some n ∧ mesh.counts[dof.dim]? = some count ∧
    dof.entity < count ∧ dof.position < n

def globalIndex (map : DofMap α) (mesh : EntityCounts) (dof : Dof) : Nat :=
  offset (map.leafSizes mesh) dof.leaf +
    (map.leaves[dof.leaf]?.elim 0 fun leaf => leaf.indexOf mesh dof.dim dof.entity dof.position)

/-! ## Global indices -/

theorem getElem?_leafSizes {map : DofMap α} {mesh : EntityCounts} {i : Nat} {leaf : LayoutMap α}
    (h : map.leaves[i]? = some leaf) :
    (map.leafSizes mesh)[i]? = some (leaf.dimensionSizes mesh).sum := by
  simp [leafSizes, h]

theorem globalIndex_eq {map : DofMap α} {mesh : EntityCounts} {dof : Dof} {leaf : LayoutMap α}
    (h : map.leaves[dof.leaf]? = some leaf) :
    map.globalIndex mesh dof = offset (map.leafSizes mesh) dof.leaf +
      leaf.indexOf mesh dof.dim dof.entity dof.position := by
  simp [globalIndex, h]

theorem globalIndex_lt {map : DofMap α} {mesh : EntityCounts} {dof : Dof}
    (h : map.HasDof mesh dof) : map.globalIndex mesh dof < (map.leafSizes mesh).sum := by
  obtain ⟨leaf, n, count, hleaf, hn, hcount, hentity, hposition⟩ := h
  rw [globalIndex_eq hleaf]
  exact offset_add_lt_sum (getElem?_leafSizes hleaf)
    (LayoutMap.indexOf_lt hn hcount hentity hposition)

/-- Equal indices are indices of the same degree of freedom. -/
theorem globalIndex_inj {map : DofMap α} {mesh : EntityCounts} {dof dof' : Dof}
    (h : map.HasDof mesh dof) (h' : map.HasDof mesh dof') :
    map.globalIndex mesh dof = map.globalIndex mesh dof' ↔ dof = dof' := by
  obtain ⟨leaf, n, count, hleaf, hn, hcount, hentity, hposition⟩ := h
  obtain ⟨leaf', n', count', hleaf', hn', hcount', hentity', hposition'⟩ := h'
  have hlt := LayoutMap.indexOf_lt hn hcount hentity hposition
  have hlt' := LayoutMap.indexOf_lt hn' hcount' hentity' hposition'
  rw [globalIndex_eq hleaf, globalIndex_eq hleaf',
    offset_add_inj (getElem?_leafSizes hleaf) (getElem?_leafSizes hleaf') hlt hlt']
  constructor
  · intro ⟨hleaves, hindex⟩
    rw [hleaves, hleaf'] at hleaf
    cases hleaf
    have hsize := LayoutMap.getElem?_dimensionSizes hn hcount
    have hsize' := LayoutMap.getElem?_dimensionSizes hn' hcount'
    rw [LayoutMap.indexOf, LayoutMap.indexOf, LayoutMap.dofsOn_eq hn, LayoutMap.dofsOn_eq hn',
      offset_add_inj hsize hsize' (mul_add_lt hentity hposition)
        (mul_add_lt hentity' hposition')] at hindex
    obtain ⟨hdim, hplace⟩ := hindex
    rw [hdim, hn'] at hn
    cases hn
    obtain ⟨heq, heq'⟩ := (mul_add_inj hposition hposition').mp hplace
    cases dof
    cases dof'
    simp_all
  · intro heq
    subst heq
    rw [hleaf] at hleaf'
    cases hleaf'
    exact ⟨rfl, rfl⟩

/-- Every index below the global dimension is that of a degree of freedom. -/
theorem exists_globalIndex_eq {map : DofMap α} {shape : Shape} {mesh : EntityCounts} {k : Nat}
    (hmap : map.IsOn shape) (hcounts : mesh.counts.length = shape.dimension + 1)
    (hk : k < (map.leafSizes mesh).sum) :
    ∃ dof, map.HasDof mesh dof ∧ map.globalIndex mesh dof = k := by
  obtain ⟨i, size, r, hi, hr, hkr⟩ := exists_offset_add hk
  rw [leafSizes, List.getElem?_map, Option.map_eq_some_iff] at hi
  obtain ⟨leaf, hleaf, hsize⟩ := hi
  rw [← hsize] at hr
  obtain ⟨dim, dimSize, s, hdim, hs, hrs⟩ := exists_offset_add hr
  have hlength := (hmap leaf (List.mem_of_getElem? hleaf)).2
  have hlt : dim < leaf.layout.dofsPerEntity.length := by
    have hlt' := (List.getElem?_eq_some_iff.mp hdim).1
    simpa [LayoutMap.dimensionSizes] using hlt'
  have hn := List.getElem?_eq_getElem hlt
  have hcount := List.getElem?_eq_getElem (l := mesh.counts) (i := dim) (by omega)
  generalize leaf.layout.dofsPerEntity[dim] = n at hn
  generalize mesh.counts[dim] = count at hcount
  rw [LayoutMap.getElem?_dimensionSizes hn hcount, Option.some.injEq] at hdim
  rw [← hdim] at hs
  have hpos : 0 < n := Nat.pos_of_mul_pos_right (Nat.zero_lt_of_lt hs)
  refine ⟨⟨i, dim, s / n, s % n⟩, ⟨leaf, n, count, hleaf, hn, hcount, ?_, Nat.mod_lt s hpos⟩, ?_⟩
  · exact Nat.div_lt_of_lt_mul hs
  · rw [globalIndex_eq hleaf, LayoutMap.indexOf, LayoutMap.dofsOn_eq hn,
      Nat.div_add_mod, ← hrs, hkr]

theorem globalIndex_bijOn {map : DofMap α} {shape : Shape} {mesh : EntityCounts}
    (hmap : map.IsOn shape) (hcounts : mesh.counts.length = shape.dimension + 1) :
    Set.BijOn (map.globalIndex mesh) {dof | map.HasDof mesh dof}
      (Set.Iio (map.leafSizes mesh).sum) := by
  refine ⟨?_, ?_, ?_⟩
  · intro dof hdof
    exact globalIndex_lt hdof
  · intro dof hdof dof' hdof' heq
    exact (globalIndex_inj hdof hdof').mp heq
  · intro k hk
    exact exists_globalIndex_eq hmap hcounts hk

end DofMap
end FiniteElement
