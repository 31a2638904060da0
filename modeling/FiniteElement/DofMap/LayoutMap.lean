import FiniteElement.DofLayout
import FiniteElement.Geometry

/-!
# Dof maps of a single layout

The global numbering of the degrees of freedom of one layout on a mesh. Degree of freedom `k` on the
entity of dimension `d` with global index `e` has the global index `offset d + n d * e + k`, where
`n d` is the number of degrees of freedom per entity and `offset d` counts those on all entities of
lower dimension. All degrees of freedom of one entity are thus a block of consecutive indices.
-/

namespace FiniteElement

structure Block where
  start : Nat
  size : Nat
  deriving DecidableEq, Repr

namespace Block

def indices (block : Block) : List Nat := List.range' block.start block.size

def checked (block : Block) : Except Fault Block :=
  if block.start + block.size ≤ Index.bound then .ok block else .error .overflow

def total (blocks : List Block) : Nat := (blocks.map size).foldr (· + ·) 0

theorem length_indices (block : Block) : block.indices.length = block.size := by
  simp [indices]

theorem length_flatMap_indices (blocks : List Block) :
    (blocks.flatMap indices).length = total blocks := by
  induction blocks with
  | nil => rfl
  | cons block blocks ih =>
      rw [List.flatMap_cons, List.length_append, length_indices, ih]
      rfl

end Block

namespace DofLayout

variable {α : Type}

/-- The local degrees of freedom on the closure of a facet, as one block per incident entity. -/
def facetBlocks (layout : DofLayout α) (facet : Nat) : List Block :=
  (layout.shape.facetClosure facet).map fun (dim, index) =>
    ⟨layout.entityOffset dim index, layout.dofsOn dim⟩

def facetSize (layout : DofLayout α) : Nat := Block.total (layout.facetBlocks 0)

theorem facetSize_eq (layout : DofLayout α) :
    layout.facetSize =
      ((layout.shape.facetClosure 0).map fun entity => layout.dofsOn entity.1).foldr (· + ·) 0 := by
  simp [facetSize, facetBlocks, Block.total, Function.comp_def]

/-- The layout of a supported element has at most six degrees of freedom on a facet. -/
theorem ofElement_facetSize_le [Scalar α] {family : ElementFamily} {shape : Shape} {degree : Nat}
    {layout : DofLayout α} (h : ofElement family shape degree = .ok layout) :
    layout.facetSize ≤ 6 := by
  rw [facetSize_eq]
  unfold ofElement at h
  split at h <;> cases h <;> cases shape <;>
    simp [p0, p1, p2, dp1, onlyOn, dofsOn, Shape.facetClosure_interval,
      Shape.facetClosure_triangle, Shape.facetClosure_tetrahedron, List.range_succ,
      Shape.dimension]

end DofLayout

/-- A layout with a dof map: it lists every dimension on which facets have entities, its degrees of
freedom on one cell are indices, and those on one facet can be stored. -/
structure LayoutMap (α : Type) where
  layout : DofLayout α
  covers : layout.shape.dimension ≤ layout.dofsPerEntity.length := by decide
  fits : layout.size < Index.bound := by decide
  storable : layout.facetSize < Index.capacity := by decide

namespace LayoutMap

variable {α : Type}

def ofLayout (layout : DofLayout α) : Except Fault (LayoutMap α) :=
  if covers : layout.shape.dimension ≤ layout.dofsPerEntity.length then
    if fits : layout.size < Index.bound then
      if storable : layout.facetSize < Index.capacity then .ok ⟨layout, covers, fits, storable⟩
      else .error .tooManyEntries
    else .error .overflow
  else .error .outOfBounds

section Standard

variable [Scalar α]

def ofElement {family : ElementFamily} {shape : Shape} {degree : Nat} {layout : DofLayout α}
    (h : DofLayout.ofElement family shape degree = .ok layout) : LayoutMap α where
  layout := layout
  covers := by
    rw [DofLayout.ofElement_covers h]
    exact Nat.le_succ _
  fits := Nat.lt_of_le_of_lt (DofLayout.ofElement_size_le h) (by decide)
  storable := Nat.lt_of_le_of_lt (DofLayout.ofElement_facetSize_le h) (by decide)

def p0 (shape : Shape) : LayoutMap α :=
  ofElement (show DofLayout.ofElement .discontinuousLagrange shape 0 = .ok (DofLayout.p0 shape)
    from rfl)

def p1 (shape : Shape) : LayoutMap α :=
  ofElement (show DofLayout.ofElement .lagrange shape 1 = .ok (DofLayout.p1 shape) from rfl)

def p2 (shape : Shape) : LayoutMap α :=
  ofElement (show DofLayout.ofElement .lagrange shape 2 = .ok (DofLayout.p2 shape) from rfl)

end Standard

def signature (map : LayoutMap α) : String :=
  s!"{map.layout.family.title}({map.layout.shape.name}, {map.layout.degree})"

def dimension (map : LayoutMap α) : Nat := map.layout.shape.dimension

def localDimension (map : LayoutMap α) : Nat := map.layout.size

/-- The number of degrees of freedom on a mesh, which must have a count for every dimension that the
layout lists. -/
def globalDimension (map : LayoutMap α) (mesh : EntityCounts) : Except Fault Nat := do
  let sizes ← map.layout.dofsPerEntity.zipIdx.mapM fun (n, dim) => do
    let count ← mesh.numEntities dim
    return n * count
  Index.guard (sizes.foldr (· + ·) 0)

def usesEntities (map : LayoutMap α) (dim : Nat) : Bool := 0 < map.layout.dofsOn dim

def facetDimension (map : LayoutMap α) : Nat := map.layout.facetSize

/-- The blocks of global indices of a cell for the counts `n :: rest` from dimension `dim` on, where
`offset` degrees of freedom come before. A dimension without degrees of freedom is not looked at. -/
def blocksFrom (mesh : EntityCounts) (cell : CellView α) : Nat → Nat → List Nat →
    Except Fault (List Block)
  | _, _, [] => .ok []
  | dim, offset, n :: rest =>
    if n = 0 then blocksFrom mesh cell (dim + 1) offset rest
    else do
      let entities ← cell.entityIndices dim
      let own ← entities.mapM fun e => Block.checked ⟨offset + n * e, n⟩
      let count ← mesh.numEntities dim
      let next ← Index.guard (offset + n * count)
      let others ← blocksFrom mesh cell (dim + 1) next rest
      return own ++ others

/-- The global indices of the degrees of freedom of a cell, one block per entity of the cell that
carries any: by dimension, then in local order. -/
def blocks (map : LayoutMap α) (mesh : EntityCounts) (cell : CellView α) :
    Except Fault (List Block) :=
  blocksFrom mesh cell 0 0 map.layout.dofsPerEntity

/-- Writes the global indices of a cell to the front of a buffer, which must have room for them. The
cell must have as many as the space; the rest of the buffer stays as it is. -/
def writeNodes (map : LayoutMap α) (mesh : EntityCounts) (cell : CellView α) (buffer : List Nat) :
    Except Fault (List Nat) := do
  let blocks ← map.blocks mesh cell
  if Block.total blocks ≠ map.localDimension then .error .unfilledNodes
  else if buffer.length < map.localDimension then .error .outOfBounds
  else .ok (blocks.flatMap Block.indices ++ buffer.drop map.localDimension)

/-- Writes the local degrees of freedom of a facet to a buffer, which must have exactly their
number. -/
def writeFacetDofs (map : LayoutMap α) (facet : Nat) (buffer : List Nat) :
    Except Fault (List Nat) :=
  if map.layout.shape.numFacets ≤ facet then .error .outOfBounds
  else if Block.total (map.layout.facetBlocks facet) ≠ buffer.length then .error .lengthMismatch
  else .ok ((map.layout.facetBlocks facet).flatMap Block.indices)

/-- Writes the points of the degrees of freedom on a cell to the front of a buffer: as many points
as the layout knows and the buffer has room for. The rest of the buffer stays as it is. -/
def writePoints [Scalar α] (map : LayoutMap α) (cell : CellView α) (buffer : List α) :
    Except Fault (List α) := do
  let simplex ← AffineCell.ofCell cell
  let room := buffer.length / cell.geometricDimension
  let points ← (map.layout.points.take room).mapM simplex.toPhysical
  let written := points.flatMap fun point => point.toList.take cell.geometricDimension
  return written ++ buffer.drop written.length

theorem ofLayout_eq_ok_iff {layout : DofLayout α} {map : LayoutMap α} :
    ofLayout layout = .ok map ↔ map.layout = layout := by
  unfold ofLayout
  constructor
  · intro h
    split at h
    · split at h
      · split at h
        · cases h
          rfl
        · cases h
      · cases h
    · cases h
  · rintro rfl
    rw [dif_pos map.covers, dif_pos map.fits, dif_pos map.storable]

end LayoutMap
end FiniteElement
