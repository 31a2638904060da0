/-!
# Shapes, faults and indices

The reference simplices with their local entities, and the checked arithmetic of indices that
everything else is written in.
-/

namespace FiniteElement

/-! ## Reference simplices

The three cell shapes and their sizes. A simplex of dimension `d` has `d + 1` vertices and as many
facets.
-/

inductive Shape where
  | interval
  | triangle
  | tetrahedron
  deriving DecidableEq, Repr

namespace Shape

def all : List Shape := [.interval, .triangle, .tetrahedron]

def name : Shape → String
  | .interval => "Interval"
  | .triangle => "Triangle"
  | .tetrahedron => "Tetrahedron"

def dimension : Shape → Nat
  | .interval => 1
  | .triangle => 2
  | .tetrahedron => 3

def numVertices (shape : Shape) : Nat := shape.dimension + 1

def numFacets (shape : Shape) : Nat := shape.numVertices

theorem mem_all (shape : Shape) : shape ∈ all := by
  cases shape <;> simp [all]

theorem dimension_pos (shape : Shape) : 0 < shape.dimension := by
  cases shape <;> decide

theorem dimension_le_three (shape : Shape) : shape.dimension ≤ 3 := by
  cases shape <;> decide

theorem name_injective {s t : Shape} (h : s.name = t.name) : s = t := by
  cases s <;> cases t <;> first | rfl | simp [name] at h

end Shape

/-! ## Broken calling conditions

An operation on cells, dof maps or forms relies on conditions that its caller promises: indices in
range, buffers of the right length, cells of a supported kind. `Fault` lists the ways in which
such a promise can be broken. A fault is no report to a user: it carries a text only where the
condition has a name of its own.
-/

inductive Fault where
  /-- An index or a range reaches past the end of its list. -/
  | outOfBounds
  /-- An index computation leaves the range of indices. -/
  | overflow
  /-- Two lists that are copied onto each other differ in length. -/
  | lengthMismatch
  /-- The coordinates of a cell do not form whole vertices. -/
  | raggedCell
  /-- A dof map has written fewer or more nodes than its space has. -/
  | unfilledNodes
  /-- An element tensor does not have the length that the form computes. -/
  | tensorLength
  /-- A list is asked for with more entries than can be stored. -/
  | tooManyEntries
  /-- A shape has no entities of the dimension asked for. -/
  | noEntities (shape : Shape) (dim : Nat)
  /-- A local buffer and its index list differ in length. -/
  | bufferLength
  /-- A point is asked for in another dimension than that of the cell. -/
  | pointDimension
  /-- Affine geometry is asked for a cell that is no interval, triangle or tetrahedron. -/
  | unsupportedDimension
  /-- Affine geometry is asked for a cell embedded in a larger space. -/
  | notVolumetric
  deriving DecidableEq, Repr

def Fault.message : Fault → Option String
  | .noEntities shape dim => some s!"{shape.name} has no entities of dimension {dim}"
  | .bufferLength => some "Local buffer must have one entry per index"
  | .pointDimension => some "Point dimension must match geometric dimension"
  | .unsupportedDimension => some "Only simplices of dimension 1, 2 or 3 are supported"
  | .notVolumetric => some "Cell must be volumetric"
  | .outOfBounds | .overflow | .lengthMismatch | .raggedCell | .unfilledNodes | .tensorLength
  | .tooManyEntries => none

/-! ## Index arithmetic

Indices and counts are natural numbers below `Index.bound`. A computation that leaves this range is
a fault, and so is an access past the end of a list. All terms of an index computation are
nonnegative, so a sum stays in range at every step exactly if its total does; a product may leave
the range and come back at a later factor zero, so products are checked factor by factor. A list
that is to be stored has an even smaller bound on its length, and so has a hash table.
-/

namespace Index

def bound : Nat := Nat.pow 2 64

/-- The largest index, which fills node buffers before they are written. -/
def last : Nat := bound - 1

def guard (n : Nat) : Except Fault Nat :=
  if n < bound then .ok n else .error .overflow

def add (m n : Nat) : Except Fault Nat := guard (m + n)

def mul (m n : Nat) : Except Fault Nat := guard (m * n)

/-- Stored lists have fewer entries than this: their bytes are counted by signed words. -/
def capacity : Nat := Nat.pow 2 60

/-- A hash table from three indices to a number has at most this many entries. Its buckets take four
words and a byte each, their number is a power of two, and one in eight of them stays empty. -/
def tableCapacity : Nat := 7 * Nat.pow 2 54

def length (n : Nat) : Except Fault Nat :=
  if n < capacity then .ok n else .error .tooManyEntries

def buffer {α : Type} (n : Nat) (fill : α) : Except Fault (List α) :=
  (length n).map fun n => List.replicate n fill

def product (sizes : List Nat) : Except Fault Nat := sizes.foldlM mul 1

def entry {α : Type} (xs : List α) (i : Nat) : Except Fault α :=
  match xs[i]? with
  | some x => .ok x
  | none => .error .outOfBounds

def slot {α : Type} (xs : Array α) (i : Nat) : Except Fault α :=
  match xs[i]? with
  | some x => .ok x
  | none => .error .outOfBounds

def split {α : Type} (n : Nat) (xs : List α) : Except Fault (List α × List α) :=
  if n ≤ xs.length then .ok (xs.take n, xs.drop n) else .error .outOfBounds

theorem guard_eq_ok_iff {n m : Nat} : guard n = .ok m ↔ n < bound ∧ n = m := by
  unfold guard
  by_cases h : n < bound <;> simp [h]

theorem entry_eq_ok_iff {α : Type} {xs : List α} {i : Nat} {x : α} :
    entry xs i = .ok x ↔ xs[i]? = some x := by
  unfold entry
  split <;> simp_all

theorem slot_eq_ok_iff {α : Type} {xs : Array α} {i : Nat} {x : α} :
    slot xs i = .ok x ↔ xs[i]? = some x := by
  unfold slot
  split <;> simp_all

theorem split_eq_ok_iff {α : Type} {n : Nat} {xs : List α} {parts : List α × List α} :
    split n xs = .ok parts ↔ n ≤ xs.length ∧ parts = (xs.take n, xs.drop n) := by
  unfold split
  by_cases h : n ≤ xs.length <;> simp [h, eq_comm]

end Index

/-! ## Local entities of the reference simplices

An entity of a reference simplex is given by its local vertices. Vertices are listed in order.
Edges and faces below the dimension of the cell are listed in the reverse of the lexicographic
order, so a tetrahedron has the edges `23, 13, 12, 03, 02, 01`, and facet `i` of a triangle or a
tetrahedron lies opposite vertex `i`. Facet `i` of an interval is vertex `i` itself.
-/

namespace Shape

/-- The entities of dimension `dim` in local order, each by its increasing local vertices; there are
none beyond the dimension of the shape. -/
def entities : Shape → Nat → List (List Nat)
  | .interval, 0 => [[0], [1]]
  | .interval, 1 => [[0, 1]]
  | .triangle, 0 => [[0], [1], [2]]
  | .triangle, 1 => [[1, 2], [0, 2], [0, 1]]
  | .triangle, 2 => [[0, 1, 2]]
  | .tetrahedron, 0 => [[0], [1], [2], [3]]
  | .tetrahedron, 1 => [[2, 3], [1, 3], [1, 2], [0, 3], [0, 2], [0, 1]]
  | .tetrahedron, 2 => [[1, 2, 3], [0, 2, 3], [0, 1, 3], [0, 1, 2]]
  | .tetrahedron, 3 => [[0, 1, 2, 3]]
  | _, _ => []

def numEntities (shape : Shape) (dim : Nat) : Nat := (shape.entities dim).length

def entityVertices (shape : Shape) (dim index : Nat) : Except Fault (List Nat) :=
  if shape.dimension < dim then .error (.noEntities shape dim)
  else Index.entry (shape.entities dim) index

/-- The entities of dimension `dim` whose vertices all lie in `vertices`, in local order. -/
def entitiesWithin (shape : Shape) (vertices : List Nat) (dim : Nat) : List (Nat × Nat) :=
  (shape.entities dim).zipIdx.filterMap fun (entity, index) =>
    if entity.all vertices.contains then some (dim, index) else none

def facetVertices (shape : Shape) (facet : Nat) : List Nat :=
  (shape.entities (shape.dimension - 1)).getD facet []

/-- The entities `(dim, index)` in the closure of a facet, by dimension and then by local index. -/
def facetClosure (shape : Shape) (facet : Nat) : List (Nat × Nat) :=
  (List.range shape.dimension).flatMap (shape.entitiesWithin (shape.facetVertices facet))

def closureOfFacet (shape : Shape) (facet : Nat) : Except Fault (List (Nat × Nat)) :=
  if facet < shape.numFacets then .ok (shape.facetClosure facet) else .error .outOfBounds

theorem facetClosure_interval : facetClosure .interval 0 = [(0, 0)] := by decide

theorem facetClosure_triangle : facetClosure .triangle 0 = [(0, 1), (0, 2), (1, 0)] := by
  decide

theorem facetClosure_tetrahedron : facetClosure .tetrahedron 0 =
    [(0, 1), (0, 2), (0, 3), (1, 0), (1, 1), (1, 2), (2, 0)] := by
  decide

theorem entities_eq_nil {shape : Shape} {dim : Nat} (h : shape.dimension < dim) :
    shape.entities dim = [] := by
  cases shape <;> unfold dimension at h <;> unfold entities <;> split <;> simp_all

theorem numEntities_zero (shape : Shape) : shape.numEntities 0 = shape.numVertices := by
  cases shape <;> rfl

theorem numEntities_dimension (shape : Shape) : shape.numEntities shape.dimension = 1 := by
  cases shape <;> rfl

theorem numEntities_facet (shape : Shape) :
    shape.numEntities (shape.dimension - 1) = shape.numFacets := by
  cases shape <;> rfl

end Shape
end FiniteElement
