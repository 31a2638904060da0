import FiniteElement.Geometry
import FiniteElement.Mesh.Basic

/-!
# Uniform meshes of the unit cube

The unit interval in `n` intervals; the unit square in `n * n` squares of two triangles each, cut
along the diagonal from the lower left to the upper right corner; the unit cube in `n ^ 3` cubes of
six tetrahedra each, which share the diagonal from the lower to the upper corner. Neighbouring cubes
are cut alike on their common face. Without cells there are no vertices either.
-/

namespace FiniteElement

inductive UnitMesh where
  | interval
  | square
  | box
  deriving DecidableEq, Repr

namespace UnitMesh

variable {α : Type}

section Points

variable [Scalar α]

def width (n : Nat) : α := Scalar.one / Scalar.ofNat n

def point (n : Nat) (steps : List Nat) : List α :=
  steps.map fun i => Scalar.ofNat i * width n

end Points

def unitInterval [Scalar α] (n : Nat) : Mesh α where
  shape := .interval
  geometricDimension := 1
  points := if n = 0 then #[] else ((List.range (n + 1)).map fun i => point n [i]).toArray
  cells := ((List.range n).map fun i => [i, i + 1]).toArray

def squareLattice (n : Nat) : List (List Nat) :=
  (List.range (n + 1)).flatMap fun j => (List.range (n + 1)).map fun i => [i, j]

def squareVertex (n i j : Nat) : Nat := (n + 1) * j + i

def squareCells (n i j : Nat) : List (List Nat) :=
  let v := squareVertex n
  [[v i j, v (i + 1) j, v (i + 1) (j + 1)], [v i j, v (i + 1) (j + 1), v i (j + 1)]]

def unitSquare [Scalar α] (n : Nat) : Mesh α where
  shape := .triangle
  geometricDimension := 2
  points := if n = 0 then #[] else ((squareLattice n).map (point n)).toArray
  cells := ((List.range n).flatMap fun j => (List.range n).flatMap fun i =>
    squareCells n i j).toArray

def boxLattice (n : Nat) : List (List Nat) :=
  (List.range (n + 1)).flatMap fun k => (List.range (n + 1)).flatMap fun j =>
    (List.range (n + 1)).map fun i => [i, j, k]

def boxVertex (n i j k : Nat) : Nat := (n + 1) * (n + 1) * k + (n + 1) * j + i

def axisOrders : List (List Nat) :=
  [[0, 1, 2], [0, 2, 1], [1, 0, 2], [1, 2, 0], [2, 0, 1], [2, 1, 0]]

/-- The vertices met on a walk from a lattice point one step along each of the axes in turn. -/
def walk (n : Nat) (i j k : Nat) : List Nat → List Nat
  | [] => [boxVertex n i j k]
  | axis :: rest =>
    boxVertex n i j k ::
      (if axis = 0 then walk n (i + 1) j k rest
       else if axis = 1 then walk n i (j + 1) k rest
       else walk n i j (k + 1) rest)

/-- The six tetrahedra of the cube with the given lower corner: one for each walk to the upper
corner. -/
def boxCells (n i j k : Nat) : List (List Nat) := axisOrders.map (walk n i j k)

def unitBox [Scalar α] (n : Nat) : Mesh α where
  shape := .tetrahedron
  geometricDimension := 3
  points := if n = 0 then #[] else ((boxLattice n).map (point n)).toArray
  cells := ((List.range n).flatMap fun k => (List.range n).flatMap fun j =>
    (List.range n).flatMap fun i => boxCells n i j k).toArray

def mesh [Scalar α] (kind : UnitMesh) (n : Nat) : Mesh α :=
  match kind with
  | interval => unitInterval n
  | square => unitSquare n
  | box => unitBox n

def shape : UnitMesh → Shape
  | interval => .interval
  | square => .triangle
  | box => .tetrahedron

def numCells (kind : UnitMesh) (n : Nat) : Nat :=
  match kind with
  | interval => n
  | square => 2 * Nat.pow n 2
  | box => 6 * Nat.pow n 3

/-- The numbers of entities of the dimensions between those of vertices and cells. -/
def innerCounts (kind : UnitMesh) (n : Nat) : List Nat :=
  match kind with
  | interval => []
  | square => [3 * Nat.pow n 2 + 2 * n]
  | box => [7 * Nat.pow n 3 + 9 * Nat.pow n 2 + 3 * n, 12 * Nat.pow n 3 + 6 * Nat.pow n 2]

/-- The lengths of the lists of the mesh: the coordinates of the vertices, and for each dimension
below that of the cells the entities of all cells. -/
def listSizes (kind : UnitMesh) (n : Nat) : List Nat :=
  kind.shape.dimension * Nat.pow (n + 1) kind.shape.dimension ::
    (List.range kind.shape.dimension).map fun dim => kind.numCells n * kind.shape.numEntities dim

/-- All lists of the mesh can be stored, and so can the hash tables with which its entities are
numbered. -/
def IsStorable (kind : UnitMesh) (n : Nat) : Prop :=
  (∀ size ∈ kind.listSizes n, size < Index.capacity) ∧
    ∀ count ∈ kind.innerCounts n, count ≤ Index.tableCapacity

instance (kind : UnitMesh) (n : Nat) : Decidable (kind.IsStorable n) :=
  inferInstanceAs (Decidable (_ ∧ _))

def build [Scalar α] (kind : UnitMesh) (n : Nat) : Except Fault (Mesh α) :=
  if kind.IsStorable n then .ok (kind.mesh n) else .error .tooManyEntries

end UnitMesh
end FiniteElement
