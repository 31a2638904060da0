import FiniteElement.Basic

/-!
# Geometry of cells

Numbers, vectors of three components, views of one cell of a mesh, and the affine map from a
reference simplex to such a cell.
-/

namespace FiniteElement

/-! ## Scalars

The arithmetic that coordinates, coefficients and element tensors use, and no more than that: every
formula of the library is written once over `Scalar`. On `Float` it is executed bit for bit in the
order in which it is written, on `Rat` it is exact.
-/

class Scalar (α : Type) extends Add α, Sub α, Mul α, Div α, Neg α where
  /-- The number that stands for a count. -/
  ofNat : Nat → α
  abs : α → α
  /-- The value of a sum over no terms, to which the terms are added from the left. -/
  emptySum : α
  /-- The entries of an inverse that does not exist. -/
  undefined : α
  /-- Whether a determinant counts as singular. -/
  isZero : α → Bool
  /-- Whether a tensor entry is a number. -/
  isFinite : α → Bool

namespace Scalar

variable {α : Type} [Scalar α]

def zero : α := ofNat 0

def one : α := ofNat 1

/-- The sum of a list from the left, starting from the empty sum. -/
def sum (xs : List α) : α := xs.foldl (· + ·) emptySum

def product (xs : List α) : α := xs.foldl (· * ·) one

end Scalar

/-- Double precision. A sum over no terms is minus zero, the neutral element of its addition. -/
instance : Scalar Float where
  ofNat n := if n < Nat.pow 2 64 then n.toUInt64.toFloat else Float.ofNat n
  abs := Float.abs
  emptySum := -0.0
  undefined := 0.0 / 0.0
  isZero x := x == 0.0
  isFinite := Float.isFinite

/-- Exact rational numbers. All of them are finite, and what is undefined is zero. -/
instance : Scalar Rat where
  ofNat n := n
  abs := Rat.abs
  emptySum := 0
  undefined := 0
  isZero x := x == 0
  isFinite _ := true

/-- Exact rational numbers, and one value for everything undefined. -/
instance : Scalar (Option Rat) where
  add x y := do return (← x) + (← y)
  sub x y := do return (← x) - (← y)
  mul x y := do return (← x) * (← y)
  div x y := do
    let y ← y
    if y = 0 then none else return (← x) / y
  neg x := x.map (- ·)
  ofNat n := some n
  abs x := x.map Rat.abs
  emptySum := some 0
  undefined := none
  isZero x := x = some 0
  isFinite x := x.isSome

/-! ## Vectors and matrices of three components

Points and gradients of cells of every dimension are kept in three components, the unused ones zero.
The determinant and the inverse are written out by cofactors; the order of the operations is part of
their meaning on rounded numbers.
-/

structure Vec3 (α : Type) where
  x : α
  y : α
  z : α
  deriving DecidableEq, Repr

/-- A three by three matrix, by columns. -/
structure Mat3 (α : Type) where
  col0 : Vec3 α
  col1 : Vec3 α
  col2 : Vec3 α
  deriving DecidableEq, Repr

namespace Vec3

variable {α : Type}

def ofFn (component : Nat → α) : Vec3 α := ⟨component 0, component 1, component 2⟩

def toList (v : Vec3 α) : List α := [v.x, v.y, v.z]

def map (f : α → α) (v : Vec3 α) : Vec3 α := ⟨f v.x, f v.y, f v.z⟩

variable [Scalar α]

/-- The first three entries of a list, with zeros for the missing ones. -/
def ofList (xs : List α) : Vec3 α := ofFn fun i => xs.getD i Scalar.zero

def unit (axis : Nat) : Vec3 α := ofFn fun i => if i = axis then Scalar.one else Scalar.zero

def add (u v : Vec3 α) : Vec3 α := ⟨u.x + v.x, u.y + v.y, u.z + v.z⟩

def sub (u v : Vec3 α) : Vec3 α := ⟨u.x - v.x, u.y - v.y, u.z - v.z⟩

def dot (u v : Vec3 α) : α := u.x * v.x + u.y * v.y + u.z * v.z

end Vec3

namespace Mat3

variable {α : Type} [Scalar α]

def transpose (m : Mat3 α) : Mat3 α where
  col0 := ⟨m.col0.x, m.col1.x, m.col2.x⟩
  col1 := ⟨m.col0.y, m.col1.y, m.col2.y⟩
  col2 := ⟨m.col0.z, m.col1.z, m.col2.z⟩

def const (a : α) : Mat3 α := ⟨⟨a, a, a⟩, ⟨a, a, a⟩, ⟨a, a, a⟩⟩

def column (m : Mat3 α) (j : Nat) : Vec3 α :=
  if j = 0 then m.col0 else if j = 1 then m.col1 else m.col2

/-- The product with a vector; each component adds the later terms in front. -/
def mulVec (m : Mat3 α) (v : Vec3 α) : Vec3 α where
  x := m.col2.x * v.z + (m.col1.x * v.y + m.col0.x * v.x)
  y := m.col2.y * v.z + (m.col1.y * v.y + m.col0.y * v.x)
  z := m.col2.z * v.z + (m.col1.z * v.y + m.col0.z * v.x)

def minor0 (m : Mat3 α) : α := m.col1.y * m.col2.z - m.col1.z * m.col2.y

def minor1 (m : Mat3 α) : α := m.col0.y * m.col2.z - m.col0.z * m.col2.y

def minor2 (m : Mat3 α) : α := m.col0.y * m.col1.z - m.col0.z * m.col1.y

def det (m : Mat3 α) : α :=
  m.col0.x * m.minor0 - m.col1.x * m.minor1 + m.col2.x * m.minor2

/-- The matrix of cofactors, transposed: the inverse up to the factor `det`. -/
def adjugate (m : Mat3 α) : Mat3 α where
  col0 := ⟨m.minor0, -m.minor1, m.minor2⟩
  col1 :=
    ⟨m.col2.x * m.col1.z - m.col2.z * m.col1.x,
      m.col0.x * m.col2.z - m.col0.z * m.col2.x,
      m.col1.x * m.col0.z - m.col0.x * m.col1.z⟩
  col2 :=
    ⟨m.col1.x * m.col2.y - m.col2.x * m.col1.y,
      m.col2.x * m.col0.y - m.col0.x * m.col2.y,
      m.col0.x * m.col1.y - m.col1.x * m.col0.y⟩

def inverse? (m : Mat3 α) : Option (Mat3 α) :=
  let d := m.det
  if Scalar.isZero d then none
  else
    let adj := m.adjugate
    some ⟨adj.col0.map (· / d), adj.col1.map (· / d), adj.col2.map (· / d)⟩

end Mat3

/-! ## Views of a mesh and of one cell

What dof maps and forms see of a mesh: the numbers of its entities, and one cell at a time with the
global numbers of its entities and the coordinates of its vertices.
-/

structure EntityCounts where
  counts : List Nat
  deriving DecidableEq, Repr

namespace EntityCounts

def numEntities (mesh : EntityCounts) (dim : Nat) : Except Fault Nat :=
  Index.entry mesh.counts dim

def dimension (mesh : EntityCounts) : Nat := mesh.counts.length - 1

end EntityCounts

/-- A view of one cell. `entities` lists the global indices of its entities by dimension, each in
the local order of the reference cell; `coordinates` holds its vertices one after the other, each
with `geometricDimension` coordinates. -/
structure CellView (α : Type) where
  entities : List (List Nat)
  coordinates : Array α
  geometricDimension : Nat
  geometricDimension_pos : 0 < geometricDimension
  size_coordinates_mod : coordinates.size % geometricDimension = 0

namespace CellView

variable {α : Type}

def ofParts (entities : List (List Nat)) (coordinates : Array α) (geometricDimension : Nat) :
    Except Fault (CellView α) :=
  if h : 0 < geometricDimension ∧ coordinates.size % geometricDimension = 0 then
    .ok ⟨entities, coordinates, geometricDimension, h.1, h.2⟩
  else .error .raggedCell

def dimension (cell : CellView α) : Nat := cell.entities.length - 1

def numVertices (cell : CellView α) : Nat := cell.coordinates.size / cell.geometricDimension

def entityIndices (cell : CellView α) (dim : Nat) : Except Fault (List Nat) :=
  Index.entry cell.entities dim

def vertex (cell : CellView α) (i : Nat) : Except Fault (List α) :=
  let d := cell.geometricDimension
  if d * (i + 1) ≤ cell.coordinates.size then
    .ok (cell.coordinates.extract (d * i) (d * (i + 1))).toList
  else .error .outOfBounds

/-- The coordinates of a local vertex as a point of dimension `d`, which must be the cell's. -/
def vertexIn (cell : CellView α) (d i : Nat) : Except Fault (List α) :=
  if d = cell.geometricDimension then cell.vertex i else .error .pointDimension

theorem size_coordinates (cell : CellView α) :
    cell.coordinates.size = cell.geometricDimension * cell.numVertices :=
  (Nat.mul_div_cancel' (Nat.dvd_of_mod_eq_zero cell.size_coordinates_mod)).symm

/-- The vertices that exist are those below `numVertices`. -/
theorem vertex_eq_ok {cell : CellView α} {i : Nat} (h : i < cell.numVertices) :
    cell.vertex i = .ok (cell.coordinates.extract (cell.geometricDimension * i)
      (cell.geometricDimension * (i + 1))).toList := by
  have hle : cell.geometricDimension * (i + 1) ≤ cell.coordinates.size := by
    rw [cell.size_coordinates]
    exact Nat.mul_le_mul_left _ h
  simp [vertex, hle]

end CellView

/-! ## Affine geometry of cells

The affine map from a reference simplex to a cell that fills its space. The Jacobian is padded with
the identity to three dimensions, which changes neither its determinant nor its inverse on the
dimensions in use.
-/

/-- The affine map `xi ↦ origin + jacobian * xi` from the reference simplex of a dimension. -/
structure AffineCell (α : Type) where
  dimension : Nat
  origin : Vec3 α
  jacobian : Mat3 α
  deriving DecidableEq, Repr

namespace AffineCell

variable {α : Type} [Scalar α]

/-- The column `j` of the Jacobian with the given corners: the edge from the origin to corner
`j + 1`, or a unit vector beyond the dimension of the cell. -/
def edge (origin : Vec3 α) (corners : List (Vec3 α)) (j : Nat) : Vec3 α :=
  match corners[j]? with
  | some corner => corner.sub origin
  | none => Vec3.unit j

def ofCorners (origin : Vec3 α) (corners : List (Vec3 α)) : AffineCell α where
  dimension := corners.length
  origin := origin
  jacobian := ⟨edge origin corners 0, edge origin corners 1, edge origin corners 2⟩

/-- The affine map of a cell of dimension 1, 2 or 3 that fills its space. -/
def ofCell (cell : CellView α) : Except Fault (AffineCell α) :=
  if cell.dimension < 1 ∨ 3 < cell.dimension then .error .unsupportedDimension
  else if cell.geometricDimension ≠ cell.dimension then .error .notVolumetric
  else do
    let origin ← cell.vertex 0
    let corners ← (List.range cell.dimension).mapM fun j => cell.vertex (j + 1)
    return ofCorners (Vec3.ofList origin) (corners.map Vec3.ofList)

def det (simplex : AffineCell α) : α := simplex.jacobian.det

/-- The length, area or volume: the determinant over the factorial of the dimension. -/
def volume (simplex : AffineCell α) : α :=
  Scalar.abs simplex.det /
    Scalar.product ((List.range simplex.dimension).map fun k => Scalar.ofNat (k + 1))

def toPhysical (simplex : AffineCell α) (point : List α) : Except Fault (Vec3 α) :=
  if simplex.dimension ≤ point.length then
    .ok (simplex.origin.add
      (simplex.jacobian.mulVec (Vec3.ofList (point.take simplex.dimension))))
  else .error .outOfBounds

/-- The inverse transpose of the Jacobian, which carries gradients over; undefined in all entries
where the Jacobian is singular. -/
def inverseTranspose (simplex : AffineCell α) : Mat3 α :=
  match simplex.jacobian.inverse? with
  | some inverse => inverse.transpose
  | none => Mat3.const Scalar.undefined

def firstReferenceGradient (dimension : Nat) : Vec3 α :=
  Vec3.ofFn fun i => if i < dimension then -Scalar.one else Scalar.zero

def gradients (simplex : AffineCell α) : List (Vec3 α) :=
  let carry := simplex.inverseTranspose
  carry.mulVec (firstReferenceGradient simplex.dimension) ::
    (List.range simplex.dimension).map carry.column

theorem length_gradients (simplex : AffineCell α) :
    simplex.gradients.length = simplex.dimension + 1 := by
  simp [gradients]

end AffineCell
end FiniteElement
