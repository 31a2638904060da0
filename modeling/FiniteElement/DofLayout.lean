import FiniteElement.Geometry

/-!
# Layouts of degrees of freedom

The points of the reference simplices, and layouts of degrees of freedom over their entities.

Main statements: the layout of a supported element lists a count for each dimension of its shape and
has at most ten degrees of freedom (`ofElement_covers`, `ofElement_size_le`).
-/

namespace FiniteElement

/-! ## Coordinates on the reference simplices

Vertex 0 of a reference simplex is the origin and vertex `k` is the unit point of axis `k - 1`.
-/

namespace Shape

variable {α : Type} [Scalar α]

def vertexCoordinate (vertex axis : Nat) : α :=
  if vertex = axis + 1 then Scalar.one else Scalar.zero

def referenceVertex (shape : Shape) (vertex : Nat) : List α :=
  (List.range shape.dimension).map (vertexCoordinate vertex)

def referenceVertices (shape : Shape) : List α :=
  (List.range shape.numVertices).flatMap shape.referenceVertex

def barycenter (vertices : List Nat) : Vec3 α :=
  Vec3.ofFn fun axis =>
    vertices.foldl (fun acc v => acc + vertexCoordinate v axis) Scalar.zero /
      Scalar.ofNat vertices.length

def entityMidpoint (shape : Shape) (dim index : Nat) : Except Fault (Vec3 α) :=
  (shape.entityVertices dim index).map barycenter

theorem length_referenceVertex (shape : Shape) (vertex : Nat) :
    (shape.referenceVertex vertex : List α).length = shape.dimension := by
  simp [referenceVertex]

theorem length_referenceVertices (shape : Shape) :
    (shape.referenceVertices : List α).length = shape.numVertices * shape.dimension := by
  cases shape <;> rfl

end Shape

/-! ## Layouts of degrees of freedom

A layout says how many degrees of freedom of an element sit on each entity of its reference cell and
where they lie. Local degrees of freedom are numbered by the dimension of their entity, then by its
local index, then by their position on the entity.
-/

inductive ElementFamily where
  | lagrange
  | discontinuousLagrange
  deriving DecidableEq, Repr

namespace ElementFamily

def all : List ElementFamily := [.lagrange, .discontinuousLagrange]

def name : ElementFamily → String
  | .lagrange => "Lagrange"
  | .discontinuousLagrange => "DiscontinuousLagrange"

def title : ElementFamily → String
  | .lagrange => "Lagrange"
  | .discontinuousLagrange => "Discontinuous Lagrange"

end ElementFamily

structure UnsupportedElement where
  family : ElementFamily
  degree : Nat
  deriving DecidableEq, Repr

def UnsupportedElement.message (e : UnsupportedElement) : String :=
  s!"{e.family.title} elements of degree {e.degree} are not supported"

/-- The degrees of freedom of an element over the entities of its reference cell. Each entity of
dimension `d` carries entry `d` of `dofsPerEntity`. `referencePoints` holds the coordinates of the
degrees of freedom one after the other, in local order. -/
structure DofLayout (α : Type) where
  family : ElementFamily
  shape : Shape
  degree : Nat
  dofsPerEntity : List Nat
  referencePoints : List α
  deriving DecidableEq, Repr

namespace DofLayout

variable {α : Type}

def onlyOn (shape : Shape) (dim count : Nat) : List Nat :=
  (List.range (shape.dimension + 1)).map fun d => if d = dim then count else 0

section Standard

variable [Scalar α]

def p1 (shape : Shape) : DofLayout α where
  family := .lagrange
  shape := shape
  degree := 1
  dofsPerEntity := onlyOn shape 0 1
  referencePoints := shape.referenceVertices

def p2 (shape : Shape) : DofLayout α where
  family := .lagrange
  shape := shape
  degree := 2
  dofsPerEntity := (List.range (shape.dimension + 1)).map fun d => if d ≤ 1 then 1 else 0
  referencePoints := shape.referenceVertices ++
    (shape.entities 1).flatMap fun edge =>
      (Shape.barycenter edge).toList.take shape.dimension

def p0 (shape : Shape) : DofLayout α where
  family := .discontinuousLagrange
  shape := shape
  degree := 0
  dofsPerEntity := onlyOn shape shape.dimension 1
  referencePoints :=
    (Shape.barycenter (List.range shape.numVertices)).toList.take shape.dimension

/-- Discontinuous piecewise linear elements: one degree of freedom per vertex, all of them owned by
the cell. -/
def dp1 (shape : Shape) : DofLayout α where
  family := .discontinuousLagrange
  shape := shape
  degree := 1
  dofsPerEntity := onlyOn shape shape.dimension shape.numVertices
  referencePoints := shape.referenceVertices

def ofElement (family : ElementFamily) (shape : Shape) (degree : Nat) :
    Except UnsupportedElement (DofLayout α) :=
  match family, degree with
  | .lagrange, 1 => .ok (p1 shape)
  | .lagrange, 2 => .ok (p2 shape)
  | .discontinuousLagrange, 0 => .ok (p0 shape)
  | .discontinuousLagrange, 1 => .ok (dp1 shape)
  | family, degree => .error ⟨family, degree⟩

end Standard

/-- The number of degrees of freedom on each entity of a dimension; zero where none is listed. -/
def dofsOn (layout : DofLayout α) (dim : Nat) : Nat := layout.dofsPerEntity.getD dim 0

def sizeBelow (layout : DofLayout α) (dim : Nat) : Nat :=
  ((List.range dim).map fun d => layout.dofsOn d * layout.shape.numEntities d).foldr (· + ·) 0

def size (layout : DofLayout α) : Nat := layout.sizeBelow layout.dofsPerEntity.length

def localDimension (layout : DofLayout α) : Except Fault Nat := Index.guard layout.size

/-- The first local degree of freedom on the local entity `index` of dimension `dim`. -/
def entityOffset (layout : DofLayout α) (dim index : Nat) : Nat :=
  layout.sizeBelow dim + layout.dofsOn dim * index

/-- The points of the degrees of freedom: the reference coordinates in groups of the dimension of
the shape, without an incomplete last group. -/
def points (layout : DofLayout α) : List (List α) :=
  let d := layout.shape.dimension
  (List.range (layout.referencePoints.length / d)).map fun i =>
    (layout.referencePoints.drop (d * i)).take d

/-- Whether two layouts are alike, with reference points compared by the equality of numbers. -/
def alike [BEq α] (a b : DofLayout α) : Bool :=
  a.family = b.family && a.shape = b.shape && a.degree = b.degree &&
    a.dofsPerEntity == b.dofsPerEntity && a.referencePoints == b.referencePoints

section Standard

variable [Scalar α]

/-- The layout of a supported element lists every dimension of its shape. -/
theorem ofElement_covers {family : ElementFamily} {shape : Shape} {degree : Nat}
    {layout : DofLayout α} (h : ofElement family shape degree = .ok layout) :
    layout.dofsPerEntity.length = layout.shape.dimension + 1 := by
  unfold ofElement at h
  split at h <;> cases h <;> simp [p0, p1, p2, dp1, onlyOn]

/-- The layout of a supported element has at most ten degrees of freedom. -/
theorem ofElement_size_le {family : ElementFamily} {shape : Shape} {degree : Nat}
    {layout : DofLayout α} (h : ofElement family shape degree = .ok layout) :
    layout.size ≤ 10 := by
  unfold ofElement at h
  split at h <;> cases h <;> cases shape <;> exact Nat.le_of_ble_eq_true rfl

end Standard

end DofLayout
end FiniteElement
