import FiniteElement.Form.Basic

/-!
# Forms on linear elements and their catalogue

The forms that the library offers, and the names under which they can be asked for.
-/

namespace FiniteElement

/-! ## Forms on linear elements

The mass and stiffness matrices, the load of a source and the integral of a coefficient, for
piecewise linear arguments on cells that fill their space. All basis functions and their gradients
are integrated exactly.
-/

variable {α : Type} [Scalar α]

/-- Entry `(i, j)` of the mass matrix of linear elements on a simplex of dimension `d`: the integral
of the product of two barycentric coordinates, `volume * (1 + [i = j]) / ((d + 1) * (d + 2))`. -/
def massEntry (volume : α) (d i j : Nat) : α :=
  let scale := volume /
    ((Scalar.ofNat d + Scalar.one) * (Scalar.ofNat d + Scalar.ofNat 2))
  if i = j then Scalar.ofNat 2 * scale else scale

namespace Form

/-- The form `(u, v) ↦ ∫ u v`. -/
def mass (shape : Shape) : Form α where
  signature := s!"MassMatrix({shape.name})"
  rank := 2
  numCoefficients := 0
  dofMaps := [.single (LayoutMap.p1 shape), .single (LayoutMap.p1 shape)]
  computeTensor := fun {n} _ _ cell => do
    let simplex ← AffineCell.ofCell cell
    let volume := simplex.volume
    let rows := simplex.dimension + 1
    if n = rows * rows then
      return Vector.ofFn fun k => massEntry volume simplex.dimension (k / rows) (k % rows)
    else .error .tensorLength

/-- Entry `(i, j)` of the stiffness matrix on a simplex with the given gradients of basis functions.
Only one of `(i, j)` and `(j, i)` is computed. -/
def stiffnessEntry (volume : α) (gradients : List (Vec3 α)) (i j : Nat) : α :=
  let gradient := fun k => gradients.getD k ⟨Scalar.zero, Scalar.zero, Scalar.zero⟩
  volume * (gradient (min i j)).dot (gradient (max i j))

/-- The form `(u, v) ↦ ∫ grad u · grad v`. -/
def laplace (shape : Shape) : Form α where
  signature := s!"LaplaceMatrix({shape.name})"
  rank := 2
  numCoefficients := 0
  dofMaps := [.single (LayoutMap.p1 shape), .single (LayoutMap.p1 shape)]
  computeTensor := fun {n} _ _ cell => do
    let simplex ← AffineCell.ofCell cell
    let volume := simplex.volume
    let gradients := simplex.gradients
    let rows := simplex.dimension + 1
    if n = rows * rows then
      return Vector.ofFn fun k => stiffnessEntry volume gradients (k / rows) (k % rows)
    else .error .tensorLength

def constantLoad (volume value : α) (numVertices : Nat) : α :=
  value * volume / Scalar.ofNat numVertices

/-- The load on vertex `i` of a source with the given values at the vertices of a simplex: row `i`
of the mass matrix times the values. -/
def linearLoad (volume : α) (d : Nat) (values : List α) (i : Nat) : α :=
  Scalar.sum (values.zipIdx.map fun (value, j) => massEntry volume d i j * value)

/-- The form `v ↦ ∫ f v` of a source coefficient `f`. -/
def source (shape : Shape) (space : PiecewiseSpace) : Form α where
  signature := s!"SourceVector({shape.name}, {space.title})"
  rank := 1
  numCoefficients := 1
  dofMaps := [.single (LayoutMap.p1 shape), space.dofMap shape]
  computeTensor := fun {n} _ w cell => do
    let simplex ← AffineCell.ofCell cell
    let volume := simplex.volume
    let rows := simplex.dimension + 1
    let values ← Index.entry w 0
    if n ≠ rows then .error .tensorLength
    else match space with
      | .constant =>
        let value ← Index.entry values 0
        return Vector.replicate n (constantLoad volume value rows)
      | .linear =>
        let (used, _) ← Index.split rows values
        return Vector.ofFn fun i => linearLoad volume simplex.dimension used i

def mean (values : List α) : α := Scalar.sum values / Scalar.ofNat values.length

/-- The form `∫ w` of one coefficient `w`: the volume of the cell times the mean of its values. -/
def integral (shape : Shape) (space : PiecewiseSpace) : Form α where
  signature := s!"CoefficientIntegral({shape.name}, {space.title})"
  rank := 0
  numCoefficients := 1
  dofMaps := [space.dofMap shape]
  computeTensor := fun {n} tensor w cell => do
    let simplex ← AffineCell.ofCell cell
    let values ← Index.entry w 0
    if h : 0 < n then return tensor.set 0 (simplex.volume * mean values) h
    else .error .outOfBounds

end Form

/-! ## Catalogue of forms and spaces

The forms and dof maps on triangles and tetrahedra that can be asked for by name. The source has a
linear coefficient and the integral a constant one.
-/

namespace Catalogue

def formsOn (shape : Shape) (label : String) : List (String × Form α) :=
  [(label ++ "_mass", .mass shape),
    (label ++ "_laplace", .laplace shape),
    (label ++ "_source", .source shape .linear),
    (label ++ "_integral", .integral shape .constant)]

def dofMapsOn (shape : Shape) (label : String) : List (String × DofMap α) :=
  [(label ++ "_p0", .single (LayoutMap.p0 shape)),
    (label ++ "_p1", .single (LayoutMap.p1 shape)),
    (label ++ "_p2", .single (LayoutMap.p2 shape))]

def forms : List (String × Form α) :=
  formsOn .triangle "triangle" ++ formsOn .tetrahedron "tetrahedron"

def dofMaps : List (String × DofMap α) :=
  dofMapsOn .triangle "triangle" ++ dofMapsOn .tetrahedron "tetrahedron"

def form? (name : String) : Option (Form α) := forms.lookup name

def dofMap? (name : String) : Option (DofMap α) := dofMaps.lookup name

end Catalogue
end FiniteElement
