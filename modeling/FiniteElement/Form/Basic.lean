import FiniteElement.DofMap.Basic

/-!
# Forms

A form of rank `r` with `n` coefficients takes a tensor of rank `r` from each cell: the values of a
multilinear map on the basis functions of its arguments, with the coefficients held fixed. A form is
described by its rank, its number of coefficients and its dof maps, first those of the arguments and
then those of the coefficients. Nothing here makes the three agree; an assembler checks that.
-/

namespace FiniteElement

/-- A form with the dof maps of its arguments and coefficients. `computeTensor` fills the element
tensor of a cell, given the nodal values of each coefficient on the cell; tensors of rank two are
stored row by row. A degenerate cell shows in entries that are no numbers. -/
structure Form (α : Type) where
  signature : String
  rank : Nat
  numCoefficients : Nat
  dofMaps : List (DofMap α)
  computeTensor : {n : Nat} → Vector α n → List (List α) → CellView α → Except Fault (Vector α n)

namespace Form

variable {α : Type}

/-- The dof maps of the arguments; there must be at least `rank` dof maps. -/
def argumentMaps (form : Form α) : Except Fault (List (DofMap α)) :=
  (Index.split form.rank form.dofMaps).map Prod.fst

def coefficientMaps (form : Form α) : Except Fault (List (DofMap α)) :=
  (Index.split form.rank form.dofMaps).map Prod.snd

def tensorShape (form : Form α) : Except Fault (List Nat) := do
  let maps ← form.argumentMaps
  maps.mapM DofMap.localDimension

def tensorSize (form : Form α) : Except Fault Nat := do
  Index.product (← form.tensorShape)

end Form

/-- The space of a coefficient: one value per cell or one value per vertex. -/
inductive PiecewiseSpace where
  | constant
  | linear
  deriving DecidableEq, Repr

namespace PiecewiseSpace

def all : List PiecewiseSpace := [.constant, .linear]

def name : PiecewiseSpace → String
  | .constant => "Constant"
  | .linear => "Linear"

def title : PiecewiseSpace → String
  | .constant => "P0"
  | .linear => "P1"

variable {α : Type} [Scalar α]

def layout (space : PiecewiseSpace) (shape : Shape) : DofLayout α :=
  match space with
  | .constant => DofLayout.p0 shape
  | .linear => DofLayout.p1 shape

def dofMap (space : PiecewiseSpace) (shape : Shape) : DofMap α :=
  match space with
  | .constant => .single (LayoutMap.p0 shape)
  | .linear => .single (LayoutMap.p1 shape)

end PiecewiseSpace
end FiniteElement
