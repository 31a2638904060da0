import FiniteElement.DofMap.LayoutMap
import FiniteElement.Text

/-!
# Dof maps

The global numbering of the degrees of freedom of a finite element space. A space is that of a
single layout or a mixed space, whose components are spaces in turn. The local degrees of freedom
of a component follow those of the components before it, and its global numbers are shifted by the
global dimensions of the components before it. A buffer is handed to the components in pieces, one
after the other.
-/

namespace FiniteElement

inductive DofMap (α : Type) where
  | single (map : LayoutMap α)
  | mixed (components : List (DofMap α))

namespace DofMap

variable {α : Type}

def ofLayout (layout : DofLayout α) : Except Fault (DofMap α) :=
  (LayoutMap.ofLayout layout).map single

/-- The space with `n` copies of a layout, each stored in two words. Without copies the layout is
not looked at. -/
def vector (layout : DofLayout α) (n : Nat) : Except Fault (DofMap α) := do
  discard (Index.length (2 * n))
  if n = 0 then return mixed []
  let component ← ofLayout layout
  return mixed (List.replicate n component)

def components : DofMap α → List (DofMap α)
  | single _ => []
  | mixed components => components

def component? (map : DofMap α) : List Nat → Option (DofMap α)
  | [] => some map
  | i :: path => map.components[i]?.bind fun component => component.component? path

mutual

def signature : DofMap α → String
  | single map => map.signature
  | mixed components => "Mixed(" ++ ", ".intercalate (signatures components) ++ ")"

def signatures : List (DofMap α) → List String
  | [] => []
  | map :: rest => map.signature :: signatures rest

end

/-- A description of a mixed space for debugging. -/
def describe? : DofMap α → Option String
  | single _ => none
  | map@(mixed _) => some ("MixedNodeMap \x7b signature: " ++ quote map.signature ++ " \x7d")

/-- The dimension of the cells that the map is built for; a mixed space reports that of its first
component, and zero if it has none. -/
def dimension : DofMap α → Nat
  | single map => map.dimension
  | mixed [] => 0
  | mixed (first :: _) => first.dimension

mutual

def size : DofMap α → Nat
  | single map => map.localDimension
  | mixed components => totalSize components

def totalSize : List (DofMap α) → Nat
  | [] => 0
  | map :: rest => map.size + totalSize rest

end

def localDimension (map : DofMap α) : Except Fault Nat := Index.guard map.size

mutual

def globalDimension (mesh : EntityCounts) : DofMap α → Except Fault Nat
  | single map => map.globalDimension mesh
  | mixed components => totalGlobalDimension mesh components

def totalGlobalDimension (mesh : EntityCounts) : List (DofMap α) → Except Fault Nat
  | [] => .ok 0
  | map :: rest => do
    let own ← map.globalDimension mesh
    let others ← totalGlobalDimension mesh rest
    Index.add own others

end

mutual

def usesEntities (dim : Nat) : DofMap α → Bool
  | single map => map.usesEntities dim
  | mixed components => someUsesEntities dim components

def someUsesEntities (dim : Nat) : List (DofMap α) → Bool
  | [] => false
  | map :: rest => map.usesEntities dim || someUsesEntities dim rest

end

mutual

def facetSize : DofMap α → Nat
  | single map => map.facetDimension
  | mixed components => totalFacetSize components

def totalFacetSize : List (DofMap α) → Nat
  | [] => 0
  | map :: rest => map.facetSize + totalFacetSize rest

end

def facetDimension (map : DofMap α) : Except Fault Nat := Index.guard map.facetSize

mutual

def writeNodes (mesh : EntityCounts) (cell : CellView α) (map : DofMap α) (buffer : List Nat) :
    Except Fault (List Nat) :=
  match map with
  | single map => map.writeNodes mesh cell buffer
  | mixed components => writeNodesFrom mesh cell components 0 buffer

/-- Writes the global indices of several spaces one after the other, the first of them shifted by
`offset`, and leaves the rest of the buffer as it is. -/
def writeNodesFrom (mesh : EntityCounts) (cell : CellView α) (maps : List (DofMap α))
    (offset : Nat) (buffer : List Nat) : Except Fault (List Nat) :=
  match maps with
  | [] => .ok buffer
  | map :: rest => do
    let n ← map.localDimension
    let (own, others) ← Index.split n buffer
    let nodes ← writeNodes mesh cell map own
    let shifted ← nodes.mapM (Index.add offset)
    let count ← map.globalDimension mesh
    let next ← Index.add offset count
    let written ← writeNodesFrom mesh cell rest next others
    return shifted ++ written

end

mutual

def writeFacetDofs (facet : Nat) (map : DofMap α) (buffer : List Nat) :
    Except Fault (List Nat) :=
  match map with
  | single map => map.writeFacetDofs facet buffer
  | mixed components => writeFacetDofsFrom facet components 0 buffer

/-- Writes the local degrees of freedom of several spaces on the closure of a facet one after the
other, the first of them shifted by `offset`, and leaves the rest of the buffer as it is. -/
def writeFacetDofsFrom (facet : Nat) (maps : List (DofMap α)) (offset : Nat)
    (buffer : List Nat) : Except Fault (List Nat) :=
  match maps with
  | [] => .ok buffer
  | map :: rest => do
    let size ← map.localDimension
    let next ← Index.add offset size
    let n ← map.facetDimension
    let (own, others) ← Index.split n buffer
    let dofs ← writeFacetDofs facet map own
    let shifted ← dofs.mapM (Index.add offset)
    let written ← writeFacetDofsFrom facet rest next others
    return shifted ++ written

end

mutual

def writePoints [Scalar α] (cell : CellView α) (map : DofMap α) (buffer : List α) :
    Except Fault (List α) :=
  match map with
  | single map => map.writePoints cell buffer
  | mixed components => writePointsFrom cell components buffer

/-- Writes the points of several spaces one after the other, each into a piece of the buffer with
room for all degrees of freedom of the space, and leaves the rest of the buffer as it is. -/
def writePointsFrom [Scalar α] (cell : CellView α) (maps : List (DofMap α))
    (buffer : List α) : Except Fault (List α) :=
  match maps with
  | [] => .ok buffer
  | map :: rest => do
    let n ← map.localDimension
    let (own, others) ← Index.split (cell.geometricDimension * n) buffer
    let points ← writePoints cell map own
    let written ← writePointsFrom cell rest others
    return points ++ written

end

end DofMap
end FiniteElement
