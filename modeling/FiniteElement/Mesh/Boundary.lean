import FiniteElement.DofMap.Basic
import FiniteElement.Mesh.Basic

/-!
# The boundary of a mesh

A facet lies on the boundary if it belongs to no other cell. A node lies on the boundary if it is a
degree of freedom on the closure of a boundary facet.
-/

namespace FiniteElement.Mesh

variable {α : Type}

def facetTable (mesh : Mesh α) : EntityTable :=
  mesh.tables.getD (mesh.dimension - 1) ⟨0, #[]⟩

def facetUses (mesh : Mesh α) : Array Nat :=
  mesh.facetTable.ofCell.foldl
    (fun uses facets => facets.foldl (fun uses facet => uses.modify facet (· + 1)) uses)
    (Array.replicate mesh.facetTable.count 0)

def boundaryFacets (mesh : Mesh α) : List (Nat × Nat) :=
  let uses := mesh.facetUses
  mesh.facetTable.ofCell.toList.zipIdx.flatMap fun (facets, cell) =>
    facets.zipIdx.filterMap fun (facet, localFacet) =>
      if uses[facet]? = some 1 then some (cell, localFacet) else none

/-- A walk over facets: the buffers that each facet uses again, and the nodes found so far. -/
structure FacetWalk (α : Type) where
  nodeBuffer : List Nat
  dofBuffer : List Nat
  coordinates : Array α := #[]
  found : Array Nat := #[]

/-- Adds the nodes of a cell on the closure of one of its facets, in local order, if there is room
for them. -/
def visitFacet (mesh : Mesh α) (map : DofMap α) (walk : FacetWalk α) (facet : Nat × Nat) :
    Except Fault (FacetWalk α) := do
  let (view, coordinates) ← mesh.view facet.1 walk.coordinates
  let nodes ← map.writeNodes mesh.entityCounts view walk.nodeBuffer
  let dofs ← map.writeFacetDofs facet.2 walk.dofBuffer
  let onFacet ← dofs.mapM (Index.entry nodes)
  let _ ← Index.length (walk.found.size + onFacet.length)
  return ⟨nodes, dofs, coordinates, walk.found ++ onFacet⟩

/-- The nodes on the boundary, in increasing order. The facets are listed first, in two words each.
Without a facet on the boundary the buffers stay empty. -/
def boundaryNodes (mesh : Mesh α) (map : DofMap α) : Except Fault (List Nat) := do
  let size ← Index.length (← map.localDimension)
  let facetSize ← Index.length (← map.facetDimension)
  match mesh.boundaryFacets with
  | [] => return []
  | facets =>
    let _ ← Index.length (2 * facets.length)
    let walk ← facets.foldlM (mesh.visitFacet map)
      ⟨List.replicate size 0, List.replicate facetSize 0, #[], #[]⟩
    return (walk.found.toList.mergeSort (· ≤ ·)).eraseReps

end FiniteElement.Mesh
