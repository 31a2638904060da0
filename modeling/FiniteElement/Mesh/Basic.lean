import Std.Data.HashMap
import FiniteElement.Geometry

/-!
# Meshes

A mesh numbers the entities of its cells by their sets of vertices. It is made from flat lists of
coordinates and vertices that pass a check.
-/

namespace FiniteElement

/-! ## Numbering by first appearance

Keys that arrive one after the other are numbered 0, 1, 2, … in the order in which they first
appear; a key that has been seen keeps its number. Beside the running numbering stands its
meaning, `firstAppearances`: the number of a key is its place in that list.
-/

def firstAppearances {κ : Type} [BEq κ] (keys : List κ) : List κ :=
  keys.foldl (fun seen key => if seen.contains key then seen else seen ++ [key]) []

structure Numbering (κ : Type) [BEq κ] [Hashable κ] where
  numbers : Std.HashMap κ Nat

namespace Numbering

variable {κ : Type} [BEq κ] [Hashable κ]

def empty : Numbering κ := ⟨∅⟩

def size (numbering : Numbering κ) : Nat := numbering.numbers.size

def visit (numbering : Numbering κ) (key : κ) : Nat × Numbering κ :=
  match numbering.numbers[key]? with
  | some number => (number, numbering)
  | none =>
    let next := numbering.numbers.size
    (next, ⟨numbering.numbers.insert key next⟩)

def visitAll (numbering : Numbering κ) : List κ → List Nat × Numbering κ
  | [] => ([], numbering)
  | key :: rest =>
    let (number, numbering) := numbering.visit key
    let (numbers, numbering) := numbering.visitAll rest
    (number :: numbers, numbering)

end Numbering

/-! ## Global entities of a mesh

The entities of one dimension are numbered over the whole mesh. Vertices keep their indices and
cells are numbered by their place; the entities between are identified by their set of vertices
and numbered by first appearance when the cells are walked in order and each in its local order.
-/

/-- The entities of one dimension: how many there are, and those of each cell in local order. -/
structure EntityTable where
  count : Nat
  ofCell : Array (List Nat)
  deriving DecidableEq, Repr

/-- The global vertices of a local entity of a cell, in increasing order: the same list for every
cell that has the entity. -/
def entityKey (cell entity : List Nat) : List Nat :=
  (entity.map fun v => cell.getD v 0).mergeSort (· ≤ ·)

namespace EntityTable

def keys (shape : Shape) (dim : Nat) (cell : List Nat) : List (List Nat) :=
  (shape.entities dim).map (entityKey cell)

def visitCell (shape : Shape) (dim : Nat) :
    Array (List Nat) × Numbering (List Nat) → List Nat → Array (List Nat) × Numbering (List Nat)
  | (table, numbering), cell =>
    let (numbers, numbering) := numbering.visitAll (keys shape dim cell)
    (table.push numbers, numbering)

def byFirstAppearance (shape : Shape) (dim : Nat) (cells : Array (List Nat)) : EntityTable :=
  let (table, numbering) := cells.foldl (visitCell shape dim) (#[], Numbering.empty)
  ⟨numbering.size, table⟩

def ofCells (shape : Shape) (numVertices : Nat) (cells : Array (List Nat)) (dim : Nat) :
    EntityTable :=
  if dim = 0 then ⟨numVertices, cells⟩
  else if dim = shape.dimension then ⟨cells.size, (Array.range cells.size).map fun c => [c]⟩
  else byFirstAppearance shape dim cells

def all (shape : Shape) (numVertices : Nat) (cells : Array (List Nat)) : List EntityTable :=
  (List.range (shape.dimension + 1)).map (ofCells shape numVertices cells)

theorem length_all (shape : Shape) (numVertices : Nat) (cells : Array (List Nat)) :
    (all shape numVertices cells).length = shape.dimension + 1 := by
  simp [all]

end EntityTable

/-! ## Simplex meshes

A conforming mesh of simplices of one shape. A mesh is given by the coordinates of its vertices and
the vertices of its cells; the numbering of its entities follows from these and is kept beside them.
-/

/-- A mesh of simplices. Each of the `points` has `geometricDimension` coordinates, and each of the
`cells` lists its vertices in the local order of the reference cell. -/
structure Mesh (α : Type) where
  shape : Shape
  geometricDimension : Nat
  points : Array (List α)
  cells : Array (List Nat)
  tables : List EntityTable := EntityTable.all shape points.size cells
  tables_eq : tables = EntityTable.all shape points.size cells := by rfl

namespace Mesh

variable {α : Type}

def dimension (mesh : Mesh α) : Nat := mesh.shape.dimension

def numVertices (mesh : Mesh α) : Nat := mesh.points.size

def numCells (mesh : Mesh α) : Nat := mesh.cells.size

def entityCounts (mesh : Mesh α) : EntityCounts := ⟨mesh.tables.map EntityTable.count⟩

def vertices (mesh : Mesh α) : Array α := mesh.points.flatMap List.toArray

def connectivity (mesh : Mesh α) : Array Nat := mesh.cells.flatMap List.toArray

def vertex (mesh : Mesh α) (index : Nat) : Except Fault (List α) :=
  Index.slot mesh.points index

/-- The global entities of dimension `dim` of a cell in local order; both must exist. -/
def cellEntities (mesh : Mesh α) (cell dim : Nat) : Except Fault (List Nat) := do
  let table ← Index.entry mesh.tables dim
  Index.slot table.ofCell cell

def cellVertices (mesh : Mesh α) (cell : Nat) : Except Fault (List Nat) :=
  mesh.cellEntities cell 0

/-- The view of a cell that must exist. Its coordinates are gathered into the storage of a buffer,
whose old content is dropped; the buffer is given back for the next cell. -/
def view (mesh : Mesh α) (cell : Nat) (buffer : Array α) :
    Except Fault (CellView α × Array α) := do
  let entities ← (List.range (mesh.dimension + 1)).mapM (mesh.cellEntities cell)
  let vertices ← mesh.cellVertices cell
  let corners ← vertices.mapM mesh.vertex
  let coordinates := corners.foldl (fun buffer corner => corner.foldl Array.push buffer)
    (buffer.shrink 0)
  let view ← CellView.ofParts entities coordinates mesh.geometricDimension
  return (view, coordinates)

theorem length_tables (mesh : Mesh α) : mesh.tables.length = mesh.dimension + 1 := by
  rw [mesh.tables_eq, EntityTable.length_all, dimension]

/-- A mesh is determined by its shape, its dimension, its points and its cells. -/
theorem eq_of_parts {m₁ m₂ : Mesh α} (hs : m₁.shape = m₂.shape)
    (hd : m₁.geometricDimension = m₂.geometricDimension) (hp : m₁.points = m₂.points)
    (hc : m₁.cells = m₂.cells) : m₁ = m₂ := by
  obtain ⟨s₁, d₁, p₁, c₁, t₁, h₁⟩ := m₁
  obtain ⟨s₂, d₂, p₂, c₂, t₂, h₂⟩ := m₂
  simp only at hs hd hp hc
  subst hs hd hp hc h₁ h₂
  rfl

end Mesh

/-! ## Meshes as flat lists

A mesh is stored and exchanged as the flat list of its vertex coordinates and the flat list of the
vertices of its cells. Not every such pair is a mesh: `MeshError` lists what can be wrong, in the
order in which it is looked for.
-/

structure MeshData (α : Type) where
  shape : Shape
  geometricDimension : Nat
  vertices : Array α
  cells : Array Nat
  deriving DecidableEq, Repr

inductive MeshError where
  /-- The space has fewer dimensions than the cells. -/
  | spaceTooSmall (geometricDimension dimension : Nat)
  /-- The coordinates do not form whole vertices. -/
  | raggedVertices
  /-- The vertex indices do not form whole cells. -/
  | raggedCells
  /-- A cell uses a vertex that is not there. -/
  | unknownVertex (index numVertices : Nat)
  /-- A cell uses a vertex twice. -/
  | repeatedVertex (cell : List Nat)
  deriving DecidableEq, Repr

def MeshError.message : MeshError → String
  | .spaceTooSmall g d =>
    s!"Geometric dimension {g} is smaller than the topological dimension {d}"
  | .raggedVertices => "Number of vertex coordinates must be divisible by the geometric dimension"
  | .raggedCells =>
    "Number of cell vertex indices must be divisible by the number of vertices per cell"
  | .unknownVertex index count =>
    s!"Cell vertex index {index} is out of bounds for {count} vertices"
  | .repeatedVertex cell =>
    "Cell [" ++ ", ".intercalate (cell.map toString) ++ "] has repeated vertices"

/-- The entries of an array in groups of `n`, without an incomplete last group. -/
def groups {β : Type} (n : Nat) (entries : Array β) : Array (List β) :=
  (Array.range (entries.size / n)).map fun i => (entries.extract (n * i) (n * i + n)).toList

def hasRepeat : List Nat → Bool
  | [] => false
  | i :: rest => rest.contains i || hasRepeat rest

namespace MeshData

variable {α : Type}

def points (data : MeshData α) : Array (List α) := groups data.geometricDimension data.vertices

def cellLists (data : MeshData α) : Array (List Nat) := groups data.shape.numVertices data.cells

def error? (data : MeshData α) : Option MeshError :=
  let numVertices := data.vertices.size / data.geometricDimension
  if data.geometricDimension < data.shape.dimension then
    some (.spaceTooSmall data.geometricDimension data.shape.dimension)
  else if data.vertices.size % data.geometricDimension ≠ 0 then some .raggedVertices
  else if data.cells.size % data.shape.numVertices ≠ 0 then some .raggedCells
  else match data.cells.find? (numVertices ≤ ·) with
    | some index => some (.unknownVertex index numVertices)
    | none => (data.cellLists.find? hasRepeat).map .repeatedVertex

end MeshData

namespace Mesh

variable {α : Type}

def ofData (data : MeshData α) : Except MeshError (Mesh α) :=
  match data.error? with
  | some error => .error error
  | none =>
    .ok { shape := data.shape, geometricDimension := data.geometricDimension,
          points := data.points, cells := data.cellLists }

def data (mesh : Mesh α) : MeshData α where
  shape := mesh.shape
  geometricDimension := mesh.geometricDimension
  vertices := mesh.vertices
  cells := mesh.connectivity

/-- Whether two meshes are alike, with coordinates compared by the equality of numbers. -/
def alike [BEq α] (a b : Mesh α) : Bool :=
  a.shape = b.shape && a.geometricDimension = b.geometricDimension && a.points == b.points &&
    a.tables = b.tables

end Mesh
end FiniteElement
