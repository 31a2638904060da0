import FiniteElement.Assembly.Basic
import FiniteElement.Form.Basic
import FiniteElement.Json.Reader

/-!
# Stored forms

How shapes, families, coefficient spaces, policies, layouts, meshes and options are read from JSON
texts, and how layouts and meshes are written. A mesh is checked as soon as it has been read. A
layout is taken as it is. All members of options may be left out.
-/

namespace FiniteElement

namespace Json

def variantsOf {β : Type} (values : List β) (name : β → String) : List (String × β) :=
  values.map fun value => (name value, value)

def shapes : List (String × Shape) := variantsOf Shape.all Shape.name

def families : List (String × ElementFamily) := variantsOf ElementFamily.all ElementFamily.name

def coefficientSpaces : List (String × PiecewiseSpace) :=
  variantsOf PiecewiseSpace.all PiecewiseSpace.name

def policies : List (String × FinitenessPolicy) :=
  variantsOf FinitenessPolicy.all FinitenessPolicy.name

structure MeshFields where
  shape : Option Shape := none
  geometricDimension : Option Nat := none
  vertices : Option (Array Float) := none
  cells : Option (Array Nat) := none

def meshMembers : List (Member MeshFields) :=
  [member "shape" (·.shape) (fun s x => { s with shape := some x }) (readVariant shapes),
    member "geometric_dimension" (·.geometricDimension)
      (fun s x => { s with geometricDimension := some x }) readIndex,
    member "vertices" (·.vertices) (fun s x => { s with vertices := some x })
      (readList readFloat),
    member "cells" (·.cells) (fun s x => { s with cells := some x }) (readList readIndex)]

def buildMeshData (fields : MeshFields) : Except DecodeError (MeshData Float) := do
  let shape ← required "shape" fields.shape
  let geometricDimension ← required "geometric_dimension" fields.geometricDimension
  let vertices ← required "vertices" fields.vertices
  let cells ← required "cells" fields.cells
  return ⟨shape, geometricDimension, vertices, cells⟩

def readMesh : Reader (Mesh Float) :=
  readObject .mesh (fun n => some (.tooShort n .mesh 4)) meshMembers {} fun fields => do
    let data ← buildMeshData fields
    (Mesh.ofData data).mapError .mesh

structure LayoutFields where
  family : Option ElementFamily := none
  shape : Option Shape := none
  degree : Option Nat := none
  dofsPerEntity : Option (Array Nat) := none
  referencePoints : Option (Array Float) := none

def layoutMembers : List (Member LayoutFields) :=
  [member "family" (·.family) (fun s x => { s with family := some x }) (readVariant families),
    member "shape" (·.shape) (fun s x => { s with shape := some x }) (readVariant shapes),
    member "degree" (·.degree) (fun s x => { s with degree := some x }) readIndex,
    member "dofs_per_entity" (·.dofsPerEntity) (fun s x => { s with dofsPerEntity := some x })
      (readList readIndex),
    member "reference_points" (·.referencePoints)
      (fun s x => { s with referencePoints := some x }) (readList readFloat)]

def readLayout : Reader (DofLayout Float) :=
  readObject .layout (fun n => some (.tooShort n .layout 5)) layoutMembers {} fun fields => do
    let family ← required "family" fields.family
    let shape ← required "shape" fields.shape
    let degree ← required "degree" fields.degree
    let dofsPerEntity ← required "dofs_per_entity" fields.dofsPerEntity
    let referencePoints ← required "reference_points" fields.referencePoints
    return ⟨family, shape, degree, dofsPerEntity.toList, referencePoints.toList⟩

structure OptionsFields where
  nonFinite : Option FinitenessPolicy := none
  minCellsPerTask : Option Nat := none

def optionsMembers : List (Member OptionsFields) :=
  [member "non_finite" (·.nonFinite) (fun s x => { s with nonFinite := some x })
      (readVariant policies),
    member "min_cells_per_task" (·.minCellsPerTask)
      (fun s x => { s with minCellsPerTask := some x }) readIndex]

/-- Reads options; what is left out has its default. -/
def readOptions : Reader AssemblySettings :=
  readObject .options (fun _ => none) optionsMembers {} fun fields =>
    let standard : AssemblySettings := {}
    .ok ⟨fields.nonFinite.getD standard.nonFinite,
      fields.minCellsPerTask.getD standard.minCellsPerTask⟩

def writeList {β : Type} (write : β → String) (xs : List β) : String :=
  "[" ++ ",".intercalate (xs.map write) ++ "]"

def writeObject (members : List (String × String)) : String :=
  "\x7b" ++ ",".intercalate (members.map fun (name, text) => quote name ++ ":" ++ text) ++ "\x7d"

/-- The text of a number; null stands for what is no finite number. -/
def writeFloat (x : Float) : String := if x.isFinite then floatText x else "null"

end Json

def Mesh.ofJson (text : String) : Except DecodeError (Mesh Float) :=
  Json.decode Json.readMesh text

def MeshData.toJson (data : MeshData Float) : String :=
  Json.writeObject
    [("shape", quote data.shape.name),
      ("geometric_dimension", toString data.geometricDimension),
      ("vertices", Json.writeList Json.writeFloat data.vertices.toList),
      ("cells", Json.writeList toString data.cells.toList)]

/-- Whether a mesh is alike after being written and read. -/
def Mesh.survivesJson (mesh : Mesh Float) : Except DecodeError Bool :=
  (Mesh.ofJson mesh.data.toJson).map mesh.alike

def DofLayout.ofJson (text : String) : Except DecodeError (DofLayout Float) :=
  Json.decode Json.readLayout text

def DofLayout.toJson (layout : DofLayout Float) : String :=
  Json.writeObject
    [("family", quote layout.family.name),
      ("shape", quote layout.shape.name),
      ("degree", toString layout.degree),
      ("dofs_per_entity", Json.writeList toString layout.dofsPerEntity),
      ("reference_points", Json.writeList Json.writeFloat layout.referencePoints)]

def DofLayout.survivesJson (layout : DofLayout Float) : Except DecodeError Bool :=
  (DofLayout.ofJson layout.toJson).map layout.alike

def AssemblySettings.ofJson (text : String) : Except DecodeError AssemblySettings :=
  Json.decode Json.readOptions text

end FiniteElement
