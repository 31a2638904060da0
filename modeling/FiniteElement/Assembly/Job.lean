import FiniteElement.Assembly.Basic
import FiniteElement.SparseMatrix

/-!
# Workspaces and jobs

The buffers in which the data of one cell are gathered, and what is done with the tensor that is
computed from them.
-/

namespace FiniteElement

/-! ## Workspaces

The buffers of an assembler for the data of one cell. They are kept from cell to cell and from
pass to pass, and only their lengths are fitted to the next form: whatever they hold is
overwritten before it is read.
-/

def resize {β : Type} (n : Nat) (fill : β) (xs : List β) : List β :=
  xs.take n ++ List.replicate (n - xs.length) fill

def resizeAll {β : Type} (sizes : List Nat) (fill : β) (buffers : List (List β)) :
    List (List β) :=
  List.zipWith (fun n buffer => resize n fill buffer) sizes (resize sizes.length [] buffers)

def gather {α : Type} (global : Array α) (buffer : List α) (indices : List Nat) :
    Except Fault (List α) :=
  if buffer.length = indices.length then indices.mapM (Index.slot global)
  else .error .bufferLength

/-- Up to this many coefficients are handed to a form in slots of a fixed number. -/
def inlineCoefficients : Nat := 8

/-- The values of several coefficients on a cell as they are handed to a form: a few are laid into
slots, of which those in use are handed over, and more than a few go into a list of their own. -/
def coefficientSlices {α : Type} (values : List (List α)) : List (List α) :=
  if values.length ≤ inlineCoefficients then
    let slots := (List.range inlineCoefficients).map fun i => values.getD i []
    slots.take values.length
  else values

structure Workspace (α : Type) where
  coordinates : Array α := #[]
  argumentNodes : List (List Nat) := []
  coefficientNodes : List (List Nat) := []
  coefficientValues : List (List α) := []
  tensor : Array α := #[]
  deriving DecidableEq, Repr

namespace Workspace

variable {α : Type} [Scalar α]

def bufferSizes (maps : List (DofMap α)) : Except Fault (List Nat) :=
  maps.mapM fun map => do Index.length (← map.localDimension)

def fitTo (workspace : Workspace α) (form : Form α) : Except Fault (Workspace α) := do
  let argumentSizes ← bufferSizes (← form.argumentMaps)
  let coefficientSizes ← bufferSizes (← form.coefficientMaps)
  let tensorSize ← Index.length (← form.tensorSize)
  return { workspace with
    argumentNodes := resizeAll argumentSizes Index.last workspace.argumentNodes
    coefficientNodes := resizeAll coefficientSizes Index.last workspace.coefficientNodes
    coefficientValues := resizeAll coefficientSizes Scalar.zero workspace.coefficientValues
    tensor := (resize tensorSize Scalar.zero workspace.tensor.toList).toArray }

def writeAllNodes (mesh : EntityCounts) (cell : CellView α) (maps : List (DofMap α))
    (buffers : List (List Nat)) : Except Fault (List (List Nat)) :=
  (maps.zip buffers).mapM fun (map, buffer) => map.writeNodes mesh cell buffer

def gatherValues (coefficients : List (Array α)) (buffers : List (List α))
    (nodes : List (List Nat)) : Except Fault (List (List α)) :=
  (coefficients.zip (buffers.zip nodes)).mapM fun (global, buffer, indices) =>
    gather global buffer indices

/-- Computes the nodes of the arguments and the element tensor of a cell. The tensor is computed
into zeros, from the values of each coefficient at its nodes. The buffers must fit the form. -/
def computeCell (workspace : Workspace α) (form : Form α) (mesh : Mesh α)
    (coefficients : List (Array α)) (cell : Nat) : Except Fault (Workspace α) := do
  let (view, coordinates) ← mesh.view cell workspace.coordinates
  let counts := mesh.entityCounts
  let argumentNodes ← writeAllNodes counts view (← form.argumentMaps) workspace.argumentNodes
  let coefficientNodes ←
    writeAllNodes counts view (← form.coefficientMaps) workspace.coefficientNodes
  let values ← gatherValues coefficients workspace.coefficientValues coefficientNodes
  let tensor ← form.computeTensor (Vector.replicate workspace.tensor.size Scalar.zero)
    (coefficientSlices values) view
  return ⟨coordinates, argumentNodes, coefficientNodes, values, tensor.toArray⟩

end Workspace

/-! ## Assembly jobs

What is done with the element tensors of the cells: they are summed up, added into a vector, or
collected as triplets of a matrix. A job says how one cell is added to what has been collected, how
the collections of two neighbouring ranges of cells are joined, and what the complete collection is
turned into.
-/

/-- What to collect from the cells and what to make of it. -/
structure Job (α σ τ : Type) where
  target : Target
  initial : Except Fault σ
  accumulate : σ → Workspace α → Except Fault σ
  combine : σ → σ → σ
  finish : σ → Except Fault τ

namespace Job

variable {α : Type} [Scalar α]

def addAt (vector : Array α) (node : Nat) (value : α) : Except Fault (Array α) :=
  if node < vector.size then .ok (vector.modify node (· + value)) else .error .outOfBounds

def addElementVector (vector : Array α) (workspace : Workspace α) : Except Fault (Array α) := do
  let nodes ← Index.entry workspace.argumentNodes 0
  (nodes.zip workspace.tensor.toList).foldlM
    (fun vector (node, value) => addAt vector node value) vector

/-- The triplets of an element tensor whose rows belong to `rows` and columns to `cols`. -/
def elementTriplets (cols : List Nat) : List Nat → List α → Except Fault (List (Triplet α))
  | [], _ => .ok []
  | row :: rows, tensor => do
    let (entries, others) ← Index.split cols.length tensor
    let triplets ← elementTriplets cols rows others
    return List.zipWith (fun col value => ⟨row, col, value⟩) cols entries ++ triplets

def addElementTriplets (triplets : Array (Triplet α)) (workspace : Workspace α) :
    Except Fault (Array (Triplet α)) := do
  let rows ← Index.entry workspace.argumentNodes 0
  let cols ← Index.entry workspace.argumentNodes 1
  let own ← elementTriplets cols rows workspace.tensor.toList
  return triplets ++ own

def scalar : Job α α α where
  target := .scalar
  initial := .ok Scalar.zero
  accumulate := fun sum workspace => do
    let value ← Index.slot workspace.tensor 0
    return sum + value
  combine := (· + ·)
  finish := .ok

def vector (length : Nat) : Job α (Array α) (Array α) where
  target := .vector length
  initial := (Index.length length).map fun n => Array.replicate n Scalar.zero
  accumulate := addElementVector
  combine := fun left right => Array.zipWith (· + ·) left right
  finish := .ok

def matrix (numRows numCols : Nat) : Job α (Array (Triplet α)) (SparseMatrix α) where
  target := .matrix numRows numCols
  initial := .ok #[]
  accumulate := addElementTriplets
  combine := (· ++ ·)
  finish := fun triplets => SparseMatrix.ofTriplets numRows numCols triplets.toList

end Job

structure Assembly (α : Type) where
  form : Form α
  mesh : Mesh α
  coefficients : List (Array α)
  policy : FinitenessPolicy

namespace Assembly

variable {α : Type} [Scalar α]

/-- Computes the element tensor of one cell in a workspace that fits the form, and what is to be
logged about it. -/
def process (assembly : Assembly α) (workspace : Workspace α) (cell : Nat) :
    Except Failure (Workspace α × List Event) := do
  let workspace ← Failure.lift
    (workspace.computeCell assembly.form assembly.mesh assembly.coefficients cell)
  let events ← (assembly.policy.inspect cell workspace.tensor).mapError .rejected
  return (workspace, events)

def startEvent (assembly : Assembly α) {σ τ : Type} (job : Job α σ τ) (parallel : Bool) : Event :=
  .started job.target assembly.form.signature assembly.mesh.numCells parallel

/-- The sizes of the arguments of a form that fits, or the reason why it does not fit. -/
def prepare (assembly : Assembly α) (rank : Nat) : Except Failure (List Nat) := do
  assembly.form.checkFit rank assembly.mesh assembly.coefficients
  Failure.lift (assembly.form.argumentSizes assembly.mesh)

def scalarJob (assembly : Assembly α) : Except Failure (Job α α α) := do
  discard (assembly.prepare 0)
  return Job.scalar

def vectorJob (assembly : Assembly α) : Except Failure (Job α (Array α) (Array α)) := do
  let sizes ← assembly.prepare 1
  let length ← Failure.lift (Index.entry sizes 0)
  return Job.vector length

def matrixJob (assembly : Assembly α) :
    Except Failure (Job α (Array (Triplet α)) (SparseMatrix α)) := do
  let sizes ← assembly.prepare 2
  let numRows ← Failure.lift (Index.entry sizes 0)
  let numCols ← Failure.lift (Index.entry sizes 1)
  return Job.matrix numRows numCols

end Assembly

structure Outcome (τ : Type) where
  events : List Event
  result : Except Failure τ

end FiniteElement
