import FiniteElement.Form.Basic
import FiniteElement.Mesh.Basic

/-!
# Settings, checks and events of an assembly

What an assembler is told, what it checks before it walks the cells, and what it logs.
-/

namespace FiniteElement

/-! ## Options of an assembler

How an assembler treats element tensors that are not finite, and how many cells it hands to one task
when it works in parallel.
-/

inductive FinitenessPolicy where
  /-- Do not look. -/
  | ignore
  /-- Log a warning for each such cell and carry on. -/
  | warn
  /-- Stop at the first such cell. -/
  | error
  deriving DecidableEq, Repr

namespace FinitenessPolicy

def all : List FinitenessPolicy := [.ignore, .warn, .error]

def name : FinitenessPolicy → String
  | .ignore => "Ignore"
  | .warn => "Warn"
  | .error => "Error"

end FinitenessPolicy

structure AssemblySettings where
  nonFinite : FinitenessPolicy := .ignore
  /-- The least number of cells of a parallel task. -/
  minCellsPerTask : Nat := 64
  deriving DecidableEq, Repr

namespace AssemblySettings

def withNonFinite (options : AssemblySettings) (policy : FinitenessPolicy) : AssemblySettings :=
  { options with nonFinite := policy }

def withMinCellsPerTask (options : AssemblySettings) (n : Nat) : AssemblySettings :=
  { options with minCellsPerTask := max n 1 }

end AssemblySettings

/-! ## Fitting a form to a mesh

An assembler checks once per pass that a form, a mesh and the coefficients given for it fit
together. `AssemblyError` lists what may not fit, in the order in which it is looked for; the last
of them shows only while the cells are walked. A pass ends early with such an error or with a
fault.
-/

inductive AssemblyError where
  /-- The rank is not that of the tensor asked for. -/
  | wrongRank (signature : String) (rank expected : Nat)
  /-- The rank and the number of coefficients do not add up to the number of dof maps. -/
  | dofMapCount (signature : String) (count expected : Nat)
  /-- Too many or too few coefficients are given. -/
  | coefficientCount (signature : String) (expected count : Nat)
  /-- The cells of the mesh do not fill their space. -/
  | notVolumetric (signature : String) (geometricDimension dimension : Nat)
  /-- A dof map is built for cells of another dimension. -/
  | dofMapDimension (signature : String) (dimension meshDimension : Nat)
  /-- A coefficient does not have one value per degree of freedom. -/
  | coefficientLength (index length : Nat) (signature : String) (expected : Nat)
  /-- The element tensor of a cell is not finite. -/
  | nonFinite (cell : Nat)
  deriving DecidableEq, Repr

def AssemblyError.message : AssemblyError → String
  | .wrongRank signature rank expected =>
    s!"Form {signature} has rank {rank}, but the assembler expected rank {expected}"
  | .dofMapCount signature count expected =>
    s!"Form {signature} has {count} node maps, expected {expected}"
  | .coefficientCount signature expected count =>
    s!"Form {signature} takes {expected} coefficients, but {count} were given"
  | .notVolumetric signature g d =>
    s!"Form {signature} requires a volumetric mesh, but the mesh has geometric dimension {g} " ++
      s!"and topological dimension {d}"
  | .dofMapDimension signature dimension meshDimension =>
    s!"Node map {signature} is defined on cells of dimension {dimension}, " ++
      s!"but the mesh has dimension {meshDimension}"
  | .coefficientLength index length signature expected =>
    s!"Coefficient {index} has {length} values, but its node map {signature} " ++
      s!"has global dimension {expected}"
  | .nonFinite cell => s!"Element tensor of cell {cell} contains non-finite entries"

inductive Failure where
  | fault (fault : Fault)
  | rejected (error : AssemblyError)
  deriving DecidableEq, Repr

/-- A computation without reports of its own, as part of a pass. -/
def Failure.lift {β : Type} (result : Except Fault β) : Except Failure β :=
  result.mapError .fault

def Failure.ensure (condition : Bool) (error : AssemblyError) : Except Failure Unit :=
  if condition then .ok () else .error (.rejected error)

variable {α : Type}

namespace Form

def checkDescription (form : Form α) (expectedRank numCoefficients : Nat) :
    Except Failure Unit := do
  Failure.ensure (form.rank = expectedRank) (.wrongRank form.signature form.rank expectedRank)
  let expected ← Failure.lift (Index.add form.rank form.numCoefficients)
  Failure.ensure (form.dofMaps.length = expected)
    (.dofMapCount form.signature form.dofMaps.length expected)
  Failure.ensure (numCoefficients = form.numCoefficients)
    (.coefficientCount form.signature form.numCoefficients numCoefficients)

/-- The cells of the mesh are of the kind that the form and its dof maps are built for. -/
def checkCells (form : Form α) (mesh : Mesh α) : Except Failure Unit := do
  Failure.ensure (mesh.geometricDimension = mesh.dimension)
    (.notVolumetric form.signature mesh.geometricDimension mesh.dimension)
  form.dofMaps.forM fun map =>
    Failure.ensure (map.dimension = mesh.dimension)
      (.dofMapDimension map.signature map.dimension mesh.dimension)

/-- Each coefficient has one value per degree of freedom of its space. -/
def checkCoefficients (form : Form α) (mesh : Mesh α) (coefficients : List (Array α)) :
    Except Failure Unit := do
  let maps ← Failure.lift form.coefficientMaps
  (coefficients.zip maps).zipIdx.forM fun ((values, map), index) => do
    let expected ← Failure.lift (map.globalDimension mesh.entityCounts)
    Failure.ensure (values.size = expected)
      (.coefficientLength index values.size map.signature expected)

def checkFit (form : Form α) (expectedRank : Nat) (mesh : Mesh α)
    (coefficients : List (Array α)) : Except Failure Unit := do
  form.checkDescription expectedRank coefficients.length
  form.checkCells mesh
  form.checkCoefficients mesh coefficients

def argumentSizes (form : Form α) (mesh : Mesh α) : Except Fault (List Nat) := do
  let maps ← form.argumentMaps
  maps.mapM (DofMap.globalDimension mesh.entityCounts)

end Form

/-! ## Events of an assembly

What an assembler logs: the start of a pass, cells whose element tensor is not finite, and the size
of a finished matrix. Events are kept in the order in which they happen.
-/

inductive Target where
  | scalar
  | vector (length : Nat)
  | matrix (numRows numCols : Nat)
  deriving DecidableEq, Repr

inductive Event where
  /-- A pass over the cells begins. -/
  | started (target : Target) (signature : String) (numCells : Nat) (parallel : Bool)
  /-- The element tensor of a cell is not finite. -/
  | nonFinite (cell : Nat)
  /-- A matrix is complete. -/
  | completed (numEntries : Nat)
  deriving DecidableEq, Repr

namespace Event

def level : Event → String
  | nonFinite _ => "WARN"
  | started .. | completed _ => "DEBUG"

def text : Event → String
  | started target signature numCells parallel =>
    let what := match target with
      | .scalar => s!"scalar {signature}"
      | .vector length => s!"vector {signature} of length {length}"
      | .matrix numRows numCols => s!"{numRows}x{numCols} matrix {signature}"
    let manner := if parallel then " in parallel" else ""
    s!"Assembling {what} over {numCells} cells{manner}"
  | nonFinite cell => (AssemblyError.nonFinite cell).message
  | completed numEntries => s!"Assembled matrix has {numEntries} explicit entries"

def line (event : Event) : String := event.level ++ " " ++ event.text

end Event

/-- What a policy makes of the element tensor of a cell: events to log, or an error. -/
def FinitenessPolicy.inspect [Scalar α] (policy : FinitenessPolicy) (cell : Nat)
    (tensor : Array α) : Except AssemblyError (List Event) :=
  match policy with
  | .ignore => .ok []
  | .warn => .ok (if tensor.all Scalar.isFinite then [] else [.nonFinite cell])
  | .error => if tensor.all Scalar.isFinite then .ok [] else .error (.nonFinite cell)

end FiniteElement
