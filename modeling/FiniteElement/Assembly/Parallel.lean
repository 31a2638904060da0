import FiniteElement.Assembly.Job

/-!
# The parallel assembler

The range of cells is split into a binary tree of tasks. A task walks its cells in order from the
initial collection, each cell in whatever workspace the worker has at hand. What the tasks have
collected is joined from left to right. How the range is split, which workspaces are used and where
tasks stop early is left to a `Schedule`, so that what holds for every schedule does not depend on
how the work is distributed.
-/

namespace FiniteElement

/-- The cells `first, …, first + count - 1`, of which a task that stops early walks only some. -/
structure CellRange where
  first : Nat
  count : Nat
  stopAfter : Option Nat := none
  deriving DecidableEq, Repr

namespace CellRange

def cells (range : CellRange) : List Nat := List.range' range.first range.count

def walked (range : CellRange) : List Nat :=
  match range.stopAfter with
  | none => range.cells
  | some n => range.cells.take n

end CellRange

inductive TaskTree where
  | task (range : CellRange)
  | split (left right : TaskTree)
  deriving DecidableEq, Repr

namespace TaskTree

def ranges : TaskTree → List CellRange
  | task range => [range]
  | split left right => left.ranges ++ right.ranges

def cells (tree : TaskTree) : List Nat := tree.ranges.flatMap CellRange.cells

/-- Splits a range in halves as long as both keep at least `least` cells. -/
def balanced (least first count : Nat) : TaskTree :=
  if 1 < count ∧ 2 * least ≤ count then
    split (balanced least first (count / 2))
      (balanced least (first + count / 2) (count - count / 2))
  else task { first := first, count := count }
termination_by count
decreasing_by all_goals omega

end TaskTree

structure Schedule (α : Type) where
  tree : TaskTree
  workspace : Nat → Workspace α

structure Partial (σ : Type) where
  value : Except Failure σ
  events : Array Event

namespace Partial

/-- The joined result of two neighbours: a failure of either is one of both, a fault before an
error and the left before the right. -/
def join {σ : Type} (combine : σ → σ → σ) (left right : Partial σ) : Partial σ where
  events := left.events ++ right.events
  value := match left.value, right.value with
    | .ok a, .ok b => .ok (combine a b)
    | .error (.fault fault), _ => .error (.fault fault)
    | _, .error (.fault fault) => .error (.fault fault)
    | .error failure, _ => .error failure
    | _, .error failure => .error failure

end Partial

structure ParallelAssembler where
  options : AssemblySettings

namespace ParallelAssembler

variable {α σ τ : Type} [Scalar α]

/-- The schedule that halves the cells down to the least number of cells per task and starts with
empty workspaces. -/
def schedule (assembler : ParallelAssembler) (mesh : Mesh α) : Schedule α where
  tree := TaskTree.balanced (max assembler.options.minCellsPerTask 1) 0 mesh.numCells
  workspace := fun _ => {}

def step (assembly : Assembly α) (job : Job α σ τ) (workspaces : Nat → Workspace α)
    (collected : Partial σ) (cell : Nat) : Partial σ :=
  match collected with
  | ⟨.error failure, events⟩ => ⟨.error failure, events⟩
  | ⟨.ok collected, events⟩ =>
    let processed := do
      let workspace ← Failure.lift ((workspaces cell).fitTo assembly.form)
      assembly.process workspace cell
    match processed with
    | .error failure => ⟨.error failure, events⟩
    | .ok (workspace, logged) =>
      ⟨Failure.lift (job.accumulate collected workspace), events ++ logged⟩

def runTask (assembly : Assembly α) (job : Job α σ τ) (workspaces : Nat → Workspace α)
    (range : CellRange) : Partial σ :=
  range.walked.foldl (step assembly job workspaces) ⟨Failure.lift job.initial, #[]⟩

/-- What the tasks of a tree collect, each result joined to the initial collection. -/
def runTree (assembly : Assembly α) (job : Job α σ τ) (workspaces : Nat → Workspace α) :
    TaskTree → Partial σ
  | .task range =>
    Partial.join job.combine ⟨Failure.lift job.initial, #[]⟩
      (runTask assembly job workspaces range)
  | .split left right =>
    Partial.join job.combine (runTree assembly job workspaces left)
      (runTree assembly job workspaces right)

def runJob (schedule : Schedule α) (assembly : Assembly α) (job : Job α σ τ) : Outcome τ :=
  let collected := runTree assembly job schedule.workspace schedule.tree
  { events := assembly.startEvent job true :: collected.events.toList
    result := do Failure.lift (job.finish (← collected.value)) }

def assembly (assembler : ParallelAssembler) (form : Form α) (mesh : Mesh α)
    (coefficients : List (Array α)) : Assembly α :=
  ⟨form, mesh, coefficients, assembler.options.nonFinite⟩

def assembleScalar (assembler : ParallelAssembler) (schedule : Schedule α) (form : Form α)
    (mesh : Mesh α) (coefficients : List (Array α)) : Outcome α :=
  let assembly := assembler.assembly form mesh coefficients
  match assembly.scalarJob with
  | .error failure => ⟨[], .error failure⟩
  | .ok job => runJob schedule assembly job

def assembleVector (assembler : ParallelAssembler) (schedule : Schedule α) (form : Form α)
    (mesh : Mesh α) (coefficients : List (Array α)) : Outcome (Array α) :=
  let assembly := assembler.assembly form mesh coefficients
  match assembly.vectorJob with
  | .error failure => ⟨[], .error failure⟩
  | .ok job => runJob schedule assembly job

def assembleMatrix (assembler : ParallelAssembler) (schedule : Schedule α) (form : Form α)
    (mesh : Mesh α) (coefficients : List (Array α)) : Outcome (SparseMatrix α) :=
  let assembly := assembler.assembly form mesh coefficients
  match assembly.matrixJob with
  | .error failure => ⟨[], .error failure⟩
  | .ok job => runJob schedule assembly job

end ParallelAssembler
end FiniteElement
