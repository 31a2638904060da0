import FiniteElement.Assembly.Job

/-!
# The serial assembler

The cells are walked in order with one workspace, which is kept for the next pass.
-/

namespace FiniteElement

/-- The state of a pass: what has been collected, unless the pass has failed; the events so far; and
the workspace. -/
structure Pass (α σ : Type) where
  value : Except Failure σ
  events : Array Event
  workspace : Workspace α

/-- The workspace after a cell, which holds its data even if its tensor is refused. A fault leaves
the workspace as it was. -/
def Assembly.workspaceAfter {α : Type} [Scalar α] (assembly : Assembly α) (workspace : Workspace α)
    (cell : Nat) : Workspace α :=
  match workspace.computeCell assembly.form assembly.mesh assembly.coefficients cell with
  | .error _ => workspace
  | .ok next => next

namespace Pass

variable {α σ τ : Type} [Scalar α]

def step (assembly : Assembly α) (job : Job α σ τ) (pass : Pass α σ) (cell : Nat) : Pass α σ :=
  match pass with
  | ⟨.error failure, events, workspace⟩ => ⟨.error failure, events, workspace⟩
  | ⟨.ok collected, events, workspace⟩ =>
    match assembly.process workspace cell with
    | .error failure => ⟨.error failure, events, assembly.workspaceAfter workspace cell⟩
    | .ok (next, logged) =>
      ⟨Failure.lift (job.accumulate collected next), events ++ logged, next⟩

end Pass

structure SerialAssembler (α : Type) where
  options : AssemblySettings
  workspace : Workspace α

namespace SerialAssembler

variable {α : Type} [Scalar α]

def fresh (options : AssemblySettings) : SerialAssembler α := ⟨options, {}⟩

def assembly (assembler : SerialAssembler α) (form : Form α) (mesh : Mesh α)
    (coefficients : List (Array α)) : Assembly α :=
  ⟨form, mesh, coefficients, assembler.options.nonFinite⟩

/-- The pass of a job over all cells in order, in a workspace that fits the form. `room`, the number
of words to set aside for the collection, is computed before the first cell. -/
def pass {σ τ : Type} (assembly : Assembly α) (job : Job α σ τ) (room : Except Fault Nat)
    (workspace : Workspace α) : Pass α σ :=
  (List.range assembly.mesh.numCells).foldl (Pass.step assembly job)
    ⟨Failure.lift (do discard room; job.initial), #[assembly.startEvent job false], workspace⟩

def runJob {σ τ : Type} (assembler : SerialAssembler α) (assembly : Assembly α) (job : Job α σ τ)
    (room : Except Fault Nat) : Outcome τ × SerialAssembler α :=
  match assembler.workspace.fitTo assembly.form with
  | .error fault => (⟨[assembly.startEvent job false], .error (.fault fault)⟩, assembler)
  | .ok workspace =>
    let pass := pass assembly job room workspace
    let result := do Failure.lift (job.finish (← pass.value))
    (⟨pass.events.toList, result⟩, { assembler with workspace := pass.workspace })

def assembleScalar (assembler : SerialAssembler α) (form : Form α) (mesh : Mesh α)
    (coefficients : List (Array α)) : Outcome α × SerialAssembler α :=
  let assembly := assembler.assembly form mesh coefficients
  match assembly.scalarJob with
  | .error failure => (⟨[], .error failure⟩, assembler)
  | .ok job => assembler.runJob assembly job (.ok 0)

def assembleVector (assembler : SerialAssembler α) (form : Form α) (mesh : Mesh α)
    (coefficients : List (Array α)) : Outcome (Array α) × SerialAssembler α :=
  let assembly := assembler.assembly form mesh coefficients
  match assembly.vectorJob with
  | .error failure => (⟨[], .error failure⟩, assembler)
  | .ok job => assembler.runJob assembly job (.ok 0)

def withCompletion (outcome : Outcome (SparseMatrix α)) : Outcome (SparseMatrix α) :=
  match outcome.result with
  | .error _ => outcome
  | .ok matrix => { outcome with events := outcome.events ++ [.completed matrix.numEntries] }

/-- The words to set aside for the triplets of a matrix, three for each entry of an element
tensor. -/
def tripletRoom (form : Form α) (mesh : Mesh α) : Except Fault Nat := do
  let count ← Index.mul mesh.numCells (← form.tensorSize)
  Index.length (3 * count)

def assembleMatrix (assembler : SerialAssembler α) (form : Form α) (mesh : Mesh α)
    (coefficients : List (Array α)) : Outcome (SparseMatrix α) × SerialAssembler α :=
  let assembly := assembler.assembly form mesh coefficients
  match assembly.matrixJob with
  | .error failure => (⟨[], .error failure⟩, assembler)
  | .ok job =>
    let (outcome, assembler) := assembler.runJob assembly job (tripletRoom form mesh)
    (withCompletion outcome, assembler)

end SerialAssembler
end FiniteElement
