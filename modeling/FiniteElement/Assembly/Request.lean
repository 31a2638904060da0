import FiniteElement.Assembly.Parallel
import FiniteElement.Assembly.Serial

/-!
# Requests to an assembler

A request asks for one tensor of a form on a mesh. A serial assembler answers requests one after the
other and keeps its workspace in between; a parallel assembler distributes the work on each of them
by a schedule.
-/

namespace FiniteElement

inductive TensorKind where
  | scalar
  | vector
  | matrix
  deriving DecidableEq, Repr

def TensorKind.rank : TensorKind → Nat
  | .scalar => 0
  | .vector => 1
  | .matrix => 2

inductive Tensor (α : Type) where
  | scalar (value : α)
  | vector (entries : Array α)
  | matrix (matrix : SparseMatrix α)

structure Request (α : Type) where
  kind : TensorKind
  form : Form α
  mesh : Mesh α
  coefficients : List (Array α)

def Outcome.map {τ ρ : Type} (f : τ → ρ) (outcome : Outcome τ) : Outcome ρ where
  events := outcome.events
  result := outcome.result.map f

variable {α : Type} [Scalar α]

namespace SerialAssembler

def answer (assembler : SerialAssembler α) (request : Request α) :
    Outcome (Tensor α) × SerialAssembler α :=
  let ⟨kind, form, mesh, coefficients⟩ := request
  match kind with
  | .scalar => (assembler.assembleScalar form mesh coefficients).map (Outcome.map .scalar) id
  | .vector => (assembler.assembleVector form mesh coefficients).map (Outcome.map .vector) id
  | .matrix => (assembler.assembleMatrix form mesh coefficients).map (Outcome.map .matrix) id

/-- The outcomes of requests one after the other, each in the workspace that the one before it
left. -/
def answers (assembler : SerialAssembler α) : List (Request α) → List (Outcome (Tensor α))
  | [] => []
  | request :: rest =>
    let (outcome, assembler) := assembler.answer request
    outcome :: assembler.answers rest

section Kinds

variable (assembler : SerialAssembler α) (form : Form α) (mesh : Mesh α)
  (coefficients : List (Array α))

theorem answer_scalar : (assembler.answer ⟨.scalar, form, mesh, coefficients⟩).1 =
    (assembler.assembleScalar form mesh coefficients).1.map .scalar := rfl

theorem answer_vector : (assembler.answer ⟨.vector, form, mesh, coefficients⟩).1 =
    (assembler.assembleVector form mesh coefficients).1.map .vector := rfl

theorem answer_matrix : (assembler.answer ⟨.matrix, form, mesh, coefficients⟩).1 =
    (assembler.assembleMatrix form mesh coefficients).1.map .matrix := rfl

end Kinds

end SerialAssembler

namespace ParallelAssembler

def answer (assembler : ParallelAssembler) (schedule : Schedule α) (request : Request α) :
    Outcome (Tensor α) :=
  let ⟨kind, form, mesh, coefficients⟩ := request
  match kind with
  | .scalar => (assembler.assembleScalar schedule form mesh coefficients).map .scalar
  | .vector => (assembler.assembleVector schedule form mesh coefficients).map .vector
  | .matrix => (assembler.assembleMatrix schedule form mesh coefficients).map .matrix

end ParallelAssembler
end FiniteElement
