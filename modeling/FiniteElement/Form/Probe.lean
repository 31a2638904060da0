import FiniteElement.Form.Basic

/-!
# Probe forms

A probe is a form with a freely chosen description, which may contradict itself, and an element
tensor that shows what the form was given: the values of its coefficients, the number of its cell
and the tensor that it adds to. It tells whether an assembler hands over the right data.
-/

namespace FiniteElement

structure ProbeEntry (α : Type) where
  cell : Nat
  entry : Nat
  value : α
  deriving DecidableEq, Repr

namespace Form

variable {α : Type} [Scalar α]

/-- The sum of all coefficient values, value `i` of coefficient `j` with weight
`(j + 1) * (i + 1)`. -/
def weightedSum (w : List (List α)) : α :=
  (w.zipIdx.flatMap fun (values, j) => values.zipIdx.map fun (value, i) => (j, i, value)).foldl
    (fun acc (j, i, value) =>
      acc + Scalar.ofNat (j + 1) * Scalar.ofNat (i + 1) * value) Scalar.zero

def addEntry {n : Nat} (tensor : Vector α n) (i : Nat) (value : α) :
    Except Fault (Vector α n) :=
  if h : i < n then .ok (tensor.set i (tensor[i] + value) h) else .error .outOfBounds

/-- The probe with a description. It adds `k + 1`, the weighted sum of its coefficients and a
hundred times the number of the cell to entry `k` of the tensor, for all entries or the first
`limit`, and then the chosen numbers. -/
def probe (signature : String) (rank numCoefficients : Nat) (dofMaps : List (DofMap α))
    (limit : Option Nat) (additions : List (ProbeEntry α)) : Form α where
  signature := signature
  rank := rank
  numCoefficients := numCoefficients
  dofMaps := dofMaps
  computeTensor := fun {n} tensor w cell => do
    let sum := weightedSum w
    let entities ← cell.entityIndices cell.dimension
    let index ← Index.entry entities 0
    let written := Vector.ofFn fun (k : Fin n) =>
      if limit.all (k.val < ·) then
        tensor[k.val] +
          (Scalar.ofNat (k.val + 1) + sum + Scalar.ofNat 100 * Scalar.ofNat index)
      else tensor[k.val]
    (additions.filter fun addition => addition.cell = index).foldlM
      (fun tensor addition => addEntry tensor addition.entry addition.value) written

end Form
end FiniteElement
