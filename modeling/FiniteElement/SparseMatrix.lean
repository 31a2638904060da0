import FiniteElement.Basic

/-!
# Sparse matrices

A matrix is collected as a list of triplets, in which a place may occur several times, and kept in
compressed rows: the explicit entries of each row by increasing column. Triplets with one place are
added up from the left in the order of the list. A place with a triplet stays explicit, even if its
entries add up to zero.
-/

namespace FiniteElement

structure Triplet (α : Type) where
  row : Nat
  col : Nat
  value : α
  deriving DecidableEq, Repr

/-- A matrix by its rows, each a list of columns and values. -/
structure SparseMatrix (α : Type) where
  numRows : Nat
  numCols : Nat
  rows : Array (List (Nat × α))
  deriving DecidableEq, Repr

/-- A row with `value` added to the entry in column `col`, or with the new entry in its place. -/
def addToRow {α : Type} [Add α] (col : Nat) (value : α) : List (Nat × α) → List (Nat × α)
  | [] => [(col, value)]
  | (j, x) :: rest =>
    if col < j then (col, value) :: (j, x) :: rest
    else if col = j then (j, x + value) :: rest
    else (j, x) :: addToRow col value rest

namespace Triplet

variable {α : Type}

def inBounds (numRows numCols : Nat) (triplet : Triplet α) : Bool :=
  triplet.row < numRows && triplet.col < numCols

end Triplet

namespace SparseMatrix

variable {α : Type}

def empty (numRows numCols : Nat) : SparseMatrix α := ⟨numRows, numCols, Array.replicate numRows []⟩

def add [Add α] (matrix : SparseMatrix α) (triplet : Triplet α) : SparseMatrix α :=
  { matrix with rows := matrix.rows.modify triplet.row (addToRow triplet.col triplet.value) }

/-- The matrix of a list of triplets, all of which must have their place in it, if its row offsets
can be stored. -/
def ofTriplets [Add α] (numRows numCols : Nat) (triplets : List (Triplet α)) :
    Except Fault (SparseMatrix α) :=
  if triplets.all (Triplet.inBounds numRows numCols) then
    (Index.length (numRows + 1)).map fun _ => triplets.foldl add (empty numRows numCols)
  else .error .outOfBounds

def value? (matrix : SparseMatrix α) (row col : Nat) : Option α :=
  (matrix.rows.getD row []).lookup col

def numEntries (matrix : SparseMatrix α) : Nat :=
  matrix.rows.foldl (fun count row => count + row.length) 0

def rowOffsets (matrix : SparseMatrix α) : Array Nat :=
  matrix.rows.foldl (fun offsets row => offsets.push (offsets.back?.getD 0 + row.length)) #[0]

def columns (matrix : SparseMatrix α) : Array Nat :=
  matrix.rows.flatMap fun row => (row.map Prod.fst).toArray

def values (matrix : SparseMatrix α) : Array α :=
  matrix.rows.flatMap fun row => (row.map Prod.snd).toArray

end SparseMatrix
end FiniteElement
