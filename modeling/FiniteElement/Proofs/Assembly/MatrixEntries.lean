import Mathlib
import FiniteElement.Assembly.Job
import FiniteElement.Proofs.Checked
import FiniteElement.Proofs.SparseMatrix

/-! # Matrices of element tensors

The triplets of a cell are the entries of its element tensor, each at the row
and column of its local degrees of freedom. The matrix of many cells has an
explicit entry wherever some cell has both degrees of freedom, and its value is
the sum of what all cells have there.
-/

namespace FiniteElement

/-! ## The triplets of one element tensor -/

section Local

variable {α : Type} [Scalar α]

def localTriplets (rows cols : List Nat) (tensor : List α) : List (Triplet α) :=
  rows.zipIdx.flatMap fun (row, i) => cols.zipIdx.map fun (col, j) =>
    ⟨row, col, tensor.getD (i * cols.length + j) Scalar.zero⟩

theorem zipWith_eq_map_zipIdx (row : Nat) {cols : List Nat} {entries : List α}
    (h : cols.length = entries.length) :
    List.zipWith (fun col value => (⟨row, col, value⟩ : Triplet α)) cols entries =
      cols.zipIdx.map fun (col, j) => ⟨row, col, entries.getD j Scalar.zero⟩ := by
  apply List.ext_getElem
  · simp [h]
  · intro j hj hj'
    have hcols : j < cols.length := by simpa using hj'
    have hentries : j < entries.length := h ▸ hcols
    simp [hentries]

theorem elementTriplets_eq_ok {rows cols : List Nat} {tensor : List α}
    (h : tensor.length = rows.length * cols.length) :
    Job.elementTriplets cols rows tensor = .ok (localTriplets rows cols tensor) := by
  induction rows generalizing tensor with
  | nil => rfl
  | cons row rows ih =>
      rw [List.length_cons, Nat.succ_mul] at h
      have hsplit : Index.split cols.length tensor =
          .ok (tensor.take cols.length, tensor.drop cols.length) := Index.split_of_le (by omega)
      have hrest : (tensor.drop cols.length).length = rows.length * cols.length := by
        rw [List.length_drop]
        omega
      have hfirst : cols.length = (tensor.take cols.length).length := by
        rw [List.length_take]
        omega
      have hown : (cols.zipIdx.map fun (col, j) =>
          (⟨row, col, (tensor.take cols.length).getD j Scalar.zero⟩ : Triplet α)) =
            cols.zipIdx.map fun (col, j) =>
              ⟨row, col, tensor.getD (0 * cols.length + j) Scalar.zero⟩ := by
        apply List.map_congr_left
        intro ⟨col, j⟩ hmem
        have hj := (List.getElem?_eq_some_iff.mp (List.mem_zipIdx_iff_getElem?.mp hmem)).1
        simp only [List.getD_eq_getElem?_getD, List.getElem?_take, if_pos hj, Nat.zero_mul,
          Nat.zero_add]
      have hshift : localTriplets rows cols (tensor.drop cols.length) =
          (rows.zipIdx 1).flatMap fun (row, i) => cols.zipIdx.map fun (col, j) =>
            ⟨row, col, tensor.getD (i * cols.length + j) Scalar.zero⟩ := by
        rw [localTriplets, List.zipIdx_succ, List.flatMap_map]
        simp only [List.getD_eq_getElem?_getD, List.getElem?_drop, Nat.succ_mul]
        simp only [Nat.add_comm, Nat.add_left_comm]
      rw [Job.elementTriplets, hsplit, Checked.ok_bind]
      dsimp only
      rw [ih hrest, Checked.ok_bind, zipWith_eq_map_zipIdx row hfirst, hown, hshift, localTriplets,
        List.zipIdx_cons, List.flatMap_cons]
      rfl

theorem exists_mem_localTriplets_iff {rows cols : List Nat} (tensor : List α) {row col : Nat} :
    (∃ triplet ∈ localTriplets rows cols tensor, row = triplet.row ∧ col = triplet.col) ↔
      row ∈ rows ∧ col ∈ cols := by
  constructor
  · intro ⟨triplet, htriplet, hrow, hcol⟩
    obtain ⟨⟨row', i⟩, hi, htriplet⟩ := List.mem_flatMap.mp htriplet
    obtain ⟨⟨col', j⟩, hj, heq⟩ := List.mem_map.mp htriplet
    rw [hrow, hcol, ← heq]
    exact ⟨List.fst_mem_of_mem_zipIdx hi, List.fst_mem_of_mem_zipIdx hj⟩
  · intro ⟨hrow, hcol⟩
    obtain ⟨i, hi⟩ := List.getElem?_of_mem hrow
    obtain ⟨j, hj⟩ := List.getElem?_of_mem hcol
    refine ⟨⟨row, col, tensor.getD (i * cols.length + j) Scalar.zero⟩, ?_, rfl, rfl⟩
    refine List.mem_flatMap.mpr ⟨(row, i), List.mem_zipIdx_iff_getElem?.mpr hi, ?_⟩
    exact List.mem_map.mpr ⟨(col, j), List.mem_zipIdx_iff_getElem?.mpr hj, rfl⟩

end Local

/-! ## Sums over cells and local entries -/

section Sums

variable {M : Type} [AddCommMonoid M]

theorem sum_map_range (f : Nat → M) (n : Nat) :
    ((List.range n).map f).sum = ∑ i ∈ Finset.range n, f i := rfl

theorem sum_map_flatMap {β γ : Type} (xs : List β) (f : β → List γ) (g : γ → M) :
    ((xs.flatMap f).map g).sum = (xs.map fun x => ((f x).map g).sum).sum := by
  induction xs with
  | nil => rfl
  | cons x xs ih =>
      rw [List.flatMap_cons, List.map_append, List.sum_append, ih, List.map_cons, List.sum_cons]

theorem sum_map_zipIdx {β : Type} (xs : List β) (f : β × Nat → M) :
    (xs.zipIdx.map f).sum =
      ∑ i ∈ Finset.range xs.length, xs[i]?.elim 0 fun x => f (x, i) := by
  induction xs using List.reverseRecOn with
  | nil => rfl
  | append_singleton xs x ih =>
      have hbefore : ∑ i ∈ Finset.range xs.length, ((xs ++ [x])[i]?.elim 0 fun x => f (x, i)) =
          ∑ i ∈ Finset.range xs.length, xs[i]?.elim 0 fun x => f (x, i) := by
        apply Finset.sum_congr rfl
        intro i hi
        rw [List.getElem?_append_left (Finset.mem_range.mp hi)]
      rw [List.zipIdx_append, List.map_append, List.sum_append, ih, List.length_append,
        List.length_singleton, Finset.sum_range_succ, hbefore]
      simp

variable {α : Type} [Scalar α]

/-- What the triplets of an element tensor contribute to one place of a matrix. -/
theorem sum_localTriplets (exact : α → M) (rows cols : List Nat) (tensor : List α)
    (row col : Nat) :
    ((localTriplets rows cols tensor).map fun triplet =>
        if row = triplet.row ∧ col = triplet.col then exact triplet.value else 0).sum =
      ∑ i ∈ Finset.range rows.length, ∑ j ∈ Finset.range cols.length,
        if rows[i]? = some row ∧ cols[j]? = some col then
          exact (tensor.getD (i * cols.length + j) Scalar.zero)
        else 0 := by
  rw [localTriplets, sum_map_flatMap, sum_map_zipIdx]
  apply Finset.sum_congr rfl
  intro i hi
  have hrow := List.getElem?_eq_getElem (Finset.mem_range.mp hi)
  rw [hrow, Option.elim_some]
  dsimp only
  rw [List.map_map, sum_map_zipIdx]
  apply Finset.sum_congr rfl
  intro j hj
  have hcol := List.getElem?_eq_getElem (Finset.mem_range.mp hj)
  rw [hcol, Option.elim_some]
  simp only [Function.comp_apply, Option.some.injEq, eq_comm]

end Sums

/-! ## The matrix of all cells -/

section Matrix

variable {α : Type} [Scalar α]

theorem mem_localTriplets {rows cols : List Nat} {tensor : List α} {triplet : Triplet α}
    (h : triplet ∈ localTriplets rows cols tensor) : triplet.row ∈ rows ∧ triplet.col ∈ cols :=
  (exists_mem_localTriplets_iff _).mp ⟨triplet, h, rfl, rfl⟩

/-- The matrix of the element tensors of some cells at given rows and columns, which is made if
there is room for its row offsets. -/
theorem exists_matrix_of_cells {numCells numRows numCols : Nat} {rows cols : Nat → List Nat}
    (hrows : ∀ cell < numCells, ∀ row ∈ rows cell, row < numRows)
    (hcols : ∀ cell < numCells, ∀ col ∈ cols cell, col < numCols) (tensor : Nat → List α) :
    ∃ matrix : SparseMatrix α,
      (∀ result, SparseMatrix.ofTriplets numRows numCols ((List.range numCells).flatMap fun cell =>
          localTriplets (rows cell) (cols cell) (tensor cell)) = .ok result ↔
        numRows + 1 < Index.capacity ∧ matrix = result) ∧
      matrix.numRows = numRows ∧ matrix.numCols = numCols ∧ matrix.Compressed ∧
      (∀ row col, (∃ value, matrix.value? row col = some value) ↔
        ∃ cell < numCells, row ∈ rows cell ∧ col ∈ cols cell) ∧
      ∀ (M : Type) [AddCommMonoid M] (exact : α → M),
        (∀ a b, exact (a + b) = exact a + exact b) →
        ∀ row col value, matrix.value? row col = some value →
          exact value = ∑ cell ∈ Finset.range numCells,
            ∑ i ∈ Finset.range (rows cell).length, ∑ j ∈ Finset.range (cols cell).length,
              if (rows cell)[i]? = some row ∧ (cols cell)[j]? = some col then
                exact ((tensor cell).getD (i * (cols cell).length + j) Scalar.zero)
              else 0 := by
  have hbounds : ∀ triplet ∈ (List.range numCells).flatMap fun cell =>
      localTriplets (rows cell) (cols cell) (tensor cell),
      triplet.row < numRows ∧ triplet.col < numCols := by
    intro triplet htriplet
    obtain ⟨cell, hcell, hmem⟩ := List.mem_flatMap.mp htriplet
    obtain ⟨hrow, hcol⟩ := mem_localTriplets hmem
    have hlt := List.mem_range.mp hcell
    exact ⟨hrows cell hlt _ hrow, hcols cell hlt _ hcol⟩
  obtain ⟨hnumRows, hnumCols, hcompressed, hentry⟩ := SparseMatrix.foldl_add_spec _ hbounds
  refine ⟨_, fun _ => SparseMatrix.ofTriplets_eq_ok_iff.trans (and_iff_right hbounds), hnumRows,
    hnumCols, hcompressed, ?_, ?_⟩
  · intro row col
    rw [← Option.isSome_iff_exists, hentry, SparseMatrix.leftSum?_isSome,
      SparseMatrix.valuesAt_ne_nil_iff]
    constructor
    · intro ⟨triplet, htriplet, hplace⟩
      obtain ⟨cell, hcell, hmem⟩ := List.mem_flatMap.mp htriplet
      exact ⟨cell, List.mem_range.mp hcell,
        (exists_mem_localTriplets_iff _).mp ⟨triplet, hmem, hplace⟩⟩
    · intro ⟨cell, hcell, hboth⟩
      obtain ⟨triplet, hmem, hplace⟩ :=
        (exists_mem_localTriplets_iff (tensor cell)).mpr hboth
      exact ⟨triplet, List.mem_flatMap.mpr ⟨cell, List.mem_range.mpr hcell, hmem⟩, hplace⟩
  · intro M _ exact hexact row col value hvalue
    rw [hentry] at hvalue
    rw [SparseMatrix.exact_leftSum? hexact hvalue, SparseMatrix.sum_valuesAt, sum_map_flatMap,
      sum_map_range]
    apply Finset.sum_congr rfl
    intro cell _
    exact sum_localTriplets exact (rows cell) (cols cell) (tensor cell) row col

end Matrix

end FiniteElement
