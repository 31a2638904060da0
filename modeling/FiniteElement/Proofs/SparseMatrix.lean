import Mathlib
import FiniteElement.SparseMatrix
import FiniteElement.Proofs.Checked
import FiniteElement.Proofs.Offset

/-! # Sparse matrices as sums of triplets

A matrix of triplets keeps its rows by increasing column, and its entry at a
place is the sum of the values that the triplets have there, from the left. The
flat lists of offsets, columns and values are cut into these rows.
-/

namespace FiniteElement

/-! ## Rows -/

def ByColumn {α : Type} (row : List (Nat × α)) : Prop := row.Pairwise fun a b => a.1 < b.1

theorem lookup_cons_of_ne {α : Type} {j k : Nat} {x : α} {row : List (Nat × α)} (h : j ≠ k) :
    ((k, x) :: row).lookup j = row.lookup j := by
  rw [List.lookup_cons, beq_false_of_ne h]

/-- A row with all columns beyond has no entry there. -/
theorem lookup_eq_none_of_lt {α : Type} {row : List (Nat × α)} {col : Nat}
    (h : ∀ entry ∈ row, col < entry.1) : row.lookup col = none := by
  rw [List.lookup_eq_none_iff]
  intro entry hentry
  exact bne_iff_ne.mpr (Nat.ne_of_lt (h entry hentry))

section Rows

variable {α : Type} [Add α]

theorem mem_addToRow_fst {col j : Nat} {value : α} {row : List (Nat × α)} :
    j ∈ (addToRow col value row).map Prod.fst ↔ j = col ∨ j ∈ row.map Prod.fst := by
  induction row with
  | nil => simp [addToRow]
  | cons entry rest ih =>
      obtain ⟨k, x⟩ := entry
      rw [addToRow]
      by_cases hlt : col < k
      · rw [if_pos hlt, List.map_cons, List.mem_cons]
      · rw [if_neg hlt]
        by_cases heq : col = k
        · rw [if_pos heq, heq]
          simp
        · rw [if_neg heq, List.map_cons, List.mem_cons, ih, List.map_cons, List.mem_cons]
          exact or_left_comm

theorem ByColumn.addToRow {col : Nat} {value : α} {row : List (Nat × α)} (h : ByColumn row) :
    ByColumn (addToRow col value row) := by
  induction row with
  | nil => exact List.pairwise_singleton _ _
  | cons entry rest ih =>
      obtain ⟨k, x⟩ := entry
      obtain ⟨hfirst, hrest⟩ := List.pairwise_cons.mp h
      rw [FiniteElement.addToRow]
      by_cases hlt : col < k
      · rw [if_pos hlt]
        refine List.pairwise_cons.mpr ⟨?_, h⟩
        intro other hother
        rcases List.mem_cons.mp hother with heq | hmem
        · rw [heq]
          exact hlt
        · exact Nat.lt_trans hlt (hfirst other hmem)
      · rw [if_neg hlt]
        by_cases heq : col = k
        · rw [if_pos heq]
          exact List.pairwise_cons.mpr ⟨hfirst, hrest⟩
        · rw [if_neg heq]
          refine List.pairwise_cons.mpr ⟨?_, ih hrest⟩
          intro other hother
          have hcol := mem_addToRow_fst.mp (List.mem_map_of_mem (f := Prod.fst) hother)
          rcases hcol with hnew | hold
          · rw [hnew]
            change k < col
            omega
          · obtain ⟨source, hsource, hfst⟩ := List.mem_map.mp hold
            rw [← hfst]
            exact hfirst source hsource

theorem ByColumn.lookup_addToRow {col : Nat} {value : α} {row : List (Nat × α)}
    (h : ByColumn row) (j : Nat) :
    (FiniteElement.addToRow col value row).lookup j =
      if j = col then some ((row.lookup col).elim value (· + value)) else row.lookup j := by
  induction row with
  | nil =>
      by_cases hj : j = col <;> simp [FiniteElement.addToRow, hj]
  | cons entry rest ih =>
      obtain ⟨k, x⟩ := entry
      obtain ⟨hfirst, hrest⟩ := List.pairwise_cons.mp h
      rw [FiniteElement.addToRow]
      by_cases hlt : col < k
      · have hnone : ((k, x) :: rest).lookup col = none := by
          apply lookup_eq_none_of_lt
          intro other hother
          rcases List.mem_cons.mp hother with heq | hmem
          · rw [heq]
            exact hlt
          · exact Nat.lt_trans hlt (hfirst other hmem)
        rw [if_pos hlt, hnone]
        by_cases hj : j = col
        · rw [if_pos hj, hj, List.lookup_cons_self]
          rfl
        · rw [if_neg hj, lookup_cons_of_ne hj]
      · rw [if_neg hlt]
        by_cases heq : col = k
        · subst heq
          rw [if_pos rfl, List.lookup_cons_self]
          by_cases hj : j = col
          · rw [if_pos hj, hj, List.lookup_cons_self]
            rfl
          · rw [if_neg hj, lookup_cons_of_ne hj, lookup_cons_of_ne hj]
        · rw [if_neg heq, lookup_cons_of_ne heq]
          by_cases hj : j = k
          · have hne : j ≠ col := fun hcol => heq (hcol.symm.trans hj)
            rw [if_neg hne, hj, List.lookup_cons_self, List.lookup_cons_self]
          · rw [lookup_cons_of_ne hj, lookup_cons_of_ne hj, ih hrest]

end Rows

/-! ## Triplets -/

namespace SparseMatrix

variable {α : Type}

/-- The rows are as many as they should be, by increasing column and within the matrix. -/
structure Compressed (matrix : SparseMatrix α) : Prop where
  size_rows : matrix.rows.size = matrix.numRows
  byColumn : ∀ row ∈ matrix.rows, ByColumn row
  lt_numCols : ∀ row ∈ matrix.rows, ∀ entry ∈ row, entry.1 < matrix.numCols

theorem compressed_empty (numRows numCols : Nat) :
    (empty numRows numCols : SparseMatrix α).Compressed where
  size_rows := by simp [empty]
  byColumn := by
    intro row hrow
    rw [(Array.mem_replicate.mp hrow).2]
    exact List.Pairwise.nil
  lt_numCols := by
    intro row hrow entry hentry
    rw [(Array.mem_replicate.mp hrow).2] at hentry
    cases hentry

def valuesAt (triplets : List (Triplet α)) (row col : Nat) : List α :=
  (triplets.filter fun triplet => row = triplet.row ∧ col = triplet.col).map Triplet.value

theorem valuesAt_append (triplets others : List (Triplet α)) (row col : Nat) :
    valuesAt (triplets ++ others) row col =
      valuesAt triplets row col ++ valuesAt others row col := by
  simp [valuesAt]

section Triplets

variable [Add α]

theorem mem_rows_add {matrix : SparseMatrix α} {triplet : Triplet α} {row : List (Nat × α)}
    (h : row ∈ (matrix.add triplet).rows) :
    row ∈ matrix.rows ∨ ∃ old ∈ matrix.rows, row = addToRow triplet.col triplet.value old := by
  rw [SparseMatrix.add] at h
  obtain ⟨i, hi, hget⟩ := Array.mem_iff_getElem.mp h
  have hold : i < matrix.rows.size := by simpa using hi
  rw [Array.getElem_modify] at hget
  by_cases hrow : triplet.row = i
  · rw [if_pos hrow] at hget
    exact Or.inr ⟨_, Array.getElem_mem hold, hget.symm⟩
  · rw [if_neg hrow] at hget
    rw [← hget]
    exact Or.inl (Array.getElem_mem hold)

theorem Compressed.add {matrix : SparseMatrix α} (h : matrix.Compressed) {triplet : Triplet α}
    (hcol : triplet.col < matrix.numCols) : (matrix.add triplet).Compressed where
  size_rows := by
    rw [SparseMatrix.add, Array.size_modify]
    exact h.size_rows
  byColumn := by
    intro row hrow
    rcases mem_rows_add hrow with hold | ⟨old, hold, heq⟩
    · exact h.byColumn row hold
    · rw [heq]
      exact (h.byColumn old hold).addToRow
  lt_numCols := by
    intro row hrow entry hentry
    change entry.1 < matrix.numCols
    rcases mem_rows_add hrow with hold | ⟨old, hold, heq⟩
    · exact h.lt_numCols row hold entry hentry
    · rw [heq] at hentry
      rcases mem_addToRow_fst.mp (List.mem_map_of_mem (f := Prod.fst) hentry) with hnew | hsame
      · rw [hnew]
        exact hcol
      · obtain ⟨source, hsource, hfst⟩ := List.mem_map.mp hsame
        rw [← hfst]
        exact h.lt_numCols old hold source hsource

/-- A triplet is added to the entry at its place, and to no other. -/
theorem Compressed.value?_add {matrix : SparseMatrix α} (h : matrix.Compressed)
    {triplet : Triplet α} (hrow : triplet.row < matrix.numRows) (row col : Nat) :
    (matrix.add triplet).value? row col =
      if row = triplet.row ∧ col = triplet.col then
        some ((matrix.value? row col).elim triplet.value (· + triplet.value))
      else matrix.value? row col := by
  rw [← h.size_rows] at hrow
  simp only [value?, SparseMatrix.add, Array.getD_eq_getD_getElem?, Array.getElem?_modify]
  by_cases hsame : row = triplet.row
  · subst hsame
    have hget := Array.getElem?_eq_getElem hrow
    have hrows := h.byColumn _ (Array.getElem_mem hrow)
    simp only [hget, if_true, Option.map_some, Option.getD_some, true_and,
      hrows.lookup_addToRow]
    by_cases hcol : col = triplet.col
    · rw [if_pos hcol, if_pos hcol, hcol]
    · rw [if_neg hcol, if_neg hcol]
  · rw [if_neg (Ne.symm hsame), if_neg fun hboth => hsame hboth.1]

/-- The sum of a list from the left, if there is anything to sum. -/
def leftSum? : List α → Option α
  | [] => none
  | value :: values => some (values.foldl (· + ·) value)

theorem leftSum?_append_singleton (values : List α) (value : α) :
    leftSum? (values ++ [value]) = some ((leftSum? values).elim value (· + value)) := by
  cases values with
  | nil => rfl
  | cons first rest => simp [leftSum?]

theorem foldl_add_spec {numRows numCols : Nat} (triplets : List (Triplet α))
    (hbounds : ∀ triplet ∈ triplets, triplet.row < numRows ∧ triplet.col < numCols) :
    (triplets.foldl add (empty numRows numCols)).numRows = numRows ∧
      (triplets.foldl add (empty numRows numCols)).numCols = numCols ∧
      (triplets.foldl add (empty numRows numCols)).Compressed ∧
      ∀ row col, (triplets.foldl add (empty numRows numCols)).value? row col =
        leftSum? (valuesAt triplets row col) := by
  induction triplets using List.reverseRecOn with
  | nil =>
      refine ⟨rfl, rfl, compressed_empty numRows numCols, ?_⟩
      intro row col
      by_cases hrow : row < numRows <;>
        simp [value?, empty, valuesAt, leftSum?, hrow]
  | append_singleton triplets triplet ih =>
      obtain ⟨hrow, hcol⟩ := hbounds triplet (by simp)
      obtain ⟨hrows, hcols, hcompressed, hentry⟩ := ih fun other hother =>
        hbounds other (List.mem_append_left _ hother)
      rw [List.foldl_append, List.foldl_cons, List.foldl_nil]
      rw [← hrows] at hrow
      rw [← hcols] at hcol
      refine ⟨hrows, hcols, hcompressed.add hcol, ?_⟩
      intro row col
      rw [hcompressed.value?_add hrow, hentry, valuesAt_append]
      by_cases hplace : row = triplet.row ∧ col = triplet.col
      · have hown : valuesAt [triplet] row col = [triplet.value] := by simp [valuesAt, hplace]
        rw [if_pos hplace, hown, leftSum?_append_singleton]
      · have hown : valuesAt [triplet] row col = [] := by simp [valuesAt, hplace]
        rw [if_neg hplace, hown, List.append_nil]

/-- A matrix is made of triplets within it if there is room for its row offsets. -/
theorem ofTriplets_eq_ok_iff {numRows numCols : Nat} {triplets : List (Triplet α)}
    {matrix : SparseMatrix α} :
    ofTriplets numRows numCols triplets = .ok matrix ↔
      (∀ triplet ∈ triplets, triplet.row < numRows ∧ triplet.col < numCols) ∧
        numRows + 1 < Index.capacity ∧ triplets.foldl add (empty numRows numCols) = matrix := by
  have hall : triplets.all (Triplet.inBounds numRows numCols) = true ↔
      ∀ triplet ∈ triplets, triplet.row < numRows ∧ triplet.col < numCols := by
    simp [Triplet.inBounds]
  rw [ofTriplets, ← hall]
  split
  case isTrue hbounds => simp [hbounds, Index.length_eq_ok_iff]
  case isFalse hbounds => simp [hbounds]

theorem leftSum?_isSome {values : List α} : (leftSum? values).isSome = true ↔ values ≠ [] := by
  cases values <;> simp [leftSum?]

/-- The sum from the left in a monoid where the addition is exact. -/
theorem exact_leftSum? {M : Type} [AddCommMonoid M] {exact : α → M}
    (hexact : ∀ a b, exact (a + b) = exact a + exact b) {values : List α} {value : α}
    (h : leftSum? values = some value) : exact value = (values.map exact).sum := by
  have hfold : ∀ (values : List α) (start : α), exact (values.foldl (· + ·) start) =
      exact start + (values.map exact).sum := by
    intro values
    induction values with
    | nil => simp
    | cons first rest ih =>
        intro start
        rw [List.foldl_cons, ih, hexact, List.map_cons, List.sum_cons, add_assoc]
  cases values with
  | nil => cases h
  | cons first rest =>
      rw [leftSum?, Option.some.injEq] at h
      rw [← h, hfold, List.map_cons, List.sum_cons]

end Triplets

theorem valuesAt_ne_nil_iff {triplets : List (Triplet α)} {row col : Nat} :
    valuesAt triplets row col ≠ [] ↔
      ∃ triplet ∈ triplets, row = triplet.row ∧ col = triplet.col := by
  rw [valuesAt, ne_eq, List.map_eq_nil_iff, List.filter_eq_nil_iff]
  simp

theorem sum_valuesAt {M : Type} [AddCommMonoid M] (exact : α → M) (triplets : List (Triplet α))
    (row col : Nat) :
    ((valuesAt triplets row col).map exact).sum =
      (triplets.map fun triplet =>
        if row = triplet.row ∧ col = triplet.col then exact triplet.value else 0).sum := by
  induction triplets with
  | nil => rfl
  | cons triplet triplets ih =>
      rw [valuesAt] at ih
      rw [valuesAt, List.filter_cons, List.map_cons, List.sum_cons, ← ih]
      by_cases hplace : row = triplet.row ∧ col = triplet.col
      · simp [hplace]
      · rw [if_neg (by simpa using hplace), if_neg hplace, zero_add]

/-! ## Flat lists -/

def rowSizes (matrix : SparseMatrix α) : List Nat := matrix.rows.toList.map List.length

theorem numEntries_eq (matrix : SparseMatrix α) : matrix.numEntries = matrix.rowSizes.sum := by
  have hfold : ∀ (rows : List (List (Nat × α))) (count : Nat),
      rows.foldl (fun count row => count + row.length) count =
        count + (rows.map List.length).sum := by
    intro rows
    induction rows with
    | nil => simp
    | cons row rows ih =>
        intro count
        rw [List.foldl_cons, ih, List.map_cons, List.sum_cons, Nat.add_assoc]
  rw [numEntries, ← Array.foldl_toList, hfold, Nat.zero_add, rowSizes]

theorem rowOffsets_eq (matrix : SparseMatrix α) :
    matrix.rowOffsets =
      ((List.range (matrix.rowSizes.length + 1)).map (offset matrix.rowSizes)).toArray := by
  have hconcat : ∀ (f : Nat → Nat) (n : Nat),
      (List.range (n + 1)).map f = (List.range n).map f ++ [f n] := by
    intro f n
    rw [List.range_succ, List.map_append, List.map_singleton]
  have hfold : ∀ rows : List (List (Nat × α)),
      rows.foldl (fun offsets row => offsets.push (offsets.back?.getD 0 + row.length)) #[0] =
        ((List.range (rows.length + 1)).map (offset (rows.map List.length))).toArray := by
    intro rows
    induction rows using List.reverseRecOn with
    | nil => rfl
    | append_singleton rows row ih =>
        have hbefore : ∀ i ∈ List.range (rows.length + 1),
            offset (rows.map List.length) i = offset ((rows ++ [row]).map List.length) i := by
          intro i hi
          have hle := Nat.le_of_lt_succ (List.mem_range.mp hi)
          rw [offset, offset, List.map_append, List.take_append_of_le_length (by simpa using hle)]
        have hlast : offset ((rows ++ [row]).map List.length) (rows.length + 1) =
            offset (rows.map List.length) rows.length + row.length := by
          have hget : ((rows ++ [row]).map List.length)[rows.length]? = some row.length := by simp
          rw [offset_succ hget, ← hbefore _ (by simp)]
        have hback : ((List.range (rows.length + 1)).map
            (offset (rows.map List.length))).toArray.back?.getD 0 =
              offset (rows.map List.length) rows.length := by
          simp [List.range_succ]
        rw [List.foldl_append, List.foldl_cons, List.foldl_nil, ih, hback, ← hlast,
          List.push_toArray, List.map_congr_left hbefore, List.length_append,
          List.length_singleton, hconcat _ (rows.length + 1)]
  rw [rowOffsets, ← Array.foldl_toList, hfold, rowSizes, List.length_map]

theorem getElem?_rowOffsets {matrix : SparseMatrix α} (h : matrix.Compressed) {i : Nat}
    (hi : i ≤ matrix.numRows) : matrix.rowOffsets[i]? = some (offset matrix.rowSizes i) := by
  have hlt : i < matrix.rowSizes.length + 1 := by
    rw [rowSizes, List.length_map, Array.length_toList, h.size_rows]
    exact Nat.lt_succ_of_le hi
  rw [rowOffsets_eq, List.getElem?_toArray, List.getElem?_map, List.getElem?_range hlt]
  rfl

/-- Entry `r` of row `i` in a flat list of all entries. -/
theorem getElem?_flatMap_rows {β : Type} {matrix : SparseMatrix α} (f : Nat × α → β) {i r : Nat}
    {row : List (Nat × α)} (hi : matrix.rows[i]? = some row) (hr : r < row.length) :
    (matrix.rows.flatMap fun row => (row.map f).toArray)[offset matrix.rowSizes i + r]? =
      row[r]?.map f := by
  have hget : (matrix.rows.toList.map fun row => row.map f)[i]? = some (row.map f) := by
    rw [List.getElem?_map, Array.getElem?_toList, hi, Option.map_some]
  have hsizes : (matrix.rows.toList.map fun row => row.map f).map List.length =
      matrix.rowSizes := by
    simp [rowSizes, Function.comp_def]
  have hentry := getElem?_flatten_offset hget (r := r) (by simpa using hr)
  rw [hsizes] at hentry
  rw [← Array.getElem?_toList, Array.toList_flatMap, List.flatMap_def, hentry, List.getElem?_map]

theorem size_flatMap_rows {β : Type} (matrix : SparseMatrix α) (f : Nat × α → β) :
    (matrix.rows.flatMap fun row => (row.map f).toArray).size = matrix.numEntries := by
  rw [numEntries_eq, ← Array.length_toList, Array.toList_flatMap, List.length_flatMap, rowSizes]
  simp

/-- The entries of a row by increasing column are looked up where they are. -/
theorem lookup_eq_some_iff_getElem? {row : List (Nat × α)} (h : ByColumn row) {col : Nat}
    {value : α} : row.lookup col = some value ↔ ∃ r : Nat, row[r]? = some (col, value) := by
  induction row with
  | nil => simp
  | cons entry rest ih =>
      obtain ⟨k, x⟩ := entry
      obtain ⟨hfirst, hrest⟩ := List.pairwise_cons.mp h
      rw [← List.mem_iff_getElem?, List.mem_cons, List.mem_iff_getElem?, ← ih hrest]
      by_cases hcol : col = k
      · have hnone : rest.lookup k = none := lookup_eq_none_of_lt hfirst
        rw [hcol, List.lookup_cons_self, hnone]
        simp [eq_comm]
      · rw [lookup_cons_of_ne hcol]
        simp [hcol]

/-- Rows by increasing column are known from what is looked up in them. -/
theorem eq_of_lookup {row row' : List (Nat × α)} (h : ByColumn row) (h' : ByColumn row')
    (heq : ∀ col, row.lookup col = row'.lookup col) : row = row' := by
  have hirrefl : Std.Irrefl fun a b : Nat × α => a.1 < b.1 := ⟨fun a => Nat.lt_irrefl a.1⟩
  have hantisymm : Std.Antisymm fun a b : Nat × α => a.1 < b.1 :=
    ⟨fun a b hab hba => absurd hba (Nat.lt_asymm hab)⟩
  apply List.Pairwise.eq_of_mem_iff h h'
  intro entry
  rw [List.mem_iff_getElem?, List.mem_iff_getElem?, ← lookup_eq_some_iff_getElem? h,
    ← lookup_eq_some_iff_getElem? h', heq]

/-- A matrix is known from its size and its explicit entries. -/
theorem Compressed.eq_of_value? {matrix matrix' : SparseMatrix α} (h : matrix.Compressed)
    (h' : matrix'.Compressed) (hrows : matrix.numRows = matrix'.numRows)
    (hcols : matrix.numCols = matrix'.numCols)
    (hvalue : ∀ i j, matrix.value? i j = matrix'.value? i j) : matrix = matrix' := by
  have hequal : matrix.rows = matrix'.rows := by
    apply Array.ext
    · rw [h.size_rows, h'.size_rows, hrows]
    · intro i hi hi'
      apply eq_of_lookup (h.byColumn _ (Array.getElem_mem hi))
        (h'.byColumn _ (Array.getElem_mem hi'))
      intro col
      have hentry := hvalue i col
      simp only [value?, Array.getD_eq_getD_getElem?, Array.getElem?_eq_getElem hi,
        Array.getElem?_eq_getElem hi', Option.getD_some] at hentry
      exact hentry
  cases matrix
  cases matrix'
  simp_all
def IsSlice (row : List (Nat × α)) (columns : Array Nat) (values : Array α) (start : Nat) : Prop :=
  ∀ k, start ≤ k → k < start + row.length → ∃ entry, row[k - start]? = some entry ∧
    columns[k]? = some entry.1 ∧ values[k]? = some entry.2

theorem isSlice_row {matrix : SparseMatrix α} {i : Nat} {row : List (Nat × α)}
    (hi : matrix.rows[i]? = some row) :
    IsSlice row matrix.columns matrix.values (offset matrix.rowSizes i) := by
  intro k hle hlt
  have hr : k - offset matrix.rowSizes i < row.length := by omega
  have hcolumn := getElem?_flatMap_rows Prod.fst hi hr
  have hvalue := getElem?_flatMap_rows Prod.snd hi hr
  have hget := List.getElem?_eq_getElem hr
  rw [Nat.add_sub_cancel' hle, hget, Option.map_some] at hcolumn hvalue
  exact ⟨_, hget, hcolumn, hvalue⟩

namespace IsSlice

variable {row : List (Nat × α)} {columns : Array Nat} {values : Array α} {start k k' col col' : Nat}

theorem mem_row (h : IsSlice row columns values start) (hle : start ≤ k)
    (hlt : k < start + row.length) (hcol : columns[k]? = some col) :
    ∃ entry ∈ row, entry.1 = col := by
  obtain ⟨entry, hentry, hcolumn, -⟩ := h k hle hlt
  rw [hcolumn, Option.some.injEq] at hcol
  exact ⟨entry, List.mem_of_getElem? hentry, hcol⟩

theorem column_lt (h : IsSlice row columns values start) (hrow : ByColumn row) (hle : start ≤ k)
    (hkk' : k < k') (hlt : k' < start + row.length) (hcol : columns[k]? = some col)
    (hcol' : columns[k']? = some col') : col < col' := by
  obtain ⟨entry, hentry, hcolumn, -⟩ := h k hle (by omega)
  obtain ⟨entry', hentry', hcolumn', -⟩ := h k' (by omega) hlt
  rw [hcolumn, Option.some.injEq] at hcol
  rw [hcolumn', Option.some.injEq] at hcol'
  obtain ⟨hr, hget⟩ := List.getElem?_eq_some_iff.mp hentry
  obtain ⟨hr', hget'⟩ := List.getElem?_eq_some_iff.mp hentry'
  have hcolumns := List.pairwise_iff_getElem.mp hrow _ _ hr hr' (by omega)
  rw [hget, hget', hcol, hcol'] at hcolumns
  exact hcolumns

theorem lookup_eq_some_iff (h : IsSlice row columns values start) (hrow : ByColumn row)
    {value : α} : row.lookup col = some value ↔ ∃ k, start ≤ k ∧ k < start + row.length ∧
      columns[k]? = some col ∧ values[k]? = some value := by
  rw [lookup_eq_some_iff_getElem? hrow]
  constructor
  · intro hlookup
    obtain ⟨r, hr⟩ := hlookup
    have hlt := (List.getElem?_eq_some_iff.mp hr).1
    obtain ⟨entry, hentry, hcolumn, hvalue⟩ := h (start + r) (Nat.le_add_right _ _) (by omega)
    rw [Nat.add_sub_cancel_left, hr, Option.some.injEq] at hentry
    rw [← hentry] at hcolumn hvalue
    exact ⟨start + r, Nat.le_add_right _ _, by omega, hcolumn, hvalue⟩
  · intro hslice
    obtain ⟨k, hle, hlt, hcol, hval⟩ := hslice
    obtain ⟨entry, hentry, hcolumn, hvalue⟩ := h k hle hlt
    rw [hcolumn, Option.some.injEq] at hcol
    rw [hvalue, Option.some.injEq] at hval
    exact ⟨k - start, by rw [hentry, ← hcol, ← hval]⟩

end IsSlice

/-- The flat lists of a matrix: the offsets cut the columns and values into the rows, the columns
of each row increase, and the pairs of column and value are the explicit entries. -/
structure IsCsr (matrix : SparseMatrix α) : Prop where
  size_rowOffsets : matrix.rowOffsets.size = matrix.numRows + 1
  first_offset : matrix.rowOffsets[0]? = some 0
  last_offset : matrix.rowOffsets[matrix.numRows]? = some matrix.numEntries
  size_columns : matrix.columns.size = matrix.numEntries
  size_values : matrix.values.size = matrix.numEntries
  row_slice : ∀ row < matrix.numRows, ∃ start stop, matrix.rowOffsets[row]? = some start ∧
    matrix.rowOffsets[row + 1]? = some stop ∧ start ≤ stop ∧
    (∀ k k' col col', start ≤ k → k < k' → k' < stop → matrix.columns[k]? = some col →
      matrix.columns[k']? = some col' → col < col') ∧
    (∀ k col, start ≤ k → k < stop → matrix.columns[k]? = some col → col < matrix.numCols) ∧
    ∀ col value, matrix.value? row col = some value ↔
      ∃ k, start ≤ k ∧ k < stop ∧ matrix.columns[k]? = some col ∧ matrix.values[k]? = some value

theorem Compressed.isCsr {matrix : SparseMatrix α} (h : matrix.Compressed) : matrix.IsCsr where
  size_rowOffsets := by
    rw [rowOffsets_eq, List.size_toArray, List.length_map, List.length_range, rowSizes,
      List.length_map, Array.length_toList, h.size_rows]
  first_offset := by
    rw [getElem?_rowOffsets h (Nat.zero_le _), offset_zero]
  last_offset := by
    have hlength : matrix.numRows = matrix.rowSizes.length := by
      rw [rowSizes, List.length_map, Array.length_toList, h.size_rows]
    rw [getElem?_rowOffsets h (Nat.le_refl _), hlength, offset_length, numEntries_eq]
  size_columns := size_flatMap_rows matrix Prod.fst
  size_values := size_flatMap_rows matrix Prod.snd
  row_slice := by
    intro i hi
    have hlt : i < matrix.rows.size := by
      rw [h.size_rows]
      exact hi
    have hget := Array.getElem?_eq_getElem hlt
    have hmem := Array.getElem_mem hlt
    generalize matrix.rows[i] = row at hget hmem
    have hsize : matrix.rowSizes[i]? = some row.length := by
      rw [rowSizes, List.getElem?_map, Array.getElem?_toList, hget, Option.map_some]
    have hnext := offset_succ hsize
    have hslice := isSlice_row hget
    have hrow := h.byColumn row hmem
    rw [getElem?_rowOffsets h (Nat.le_of_lt hi), getElem?_rowOffsets h hi, hnext]
    refine ⟨_, _, rfl, rfl, Nat.le_add_right _ _, ?_, ?_, ?_⟩
    · intro k k' col col' hle hkk' hstop hk hk'
      exact hslice.column_lt hrow hle hkk' hstop hk hk'
    · intro k col hle hstop hk
      obtain ⟨entry, hentry, heq⟩ := hslice.mem_row hle hstop hk
      rw [← heq]
      exact h.lt_numCols row hmem entry hentry
    · intro col value
      have hvalue : matrix.value? i col = row.lookup col := by
        rw [value?, Array.getD_eq_getD_getElem?, hget, Option.getD_some]
      rw [hvalue]
      exact hslice.lookup_eq_some_iff hrow

end SparseMatrix
end FiniteElement
