import Mathlib
import FiniteElement.Proofs.Assembly.SerialSums
import FiniteElement.Proofs.Geometry.Vec3

/-! # Exact sums over cells

On rational numbers the order of the cells drops out of what is assembled. Every
entry of a vector or a matrix is the sum of what the cells have for its nodes,
and these sums, with the places of the explicit entries, determine the whole.
-/

namespace FiniteElement

/-! ## Nodes of a cell among all nodes -/

section Nodes

variable {nodes : List Nat} {size : Nat}

theorem sum_ite_mem_nodes (hlt : ∀ v ∈ nodes, v < size) (f : Nat → Rat) :
    ∑ v ∈ Finset.range size, (if v ∈ nodes then f v else 0) = ∑ v ∈ nodes.toFinset, f v := by
  have hsubset : nodes.toFinset ⊆ Finset.range size := by
    intro v hv
    exact Finset.mem_range.mpr (hlt v (List.mem_toFinset.mp hv))
  rw [← Finset.sum_subset hsubset]
  · apply Finset.sum_congr rfl
    intro v hv
    rw [if_pos (List.mem_toFinset.mp hv)]
  · intro v _ hv
    rw [if_neg (fun hmem => hv (List.mem_toFinset.mpr hmem))]

/-- A node has one place in a list without repetitions, or none. -/
theorem sum_ite_getElem? (hnodup : nodes.Nodup) (v : Nat) (c : Rat) :
    ∑ i ∈ Finset.range nodes.length, (if nodes[i]? = some v then c else 0) =
      if v ∈ nodes then c else 0 := by
  by_cases hv : v ∈ nodes
  · have hlt := List.idxOf_lt_length_of_mem hv
    have hplace : ∀ i ∈ Finset.range nodes.length,
        (if nodes[i]? = some v then c else 0) = if i = nodes.idxOf v then c else 0 := by
      intro i hi
      have hi' := Finset.mem_range.mp hi
      have hiff : nodes[i]? = some v ↔ i = nodes.idxOf v := by
        rw [List.getElem?_eq_getElem hi', Option.some.injEq, ← List.getElem_idxOf hlt,
          hnodup.getElem_inj_iff, List.getElem_idxOf hlt]
      simp only [hiff]
    rw [Finset.sum_congr rfl hplace, Finset.sum_ite_eq', if_pos (Finset.mem_range.mpr hlt),
      if_pos hv]
  · rw [if_neg hv]
    apply Finset.sum_eq_zero
    intro i _
    rw [if_neg (fun hget => hv (List.mem_of_getElem? hget))]

/-- Two nodes have one place in a square of values, or none. -/
theorem sum_places (hnodup : nodes.Nodup) {value : Nat → Nat → Rat} {v w : Nat} {c : Rat}
    (hvalue : ∀ i j, nodes[i]? = some v → nodes[j]? = some w → value i j = c) :
    ∑ i ∈ Finset.range nodes.length, ∑ j ∈ Finset.range nodes.length,
        (if nodes[i]? = some v ∧ nodes[j]? = some w then value i j else 0) =
      if v ∈ nodes ∧ w ∈ nodes then c else 0 := by
  have hterm : ∀ i j, (if nodes[i]? = some v ∧ nodes[j]? = some w then value i j else 0) =
      if nodes[i]? = some v then (if nodes[j]? = some w then c else 0) else 0 := by
    intro i j
    by_cases hi : nodes[i]? = some v
    · by_cases hj : nodes[j]? = some w
      · simp only [hi, hj, and_self, if_true, hvalue i j hi hj]
      · simp only [hi, hj, and_false, if_true, if_false]
    · simp only [hi, false_and, if_false]
  have hrow : ∀ i : Nat, (∑ j ∈ Finset.range nodes.length,
      if nodes[i]? = some v then (if nodes[j]? = some w then c else 0) else 0) =
        if nodes[i]? = some v then (if w ∈ nodes then c else 0) else 0 := by
    intro i
    by_cases hi : nodes[i]? = some v
    · simp only [hi, if_true]
      exact sum_ite_getElem? hnodup w c
    · simp only [hi, if_false, Finset.sum_const_zero]
  simp only [hterm, hrow]
  rw [sum_ite_getElem? hnodup, ite_and]

theorem foldl_add_eq_sum (f : Nat → Rat) (n : Nat) (start : Rat) :
    (List.range n).foldl (fun sum cell => sum + f cell) start =
      start + ∑ cell ∈ Finset.range n, f cell := by
  induction n with
  | zero => simp
  | succ n ih =>
      rw [List.range_succ, List.foldl_append, ih, Finset.sum_range_succ]
      simp [add_assoc]

end Nodes

/-! ## Matrices -/

namespace SparseMatrix

/-- The entry at a place, zero where none is explicit. -/
def entry (matrix : SparseMatrix Rat) (i j : Nat) : Rat := (matrix.value? i j).getD 0

def mulVec (matrix : SparseMatrix Rat) (u : Nat → Rat) (i : Nat) : Rat :=
  ∑ j ∈ Finset.range matrix.numCols, matrix.entry i j * u j

def energy (matrix : SparseMatrix Rat) (u : Nat → Rat) : Rat :=
  ∑ i ∈ Finset.range matrix.numRows, u i * matrix.mulVec u i

/-- The values of a row by increasing column add up to its entries in all columns. -/
theorem sum_map_snd_eq_sum_lookup {row : List (Nat × Rat)} (h : ByColumn row) {numCols : Nat}
    (hlt : ∀ entry ∈ row, entry.1 < numCols) :
    (row.map Prod.snd).sum = ∑ j ∈ Finset.range numCols, (row.lookup j).getD 0 := by
  induction row with
  | nil => simp
  | cons entry rest ih =>
      obtain ⟨k, x⟩ := entry
      obtain ⟨hfirst, hrest⟩ := List.pairwise_cons.mp h
      have hnone : rest.lookup k = none := lookup_eq_none_of_lt hfirst
      have hlookup : ∀ j, (((k, x) :: rest).lookup j).getD 0 =
          (if j = k then x else 0) + (rest.lookup j).getD 0 := by
        intro j
        by_cases hj : j = k
        · rw [hj, List.lookup_cons_self, hnone, if_pos rfl]
          exact (add_zero x).symm
        · rw [lookup_cons_of_ne hj, if_neg hj, zero_add]
      have hk := Finset.mem_range.mpr (hlt (k, x) List.mem_cons_self)
      rw [List.map_cons, List.sum_cons,
        ih hrest fun other hother => hlt other (List.mem_cons_of_mem _ hother)]
      simp only [hlookup]
      rw [Finset.sum_add_distrib, Finset.sum_ite_eq', if_pos hk]

/-- The values of a matrix add up to its entries at all places. -/
theorem Compressed.sum_values {matrix : SparseMatrix Rat} (h : matrix.Compressed) :
    matrix.values.toList.sum = matrix.energy fun _ => 1 := by
  have hrows : matrix.rows.toList = (List.range matrix.numRows).map (matrix.rows.getD · []) := by
    apply List.ext_getElem
    · simp [h.size_rows]
    · intro i hi _
      simp only [Array.length_toList] at hi
      simp [hi]
  have hrow : ∀ i ∈ Finset.range matrix.numRows, ((matrix.rows.getD i []).map Prod.snd).sum =
      1 * matrix.mulVec (fun _ => 1) i := by
    intro i hi
    have hlt : i < matrix.rows.size := h.size_rows ▸ Finset.mem_range.mp hi
    have hget : matrix.rows.getD i [] = matrix.rows[i] := by simp [hlt]
    have hmem : matrix.rows.getD i [] ∈ matrix.rows := hget ▸ Array.getElem_mem hlt
    simp only [mulVec, entry, value?, mul_one, one_mul]
    exact sum_map_snd_eq_sum_lookup (h.byColumn _ hmem) (h.lt_numCols _ hmem)
  rw [values, Array.toList_flatMap, ← List.map_id (List.flatMap _ _), sum_map_flatMap, hrows,
    List.map_map, sum_map_range]
  simp only [List.map_id]
  exact Finset.sum_congr rfl hrow

theorem eq_of_isSome_of_getD {value value' : Option Rat} (hsome : value.isSome ↔ value'.isSome)
    (hvalue : value.getD 0 = value'.getD 0) : value = value' := by
  cases value with
  | none =>
      cases value' with
      | none => rfl
      | some a => simp at hsome
  | some a =>
      cases value' with
      | none => simp at hsome
      | some b => exact congrArg some hvalue

/-- The matrix of a size that adds up a number of each cell for every two of its nodes. -/
structure IsCellSum (matrix : SparseMatrix Rat) (size numCells : Nat) (nodes : Nat → List Nat)
    (kernel : Nat → Nat → Nat → Rat) : Prop where
  numRows_eq : matrix.numRows = size
  numCols_eq : matrix.numCols = size
  compressed : matrix.Compressed
  isSome_value? : ∀ i j, (matrix.value? i j).isSome ↔
    ∃ cell < numCells, i ∈ nodes cell ∧ j ∈ nodes cell
  entry_eq : ∀ i j, matrix.entry i j =
    ∑ cell ∈ Finset.range numCells, if i ∈ nodes cell ∧ j ∈ nodes cell then kernel cell i j else 0

namespace IsCellSum

variable {matrix : SparseMatrix Rat} {size numCells : Nat} {nodes : Nat → List Nat}
  {kernel : Nat → Nat → Nat → Rat}

theorem eq (h : matrix.IsCellSum size numCells nodes kernel) {matrix' : SparseMatrix Rat}
    (h' : matrix'.IsCellSum size numCells nodes kernel) : matrix = matrix' := by
  apply h.compressed.eq_of_value? h'.compressed
  · rw [h.numRows_eq, h'.numRows_eq]
  · rw [h.numCols_eq, h'.numCols_eq]
  · intro i j
    exact eq_of_isSome_of_getD ((h.isSome_value? i j).trans (h'.isSome_value? i j).symm)
      ((h.entry_eq i j).trans (h'.entry_eq i j).symm)

theorem value?_comm (h : matrix.IsCellSum size numCells nodes kernel)
    (hkernel : ∀ cell v w, kernel cell v w = kernel cell w v) (i j : Nat) :
    matrix.value? i j = matrix.value? j i := by
  have hentry : matrix.entry i j = matrix.entry j i := by
    rw [h.entry_eq, h.entry_eq]
    simp only [and_comm, hkernel _ i j]
  apply eq_of_isSome_of_getD _ hentry
  rw [h.isSome_value?, h.isSome_value?]
  simp only [and_comm]

variable (h : matrix.IsCellSum size numCells nodes kernel)
  (hlt : ∀ cell < numCells, ∀ v ∈ nodes cell, v < size)

include h hlt

theorem mulVec_eq (u : Nat → Rat) (i : Nat) :
    matrix.mulVec u i = ∑ cell ∈ Finset.range numCells,
      if i ∈ nodes cell then ∑ j ∈ (nodes cell).toFinset, kernel cell i j * u j else 0 := by
  have hterms : ∀ j, matrix.entry i j * u j = ∑ cell ∈ Finset.range numCells,
      if i ∈ nodes cell then (if j ∈ nodes cell then kernel cell i j * u j else 0) else 0 := by
    intro j
    rw [h.entry_eq, Finset.sum_mul]
    apply Finset.sum_congr rfl
    intro cell _
    by_cases hi : i ∈ nodes cell
    · simp only [hi, true_and, if_true, ite_mul, zero_mul]
    · simp only [hi, false_and, if_false, zero_mul]
  rw [mulVec, h.numCols_eq, Finset.sum_congr rfl (fun j _ => hterms j), Finset.sum_comm]
  apply Finset.sum_congr rfl
  intro cell hcell
  by_cases hi : i ∈ nodes cell
  · simp only [hi, if_true]
    exact sum_ite_mem_nodes (hlt cell (Finset.mem_range.mp hcell)) _
  · simp only [hi, if_false, Finset.sum_const_zero]

theorem energy_eq (u : Nat → Rat) :
    matrix.energy u = ∑ cell ∈ Finset.range numCells,
      ∑ i ∈ (nodes cell).toFinset, ∑ j ∈ (nodes cell).toFinset, u i * kernel cell i j * u j := by
  have hterms : ∀ i, u i * matrix.mulVec u i = ∑ cell ∈ Finset.range numCells,
      if i ∈ nodes cell then ∑ j ∈ (nodes cell).toFinset, u i * kernel cell i j * u j else 0 := by
    intro i
    rw [h.mulVec_eq hlt, Finset.mul_sum]
    apply Finset.sum_congr rfl
    intro cell _
    rw [mul_ite, mul_zero, Finset.mul_sum]
    simp only [mul_assoc]
  rw [energy, h.numRows_eq, Finset.sum_congr rfl (fun i _ => hterms i), Finset.sum_comm]
  apply Finset.sum_congr rfl
  intro cell hcell
  exact sum_ite_mem_nodes (hlt cell (Finset.mem_range.mp hcell)) _

end IsCellSum

end SparseMatrix

/-! ## Vectors -/

/-- The vector of a size that adds up a number of each cell for every one of its nodes. -/
structure IsNodalSum (vector : Array Rat) (size numCells : Nat) (nodes : Nat → List Nat)
    (load : Nat → Nat → Rat) : Prop where
  size_eq : vector.size = size
  getElem?_eq : ∀ v < size, vector[v]? =
    some (∑ cell ∈ Finset.range numCells, if v ∈ nodes cell then load cell v else 0)

namespace IsNodalSum

variable {vector : Array Rat} {size numCells : Nat} {nodes : Nat → List Nat}
  {load : Nat → Nat → Rat}

theorem eq (h : IsNodalSum vector size numCells nodes load) {vector' : Array Rat}
    (h' : IsNodalSum vector' size numCells nodes load) : vector = vector' := by
  apply Array.ext_getElem?
  intro v
  rcases Nat.lt_or_ge v size with hlt | hge
  · rw [h.getElem?_eq v hlt, h'.getElem?_eq v hlt]
  · rw [Array.getElem?_eq_none (h.size_eq.trans_le hge),
      Array.getElem?_eq_none (h'.size_eq.trans_le hge)]

/-- The entries of the vector add up to what all cells have for all their nodes. -/
theorem sum_eq (h : IsNodalSum vector size numCells nodes load)
    (hlt : ∀ cell < numCells, ∀ v ∈ nodes cell, v < size) :
    vector.toList.sum =
      ∑ cell ∈ Finset.range numCells, ∑ v ∈ (nodes cell).toFinset, load cell v := by
  have hlist : vector.toList = (List.range size).map fun v =>
      ∑ cell ∈ Finset.range numCells, if v ∈ nodes cell then load cell v else 0 := by
    apply List.ext_getElem?
    intro v
    rw [Array.getElem?_toList, List.getElem?_map]
    rcases Nat.lt_or_ge v size with hlt | hge
    · rw [h.getElem?_eq v hlt, List.getElem?_range hlt, Option.map_some]
    · rw [Array.getElem?_eq_none (h.size_eq.trans_le hge),
        List.getElem?_eq_none (by rwa [List.length_range]), Option.map_none]
  rw [hlist, sum_map_range, Finset.sum_comm]
  apply Finset.sum_congr rfl
  intro cell hcell
  exact sum_ite_mem_nodes (hlt cell (Finset.mem_range.mp hcell)) _

end IsNodalSum

theorem exists_isNodalSum (size numCells : Nat) (nodes : Nat → List Nat) (load : Nat → Nat → Rat) :
    ∃ vector, IsNodalSum vector size numCells nodes load := by
  refine ⟨Array.ofFn fun v : Fin size =>
    ∑ cell ∈ Finset.range numCells, if v.val ∈ nodes cell then load cell v else 0, ?_, ?_⟩
  · exact Array.size_ofFn
  · intro v hv
    rw [Array.getElem?_ofFn, dif_pos hv]

theorem sum_map_ite_eq {nodes : List Nat} (hnodup : nodes.Nodup) (f : Nat → Rat) (v : Nat) :
    (nodes.map fun w => if w = v then f w else 0).sum = if v ∈ nodes then f v else 0 := by
  rw [← List.sum_toFinset _ hnodup, Finset.sum_ite_eq']
  simp only [List.mem_toFinset]

/-- The triplets of all cells make the matrix that adds them up, if there is room for its row
offsets. -/
theorem exists_isCellSum {size numCells : Nat} {nodes : Nat → List Nat}
    (hlt : ∀ cell < numCells, ∀ v ∈ nodes cell, v < size)
    (hnodup : ∀ cell < numCells, (nodes cell).Nodup) {tensor : Nat → List Rat}
    {kernel : Nat → Nat → Nat → Rat} (hkernel : ∀ cell < numCells, ∀ i j v w,
      (nodes cell)[i]? = some v → (nodes cell)[j]? = some w →
      (tensor cell).getD (i * (nodes cell).length + j) 0 = kernel cell v w) :
    ∃ matrix : SparseMatrix Rat,
      (∀ result, SparseMatrix.ofTriplets size size ((List.range numCells).flatMap fun cell =>
          localTriplets (nodes cell) (nodes cell) (tensor cell)) = .ok result ↔
        size + 1 < Index.capacity ∧ matrix = result) ∧
      matrix.IsCellSum size numCells nodes kernel := by
  obtain ⟨matrix, hmatrix, hrows, hcols, hcompressed, hexplicit, hsum⟩ :=
    exists_matrix_of_cells hlt hlt tensor
  refine ⟨matrix, hmatrix, hrows, hcols, hcompressed, ?_, ?_⟩
  · intro i j
    rw [Option.isSome_iff_exists]
    exact hexplicit i j
  · intro i j
    unfold SparseMatrix.entry
    cases hvalue : matrix.value? i j with
    | none =>
        symm
        apply Finset.sum_eq_zero
        intro cell hcell
        rw [if_neg]
        intro hboth
        obtain ⟨value, hsome⟩ := (hexplicit i j).mpr ⟨cell, Finset.mem_range.mp hcell, hboth⟩
        rw [hvalue] at hsome
        cases hsome
    | some value =>
        refine Eq.trans (hsum Rat id (fun _ _ => rfl) i j value hvalue) ?_
        apply Finset.sum_congr rfl
        intro cell hcell
        have hc := Finset.mem_range.mp hcell
        exact sum_places (hnodup cell hc) fun a b => hkernel cell hc a b i j

/-- Numbers for the nodes of all cells, added to zeros one after the other. -/
theorem isNodalSum_of_addAll {size numCells : Nat} {nodes : Nat → List Nat}
    (hnodup : ∀ cell < numCells, (nodes cell).Nodup) {load : Nat → Nat → Rat} {vector : Array Rat}
    (h : Job.addAll ((List.range numCells).flatMap fun cell =>
      (nodes cell).map fun v => (v, load cell v)) (Array.replicate size 0) = .ok vector) :
    IsNodalSum vector size numCells nodes load where
  size_eq := (Job.size_of_addAll h).trans Array.size_replicate
  getElem?_eq := by
    intro v hv
    have hstart : (Array.replicate size (0 : Rat))[v]? = some 0 := by
      rw [Array.getElem?_replicate, if_pos hv]
    rw [Job.getElem?_addAll h, hstart, Option.map_some, Option.some.injEq]
    refine Eq.trans List.sum_eq_foldl.symm ?_
    have hvalues := Job.sum_valuesOf id ((List.range numCells).flatMap fun cell =>
      (nodes cell).map fun v => (v, load cell v)) v
    rw [List.map_id, sum_map_flatMap, sum_map_range] at hvalues
    rw [hvalues]
    apply Finset.sum_congr rfl
    intro cell hcell
    rw [List.map_map]
    exact sum_map_ite_eq (hnodup cell (Finset.mem_range.mp hcell)) (load cell) v

/-! ## Cells with other numbers -/

section Renumbered

variable {numCells size : Nat} {order : Nat → Nat}
  (horder : Set.BijOn order (Set.Iio numCells) (Set.Iio numCells))

include horder

theorem sum_renumbered (f : Nat → Rat) :
    ∑ cell ∈ Finset.range numCells, f (order cell) = ∑ cell ∈ Finset.range numCells, f cell := by
  rw [← Finset.coe_range] at horder
  exact Finset.sum_nbij order horder.mapsTo horder.injOn horder.surjOn fun _ _ => rfl

variable {nodes nodes' : Nat → List Nat}
  (hnodes : ∀ cell < numCells, ∀ v, v ∈ nodes' cell ↔ v ∈ nodes (order cell))

include hnodes

/-- Neither the numbers of the cells nor the order of their nodes matters to a matrix. -/
theorem isCellSum_renumbered_iff {matrix : SparseMatrix Rat}
    {kernel kernel' : Nat → Nat → Nat → Rat}
    (hkernel : ∀ cell < numCells, ∀ v ∈ nodes (order cell), ∀ w ∈ nodes (order cell),
      kernel' cell v w = kernel (order cell) v w) :
    matrix.IsCellSum size numCells nodes' kernel' ↔
      matrix.IsCellSum size numCells nodes kernel := by
  have hsome : ∀ i j, (∃ cell < numCells, i ∈ nodes' cell ∧ j ∈ nodes' cell) ↔
      ∃ cell < numCells, i ∈ nodes cell ∧ j ∈ nodes cell := by
    intro i j
    constructor
    · rintro ⟨cell, hc, hi, hj⟩
      exact ⟨order cell, horder.mapsTo hc, (hnodes cell hc i).mp hi, (hnodes cell hc j).mp hj⟩
    · rintro ⟨cell, hc, hi, hj⟩
      obtain ⟨other, hother, heq⟩ := horder.surjOn hc
      rw [← heq] at hi hj
      exact ⟨other, hother, (hnodes other hother i).mpr hi, (hnodes other hother j).mpr hj⟩
  have hsum : ∀ i j, (∑ cell ∈ Finset.range numCells,
      if i ∈ nodes' cell ∧ j ∈ nodes' cell then kernel' cell i j else 0) =
        ∑ cell ∈ Finset.range numCells,
          if i ∈ nodes cell ∧ j ∈ nodes cell then kernel cell i j else 0 := by
    intro i j
    refine Eq.trans ?_ (sum_renumbered horder _)
    apply Finset.sum_congr rfl
    intro cell hcell
    have hc := Finset.mem_range.mp hcell
    simp only [hnodes cell hc]
    split
    case isTrue hboth => exact hkernel cell hc i hboth.1 j hboth.2
    case isFalse => rfl
  constructor
  · intro h
    exact ⟨h.numRows_eq, h.numCols_eq, h.compressed,
      fun i j => (h.isSome_value? i j).trans (hsome i j),
      fun i j => (h.entry_eq i j).trans (hsum i j)⟩
  · intro h
    exact ⟨h.numRows_eq, h.numCols_eq, h.compressed,
      fun i j => (h.isSome_value? i j).trans (hsome i j).symm,
      fun i j => (h.entry_eq i j).trans (hsum i j).symm⟩

theorem isNodalSum_renumbered_iff {vector : Array Rat} {load load' : Nat → Nat → Rat}
    (hload : ∀ cell < numCells, ∀ v ∈ nodes (order cell), load' cell v = load (order cell) v) :
    IsNodalSum vector size numCells nodes' load' ↔ IsNodalSum vector size numCells nodes load := by
  have hsum : ∀ v, (∑ cell ∈ Finset.range numCells, if v ∈ nodes' cell then load' cell v else 0) =
      ∑ cell ∈ Finset.range numCells, if v ∈ nodes cell then load cell v else 0 := by
    intro v
    refine Eq.trans ?_ (sum_renumbered horder _)
    apply Finset.sum_congr rfl
    intro cell hcell
    have hc := Finset.mem_range.mp hcell
    simp only [hnodes cell hc]
    split
    case isTrue hmem => exact hload cell hc v hmem
    case isFalse => rfl
  constructor
  · intro h
    exact ⟨h.size_eq, fun v hv => (h.getElem?_eq v hv).trans (congrArg some (hsum v))⟩
  · intro h
    exact ⟨h.size_eq, fun v hv => (h.getElem?_eq v hv).trans (congrArg some (hsum v).symm)⟩

end Renumbered

/-! ## What serial assemblers return -/

namespace Form.Tabulates

variable {form : Form Rat} {mesh : Mesh Rat} {coefficients : List (Array Rat)}
  {tensor : Nat → List Rat} (h : form.Tabulates mesh coefficients tensor)
  (assembler : SerialAssembler Rat)

include h

theorem result_assembleScalar_eq_sum (hrank : form.rank = 0) :
    (assembler.assembleScalar form mesh coefficients).1.result =
      .ok (∑ cell ∈ Finset.range mesh.numCells, (tensor cell).getD 0 0) := by
  rw [h.result_assembleScalar hrank assembler (FinitenessPolicy.isQuiet_rat _), foldl_add_eq_sum]
  exact congrArg Except.ok (zero_add _)

section Nodes

variable {map : DofMap Rat} {size : Nat} {nodes : Nat → List Nat}
  (hsize : map.globalDimension mesh.entityCounts = .ok size)
  (hnodes : ∀ cell < mesh.numCells, map.cellNodes mesh cell = nodes cell)

include hsize hnodes

/-- The numbers of the cells for their nodes are added up, unless the vector is too long. -/
theorem result_assembleVector_iff (hrank : form.rank = 1) {maps : List (DofMap Rat)}
    (hmaps : form.dofMaps = map :: maps) {load : Nat → Nat → Rat}
    (hload : ∀ cell < mesh.numCells, tensor cell = (nodes cell).map (load cell))
    {vector : Array Rat} :
    (assembler.assembleVector form mesh coefficients).1.result = .ok vector ↔
      size < Index.capacity ∧ IsNodalSum vector size mesh.numCells nodes load := by
  have hmap := (h.numbering map (hmaps ▸ List.mem_cons_self)).1
  have hnodup : ∀ cell < mesh.numCells, (nodes cell).Nodup := by
    intro cell hc
    rw [← hnodes cell hc]
    exact DofMap.nodup_cellNodes h.wellFormed hmap hc
  have hentries : ((List.range mesh.numCells).flatMap fun cell =>
      (map.cellNodes mesh cell).zip (tensor cell)) = (List.range mesh.numCells).flatMap fun cell =>
        (nodes cell).map fun v => (v, load cell v) := by
    apply List.flatMap_congr
    intro cell hcell
    have hc := List.mem_range.mp hcell
    rw [hnodes cell hc, hload cell hc]
    have hzip := List.zip_map' (f := id) (g := load cell) (l := nodes cell)
    rw [List.map_id] at hzip
    exact hzip
  have hbounds : ∀ entry ∈ (List.range mesh.numCells).flatMap fun cell =>
      (nodes cell).map fun v => (v, load cell v),
      entry.1 < (Array.replicate size (0 : Rat)).size := by
    intro entry hentry
    obtain ⟨cell, hcell, hmem⟩ := List.mem_flatMap.mp hentry
    obtain ⟨v, hv, heq⟩ := List.mem_map.mp hmem
    have hc := List.mem_range.mp hcell
    rw [← hnodes cell hc] at hv
    rw [Array.size_replicate, ← heq]
    exact DofMap.lt_of_mem_cellNodes_of_globalDimension h.wellFormed hmap hsize hc v hv
  rw [h.result_assembleVector hrank hmaps hsize assembler (FinitenessPolicy.isQuiet_rat _),
    hentries, Failure.lift_eq_ok_iff]
  simp only [Checked.bind_eq_ok_iff, Index.length_eq_ok_iff]
  constructor
  · rintro ⟨length, ⟨hlt, heq⟩, hadded⟩
    rw [← heq] at hadded
    exact ⟨hlt, isNodalSum_of_addAll hnodup hadded⟩
  · rintro ⟨hlt, hvector⟩
    obtain ⟨sums, hsums⟩ := Job.exists_addAll hbounds
    rw [hvector.eq (isNodalSum_of_addAll hnodup hsums)]
    exact ⟨size, ⟨hlt, rfl⟩, hsums⟩

/-- The numbers of the cells for their pairs of nodes are added up, unless there is no room for
them. -/
theorem result_assembleMatrix_iff (hrank : form.rank = 2) (hmaps : form.dofMaps = [map, map])
    {kernel : Nat → Nat → Nat → Rat} (hkernel : ∀ cell < mesh.numCells, ∀ i j v w,
      (nodes cell)[i]? = some v → (nodes cell)[j]? = some w →
      (tensor cell).getD (i * (nodes cell).length + j) 0 = kernel cell v w)
    {matrix : SparseMatrix Rat} :
    (assembler.assembleMatrix form mesh coefficients).1.result = .ok matrix ↔
      (∃ words, SerialAssembler.tripletRoom form mesh = .ok words) ∧
        size + 1 < Index.capacity ∧ matrix.IsCellSum size mesh.numCells nodes kernel := by
  have hmap := (h.numbering map (hmaps ▸ List.mem_cons_self)).1
  have hlt : ∀ cell < mesh.numCells, ∀ v ∈ nodes cell, v < size := by
    intro cell hc
    rw [← hnodes cell hc]
    exact DofMap.lt_of_mem_cellNodes_of_globalDimension h.wellFormed hmap hsize hc
  have hnodup : ∀ cell < mesh.numCells, (nodes cell).Nodup := by
    intro cell hc
    rw [← hnodes cell hc]
    exact DofMap.nodup_cellNodes h.wellFormed hmap hc
  have htriplets : ((List.range mesh.numCells).flatMap fun cell => localTriplets
      (map.cellNodes mesh cell) (map.cellNodes mesh cell) (tensor cell)) =
        (List.range mesh.numCells).flatMap fun cell =>
          localTriplets (nodes cell) (nodes cell) (tensor cell) := by
    apply List.flatMap_congr
    intro cell hcell
    rw [hnodes cell (List.mem_range.mp hcell)]
  obtain ⟨sum, hsum, hcells⟩ := exists_isCellSum hlt hnodup hkernel
  rw [h.result_assembleMatrix hrank hmaps hsize hsize assembler (FinitenessPolicy.isQuiet_rat _),
    htriplets, Failure.lift_eq_ok_iff]
  cases SerialAssembler.tripletRoom form mesh with
  | error fault =>
      constructor
      · intro heq
        cases heq
      · rintro ⟨⟨words, hwords⟩, -⟩
        cases hwords
  | ok words =>
      refine (hsum matrix).trans ?_
      constructor
      · rintro ⟨hroom, heq⟩
        exact ⟨⟨words, rfl⟩, hroom, heq ▸ hcells⟩
      · rintro ⟨-, hroom, hmatrix⟩
        exact ⟨hroom, hcells.eq hmatrix⟩

end Nodes

end Form.Tabulates
end FiniteElement
