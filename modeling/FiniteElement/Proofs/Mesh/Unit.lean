import Mathlib
import FiniteElement.Mesh.Unit
import FiniteElement.Proofs.Mesh.WellFormed

/-! # The unit meshes are well-formed

Vertices are numbered row after row and layer after layer, so a step along an
axis leads to a vertex with a larger number. A walk therefore never meets a vertex
twice, and one that takes a single step along each axis stays on the lattice.
-/

namespace FiniteElement

namespace UnitMesh

theorem squareVertex_lt {n i j : Nat} (hi : i ≤ n) (hj : j ≤ n) :
    squareVertex n i j < (n + 1) * (n + 1) := by
  have hrow : (n + 1) * j ≤ (n + 1) * n := Nat.mul_le_mul_left _ hj
  rw [squareVertex, Nat.mul_succ]
  omega

theorem boxVertex_eq (n i j k : Nat) :
    boxVertex n i j k = (n + 1) * (n + 1) * k + squareVertex n i j := by
  simp [boxVertex, squareVertex, Nat.add_assoc]

theorem boxVertex_lt {n i j k : Nat} (hi : i ≤ n) (hj : j ≤ n) (hk : k ≤ n) :
    boxVertex n i j k < (n + 1) * (n + 1) * (n + 1) := by
  have hlayer : (n + 1) * (n + 1) * k ≤ (n + 1) * (n + 1) * n := Nat.mul_le_mul_left _ hk
  have hsquare := squareVertex_lt hi hj
  rw [boxVertex_eq, Nat.mul_succ ((n + 1) * (n + 1))]
  omega

theorem squareVertex_lt_right (n i j : Nat) : squareVertex n i j < squareVertex n (i + 1) j := by
  simp [squareVertex]

theorem squareVertex_lt_up (n i j : Nat) : squareVertex n i j < squareVertex n i (j + 1) := by
  simp only [squareVertex, Nat.mul_succ]
  omega

theorem boxVertex_lt_layer (n i j k : Nat) : boxVertex n i j k < boxVertex n i j (k + 1) := by
  have hpos : 0 < (n + 1) * (n + 1) := Nat.mul_pos (Nat.succ_pos n) (Nat.succ_pos n)
  simp only [boxVertex_eq, Nat.mul_succ ((n + 1) * (n + 1))]
  omega

/-! ## Walks -/

theorem length_walk (n i j k : Nat) (axes : List Nat) :
    (walk n i j k axes).length = axes.length + 1 := by
  induction axes generalizing i j k with
  | nil => rfl
  | cons axis axes ih =>
      simp only [walk, List.length_cons]
      split
      · rw [ih]
      · split <;> rw [ih]

theorem le_of_mem_walk {n i j k v : Nat} {axes : List Nat} (h : v ∈ walk n i j k axes) :
    boxVertex n i j k ≤ v := by
  induction axes generalizing i j k with
  | nil =>
      rw [walk, List.mem_singleton] at h
      exact h.ge
  | cons axis axes ih =>
      rw [walk, List.mem_cons] at h
      rcases h with rfl | h
      · exact Nat.le_refl _
      have hright := squareVertex_lt_right n i j
      have hup := squareVertex_lt_up n i j
      split at h
      · have hle := ih h
        simp only [boxVertex_eq] at hle ⊢
        omega
      split at h
      · have hle := ih h
        simp only [boxVertex_eq] at hle ⊢
        omega
      · exact Nat.le_trans (Nat.le_of_lt (boxVertex_lt_layer n i j k)) (ih h)

theorem pairwise_walk (n i j k : Nat) (axes : List Nat) :
    (walk n i j k axes).Pairwise (· < ·) := by
  induction axes generalizing i j k with
  | nil => exact List.pairwise_singleton _ _
  | cons axis axes ih =>
      have hright := squareVertex_lt_right n i j
      have hup := squareVertex_lt_up n i j
      rw [walk, List.pairwise_cons]
      split
      · refine ⟨fun v hv => ?_, ih (i + 1) j k⟩
        have hle := le_of_mem_walk hv
        simp only [boxVertex_eq] at hle ⊢
        omega
      split
      · refine ⟨fun v hv => ?_, ih i (j + 1) k⟩
        have hle := le_of_mem_walk hv
        simp only [boxVertex_eq] at hle ⊢
        omega
      · refine ⟨fun v hv => ?_, ih i j (k + 1)⟩
        exact Nat.lt_of_lt_of_le (boxVertex_lt_layer n i j k) (le_of_mem_walk hv)

/-- A walk leaves its start by at most one step for each time an axis is listed. -/
theorem exists_of_mem_walk {n i j k v : Nat} {axes : List Nat} (h : v ∈ walk n i j k axes) :
    ∃ a b c, v = boxVertex n a b c ∧ a ≤ i + axes.count 0 ∧ b ≤ j + axes.count 1 ∧
      c + axes.count 0 + axes.count 1 ≤ k + axes.length := by
  induction axes generalizing i j k with
  | nil =>
      rw [walk, List.mem_singleton] at h
      exact ⟨i, j, k, h, by simp⟩
  | cons axis axes ih =>
      have hcount : axes.count 0 + axes.count 1 ≤ axes.length := by
        clear ih h
        induction axes with
        | nil => simp
        | cons first axes ih =>
            simp only [List.count_cons, List.length_cons, beq_iff_eq]
            split <;> split <;> omega
      rw [walk, List.mem_cons] at h
      simp only [List.count_cons, List.length_cons, beq_iff_eq]
      rcases h with rfl | h
      · refine ⟨i, j, k, rfl, by omega, by omega, ?_⟩
        split <;> split <;> omega
      by_cases h0 : axis = 0
      · rw [if_pos h0] at h
        obtain ⟨a, b, c, hv, ha, hb, hc⟩ := ih h
        exact ⟨a, b, c, hv, by simp [h0]; omega, by omega, by simp [h0]; omega⟩
      rw [if_neg h0] at h
      by_cases h1 : axis = 1
      · rw [if_pos h1] at h
        obtain ⟨a, b, c, hv, ha, hb, hc⟩ := ih h
        exact ⟨a, b, c, hv, by omega, by simp [h1]; omega, by simp [h1]; omega⟩
      · rw [if_neg h1] at h
        obtain ⟨a, b, c, hv, ha, hb, hc⟩ := ih h
        exact ⟨a, b, c, hv, by omega, by omega, by simp [h0, h1]; omega⟩

theorem walk_lt {n i j k v : Nat} {axes : List Nat} (haxes : axes ∈ axisOrders)
    (hi : i < n) (hj : j < n) (hk : k < n) (h : v ∈ walk n i j k axes) :
    v < (n + 1) * (n + 1) * (n + 1) := by
  have hcounts : axes.length = 3 ∧ axes.count 0 = 1 ∧ axes.count 1 = 1 := by
    have hall : ∀ axes ∈ axisOrders,
        axes.length = 3 ∧ axes.count 0 = 1 ∧ axes.count 1 = 1 := by decide
    exact hall axes haxes
  obtain ⟨hlength, h0, h1⟩ := hcounts
  obtain ⟨a, b, c, rfl, ha, hb, hc⟩ := exists_of_mem_walk h
  exact boxVertex_lt (by omega) (by omega) (by omega)

/-! ## Points and cells -/

open Mesh

variable {α : Type} [Scalar α]

theorem length_point (n : Nat) (steps : List Nat) :
    (point n steps : List α).length = steps.length := by
  simp [point]

theorem length_squareLattice (n : Nat) : (squareLattice n).length = (n + 1) * (n + 1) := by
  simp [squareLattice, List.length_flatMap]

theorem length_boxLattice (n : Nat) : (boxLattice n).length = (n + 1) * (n + 1) * (n + 1) := by
  simp [boxLattice, List.length_flatMap, Nat.mul_assoc]

theorem shape_mesh (kind : UnitMesh) (n : Nat) : (kind.mesh n : Mesh α).shape = kind.shape := by
  cases kind <;> rfl

theorem numVertices_mesh (kind : UnitMesh) {n : Nat} (hn : n ≠ 0) :
    (kind.mesh n : Mesh α).numVertices = (n + 1) ^ kind.shape.dimension := by
  cases kind with
  | interval => simp [mesh, numVertices, unitInterval, hn, shape, Shape.dimension]
  | square =>
      simp [mesh, numVertices, unitSquare, hn, length_squareLattice, shape, Shape.dimension,
        pow_two]
  | box =>
      simp [mesh, numVertices, unitBox, hn, length_boxLattice, shape, Shape.dimension, pow_succ]

theorem numCells_mesh (kind : UnitMesh) (n : Nat) :
    (kind.mesh n : Mesh α).numCells = kind.numCells n := by
  cases kind with
  | interval => simp [mesh, Mesh.numCells, unitInterval, numCells]
  | square =>
      simp [mesh, Mesh.numCells, unitSquare, List.length_flatMap, squareCells, numCells]
      ring
  | box =>
      simp [mesh, Mesh.numCells, unitBox, List.length_flatMap, boxCells, axisOrders, numCells]
      ring

theorem wellFormed_unitInterval (n : Nat) : (unitInterval n : Mesh α).WellFormed := by
  apply WellFormed.of_cells rfl
  · intro p hp
    simp only [unitInterval] at hp
    split at hp
    · simp at hp
    · obtain ⟨i, -, rfl⟩ := List.mem_map.mp (List.mem_toArray.mp hp)
      exact length_point n [i]
  · intro cell hcell
    obtain ⟨i, hi, rfl⟩ := List.mem_map.mp (List.mem_toArray.mp hcell)
    have hi : i < n := List.mem_range.mp hi
    have hn : n ≠ 0 := by omega
    have hnumber : (unitInterval n : Mesh α).numVertices = (n + 1) ^ 1 :=
      numVertices_mesh interval hn
    refine ⟨rfl, by simp, ?_⟩
    rw [hnumber, pow_one]
    simp only [List.mem_cons, List.not_mem_nil, or_false]
    intro v hv
    rcases hv with rfl | rfl <;> omega

theorem wellFormed_unitSquare (n : Nat) : (unitSquare n : Mesh α).WellFormed := by
  apply WellFormed.of_cells rfl
  · intro p hp
    simp only [unitSquare] at hp
    split at hp
    · simp at hp
    · obtain ⟨steps, hsteps, rfl⟩ := List.mem_map.mp (List.mem_toArray.mp hp)
      simp only [squareLattice, List.mem_flatMap, List.mem_map] at hsteps
      obtain ⟨j, -, i, -, rfl⟩ := hsteps
      exact length_point n [i, j]
  · intro cell hcell
    simp only [unitSquare, List.mem_toArray, List.mem_flatMap, List.mem_range] at hcell
    obtain ⟨j, hj, i, hi, hcell⟩ := hcell
    have hn : n ≠ 0 := by omega
    have hnumber : (unitSquare n : Mesh α).numVertices = (n + 1) ^ 2 := numVertices_mesh square hn
    -- the corners are met in increasing order along the lower and along the upper side
    have hlower := squareVertex_lt_right n i j
    have hright := squareVertex_lt_up n (i + 1) j
    have hleft := squareVertex_lt_up n i j
    have hupper := squareVertex_lt_right n i (j + 1)
    have hlast : squareVertex n (i + 1) (j + 1) < (n + 1) * (n + 1) :=
      squareVertex_lt (by omega) (by omega)
    rw [hnumber, pow_two]
    simp only [squareCells, List.mem_cons, List.not_mem_nil, or_false] at hcell
    rcases hcell with rfl | rfl
    · refine ⟨rfl, by simp; omega, ?_⟩
      simp only [List.mem_cons, List.not_mem_nil, or_false]
      intro v hv
      rcases hv with rfl | rfl | rfl <;> omega
    · refine ⟨rfl, by simp; omega, ?_⟩
      simp only [List.mem_cons, List.not_mem_nil, or_false]
      intro v hv
      rcases hv with rfl | rfl | rfl <;> omega

theorem wellFormed_unitBox (n : Nat) : (unitBox n : Mesh α).WellFormed := by
  apply WellFormed.of_cells rfl
  · intro p hp
    simp only [unitBox] at hp
    split at hp
    · simp at hp
    · obtain ⟨steps, hsteps, rfl⟩ := List.mem_map.mp (List.mem_toArray.mp hp)
      simp only [boxLattice, List.mem_flatMap, List.mem_map] at hsteps
      obtain ⟨k, -, j, -, i, -, rfl⟩ := hsteps
      exact length_point n [i, j, k]
  · intro cell hcell
    simp only [unitBox, List.mem_toArray, List.mem_flatMap, List.mem_range] at hcell
    obtain ⟨k, hk, j, hj, i, hi, hcell⟩ := hcell
    obtain ⟨axes, haxes, rfl⟩ := List.mem_map.mp hcell
    have hn : n ≠ 0 := by omega
    have hnumber : (unitBox n : Mesh α).numVertices = (n + 1) ^ 3 := numVertices_mesh box hn
    have hlength : axes.length = 3 := by
      have hall : ∀ axes ∈ axisOrders, axes.length = 3 := by decide
      exact hall axes haxes
    refine ⟨?_, (pairwise_walk n i j k axes).imp Nat.ne_of_lt, ?_⟩
    · rw [length_walk, hlength]
      rfl
    · rw [hnumber, pow_succ, pow_two]
      exact fun v hv => walk_lt haxes hi hj hk hv

/-- The unit meshes are well-formed, also those without cells. -/
theorem wellFormed_mesh (kind : UnitMesh) (n : Nat) : (kind.mesh n : Mesh α).WellFormed := by
  cases kind with
  | interval => exact wellFormed_unitInterval n
  | square => exact wellFormed_unitSquare n
  | box => exact wellFormed_unitBox n

/-! ## Storage -/

theorem build_eq_ok_iff {kind : UnitMesh} {n : Nat} {mesh : Mesh α} :
    kind.build n = .ok mesh ↔ kind.IsStorable n ∧ kind.mesh n = mesh := by
  unfold build
  split
  case isTrue h => simp [h]
  case isFalse h => simp [h]

theorem wellFormed_of_build {kind : UnitMesh} {n : Nat} {mesh : Mesh α}
    (h : kind.build n = .ok mesh) : mesh.WellFormed := by
  obtain ⟨-, rfl⟩ := build_eq_ok_iff.mp h
  exact wellFormed_mesh kind n

namespace IsStorable

variable {kind : UnitMesh} {n : Nat}

theorem mul_numEntities_lt (h : kind.IsStorable n) {dim : Nat} (hdim : dim < kind.shape.dimension) :
    kind.numCells n * kind.shape.numEntities dim < Index.capacity :=
  h.1 _ (List.mem_cons_of_mem _ (List.mem_map_of_mem (List.mem_range.mpr hdim)))

theorem numCells_lt (h : kind.IsStorable n) : kind.numCells n < Index.capacity := by
  have hpos : 0 < kind.shape.numEntities 0 := by cases kind <;> decide
  exact Nat.lt_of_le_of_lt (Nat.le_mul_of_pos_right _ hpos)
    (h.mul_numEntities_lt kind.shape.dimension_pos)

end IsStorable

theorem isStorable_interval_iff {n : Nat} :
    interval.IsStorable n ↔ 2 * n < Index.capacity := by
  have hlists : interval.listSizes n = [1 * (n + 1) ^ 1, n * 2] := rfl
  have hpos : 1 < Index.capacity := by decide
  rw [IsStorable, hlists, innerCounts]
  simp only [List.forall_mem_cons, List.not_mem_nil, IsEmpty.forall_iff, implies_true, and_true,
    pow_one]
  omega

/-- The edges of the square fill a hash table before any list is too long. -/
theorem isStorable_square_iff {n : Nat} :
    square.IsStorable n ↔ 3 * n ^ 2 + 2 * n ≤ Index.tableCapacity := by
  have hlists : square.listSizes n = [2 * (n + 1) ^ 2, 2 * n ^ 2 * 3, 2 * n ^ 2 * 3] := rfl
  have hcounts : square.innerCounts n = [3 * n ^ 2 + 2 * n] := rfl
  have hlarge : 2 * Index.tableCapacity + 2 < Index.capacity := by decide
  have hpoints : 2 * (n + 1) ^ 2 = 2 * n ^ 2 + 4 * n + 2 := by ring
  rw [IsStorable, hlists, hcounts, hpoints]
  simp only [List.forall_mem_cons, List.not_mem_nil, IsEmpty.forall_iff, implies_true, and_true]
  omega

/-- The faces of the cube fill a hash table before any list is too long, and before the edges fill
theirs. -/
theorem isStorable_box_iff {n : Nat} :
    box.IsStorable n ↔ 12 * n ^ 3 + 6 * n ^ 2 ≤ Index.tableCapacity := by
  have hlists : box.listSizes n =
      [3 * (n + 1) ^ 3, 6 * n ^ 3 * 4, 6 * n ^ 3 * 6, 6 * n ^ 3 * 4] := rfl
  have hcounts : box.innerCounts n =
      [7 * n ^ 3 + 9 * n ^ 2 + 3 * n, 12 * n ^ 3 + 6 * n ^ 2] := rfl
  have hlarge : 3 * Index.tableCapacity + 3 < Index.capacity := by decide
  have hpoints : 3 * (n + 1) ^ 3 = 3 * n ^ 3 + 9 * n ^ 2 + 9 * n + 3 := by ring
  have hsmall : 19 ≤ Index.tableCapacity := by decide
  rw [IsStorable, hlists, hcounts, hpoints]
  simp only [List.forall_mem_cons, List.not_mem_nil, IsEmpty.forall_iff, implies_true, and_true]
  rcases Nat.lt_or_ge n 2 with hn | hn
  · interval_cases n <;> omega
  · have hsquare : 2 * n ≤ n ^ 2 := by nlinarith
    have hcube : 2 * n ^ 2 ≤ n ^ 3 := by nlinarith
    omega

theorem IsStorable.succ_numVertices_lt {kind : UnitMesh} {n : Nat} (h : kind.IsStorable n)
    (hn : n ≠ 0) : (kind.mesh n : Mesh α).numVertices + 1 < Index.capacity := by
  have hpoints : kind.shape.dimension * (n + 1) ^ kind.shape.dimension < Index.capacity :=
    h.1 _ List.mem_cons_self
  have hpos : 0 < (n + 1) ^ kind.shape.dimension := Nat.pow_pos (Nat.succ_pos n)
  rw [numVertices_mesh kind hn]
  cases kind with
  | interval =>
      have hlists := isStorable_interval_iff.mp h
      have hsmall : 3 < Index.capacity := by decide
      simp only [shape, Shape.dimension, pow_one]
      omega
  | square =>
      simp only [shape, Shape.dimension] at hpoints hpos ⊢
      omega
  | box =>
      simp only [shape, Shape.dimension] at hpoints hpos ⊢
      omega

end UnitMesh
end FiniteElement
