import Mathlib
import FiniteElement.Proofs.DofMap.Dof
import FiniteElement.Proofs.Mesh.RoundTrip

/-! # Sample meshes and spaces

The meshes and spaces that the general statements are applied to: intervals on a
line, a rectangle cut into two triangles, and spaces that are given by their
numbers of degrees of freedom. The second triangle of the rectangle may list its
vertices in any order, which decides how the two triangles see their common edge.
-/

namespace FiniteElement.Sample

open Mesh

variable {α : Type}

/-! ## Intervals -/

/-- The first `n` of the intervals between consecutive points of a line. -/
def intervals (points : List α) (n : Nat) : Mesh α where
  shape := .interval
  geometricDimension := 1
  points := (points.map fun x => [x]).toArray
  cells := ((List.range n).map fun i => [i, i + 1]).toArray

theorem wellFormed_intervals {points : List α} {n : Nat} (h : n ≤ points.length - 1) :
    (intervals points n).WellFormed := by
  apply WellFormed.of_cells rfl
  · intro point hpoint
    obtain ⟨x, -, rfl⟩ := by simpa [intervals] using hpoint
    rfl
  · intro cell hcell
    obtain ⟨i, hi, rfl⟩ := by simpa [intervals] using hcell
    have hcount : (intervals points n).numVertices = points.length := by
      simp [intervals, numVertices]
    refine ⟨rfl, by simp, ?_⟩
    intro v hv
    rw [hcount]
    simp only [List.mem_cons, List.not_mem_nil, or_false] at hv
    omega

theorem ofData_intervals (points : List α) (n : Nat) (h : n ≤ points.length - 1) :
    ofData ⟨.interval, 1, points.toArray, ((List.range n).flatMap fun i => [i, i + 1]).toArray⟩ =
      .ok (intervals points n) := by
  have hdata : (intervals points n).data =
      ⟨.interval, 1, points.toArray, ((List.range n).flatMap fun i => [i, i + 1]).toArray⟩ := by
    simp [Mesh.data, intervals, vertices, connectivity, ← List.flatMap_def]
  rw [← hdata]
  exact (wellFormed_intervals h).ofData_data

/-! ## Triangles -/

theorem byFirstAppearance_triangle :
    EntityTable.byFirstAppearance .triangle 1 #[[0, 1, 2]] = ⟨3, #[[0, 1, 2]]⟩ := by
  have hkeys : EntityTable.keys .triangle 1 [0, 1, 2] = [[1, 2], [0, 2], [0, 1]] := by cbv
  simp [EntityTable.byFirstAppearance, EntityTable.visitCell, hkeys, Numbering.visitAll,
    Numbering.visit, Numbering.empty, Numbering.size, Std.HashMap.size_insert]

/-- One triangle. Its entities are written out, so that what is made of them can be evaluated. -/
def triangle : Mesh Rat where
  shape := .triangle
  geometricDimension := 2
  points := #[[0, 0], [1, 0], [0, 1]]
  cells := #[[0, 1, 2]]
  tables := [⟨3, #[[0, 1, 2]]⟩, ⟨3, #[[0, 1, 2]]⟩, ⟨1, #[[0]]⟩]
  tables_eq := by
    have hcells : Array.range 1 = #[0] := by decide +kernel
    simp [EntityTable.all, EntityTable.ofCells, byFirstAppearance_triangle, List.range_succ,
      Shape.dimension, hcells]

theorem ofData_triangle : ofData ⟨.triangle, 2, #[0, 0, 1, 0, 0, 1], #[0, 1, 2]⟩ = .ok triangle :=
  ofData_eq_ok_iff.mpr (by decide +kernel)

/-- A rectangle that is cut along the diagonal between its vertices 1 and 2; `second` lists the
vertices of the triangle with vertex 3. -/
def rectangle (second : List Nat) : Mesh Rat where
  shape := .triangle
  geometricDimension := 2
  points := #[[0, 0], [2, 0], [0, 1], [2, 1]]
  cells := #[[0, 1, 2], second]

section Rectangle

variable {second : List Nat} (h : second.Perm [1, 2, 3])

include h

theorem ofData_rectangle :
    ofData ⟨.triangle, 2, #[0, 0, 2, 0, 0, 1, 2, 1], ([0, 1, 2] ++ second).toArray⟩ =
      .ok (rectangle second) := by
  have hall : ∀ second ∈ [1, 2, 3].permutations',
      ofData ⟨.triangle, 2, #[0, 0, 2, 0, 0, 1, 2, 1], ([0, 1, 2] ++ second).toArray⟩ =
        .ok (rectangle second) := by
    simp only [ofData_eq_ok_iff]
    decide +kernel
  exact hall second (List.mem_permutations'.mpr h)

/-- The common edge is counted once. -/
theorem entityCounts_rectangle : (rectangle second).entityCounts = ⟨[4, 5, 2]⟩ := by
  have hedges : ((rectangle second).table 1).count = 5 := by
    have hlt : 1 < (rectangle second).dimension := Nat.one_lt_two
    rw [table_between Nat.one_pos hlt, EntityTable.count_byFirstAppearance]
    have hcases : second ∈ [[1, 2, 3], [2, 1, 3], [2, 3, 1], [1, 3, 2], [3, 1, 2], [3, 2, 1]] :=
      List.mem_permutations'.mpr h
    simp only [List.mem_cons, List.not_mem_nil, or_false] at hcases
    rcases hcases with rfl | rfl | rfl | rfl | rfl | rfl <;> cbv
  rw [entityCounts, tables_eq]
  change EntityCounts.mk [4, ((rectangle second).table 1).count, 2] = _
  rw [hedges]

/-- The common edge is opposite vertex 0 in one triangle and opposite vertex 3 in the other. -/
theorem entityVertices_rectangle {i : Nat} (hi : second[i]? = some 3) :
    (rectangle second).entityVertices 0 1 0 = (rectangle second).entityVertices 1 1 i := by
  have hmesh := wellFormed_of_ofData (ofData_rectangle h)
  have hcell : (rectangle second).cells[0]? = some [0, 1, 2] := rfl
  have hcell' : (rectangle second).cells[1]? = some second := rfl
  have hle : 1 ≤ (rectangle second).dimension := Nat.le_of_lt Nat.one_lt_two
  have hi' : i < 3 := by
    have hlt := (List.getElem?_eq_some_iff.mp hi).1
    rwa [h.length_eq] at hlt
  have hall : ∀ i < 3, ∀ second ∈ [1, 2, 3].permutations', second[i]? = some 3 →
      ∃ edge ∈ Shape.entities .triangle 1, (Shape.entities .triangle 1)[i]? = some edge ∧
        (globalVertices second edge).Perm (globalVertices [0, 1, 2] [1, 2]) := by
    decide
  obtain ⟨edge, -, hedge, hperm⟩ := hall i hi' second (List.mem_permutations'.mpr h) hi
  rw [hmesh.entityVertices_eq hle hcell (by rfl), hmesh.entityVertices_eq hle hcell' hedge]
  ext v
  exact hperm.mem_iff.symm

end Rectangle

/-! ## Spaces -/

def dp1 (shape : Shape) : LayoutMap Rat :=
  LayoutMap.ofElement
    (show DofLayout.ofElement .discontinuousLagrange shape 1 = .ok (DofLayout.dp1 shape) from rfl)

def inside (n : Nat) (h : n < Index.bound) : LayoutMap Rat where
  layout := ⟨.discontinuousLagrange, .interval, 1, [0, n], []⟩
  covers := Nat.le_succ 1
  fits := by
    simpa [DofLayout.size, DofLayout.sizeBelow, DofLayout.dofsOn, List.range_succ,
      Shape.numEntities, Shape.entities] using h
  storable := by
    rw [DofLayout.facetSize_eq, Shape.facetClosure_interval]
    exact Nat.lt_of_le_of_lt (Nat.le_refl 0) (by decide)

/-- Two degrees of freedom on each edge and one on each vertex, beside discontinuous and continuous
linear functions. -/
def threeLeaves : DofMap Rat :=
  .mixed [.single { layout := ⟨.lagrange, .triangle, 3, [1, 2, 0], []⟩ },
    .mixed [.single (dp1 .triangle), .single (LayoutMap.p1 .triangle)]]

def quadraticAndLinear : DofMap Rat :=
  .mixed [.single (LayoutMap.p2 .triangle), .mixed [.single (LayoutMap.p1 .triangle)]]

end FiniteElement.Sample
