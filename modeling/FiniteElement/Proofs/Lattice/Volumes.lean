import Mathlib
import FiniteElement.Proofs.Mesh.CellGeometry
import FiniteElement.Proofs.Mesh.UnitBox
import FiniteElement.Proofs.Mesh.UnitSquare

/-! # Volumes of the cells of unit meshes

A cube of a lattice with `n` cubes along each axis is the unit cube, scaled by
`1 / n` and moved. All cells that the unit cube is cut into have a determinant of
one or minus one, so all cells of a unit mesh have the same volume, and there are as
many of them as fill the unit cube.
-/

namespace FiniteElement

open FiniteElement.Lattice

theorem getElem?_flatMap_range {β : Type} {f : Nat → List β} {m n : Nat}
    (hlength : ∀ j, (f j).length = n) {i j : Nat} (hj : j < m) (hi : i < n) :
    ((List.range m).flatMap f)[n * j + i]? = (f j)[i]? := by
  induction m with
  | zero => exact absurd hj (Nat.not_lt_zero j)
  | succ m ih =>
      have hbefore : ((List.range m).flatMap f).length = n * m := by
        simp [List.length_flatMap, hlength, Nat.mul_comm]
      rw [List.range_succ, List.flatMap_append, List.flatMap_singleton]
      rcases Nat.lt_succ_iff_lt_or_eq.mp hj with hlt | heq
      · have hle : n * (j + 1) ≤ n * m := Nat.mul_le_mul_left n hlt
        rw [Nat.mul_succ] at hle
        rw [List.getElem?_append_left (by rw [hbefore]; omega)]
        exact ih hlt
      · rw [heq, List.getElem?_append_right (by rw [hbefore]; omega), hbefore,
          Nat.add_sub_cancel_left]

namespace UnitMesh

theorem getElem?_squareLattice {n i j : Nat} (hi : i ≤ n) (hj : j ≤ n) :
    (squareLattice n)[squareVertex n i j]? = some [i, j] := by
  rw [squareLattice, squareVertex, getElem?_flatMap_range (fun _ => by simp)
    (Nat.lt_succ_of_le hj) (Nat.lt_succ_of_le hi), List.getElem?_map,
    List.getElem?_range (Nat.lt_succ_of_le hi), Option.map_some]

theorem getElem?_boxLattice {n i j k : Nat} (hi : i ≤ n) (hj : j ≤ n) (hk : k ≤ n) :
    (boxLattice n)[boxVertex n i j k]? = some [i, j, k] := by
  rw [boxLattice, boxVertex_eq, getElem?_flatMap_range (fun _ => by simp [List.length_flatMap])
    (Nat.lt_succ_of_le hk) (squareVertex_lt hi hj), squareVertex,
    getElem?_flatMap_range (fun _ => by simp) (Nat.lt_succ_of_le hj) (Nat.lt_succ_of_le hi),
    List.getElem?_map, List.getElem?_range (Nat.lt_succ_of_le hi), Option.map_some]

end UnitMesh

/-! ## Unit meshes as lattices of cubes -/

variable {d n : Nat}

/-- The mesh has the points of a lattice with `n` cubes of the width `1 / n` along each axis, which
are all cut alike. -/
structure Mesh.IsLattice (mesh : Mesh Rat) (cut : Cut d) (n : Nat) : Prop where
  wellFormed : mesh.WellFormed
  dimension_eq : mesh.dimension = d
  geometricDimension_eq : mesh.geometricDimension = d
  numVertices_eq : mesh.numVertices = (n + 1) ^ d
  numCells_eq : mesh.numCells = cut.cells.length * n ^ d
  getElem?_points : ∀ p ∈ grid d (n + 1),
    mesh.points[number n p]? = some (UnitMesh.point n (List.ofFn p))
  exists_place : ∀ vertices ∈ mesh.cells,
    ∃ q ∈ grid d n, ∃ cell ∈ cut.cells, place n q cell = vertices

def intervalCut : Cut 1 := ⟨.interval, [[![false], ![true]]]⟩

namespace UnitMesh

variable (hn : 1 ≤ n)

include hn

theorem isLattice_unitInterval : (unitInterval n : Mesh Rat).IsLattice intervalCut n where
  wellFormed := wellFormed_unitInterval n
  dimension_eq := rfl
  geometricDimension_eq := rfl
  numVertices_eq := by
    have hpos : n ≠ 0 := by omega
    simp [Mesh.numVertices, unitInterval, hpos]
  numCells_eq := by simp [Mesh.numCells, unitInterval, intervalCut]
  getElem?_points := by
    intro p hp
    have hpoints : (unitInterval n : Mesh Rat).points =
        ((List.range (n + 1)).map fun i => point n [i]).toArray := if_neg (by omega)
    have hnumber : number n p = p 0 := by simp [number]
    rw [hnumber, hpoints, List.getElem?_toArray, List.getElem?_map,
      List.getElem?_range (mem_grid.mp hp 0)]
    simp
  exists_place := by
    intro vertices h
    obtain ⟨i, hi, heq⟩ := List.mem_map.mp (List.mem_toArray.mp h)
    refine ⟨fun _ => i, mem_grid.mpr fun _ => List.mem_range.mp hi, _, List.mem_singleton_self _,
      ?_⟩
    rw [← heq]
    simp [place, number, move]

theorem isLattice_unitSquare :
    (unitSquare n : Mesh Rat).IsLattice squareDissection.toCut n where
  wellFormed := wellFormed_unitSquare n
  dimension_eq := rfl
  geometricDimension_eq := rfl
  numVertices_eq := (isDissected_unitSquare hn).numVertices_eq
  numCells_eq := (isDissected_unitSquare hn).numCells_eq
  getElem?_points := by
    intro p hp
    have hpoints : (unitSquare n : Mesh Rat).points =
        ((squareLattice n).map (point n)).toArray := if_neg (by omega)
    have hnumber : number n p = squareVertex n (p 0) (p 1) := by
      simp [number, Fin.sum_univ_succ, squareVertex]
      omega
    rw [mem_grid] at hp
    rw [hnumber, hpoints, List.getElem?_toArray, List.getElem?_map,
      getElem?_squareLattice (Nat.le_of_lt_succ (hp 0)) (Nat.le_of_lt_succ (hp 1))]
    simp
  exists_place := fun _ h => (isDissected_unitSquare hn).mem_cells_iff.mp h

theorem isLattice_unitBox : (unitBox n : Mesh Rat).IsLattice boxDissection.toCut n where
  wellFormed := wellFormed_unitBox n
  dimension_eq := rfl
  geometricDimension_eq := rfl
  numVertices_eq := (isDissected_unitBox hn).numVertices_eq
  numCells_eq := (isDissected_unitBox hn).numCells_eq
  getElem?_points := by
    intro p hp
    have hpoints : (unitBox n : Mesh Rat).points =
        ((boxLattice n).map (point n)).toArray := if_neg (by omega)
    rw [mem_grid] at hp
    rw [← boxVertex_eq_number_of_point, hpoints, List.getElem?_toArray, List.getElem?_map,
      getElem?_boxLattice (Nat.le_of_lt_succ (hp 0)) (Nat.le_of_lt_succ (hp 1))
        (Nat.le_of_lt_succ (hp 2))]
    simp
  exists_place := fun _ h => (isDissected_unitBox hn).mem_cells_iff.mp h

end UnitMesh

/-! ## Volumes -/

namespace Lattice

def cornerPoint (o : Corner d) : Vec3 Rat := .ofList (List.ofFn fun a => ((o a).toNat : Rat))

/-- The cells of a cut are as many as fill the cube, and each has the determinant of the cube up to
the sign. -/
structure Cut.Fills (cut : Cut d) : Prop where
  one_le : 1 ≤ d
  le_three : d ≤ 3
  length_cells : cut.cells.length = d.factorial
  length_cell : ∀ cell ∈ cut.cells, cell.length = d + 1
  abs_det : ∀ cell ∈ cut.cells, |(AffineCell.ofVertices (cell.map cornerPoint)).det| = 1

theorem fills_interval : intervalCut.Fills := by
  constructor <;> decide +kernel

theorem fills_square : squareDissection.Fills := by
  constructor <;> decide +kernel

theorem fills_box : boxDissection.Fills := by
  constructor <;> decide +kernel

end Lattice

namespace Mesh.IsLattice

variable {mesh : Mesh Rat} {cut : Cut d} (h : mesh.IsLattice cut n)

include h

/-- The corners of a cube are those of the unit cube, scaled and moved. -/
theorem position_move {q : Fin d → Nat} (hq : q ∈ grid d n) (o : Corner d) :
    mesh.position (number n (move q o)) = ((cornerPoint o).map ((1 / n : Rat) * ·)).add
      (.ofList (UnitMesh.point n (List.ofFn q))) := by
  have hpoint := h.getElem?_points (move q o) (move_mem_grid hq o)
  have hcoordinate : ∀ k, (UnitMesh.point n (List.ofFn (move q o)) : List Rat).getD k 0 =
      (1 / n : Rat) * (List.ofFn fun a => ((o a).toNat : Rat)).getD k 0 +
        (UnitMesh.point n (List.ofFn q) : List Rat).getD k 0 := by
    intro k
    have hwidth : (UnitMesh.width n : Rat) = 1 / n := rfl
    by_cases hk : k < d
    · simp only [UnitMesh.point, List.getD_eq_getElem?_getD, List.getElem?_map, List.getElem?_ofFn,
        hk, dif_pos, Option.map_some, Option.getD_some, move, hwidth, Scalar.ofNat_rat]
      push_cast
      ring
    · simp [UnitMesh.point, List.getD_eq_getElem?_getD, hk]
  rw [position, Array.getD_eq_getD_getElem?, hpoint, Option.getD_some]
  exact Vec3.ext_components (hcoordinate 0) (hcoordinate 1) (hcoordinate 2)

theorem volume_eq (hcut : cut.Fills) {cell : Nat} (hc : cell < mesh.numCells) :
    (mesh.simplex cell).volume = 1 / (d.factorial * n ^ d) := by
  have hmem : mesh.vertexList cell ∈ mesh.cells :=
    Array.mem_of_getElem? (cellVertices_eq_ok_iff.mp (cellVertices_eq_ok hc))
  obtain ⟨q, hq, corners, hcorners, hplace⟩ := h.exists_place _ hmem
  have hpositions : (mesh.vertexList cell).map mesh.position =
      (corners.map cornerPoint).map fun x => (x.map ((1 / n : Rat) * ·)).add
        (.ofList (UnitMesh.point n (List.ofFn q))) := by
    rw [← hplace, place, List.map_map, List.map_map]
    apply List.map_congr_left
    intro o _
    exact h.position_move hq o
  have hlength : (corners.map cornerPoint).length = d + 1 := by
    rw [List.length_map, hcut.length_cell corners hcorners]
  have hdet : |(mesh.simplex cell).det| = (1 / n : Rat) ^ d := by
    rw [simplex, hpositions, AffineCell.det_scaled hlength hcut.one_le hcut.le_three, abs_mul,
      hcut.abs_det corners hcorners, mul_one]
    exact abs_of_nonneg (by positivity)
  rw [AffineCell.volume_eq, hdet, h.wellFormed.dimension_simplex hc, h.dimension_eq]
  rw [one_div_pow, div_div, mul_comm]

theorem sum_volume (hcut : cut.Fills) (hn : 1 ≤ n) :
    ∑ cell ∈ Finset.range mesh.numCells, (mesh.simplex cell).volume = 1 := by
  have hvolume : ∀ cell ∈ Finset.range mesh.numCells,
      (mesh.simplex cell).volume = 1 / (d.factorial * n ^ d) :=
    fun cell hcell => h.volume_eq hcut (Finset.mem_range.mp hcell)
  have hpos : (n : Rat) ≠ 0 := by
    rw [Nat.cast_ne_zero]
    omega
  rw [Finset.sum_congr rfl hvolume, Finset.sum_const, Finset.card_range, h.numCells_eq,
    hcut.length_cells, nsmul_eq_mul]
  push_cast
  field_simp

end Mesh.IsLattice
end FiniteElement
