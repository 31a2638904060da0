import Mathlib
import FiniteElement.Proofs.Checked
import FiniteElement.Proofs.Geometry.Barycenter

/-! # Affine maps of cell views

A cell that fills its space has the affine map of its vertices. The map takes
the reference vertices to them and keeps affine combinations, its determinant is
that of the edges from the first vertex, and its gradients are dual to the edges.
Neither the order of the vertices nor the place of the cell shows in the volume.
-/

namespace FiniteElement

/-! ## Components -/

namespace Vec3

theorem dot_unit_ofList (xs : List Rat) {k : Nat} (hk : k < 3) :
    (ofList xs).dot (unit k) = xs.getD k 0 :=
  dot_unit_ofFn _ hk

theorem dot_unit_unit {j k : Nat} (hk : k < 3) :
    (unit j : Vec3 Rat).dot (unit k) = if k = j then 1 else 0 :=
  dot_unit_ofFn _ hk

theorem isFlat_ofList {xs : List Rat} {d : Nat} (h : xs.length ≤ d) : (ofList xs).IsFlat d := by
  intro k hk hlt
  rw [dot_unit_ofList xs hlt, List.getD_eq_default _ _ (Nat.le_trans h hk)]

theorem take_toList_ofList {α : Type} [Scalar α] {xs : List α} (h : xs.length ≤ 3) :
    (ofList xs).toList.take xs.length = xs := by
  match xs with
  | [] => rfl
  | [_] => rfl
  | [_, _] => rfl
  | [_, _, _] => rfl

theorem combination_congr {places : Finset Nat} {weight : Nat → Rat} {u v : Nat → Vec3 Rat}
    (h : ∀ k ∈ places, u k = v k) : combination places weight u = combination places weight v := by
  apply eq_of_dot_units
  intro axis _
  rw [dot_combination, dot_combination]
  apply Finset.sum_congr rfl
  intro k hk
  rw [h k hk]

def combinationOfLists (d : Nat) (places : Finset Nat) (weight : Nat → Rat)
    (points : Nat → List Rat) : List Rat :=
  (List.range d).map fun axis => ∑ k ∈ places, weight k * (points k).getD axis 0

theorem ofList_combinationOfLists (d : Nat) (places : Finset Nat) (weight : Nat → Rat)
    (points : Nat → List Rat) :
    ofList (combinationOfLists d places weight points) =
      combination places weight fun k => ofList ((points k).take d) := by
  apply eq_of_dot_units
  intro axis haxis
  have htake : ∀ k, ((points k).take d).getD axis 0 =
      if axis < d then (points k).getD axis 0 else 0 := by
    intro k
    rw [List.getD_eq_getElem?_getD, List.getElem?_take, List.getD_eq_getElem?_getD]
    split
    · rfl
    · rfl
  rw [dot_combination, dot_unit_ofList _ haxis]
  simp only [dot_unit_ofList _ haxis, htake]
  by_cases hlt : axis < d
  · have hrange : axis < (List.range d).length := by
      rwa [List.length_range]
    rw [combinationOfLists, List.getD_eq_getElem?_getD, List.getElem?_map,
      List.getElem?_eq_getElem hrange, List.getElem_range]
    simp only [hlt, if_true, Option.map_some, Option.getD_some]
  · have hlength : (combinationOfLists d places weight points).length ≤ axis := by
      rw [combinationOfLists, List.length_map, List.length_range]
      exact Nat.not_lt.mp hlt
    rw [List.getD_eq_default _ _ hlength]
    simp only [hlt, if_false, mul_zero, Finset.sum_const_zero]

end Vec3

namespace Mat3

def toMatrix (m : Mat3 Rat) : Matrix (Fin 3) (Fin 3) Rat :=
  Matrix.of fun row column => (m.column column).dot (Vec3.unit row)

theorem toMatrix_apply (m : Mat3 Rat) (row column : Fin 3) :
    m.toMatrix row column = (m.column column).dot (Vec3.unit row) := rfl

/-- The determinant expanded by cofactors is the determinant of the entries. -/
theorem det_toMatrix (m : Mat3 Rat) : m.toMatrix.det = m.det := by
  rw [Matrix.det_fin_three, det_eq]
  simp only [toMatrix_apply, Fin.coe_ofNat_eq_mod, Nat.reduceMod, column_zero, column_one,
    column_two, Vec3.dot_unit_zero, Vec3.dot_unit_one, Vec3.dot_unit_two]
  ring

/-- A matrix that is the identity outside a block has the determinant of the block. -/
theorem det_eq_det_block {matrix : Matrix (Fin 3) (Fin 3) Rat} {d : Nat} (hle : d ≤ 3)
    (h : ∀ row column : Fin 3, d ≤ row ∨ d ≤ column →
      matrix row column = if row = column then 1 else 0) :
    matrix.det = (matrix.submatrix (Fin.castLE hle) (Fin.castLE hle)).det := by
  match d with
  | 0 =>
      have hone : matrix = 1 := by
        ext row column
        rw [h row column (Or.inl (Nat.zero_le _)), Matrix.one_apply]
      rw [hone, Matrix.det_one, Matrix.det_isEmpty]
  | 1 =>
      rw [Matrix.det_fin_three, Matrix.det_fin_one, h 0 1 (by decide), h 0 2 (by decide),
        h 1 1 (by decide), h 1 2 (by decide), h 2 1 (by decide), h 2 2 (by decide)]
      simp
  | 2 =>
      rw [Matrix.det_fin_three, Matrix.det_fin_two, h 0 2 (by decide), h 1 2 (by decide),
        h 2 0 (by decide), h 2 1 (by decide), h 2 2 (by decide)]
      simp
  | 3 => rfl

end Mat3

/-! ## Views -/

namespace CellView

def point {α : Type} [Scalar α] (cell : CellView α) (i : Nat) : Vec3 α :=
  Vec3.ofList (cell.coordinates.extract (cell.geometricDimension * i)
    (cell.geometricDimension * (i + 1))).toList

/-- The edges of a cell from its first vertex, as the columns of a matrix. -/
def edgeMatrix (cell : CellView Rat) (d : Nat) : Matrix (Fin d) (Fin d) Rat :=
  Matrix.of fun row column => ((cell.point (column + 1)).sub (cell.point 0)).dot (Vec3.unit row)

/-- A cell with the dimension and the vertices of a shape, in a space of that dimension. -/
structure Fills {α : Type} (cell : CellView α) (shape : Shape) : Prop where
  dimension_eq : cell.dimension = shape.dimension
  geometricDimension_eq : cell.geometricDimension = shape.dimension
  numVertices_eq : cell.numVertices = shape.numVertices

theorem point_eq_of_vertex {α : Type} [Scalar α] {cell : CellView α} {i : Nat}
    {coordinates : List α} (h : cell.vertex i = .ok coordinates) :
    cell.point i = Vec3.ofList coordinates := by
  unfold vertex at h
  dsimp only at h
  split at h
  · rw [point, Except.ok.inj h]
  · cases h

section Points

variable {cell : CellView Rat} {i : Nat}

theorem length_extract_coordinates (hi : i < cell.numVertices) :
    (cell.coordinates.extract (cell.geometricDimension * i)
      (cell.geometricDimension * (i + 1))).toList.length = cell.geometricDimension := by
  have hle : cell.geometricDimension * (i + 1) ≤ cell.coordinates.size := by
    rw [cell.size_coordinates]
    exact Nat.mul_le_mul_left _ hi
  rw [Array.length_toList, Array.size_extract, Nat.min_eq_left hle, Nat.mul_succ,
    Nat.add_sub_cancel_left]

theorem vertex_eq_point (hle : cell.geometricDimension ≤ 3) (hi : i < cell.numVertices) :
    cell.vertex i = .ok ((cell.point i).toList.take cell.geometricDimension) := by
  have hlength := length_extract_coordinates hi
  have htake := Vec3.take_toList_ofList (Nat.le_trans (Nat.le_of_eq hlength) hle)
  rw [hlength] at htake
  rw [vertex_eq_ok hi, point, htake]

theorem isFlat_point (hi : i < cell.numVertices) :
    (cell.point i).IsFlat cell.geometricDimension :=
  Vec3.isFlat_ofList (Nat.le_of_eq (length_extract_coordinates hi))

end Points

end CellView

namespace Shape

theorem ofList_referenceVertex {shape : Shape} {i : Nat} (hi : i < shape.numVertices) :
    Vec3.ofList (shape.referenceVertex i : List Rat) = Vec3.ofFn (vertexCoordinate i) := by
  apply Vec3.eq_of_dot_units
  intro axis haxis
  rw [Vec3.dot_unit_ofList _ haxis, Vec3.dot_unit_ofFn _ haxis]
  by_cases hlt : axis < shape.dimension
  · have hrange : axis < (shape.referenceVertex i : List Rat).length := by
      rwa [length_referenceVertex]
    rw [List.getD_eq_getElem _ _ hrange]
    simp only [referenceVertex, List.getElem_map, List.getElem_range]
  · have hle : i ≤ axis := Nat.le_trans (Nat.le_of_lt_succ hi) (Nat.not_lt.mp hlt)
    have hlength : (shape.referenceVertex i : List Rat).length ≤ axis := by
      rw [length_referenceVertex]
      exact Nat.not_lt.mp hlt
    rw [List.getD_eq_default _ _ hlength, vertexCoordinate, if_neg (by omega), Scalar.zero_rat]

end Shape

namespace AffineCell

/-- The affine map of a cell that fills its space is that of its vertices. -/
theorem ofCell_eq_ok {α : Type} [Scalar α] {cell : CellView α} {shape : Shape}
    (h : cell.Fills shape) :
    ofCell cell = .ok (ofVertices ((List.range shape.numVertices).map cell.point)) := by
  have hpos := shape.dimension_pos
  have hle := shape.dimension_le_three
  have hvertices : shape.numVertices = shape.dimension + 1 := rfl
  have hvertex : ∀ i < shape.numVertices, cell.vertex i =
      .ok (cell.coordinates.extract (cell.geometricDimension * i)
        (cell.geometricDimension * (i + 1))).toList := by
    intro i hi
    apply CellView.vertex_eq_ok
    rw [h.numVertices_eq]
    exact hi
  have hrange : ¬ (shape.dimension < 1 ∨ 3 < shape.dimension) := by
    omega
  rw [ofCell, h.dimension_eq, if_neg hrange, if_neg (not_not.mpr h.geometricDimension_eq),
    hvertex 0 (Nat.succ_pos _), Checked.ok_bind]
  rw [Checked.mapM_eq_ok_map fun j hj => hvertex (j + 1) (Nat.succ_lt_succ (List.mem_range.mp hj)),
    Checked.ok_bind, hvertices, List.range_succ_eq_map, List.map_cons, List.map_map, List.map_map]
  rfl

theorem dimension_ofVertices_range {α : Type} [Scalar α] (point : Nat → Vec3 α) (d : Nat) :
    (ofVertices ((List.range (d + 1)).map point)).dimension = d := by
  rw [dimension_ofVertices, List.length_map, List.length_range, Nat.add_sub_cancel]

/-! ## Interpolation -/

/-- The reference vertices go to the points in the same places. -/
theorem toPhysical_referenceVertex {shape : Shape} (point : Nat → Vec3 Rat) {i : Nat}
    (hi : i < shape.numVertices) :
    (ofVertices ((List.range shape.numVertices).map point)).toPhysical (shape.referenceVertex i) =
      .ok (point i) := by
  have hle := shape.dimension_le_three
  have hvertices : shape.numVertices = shape.dimension + 1 := rfl
  have hlength : ((List.range shape.numVertices).map point).length = shape.numVertices := by
    rw [List.length_map, List.length_range]
  have hdim : (ofVertices ((List.range shape.numVertices).map point)).dimension =
      shape.dimension := dimension_ofVertices_range point shape.dimension
  have hcoordinates : (shape.referenceVertex i : List Rat).length = shape.dimension :=
    shape.length_referenceVertex i
  rw [toPhysical_eq_ok (by omega), hdim, List.take_of_length_le (Nat.le_of_eq hcoordinates),
    Shape.ofList_referenceVertex hi, image_vertex (by omega) (by omega), List.getElem_map,
    List.getElem_range]

/-- An affine map keeps the combinations whose weights add up to one. -/
theorem image_combination (simplex : AffineCell Rat) {places : Finset Nat} {weight : Nat → Rat}
    (hweight : ∑ k ∈ places, weight k = 1) (points : Nat → Vec3 Rat) :
    simplex.image (Vec3.combination places weight points) =
      Vec3.combination places weight fun k => simplex.image (points k) := by
  apply Vec3.eq_of_dot_units
  intro axis _
  -- the origin is shared out by the weights, as they add up to one
  have horigin : simplex.origin.dot (Vec3.unit axis) =
      ∑ k ∈ places, weight k * simplex.origin.dot (Vec3.unit axis) := by
    rw [← Finset.sum_mul, hweight, one_mul]
  rw [image_dot, Vec3.dot_combination, horigin]
  simp only [Vec3.combination, image_dot, Finset.sum_mul, ← Finset.sum_add_distrib]
  apply Finset.sum_congr rfl
  intro k _
  ring

theorem toPhysical_combination {simplex : AffineCell Rat} {places : Finset Nat}
    {weight : Nat → Rat} (hweight : ∑ k ∈ places, weight k = 1) {points : Nat → List Rat}
    {image : Nat → Vec3 Rat} (h : ∀ k ∈ places, simplex.toPhysical (points k) = .ok (image k)) :
    simplex.toPhysical (Vec3.combinationOfLists simplex.dimension places weight points) =
      .ok (Vec3.combination places weight image) := by
  have hlength : (Vec3.combinationOfLists simplex.dimension places weight points).length =
      simplex.dimension := by
    rw [Vec3.combinationOfLists, List.length_map, List.length_range]
  have himage : ∀ k ∈ places,
      simplex.image (Vec3.ofList ((points k).take simplex.dimension)) = image k := by
    intro k hk
    have hpoint := h k hk
    rw [toPhysical] at hpoint
    split at hpoint
    · exact Except.ok.inj hpoint
    · cases hpoint
  rw [toPhysical_eq_ok (Nat.le_of_eq hlength.symm), List.take_of_length_le (Nat.le_of_eq hlength),
    Vec3.ofList_combinationOfLists, image_combination simplex hweight,
    Vec3.combination_congr himage]

/-! ## Determinants -/

section Determinants

variable {cell : CellView Rat} {d : Nat}

theorem ofVertices_range (point : Nat → Vec3 Rat) (d : Nat) :
    ofVertices ((List.range (d + 1)).map point) =
      ofCorners (point 0) ((List.range d).map fun j => point (j + 1)) := by
  rw [List.range_succ_eq_map, List.map_cons, List.map_map]
  rfl

theorem column_jacobian_range (point : Nat → Vec3 Rat) {k : Nat} (hk : k < 3) :
    (ofVertices ((List.range (d + 1)).map point)).jacobian.column k =
      if k < d then (point (k + 1)).sub (point 0) else Vec3.unit k := by
  have hlength : ((List.range d).map fun j => point (j + 1)).length = d := by
    rw [List.length_map, List.length_range]
  rw [ofVertices_range, column_jacobian hk]
  by_cases hlt : k < d
  · have hcorner : k < ((List.range d).map fun j => point (j + 1)).length := by
      rwa [hlength]
    rw [if_pos hlt, edge_of_lt hcorner, List.getElem_map, List.getElem_range]
  · rw [if_neg hlt, edge_of_le (Nat.le_trans (Nat.le_of_eq hlength) (Nat.not_lt.mp hlt))]

/-- Up to the dimension of the cell the Jacobian has the edges from the first vertex as columns. -/
theorem toMatrix_jacobian_of_lt (row column : Fin d) (hle : d ≤ 3) :
    (ofVertices ((List.range (d + 1)).map cell.point)).jacobian.toMatrix (Fin.castLE hle row)
      (Fin.castLE hle column) = cell.edgeMatrix d row column := by
  rw [Mat3.toMatrix_apply, column_jacobian_range _ (Fin.castLE hle column).isLt, Fin.val_castLE,
    Fin.val_castLE, if_pos column.isLt]
  rfl

/-- Beyond the dimension of the cell the Jacobian is the identity. -/
theorem toMatrix_jacobian_of_le (hflat : ∀ i ≤ d, (cell.point i).IsFlat d) {row column : Fin 3}
    (h : d ≤ row ∨ d ≤ column) :
    (ofVertices ((List.range (d + 1)).map cell.point)).jacobian.toMatrix row column =
      if row = column then 1 else 0 := by
  rw [Mat3.toMatrix_apply, column_jacobian_range _ column.isLt]
  -- an edge has no components beyond the dimension, the columns beyond it are unit vectors
  by_cases hlt : (column : Nat) < d
  · have hrow : d ≤ (row : Nat) := by
      omega
    have hne : row ≠ column := by
      intro heq
      rw [heq] at hrow
      omega
    rw [if_pos hlt, if_neg hne, Vec3.dot_comm, Vec3.dot_sub, Vec3.dot_comm,
      hflat _ hlt row hrow row.isLt, Vec3.dot_comm, hflat 0 (Nat.zero_le _) row hrow row.isLt,
      sub_self]
  · rw [if_neg hlt, Vec3.dot_unit_unit row.isLt]
    simp only [Fin.ext_iff]

theorem det_eq_det_edgeMatrix (hle : d ≤ 3) (hflat : ∀ i ≤ d, (cell.point i).IsFlat d) :
    (ofVertices ((List.range (d + 1)).map cell.point)).det = (cell.edgeMatrix d).det := by
  rw [det, ← Mat3.det_toMatrix,
    Mat3.det_eq_det_block hle fun row column h => toMatrix_jacobian_of_le hflat h]
  congr 1
  ext row column
  exact toMatrix_jacobian_of_lt row column hle

end Determinants

/-! ## Volumes -/

/-- A cell that is moved keeps its volume. -/
theorem volume_moved {corners : List (Vec3 Rat)} {d : Nat} (hlength : corners.length = d + 1)
    (hpos : 1 ≤ d) (hle : d ≤ 3) (t : Vec3 Rat) :
    (ofVertices (corners.map fun x => x.add t)).volume = (ofVertices corners).volume := by
  have hscale : ∀ x : Vec3 Rat, x.map (1 * ·) = x := by
    intro x
    simp [Vec3.map]
  have hdet := det_scaled hlength hpos hle 1 t
  simp only [hscale] at hdet
  rw [one_pow, one_mul] at hdet
  rw [volume_eq, volume_eq, hdet, dimension_ofVertices, dimension_ofVertices, List.length_map]

/-- Vertices that are listed in another order and moved together span the same volume. -/
theorem volume_moved_perm {shape : Shape} {point point' : Nat → Vec3 Rat}
    (σ : Equiv.Perm (Fin shape.numVertices)) (t : Vec3 Rat)
    (h : ∀ i : Fin shape.numVertices, point' i = (point (σ i)).add t) :
    (ofVertices ((List.range shape.numVertices).map point')).volume =
      (ofVertices ((List.range shape.numVertices).map point)).volume := by
  have hle := shape.dimension_le_three
  have hlist : ∀ f : Nat → Vec3 Rat, (List.range shape.numVertices).map f =
      List.ofFn fun i : Fin shape.numVertices => f i := by
    intro f
    rw [List.ofFn_eq_map, ← List.map_coe_finRange_eq_range, List.map_map]
    rfl
  have hmoved : (List.range shape.numVertices).map point' =
      (List.ofFn fun i : Fin shape.numVertices => point (σ i)).map fun x => x.add t := by
    rw [hlist, List.map_ofFn]
    exact congrArg List.ofFn (funext h)
  have hperm : (List.ofFn fun i : Fin shape.numVertices => point (σ i)).Perm
      (List.ofFn fun i : Fin shape.numVertices => point i) :=
    Equiv.Perm.ofFn_comp_perm σ fun i : Fin shape.numVertices => point i
  have hlength : (List.ofFn fun i : Fin shape.numVertices => point (σ i)).length =
      shape.dimension + 1 := List.length_ofFn
  rw [hmoved, volume_moved hlength shape.dimension_pos hle, hlist,
    volume_perm hperm (by omega)]

/-! ## Gradients -/

/-- The gradients of a cell that is not degenerate, by the places of its vertices. -/
theorem exists_hatGradients_range {point : Nat → Vec3 Rat} {d : Nat} (hle : d ≤ 3)
    (hdet : (ofVertices ((List.range (d + 1)).map point)).det ≠ 0) :
    ∃ gradient : Nat → Vec3 Rat,
      (ofVertices ((List.range (d + 1)).map point)).gradients =
        (List.range (d + 1)).map gradient ∧
      HatGradients d (Finset.range (d + 1)) point gradient := by
  have hnodup := List.nodup_range (n := d + 1)
  have hcount : (List.range (d + 1)).length = d + 1 := List.length_range
  have hhat := hatGradients_ofVertices hnodup (by omega) (by omega) hdet
  rw [List.toFinset_range, hcount, Nat.add_sub_cancel] at hhat
  have hlength : (ofVertices ((List.range (d + 1)).map point)).gradients.length = d + 1 := by
    rw [length_gradients, dimension_ofVertices_range]
  refine ⟨_, ?_, hhat⟩
  apply List.ext_getElem
  · rw [hlength, List.length_map, hcount]
  · intro i hi hi'
    have hplace : (List.range (d + 1)).idxOf i = i := by
      have hindex := hnodup.idxOf_getElem i (by omega)
      rwa [List.getElem_range] at hindex
    rw [List.getElem_map, List.getElem_range, hatGradient, hplace, List.getD_eq_getElem _ _ hi]

/-! ## Main result -/

/-- A cell that fills its space has an affine map that interpolates: it takes the reference vertices
to the vertices of the cell and keeps affine combinations of points. The determinant of its Jacobian
is that of the edges, which the identity pads; the volume does not change with the order of the
vertices and the place of the cell. If the cell is not degenerate, its gradients are dual to the
differences of the vertices, add up to zero and have no components beyond the dimension. -/
theorem ofCell_interpolates_and_is_dual {cell : CellView Rat} {shape : Shape}
    (hcell : cell.Fills shape) :
    ∃ simplex, ofCell cell = .ok simplex ∧
      (∀ i < shape.numVertices,
        cell.vertex i = .ok ((cell.point i).toList.take shape.dimension) ∧
        (cell.point i).IsFlat shape.dimension ∧
        simplex.toPhysical (shape.referenceVertex i) = .ok (cell.point i)) ∧
      (∀ point : List Rat, shape.dimension ≤ point.length →
        ∃ image, simplex.toPhysical point = .ok image) ∧
      (∀ (places : Finset Nat) (weight : Nat → Rat) (points : Nat → List Rat)
        (image : Nat → Vec3 Rat), ∑ k ∈ places, weight k = 1 →
        (∀ k ∈ places, simplex.toPhysical (points k) = .ok (image k)) →
        simplex.toPhysical (Vec3.combinationOfLists shape.dimension places weight points) =
          .ok (Vec3.combination places weight image)) ∧
      (∀ row column : Fin 3, shape.dimension ≤ row ∨ shape.dimension ≤ column →
        simplex.jacobian.toMatrix row column = if row = column then 1 else 0) ∧
      (∀ row column : Fin shape.dimension,
        simplex.jacobian.toMatrix (Fin.castLE shape.dimension_le_three row)
          (Fin.castLE shape.dimension_le_three column) =
            cell.edgeMatrix shape.dimension row column) ∧
      simplex.det = simplex.jacobian.toMatrix.det ∧
      simplex.det = (cell.edgeMatrix shape.dimension).det ∧
      (∀ (other : CellView Rat) (σ : Equiv.Perm (Fin shape.numVertices)) (t : Vec3 Rat),
        other.Fills shape →
        (∀ i : Fin shape.numVertices, other.point i = (cell.point (σ i)).add t) →
        ∃ simplex', ofCell other = .ok simplex' ∧ simplex'.volume = simplex.volume) ∧
      (simplex.det ≠ 0 →
        ∃ gradient : Nat → Vec3 Rat,
          simplex.gradients = (List.range shape.numVertices).map gradient ∧
          (∀ i < shape.numVertices, ∀ j < shape.numVertices, ∀ k < shape.numVertices,
            (gradient i).dot ((cell.point j).sub (cell.point k)) =
              (if i = j then 1 else 0) - (if i = k then 1 else 0)) ∧
          Vec3.combination (Finset.range shape.numVertices) (fun _ => 1) gradient = ⟨0, 0, 0⟩ ∧
          ∀ i < shape.numVertices, (gradient i).IsFlat shape.dimension) := by
  have hle := shape.dimension_le_three
  have hgeometric : cell.geometricDimension ≤ 3 := by
    rw [hcell.geometricDimension_eq]
    exact hle
  have hflat : ∀ i ≤ shape.dimension, (cell.point i).IsFlat shape.dimension := by
    intro i hi
    rw [← hcell.geometricDimension_eq]
    apply CellView.isFlat_point
    rw [hcell.numVertices_eq]
    exact Nat.lt_succ_of_le hi
  have hdim : (ofVertices ((List.range shape.numVertices).map cell.point)).dimension =
      shape.dimension := dimension_ofVertices_range cell.point shape.dimension
  refine ⟨_, ofCell_eq_ok hcell, ?_, ?_, ?_, fun row column h => toMatrix_jacobian_of_le hflat h,
    fun row column => toMatrix_jacobian_of_lt row column hle, (Mat3.det_toMatrix _).symm,
    det_eq_det_edgeMatrix hle hflat, ?_, ?_⟩
  · intro i hi
    have hvertex := CellView.vertex_eq_point (i := i) hgeometric (by
      rw [hcell.numVertices_eq]
      exact hi)
    rw [hcell.geometricDimension_eq] at hvertex
    exact ⟨hvertex, hflat i (Nat.le_of_lt_succ hi), toPhysical_referenceVertex cell.point hi⟩
  · intro point hpoint
    rw [← hdim] at hpoint
    exact ⟨_, toPhysical_eq_ok hpoint⟩
  · intro places weight points image hweight himage
    rw [← hdim]
    exact toPhysical_combination hweight himage
  · intro other σ t hother hpoints
    exact ⟨_, ofCell_eq_ok hother, volume_moved_perm σ t hpoints⟩
  · intro hdet
    obtain ⟨gradient, hgradients, hhat⟩ := exists_hatGradients_range hle hdet
    refine ⟨gradient, hgradients, ?_, ?_, ?_⟩
    · intro i hi j hj k hk
      exact hhat.dot_sub i (Finset.mem_range.mpr hi) j (Finset.mem_range.mpr hj) k
        (Finset.mem_range.mpr hk)
    · exact hhat.combination_eq_zero_iff.mpr fun _ _ _ _ => rfl
    · intro i hi
      exact hhat.isFlat i (Finset.mem_range.mpr hi)

/-- A triangle with the corners (1, 1), (3, 1) and (1, 4), and the same triangle moved by (-1, 2)
with its corners listed from the last to the first. -/
theorem ofCell_interpolates_on_two_triangles :
    let cell : CellView Rat := ⟨[[0, 1, 2], [0, 1, 2], [0]], #[1, 1, 3, 1, 1, 4], 2, by decide, rfl⟩
    let other : CellView Rat :=
      ⟨[[2, 1, 0], [2, 1, 0], [0]], #[0, 6, 2, 3, 0, 3], 2, by decide, rfl⟩
    cell.Fills .triangle ∧ other.Fills .triangle ∧
      ∃ simplex simplex' : AffineCell Rat, ofCell cell = .ok simplex ∧
        ofCell other = .ok simplex' ∧ simplex.det = 6 ∧ simplex'.volume = simplex.volume ∧
        simplex.toPhysical [1 / 3, 1 / 3] = .ok ⟨5 / 3, 2, 0⟩ ∧
        ∃ gradient : Nat → Vec3 Rat, simplex.gradients = [gradient 0, gradient 1, gradient 2] ∧
          (gradient 1).dot ⟨2, 0, 0⟩ = 1 := by
  intro cell other
  have hcell : cell.Fills .triangle := ⟨rfl, rfl, by decide +kernel⟩
  have hother : other.Fills .triangle := ⟨rfl, rfl, by decide +kernel⟩
  obtain ⟨simplex, hsimplex, hvertices, -, hcombination, -, -, -, hdet, hvolume, hgradients⟩ :=
    ofCell_interpolates_and_is_dual hcell
  have hsix : simplex.det = 6 := by
    rw [hdet]
    decide +kernel
  obtain ⟨simplex', hsimplex', hsame⟩ := hvolume other Fin.revPerm ⟨-1, 2, 0⟩ hother (by
    decide +kernel)
  have hpoint := hcombination (Finset.range 3) (fun _ => 1 / 3) Shape.triangle.referenceVertex
    cell.point (by decide +kernel) fun k hk => (hvertices k (Finset.mem_range.mp hk)).2.2
  have hplace : Vec3.combinationOfLists 2 (Finset.range 3) (fun _ => 1 / 3)
      Shape.triangle.referenceVertex = [1 / 3, 1 / 3] := by
    decide +kernel
  have himage : Vec3.combination (Finset.range 3) (fun _ => 1 / 3) cell.point = ⟨5 / 3, 2, 0⟩ := by
    decide +kernel
  obtain ⟨gradient, hlist, hdual, -⟩ := hgradients (by rw [hsix]; decide)
  have hedge : (cell.point 1).sub (cell.point 0) = ⟨2, 0, 0⟩ := by
    decide +kernel
  have hrise := hdual 1 (by decide) 1 (by decide) 0 (by decide)
  rw [hedge] at hrise
  refine ⟨hcell, hother, simplex, simplex', hsimplex, hsimplex', hsix, hsame, ?_, gradient, hlist,
    by simpa using hrise⟩
  rw [← hplace, ← himage]
  exact hpoint

end AffineCell

end FiniteElement
