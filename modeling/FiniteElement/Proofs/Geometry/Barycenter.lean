import Mathlib
import FiniteElement.DofLayout
import FiniteElement.Proofs.Geometry.Simplex

/-! # Images of barycenters

The affine map of a cell takes each vertex of the reference simplex to the vertex
of the cell in the same place, and so the barycenter of reference vertices to the
barycenter of their images. On rational coordinates it does so exactly.
-/

namespace FiniteElement

/-! ## Barycenters -/

namespace Vec3

variable {u v : Vec3 Rat}

theorem eq_of_dot_units (h : ∀ k < 3, u.dot (unit k) = v.dot (unit k)) : u = v := by
  have h0 := h 0 (by decide)
  have h1 := h 1 (by decide)
  have h2 := h 2 (by decide)
  rw [dot_unit_zero, dot_unit_zero] at h0
  rw [dot_unit_one, dot_unit_one] at h1
  rw [dot_unit_two, dot_unit_two] at h2
  exact ext_components h0 h1 h2

def barycenter (vertices : Finset Nat) (position : Nat → Vec3 Rat) : Vec3 Rat :=
  combination vertices (fun _ => (vertices.card : Rat)⁻¹) position

theorem dot_barycenter (w : Vec3 Rat) (vertices : Finset Nat) (position : Nat → Vec3 Rat) :
    (barycenter vertices position).dot w =
      (∑ v ∈ vertices, (position v).dot w) / vertices.card := by
  rw [barycenter, dot_combination, ← Finset.mul_sum, inv_mul_eq_div]

theorem barycenter_singleton (v : Nat) (position : Nat → Vec3 Rat) :
    barycenter {v} position = position v := by
  apply eq_of_dot_units
  intro k _
  rw [dot_barycenter, Finset.sum_singleton, Finset.card_singleton, Nat.cast_one, div_one]

end Vec3

namespace Shape

def coordinateSum (vertices : List Nat) (axis : Nat) : Rat :=
  (vertices.map fun v => vertexCoordinate v axis).sum

theorem barycenter_eq (vertices : List Nat) :
    (barycenter vertices : Vec3 Rat) =
      Vec3.ofFn fun axis => coordinateSum vertices axis / vertices.length := by
  have hsum : ∀ axis, vertices.foldl (fun acc v => acc + vertexCoordinate v axis) Scalar.zero =
      coordinateSum vertices axis := by
    intro axis
    rw [coordinateSum, List.sum_eq_foldl, List.foldl_map]
    rfl
  simp only [barycenter, hsum, Scalar.ofNat_rat]

/-- Reference vertices have no coordinates beyond the dimension of their simplex. -/
theorem coordinateSum_eq_zero {vertices : List Nat} {axis : Nat} (h : ∀ v ∈ vertices, v ≤ axis) :
    coordinateSum vertices axis = 0 := by
  apply List.sum_eq_zero
  intro x hx
  obtain ⟨v, hv, heq⟩ := List.mem_map.mp hx
  have hle := h v hv
  rw [← heq, vertexCoordinate, if_neg (by omega), Scalar.zero_rat]

/-- The coordinates beyond the dimension of a simplex can be left out of a barycenter in it. -/
theorem ofList_take_barycenter {vertices : List Nat} {d : Nat} (h : ∀ v ∈ vertices, v ≤ d) :
    Vec3.ofList ((barycenter vertices : Vec3 Rat).toList.take d) = barycenter vertices := by
  have hzero : ∀ axis, d ≤ axis → coordinateSum vertices axis = 0 :=
    fun axis hle => coordinateSum_eq_zero fun v hv => Nat.le_trans (h v hv) hle
  rw [barycenter_eq]
  match d with
  | 0 => simp [Vec3.ofList, Vec3.ofFn, Vec3.toList, hzero]
  | 1 => simp [Vec3.ofList, Vec3.ofFn, Vec3.toList, hzero]
  | 2 => simp [Vec3.ofList, Vec3.ofFn, Vec3.toList, hzero]
  | d + 3 => simp [Vec3.ofList, Vec3.ofFn, Vec3.toList]

end Shape

/-! ## Affine maps -/

namespace AffineCell

def image {α : Type} [Scalar α] (simplex : AffineCell α) (point : Vec3 α) : Vec3 α :=
  simplex.origin.add (simplex.jacobian.mulVec point)

theorem toPhysical_eq_ok {α : Type} [Scalar α] {simplex : AffineCell α} {point : List α}
    (h : simplex.dimension ≤ point.length) :
    simplex.toPhysical point =
      .ok (simplex.image (Vec3.ofList (point.take simplex.dimension))) :=
  if_pos h

theorem image_dot (simplex : AffineCell Rat) (point w : Vec3 Rat) :
    (simplex.image point).dot w = simplex.origin.dot w +
      (point.x * simplex.jacobian.col0.dot w + point.y * simplex.jacobian.col1.dot w +
        point.z * simplex.jacobian.col2.dot w) := by
  have hadd : (simplex.image point).dot w =
      simplex.origin.dot w + (simplex.jacobian.mulVec point).dot w := by
    simp only [image, Vec3.dot_eq, Vec3.add]
    ring
  rw [hadd, Mat3.mulVec_dot]

/-- The image of a barycenter is the barycenter of the images. -/
theorem image_barycenter_dot (simplex : AffineCell Rat) {vertices : List Nat}
    (hne : vertices ≠ []) (w : Vec3 Rat) :
    (simplex.image (Shape.barycenter vertices)).dot w =
      (vertices.map fun v => (simplex.image (Vec3.ofFn (Shape.vertexCoordinate v))).dot w).sum /
        vertices.length := by
  have hsum : (vertices.map fun v =>
      (simplex.image (Vec3.ofFn (Shape.vertexCoordinate v))).dot w).sum =
        vertices.length * simplex.origin.dot w +
          (Shape.coordinateSum vertices 0 * simplex.jacobian.col0.dot w +
            Shape.coordinateSum vertices 1 * simplex.jacobian.col1.dot w +
            Shape.coordinateSum vertices 2 * simplex.jacobian.col2.dot w) := by
    clear hne
    induction vertices with
    | nil => simp [Shape.coordinateSum]
    | cons v vertices ih =>
        rw [List.map_cons, List.sum_cons, ih, image_dot]
        simp only [Shape.coordinateSum, List.map_cons, List.sum_cons, List.length_cons, Vec3.ofFn,
          Nat.cast_succ]
        ring
  have hlength : (vertices.length : Rat) ≠ 0 := by
    rw [Nat.cast_ne_zero]
    exact fun hnil => hne (List.length_eq_zero_iff.mp hnil)
  rw [hsum, image_dot, Shape.barycenter_eq]
  simp only [Vec3.ofFn]
  field_simp

section Vertices

variable {corners : List (Vec3 Rat)}

theorem mulVec_first_vertex (m : Mat3 Rat) :
    m.mulVec (Vec3.ofFn (Shape.vertexCoordinate 0)) = ⟨0, 0, 0⟩ := by
  simp [Mat3.mulVec, Vec3.ofFn, Shape.vertexCoordinate]

theorem mulVec_vertex (m : Mat3 Rat) {j : Nat} (hj : j < 3) :
    m.mulVec (Vec3.ofFn (Shape.vertexCoordinate (j + 1))) = m.column j := by
  interval_cases j
  all_goals simp [Mat3.mulVec, Mat3.column, Vec3.ofFn, Shape.vertexCoordinate]

/-- The image of a reference vertex is the vertex of the cell in the same place. -/
theorem image_vertex (hlength : corners.length ≤ 4) {k : Nat} (hk : k < corners.length) :
    (ofVertices corners).image (Vec3.ofFn (Shape.vertexCoordinate k)) = corners[k] := by
  cases corners with
  | nil => cases hk
  | cons first rest =>
      have horigin : (ofVertices (first :: rest)).origin = first := rfl
      rw [image, horigin]
      cases k with
      | zero =>
          rw [mulVec_first_vertex, List.getElem_cons_zero]
          simp [Vec3.add]
      | succ j =>
          have hj : j < rest.length := Nat.lt_of_succ_lt_succ hk
          have hlt : j < 3 := Nat.lt_of_lt_of_le hj (Nat.le_of_succ_le_succ hlength)
          have hcolumn : (ofVertices (first :: rest)).jacobian.column j = (rest[j]).sub first :=
            (column_jacobian hlt).trans (edge_of_lt hj)
          rw [mulVec_vertex _ hlt, hcolumn, List.getElem_cons_succ]
          simp [Vec3.add, Vec3.sub]

end Vertices

/-- The affine map of a cell takes the barycenter of a local entity to that of its vertices. -/
theorem image_barycenter {vertices entity : List Nat} {position : Nat → Vec3 Rat}
    (hnodup : vertices.Nodup) (hlength : vertices.length ≤ 4) (hentity : entity.Nodup)
    (hne : entity ≠ []) (hlt : ∀ k ∈ entity, k < vertices.length) :
    (ofVertices (vertices.map position)).image (Shape.barycenter entity) =
      Vec3.barycenter (entity.map fun k => vertices.getD k 0).toFinset position := by
  have hinj : (entity.map fun k => vertices.getD k 0).Nodup := by
    apply hentity.map_on
    intro k hk l hl heq
    have hk' := hlt k hk
    have hl' := hlt l hl
    rw [List.getD_eq_getElem _ _ hk', List.getD_eq_getElem _ _ hl'] at heq
    exact (hnodup.getElem_inj_iff).mp heq
  apply Vec3.eq_of_dot_units
  intro axis _
  rw [image_barycenter_dot _ hne, Vec3.dot_barycenter, List.sum_toFinset _ hinj,
    List.toFinset_card_of_nodup hinj, List.length_map, List.map_map]
  congr 2
  apply List.map_congr_left
  intro k hk
  have hlt' : k < (vertices.map position).length := by
    rw [List.length_map]
    exact hlt k hk
  rw [image_vertex (by rwa [List.length_map]) hlt', List.getElem_map, Function.comp_apply,
    List.getD_eq_getElem _ _ (hlt k hk)]

end AffineCell
end FiniteElement
