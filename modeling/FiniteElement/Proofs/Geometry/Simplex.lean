import Mathlib
import FiniteElement.Geometry
import FiniteElement.Proofs.Geometry.Vec3

/-! # Exact simplices

The affine cell of a list of vertices, on rational coordinates. Where its
determinant is not zero, its gradients are those of the linear functions that
are one at a vertex and zero at the others. Listing the vertices in another
order changes at most the sign of the determinant, so the volume and the
gradient that belongs to a vertex stay the same.
-/

namespace FiniteElement.AffineCell

def ofVertices {α : Type} [Scalar α] (corners : List (Vec3 α)) : AffineCell α :=
  ofCorners (corners.headD ⟨Scalar.zero, Scalar.zero, Scalar.zero⟩) corners.tail

def hatGradient {α : Type} [Scalar α] (simplex : AffineCell α) (vertices : List Nat) (v : Nat) :
    Vec3 α :=
  simplex.gradients.getD (vertices.idxOf v) ⟨Scalar.zero, Scalar.zero, Scalar.zero⟩

theorem dimension_ofVertices {α : Type} [Scalar α] (corners : List (Vec3 α)) :
    (ofVertices corners).dimension = corners.length - 1 :=
  List.length_tail

/-! ## Volumes -/

variable {simplex : AffineCell Rat}

theorem volume_eq (simplex : AffineCell Rat) :
    simplex.volume = |simplex.det| / (simplex.dimension.factorial : Rat) := by
  have hproduct : Scalar.product ((List.range simplex.dimension).map fun k =>
      (Scalar.ofNat (k + 1) : Rat)) = (simplex.dimension.factorial : Rat) := by
    rw [Scalar.product_rat, ← Finset.prod_range_add_one_eq_factorial, Nat.cast_prod]
    rfl
  rw [← hproduct, ← Scalar.abs_rat]
  rfl

theorem volume_nonneg (simplex : AffineCell Rat) : 0 ≤ simplex.volume := by
  rw [volume_eq]
  positivity

theorem volume_pos_iff : 0 < simplex.volume ↔ simplex.det ≠ 0 := by
  have hfactorial : 0 < (simplex.dimension.factorial : Rat) := by positivity
  rw [volume_eq, div_pos_iff_of_pos_right hfactorial, abs_pos]

/-! ## Gradients -/

section Gradients

variable {origin : Vec3 Rat} {corners : List (Vec3 Rat)}

theorem column_jacobian {k : Nat} (hk : k < 3) :
    (ofCorners origin corners).jacobian.column k = edge origin corners k := by
  interval_cases k
  all_goals rfl

theorem edge_of_lt {k : Nat} (hk : k < corners.length) :
    edge origin corners k = (corners[k]).sub origin := by
  rw [edge, List.getElem?_eq_getElem hk]

theorem edge_of_le {k : Nat} (hk : corners.length ≤ k) : edge origin corners k = Vec3.unit k := by
  rw [edge, List.getElem?_eq_none hk]

theorem firstReferenceGradient_eq (d : Nat) :
    (firstReferenceGradient d : Vec3 Rat) =
      ⟨if 0 < d then -1 else 0, if 1 < d then -1 else 0, if 2 < d then -1 else 0⟩ := rfl

/-- Along an edge from the origin the function of the corner at its end rises from zero to one, and
that of the origin falls from one to zero. Across the space of the cell nothing changes. -/
theorem getD_gradients_dot_edge (hdet : (ofCorners origin corners).det ≠ 0)
    (hlength : corners.length ≤ 3) {i k : Nat} (hi : i ≤ corners.length) (hk : k < 3)
    (default : Vec3 Rat) :
    ((ofCorners origin corners).gradients.getD i default).dot (edge origin corners k) =
      if k < corners.length then (if i = k + 1 then 1 else 0) - (if i = 0 then 1 else 0)
      else 0 := by
  obtain ⟨inverse, hinverse, hdual⟩ := Mat3.exists_inverse?_dual hdet
  have hcarry : (ofCorners origin corners).inverseTranspose = inverse.transpose := by
    rw [inverseTranspose, hinverse]
  rw [← column_jacobian hk, gradients, hcarry]
  cases i with
  | zero =>
      have hfirst := hdual 0 (by decide) k hk
      have hsecond := hdual 1 (by decide) k hk
      have hthird := hdual 2 (by decide) k hk
      rw [Mat3.column_zero] at hfirst
      rw [Mat3.column_one] at hsecond
      rw [Mat3.column_two] at hthird
      rw [List.getD_cons_zero, Mat3.mulVec_dot, hfirst, hsecond, hthird, firstReferenceGradient_eq]
      have hdim : (ofCorners origin corners).dimension = corners.length := rfl
      rw [hdim]
      interval_cases k
      all_goals simp
  | succ j =>
      have hj : j < (List.range (ofCorners origin corners).dimension).length := by
        rw [List.length_range]
        exact hi
      have hcolumn : ((List.range (ofCorners origin corners).dimension).map
          inverse.transpose.column).getD j default = inverse.transpose.column j := by
        rw [List.getD_eq_getElem?_getD, List.getElem?_map, List.getElem?_eq_getElem hj]
        simp
      rw [List.getD_cons_succ, hcolumn, hdual j (by omega) k hk]
      by_cases hlt : k < corners.length
      · simp [hlt]
      · have hne : j ≠ k := by omega
        simp [hlt, hne]

end Gradients

section Vertices

variable {first : Nat} {rest : List Nat} {position : Nat → Vec3 Rat}

theorem edge_position {k : Nat} (hk : k < rest.length) :
    edge (position first) (rest.map position) k = (position rest[k]).sub (position first) := by
  have hlt : k < (rest.map position).length := by
    rw [List.length_map]
    exact hk
  rw [edge_of_lt hlt, List.getElem_map]

theorem edge_position_of_le {k : Nat} (hk : rest.length ≤ k) :
    edge (position first) (rest.map position) k = Vec3.unit k := by
  apply edge_of_le
  rw [List.length_map]
  exact hk

variable (hnodup : (first :: rest).Nodup)
  (hdet : (ofVertices ((first :: rest).map position)).det ≠ 0) (hlength : rest.length ≤ 3)

include hnodup hdet hlength

/-- The products of the gradient of a vertex with the edges from the first vertex. -/
theorem hatGradient_dot_edge {v : Nat} (hv : v ∈ first :: rest) {k : Nat} (hk : k < 3) :
    ((ofVertices ((first :: rest).map position)).hatGradient (first :: rest) v).dot
        (edge (position first) (rest.map position) k) =
      if h : k < rest.length then (if v = rest[k] then 1 else 0) - (if v = first then 1 else 0)
      else 0 := by
  have hi := List.idxOf_lt_length_of_mem hv
  have hplace : (first :: rest).idxOf v ≤ (rest.map position).length := by
    rw [List.length_map]
    exact Nat.le_of_lt_succ hi
  have hcorners : (rest.map position).length ≤ 3 := by
    rwa [List.length_map]
  have hcell : (ofCorners (position first) (rest.map position)).det ≠ 0 := hdet
  have hproduct := getD_gradients_dot_edge hcell hcorners hplace hk ⟨0, 0, 0⟩
  rw [List.length_map] at hproduct
  refine Eq.trans hproduct ?_
  by_cases hlt : k < rest.length
  · have hzero : (first :: rest).idxOf v = 0 ↔ v = first := by
      rw [← List.idxOf_inj hv, List.idxOf_cons_self]
    have hsucc : (first :: rest).idxOf v = k + 1 ↔ v = rest[k] := by
      have hindex : (first :: rest).idxOf rest[k] = k + 1 :=
        hnodup.idxOf_getElem (k + 1) (Nat.succ_lt_succ hlt)
      rw [← List.idxOf_inj hv, hindex]
    simp only [hlt, if_true, dif_pos, hzero, hsucc]
  · rw [if_neg hlt, dif_neg hlt]

/-- The rise of the function of a vertex from the first vertex to any other. -/
theorem hatGradient_dot_sub_first {v a : Nat} (hv : v ∈ first :: rest) (ha : a ∈ first :: rest) :
    ((ofVertices ((first :: rest).map position)).hatGradient (first :: rest) v).dot
        ((position a).sub (position first)) =
      (if v = a then 1 else 0) - (if v = first then 1 else 0) := by
  rcases List.mem_cons.mp ha with heq | hmem
  · rw [heq, Vec3.dot_sub, sub_self, sub_self]
  · obtain ⟨k, hk, hget⟩ := List.getElem_of_mem hmem
    have hproduct := hatGradient_dot_edge hnodup hdet hlength hv (Nat.lt_of_lt_of_le hk hlength)
    rw [edge_position hk, dif_pos hk, hget] at hproduct
    exact hproduct

end Vertices

/-- The gradients of a cell that is not degenerate belong to its vertices. -/
theorem hatGradients_ofVertices {vertices : List Nat} (hnodup : vertices.Nodup)
    (hpos : 1 ≤ vertices.length) (hle : vertices.length ≤ 4) {position : Nat → Vec3 Rat}
    (hdet : (ofVertices (vertices.map position)).det ≠ 0) :
    HatGradients (vertices.length - 1) vertices.toFinset position
      ((ofVertices (vertices.map position)).hatGradient vertices) := by
  cases vertices with
  | nil => exact absurd hpos (by decide)
  | cons first rest =>
      have hlength : rest.length ≤ 3 := Nat.le_of_succ_le_succ hle
      constructor
      · intro v hv a ha b hb
        rw [List.mem_toFinset] at hv ha hb
        have hrise := hatGradient_dot_sub_first hnodup hdet hlength hv ha
        have hrise' := hatGradient_dot_sub_first hnodup hdet hlength hv hb
        rw [Vec3.dot_sub] at hrise hrise' ⊢
        linarith
      · intro v hv k hk hlt
        rw [List.mem_toFinset] at hv
        have hge : rest.length ≤ k := hk
        have hproduct := hatGradient_dot_edge hnodup hdet hlength hv hlt
        rw [edge_position_of_le hge, dif_neg (Nat.not_lt.mpr hge)] at hproduct
        exact hproduct
      · intro g h hg hh heq
        apply Mat3.eq_of_dot_columns hdet
        intro k hk
        have hcolumn : (ofVertices ((first :: rest).map position)).jacobian.column k =
            edge (position first) (rest.map position) k := column_jacobian hk
        rw [hcolumn]
        rcases Nat.lt_or_ge k rest.length with hlt | hge
        · rw [edge_position hlt]
          apply heq
          · exact List.mem_toFinset.mpr (List.mem_cons_of_mem _ (List.getElem_mem hlt))
          · exact List.mem_toFinset.mpr List.mem_cons_self
        · rw [edge_position_of_le hge, hg k hge hk, hh k hge hk]

/-! ## Other orders of the vertices -/

/-- What an exchange of two neighbours in a list of some length leaves alone is left alone by every
permutation of the list. -/
theorem eq_of_perm_of_swap {β γ : Type} {f : List β → γ} {n : Nat}
    (hswap : ∀ before a b after, (before ++ a :: b :: after).length = n →
      f (before ++ b :: a :: after) = f (before ++ a :: b :: after))
    {xs ys : List β} (h : xs.Perm ys) (before : List β) (hlength : (before ++ xs).length = n) :
    f (before ++ xs) = f (before ++ ys) := by
  induction h generalizing before with
  | nil => rfl
  | cons x _ ih =>
      have hrest := ih (before ++ [x]) (by simpa using hlength)
      simpa using hrest
  | swap a b rest => exact (hswap before b a rest hlength).symm
  | @trans xs ys zs hfirst _ ih ih' =>
      have hsame : (before ++ ys).length = n := by
        rw [List.length_append, ← hfirst.length_eq, ← List.length_append, hlength]
      rw [ih before hlength, ih' before hsame]

theorem det_interval (a b : Vec3 Rat) : (ofVertices [a, b]).det = b.x - a.x := by
  show (Mat3.mk (b.sub a) (Vec3.unit 1) (Vec3.unit 2)).det = _
  simp [Mat3.det_eq, Vec3.sub_eq, Vec3.unit, Vec3.ofFn]

theorem det_triangle (a b c : Vec3 Rat) : (ofVertices [a, b, c]).det =
    (b.x - a.x) * (c.y - a.y) - (c.x - a.x) * (b.y - a.y) := by
  show (Mat3.mk (b.sub a) (c.sub a) (Vec3.unit 2)).det = _
  simp [Mat3.det_eq, Vec3.sub_eq, Vec3.unit, Vec3.ofFn]

theorem det_tetrahedron (a b c d : Vec3 Rat) : (ofVertices [a, b, c, d]).det =
    (b.x - a.x) * ((c.y - a.y) * (d.z - a.z) - (c.z - a.z) * (d.y - a.y)) -
      (c.x - a.x) * ((b.y - a.y) * (d.z - a.z) - (b.z - a.z) * (d.y - a.y)) +
      (d.x - a.x) * ((b.y - a.y) * (c.z - a.z) - (b.z - a.z) * (c.y - a.y)) := rfl

/-- Two neighbours in the list of vertices exchanged turn the orientation of the cell. -/
theorem det_swap {before after : List (Vec3 Rat)} (a b : Vec3 Rat)
    (hlength : before.length + after.length ≤ 2) :
    (ofVertices (before ++ b :: a :: after)).det =
      -(ofVertices (before ++ a :: b :: after)).det := by
  match before, after with
  | [], [] =>
      rw [List.nil_append, List.nil_append, det_interval, det_interval]
      ring
  | [], [c] =>
      rw [List.nil_append, List.nil_append, det_triangle, det_triangle]
      ring
  | [], [c, d] =>
      rw [List.nil_append, List.nil_append, det_tetrahedron, det_tetrahedron]
      ring
  | [c], [] =>
      rw [List.singleton_append, List.singleton_append, det_triangle, det_triangle]
      ring
  | [c], [d] =>
      rw [List.singleton_append, List.singleton_append, det_tetrahedron, det_tetrahedron]
      ring
  | [c, d], [] =>
      show (ofVertices [c, d, b, a]).det = -(ofVertices [c, d, a, b]).det
      rw [det_tetrahedron, det_tetrahedron]
      ring
  | [], _ :: _ :: _ :: _ | [_], _ :: _ :: _ | [_, _], _ :: _ | _ :: _ :: _ :: _, _ =>
      simp only [List.length_cons] at hlength
      omega

/-- Corners that are scaled and then moved span a scaled determinant. -/
theorem det_scaled {corners : List (Vec3 Rat)} {d : Nat} (hlength : corners.length = d + 1)
    (hpos : 1 ≤ d) (hle : d ≤ 3) (c : Rat) (t : Vec3 Rat) :
    (ofVertices (corners.map fun x => (x.map (c * ·)).add t)).det =
      c ^ d * (ofVertices corners).det := by
  match corners, d with
  | [x, y], 1 =>
      rw [List.map_cons, List.map_cons, List.map_nil, det_interval, det_interval]
      simp only [Vec3.map, Vec3.add]
      ring
  | [x, y, z], 2 =>
      rw [List.map_cons, List.map_cons, List.map_cons, List.map_nil, det_triangle, det_triangle]
      simp only [Vec3.map, Vec3.add]
      ring
  | [x, y, z, w], 3 =>
      rw [List.map_cons, List.map_cons, List.map_cons, List.map_cons, List.map_nil,
        det_tetrahedron, det_tetrahedron]
      simp only [Vec3.map, Vec3.add]
      ring

/-- The volume does not depend on the order of the vertices. -/
theorem volume_perm {corners corners' : List (Vec3 Rat)} (h : corners.Perm corners')
    (hlength : corners.length ≤ 4) :
    (ofVertices corners).volume = (ofVertices corners').volume := by
  have hswap : ∀ (before : List (Vec3 Rat)) (a b : Vec3 Rat) (after : List (Vec3 Rat)),
      (before ++ a :: b :: after).length = corners.length →
        (ofVertices (before ++ b :: a :: after)).volume =
          (ofVertices (before ++ a :: b :: after)).volume := by
    intro before a b after heq
    rw [List.length_append, List.length_cons, List.length_cons] at heq
    rw [volume_eq, volume_eq, det_swap a b (by omega), abs_neg, dimension_ofVertices,
      dimension_ofVertices]
    simp
  exact eq_of_perm_of_swap (f := fun corners : List (Vec3 Rat) => (ofVertices corners).volume)
    hswap h [] rfl

/-- The gradient of a vertex does not depend on the order of the vertices. -/
theorem hatGradient_perm {vertices vertices' : List Nat} (h : vertices.Perm vertices')
    (hnodup : vertices.Nodup) (hle : vertices.length ≤ 4) {position : Nat → Vec3 Rat}
    (hdet : (ofVertices (vertices.map position)).det ≠ 0) {v : Nat} (hv : v ∈ vertices) :
    (ofVertices (vertices.map position)).hatGradient vertices v =
      (ofVertices (vertices'.map position)).hatGradient vertices' v := by
  have hpos : 1 ≤ vertices.length := List.length_pos_of_mem hv
  have hsame := h.length_eq
  have hdet' : (ofVertices (vertices'.map position)).det ≠ 0 := by
    have hvolume := volume_perm (h.map position) (by rwa [List.length_map])
    rw [← volume_pos_iff] at hdet ⊢
    rwa [← hvolume]
  have hown := hatGradients_ofVertices hnodup hpos hle hdet
  have hother := hatGradients_ofVertices (h.nodup_iff.mp hnodup) (hsame ▸ hpos) (hsame ▸ hle) hdet'
  rw [← hsame, ← List.toFinset_eq_of_perm _ _ h] at hother
  exact hown.eq hother (List.mem_toFinset.mpr hv)

end FiniteElement.AffineCell
