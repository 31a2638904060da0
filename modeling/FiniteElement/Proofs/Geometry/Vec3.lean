import Mathlib
import FiniteElement.Geometry

/-! # Exact vectors, matrices and gradients

Rational arithmetic of three components, and the gradients that it gives to the
vertices of a simplex.
-/

namespace FiniteElement

/-! ## Exact vectors and matrices of three components

On rational numbers the cofactors of a matrix make an inverse wherever the
determinant is not zero. A vector is then known from its products with the
columns, and the columns of the inverse transpose are dual to them.
-/

/-! ### Rational scalars -/

namespace Scalar

@[simp] theorem zero_rat : (zero : Rat) = 0 := rfl

@[simp] theorem one_rat : (one : Rat) = 1 := rfl

@[simp] theorem ofNat_rat (n : Nat) : (ofNat n : Rat) = n := rfl

theorem abs_rat (a : Rat) : abs a = |a| := by
  show Rat.abs a = |a|
  rcases le_total 0 a with h | h
  · rw [Rat.abs_of_nonneg h, abs_of_nonneg h]
  · rw [Rat.abs_of_nonpos h, abs_of_nonpos h]

theorem sum_rat (xs : List Rat) : sum xs = xs.sum := by
  rw [List.sum_eq_foldl]
  rfl

theorem product_rat (xs : List Rat) : product xs = xs.prod := by
  rw [List.prod_eq_foldl]
  rfl

end Scalar

/-! ### Vectors -/

namespace Vec3

variable (u v w : Vec3 Rat)

theorem ext_components {u v : Vec3 Rat} (hx : u.x = v.x) (hy : u.y = v.y) (hz : u.z = v.z) :
    u = v := by
  cases u
  cases v
  simp_all

theorem dot_eq : u.dot v = u.x * v.x + u.y * v.y + u.z * v.z := rfl

theorem sub_eq : u.sub v = ⟨u.x - v.x, u.y - v.y, u.z - v.z⟩ := rfl

theorem dot_comm : u.dot v = v.dot u := by
  rw [dot_eq, dot_eq]
  ring

theorem dot_sub : u.dot (v.sub w) = u.dot v - u.dot w := by
  simp only [dot_eq, sub_eq]
  ring

theorem dot_self_nonneg : 0 ≤ u.dot u :=
  add_nonneg (add_nonneg (mul_self_nonneg u.x) (mul_self_nonneg u.y)) (mul_self_nonneg u.z)

theorem dot_self_eq_zero_iff : u.dot u = 0 ↔ u = ⟨0, 0, 0⟩ := by
  constructor
  · intro h
    rw [dot_eq] at h
    apply ext_components
    · nlinarith [mul_self_nonneg u.x, mul_self_nonneg u.y, mul_self_nonneg u.z]
    · nlinarith [mul_self_nonneg u.x, mul_self_nonneg u.y, mul_self_nonneg u.z]
    · nlinarith [mul_self_nonneg u.x, mul_self_nonneg u.y, mul_self_nonneg u.z]
  · intro h
    rw [h, dot_eq]
    norm_num

def IsFlat (d : Nat) (u : Vec3 Rat) : Prop := ∀ k, d ≤ k → k < 3 → u.dot (unit k) = 0

theorem dot_unit_zero : u.dot (unit 0) = u.x := by
  simp [dot_eq, unit, ofFn]

theorem dot_unit_one : u.dot (unit 1) = u.y := by
  simp [dot_eq, unit, ofFn]

theorem dot_unit_two : u.dot (unit 2) = u.z := by
  simp [dot_eq, unit, ofFn]

theorem dot_unit_ofFn (component : Nat → Rat) {k : Nat} (hk : k < 3) :
    (ofFn component).dot (unit k) = component k := by
  interval_cases k
  · exact dot_unit_zero _
  · exact dot_unit_one _
  · exact dot_unit_two _

def combination (vertices : Finset Nat) (weight : Nat → Rat) (vector : Nat → Vec3 Rat) :
    Vec3 Rat where
  x := ∑ v ∈ vertices, weight v * (vector v).x
  y := ∑ v ∈ vertices, weight v * (vector v).y
  z := ∑ v ∈ vertices, weight v * (vector v).z

theorem dot_combination (vertices : Finset Nat) (weight : Nat → Rat) (vector : Nat → Vec3 Rat) :
    (combination vertices weight vector).dot u = ∑ v ∈ vertices, weight v * (vector v).dot u := by
  simp only [dot_eq, combination, Finset.sum_mul, ← Finset.sum_add_distrib]
  apply Finset.sum_congr rfl
  intro v _
  ring

end Vec3

/-! ### Matrices -/

namespace Mat3

variable (m : Mat3 Rat) (u v : Vec3 Rat)

theorem det_eq : m.det =
    m.col0.x * (m.col1.y * m.col2.z - m.col1.z * m.col2.y) -
      m.col1.x * (m.col0.y * m.col2.z - m.col0.z * m.col2.y) +
      m.col2.x * (m.col0.y * m.col1.z - m.col0.z * m.col1.y) := rfl

theorem column_zero : m.column 0 = m.col0 := rfl

theorem column_one : m.column 1 = m.col1 := rfl

theorem column_two : m.column 2 = m.col2 := rfl

theorem mulVec_dot : (m.mulVec u).dot v =
    u.x * m.col0.dot v + u.y * m.col1.dot v + u.z * m.col2.dot v := by
  have heq : m.mulVec u = ⟨m.col2.x * u.z + (m.col1.x * u.y + m.col0.x * u.x),
      m.col2.y * u.z + (m.col1.y * u.y + m.col0.y * u.x),
      m.col2.z * u.z + (m.col1.z * u.y + m.col0.z * u.x)⟩ := rfl
  simp only [heq, Vec3.dot_eq]
  ring

variable {m}

/-- A vector is known from its products with the columns of a matrix that can be inverted. -/
theorem eq_of_dot_columns (hdet : m.det ≠ 0) {u v : Vec3 Rat}
    (h : ∀ k < 3, u.dot (m.column k) = v.dot (m.column k)) : u = v := by
  have h0 : u.dot m.col0 = v.dot m.col0 := h 0 (by decide)
  have h1 : u.dot m.col1 = v.dot m.col1 := h 1 (by decide)
  have h2 : u.dot m.col2 = v.dot m.col2 := h 2 (by decide)
  rw [det_eq] at hdet
  simp only [Vec3.dot_eq] at h0 h1 h2
  -- the cofactors of each row combine the products into the component times the determinant
  apply Vec3.ext_components
  · apply mul_right_cancel₀ hdet
    linear_combination (m.col1.y * m.col2.z - m.col1.z * m.col2.y) * h0 -
      (m.col0.y * m.col2.z - m.col0.z * m.col2.y) * h1 +
      (m.col0.y * m.col1.z - m.col0.z * m.col1.y) * h2
  · apply mul_right_cancel₀ hdet
    linear_combination (m.col2.x * m.col1.z - m.col2.z * m.col1.x) * h0 +
      (m.col0.x * m.col2.z - m.col0.z * m.col2.x) * h1 +
      (m.col1.x * m.col0.z - m.col0.x * m.col1.z) * h2
  · apply mul_right_cancel₀ hdet
    linear_combination (m.col1.x * m.col2.y - m.col2.x * m.col1.y) * h0 +
      (m.col2.x * m.col0.y - m.col0.x * m.col2.y) * h1 +
      (m.col0.x * m.col1.y - m.col1.x * m.col0.y) * h2

/-- The cofactors of one column are orthogonal to the others. -/
theorem adjugate_transpose_dot {j k : Nat} (hj : j < 3) (hk : k < 3) :
    (m.adjugate.transpose.column j).dot (m.column k) = if j = k then m.det else 0 := by
  have hadjugate : m.adjugate.transpose = ⟨
      ⟨m.col1.y * m.col2.z - m.col1.z * m.col2.y, m.col2.x * m.col1.z - m.col2.z * m.col1.x,
        m.col1.x * m.col2.y - m.col2.x * m.col1.y⟩,
      ⟨-(m.col0.y * m.col2.z - m.col0.z * m.col2.y), m.col0.x * m.col2.z - m.col0.z * m.col2.x,
        m.col2.x * m.col0.y - m.col0.x * m.col2.y⟩,
      ⟨m.col0.y * m.col1.z - m.col0.z * m.col1.y, m.col1.x * m.col0.z - m.col0.x * m.col1.z,
        m.col0.x * m.col1.y - m.col1.x * m.col0.y⟩⟩ := rfl
  rw [hadjugate, det_eq]
  interval_cases j
  all_goals
    interval_cases k
    all_goals
      simp only [column_zero, column_one, column_two, Vec3.dot_eq, if_true, reduceIte,
        Nat.reduceEqDiff, Nat.succ_ne_self]
      ring

/-- The columns of the inverse transpose are dual to those of the matrix. -/
theorem exists_inverse?_dual (hdet : m.det ≠ 0) :
    ∃ inverse, m.inverse? = some inverse ∧ ∀ j < 3, ∀ k < 3,
      (inverse.transpose.column j).dot (m.column k) = if j = k then 1 else 0 := by
  have hzero : Scalar.isZero m.det = false := beq_false_of_ne hdet
  refine ⟨⟨m.adjugate.col0.map (· / m.det), m.adjugate.col1.map (· / m.det),
    m.adjugate.col2.map (· / m.det)⟩, by simp only [inverse?, hzero, if_false, Bool.false_eq_true],
    ?_⟩
  intro j hj k hk
  have hcofactors := adjugate_transpose_dot (m := m) hj hk
  have hcolumn : ∀ w : Vec3 Rat,
      ((Mat3.mk (m.adjugate.col0.map (· / m.det)) (m.adjugate.col1.map (· / m.det))
        (m.adjugate.col2.map (· / m.det))).transpose.column j).dot w =
        (m.adjugate.transpose.column j).dot w / m.det := by
    intro w
    interval_cases j
    all_goals
      simp only [column_zero, column_one, column_two, transpose, Vec3.map, Vec3.dot_eq]
      ring
  rw [hcolumn, hcofactors]
  split
  · exact div_self hdet
  · exact zero_div _

end Mat3

/-! ## Gradients of linear interpolation

Among points that span their space, each vertex has the gradient of the linear
function that is one there and zero at the other vertices. These gradients
combine nodal values into the slope of their linear interpolation, and products
of gradients into the energy of the slope.
-/

/-- The vectors are the gradients of the linear functions that are one at a vertex and zero at the
others, and no other vectors in the first `d` dimensions behave alike. -/
structure HatGradients (d : Nat) (vertices : Finset Nat) (position gradient : Nat → Vec3 Rat) :
    Prop where
  dot_sub : ∀ v ∈ vertices, ∀ a ∈ vertices, ∀ b ∈ vertices,
    (gradient v).dot ((position a).sub (position b)) =
      (if v = a then 1 else 0) - (if v = b then 1 else 0)
  isFlat : ∀ v ∈ vertices, (gradient v).IsFlat d
  eq_of_dot_sub : ∀ g h : Vec3 Rat, g.IsFlat d → h.IsFlat d →
    (∀ a ∈ vertices, ∀ b ∈ vertices,
      g.dot ((position a).sub (position b)) = h.dot ((position a).sub (position b))) → g = h

namespace HatGradients

variable {d : Nat} {vertices : Finset Nat} {position gradient : Nat → Vec3 Rat}
  {weight : Nat → Rat}

/-- The gradients depend on the vertices alone, not on how they were found. -/
theorem eq (h : HatGradients d vertices position gradient) {gradient' : Nat → Vec3 Rat}
    (h' : HatGradients d vertices position gradient') {v : Nat} (hv : v ∈ vertices) :
    gradient v = gradient' v := by
  apply h.eq_of_dot_sub _ _ (h.isFlat v hv) (h'.isFlat v hv)
  intro a ha b hb
  rw [h.dot_sub v hv a ha b hb, h'.dot_sub v hv a ha b hb]

theorem isFlat_combination (h : HatGradients d vertices position gradient) :
    (Vec3.combination vertices weight gradient).IsFlat d := by
  intro k hk hlt
  rw [Vec3.dot_combination]
  apply Finset.sum_eq_zero
  intro v hv
  rw [h.isFlat v hv k hk hlt, mul_zero]

/-- The slope of nodal values rises between two vertices by the difference of their values. -/
theorem dot_combination (h : HatGradients d vertices position gradient) {a b : Nat}
    (ha : a ∈ vertices) (hb : b ∈ vertices) :
    (Vec3.combination vertices weight gradient).dot ((position a).sub (position b)) =
      weight a - weight b := by
  have hterms : ∀ v ∈ vertices,
      weight v * (gradient v).dot ((position a).sub (position b)) =
        (if v = a then weight v else 0) - (if v = b then weight v else 0) := by
    intro v hv
    rw [h.dot_sub v hv a ha b hb, mul_sub, mul_ite, mul_ite, mul_one, mul_zero]
  rw [Vec3.dot_combination, Finset.sum_congr rfl hterms, Finset.sum_sub_distrib,
    Finset.sum_ite_eq' vertices a, Finset.sum_ite_eq' vertices b, if_pos ha, if_pos hb]

/-- The values of an affine function have its gradient as their slope. -/
theorem combination_eq_of_affine (h : HatGradients d vertices position gradient) {g : Vec3 Rat}
    (hg : g.IsFlat d) {b : Rat} (hweight : ∀ v ∈ vertices, weight v = g.dot (position v) + b) :
    Vec3.combination vertices weight gradient = g := by
  apply h.eq_of_dot_sub _ _ h.isFlat_combination hg
  intro v hv w hw
  rw [h.dot_combination hv hw, hweight v hv, hweight w hw, Vec3.dot_sub]
  ring

theorem combination_eq_zero_iff (h : HatGradients d vertices position gradient) :
    Vec3.combination vertices weight gradient = ⟨0, 0, 0⟩ ↔
      ∀ v ∈ vertices, ∀ w ∈ vertices, weight v = weight w := by
  constructor
  · intro hzero v hv w hw
    have hslope : (Vec3.combination vertices weight gradient).dot
        ((position v).sub (position w)) = weight v - weight w := h.dot_combination hv hw
    rw [hzero, Vec3.dot_eq] at hslope
    linarith
  · intro hconstant
    have hflat : (⟨0, 0, 0⟩ : Vec3 Rat).IsFlat d := by
      intro k _ _
      rw [Vec3.dot_eq]
      ring
    apply h.eq_of_dot_sub _ _ h.isFlat_combination hflat
    intro v hv w hw
    rw [h.dot_combination hv hw, hconstant v hv w hw, Vec3.dot_eq]
    ring

/-- The gradients add up to zero, as the functions add up to one. -/
theorem sum_dot_gradient (h : HatGradients d vertices position gradient) (u : Vec3 Rat) :
    ∑ v ∈ vertices, (gradient v).dot u = 0 := by
  have hones : Vec3.combination vertices (fun _ => 1) gradient = ⟨0, 0, 0⟩ :=
    h.combination_eq_zero_iff.mpr fun _ _ _ _ => rfl
  have hdot := Vec3.dot_combination u vertices (fun _ => 1) gradient
  simp only [one_mul] at hdot
  rw [← hdot, hones, Vec3.dot_eq]
  ring

end HatGradients

/-- The products of vectors, with a weight for each factor, make the square of their combination. -/
theorem Vec3.sum_dot_eq_dot_combination (vertices : Finset Nat) (weight : Nat → Rat)
    (vector : Nat → Vec3 Rat) :
    ∑ v ∈ vertices, ∑ w ∈ vertices, weight v * (vector v).dot (vector w) * weight w =
      (combination vertices weight vector).dot (combination vertices weight vector) := by
  rw [dot_combination]
  apply Finset.sum_congr rfl
  intro v _
  rw [dot_comm, dot_combination, Finset.mul_sum]
  apply Finset.sum_congr rfl
  intro w _
  rw [dot_comm (vector w)]
  ring

end FiniteElement
