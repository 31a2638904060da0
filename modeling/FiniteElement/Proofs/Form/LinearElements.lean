import Mathlib
import FiniteElement.Proofs.Assembly.Answers
import FiniteElement.Proofs.Assembly.SerialSums
import FiniteElement.Proofs.DofMap.Piecewise
import FiniteElement.Proofs.Form.Linear

/-! # Element tensors of linear elements

On a mesh that fills its space the tensor of a cell is a function of its volume,
its gradients and the values of the coefficient at its vertices or on itself. The
forms fit a mesh wherever the degrees of freedom of their spaces can be numbered.
-/

namespace FiniteElement

variable {α : Type} [Scalar α]

/-! ## Tensors -/

def squareTensor (rows : Nat) (entry : Nat → Nat → α) : List α :=
  List.ofFn fun k : Fin (rows * rows) => entry (k / rows) (k % rows)

omit [Scalar α] in
theorem getD_squareTensor {rows i j : Nat} (hi : i < rows) (hj : j < rows) (entry : Nat → Nat → α)
    (default : α) : (squareTensor rows entry).getD (i * rows + j) default = entry i j := by
  have hlt : i * rows + j < rows * rows := by
    have hle : (i + 1) * rows ≤ rows * rows := Nat.mul_le_mul_right rows hi
    rw [Nat.succ_mul] at hle
    omega
  have hpos : 0 < rows := Nat.zero_lt_of_lt hj
  have hdiv : (i * rows + j) / rows = i := by
    rw [Nat.mul_comm, Nat.mul_add_div hpos, Nat.div_eq_of_lt hj, Nat.add_zero]
  have hmod : (i * rows + j) % rows = j := by
    rw [Nat.mul_comm, Nat.mul_add_mod, Nat.mod_eq_of_lt hj]
  rw [squareTensor, List.getD_eq_getElem?_getD, List.getElem?_ofFn, dif_pos hlt, Option.getD_some]
  simp only [hdiv, hmod]

namespace PiecewiseSpace

/-- The number of values of a coefficient: one per cell or one per vertex. -/
def numDofs (space : PiecewiseSpace) (mesh : Mesh α) : Nat :=
  match space with
  | .constant => mesh.numCells
  | .linear => mesh.numVertices

def cellDofs (space : PiecewiseSpace) (mesh : Mesh α) (cell : Nat) : List Nat :=
  match space with
  | .constant => [cell]
  | .linear => mesh.vertexList cell

def sourceLoad (space : PiecewiseSpace) (mesh : Mesh α) (values : Array α) (cell i : Nat) : α :=
  match space with
  | .constant => Form.constantLoad (mesh.simplex cell).volume (values.getD cell Scalar.zero)
      (mesh.dimension + 1)
  | .linear => Form.linearLoad (mesh.simplex cell).volume mesh.dimension
      ((mesh.vertexList cell).map (values.getD · Scalar.zero)) i

theorem globalDimension_dofMap (space : PiecewiseSpace) (mesh : Mesh α) :
    (space.dofMap mesh.shape : DofMap α).globalDimension mesh.entityCounts =
      Index.guard (space.numDofs mesh) := by
  cases space with
  | constant => exact DofMap.globalDimension_p0 mesh
  | linear => exact DofMap.globalDimension_p1 mesh

theorem cellNodes_dofMap (space : PiecewiseSpace) {mesh : Mesh α} (hmesh : mesh.WellFormed)
    {cell : Nat} (hc : cell < mesh.numCells) :
    (space.dofMap mesh.shape : DofMap α).cellNodes mesh cell = space.cellDofs mesh cell := by
  cases space with
  | constant => exact DofMap.cellNodes_p0 hmesh hc
  | linear => exact DofMap.cellNodes_p1 hmesh hc

end PiecewiseSpace

namespace Form

/-! ## Sizes -/

theorem tensorEntries_mass (shape : Shape) : (mass shape : Form α).tensorEntries =
    (shape.dimension + 1) * (shape.dimension + 1) := by
  rw [tensorEntries_of_rank_two rfl rfl, size_p1]

theorem tensorEntries_laplace (shape : Shape) : (laplace shape : Form α).tensorEntries =
    (shape.dimension + 1) * (shape.dimension + 1) := by
  rw [tensorEntries_of_rank_two rfl rfl, size_p1]

theorem tensorEntries_source (shape : Shape) (space : PiecewiseSpace) :
    (source shape space : Form α).tensorEntries = shape.dimension + 1 := by
  rw [← size_p1 (α := α) shape]
  exact List.prod_singleton

namespace OnLinearElements

variable {form : Form α} (h : form.OnLinearElements)

include h

theorem size_le : ∀ map ∈ form.dofMaps, map.size ≤ 4 := by
  have hspace : ∀ (space : PiecewiseSpace) (shape : Shape),
      (space.dofMap shape : DofMap α).size ≤ 4 := by
    intro space shape
    cases space <;> cases shape <;> exact Nat.le_of_ble_eq_true rfl
  intro map hmap
  cases h with
  | mass shape =>
      rw [List.eq_of_mem_replicate (n := 2) hmap]
      exact hspace .linear shape
  | laplace shape =>
      rw [List.eq_of_mem_replicate (n := 2) hmap]
      exact hspace .linear shape
  | source shape space =>
      rcases List.mem_cons.mp hmap with rfl | hmap
      · exact hspace .linear shape
      · rw [List.mem_singleton.mp hmap]
        exact hspace space shape
  | integral shape space =>
      rw [List.mem_singleton.mp hmap]
      exact hspace space shape

theorem tensorEntries_le : form.tensorEntries ≤ 16 := by
  have hsquare : ∀ shape : Shape, (shape.dimension + 1) * (shape.dimension + 1) ≤ 16 :=
    fun shape => Nat.mul_le_mul (Nat.succ_le_succ shape.dimension_le_three)
      (Nat.succ_le_succ shape.dimension_le_three)
  cases h with
  | mass shape => exact (tensorEntries_mass shape).trans_le (hsquare shape)
  | laplace shape => exact (tensorEntries_laplace shape).trans_le (hsquare shape)
  | source shape space =>
      rw [tensorEntries_source]
      have hle := shape.dimension_le_three
      omega
  | integral shape space =>
      rw [tensorEntries_integral]
      decide

theorem rank_add_numCoefficients_le : form.rank + form.numCoefficients ≤ 2 := by
  cases h <;> exact Nat.le_of_ble_eq_true rfl

theorem rank_le_length : form.rank ≤ form.dofMaps.length := by
  cases h <;> exact Nat.le_of_ble_eq_true rfl

theorem tensorSize_eq_ok : form.tensorSize = .ok form.tensorEntries :=
  tensorSize_of_rank_le_two (Nat.le_of_add_right_le h.rank_add_numCoefficients_le) h.rank_le_length
    (fun map hmap => Nat.lt_of_le_of_lt (h.size_le map hmap) (by decide))
    (Nat.lt_of_le_of_lt h.tensorEntries_le (by decide))

end OnLinearElements

/-! ## Tensors of a cell -/

section Tensors

variable {mesh : Mesh α} (hmesh : mesh.WellFormed)
  (hvolumetric : mesh.geometricDimension = mesh.dimension) {cell : Nat} (hc : cell < mesh.numCells)

include hmesh hvolumetric hc

/-- The tensor of a cell is what the form computes from the affine map of its vertices. -/
theorem elementTensor_eq_ok {form : Form α} {coefficients : List (Array α)} {n : Nat}
    (hsize : form.tensorSize = .ok n) {computed : Vector α n}
    (hcompute : ∀ view, AffineCell.ofCell view = .ok (mesh.simplex cell) →
      form.computeTensor (Vector.replicate n Scalar.zero)
        (nodalValues (form.dofMaps.drop form.rank) mesh coefficients cell) view = .ok computed) :
    form.elementTensor mesh coefficients cell = .ok computed.toList := by
  obtain ⟨view, coordinates, hview, -⟩ := hmesh.view_eq_ok hc #[]
  have hcomputed := hcompute view (hmesh.ofCell_view_eq_ok hvolumetric hc hview)
  simp only [elementTensor, hsize, hview, hcomputed, Checked.ok_bind]
  rfl

theorem elementTensor_of_square {form : Form α}
    (hsize : form.tensorSize = .ok ((mesh.dimension + 1) * (mesh.dimension + 1)))
    {entry : Nat → Nat → α} (hcompute : ∀ values view,
      AffineCell.ofCell view = .ok (mesh.simplex cell) →
      form.computeTensor
          (Vector.replicate ((mesh.dimension + 1) * (mesh.dimension + 1)) Scalar.zero) values view =
          .ok (Vector.ofFn fun k => entry (k / (mesh.dimension + 1)) (k % (mesh.dimension + 1))))
    (coefficients : List (Array α)) :
    form.elementTensor mesh coefficients cell =
      .ok (squareTensor (mesh.dimension + 1) entry) := by
  have htensor : (Vector.ofFn fun k : Fin ((mesh.dimension + 1) * (mesh.dimension + 1)) =>
      entry (k / (mesh.dimension + 1)) (k % (mesh.dimension + 1))).toList =
        squareTensor (mesh.dimension + 1) entry := Vector.toList_ofFn
  rw [← htensor]
  exact elementTensor_eq_ok hmesh hvolumetric hc hsize fun view => hcompute _ view

theorem elementTensor_mass (coefficients : List (Array α)) :
    (mass mesh.shape).elementTensor mesh coefficients cell =
      .ok (squareTensor (mesh.dimension + 1)
        (massEntry (mesh.simplex cell).volume mesh.dimension)) := by
  apply elementTensor_of_square hmesh hvolumetric hc
  · rw [(OnLinearElements.mass mesh.shape).tensorSize_eq_ok, tensorEntries_mass, Mesh.dimension]
  · intro values view hview
    unfold mass
    dsimp only
    rw [hview, Checked.ok_bind, hmesh.dimension_simplex hc]
    exact if_pos rfl

theorem elementTensor_laplace (coefficients : List (Array α)) :
    (laplace mesh.shape).elementTensor mesh coefficients cell =
      .ok (squareTensor (mesh.dimension + 1)
        (stiffnessEntry (mesh.simplex cell).volume (mesh.simplex cell).gradients)) := by
  apply elementTensor_of_square hmesh hvolumetric hc
  · rw [(OnLinearElements.laplace mesh.shape).tensorSize_eq_ok, tensorEntries_laplace,
      Mesh.dimension]
  · intro values view hview
    unfold laplace
    dsimp only
    rw [hview, Checked.ok_bind, hmesh.dimension_simplex hc]
    exact if_pos rfl

/-- The tensor of a source: a share of the cell for a constant one, rows of the mass matrix times
the values at the vertices for a linear one. -/
theorem elementTensor_source (space : PiecewiseSpace) (values : Array α) :
    (source mesh.shape space).elementTensor mesh [values] cell =
      .ok (List.ofFn fun i : Fin (mesh.dimension + 1) =>
        space.sourceLoad mesh values cell i) := by
  have hdim := hmesh.dimension_simplex hc
  have htensor : (Vector.ofFn fun i : Fin (mesh.dimension + 1) =>
      space.sourceLoad mesh values cell i).toList =
        List.ofFn fun i : Fin (mesh.dimension + 1) => space.sourceLoad mesh values cell i :=
    Vector.toList_ofFn
  have hvalues : nodalValues ((source mesh.shape space).dofMaps.drop 1) mesh [values] cell =
      [(space.cellDofs mesh cell).map (values.getD · Scalar.zero)] := by
    rw [← space.cellNodes_dofMap hmesh hc]
    rfl
  have hentry : Index.entry [(space.cellDofs mesh cell).map (values.getD · Scalar.zero)] 0 =
      .ok ((space.cellDofs mesh cell).map (values.getD · Scalar.zero)) := rfl
  have hsize : (source mesh.shape space : Form α).tensorSize = .ok (mesh.dimension + 1) := by
    rw [(OnLinearElements.source mesh.shape space).tensorSize_eq_ok, tensorEntries_source,
      Mesh.dimension]
  rw [← htensor]
  apply elementTensor_eq_ok hmesh hvolumetric hc hsize
  intro view hview
  have hrank : (source mesh.shape space : Form α).rank = 1 := rfl
  rw [hrank, hvalues]
  unfold source
  dsimp only
  rw [hview, Checked.ok_bind, hentry, Checked.ok_bind, hdim, if_neg (not_not.mpr rfl)]
  cases space with
  | constant =>
      have hvalue : Index.entry ((PiecewiseSpace.constant.cellDofs mesh cell).map
          (values.getD · Scalar.zero)) 0 = .ok (values.getD cell Scalar.zero) := rfl
      rw [hvalue, Checked.ok_bind]
      apply congrArg Except.ok
      apply Vector.ext
      intro i hi
      rw [Vector.getElem_replicate, Vector.getElem_ofFn]
      rfl
  | linear =>
      have hlength : ((PiecewiseSpace.linear.cellDofs mesh cell).map
          (values.getD · Scalar.zero)).length = mesh.dimension + 1 := by
        rw [List.length_map]
        exact hmesh.length_vertexList hc
      have htake := List.take_of_length_le (Nat.le_of_eq hlength)
      rw [Index.split_of_le (Nat.le_of_eq hlength.symm), Checked.ok_bind, htake]
      rfl

theorem elementTensor_integral (space : PiecewiseSpace) (values : Array α) :
    (integral mesh.shape space).elementTensor mesh [values] cell =
      .ok [(mesh.simplex cell).volume *
        mean ((space.cellDofs mesh cell).map (values.getD · Scalar.zero))] := by
  have hvalues : nodalValues ((integral mesh.shape space).dofMaps.drop 0) mesh [values] cell =
      [(space.cellDofs mesh cell).map (values.getD · Scalar.zero)] := by
    rw [← space.cellNodes_dofMap hmesh hc]
    rfl
  have htensor : ((Vector.replicate 1 Scalar.zero).set 0 ((mesh.simplex cell).volume *
      mean ((space.cellDofs mesh cell).map (values.getD · Scalar.zero)))).toList =
        [(mesh.simplex cell).volume *
          mean ((space.cellDofs mesh cell).map (values.getD · Scalar.zero))] := rfl
  rw [← htensor]
  apply elementTensor_eq_ok hmesh hvolumetric hc rfl
  intro view hview
  have hrank : (integral mesh.shape space : Form α).rank = 0 := rfl
  rw [hrank, hvalues, computeTensor_integral _ _ Nat.one_pos _ _ hview]

end Tensors

/-! ## Acceptance -/

omit [Scalar α] in
/-- The sizes of all spaces of a form have been computed once the arguments have theirs. -/
theorem exists_globalDimension_of_prepare {form : Form α} {mesh : Mesh α}
    {coefficients : List (Array α)} {policy : FinitenessPolicy} {rank : Nat} {sizes : List Nat}
    (h : Assembly.prepare ⟨form, mesh, coefficients, policy⟩ rank = .ok sizes) :
    ∀ map ∈ form.dofMaps, ∃ n, map.globalDimension mesh.entityCounts = .ok n := by
  obtain ⟨_, hfit, hsizes⟩ := Checked.bind_eq_ok_iff.mp h
  obtain ⟨hrank, hlength, hlengths⟩ := checkFit_eq_ok hfit
  obtain ⟨maps, hmaps, hall⟩ := Checked.bind_eq_ok_iff.mp (Failure.lift_eq_ok_iff.mp hsizes)
  rw [argumentMaps_eq_ok hmaps, hrank] at hall
  intro map hmap
  -- arguments are sized for the tensor, coefficients in the check of their lengths
  rw [← List.take_append_drop rank form.dofMaps, List.mem_append] at hmap
  rcases hmap with htake | hdrop
  · obtain ⟨i, hi, rfl⟩ := List.getElem_of_mem htake
    have hforall := List.forall₂_iff_get.mp (Checked.mapM_eq_ok_iff.mp hall)
    exact ⟨_, hforall.2 i hi (hforall.1 ▸ hi)⟩
  · obtain ⟨i, hi, rfl⟩ := List.getElem_of_mem hdrop
    have hcount : coefficients.length = (form.dofMaps.drop rank).length := by
      rw [List.length_drop, hlength, Nat.add_sub_cancel_left]
    have hzip : i < (coefficients.zip (form.dofMaps.drop rank)).length := by
      rw [List.length_zip, hcount, Nat.min_self]
      exact hi
    have hpair := hlengths _ (List.getElem_mem hzip)
    rw [List.getElem_zip] at hpair
    exact ⟨_, hpair⟩

/-- An accepted form on linear elements tabulates the tensors that it computes if its spaces can be
numbered. -/
theorem OnLinearElements.tabulates {form : Form α} (h : form.OnLinearElements) {mesh : Mesh α}
    (hmesh : mesh.WellFormed) {kind : TensorKind} {coefficients : List (Array α)}
    (haccepted : Request.Accepted ⟨kind, form, mesh, coefficients⟩)
    (hnumbering : ∀ map ∈ form.dofMaps, ∃ n, map.globalDimension mesh.entityCounts = .ok n)
    {tensor : Nat → List α} (htensor : ∀ cell < mesh.numCells,
      form.elementTensor mesh coefficients cell = .ok (tensor cell)) :
    form.Tabulates mesh coefficients tensor where
  wellFormed := hmesh
  fit := by
    have hcount : form.rank + form.numCoefficients < Index.bound :=
      Nat.lt_of_le_of_lt h.rank_add_numCoefficients_le (by decide)
    have hrank : form.rank = kind.rank := haccepted.rank
    rw [hrank]
    exact (Request.checkFit_eq_ok_iff hcount).mpr haccepted
  rank_le := Nat.le_of_add_right_le h.rank_add_numCoefficients_le
  numbering := by
    intro map hmap
    obtain ⟨shape, hon⟩ := h.exists_isOn map hmap
    exact ⟨DofMap.isOn_of_dimension_eq hon (haccepted.dimensions map hmap), hnumbering map hmap⟩
  size_lt := fun map hmap => Nat.lt_of_le_of_lt (h.size_le map hmap) (by decide)
  entries_lt := Nat.lt_of_le_of_lt h.tensorEntries_le (by decide)
  elementTensor_eq := htensor

end Form
end FiniteElement
