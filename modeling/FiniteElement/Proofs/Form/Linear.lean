import Mathlib
import FiniteElement.Catalogue
import FiniteElement.Proofs.Assembly.Sizing
import FiniteElement.Proofs.Mesh.CellGeometry

/-! # Forms that are total

A form is total on a mesh if it computes its tensor on every cell from buffers
of the lengths that its description promises. Only meshes that fill their space
and have cells of the dimension of the dof maps count, since the others are
rejected. All forms on linear elements are total.
-/

namespace FiniteElement

variable {α : Type} [Scalar α]

theorem PiecewiseSpace.isOn_dofMap (space : PiecewiseSpace) (shape : Shape) :
    (space.dofMap shape : DofMap α).IsOn shape := by
  cases space <;> cases shape <;> exact DofMap.isOn_single.mpr ⟨rfl, rfl⟩

/-! ## Total forms -/

namespace Form

/-- The form computes its tensor on every cell of a mesh that it may be accepted on. -/
def IsTotalOn (form : Form α) (mesh : Mesh α) : Prop :=
  mesh.geometricDimension = mesh.dimension →
  (∀ map ∈ form.dofMaps, map.dimension = mesh.dimension) →
  form.dofMaps.length = form.rank + form.numCoefficients →
  ∀ cell < mesh.numCells, ∀ view coordinates, mesh.view cell #[] = .ok (view, coordinates) →
  ∀ (tensor : Vector α form.tensorEntries) (values : List (List α)),
    BuffersOf (form.dofMaps.drop form.rank) values →
    ∃ computed, form.computeTensor tensor values view = .ok computed

theorem size_p1 (shape : Shape) :
    (DofMap.single (LayoutMap.p1 shape) : DofMap α).size = shape.dimension + 1 := by
  cases shape <;> rfl

theorem tensorEntries_integral (shape : Shape) (space : PiecewiseSpace) :
    (integral shape space : Form α).tensorEntries = 1 := by
  have hrank : (integral shape space : Form α).rank = 0 := rfl
  rw [tensorEntries, hrank, List.take_zero]
  rfl

theorem computeTensor_integral (shape : Shape) (space : PiecewiseSpace) {n : Nat} (hn : 0 < n)
    (tensor : Vector α n) (own : List α) {view : CellView α} {simplex : AffineCell α}
    (hsimplex : AffineCell.ofCell view = .ok simplex) :
    (integral shape space).computeTensor tensor [own] view =
      .ok (tensor.set 0 (simplex.volume * mean own) hn) := by
  have hentry : Index.entry [own] 0 = .ok own := rfl
  unfold integral
  dsimp only
  rw [hsimplex, Checked.ok_bind, hentry, Checked.ok_bind]
  exact dif_pos hn

section Linear

variable {mesh : Mesh α} (hmesh : mesh.WellFormed) (shape : Shape)

include hmesh

/-- A matrix of linear elements is total if it is computed from the geometry of the cell alone. -/
theorem isTotalOn_of_square {form : Form α} (hrank : form.rank = 2)
    (hmaps : form.dofMaps = [.single (LayoutMap.p1 shape), .single (LayoutMap.p1 shape)])
    (hcompute : ∀ {n : Nat} (tensor : Vector α n) values view (simplex : AffineCell α),
      AffineCell.ofCell view = .ok simplex →
      n = (simplex.dimension + 1) * (simplex.dimension + 1) →
      ∃ computed, form.computeTensor tensor values view = .ok computed) :
    form.IsTotalOn mesh := by
  intro hvolumetric hdims _ cell hc view coordinates hview tensor values _
  have hsimplex := hmesh.ofCell_view_eq_ok hvolumetric hc hview
  have hdim := hmesh.dimension_simplex hc
  have hmem : DofMap.single (LayoutMap.p1 shape) ∈ form.dofMaps := by
    rw [hmaps]
    exact List.mem_cons_self
  have hshape : shape.dimension = mesh.dimension := hdims _ hmem
  apply hcompute tensor values view (mesh.simplex cell) hsimplex
  rw [tensorEntries_of_rank_two hrank hmaps, size_p1, hshape, hdim]

theorem mass_isTotalOn : (mass shape : Form α).IsTotalOn mesh := by
  apply isTotalOn_of_square hmesh shape rfl rfl
  intro n tensor values view simplex hsimplex hn
  unfold mass
  dsimp only
  rw [hsimplex, Checked.ok_bind]
  exact ⟨_, if_pos hn⟩

theorem laplace_isTotalOn : (laplace shape : Form α).IsTotalOn mesh := by
  apply isTotalOn_of_square hmesh shape rfl rfl
  intro n tensor values view simplex hsimplex hn
  unfold laplace
  dsimp only
  rw [hsimplex, Checked.ok_bind]
  exact ⟨_, if_pos hn⟩

omit hmesh in
theorem exists_computeTensor_source {space : PiecewiseSpace} {n : Nat} (tensor : Vector α n)
    {own : List α} (hlength : own.length = (space.dofMap shape : DofMap α).size)
    {view : CellView α} {simplex : AffineCell α} (hsimplex : AffineCell.ofCell view = .ok simplex)
    (hdim : simplex.dimension = shape.dimension) (hn : n = simplex.dimension + 1) :
    ∃ computed, (source shape space).computeTensor tensor [own] view = .ok computed := by
  have hentry : Index.entry [own] 0 = .ok own := rfl
  unfold source
  dsimp only
  rw [hsimplex, Checked.ok_bind, hentry, Checked.ok_bind, if_neg (not_not.mpr hn)]
  cases space with
  | constant =>
      have hpos : 0 < own.length := by
        have hone : (PiecewiseSpace.constant.dofMap shape : DofMap α).size = 1 := by
          cases shape <;> rfl
        omega
      rw [Index.entry_of_lt hpos]
      exact ⟨_, rfl⟩
  | linear =>
      have hsplit : simplex.dimension + 1 ≤ own.length := by
        have hsize : (PiecewiseSpace.linear.dofMap shape : DofMap α).size =
            shape.dimension + 1 := size_p1 shape
        omega
      dsimp only
      rw [Index.split_of_le hsplit]
      exact ⟨_, rfl⟩

theorem source_isTotalOn (space : PiecewiseSpace) :
    (source shape space : Form α).IsTotalOn mesh := by
  intro hvolumetric hdims _ cell hc view coordinates hview tensor values hvalues
  have hsimplex := hmesh.ofCell_view_eq_ok hvolumetric hc hview
  have hdim := hmesh.dimension_simplex hc
  have hshape : shape.dimension = mesh.dimension := hdims _ List.mem_cons_self
  have hentries : (source shape space : Form α).tensorEntries =
      (mesh.simplex cell).dimension + 1 := by
    rw [hdim, ← hshape, ← size_p1 (α := α) shape]
    exact List.prod_singleton
  obtain ⟨own, rfl, hlength⟩ : ∃ own, values = [own] ∧ own.length = (space.dofMap shape).size :=
    BuffersOf.exists_of_singleton hvalues
  exact exists_computeTensor_source shape tensor hlength hsimplex (hdim.trans hshape.symm) hentries

theorem integral_isTotalOn (space : PiecewiseSpace) :
    (integral shape space : Form α).IsTotalOn mesh := by
  intro hvolumetric _ _ cell hc view coordinates hview tensor values hvalues
  have hsimplex := hmesh.ofCell_view_eq_ok hvolumetric hc hview
  have hentries : 0 < (integral shape space : Form α).tensorEntries := by
    rw [tensorEntries_integral]
    exact Nat.one_pos
  obtain ⟨own, rfl, -⟩ : ∃ own, values = [own] ∧ own.length = (space.dofMap shape).size :=
    BuffersOf.exists_of_singleton hvalues
  exact ⟨_, computeTensor_integral shape space hentries tensor own hsimplex⟩

end Linear

inductive OnLinearElements : Form α → Prop where
  | mass (shape : Shape) : OnLinearElements (mass shape)
  | laplace (shape : Shape) : OnLinearElements (laplace shape)
  | source (shape : Shape) (space : PiecewiseSpace) : OnLinearElements (source shape space)
  | integral (shape : Shape) (space : PiecewiseSpace) : OnLinearElements (integral shape space)

theorem OnLinearElements.isTotalOn {form : Form α} (h : form.OnLinearElements) {mesh : Mesh α}
    (hmesh : mesh.WellFormed) : form.IsTotalOn mesh := by
  cases h with
  | mass shape => exact mass_isTotalOn hmesh shape
  | laplace shape => exact laplace_isTotalOn hmesh shape
  | source shape space => exact source_isTotalOn hmesh shape space
  | integral shape space => exact integral_isTotalOn hmesh shape space

theorem OnLinearElements.exists_isOn {form : Form α} (h : form.OnLinearElements) :
    ∀ map ∈ form.dofMaps, ∃ shape, map.IsOn shape := by
  have hvertices : ∀ shape, (DofMap.single (LayoutMap.p1 shape) : DofMap α).IsOn shape :=
    PiecewiseSpace.linear.isOn_dofMap
  cases h with
  | mass shape =>
      intro map hmap
      rw [List.eq_of_mem_replicate (n := 2) hmap]
      exact ⟨shape, hvertices shape⟩
  | laplace shape =>
      intro map hmap
      rw [List.eq_of_mem_replicate (n := 2) hmap]
      exact ⟨shape, hvertices shape⟩
  | source shape space =>
      refine List.forall_mem_cons.mpr ⟨⟨shape, hvertices shape⟩, ?_⟩
      exact List.forall_mem_singleton.mpr ⟨shape, space.isOn_dofMap shape⟩
  | integral shape space => exact List.forall_mem_singleton.mpr ⟨shape, space.isOn_dofMap shape⟩

end Form
end FiniteElement
