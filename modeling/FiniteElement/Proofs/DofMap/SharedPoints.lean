import Mathlib
import FiniteElement.Proofs.DofMap.FacetDofs
import FiniteElement.Proofs.DofMap.GlobalNumbering
import FiniteElement.Proofs.DofMap.Points
import FiniteElement.Proofs.Mesh.CellGeometry
import FiniteElement.Proofs.Samples

/-! # Points of degrees of freedom

A degree of freedom of a supported element lies in the barycenter of vertices of
its cell. Affine maps keep barycenters, so that cells which share a degree of
freedom write the same point for it.
-/

namespace FiniteElement

/-! ## Where the degrees of freedom lie

The reference points of a supported element are listed in the order in which its
degrees of freedom are numbered, each in the barycenter of the vertices of its
entity, or, for discontinuous linear functions, in a vertex of the cell. The
affine map of a cell keeps barycenters, so that a degree of freedom of a mesh has
the same point on all cells that share it.
-/

/-! ### Reference points -/

namespace DofLayout

variable {α : Type}

/-- Discontinuous linear functions, whose degrees of freedom lie in the vertices of their cell. -/
def IsDiscontinuousLinear (layout : DofLayout α) : Prop :=
  layout.family = .discontinuousLagrange ∧ layout.degree = 1

instance (layout : DofLayout α) : Decidable layout.IsDiscontinuousLinear :=
  inferInstanceAs (Decidable (_ ∧ _))

def around (layout : DofLayout α) (dof : Dof) : List Nat :=
  if layout.IsDiscontinuousLinear then [dof.position]
  else (layout.shape.entities dof.dim).getD dof.entity []

end DofLayout

namespace LayoutMap

variable {map : LayoutMap Rat} {family : ElementFamily} {shape : Shape} {degree : Nat}

theorem isOn_of_ofElement {α : Type} [Scalar α] {map : LayoutMap α}
    (h : DofLayout.ofElement family shape degree = .ok map.layout) : map.IsOn shape := by
  have hshape : map.layout.shape = shape := by
    generalize map.layout = layout at h
    unfold DofLayout.ofElement at h
    split at h <;> cases h <;> rfl
  exact ⟨hshape, hshape ▸ DofLayout.ofElement_covers h⟩

/-- The reference points of a supported element, in the order of its degrees of freedom. -/
theorem points_eq (h : DofLayout.ofElement family shape degree = .ok map.layout) (leaf : Nat) :
    map.layout.points = (map.localDofs leaf).map fun dof =>
      (Shape.barycenter (map.layout.around dof)).toList.take map.layout.shape.dimension := by
  have hleaf : (map.localDofs leaf).map (fun dof =>
      (Shape.barycenter (map.layout.around dof)).toList.take map.layout.shape.dimension) =
        (map.localDofs 0).map fun dof =>
          (Shape.barycenter (map.layout.around dof) : Vec3 Rat).toList.take
            map.layout.shape.dimension := by
    simp only [localDofs, List.map_flatMap, List.map_map]
    rfl
  rw [hleaf, localDofs]
  generalize map.layout = layout at h
  unfold DofLayout.ofElement at h
  split at h <;> cases h <;> cases shape <;> decide +kernel

theorem length_points (h : DofLayout.ofElement family shape degree = .ok map.layout) :
    map.layout.points.length = map.localDimension := by
  rw [points_eq h 0, List.length_map, length_localDofs, localDimension]

theorem mem_localDofs_zero {leaf : Nat} {dof : Dof} (h : dof ∈ map.localDofs leaf) :
    { dof with leaf := 0 } ∈ map.localDofs 0 :=
  mem_localDofs_iff.mpr ⟨rfl, (mem_localDofs_iff.mp h).2⟩

structure IsPlace (shape : Shape) (vertices : List Nat) : Prop where
  nodup : vertices.Nodup
  ne_nil : vertices ≠ []
  lt_numVertices : ∀ v ∈ vertices, v < shape.numVertices

theorem isPlace_around (h : DofLayout.ofElement family shape degree = .ok map.layout) {leaf : Nat}
    {dof : Dof} (hdof : dof ∈ map.localDofs leaf) : IsPlace shape (map.layout.around dof) := by
  have hall : ∀ dof ∈ map.localDofs 0, (map.layout.around dof).Nodup ∧ map.layout.around dof ≠ [] ∧
      ∀ v ∈ map.layout.around dof, v < shape.numVertices := by
    rw [localDofs]
    generalize map.layout = layout at h
    unfold DofLayout.ofElement at h
    split at h <;> cases h <;> cases shape <;> decide +kernel
  obtain ⟨hnodup, hne, hlt⟩ := hall _ (mem_localDofs_zero hdof)
  exact ⟨hnodup, hne, hlt⟩

/-- Discontinuous linear functions have all their degrees of freedom in the cell itself. -/
theorem dim_eq_of_isDiscontinuousLinear
    (h : DofLayout.ofElement family shape degree = .ok map.layout)
    (hlinear : map.layout.IsDiscontinuousLinear) {leaf : Nat} {dof : Dof}
    (hdof : dof ∈ map.localDofs leaf) : dof.dim = shape.dimension := by
  have hall : map.layout.IsDiscontinuousLinear →
      ∀ dof ∈ map.localDofs 0, dof.dim = shape.dimension := by
    rw [localDofs]
    generalize map.layout = layout at h
    unfold DofLayout.ofElement at h
    split at h <;> cases h <;> cases shape <;> decide +kernel
  have hdim := hall hlinear _ (mem_localDofs_zero hdof)
  exact hdim

/-- The images of the reference points are those of barycenters of vertices. -/
theorem images_eq (h : DofLayout.ofElement family shape degree = .ok map.layout) (leaf : Nat)
    {simplex : AffineCell Rat} (hdim : simplex.dimension = shape.dimension) :
    map.images simplex = (map.localDofs leaf).map fun dof =>
      (simplex.image (Shape.barycenter (map.layout.around dof))).toList.take simplex.dimension := by
  rw [images, points_eq h leaf, List.map_map]
  apply List.map_congr_left
  intro dof hdof
  have hle : ∀ v ∈ map.layout.around dof, v ≤ shape.dimension := fun v hv =>
    Nat.le_of_lt_succ ((isPlace_around h hdof).lt_numVertices v hv)
  rw [Function.comp_apply, (isOn_of_ofElement h).1, ← hdim, List.take_take, Nat.min_self, hdim,
    Shape.ofList_take_barycenter hle]

end LayoutMap

/-! ## Points of shared degrees of freedom

The points that a space writes for a cell are where the owners of its degrees of
freedom put them: in the barycenter of the vertices of an entity, or in a vertex
of the cell. Cells with a common index have the owner in common, so that they
write the same point, although each does so with its own affine map.
-/

/-! ### Points of a cell -/

namespace Mesh

variable {mesh : Mesh Rat} {cell : Nat}

def barycenter (mesh : Mesh Rat) (vertices : Finset Nat) : List Rat :=
  (Vec3.barycenter vertices mesh.position).toList.take mesh.geometricDimension

theorem length_barycenter (h : mesh.geometricDimension ≤ 3) (vertices : Finset Nat) :
    (mesh.barycenter vertices).length = mesh.geometricDimension := by
  rw [barycenter, List.length_take]
  exact Nat.min_eq_left h

theorem WellFormed.barycenter_singleton (hmesh : mesh.WellFormed)
    (hspace : mesh.geometricDimension ≤ 3) {v : Nat} (hv : v < mesh.numVertices) :
    mesh.vertex v = .ok (mesh.barycenter {v}) := by
  have hpoint : (mesh.points.getD v []).length = mesh.geometricDimension := by
    apply hmesh.length_point
    rw [Array.getD_eq_getD_getElem?, Array.getElem?_eq_getElem hv, Option.getD_some]
    exact Array.getElem_mem hv
  rw [vertex_eq_ok hv, barycenter, Vec3.barycenter_singleton, position, ← hpoint,
    Vec3.take_toList_ofList (hpoint ▸ hspace)]

/-- The affine map of a cell takes the barycenter of a place to that of its vertices. -/
theorem WellFormed.image_barycenter (hmesh : mesh.WellFormed) (hc : cell < mesh.numCells)
    {place : List Nat} (hplace : LayoutMap.IsPlace mesh.shape place) :
    ((mesh.simplex cell).image (Shape.barycenter place)).toList.take mesh.geometricDimension =
      mesh.barycenter (globalVertices (mesh.vertexList cell) place).toFinset := by
  have hlength := hmesh.length_vertexList hc
  have hle := mesh.shape.dimension_le_three
  rw [dimension] at hlength
  rw [simplex, AffineCell.image_barycenter (hmesh.nodup_vertexList hc) (by omega) hplace.nodup
    hplace.ne_nil fun v hv => hlength ▸ hplace.lt_numVertices v hv]
  rfl

end Mesh

namespace DofMap

def tabulatePoints {α : Type} [Scalar α] (map : DofMap α) (mesh : Mesh α) (cell : Nat)
    (buffer : List α) : Except Fault (List α) := do
  let (view, _) ← mesh.view cell #[]
  map.writePoints view buffer

def IsSupported {α : Type} [Scalar α] (map : DofMap α) (shape : Shape) : Prop :=
  ∀ leaf ∈ map.leaves, ∃ family degree, DofLayout.ofElement family shape degree = .ok leaf.layout

def around {α : Type} (map : DofMap α) (dof : Dof) : List Nat :=
  map.leaves[dof.leaf]?.elim [] fun leaf => leaf.layout.around dof

variable {mesh : Mesh Rat} {map : DofMap Rat} {cell : Nat}

theorem IsSupported.isOn {α : Type} [Scalar α] {map : DofMap α} {shape : Shape}
    (h : map.IsSupported shape) : map.IsOn shape := by
  intro leaf hleaf
  obtain ⟨family, degree, helement⟩ := h leaf hleaf
  exact LayoutMap.isOn_of_ofElement helement

theorem exists_leaf {α : Type} {map : DofMap α} {dof : Dof} (h : dof ∈ map.localDofs) :
    ∃ leaf, map.leaves[dof.leaf]? = some leaf ∧ dof ∈ leaf.localDofs dof.leaf := by
  obtain ⟨leaf, n, hleaf, hn, hentity, hposition⟩ := mem_localDofs_iff.mp h
  exact ⟨leaf, hleaf, LayoutMap.mem_localDofs_iff.mpr ⟨rfl, n, hn, hentity, hposition⟩⟩

theorem around_eq {α : Type} {map : DofMap α} {dof : Dof} {leaf : LayoutMap α}
    (h : map.leaves[dof.leaf]? = some leaf) : map.around dof = leaf.layout.around dof := by
  rw [around, h]
  rfl

/-- What is listed leaf by leaf is listed by the local degrees of freedom. -/
theorem flatMap_leaves_eq {α β : Type} {map : DofMap α} {entries : LayoutMap α → List β}
    {entry : Dof → List β}
    (h : ∀ i leaf, map.leaves[i]? = some leaf →
      entries leaf = ((leaf.localDofs i).map entry).flatten) :
    map.leaves.flatMap entries = (map.localDofs.map entry).flatten := by
  have hleaves : map.leaves = map.leaves.zipIdx.map Prod.fst := (List.zipIdx_map_fst 0 _).symm
  rw [hleaves, List.flatMap_map, ← List.flatMap_def, localDofs, List.flatMap_assoc]
  apply List.flatMap_congr
  rintro ⟨leaf, i⟩ hmem
  rw [h i leaf (List.mem_zipIdx_iff_getElem?.mp hmem), List.flatMap_def]

theorem tabulatePoints_eq_ok (hmesh : mesh.WellFormed)
    (hvolumetric : mesh.geometricDimension = mesh.dimension) (hmap : map.IsSupported mesh.shape)
    (hlocal : map.size < Index.bound) (hc : cell < mesh.numCells) {buffer : List Rat}
    (hroom : buffer.length = mesh.geometricDimension * map.size) :
    map.tabulatePoints mesh cell buffer = .ok (map.localDofs.map fun dof => mesh.barycenter
      (globalVertices (mesh.vertexList cell) (map.around dof)).toFinset).flatten := by
  obtain ⟨view, coordinates, hview, -, hspace, -⟩ := hmesh.exists_view hc #[]
  have hsimplex := hmesh.ofCell_view_eq_ok hvolumetric hc hview
  have hdim : (mesh.simplex cell).dimension = mesh.dimension := hmesh.dimension_simplex hc
  have hleaves : ∀ leaf ∈ map.leaves, ∀ own : List Rat,
      own.length = view.geometricDimension * leaf.localDimension →
        leaf.writePoints view own = .ok (leaf.images (mesh.simplex cell)).flatten := by
    intro leaf hleaf own hown
    obtain ⟨family, degree, helement⟩ := hmap leaf hleaf
    apply LayoutMap.writePoints_of_length_eq hsimplex _ (LayoutMap.length_points helement) hown
    rw [hdim, (hmap.isOn leaf hleaf).1, Mesh.dimension]
  have hwrite : map.writePoints view buffer = _ :=
    writePoints_eq_ok hleaves hlocal (by rw [hroom, hspace])
  rw [tabulatePoints, hview, Checked.ok_bind]
  refine hwrite.trans (congrArg Except.ok ?_)
  apply flatMap_leaves_eq
  intro i leaf hleaf
  obtain ⟨family, degree, helement⟩ := hmap leaf (List.mem_of_getElem? hleaf)
  rw [LayoutMap.images_eq helement i hdim]
  congr 1
  apply List.map_congr_left
  intro dof hdof
  have hindex := (LayoutMap.mem_localDofs_iff.mp hdof).1
  rw [hdim, ← hvolumetric, hmesh.image_barycenter hc (LayoutMap.isPlace_around helement hdof),
    around_eq (hindex ▸ hleaf)]

theorem length_of_mem_barycenters (map : DofMap Rat)
    (hvolumetric : mesh.geometricDimension = mesh.dimension) (vertices : Dof → Finset Nat) :
    ∀ row ∈ map.localDofs.map fun dof => mesh.barycenter (vertices dof),
      row.length = mesh.geometricDimension := by
  intro row hrow
  obtain ⟨dof, -, heq⟩ := List.mem_map.mp hrow
  rw [← heq, Mesh.length_barycenter]
  rw [hvolumetric]
  exact mesh.shape.dimension_le_three

end DofMap

/-! ### Owners of degrees of freedom -/

namespace Mesh

/-- Where the owner of a local degree of freedom of a cell puts it: in the barycenter of the
vertices of its entity, or, for discontinuous linear functions, in the vertex of the cell of the
same number. -/
def IsPointOf (mesh : Mesh Rat) (cell : Nat) (layout : DofLayout Rat) (dof : Dof)
    (point : List Rat) : Prop :=
  if layout.IsDiscontinuousLinear then
    ∃ vertices v, mesh.cellVertices cell = .ok vertices ∧ vertices[dof.position]? = some v ∧
      mesh.vertex v = .ok point
  else
    ∃ vertices : Finset Nat, (vertices : Set Nat) = mesh.entityVertices cell dof.dim dof.entity ∧
      point = mesh.barycenter vertices

variable {mesh : Mesh Rat} {cell cell' : Nat} {leaf : LayoutMap Rat} {dof dof' : Dof}

theorem WellFormed.isPointOf (hmesh : mesh.WellFormed) (hspace : mesh.geometricDimension ≤ 3)
    (hc : cell < mesh.numCells) {family : ElementFamily} {degree : Nat}
    (helement : DofLayout.ofElement family mesh.shape degree = .ok leaf.layout)
    (hdof : dof ∈ leaf.localDofs dof.leaf) :
    mesh.IsPointOf cell leaf.layout dof (mesh.barycenter
      (globalVertices (mesh.vertexList cell) (leaf.layout.around dof)).toFinset) := by
  have hplace := LayoutMap.isPlace_around helement hdof
  obtain ⟨hshape, hlength⟩ := LayoutMap.isOn_of_ofElement helement
  unfold IsPointOf
  by_cases hlinear : leaf.layout.IsDiscontinuousLinear
  · rw [if_pos hlinear]
    rw [DofLayout.around, if_pos hlinear] at hplace ⊢
    have hlt : dof.position < (mesh.vertexList cell).length := by
      rw [hmesh.length_vertexList hc]
      exact hplace.lt_numVertices _ List.mem_cons_self
    refine ⟨mesh.vertexList cell, (mesh.vertexList cell)[dof.position], cellVertices_eq_ok hc,
      List.getElem?_eq_getElem hlt, ?_⟩
    have hvertex : (globalVertices (mesh.vertexList cell) [dof.position]).toFinset =
        {(mesh.vertexList cell)[dof.position]} := by
      simp [globalVertices, hlt]
    rw [hvertex]
    exact hmesh.barycenter_singleton hspace
      (hmesh.lt_of_mem_vertexList hc (List.getElem_mem hlt))
  · rw [if_neg hlinear, DofLayout.around, if_neg hlinear]
    refine ⟨_, ?_, rfl⟩
    obtain ⟨-, n, hn, hentity, -⟩ := LayoutMap.mem_localDofs_iff.mp hdof
    have hdim := (List.getElem?_eq_some_iff.mp hn).1
    rw [hlength] at hdim
    rw [hshape] at hentity ⊢
    have hget := List.getElem?_eq_getElem hentity
    rw [hmesh.entityVertices_eq (Nat.le_of_lt_succ hdim)
      (cellVertices_eq_ok_iff.mp (cellVertices_eq_ok hc)) hget, List.coe_toFinset,
      List.getD_eq_getElem?_getD, hget, Option.getD_some]

/-- The same entity has the same vertices in both cells. -/
theorem entityVertices_eq_of_sameEntity {dim index index' : Nat} (hdim : dim ≤ mesh.dimension)
    (hindex : index < mesh.shape.numEntities dim) (hindex' : index' < mesh.shape.numEntities dim)
    (h : mesh.SameEntity dim cell index cell' index') :
    mesh.entityVertices cell dim index = mesh.entityVertices cell' dim index' := by
  unfold SameEntity at h
  rcases Nat.lt_or_eq_of_le hdim with hlt | heq
  · rwa [if_pos hlt] at h
  · rw [if_neg (heq ▸ Nat.lt_irrefl _)] at h
    have hone := mesh.shape.numEntities_dimension
    rw [heq, dimension] at hindex hindex'
    have hsame : index = index' := by omega
    rw [h, hsame]

/-- The owner of a degree of freedom puts it in one point, on whichever cell it is met. -/
theorem IsPointOf.eq {family : ElementFamily} {degree : Nat}
    (helement : DofLayout.ofElement family mesh.shape degree = .ok leaf.layout)
    (hdof : dof ∈ leaf.localDofs dof.leaf) (hdof' : dof' ∈ leaf.localDofs dof'.leaf)
    (hposition : dof.position = dof'.position) (hdim : dof.dim = dof'.dim)
    (hentity : mesh.SameEntity dof.dim cell dof.entity cell' dof'.entity) {point point' : List Rat}
    (h : mesh.IsPointOf cell leaf.layout dof point)
    (h' : mesh.IsPointOf cell' leaf.layout dof' point') : point = point' := by
  obtain ⟨hshape, hlength⟩ := LayoutMap.isOn_of_ofElement helement
  obtain ⟨-, n, hn, hindex, -⟩ := LayoutMap.mem_localDofs_iff.mp hdof
  obtain ⟨-, -, -, hindex', -⟩ := LayoutMap.mem_localDofs_iff.mp hdof'
  have hle := (List.getElem?_eq_some_iff.mp hn).1
  rw [hlength] at hle
  rw [hshape] at hindex hindex'
  unfold IsPointOf at h h'
  by_cases hlinear : leaf.layout.IsDiscontinuousLinear
  · rw [if_pos hlinear] at h h'
    have hcell := LayoutMap.dim_eq_of_isDiscontinuousLinear helement hlinear hdof
    rw [SameEntity, hcell, dimension, if_neg (Nat.lt_irrefl _)] at hentity
    obtain ⟨vertices, v, hvertices, hv, hpoint⟩ := h
    obtain ⟨vertices', v', hvertices', hv', hpoint'⟩ := h'
    rw [hentity, hvertices', Except.ok.injEq] at hvertices
    rw [← hvertices, hposition, hv', Option.some.injEq] at hv
    rw [← hv, hpoint', Except.ok.injEq] at hpoint
    exact hpoint.symm
  · rw [if_neg hlinear] at h h'
    obtain ⟨vertices, hvertices, hpoint⟩ := h
    obtain ⟨vertices', hvertices', hpoint'⟩ := h'
    have hsame := entityVertices_eq_of_sameEntity (Nat.le_of_lt_succ hle) hindex
      (hdim ▸ hindex') hentity
    rw [← hdim, ← hsame, ← hvertices, Finset.coe_inj] at hvertices'
    rw [hpoint, hpoint', hvertices']

end Mesh

namespace DofMap

variable {mesh : Mesh Rat} {map : DofMap Rat} {cell cell' : Nat}

def pointAt (mesh : Mesh Rat) (points : List Rat) (i : Nat) : List Rat :=
  (points.drop (mesh.geometricDimension * i)).take mesh.geometricDimension

/-- The points of a cell are where the owners of its degrees of freedom put them. -/
theorem exists_tabulatePoints (hmesh : mesh.WellFormed)
    (hvolumetric : mesh.geometricDimension = mesh.dimension) (hmap : map.IsSupported mesh.shape)
    (hlocal : map.size < Index.bound) (hc : cell < mesh.numCells) {buffer : List Rat}
    (hroom : buffer.length = mesh.geometricDimension * map.size) :
    ∃ points, map.tabulatePoints mesh cell buffer = .ok points ∧
      points.length = mesh.geometricDimension * map.size ∧
      ∀ i dof leaf, map.localDofs[i]? = some dof → map.leaves[dof.leaf]? = some leaf →
        mesh.IsPointOf cell leaf.layout dof (pointAt mesh points i) := by
  have hspace : mesh.geometricDimension ≤ 3 := by
    rw [hvolumetric]
    exact mesh.shape.dimension_le_three
  have hrows := length_of_mem_barycenters map hvolumetric fun dof =>
    (globalVertices (mesh.vertexList cell) (map.around dof)).toFinset
  refine ⟨_, tabulatePoints_eq_ok hmesh hvolumetric hmap hlocal hc hroom, ?_, ?_⟩
  · rw [length_flatten_of_length hrows, List.length_map, length_localDofs, Nat.mul_comm]
  · intro i dof leaf hdof hleaf
    obtain ⟨family, degree, helement⟩ := hmap leaf (List.mem_of_getElem? hleaf)
    obtain ⟨other, hother, hmem⟩ := exists_leaf (List.mem_of_getElem? hdof)
    rw [hleaf, Option.some.injEq] at hother
    rw [pointAt, take_drop_flatten hrows (by rw [List.getElem?_map, hdof, Option.map_some]),
      around_eq hleaf]
    exact hmesh.isPointOf hspace hc helement (hother ▸ hmem)

/-- Two cells that have a global index in common write the same point for it. -/
theorem exists_common_point (hmesh : mesh.WellFormed)
    (hvolumetric : mesh.geometricDimension = mesh.dimension) (hmap : map.IsSupported mesh.shape)
    (hlocal : map.size < Index.bound) (hc : cell < mesh.numCells) (hc' : cell' < mesh.numCells)
    {i i' : Nat} {dof dof' : Dof} (hdof : map.localDofs[i]? = some dof)
    (hdof' : map.localDofs[i']? = some dof')
    (hindex : map.globalIndex mesh.entityCounts (dof.onCell (mesh.localEntities cell)) =
      map.globalIndex mesh.entityCounts (dof'.onCell (mesh.localEntities cell')))
    {buffer buffer' : List Rat} (hroom : buffer.length = mesh.geometricDimension * map.size)
    (hroom' : buffer'.length = mesh.geometricDimension * map.size) :
    ∃ points points', map.tabulatePoints mesh cell buffer = .ok points ∧
      map.tabulatePoints mesh cell' buffer' = .ok points' ∧
      pointAt mesh points i = pointAt mesh points' i' := by
  have hmem := List.mem_of_getElem? hdof
  have hmem' := List.mem_of_getElem? hdof'
  obtain ⟨hleaves, hposition, hdim, hentity⟩ :=
    (globalIndex_onCell_eq_iff hmesh hmap.isOn hc hc' hmem hmem').mp hindex
  obtain ⟨points, hpoints, -, hplace⟩ :=
    exists_tabulatePoints hmesh hvolumetric hmap hlocal hc hroom
  obtain ⟨points', hpoints', -, hplace'⟩ :=
    exists_tabulatePoints hmesh hvolumetric hmap hlocal hc' hroom'
  obtain ⟨leaf, hleaf, hown⟩ := exists_leaf hmem
  obtain ⟨leaf', hleaf', hown'⟩ := exists_leaf hmem'
  have hsame : leaf' = leaf := by
    rw [← hleaves, hleaf, Option.some.injEq] at hleaf'
    exact hleaf'.symm
  rw [hsame] at hleaf' hown'
  obtain ⟨family, degree, helement⟩ := hmap leaf (List.mem_of_getElem? hleaf)
  exact ⟨points, points', hpoints, hpoints', Mesh.IsPointOf.eq helement hown hown' hposition hdim
    hentity (hplace i dof leaf hdof hleaf) (hplace' i' dof' leaf hdof' hleaf')⟩

/-- On an accepted mesh that fills its space, spaces of supported elements write the points of the
degrees of freedom of each cell. The point of a degree of freedom is the barycenter of the vertices
of the entity that has it, or a vertex of the cell for discontinuous linear functions; cells that
share the degree of freedom write the same point. -/
theorem points_of_shared_dofs {data : MeshData Rat} (h : Mesh.ofData data = .ok mesh)
    (hvolumetric : mesh.geometricDimension = mesh.dimension) (hmap : map.IsSupported mesh.shape) :
    (∀ cell < mesh.numCells, ∀ (n : Nat) (buffer : List Rat), map.localDimension = .ok n →
      buffer.length = mesh.geometricDimension * n →
      ∃ points, map.tabulatePoints mesh cell buffer = .ok points ∧
        points.length = mesh.geometricDimension * n ∧
        ∀ i < n, ∃ dof leaf, map.localDofs[i]? = some dof ∧ map.leaves[dof.leaf]? = some leaf ∧
          mesh.IsPointOf cell leaf.layout dof (pointAt mesh points i) ∧
          ∀ own nodes : List Nat, own.length = n → map.tabulate mesh cell own = .ok nodes →
            ∃ e, mesh.HasEntity cell dof.dim dof.entity e ∧
              nodes[i]? = some (map.globalIndex mesh.entityCounts { dof with entity := e })) ∧
    ∀ cell < mesh.numCells, ∀ cell' < mesh.numCells,
      ∀ (own own' nodes nodes' : List Nat) (i i' g : Nat),
      own.length = map.size → map.tabulate mesh cell own = .ok nodes → nodes[i]? = some g →
      own'.length = map.size → map.tabulate mesh cell' own' = .ok nodes' → nodes'[i']? = some g →
      ∀ buffer buffer' : List Rat, buffer.length = mesh.geometricDimension * map.size →
        buffer'.length = mesh.geometricDimension * map.size →
        ∃ points points', map.tabulatePoints mesh cell buffer = .ok points ∧
          map.tabulatePoints mesh cell' buffer' = .ok points' ∧
          pointAt mesh points i = pointAt mesh points' i' := by
  have hmesh := Mesh.wellFormed_of_ofData h
  have hon := hmap.isOn
  constructor
  · intro cell hc n buffer hn hroom
    obtain ⟨hlocal, hsize⟩ := Index.guard_eq_ok_iff.mp hn
    rw [← hsize] at hroom ⊢
    obtain ⟨points, hpoints, hlength, hplace⟩ :=
      exists_tabulatePoints hmesh hvolumetric hmap hlocal hc hroom
    refine ⟨points, hpoints, hlength, ?_⟩
    intro i hi
    rw [← length_localDofs] at hi
    have hdof : map.localDofs[i]? = some map.localDofs[i] := List.getElem?_eq_getElem hi
    obtain ⟨leaf, hleaf, -⟩ := exists_leaf (List.mem_of_getElem? hdof)
    refine ⟨_, leaf, hdof, hleaf, hplace i _ leaf hdof hleaf, ?_⟩
    intro own nodes hown hnodes
    have hcell := tabulate_eq_ok hmesh hon (sizeOn_lt_of_tabulate hon hnodes) hc hown
    rw [hnodes, Except.ok.injEq] at hcell
    refine ⟨_, (hmesh.hasEntity_onCell hon hc (List.mem_of_getElem? hdof)).2, ?_⟩
    rw [hcell, getElem?_cellNodes, hdof]
    rfl
  · intro cell hc cell' hc' own own' nodes nodes' i i' g hown hnodes hi hown' hnodes' hi' buffer
      buffer' hroom hroom'
    have hbound := sizeOn_lt_of_tabulate hon hnodes
    have hcell := tabulate_eq_ok hmesh hon hbound hc hown
    have hcell' := tabulate_eq_ok hmesh hon hbound hc' hown'
    rw [hnodes, Except.ok.injEq] at hcell
    rw [hnodes', Except.ok.injEq] at hcell'
    rw [hcell, getElem?_cellNodes, Option.map_eq_some_iff] at hi
    rw [hcell', getElem?_cellNodes, Option.map_eq_some_iff] at hi'
    obtain ⟨dof, hdof, hg⟩ := hi
    obtain ⟨dof', hdof', hg'⟩ := hi'
    have hlocal := Nat.lt_of_le_of_lt (size_le_sizeOn hmesh hon hc) hbound
    exact exists_common_point hmesh hvolumetric hmap hlocal hc hc' hdof hdof' (hg.trans hg'.symm)
      hroom hroom'

/-- Quadratic functions beside discontinuous linear and constant ones, on two triangles with a
common edge: the midpoint of the edge is written for both triangles. -/
theorem points_of_shared_dofs_of_two_triangles :
    let map : DofMap Rat := .mixed [.single (LayoutMap.p2 .triangle),
      .mixed [.single (Sample.dp1 .triangle), .single (LayoutMap.p0 .triangle)]]
    ∃ mesh : Mesh Rat,
      Mesh.ofData ⟨.triangle, 2, #[0, 0, 2, 0, 0, 1, 2, 1], #[0, 1, 2, 1, 3, 2]⟩ = .ok mesh ∧
      mesh.geometricDimension = mesh.dimension ∧ map.IsSupported mesh.shape ∧
      map.localDimension = .ok 10 ∧
      (map.cellNodes mesh 0)[3]? = (map.cellNodes mesh 1)[4]? ∧
      ∃ points points', map.tabulatePoints mesh 0 (List.replicate 20 0) = .ok points ∧
        map.tabulatePoints mesh 1 (List.replicate 20 0) = .ok points' ∧
        pointAt mesh points 3 = pointAt mesh points' 4 := by
  intro map
  let mesh := Sample.rectangle [1, 3, 2]
  have hperm : [1, 3, 2].Perm [1, 2, 3] := by decide
  have hdata := Sample.ofData_rectangle hperm
  have hmesh := Mesh.wellFormed_of_ofData hdata
  have hmap : map.IsSupported mesh.shape := by
    intro leaf hleaf
    have hcases : leaf = LayoutMap.p2 .triangle ∨ leaf = Sample.dp1 .triangle ∨
        leaf = LayoutMap.p0 .triangle := by
      simpa [map, leaves, allLeaves] using hleaf
    rcases hcases with heq | heq | heq
    · rw [heq]
      exact ⟨.lagrange, 2, rfl⟩
    · rw [heq]
      exact ⟨.discontinuousLagrange, 1, rfl⟩
    · rw [heq]
      exact ⟨.discontinuousLagrange, 0, rfl⟩
  have hlocal : map.localDimension = .ok 10 := rfl
  have hbound : sizeOn mesh.entityCounts map.leaves < Index.bound := by
    rw [Sample.entityCounts_rectangle hperm]
    decide
  -- the edge between vertices 1 and 2 comes first in one triangle and second in the other
  have hentity : mesh.SameEntity 1 0 0 1 1 := by
    rw [Mesh.SameEntity, if_pos (by decide)]
    exact Sample.entityVertices_rectangle hperm rfl
  have hdof : map.localDofs[3]? = some ⟨0, 1, 0, 0⟩ := rfl
  have hdof' : map.localDofs[4]? = some ⟨0, 1, 1, 0⟩ := rfl
  have hindex := (globalIndex_onCell_eq_iff hmesh hmap.isOn (by decide : 0 < mesh.numCells)
    (by decide : 1 < mesh.numCells) (List.mem_of_getElem? hdof)
    (List.mem_of_getElem? hdof')).mpr ⟨rfl, rfl, rfl, hentity⟩
  have hnode := map.getElem?_cellNodes mesh 0 3
  have hnode' := map.getElem?_cellNodes mesh 1 4
  rw [hdof, Option.map_some] at hnode
  rw [hdof', Option.map_some, ← hindex] at hnode'
  have hroom : (List.replicate 10 0).length = map.size := rfl
  obtain ⟨-, hshared⟩ := points_of_shared_dofs hdata rfl hmap
  exact ⟨mesh, hdata, rfl, hmap, hlocal, hnode.trans hnode'.symm,
    hshared 0 (by decide) 1 (by decide) (List.replicate 10 0) (List.replicate 10 0) _ _ 3 4 _
      hroom (tabulate_eq_ok hmesh hmap.isOn hbound (by decide) hroom) hnode
      hroom (tabulate_eq_ok hmesh hmap.isOn hbound (by decide) hroom) hnode'
      (List.replicate 20 0) (List.replicate 20 0) rfl rfl⟩

end DofMap
end FiniteElement
