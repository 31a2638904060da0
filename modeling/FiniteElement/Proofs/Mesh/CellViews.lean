import Mathlib
import FiniteElement.Proofs.Mesh.Boundary
import FiniteElement.Proofs.Mesh.CellGeometry

/-! # Coherence of cell views

The view of a cell pairs the indices of its entities with the coordinates of its
vertices. Each local entity is the entity of the mesh with the vertices that the
view lists in its place, and the view has the points of these vertices, so two
cells with a common entity see the same points there.
-/

namespace FiniteElement

namespace CellView

variable {α : Type}

/-- A view lists an entity in a local place. -/
def Lists (view : CellView α) (dim index entity : Nat) : Prop :=
  ∃ entities, view.entityIndices dim = .ok entities ∧ entities[index]? = some entity

def entityVertices (view : CellView α) (shape : Shape) (dim index : Nat) : Set Nat :=
  {v | ∃ entity, shape.entityVertices dim index = .ok entity ∧ ∃ k ∈ entity, view.Lists 0 k v}

def entityPoints (view : CellView α) (shape : Shape) (dim index : Nat) : Set (List α) :=
  {point | ∃ entity, shape.entityVertices dim index = .ok entity ∧
    ∃ k ∈ entity, view.vertex k = .ok point}

end CellView

namespace Mesh

variable {α : Type} {mesh : Mesh α} {cell : Nat} {view : CellView α}
  {buffer coordinates : Array α}

/-- Whatever the buffer held, there is one view of a cell. -/
theorem WellFormed.exists_view_of_buffers (hmesh : mesh.WellFormed) (hc : cell < mesh.numCells) :
    ∃ view, ∀ buffer, ∃ coordinates, mesh.view cell buffer = .ok (view, coordinates) := by
  obtain ⟨view, coordinates, hview, -⟩ := hmesh.exists_view hc #[]
  refine ⟨view, ?_⟩
  intro buffer
  rw [view_eq_of_buffer, hview]
  exact ⟨coordinates, rfl⟩

section View

variable (hmesh : mesh.WellFormed) (hview : mesh.view cell buffer = .ok (view, coordinates))

include hmesh hview

/-- The view of a cell lists the entities of the cell. -/
theorem WellFormed.entityIndices_view {dim : Nat} (h : dim ≤ mesh.dimension) :
    view.entityIndices dim = mesh.cellEntities cell dim := by
  have hc := lt_numCells_of_view hview
  obtain ⟨view', coordinates', hview', hentities, -⟩ := hmesh.exists_view hc buffer
  rw [hview] at hview'
  cases hview'
  obtain ⟨row, hrow⟩ := exists_cellEntities h hc
  rw [hrow, CellView.entityIndices, hentities, Index.entry_eq_ok_iff]
  exact getElem?_localEntities h hrow

theorem WellFormed.lists_iff {dim index e : Nat} (h : dim ≤ mesh.dimension) :
    view.Lists dim index e ↔ mesh.HasEntity cell dim index e := by
  rw [CellView.Lists, hmesh.entityIndices_view hview h]
  rfl

theorem WellFormed.entityVertices_view (dim index : Nat) :
    view.entityVertices mesh.shape dim index = mesh.entityVertices cell dim index := by
  have hlists : ∀ k v, view.Lists 0 k v ↔ mesh.HasEntity cell 0 k v := fun k v =>
    hmesh.lists_iff hview (Nat.zero_le _)
  ext v
  constructor
  · intro ⟨entity, hentity, k, hk, hlist⟩
    obtain ⟨vertices, hvertices, hv⟩ := (hlists k v).mp hlist
    exact ⟨entity, vertices, hentity, hvertices, k, hk, hv⟩
  · intro ⟨entity, vertices, hentity, hvertices, k, hk, hv⟩
    exact ⟨entity, hentity, k, hk, (hlists k v).mpr ⟨vertices, hvertices, hv⟩⟩

/-- A vertex of the view is the point of the vertex that the view lists in its place. -/
theorem WellFormed.vertex_of_lists {k v : Nat} (h : view.Lists 0 k v) :
    view.vertex k = mesh.vertex v := by
  have hc := lt_numCells_of_view hview
  obtain ⟨vertices, hvertices, hk⟩ := (hmesh.lists_iff hview (Nat.zero_le _)).mp h
  have hlist : mesh.cellVertices cell = .ok (mesh.vertexList cell) := cellVertices_eq_ok hc
  rw [cellVertices, hvertices, Except.ok.injEq] at hlist
  rw [hlist] at hk
  obtain ⟨hlt, heq⟩ := List.getElem?_eq_some_iff.mp hk
  rw [hmesh.vertex_view hc hview hlt, heq]

/-- The points in the place of a local entity are those of its vertices. -/
theorem WellFormed.entityPoints_view (dim index : Nat) :
    view.entityPoints mesh.shape dim index =
      {point | ∃ v ∈ mesh.entityVertices cell dim index, mesh.vertex v = .ok point} := by
  have hc := lt_numCells_of_view hview
  rw [← hmesh.entityVertices_view hview]
  ext point
  constructor
  · intro ⟨entity, hentity, k, hk, hpoint⟩
    have hmem := List.mem_of_getElem? (Shape.entityVertices_eq_ok_iff.mp hentity)
    have hlt : k < mesh.shape.numEntities 0 := by
      rw [Shape.numEntities_zero]
      exact Shape.lt_numVertices_of_mem_entities hmem k hk
    obtain ⟨v, hv⟩ := hmesh.exists_hasEntity (Nat.zero_le _) hc hlt
    have hlist := (hmesh.lists_iff hview (Nat.zero_le _)).mpr hv
    rw [hmesh.vertex_of_lists hview hlist] at hpoint
    exact ⟨v, ⟨entity, hentity, k, hk, hlist⟩, hpoint⟩
  · intro ⟨v, ⟨entity, hentity, k, hk, hlist⟩, hpoint⟩
    rw [← hmesh.vertex_of_lists hview hlist] at hpoint
    exact ⟨entity, hentity, k, hk, hpoint⟩

end View

/-! ## Entities in several cells -/

/-- An entity has the same vertices in each cell that lists it. -/
theorem WellFormed.entityVertices_eq_of_hasEntity (hmesh : mesh.WellFormed)
    {dim cell index cell' index' e : Nat} (h : dim ≤ mesh.dimension)
    (hentity : mesh.HasEntity cell dim index e) (hentity' : mesh.HasEntity cell' dim index' e) :
    mesh.entityVertices cell dim index = mesh.entityVertices cell' dim index' := by
  rcases Nat.lt_or_eq_of_le h with hlt | heq
  · exact (hmesh.entity_eq_iff hlt hentity hentity').mp rfl
  · subst heq
    have hcell : cell' = cell := (entity_eq_cell hentity').symm.trans (entity_eq_cell hentity)
    subst hcell
    rw [hmesh.index_eq_of_hasEntity (Nat.le_refl _) hentity hentity']

theorem WellFormed.verticesOf_eq_of_le (hmesh : mesh.WellFormed) {dim index e : Nat}
    (h : dim ≤ mesh.dimension) (hentity : mesh.HasEntity cell dim index e) :
    mesh.verticesOf dim e = mesh.entityVertices cell dim index := by
  rcases Nat.lt_or_eq_of_le h with hlt | heq
  · exact hmesh.verticesOf_eq hlt hentity
  · have hne : dim ≠ 0 := by
      have hpos := mesh.shape.dimension_pos
      rw [dimension] at heq
      omega
    rw [verticesOf, if_neg hne]
    ext v
    constructor
    · intro hmem
      obtain ⟨cell', index', hentity', hv⟩ := hmem
      rwa [hmesh.entityVertices_eq_of_hasEntity h hentity hentity']
    · intro hv
      exact ⟨cell, index, hentity, hv⟩

/-- The view of a cell of an accepted mesh does not depend on what its buffer held. It has the
dimensions of the mesh and the points of the vertices that it lists, and it lists in each place the
entity with the vertices of that place: below the dimension of the cells the only one, in their
dimension the cell. Two cells that list the same entity have the same points for it. -/
theorem views_coherent {data : MeshData α} {mesh : Mesh α} (h : ofData data = .ok mesh) {cell : Nat}
    (hc : cell < mesh.numCells) :
    ∃ view : CellView α,
      (∀ buffer, ∃ coordinates, mesh.view cell buffer = .ok (view, coordinates)) ∧
      view.dimension = mesh.dimension ∧ view.geometricDimension = mesh.geometricDimension ∧
      view.numVertices = mesh.dimension + 1 ∧
      (∀ i < mesh.dimension + 1, ∃ v point, view.Lists 0 i v ∧ view.vertex i = .ok point ∧
        mesh.vertex v = .ok point) ∧
      (∀ d ≤ mesh.dimension, ∀ e < mesh.shape.numEntities d, ∃ g count,
        view.Lists d e g ∧ mesh.entityCounts.numEntities d = .ok count ∧ g < count ∧
        mesh.verticesOf d g = view.entityVertices mesh.shape d e ∧
        (d < mesh.dimension → ∀ other < count,
          mesh.verticesOf d other = view.entityVertices mesh.shape d e → other = g) ∧
        (d = mesh.dimension → g = cell)) ∧
      ∀ cell' buffer' view' coordinates',
        mesh.view cell' buffer' = .ok (view', coordinates') →
        ∀ d ≤ mesh.dimension, ∀ e e' g, view.Lists d e g → view'.Lists d e' g →
          view.entityPoints mesh.shape d e = view'.entityPoints mesh.shape d e' := by
  have hmesh := wellFormed_of_ofData h
  obtain ⟨view, hviews⟩ := hmesh.exists_view_of_buffers hc
  obtain ⟨coordinates, hview⟩ := hviews #[]
  obtain ⟨hdim, hgeometric, hcount⟩ := hmesh.dimensions_view hview
  refine ⟨view, hviews, hdim, hgeometric, hcount, ?_, ?_, ?_⟩
  · intro i hi
    have hlocal : i < mesh.shape.numEntities 0 := by
      rwa [Shape.numEntities_zero]
    obtain ⟨v, hv⟩ := hmesh.exists_hasEntity (Nat.zero_le _) hc hlocal
    have hlist := (hmesh.lists_iff hview (Nat.zero_le _)).mpr hv
    have hvertex := hmesh.vertex_of_lists hview hlist
    rw [CellView.vertex_eq_ok (by rwa [hcount])] at hvertex
    exact ⟨v, _, hlist, CellView.vertex_eq_ok (by rwa [hcount]), hvertex.symm⟩
  · intro d hd e he
    obtain ⟨g, hg⟩ := hmesh.exists_hasEntity hd hc he
    obtain ⟨row, hrow, hplace⟩ := hg
    have hlt := hmesh.lt_count hd hrow g (List.mem_of_getElem? hplace)
    have hg : mesh.HasEntity cell d e g := ⟨row, hrow, hplace⟩
    have hvertices := hmesh.verticesOf_eq_of_le hd hg
    rw [hmesh.entityVertices_view hview]
    refine ⟨g, _, (hmesh.lists_iff hview hd).mpr hg, numEntities_eq_ok hd, hlt, hvertices, ?_, ?_⟩
    · intro hbelow other hother hsame
      rw [← hvertices] at hsame
      exact (hmesh.eq_of_verticesOf_eq hbelow hg hother hsame.symm).symm
    · intro htop
      rw [htop] at hg
      exact entity_eq_cell hg
  · intro cell' buffer' view' coordinates' hview' d hd e e' g hlist hlist'
    rw [hmesh.lists_iff hview hd] at hlist
    rw [hmesh.lists_iff hview' hd] at hlist'
    rw [hmesh.entityPoints_view hview, hmesh.entityPoints_view hview',
      hmesh.entityVertices_eq_of_hasEntity hd hlist hlist']

/-- Two triangles in space that list their common edge in different places and directions. Both
views have the points of vertices 1 and 2 there, whatever the buffer of the second held. -/
theorem views_coherent_on_two_triangles :
    let data : MeshData Rat :=
      ⟨.triangle, 3, #[0, 0, 0, 1, 0, 0, 0, 1, 0, 1, 1, 5], #[0, 1, 2, 2, 3, 1]⟩
    ∃ (mesh : Mesh Rat) (view view' : CellView Rat) (edge : Nat),
      ofData data = .ok mesh ∧
      (∃ coordinates, mesh.view 0 #[] = .ok (view, coordinates)) ∧
      (∃ coordinates, mesh.view 1 #[7, 7] = .ok (view', coordinates)) ∧
      view'.geometricDimension = 3 ∧ view'.numVertices = 3 ∧
      view.Lists 1 0 edge ∧ view'.Lists 1 1 edge ∧
      view.entityPoints .triangle 1 0 = view'.entityPoints .triangle 1 1 ∧
      view'.vertex 1 = .ok [1, 1, 5] := by
  intro data
  let mesh : Mesh Rat :=
    { shape := .triangle, geometricDimension := 3, points := data.points, cells := data.cellLists }
  have hdata : ofData data = .ok mesh :=
    ofData_eq_ok_iff.mpr ⟨by decide +kernel, rfl, rfl, rfl, rfl⟩
  have hmesh := wellFormed_of_ofData hdata
  have hcell : mesh.cells[0]? = some [0, 1, 2] := by decide +kernel
  have hcell' : mesh.cells[1]? = some [2, 3, 1] := by decide +kernel
  have hfirst : 0 < mesh.numCells := by decide +kernel
  have hsecond : 1 < mesh.numCells := by decide +kernel
  obtain ⟨view, hviews, -, -, -, -, hentities, hshared⟩ := views_coherent hdata hfirst
  obtain ⟨view', hviews', -, hgeometric, hcount, -, hentities', -⟩ := views_coherent hdata hsecond
  obtain ⟨coordinates, hview⟩ := hviews #[]
  obtain ⟨coordinates', hview'⟩ := hviews' #[7, 7]
  obtain ⟨edge, count, hlist, hedges, -, -, hunique, -⟩ := hentities 1 (by decide) 0 (by decide)
  obtain ⟨edge', count', hlist', hedges', hlt', hvertices', -, -⟩ :=
    hentities' 1 (by decide) 1 (by decide)
  have hsame : view'.entityVertices .triangle 1 1 = view.entityVertices .triangle 1 0 := by
    have hown := hmesh.entityVertices_view hview 1 0
    have hother := hmesh.entityVertices_view hview' 1 1
    rw [hmesh.entityVertices_eq (by decide) hcell (by rfl)] at hown
    rw [hmesh.entityVertices_eq (by decide) hcell' (by rfl)] at hother
    refine hother.trans (Eq.trans ?_ hown.symm)
    ext v
    simp [globalVertices, or_comm]
  have hedge : edge' = edge := by
    rw [hedges, Except.ok.injEq] at hedges'
    exact hunique (by decide) edge' (hedges' ▸ hlt') (hvertices'.trans hsame)
  rw [hedge] at hlist'
  have hlast : view'.Lists 0 1 3 :=
    (hmesh.lists_iff hview' (Nat.zero_le _)).mpr ⟨_, cellVertices_eq_ok_iff.mpr hcell', rfl⟩
  refine ⟨mesh, view, view', edge, hdata, hviews _, hviews' _, hgeometric, hcount, hlist, hlist',
    hshared 1 #[7, 7] view' coordinates' hview' 1 (by decide) 0 1 edge hlist hlist', ?_⟩
  rw [hmesh.vertex_of_lists hview' hlast]
  decide +kernel

end Mesh
end FiniteElement
