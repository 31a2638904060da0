import Mathlib
import FiniteElement.Proofs.DofMap.LocalDofs
import FiniteElement.Proofs.Mesh.View
import FiniteElement.Proofs.Samples

/-! # The global numbering of the degrees of freedom

On an accepted mesh the indices below the global dimension are those of the
degrees of freedom on its entities, one each. Two cells share an index exactly
where they share the entity, and only a vertex that no cell uses keeps its
indices from being written.
-/

namespace FiniteElement

namespace DofMap

variable {α : Type}

/-! ## Cells of a mesh -/

def tabulate (map : DofMap α) (mesh : Mesh α) (cell : Nat) (buffer : List Nat) :
    Except Fault (List Nat) := do
  let (view, _) ← mesh.view cell #[]
  map.writeNodes mesh.entityCounts view buffer

/-- The global indices of the local degrees of freedom of a cell, in local order. -/
def cellNodes (map : DofMap α) (mesh : Mesh α) (cell : Nat) : List Nat :=
  map.localDofs.map fun dof =>
    map.globalIndex mesh.entityCounts (dof.onCell (mesh.localEntities cell))

end DofMap

namespace Mesh

variable {α : Type} {mesh : Mesh α} {map : DofMap α}

theorem length_entityCounts (mesh : Mesh α) :
    mesh.entityCounts.counts.length = mesh.shape.dimension + 1 := by
  rw [entityCounts, List.length_map, length_tables, dimension]

theorem WellFormed.fits (hmesh : mesh.WellFormed) {cell : Nat} (hc : cell < mesh.numCells)
    {view : CellView α} (hview : view.entities = mesh.localEntities cell) :
    view.Fits mesh.shape mesh.entityCounts where
  length_counts := mesh.length_entityCounts
  exists_row := by
    intro dim hdim
    obtain ⟨entities, hentities⟩ := exists_cellEntities hdim hc
    refine ⟨entities, (mesh.table dim).count, ?_, ?_, hmesh.length_cellEntities hdim hentities,
      hmesh.lt_count hdim hentities⟩
    · rw [hview, getElem?_localEntities hdim hentities]
    · exact Index.entry_eq_ok_iff.mp (numEntities_eq_ok hdim)

/-- The entity of a cell in the place of a local degree of freedom. -/
theorem WellFormed.hasEntity_onCell (hmesh : mesh.WellFormed) (hmap : map.IsOn mesh.shape)
    {cell : Nat} (hc : cell < mesh.numCells) {dof : Dof} (h : dof ∈ map.localDofs) :
    dof.dim ≤ mesh.dimension ∧
      mesh.HasEntity cell dof.dim dof.entity (dof.onCell (mesh.localEntities cell)).entity := by
  obtain ⟨leaf, n, hleaf, hn, hentity, -⟩ := DofMap.mem_localDofs_iff.mp h
  obtain ⟨hshape, hlength⟩ := hmap leaf (List.mem_of_getElem? hleaf)
  have hlt := (List.getElem?_eq_some_iff.mp hn).1
  rw [hlength] at hlt
  have hdim : dof.dim ≤ mesh.dimension := Nat.le_of_lt_succ hlt
  rw [hshape] at hentity
  obtain ⟨e, entities, hentities, he⟩ := hmesh.exists_hasEntity hdim hc hentity
  refine ⟨hdim, entities, hentities, ?_⟩
  simp [Dof.onCell, getElem?_localEntities hdim hentities, he]

theorem dim_le_of_hasDof (hmap : map.IsOn mesh.shape) {dof : Dof}
    (hdof : map.HasDof mesh.entityCounts dof) : dof.dim ≤ mesh.dimension := by
  obtain ⟨leaf, n, count, hleaf, hn, -⟩ := hdof
  have hlt := (List.getElem?_eq_some_iff.mp hn).1
  rw [(hmap leaf (List.mem_of_getElem? hleaf)).2] at hlt
  exact Nat.le_of_lt_succ hlt

theorem lt_count_of_hasDof (hmap : map.IsOn mesh.shape) {dof : Dof}
    (hdof : map.HasDof mesh.entityCounts dof) : dof.entity < (mesh.table dof.dim).count := by
  have hcount := Index.entry_eq_ok_iff.mp (numEntities_eq_ok (dim_le_of_hasDof hmap hdof))
  obtain ⟨leaf, n, count, -, -, hcount', hentity, -⟩ := hdof
  rw [hcount', Option.some.injEq] at hcount
  rwa [hcount] at hentity

/-- A degree of freedom on an entity of a cell is in the place that the entity has there. -/
theorem WellFormed.onCell_eq_of_hasEntity (hmesh : mesh.WellFormed) (hmap : map.IsOn mesh.shape)
    {cell index : Nat} {dof : Dof} (hdof : map.HasDof mesh.entityCounts dof)
    (hhas : mesh.HasEntity cell dof.dim index dof.entity) :
    { dof with entity := index } ∈ map.localDofs ∧
      Dof.onCell (mesh.localEntities cell) { dof with entity := index } = dof := by
  have hdim := dim_le_of_hasDof hmap hdof
  obtain ⟨leaf, n, count, hleaf, hn, -, -, hposition⟩ := hdof
  obtain ⟨-, hindex⟩ := hmesh.lt_of_hasEntity hdim hhas
  obtain ⟨entities, hentities, he⟩ := hhas
  constructor
  · rw [← (hmap leaf (List.mem_of_getElem? hleaf)).1] at hindex
    exact DofMap.mem_localDofs_iff.mpr ⟨leaf, n, hleaf, hn, hindex, hposition⟩
  · have hrow := getElem?_localEntities hdim hentities
    simp [Dof.onCell, hrow, he]

/-- Every entity but a vertex that no cell uses is in the place of a local degree of freedom. -/
theorem WellFormed.exists_onCell_eq (hmesh : mesh.WellFormed) (hmap : map.IsOn mesh.shape)
    {dof : Dof} (hdof : map.HasDof mesh.entityCounts dof)
    (hused : dof.entity ∈ mesh.entityIndices dof.dim) :
    ∃ cell < mesh.numCells, ∃ source ∈ map.localDofs,
      source.onCell (mesh.localEntities cell) = dof := by
  have hdim := dim_le_of_hasDof hmap hdof
  obtain ⟨cell, index, hhas⟩ := (mem_entityIndices_iff hdim).mp hused
  obtain ⟨hc, -⟩ := hmesh.lt_of_hasEntity hdim hhas
  exact ⟨cell, hc, _, hmesh.onCell_eq_of_hasEntity hmap hdof hhas⟩

end Mesh

/-! ## The numbering of a mesh -/

namespace DofMap

variable {α : Type} {mesh : Mesh α} {map : DofMap α}

theorem hasDof_of_mem_localDofs (hmesh : mesh.WellFormed) (hmap : map.IsOn mesh.shape)
    {cell : Nat} (hc : cell < mesh.numCells) {dof : Dof} (h : dof ∈ map.localDofs) :
    map.HasDof mesh.entityCounts (dof.onCell (mesh.localEntities cell)) := by
  obtain ⟨view, -, -, hview⟩ := hmesh.view_eq_ok hc #[]
  rw [← hview]
  exact hasDof_onCell (hmesh.fits hc hview) hmap h

/-- Two cells have the same index exactly where they share the leaf, the position and the entity. -/
theorem globalIndex_onCell_eq_iff (hmesh : mesh.WellFormed) (hmap : map.IsOn mesh.shape)
    {cell cell' : Nat} (hc : cell < mesh.numCells) (hc' : cell' < mesh.numCells) {dof dof' : Dof}
    (h : dof ∈ map.localDofs) (h' : dof' ∈ map.localDofs) :
    map.globalIndex mesh.entityCounts (dof.onCell (mesh.localEntities cell)) =
        map.globalIndex mesh.entityCounts (dof'.onCell (mesh.localEntities cell')) ↔
      dof.leaf = dof'.leaf ∧ dof.position = dof'.position ∧ dof.dim = dof'.dim ∧
        mesh.SameEntity dof.dim cell dof.entity cell' dof'.entity := by
  rw [globalIndex_inj (hasDof_of_mem_localDofs hmesh hmap hc h)
    (hasDof_of_mem_localDofs hmesh hmap hc' h')]
  obtain ⟨hdim, hhas⟩ := hmesh.hasEntity_onCell hmap hc h
  obtain ⟨-, hhas'⟩ := hmesh.hasEntity_onCell hmap hc' h'
  constructor
  · intro heq
    obtain ⟨hleaf, hsame, hentity, hposition⟩ := Dof.ext_iff.mp heq
    change dof.dim = dof'.dim at hsame
    rw [← hsame] at hhas'
    exact ⟨hleaf, hposition, hsame, (hmesh.entity_eq_iff_sameEntity hdim hhas hhas').mp hentity⟩
  · intro ⟨hleaf, hposition, hsame, hentity⟩
    rw [← hsame] at hhas'
    have heq := (hmesh.entity_eq_iff_sameEntity hdim hhas hhas').mpr hentity
    exact Dof.ext hleaf hsame heq hposition

theorem nodup_cellNodes (hmesh : mesh.WellFormed) (hmap : map.IsOn mesh.shape) {cell : Nat}
    (hc : cell < mesh.numCells) : (map.cellNodes mesh cell).Nodup := by
  apply map.nodup_localDofs.map_on
  intro dof hdof dof' hdof' heq
  have hboth := (globalIndex_onCell_eq_iff hmesh hmap hc hc hdof hdof').mp heq
  obtain ⟨hleaf, hposition, hdim, hentity⟩ := hboth
  obtain ⟨hle, hhas⟩ := hmesh.hasEntity_onCell hmap hc hdof
  obtain ⟨-, hhas'⟩ := hmesh.hasEntity_onCell hmap hc hdof'
  rw [← hdim] at hhas'
  have hsame := (hmesh.entity_eq_iff_sameEntity hle hhas hhas').mpr hentity
  rw [← hsame] at hhas'
  exact Dof.ext hleaf hdim (hmesh.index_eq_of_hasEntity hle hhas hhas') hposition

theorem lt_of_mem_cellNodes (hmesh : mesh.WellFormed) (hmap : map.IsOn mesh.shape) {cell : Nat}
    (hc : cell < mesh.numCells) :
    ∀ node ∈ map.cellNodes mesh cell, node < sizeOn mesh.entityCounts map.leaves := by
  intro node hnode
  obtain ⟨dof, hdof, heq⟩ := List.mem_map.mp hnode
  rw [← heq]
  exact globalIndex_lt (hasDof_of_mem_localDofs hmesh hmap hc hdof)

theorem length_cellNodes (hmesh : mesh.WellFormed) (hmap : map.IsOn mesh.shape) {cell : Nat}
    (hc : cell < mesh.numCells) : (map.cellNodes mesh cell).length = map.size := by
  obtain ⟨view, -, -, hview⟩ := hmesh.view_eq_ok hc #[]
  have hcell := hmesh.fits hc hview
  have hnodes := nodesFrom_eq_map hcell hmap
  rw [hview] at hnodes
  rw [cellNodes, ← hnodes, ← hview, length_nodesFrom hcell 0 hmap, size_eq]

/-- A cell has no more degrees of freedom than the mesh, as its indices are distinct. -/
theorem size_le_sizeOn (hmesh : mesh.WellFormed) (hmap : map.IsOn mesh.shape) {cell : Nat}
    (hc : cell < mesh.numCells) : map.size ≤ sizeOn mesh.entityCounts map.leaves := by
  have hsubset : (map.cellNodes mesh cell).toFinset ⊆
      Finset.range (sizeOn mesh.entityCounts map.leaves) := by
    intro node hnode
    exact Finset.mem_range.mpr (lt_of_mem_cellNodes hmesh hmap hc node (List.mem_toFinset.mp hnode))
  have hcard := Finset.card_le_card hsubset
  rw [List.toFinset_card_of_nodup (nodup_cellNodes hmesh hmap hc), Finset.card_range,
    length_cellNodes hmesh hmap hc] at hcard
  exact hcard

/-- Writing the nodes of a cell of a mesh whose degrees of freedom can be numbered. -/
theorem writeNodes_cell_eq_ok (hmesh : mesh.WellFormed) (hmap : map.IsOn mesh.shape)
    (hbound : sizeOn mesh.entityCounts map.leaves < Index.bound) {cell : Nat}
    (hc : cell < mesh.numCells) {view : CellView α}
    (hview : view.entities = mesh.localEntities cell) {buffer : List Nat}
    (hroom : buffer.length = map.size) :
    map.writeNodes mesh.entityCounts view buffer = .ok (map.cellNodes mesh cell) := by
  have hcell := hmesh.fits hc hview
  have hlocal := size_le_sizeOn hmesh hmap hc
  rw [size_eq] at hlocal hroom
  have hwrite := writeNodes_eq_ok hcell map hmap hbound (Nat.lt_of_le_of_lt hlocal hbound) buffer
    (Nat.le_of_eq hroom.symm)
  have hempty : buffer.drop (sizeOnCell map.leaves) = [] :=
    List.drop_eq_nil_of_le (Nat.le_of_eq hroom)
  rw [hwrite, hempty, List.append_nil, nodesFrom_eq_map hcell hmap, cellNodes, hview]

theorem tabulate_eq_ok (hmesh : mesh.WellFormed) (hmap : map.IsOn mesh.shape)
    (hbound : sizeOn mesh.entityCounts map.leaves < Index.bound) {cell : Nat}
    (hc : cell < mesh.numCells) {buffer : List Nat} (hroom : buffer.length = map.size) :
    map.tabulate mesh cell buffer = .ok (map.cellNodes mesh cell) := by
  obtain ⟨view, coordinates, hok, hview⟩ := hmesh.view_eq_ok hc #[]
  rw [tabulate, hok, Checked.ok_bind]
  exact writeNodes_cell_eq_ok hmesh hmap hbound hc hview hroom

theorem getElem?_cellNodes (map : DofMap α) (mesh : Mesh α) (cell i : Nat) :
    (map.cellNodes mesh cell)[i]? = map.localDofs[i]?.map fun dof =>
      map.globalIndex mesh.entityCounts (dof.onCell (mesh.localEntities cell)) := by
  rw [cellNodes, List.getElem?_map]

theorem sizeOn_lt_of_tabulate (hmap : map.IsOn mesh.shape) {cell : Nat} {own nodes : List Nat}
    (h : map.tabulate mesh cell own = .ok nodes) :
    sizeOn mesh.entityCounts map.leaves < Index.bound := by
  obtain ⟨view, -, hwrite⟩ := Checked.bind_eq_ok_iff.mp h
  exact sizeOn_lt_of_writeNodes mesh.length_entityCounts hmap hwrite

/-- Each index below the global dimension is written by some cell, unless it belongs to a vertex
that no cell uses. -/
theorem exists_mem_cellNodes (hmesh : mesh.WellFormed) (hmap : map.IsOn mesh.shape) {dof : Dof}
    (hdof : map.HasDof mesh.entityCounts dof) :
    (∃ cell < mesh.numCells, map.globalIndex mesh.entityCounts dof ∈ map.cellNodes mesh cell) ∨
      dof.dim = 0 ∧ ∀ cell vertices, mesh.cellVertices cell = .ok vertices →
        dof.entity ∉ vertices := by
  by_cases hused : dof.entity ∈ mesh.entityIndices dof.dim
  · left
    obtain ⟨cell, hc, source, hsource, heq⟩ := hmesh.exists_onCell_eq hmap hdof hused
    refine ⟨cell, hc, List.mem_map.mpr ⟨source, hsource, ?_⟩⟩
    rw [heq]
  · right
    have hdim := Mesh.dim_le_of_hasDof hmap hdof
    have hentity := Mesh.lt_count_of_hasDof hmap hdof
    rcases Nat.eq_zero_or_pos dof.dim with hzero | hpos
    · refine ⟨hzero, ?_⟩
      intro cell vertices hvertices hmem
      obtain ⟨index, hindex⟩ := List.getElem?_of_mem hmem
      rw [hzero] at hused
      exact hused ((Mesh.mem_entityIndices_iff (Nat.zero_le _)).mpr
        ⟨cell, index, vertices, hvertices, hindex⟩)
    · exact absurd ((Mesh.mem_entityIndices_of_pos hpos hdim).mpr hentity) hused

/-- On an accepted mesh the degrees of freedom are numbered without gaps. Cells share an index
exactly where they share the leaf, the position and the entity, and every index but those of
vertices without cells is written by some cell. -/
theorem globalIndex_bijOn_and_respects_entities {data : MeshData α}
    (h : Mesh.ofData data = .ok mesh) (hmap : map.IsOn mesh.shape) {n : Nat}
    (hn : map.globalDimension mesh.entityCounts = .ok n) :
    Set.BijOn (map.globalIndex mesh.entityCounts) {dof | map.HasDof mesh.entityCounts dof}
      (Set.Iio n) ∧
    (∀ cell < mesh.numCells,
      (∀ buffer : List Nat, buffer.length = map.size →
        map.tabulate mesh cell buffer = .ok (map.cellNodes mesh cell)) ∧
      (map.cellNodes mesh cell).length = map.size ∧ map.localDofs.length = map.size ∧
      (map.cellNodes mesh cell).Nodup ∧
      ∀ (i : Nat) (dof : Dof), map.localDofs[i]? = some dof →
        ∃ e, mesh.HasEntity cell dof.dim dof.entity e ∧
          map.HasDof mesh.entityCounts { dof with entity := e } ∧
          (map.cellNodes mesh cell)[i]? =
            some (map.globalIndex mesh.entityCounts { dof with entity := e })) ∧
    (∀ cell < mesh.numCells, ∀ cell' < mesh.numCells, ∀ (i i' : Nat) (dof dof' : Dof),
      map.localDofs[i]? = some dof → map.localDofs[i']? = some dof' →
      ((map.cellNodes mesh cell)[i]? = (map.cellNodes mesh cell')[i']? ↔
        dof.leaf = dof'.leaf ∧ dof.position = dof'.position ∧ dof.dim = dof'.dim ∧
          mesh.SameEntity dof.dim cell dof.entity cell' dof'.entity)) ∧
    ∀ g < n, (∃ cell < mesh.numCells, g ∈ map.cellNodes mesh cell) ∨
      ∃ dof, map.HasDof mesh.entityCounts dof ∧ map.globalIndex mesh.entityCounts dof = g ∧
        dof.dim = 0 ∧ ∀ cell vertices, mesh.cellVertices cell = .ok vertices →
          dof.entity ∉ vertices := by
  have hmesh := Mesh.wellFormed_of_ofData h
  obtain ⟨hbound, hsize⟩ := (globalDimension_eq_ok_iff mesh.length_entityCounts map hmap n).mp hn
  have hbij := globalIndex_bijOn hmap mesh.length_entityCounts
  change Set.BijOn _ _ (Set.Iio (sizeOn mesh.entityCounts map.leaves)) at hbij
  rw [hsize] at hbij
  have hget : ∀ (cell i : Nat) (dof : Dof), map.localDofs[i]? = some dof →
      (map.cellNodes mesh cell)[i]? =
        some (map.globalIndex mesh.entityCounts (dof.onCell (mesh.localEntities cell))) := by
    intro cell i dof hdof
    rw [cellNodes, List.getElem?_map, hdof, Option.map_some]
  refine ⟨hbij, ?_, ?_, ?_⟩
  · intro cell hc
    have hlength := length_cellNodes hmesh hmap hc
    refine ⟨fun buffer hroom => tabulate_eq_ok hmesh hmap hbound hc hroom, hlength, ?_,
      nodup_cellNodes hmesh hmap hc, ?_⟩
    · rw [← hlength, cellNodes, List.length_map]
    · intro i dof hdof
      have hmem := List.mem_of_getElem? hdof
      exact ⟨_, (hmesh.hasEntity_onCell hmap hc hmem).2, hasDof_of_mem_localDofs hmesh hmap hc hmem,
        hget cell i dof hdof⟩
  · intro cell hc cell' hc' i i' dof dof' hdof hdof'
    rw [hget cell i dof hdof, hget cell' i' dof' hdof', Option.some.injEq]
    exact globalIndex_onCell_eq_iff hmesh hmap hc hc' (List.mem_of_getElem? hdof)
      (List.mem_of_getElem? hdof')
  · intro g hg
    obtain ⟨dof, hdof, heq⟩ := hbij.surjOn hg
    rw [← heq]
    rcases exists_mem_cellNodes hmesh hmap hdof with hcell | ⟨hzero, hunused⟩
    · exact Or.inl hcell
    · exact Or.inr ⟨dof, hdof, rfl, hzero, hunused⟩

/-- A layout with vertices and edges beside a nested one with vertices, on two triangles with a
common edge: thirteen indices, and the second triangle shares the edge of the first. -/
theorem globalIndex_bijOn_of_two_triangles :
    let map := Sample.quadraticAndLinear
    ∃ mesh : Mesh Rat,
      Mesh.ofData ⟨.triangle, 2, #[0, 0, 2, 0, 0, 1, 2, 1], #[0, 1, 2, 1, 2, 3]⟩ = .ok mesh ∧
      map.IsOn mesh.shape ∧ map.globalDimension mesh.entityCounts = .ok 13 ∧
      Set.BijOn (map.globalIndex mesh.entityCounts) {dof | map.HasDof mesh.entityCounts dof}
        (Set.Iio 13) ∧
      (map.cellNodes mesh 0)[3]? = (map.cellNodes mesh 1)[5]? := by
  intro map
  have hperm : [1, 2, 3].Perm [1, 2, 3] := .refl _
  have hdata := Sample.ofData_rectangle hperm
  have hmap : map.IsOn .triangle := by decide +kernel
  have hdimension :
      map.globalDimension (Sample.rectangle [1, 2, 3]).entityCounts = .ok 13 := by
    rw [Sample.entityCounts_rectangle hperm]
    decide +kernel
  obtain ⟨hbij, -, hsame, -⟩ := globalIndex_bijOn_and_respects_entities hdata hmap hdimension
  refine ⟨Sample.rectangle [1, 2, 3], hdata, hmap, hdimension, hbij, ?_⟩
  rw [hsame 0 (by decide) 1 (by decide) 3 5 ⟨0, 1, 0, 0⟩ ⟨0, 1, 2, 0⟩ (by rfl) (by rfl)]
  refine ⟨rfl, rfl, rfl, ?_⟩
  rw [Mesh.SameEntity, if_pos (by decide)]
  exact Sample.entityVertices_rectangle hperm rfl

end DofMap
end FiniteElement
