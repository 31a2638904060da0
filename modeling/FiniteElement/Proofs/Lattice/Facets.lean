import Mathlib
import FiniteElement.Proofs.Lattice.Dissection
import FiniteElement.Proofs.Mesh.LagrangeBoundary

/-! # Facets of a dissected lattice

A facet has a partner in the cube on its other side, unless it lies on a side of
the lattice. So it belongs to two cells inside the lattice and to one on its sides,
and the boundary of the mesh has the vertices on the sides.
-/

namespace FiniteElement

theorem eq_filter_range {xs : List Nat} {bound : Nat} {p : Nat → Prop} [DecidablePred p]
    (hsorted : xs.Pairwise (· < ·)) (hmem : ∀ x, x ∈ xs ↔ x < bound ∧ p x) :
    xs = (List.range bound).filter p := by
  have hfilter : ((List.range bound).filter p).Pairwise (· < ·) := List.pairwise_lt_range.filter _
  apply List.Perm.eq_of_pairwise' hsorted hfilter
  rw [List.perm_ext_iff_of_nodup (hsorted.imp Nat.ne_of_lt) (hfilter.imp Nat.ne_of_lt)]
  intro x
  rw [hmem, List.mem_filter, List.mem_range, decide_eq_true_eq]

namespace Mesh

open FiniteElement.Lattice FiniteElement.Lattice.Dissection

variable {α : Type} {mesh : Mesh α} {d n : Nat} {S : Dissection d}

namespace IsDissected

/-- The cells with a facet are the one at hand and, if there is a cube for it, that of its
partner. -/
theorem mem_cellsWith_iff (h : mesh.IsDissected S n) (hdim : d - 1 < d) {c index e : Nat}
    (he : mesh.HasEntity c (d - 1) index e) {q : Fin d → Nat} {x y : Part d}
    (hpart : mesh.HasPart S n (d - 1) c e q x) (hy : y ∈ S.parts (d - 1)) (hxy : S.Partners x y)
    (c' : Nat) :
    c' ∈ mesh.cellsWith (d - 1) e ↔ c' = c ∨ ∃ q' ∈ grid d n, move q' y.low = move q x.low ∧
      mesh.cells[c']? = some (place n q' y.cell) := by
  have hlt : d - 1 < mesh.dimension := by rwa [h.dimension_eq]
  obtain ⟨-, hpattern, honly, -⟩ := hxy
  constructor
  · rintro ⟨index', he'⟩
    obtain ⟨q', z, hpart'⟩ := h.exists_hasPart hdim he'
    obtain ⟨hpoint, hpattern'⟩ := spread_injective (z.move_low_mem_anchors hpart'.mem_grid)
      (x.move_low_mem_anchors hpart.mem_grid) (touches_of_mem_parts hpart'.mem_parts)
      (touches_of_mem_parts hpart.mem_parts) (hpart'.vertices_eq.symm.trans hpart.vertices_eq)
    have hc' := hpart'.cell_eq
    rcases honly z hpart'.mem_parts hpattern' with rfl | rfl
    · left
      rw [move_left_injective _ hpoint] at hc'
      exact h.cell_eq hc' hpart.cell_eq
    · exact .inr ⟨q', hpart'.mem_grid, hpoint, hc'⟩
  · rintro (rfl | ⟨q', hq', hpoint, hc'⟩)
    · exact ⟨index, he⟩
    · obtain ⟨c'', index'', e'', he'', hpart''⟩ := h.exists_hasEntity hdim hq' hy
      have hsame : mesh.verticesOf (d - 1) e'' = mesh.verticesOf (d - 1) e := by
        rw [hpart''.vertices_eq, hpart.vertices_eq, hpoint, hpattern]
      rw [h.wellFormed.verticesOf_eq hlt he'', h.wellFormed.verticesOf_eq hlt he,
        ← h.wellFormed.entity_eq_iff hlt he'' he] at hsame
      rw [h.cell_eq hc' hpart''.cell_eq, ← hsame]
      exact ⟨index'', he''⟩

theorem ncard_cellsWith_of_partner (h : mesh.IsDissected S n) (hdim : d - 1 < d) {c index e : Nat}
    (he : mesh.HasEntity c (d - 1) index e) {q : Fin d → Nat} {x y : Part d}
    (hpart : mesh.HasPart S n (d - 1) c e q x) (hy : y ∈ S.parts (d - 1)) (hxy : S.Partners x y)
    (hpartner : ∃ q' ∈ grid d n, move q' y.low = move q x.low) :
    (mesh.cellsWith (d - 1) e).ncard = 2 := by
  obtain ⟨q', hq', hpoint⟩ := hpartner
  obtain ⟨c', hc'⟩ := h.exists_cell hq' (mem_parts.mp hy).1
  have hdistinct : c ≠ c' := by
    rintro rfl
    rw [hpart.cell_eq, Option.some.injEq] at hc'
    exact hxy.1 (place_injective hpart.mem_grid hq' (mem_parts.mp hpart.mem_parts).1
      (mem_parts.mp hy).1 hc').2.symm
  have hpair : mesh.cellsWith (d - 1) e = {c, c'} := by
    ext c''
    rw [h.mem_cellsWith_iff hdim he hpart hy hxy, Set.mem_insert_iff, Set.mem_singleton_iff]
    refine or_congr_right ⟨?_, ?_⟩
    · rintro ⟨q'', -, hpoint', hc''⟩
      rw [move_left_injective _ (hpoint'.trans hpoint.symm)] at hc''
      exact h.cell_eq hc'' hc'
    · rintro rfl
      exact ⟨q', hq', hpoint, hc'⟩
  rw [hpair, Set.ncard_pair hdistinct]

theorem ncard_cellsWith_of_no_partner (h : mesh.IsDissected S n) (hdim : d - 1 < d)
    {c index e : Nat} (he : mesh.HasEntity c (d - 1) index e) {q : Fin d → Nat} {x y : Part d}
    (hpart : mesh.HasPart S n (d - 1) c e q x) (hy : y ∈ S.parts (d - 1)) (hxy : S.Partners x y)
    (hnone : ¬ ∃ q' ∈ grid d n, move q' y.low = move q x.low) :
    (mesh.cellsWith (d - 1) e).ncard = 1 := by
  have hsingle : mesh.cellsWith (d - 1) e = {c} := by
    ext c'
    rw [h.mem_cellsWith_iff hdim he hpart hy hxy, Set.mem_singleton_iff]
    refine or_iff_left ?_
    rintro ⟨q', hq', hpoint, -⟩
    exact hnone ⟨q', hq', hpoint⟩
  rw [hsingle, Set.ncard_singleton]

/-- A facet on a side of the lattice belongs to one cell, and any other to two. -/
theorem ncard_cellsWith (h : mesh.IsDissected S n) (hdim : d - 1 < d) {c index e : Nat}
    (he : mesh.HasEntity c (d - 1) index e) :
    (OnSide n d (mesh.verticesOf (d - 1) e) ∧ (mesh.cellsWith (d - 1) e).ncard = 1) ∨
      (¬ OnSide n d (mesh.verticesOf (d - 1) e) ∧ (mesh.cellsWith (d - 1) e).ncard = 2) := by
  obtain ⟨q, x, hpart⟩ := h.exists_hasPart hdim he
  obtain ⟨y, hy, hxy⟩ := S.paired x hpart.mem_parts
  have hside : OnSide n d (mesh.verticesOf (d - 1) e) ↔
      ¬ ∃ q' ∈ grid d n, move q' y.low = move q x.low := by
    obtain ⟨-, -, -, hopposite⟩ := hxy
    rw [hpart.vertices_eq, exists_move_eq_move_iff hpart.mem_grid,
      onSide_spread_iff (x.move_low_mem_anchors hpart.mem_grid)
        (touches_of_mem_parts hpart.mem_parts)]
    simp only [hopposite, not_forall, not_and_or, not_not, exists_prop]
  by_cases hpartner : ∃ q' ∈ grid d n, move q' y.low = move q x.low
  · exact .inr ⟨fun hon => hside.mp hon hpartner,
      h.ncard_cellsWith_of_partner hdim he hpart hy hxy hpartner⟩
  · exact .inl ⟨hside.mpr hpartner,
      h.ncard_cellsWith_of_no_partner hdim he hpart hy hxy hpartner⟩

/-! ## The boundary -/

theorem isBoundaryFacet_iff (h : mesh.IsDissected S n) (hdim : d - 1 < d) {c facet e : Nat}
    (he : mesh.HasEntity c (d - 1) facet e) :
    mesh.IsBoundaryFacet c facet ↔ OnSide n d (mesh.verticesOf (d - 1) e) := by
  have hone : mesh.IsBoundaryFacet c facet ↔ (mesh.cellsWith (d - 1) e).ncard = 1 := by
    rw [← h.dimension_eq] at he ⊢
    exact h.wellFormed.isBoundaryFacet_iff he
  rw [hone]
  rcases h.ncard_cellsWith hdim he with ⟨hside, hncard⟩ | ⟨hinner, hncard⟩
  · exact iff_of_true hncard hside
  · exact iff_of_false (by omega) hinner

/-- Every vertex on a side of the lattice belongs to a facet on that side. -/
theorem exists_facet_onSide (h : mesh.IsDissected S n) (hdim : d - 1 < d) (hn : 1 ≤ n) {v : Nat}
    (hv : v < (n + 1) ^ d) (hside : OnSide n d {v}) :
    ∃ c facet e, mesh.HasEntity c (d - 1) facet e ∧ v ∈ mesh.verticesOf (d - 1) e ∧
      OnSide n d (mesh.verticesOf (d - 1) e) := by
  obtain ⟨a, ha, hends⟩ := onSide_singleton_iff.mp hside
  have hpoint : (fun a : Fin d => step n a v) ∈ grid d (n + 1) :=
    mem_grid.mpr fun a => step_lt n a v
  obtain ⟨q, hq, s, hmove, -⟩ := exists_move_eq hn hpoint
  obtain ⟨x, hx, hcorner, hface⟩ := S.sided ⟨a, ha⟩ s
  obtain ⟨c, facet, e, he, hpart⟩ := h.exists_hasEntity hdim hq hx
  have hvertices : mesh.verticesOf (d - 1) e = spread n q x.corners := by
    rw [hpart.vertices_eq, spread_eq_spread_pattern n q x.corners]
    rfl
  have hstep : ∀ w ∈ spread n q x.corners, step n a w = step n a v := by
    rintro _ ⟨o, ho, rfl⟩
    have hsame := congrFun hmove ⟨a, ha⟩
    rw [step_number (move_mem_grid hq o) ⟨a, ha⟩]
    rw [move] at hsame ⊢
    rw [hface o ho, hsame]
  refine ⟨c, facet, e, he, ?_, a, ha, ?_⟩
  · rw [hvertices]
    exact ⟨s, hcorner, by rw [hmove, number_step hv]⟩
  · rw [hvertices]
    rcases hends with hends | hends
    · exact .inl fun w hw => by rw [hstep w hw, hends]
    · exact .inr fun w hw => by rw [hstep w hw, hends]

/-- The vertices on the sides of the lattice are those of the facets on the boundary. -/
theorem exists_boundaryFacet_iff (h : mesh.IsDissected S n) (hn : 1 ≤ n) {v : Nat}
    (hv : v < (n + 1) ^ d) :
    (∃ c facet, mesh.IsBoundaryFacet c facet ∧ v ∈ mesh.facetVertices c facet) ↔
      OnSide n d {v} := by
  have hdim : d - 1 < d := by
    rw [← h.dimension_eq]
    exact Nat.sub_lt mesh.shape.dimension_pos Nat.one_pos
  have hlt : d - 1 < mesh.dimension := by rwa [h.dimension_eq]
  constructor
  · rintro ⟨c, facet, hboundary, hmem⟩
    obtain ⟨e, he⟩ := h.wellFormed.exists_hasEntity (Nat.sub_le _ _) hboundary.1
      (mesh.shape.numEntities_facet ▸ hboundary.2.1)
    rw [facetVertices, h.dimension_eq] at hmem
    rw [h.dimension_eq] at he
    rw [← h.wellFormed.verticesOf_eq hlt he] at hmem
    exact ((h.isBoundaryFacet_iff hdim he).mp hboundary).mono (Set.singleton_subset_iff.mpr hmem)
  · intro hside
    obtain ⟨c, facet, e, he, hmem, hon⟩ := h.exists_facet_onSide hdim hn hv hside
    refine ⟨c, facet, (h.isBoundaryFacet_iff hdim he).mpr hon, ?_⟩
    rwa [facetVertices, h.dimension_eq, ← h.wellFormed.verticesOf_eq hlt he]

/-! ## The whole mesh -/

theorem count_vertices (h : mesh.IsDissected S n) : (mesh.table 0).count = (n + 1) ^ d := by
  rw [table_zero]
  exact h.numVertices_eq

theorem count_cells (h : mesh.IsDissected S n) :
    (mesh.table d).count = S.cells.length * n ^ d := by
  rw [← h.numCells_eq, ← h.dimension_eq, table_dimension]

theorem entityCounts_eq (h : mesh.IsDissected S n) :
    mesh.entityCounts = ⟨(List.range (d + 1)).map fun dim => (mesh.table dim).count⟩ := by
  rw [← h.dimension_eq, entityCounts, mesh.tables_eq, EntityTable.all, List.map_map]
  rfl

/-- The entities between vertices and cells, counted by the axes along which their patterns are
flat. -/
theorem count_eq (h : mesh.IsDissected S n) (hn : 1 ≤ n) {dim : Nat} (hpos : 0 < dim)
    (hdim : dim < d) {flats : Multiset Nat}
    (hflats : (S.patterns dim).val.map flatness = flats) :
    (mesh.table dim).count = (flats.map fun m => (n + 1) ^ m * n ^ (d - m)).sum := by
  have hlt : dim < mesh.dimension := by rwa [h.dimension_eq]
  rw [← h.wellFormed.ncard_vertexSets hpos hlt, h.ncard_vertexSets hn hpos hdim, ← hflats,
    Multiset.map_map]
  rfl

theorem facet_cells (h : mesh.IsDissected S n) (hd : 1 < d) {e : Nat}
    (he : e < (mesh.table (d - 1)).count) :
    ((mesh.cellsWith (d - 1) e).ncard = 1 ∨ (mesh.cellsWith (d - 1) e).ncard = 2) ∧
      ((mesh.cellsWith (d - 1) e).ncard = 1 ↔ OnSide n d (mesh.verticesOf (d - 1) e)) := by
  have hle : d - 1 ≤ mesh.dimension := by rw [h.dimension_eq]; exact Nat.sub_le _ _
  obtain ⟨c, index, hentity⟩ := (mem_entityIndices_iff hle).mp
    ((mem_entityIndices_of_pos (Nat.sub_pos_of_lt hd) hle).mpr he)
  rcases h.ncard_cellsWith (by omega) hentity with ⟨hside, hone⟩ | ⟨hinner, htwo⟩
  · exact ⟨.inl hone, iff_of_true hone hside⟩
  · exact ⟨.inr htwo, iff_of_false (by omega) hinner⟩

/-- Each facet has two sides, of which a cell has one, and the outside one on the boundary. -/
theorem two_mul_count_facets (h : mesh.IsDissected S n) (hd : 1 < d) :
    2 * (mesh.table (d - 1)).count =
      S.cells.length * n ^ d * (d + 1) + mesh.boundaryFacets.length := by
  have hdim := h.dimension_eq
  have hfacets : mesh.shape.numFacets = d + 1 := by
    rw [← hdim]
    rfl
  have hsides := h.wellFormed.two_mul_count_facets (by rwa [hdim]) (by
    rw [hdim]
    intro e he
    rcases (h.facet_cells hd he).1 with hone | htwo <;> omega)
  rwa [hdim, h.numCells_eq, hfacets] at hsides

theorem ncard_vertices_onBoundary (h : mesh.IsDissected S n) (hn : 1 ≤ n) :
    {v | v < (mesh.table 0).count ∧ mesh.OnBoundary 0 v}.ncard = (n + 1) ^ d - (n - 1) ^ d := by
  rw [← length_filter_onSide, ← List.toFinset_card_of_nodup (List.nodup_range.filter _),
    ← Set.ncard_coe_finset]
  congr 1
  ext v
  simp only [List.coe_toFinset, List.mem_filter, List.mem_range, decide_eq_true_eq,
    Set.mem_ofPred_eq, h.count_vertices, onBoundary_zero_iff]
  exact and_congr_right fun hv => h.exists_boundaryFacet_iff hn hv

/-- The boundary nodes of the piecewise linear space are the numbers of the points on the sides. -/
theorem boundaryNodes_p1 [Scalar α] (h : mesh.IsDissected S n) (hn : 1 ≤ n)
    (hbound : mesh.entityCounts.counts.sum < Index.bound)
    (hroom : 6 * mesh.boundaryFacets.length < Index.capacity) :
    mesh.boundaryNodes (.single (.p1 mesh.shape)) =
      .ok ((List.range ((n + 1) ^ d)).filter fun v => OnSide n d {v}) := by
  obtain ⟨nodes, hnodes, hsorted, hmem⟩ :=
    h.wellFormed.boundaryNodes_uniform (LayoutMap.isUniform_p1 mesh.shape) hbound
      (boundaryIsStorable_ofElement _ hroom)
  rw [hnodes, Except.ok.injEq]
  apply eq_filter_range hsorted
  intro v
  rw [hmem]
  constructor
  · rintro ⟨dim, hdim, e, he, hboundary, rfl⟩
    obtain rfl : dim = 0 := by omega
    rw [h.count_vertices] at he
    rw [onBoundary_zero_iff, h.exists_boundaryFacet_iff hn he] at hboundary
    simpa using ⟨he, hboundary⟩
  · rintro ⟨hv, hside⟩
    refine ⟨0, Nat.lt_min.mpr ⟨Nat.one_pos, mesh.shape.dimension_pos⟩, v,
      by rwa [h.count_vertices], ?_, ?_⟩
    · rwa [onBoundary_zero_iff, h.exists_boundaryFacet_iff hn hv]
    · rw [offset_zero, Nat.zero_add]

end IsDissected
end Mesh
end FiniteElement
