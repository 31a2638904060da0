import Mathlib
import FiniteElement.Proofs.Lattice.Facets
import FiniteElement.Proofs.Mesh.Unit

/-! # The unit square

The squares of the lattice are cut along the same diagonal, so the triangles fit
together at every resolution, and the boundary of the mesh is that of the square.
-/

namespace FiniteElement

open FiniteElement.Lattice

/-- A square in two triangles, cut along the diagonal from its lower corner. -/
def squareDissection : Dissection 2 where
  shape := .triangle
  cells := [[![false, false], ![true, false], ![true, true]],
    [![false, false], ![true, true], ![false, true]]]
  dimension_eq := rfl
  nodup_cells := by decide +kernel
  head_cell := by decide +kernel
  movable := by decide +kernel
  paired := by decide +kernel
  sided := by decide +kernel

/-- Of the edges of a square two are flat along one axis, and the diagonal along none. -/
theorem flatness_square_edges :
    (squareDissection.patterns 1).val.map flatness = {1, 1, 0} := by decide +kernel

namespace UnitMesh

variable {α : Type} [Scalar α]

theorem step_squareVertex {n i j : Nat} (hi : i ≤ n) (hj : j ≤ n) :
    step n 0 (squareVertex n i j) = i ∧ step n 1 (squareVertex n i j) = j := by
  have hmem : ![i, j] ∈ grid 2 (n + 1) := by
    rw [mem_grid, Fin.forall_fin_two]
    exact ⟨Nat.lt_succ_of_le hi, Nat.lt_succ_of_le hj⟩
  rw [squareVertex_eq_number]
  exact ⟨step_number hmem 0, step_number hmem 1⟩

theorem number_move_square (n i j : Nat) (o : Corner 2) :
    number n (move ![i, j] o) = squareVertex n (i + (o 0).toNat) (j + (o 1).toNat) := by
  rw [squareVertex_eq_number]
  congr 1
  ext a
  fin_cases a <;> rfl

theorem squareCells_eq (n i j : Nat) :
    squareCells n i j = squareDissection.cells.map (place n ![i, j]) := by
  simp [squareCells, squareDissection, place, number_move_square]

theorem isDissected_unitSquare {n : Nat} (hn : 1 ≤ n) :
    (unitSquare n : Mesh α).IsDissected squareDissection n where
  wellFormed := wellFormed_unitSquare n
  shape_eq := rfl
  numVertices_eq := numVertices_mesh square (Nat.ne_of_gt hn)
  numCells_eq := numCells_mesh square n
  mem_cells_iff := by
    intro vertices
    simp only [unitSquare, List.mem_toArray, List.mem_flatMap, List.mem_range, squareCells_eq,
      List.mem_map]
    constructor
    · rintro ⟨j, hj, i, hi, cell, hcell, heq⟩
      exact ⟨![i, j], by rw [mem_grid, Fin.forall_fin_two]; exact ⟨hi, hj⟩, cell, hcell, heq⟩
    · rintro ⟨q, hq, cell, hcell, heq⟩
      have hq' : ![q 0, q 1] = q := by
        ext a
        fin_cases a <;> rfl
      rw [mem_grid] at hq
      exact ⟨q 1, hq 1, q 0, hq 0, cell, hcell, by rwa [hq']⟩

/-! ## Counts -/

theorem count_edges_unitSquare {n : Nat} (hn : 1 ≤ n) :
    ((unitSquare n : Mesh α).table 1).count = 3 * n ^ 2 + 2 * n := by
  rw [(isDissected_unitSquare hn).count_eq hn Nat.one_pos (by decide) flatness_square_edges]
  simp
  ring

theorem entityCounts_unitSquare {n : Nat} (hn : 1 ≤ n) :
    (unitSquare n : Mesh α).entityCounts =
      ⟨[(n + 1) ^ 2, 3 * n ^ 2 + 2 * n, 2 * n ^ 2]⟩ := by
  have h : (unitSquare n : Mesh α).IsDissected squareDissection n := isDissected_unitSquare hn
  have hcells : ((unitSquare n : Mesh α).table 2).count = 2 * n ^ 2 := h.count_cells
  rw [h.entityCounts_eq, ← count_edges_unitSquare (α := α) hn, ← h.count_vertices, ← hcells]
  rfl

theorem sum_entityCounts_unitSquare_lt {n : Nat} (hn : 1 ≤ n) (hstorable : square.IsStorable n) :
    (unitSquare n : Mesh α).entityCounts.counts.sum < Index.bound := by
  have hlarge : 2 * Index.tableCapacity + 1 < Index.bound := by decide
  have hpoints : (n + 1) ^ 2 = n ^ 2 + 2 * n + 1 := by ring
  rw [isStorable_square_iff] at hstorable
  rw [entityCounts_unitSquare hn, hpoints]
  simp only [List.sum_cons, List.sum_nil]
  omega

/-- Twice the edges, less the three edges of each triangle. -/
theorem length_boundaryFacets_unitSquare {n : Nat} (hn : 1 ≤ n) :
    (unitSquare n : Mesh α).boundaryFacets.length = 4 * n := by
  have hsides := (isDissected_unitSquare (α := α) hn).two_mul_count_facets (by decide)
  have hcells : squareDissection.cells.length = 2 := rfl
  rw [Nat.add_one_sub_one, count_edges_unitSquare hn, hcells] at hsides
  omega

theorem boundary_unitSquare_lt {n : Nat} (hn : 1 ≤ n) (hstorable : square.IsStorable n) :
    6 * (unitSquare n : Mesh α).boundaryFacets.length < Index.capacity := by
  have hlarge : 5 * Index.tableCapacity < Index.capacity := by decide
  have hsquare : n ≤ n ^ 2 := Nat.le_self_pow (by decide) n
  rw [isStorable_square_iff] at hstorable
  rw [length_boundaryFacets_unitSquare hn]
  omega

theorem succ_sq_sub_pred_sq {n : Nat} (hn : 1 ≤ n) : (n + 1) ^ 2 - (n - 1) ^ 2 = 4 * n := by
  obtain ⟨m, rfl⟩ := Nat.exists_eq_add_of_le' hn
  rw [Nat.add_sub_cancel, Nat.sub_eq_iff_eq_add (Nat.pow_le_pow_left (by omega) 2)]
  ring

/-- The quadratic space has one boundary node for each vertex and each edge on the boundary. -/
theorem length_boundaryNodes_p2_unitSquare {n : Nat} (hn : 1 ≤ n)
    (hstorable : square.IsStorable n) :
    ∃ nodes, (unitSquare n : Mesh α).boundaryNodes (.single (.p2 .triangle)) = .ok nodes ∧
      nodes.length = 8 * n := by
  have h : (unitSquare n : Mesh α).IsDissected squareDissection n := isDissected_unitSquare hn
  have hvertices := h.ncard_vertices_onBoundary hn
  have hedges := h.wellFormed.ncard_facets_onBoundary (by rw [h.dimension_eq]; decide)
  obtain ⟨nodes, hnodes, hlength⟩ := h.wellFormed.length_boundaryNodes_uniform
    (LayoutMap.isUniform_p2 .triangle) (sum_entityCounts_unitSquare_lt hn hstorable)
    (Mesh.boundaryIsStorable_ofElement _ (boundary_unitSquare_lt hn hstorable))
  rw [h.dimension_eq, Nat.add_one_sub_one, length_boundaryFacets_unitSquare hn] at hedges
  rw [h.dimension_eq, Nat.min_self, Finset.sum_range_succ, Finset.sum_range_one, hvertices,
    hedges, succ_sq_sub_pred_sq hn] at hlength
  exact ⟨nodes, hnodes, by omega⟩

/-! ## Topology -/

/-- At every resolution that can be stored the unit square is a conforming mesh, and its boundary is
that of the square: the edges and vertices whose steps along some axis are all none or all `n`. -/
theorem unitSquare_topology {n : Nat} (hn : 1 ≤ n) (hstorable : UnitMesh.square.IsStorable n) :
    (∀ i ≤ n, ∀ j ≤ n,
      step n 0 (squareVertex n i j) = i ∧ step n 1 (squareVertex n i j) = j) ∧
    ∃ mesh : Mesh α, UnitMesh.square.build n = .ok mesh ∧
      mesh.entityCounts = ⟨[(n + 1) ^ 2, 3 * n ^ 2 + 2 * n, 2 * n ^ 2]⟩ ∧
      (∀ edge < 3 * n ^ 2 + 2 * n,
        ((mesh.cellsWith 1 edge).ncard = 1 ∨ (mesh.cellsWith 1 edge).ncard = 2) ∧
        ((mesh.cellsWith 1 edge).ncard = 1 ↔ OnSide n 2 (mesh.verticesOf 1 edge))) ∧
      mesh.boundaryFacets.length = 4 * n ∧
      (∃ nodes, mesh.boundaryNodes (.single (.p1 .triangle)) = .ok nodes ∧
        nodes = (List.range ((n + 1) ^ 2)).filter (fun v => OnSide n 2 {v}) ∧
        nodes.length = 4 * n) ∧
      ∃ nodes, mesh.boundaryNodes (.single (.p2 .triangle)) = .ok nodes ∧
        nodes.length = 8 * n := by
  have h : (unitSquare n : Mesh α).IsDissected squareDissection n := isDissected_unitSquare hn
  refine ⟨fun i hi j hj => step_squareVertex hi hj, unitSquare n, ?_, entityCounts_unitSquare hn,
    ?_, length_boundaryFacets_unitSquare hn, ⟨_, h.boundaryNodes_p1 hn
      (sum_entityCounts_unitSquare_lt hn hstorable) (boundary_unitSquare_lt hn hstorable), rfl, ?_⟩,
    length_boundaryNodes_p2_unitSquare hn hstorable⟩
  · exact build_eq_ok_iff.mpr ⟨hstorable, rfl⟩
  · intro edge hedge
    rw [← count_edges_unitSquare (α := α) hn] at hedge
    exact h.facet_cells (by decide) hedge
  · rw [length_filter_onSide, succ_sq_sub_pred_sq hn]

/-- Four squares have 16 edges, of which eight lie on the boundary, and one vertex inside. -/
theorem unitSquare_topology_of_four_squares :
    ∃ mesh : Mesh Rat, UnitMesh.square.build 2 = .ok mesh ∧ mesh.entityCounts = ⟨[9, 16, 8]⟩ ∧
      mesh.boundaryFacets.length = 8 ∧
      mesh.boundaryNodes (.single (.p1 .triangle)) = .ok [0, 1, 2, 3, 5, 6, 7, 8] ∧
      ∃ nodes, mesh.boundaryNodes (.single (.p2 .triangle)) = .ok nodes ∧ nodes.length = 16 := by
  have hstorable : UnitMesh.square.IsStorable 2 := by decide
  obtain ⟨-, mesh, hbuild, hcounts, -, hfacets, ⟨nodes, hnodes, heq, -⟩, hquadratic⟩ :=
    unitSquare_topology (α := Rat) (by decide) hstorable
  refine ⟨mesh, hbuild, hcounts, hfacets, ?_, hquadratic⟩
  rw [hnodes, heq]
  decide +kernel

/-- In `10 ^ 9` parts all lists have lengths that are indices, but they cannot be stored. -/
theorem unitSquare_not_built :
    2 * (10 ^ 9 + 1) ^ 2 < Index.bound ∧ 6 * (10 ^ 9) ^ 2 < Index.bound ∧
      (UnitMesh.square.build (10 ^ 9) : Except Fault (Mesh Rat)) = .error .tooManyEntries := by
  have hlarge : ¬ UnitMesh.square.IsStorable (10 ^ 9) := by decide +kernel
  exact ⟨by decide +kernel, by decide +kernel, if_neg hlarge⟩

end UnitMesh
end FiniteElement
