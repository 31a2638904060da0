import Mathlib
import FiniteElement.Proofs.Lattice.Facets
import FiniteElement.Proofs.Mesh.Unit

/-! # The unit cube

The tetrahedra of a cube are the walks from its lower to its upper corner, one for
each order of the axes. Neighbouring cubes are cut alike on their common face, so
the tetrahedra fit together at every resolution.
-/

namespace FiniteElement

open FiniteElement.Lattice

def cornerWalk {d : Nat} (o : Corner d) : List (Fin d) → List (Corner d)
  | [] => [o]
  | axis :: rest => o :: cornerWalk (fun a => o a || a = axis) rest

def boxOrders : List (List (Fin 3)) :=
  [[0, 1, 2], [0, 2, 1], [1, 0, 2], [1, 2, 0], [2, 0, 1], [2, 1, 0]]

/-- A cube in six tetrahedra, one for each order of the axes. -/
def boxDissection : Dissection 3 where
  shape := .tetrahedron
  cells := boxOrders.map (cornerWalk fun _ => false)
  dimension_eq := rfl
  nodup_cells := by decide +kernel
  head_cell := by decide +kernel
  movable := by decide +kernel
  paired := by decide +kernel
  sided := by decide +kernel

/-- The edges of a cube, the diagonals of its faces, and its diagonal. -/
theorem flatness_box_edges :
    (boxDissection.patterns 1).val.map flatness = {2, 2, 2, 1, 1, 1, 0} := by decide +kernel

/-- The triangles on the faces of a cube, and those inside. -/
theorem flatness_box_faces :
    (boxDissection.patterns 2).val.map flatness = {1, 1, 1, 1, 1, 1, 0, 0, 0, 0, 0, 0} := by
  decide +kernel

namespace UnitMesh

variable {α : Type} [Scalar α]

theorem step_boxVertex {n i j k : Nat} (hi : i ≤ n) (hj : j ≤ n) (hk : k ≤ n) :
    step n 0 (boxVertex n i j k) = i ∧ step n 1 (boxVertex n i j k) = j ∧
      step n 2 (boxVertex n i j k) = k := by
  have hmem : ![i, j, k] ∈ grid 3 (n + 1) := by
    rw [mem_grid]
    intro a
    fin_cases a <;> simp <;> omega
  rw [boxVertex_eq_number]
  exact ⟨step_number hmem 0, step_number hmem 1, step_number hmem 2⟩

theorem boxVertex_eq_number_of_point (n : Nat) (p : Fin 3 → Nat) :
    boxVertex n (p 0) (p 1) (p 2) = number n p := by
  rw [boxVertex_eq_number]
  congr 1
  ext a
  fin_cases a <;> rfl

/-- A walk on the lattice meets the corners of a cube as long as no axis is taken twice. -/
theorem walk_eq_place (n : Nat) (q : Fin 3 → Nat) {axes : List (Fin 3)} {o : Corner 3}
    (hnodup : axes.Nodup) (hfresh : ∀ a ∈ axes, o a = false) :
    walk n (move q o 0) (move q o 1) (move q o 2) (axes.map Fin.val) =
      place n q (cornerWalk o axes) := by
  induction axes generalizing o with
  | nil =>
      rw [List.map_nil, walk, boxVertex_eq_number_of_point]
      rfl
  | cons axis axes ih =>
      obtain ⟨hnew, hrest⟩ := List.nodup_cons.mp hnodup
      have haxis : o axis = false := hfresh axis List.mem_cons_self
      have hstep : ∀ a, move q (fun a => o a || a = axis) a =
          if a = axis then move q o a + 1 else move q o a := by
        intro a
        by_cases ha : a = axis
        · subst ha
          simp [move, haxis]
        · simp [move, ha]
      have hnext := ih (o := fun a => o a || a = axis) hrest fun a ha => by
        have hne : a ≠ axis := fun heq => hnew (heq ▸ ha)
        simp [hfresh a (List.mem_cons_of_mem _ ha), hne]
      simp only [hstep] at hnext
      rw [List.map_cons, walk, boxVertex_eq_number_of_point, cornerWalk, place, List.map_cons,
        ← place, ← hnext]
      fin_cases axis <;> simp

theorem boxCells_eq (n i j k : Nat) :
    boxCells n i j k = boxDissection.cells.map (place n ![i, j, k]) := by
  have horders : axisOrders = boxOrders.map (List.map Fin.val) := rfl
  have hnodup : ∀ axes ∈ boxOrders, axes.Nodup := by decide
  rw [boxCells, horders, boxDissection, List.map_map, List.map_map]
  apply List.map_congr_left
  intro axes haxes
  have hwalk := walk_eq_place n ![i, j, k] (o := fun _ => false) (hnodup axes haxes) fun _ _ => rfl
  simpa [move] using hwalk

theorem isDissected_unitBox {n : Nat} (hn : 1 ≤ n) :
    (unitBox n : Mesh α).IsDissected boxDissection n where
  wellFormed := wellFormed_unitBox n
  shape_eq := rfl
  numVertices_eq := numVertices_mesh box (Nat.ne_of_gt hn)
  numCells_eq := numCells_mesh box n
  mem_cells_iff := by
    intro vertices
    simp only [unitBox, List.mem_toArray, List.mem_flatMap, List.mem_range, boxCells_eq,
      List.mem_map]
    constructor
    · rintro ⟨k, hk, j, hj, i, hi, cell, hcell, heq⟩
      refine ⟨![i, j, k], ?_, cell, hcell, heq⟩
      rw [mem_grid]
      intro a
      fin_cases a <;> assumption
    · rintro ⟨q, hq, cell, hcell, heq⟩
      have hq' : ![q 0, q 1, q 2] = q := by
        ext a
        fin_cases a <;> rfl
      rw [mem_grid] at hq
      exact ⟨q 2, hq 2, q 1, hq 1, q 0, hq 0, cell, hcell, by rwa [hq']⟩

/-! ## Counts -/

theorem count_edges_unitBox {n : Nat} (hn : 1 ≤ n) :
    ((unitBox n : Mesh α).table 1).count = 7 * n ^ 3 + 9 * n ^ 2 + 3 * n := by
  rw [(isDissected_unitBox hn).count_eq hn Nat.one_pos (by decide) flatness_box_edges]
  simp
  ring

theorem count_faces_unitBox {n : Nat} (hn : 1 ≤ n) :
    ((unitBox n : Mesh α).table 2).count = 12 * n ^ 3 + 6 * n ^ 2 := by
  rw [(isDissected_unitBox hn).count_eq hn Nat.two_pos (by decide) flatness_box_faces]
  simp
  ring

theorem entityCounts_unitBox {n : Nat} (hn : 1 ≤ n) :
    (unitBox n : Mesh α).entityCounts =
      ⟨[(n + 1) ^ 3, 7 * n ^ 3 + 9 * n ^ 2 + 3 * n, 12 * n ^ 3 + 6 * n ^ 2, 6 * n ^ 3]⟩ := by
  have h : (unitBox n : Mesh α).IsDissected boxDissection n := isDissected_unitBox hn
  have hcells : ((unitBox n : Mesh α).table 3).count = 6 * n ^ 3 := h.count_cells
  rw [h.entityCounts_eq, ← count_edges_unitBox (α := α) hn, ← count_faces_unitBox (α := α) hn,
    ← h.count_vertices, ← hcells]
  rfl

theorem sum_entityCounts_unitBox_lt {n : Nat} (hn : 1 ≤ n) (hstorable : box.IsStorable n) :
    (unitBox n : Mesh α).entityCounts.counts.sum < Index.bound := by
  have hlarge : 5 * Index.tableCapacity + 1 < Index.bound := by decide
  have hpoints : (n + 1) ^ 3 = n ^ 3 + 3 * n ^ 2 + 3 * n + 1 := by ring
  have hsquare : n ≤ n ^ 2 := Nat.le_self_pow (by decide) n
  rw [isStorable_box_iff] at hstorable
  rw [entityCounts_unitBox hn, hpoints]
  simp only [List.sum_cons, List.sum_nil]
  omega

/-- Twice the faces, less the four faces of each tetrahedron. -/
theorem length_boundaryFacets_unitBox {n : Nat} (hn : 1 ≤ n) :
    (unitBox n : Mesh α).boundaryFacets.length = 12 * n ^ 2 := by
  have hsides := (isDissected_unitBox (α := α) hn).two_mul_count_facets (by decide)
  have hcells : boxDissection.cells.length = 6 := rfl
  rw [Nat.add_one_sub_one, count_faces_unitBox hn, hcells] at hsides
  omega

theorem boundary_unitBox_lt {n : Nat} (hn : 1 ≤ n) (hstorable : box.IsStorable n) :
    6 * (unitBox n : Mesh α).boundaryFacets.length < Index.capacity := by
  have hlarge : 4 * Index.tableCapacity < Index.capacity := by decide
  have hcube : n ^ 2 ≤ n ^ 3 := Nat.pow_le_pow_right hn (by decide)
  rw [isStorable_box_iff] at hstorable
  rw [length_boundaryFacets_unitBox hn]
  omega

theorem succ_cube_sub_pred_cube {n : Nat} (hn : 1 ≤ n) :
    (n + 1) ^ 3 - (n - 1) ^ 3 = 6 * n ^ 2 + 2 := by
  obtain ⟨m, rfl⟩ := Nat.exists_eq_add_of_le' hn
  rw [Nat.add_sub_cancel, Nat.sub_eq_iff_eq_add (Nat.pow_le_pow_left (by omega) 3)]
  ring

/-! ## Topology -/

/-- At every resolution that can be stored the unit cube is a conforming mesh, and its boundary is
that of the cube: the faces and vertices whose steps along some axis are all none or all `n`. -/
theorem unitBox_topology {n : Nat} (hn : 1 ≤ n) (hstorable : UnitMesh.box.IsStorable n) :
    (∀ i ≤ n, ∀ j ≤ n, ∀ k ≤ n, step n 0 (boxVertex n i j k) = i ∧
      step n 1 (boxVertex n i j k) = j ∧ step n 2 (boxVertex n i j k) = k) ∧
    ∃ mesh : Mesh α, UnitMesh.box.build n = .ok mesh ∧
      mesh.entityCounts = ⟨[(n + 1) ^ 3, 7 * n ^ 3 + 9 * n ^ 2 + 3 * n, 12 * n ^ 3 + 6 * n ^ 2,
        6 * n ^ 3]⟩ ∧
      (∀ face < 12 * n ^ 3 + 6 * n ^ 2,
        ((mesh.cellsWith 2 face).ncard = 1 ∨ (mesh.cellsWith 2 face).ncard = 2) ∧
        ((mesh.cellsWith 2 face).ncard = 1 ↔ OnSide n 3 (mesh.verticesOf 2 face))) ∧
      mesh.boundaryFacets.length = 12 * n ^ 2 ∧
      ∃ nodes, mesh.boundaryNodes (.single (.p1 .tetrahedron)) = .ok nodes ∧
        nodes = (List.range ((n + 1) ^ 3)).filter (fun v => OnSide n 3 {v}) ∧
        nodes.length = 6 * n ^ 2 + 2 := by
  have h : (unitBox n : Mesh α).IsDissected boxDissection n := isDissected_unitBox hn
  refine ⟨fun i hi j hj k hk => step_boxVertex hi hj hk, unitBox n, ?_, entityCounts_unitBox hn,
    ?_, length_boundaryFacets_unitBox hn, _, h.boundaryNodes_p1 hn
      (sum_entityCounts_unitBox_lt hn hstorable) (boundary_unitBox_lt hn hstorable), rfl, ?_⟩
  · exact build_eq_ok_iff.mpr ⟨hstorable, rfl⟩
  · intro face hface
    rw [← count_faces_unitBox (α := α) hn] at hface
    exact h.facet_cells (by decide) hface
  · rw [length_filter_onSide, succ_cube_sub_pred_cube hn]

/-- Eight cubes have 120 triangles, of which 48 lie on the boundary, and one vertex inside. -/
theorem unitBox_topology_of_eight_cubes :
    ∃ mesh : Mesh Rat, UnitMesh.box.build 2 = .ok mesh ∧
      mesh.entityCounts = ⟨[27, 98, 120, 48]⟩ ∧ mesh.boundaryFacets.length = 48 ∧
      ∃ nodes, mesh.boundaryNodes (.single (.p1 .tetrahedron)) = .ok nodes ∧
        nodes.length = 26 ∧ 13 ∉ nodes := by
  have hstorable : UnitMesh.box.IsStorable 2 := by decide
  obtain ⟨-, mesh, hbuild, hcounts, -, hfacets, nodes, hnodes, heq, hlength⟩ :=
    unitBox_topology (α := Rat) (by decide) hstorable
  refine ⟨mesh, hbuild, hcounts, hfacets, nodes, hnodes, hlength, ?_⟩
  rw [heq]
  decide +kernel

/-- In 740000 parts all lists have lengths that are indices, but they cannot be stored. -/
theorem unitBox_not_built :
    3 * (740000 + 1) ^ 3 < Index.bound ∧ 36 * 740000 ^ 3 < Index.bound ∧
      (UnitMesh.box.build 740000 : Except Fault (Mesh Rat)) = .error .tooManyEntries := by
  have hlarge : ¬ UnitMesh.box.IsStorable 740000 := by decide +kernel
  exact ⟨by decide +kernel, by decide +kernel, if_neg hlarge⟩

end UnitMesh
end FiniteElement
