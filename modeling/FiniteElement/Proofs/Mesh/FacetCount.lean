import Mathlib
import FiniteElement.Proofs.Mesh.Boundary

/-! # Counting facets

A facet occurs as often in the walk over all facets as there are cells that it
belongs to. Where these are at most two, every facet has two sides, and counting
the sides of all cells counts the facets on the boundary once and the others twice.
-/

namespace FiniteElement

/-- An entry of a list occurs as often as there are places where it stands. -/
theorem ncard_places (xs : List Nat) (x : Nat) :
    {i : Nat | xs[i]? = some x}.ncard = xs.count x := by
  induction xs with
  | nil => simp
  | cons y xs ih =>
      have hplaces : {i | (y :: xs)[i]? = some x} =
          (if y = x then {0} else ∅) ∪ Nat.succ '' {i : Nat | xs[i]? = some x} := by
        ext i
        cases i with
        | zero => by_cases hyx : y = x <;> simp [hyx]
        | succ i => by_cases hyx : y = x <;> simp [hyx]
      have hfinite : {i : Nat | xs[i]? = some x}.Finite :=
        (Set.finite_Iio xs.length).subset fun i hi => (List.getElem?_eq_some_iff.mp hi).1
      have hshift := Set.ncard_image_of_injective {i : Nat | xs[i]? = some x} Nat.succ_injective
      rw [hplaces, List.count_cons, ← ih, ← hshift]
      by_cases hyx : y = x
      · have hnew : 0 ∉ Nat.succ '' {i : Nat | xs[i]? = some x} := by simp
        rw [if_pos hyx, Set.singleton_union, Set.ncard_insert_of_notMem hnew (hfinite.image _)]
        simp [hyx]
      · simp [hyx]

theorem countP_once (xs : List Nat) :
    (xs.countP fun x => xs.count x = 1) = (xs.toFinset.filter fun x => xs.count x = 1).card := by
  have hnodup : (xs.filter fun x => xs.count x = 1).Nodup := by
    rw [List.nodup_iff_count_le_one]
    intro x
    by_cases hx : xs.count x = 1
    · rw [List.count_filter (by simpa using hx), hx]
    · rw [List.count_eq_zero_of_not_mem]
      · exact Nat.zero_le 1
      · simp [hx]
  rw [List.countP_eq_length_filter, ← List.toFinset_card_of_nodup hnodup, List.toFinset_filter]
  simp

/-- In a list in which nothing occurs more than twice, the entries that occur once are missing a
second time. -/
theorem length_add_countP_once {xs : List Nat} (h : ∀ x ∈ xs, xs.count x ≤ 2) :
    xs.length + (xs.countP fun x => xs.count x = 1) = 2 * xs.toFinset.card := by
  rw [countP_once, ← List.sum_toFinset_count_eq_length, Finset.card_filter,
    ← Finset.sum_add_distrib, Finset.card_eq_sum_ones, Finset.mul_sum]
  apply Finset.sum_congr rfl
  intro x hx
  have hmem := List.mem_toFinset.mp hx
  have hpos : 0 < xs.count x := List.count_pos_iff.mpr hmem
  have hle := h x hmem
  split <;> omega

theorem length_filterMap_zipIdx {β γ : Type} (xs : List β) (p : β → Prop) [DecidablePred p]
    (f : β → Nat → γ) (k : Nat) :
    ((xs.zipIdx k).filterMap fun x => if p x.1 then some (f x.1 x.2) else none).length =
      xs.countP fun x => p x := by
  induction xs generalizing k with
  | nil => rfl
  | cons x xs ih =>
      rw [List.zipIdx_cons, List.filterMap_cons, List.countP_cons]
      by_cases hx : p x
      · simp [hx, ih]
      · simp [hx, ih]

namespace Mesh

variable {α : Type} {mesh : Mesh α}

theorem HasEntity.unique {cell dim index e e' : Nat} (h : mesh.HasEntity cell dim index e)
    (h' : mesh.HasEntity cell dim index e') : e = e' := by
  obtain ⟨row, hrow, he⟩ := h
  obtain ⟨row', hrow', he'⟩ := h'
  rw [hrow, Except.ok.injEq] at hrow'
  rw [hrow', he', Option.some.injEq] at he
  exact he.symm

def cellsWith (mesh : Mesh α) (dim e : Nat) : Set Nat :=
  {cell | ∃ index, mesh.HasEntity cell dim index e}

/-- An entity has one place in each of its cells. -/
theorem WellFormed.ncard_cellsWith (hmesh : mesh.WellFormed) {dim : Nat} (h : dim ≤ mesh.dimension)
    (e : Nat) : (mesh.cellsWith dim e).ncard = (mesh.entityIndices dim).count e := by
  let size := mesh.shape.numEntities dim
  have hplace : ∀ place, (mesh.entityIndices dim)[place]? = some e →
      mesh.HasEntity (place / size) dim (place % size) e := by
    intro place he
    have hlt : place < mesh.numCells * size := by
      rw [← hmesh.length_entityIndices h]
      exact (List.getElem?_eq_some_iff.mp he).1
    have hpos : 0 < size := Nat.pos_of_mul_pos_left (Nat.zero_lt_of_lt hlt)
    rwa [hmesh.hasEntity_iff_getElem? h (Nat.mod_lt place hpos), Nat.div_add_mod]
  have himage : mesh.cellsWith dim e =
      (· / size) '' {place : Nat | (mesh.entityIndices dim)[place]? = some e} := by
    ext cell
    constructor
    · rintro ⟨index, he⟩
      have hindex : index < size := (hmesh.lt_of_hasEntity h he).2
      refine ⟨size * cell + index, (hmesh.hasEntity_iff_getElem? h hindex).mp he, ?_⟩
      dsimp only
      rw [Nat.mul_add_div (Nat.zero_lt_of_lt hindex), Nat.div_eq_of_lt hindex, Nat.add_zero]
    · rintro ⟨place, he, rfl⟩
      exact ⟨place % size, hplace place he⟩
  have hinj : Set.InjOn (· / size) {place : Nat | (mesh.entityIndices dim)[place]? = some e} := by
    intro place he place' he' hcell
    have hentity := hplace place he
    dsimp only at hcell
    rw [hcell] at hentity
    have hindex := hmesh.index_eq_of_hasEntity h hentity (hplace place' he')
    rw [← Nat.div_add_mod place size, ← Nat.div_add_mod place' size, hcell, hindex]
  rw [himage, hinj.ncard_image, ncard_places]

/-- The boundary facets are the entries of the walk over all facets that are used once. -/
theorem WellFormed.length_boundaryFacets (hmesh : mesh.WellFormed) :
    mesh.boundaryFacets.length = (mesh.entityIndices (mesh.dimension - 1)).countP fun e =>
      (mesh.entityIndices (mesh.dimension - 1)).count e = 1 := by
  have hle : mesh.dimension - 1 ≤ mesh.dimension := Nat.sub_le _ _
  have huses : ∀ e ∈ mesh.entityIndices (mesh.dimension - 1),
      decide (mesh.facetUses[e]? = some 1) ↔
        decide ((mesh.entityIndices (mesh.dimension - 1)).count e = 1) := by
    intro e he
    obtain ⟨cell, index, row, hrow, hindex⟩ := (mem_entityIndices_iff hle).mp he
    rw [getElem?_facetUses (hmesh.lt_count hle hrow e (List.mem_of_getElem? hindex)),
      decide_eq_true_eq, decide_eq_true_eq, Option.some.injEq]
  let rows := mesh.facetTable.ofCell.toList
  calc mesh.boundaryFacets.length
      = (rows.zipIdx.map fun x => x.1.countP fun e => mesh.facetUses[e]? = some 1).sum := by
        rw [boundaryFacets, List.length_flatMap]
        exact congrArg List.sum (List.map_congr_left fun x _ =>
          length_filterMap_zipIdx x.1 (fun e => mesh.facetUses[e]? = some 1)
            (fun _ localFacet => (x.2, localFacet)) 0)
    _ = (rows.map fun row => row.countP fun e => mesh.facetUses[e]? = some 1).sum := by
        nth_rewrite 2 [← List.zipIdx_map_fst 0 rows]
        rw [List.map_map]
        rfl
    _ = (mesh.entityIndices (mesh.dimension - 1)).countP fun e =>
          mesh.facetUses[e]? = some 1 := by
        rw [entityIndices_eq hle, ← facetTable_eq, List.countP_flatten]
    _ = (mesh.entityIndices (mesh.dimension - 1)).countP fun e =>
          (mesh.entityIndices (mesh.dimension - 1)).count e = 1 := List.countP_congr huses

theorem WellFormed.length_boundaryFacets_le (hmesh : mesh.WellFormed) :
    mesh.boundaryFacets.length ≤ mesh.numCells * mesh.shape.numFacets := by
  rw [hmesh.length_boundaryFacets, ← Shape.numEntities_facet]
  exact Nat.le_trans List.countP_le_length
    (Nat.le_of_eq (hmesh.length_entityIndices (Nat.sub_le _ _)))

/-- A facet lies on the boundary if it belongs to one cell. -/
theorem WellFormed.isBoundaryFacet_iff (hmesh : mesh.WellFormed) {cell facet e : Nat}
    (he : mesh.HasEntity cell (mesh.dimension - 1) facet e) :
    mesh.IsBoundaryFacet cell facet ↔ (mesh.cellsWith (mesh.dimension - 1) e).ncard = 1 := by
  have hle : mesh.dimension - 1 ≤ mesh.dimension := Nat.sub_le _ _
  have huses : mesh.facetUses[e]? = some ((mesh.entityIndices (mesh.dimension - 1)).count e) := by
    obtain ⟨row, hrow, hindex⟩ := he
    exact getElem?_facetUses (hmesh.lt_count hle hrow e (List.mem_of_getElem? hindex))
  rw [← hmesh.mem_boundaryFacets_iff, mem_boundaryFacets_iff_uses, hmesh.ncard_cellsWith hle]
  constructor
  · rintro ⟨e', he', hone⟩
    rw [he'.unique he, huses, Option.some.injEq] at hone
    exact hone
  · intro hone
    exact ⟨e, he, by rw [huses, hone]⟩

/-- Each facet with a single cell is the boundary facet of one cell. -/
theorem WellFormed.length_boundaryFacets_eq_card (hmesh : mesh.WellFormed)
    (hdim : 1 < mesh.dimension) :
    mesh.boundaryFacets.length = ((Finset.range (mesh.table (mesh.dimension - 1)).count).filter
      fun e => (mesh.cellsWith (mesh.dimension - 1) e).ncard = 1).card := by
  rw [hmesh.length_boundaryFacets, countP_once]
  congr 1
  ext e
  simp only [Finset.mem_filter, List.mem_toFinset, Finset.mem_range,
    hmesh.ncard_cellsWith (Nat.sub_le _ _),
    mem_entityIndices_of_pos (Nat.sub_pos_of_lt hdim) (Nat.sub_le _ _)]

/-- Where no facet belongs to more than two cells, the facets of all cells and those on the boundary
make up two sides for each facet. -/
theorem WellFormed.two_mul_count_facets (hmesh : mesh.WellFormed) (hdim : 1 < mesh.dimension)
    (h : ∀ e < (mesh.table (mesh.dimension - 1)).count,
      (mesh.cellsWith (mesh.dimension - 1) e).ncard ≤ 2) :
    2 * (mesh.table (mesh.dimension - 1)).count =
      mesh.numCells * mesh.shape.numFacets + mesh.boundaryFacets.length := by
  have hle : mesh.dimension - 1 ≤ mesh.dimension := Nat.sub_le _ _
  have hmem : ∀ e, e ∈ mesh.entityIndices (mesh.dimension - 1) ↔
      e < (mesh.table (mesh.dimension - 1)).count := fun e =>
    mem_entityIndices_of_pos (Nat.sub_pos_of_lt hdim) hle
  have hfinset : (mesh.entityIndices (mesh.dimension - 1)).toFinset =
      Finset.range (mesh.table (mesh.dimension - 1)).count := by
    ext e
    rw [List.mem_toFinset, Finset.mem_range, hmem]
  have htwice : ∀ e ∈ mesh.entityIndices (mesh.dimension - 1),
      (mesh.entityIndices (mesh.dimension - 1)).count e ≤ 2 := by
    intro e he
    rw [← hmesh.ncard_cellsWith hle]
    exact h e ((hmem e).mp he)
  have hsides := length_add_countP_once htwice
  have hfacets : mesh.shape.numEntities (mesh.dimension - 1) = mesh.shape.numFacets :=
    mesh.shape.numEntities_facet
  rw [hfinset, Finset.card_range, hmesh.length_entityIndices hle, hfacets,
    ← hmesh.length_boundaryFacets] at hsides
  exact hsides.symm

end Mesh
end FiniteElement
