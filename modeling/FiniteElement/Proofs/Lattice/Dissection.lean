import Mathlib
import FiniteElement.Proofs.Lattice.Pattern
import FiniteElement.Proofs.Mesh.FacetCount

/-! # Dissections of a cube into simplices

A lattice is cut into simplices by cutting each of its cubes alike. Whether the
simplices of neighbouring cubes fit together can be read off a single cube: there
every facet must have a partner with the same pattern, in the same cube or across
exactly the faces on which it lies. `IsDissected` says that a mesh arises so.
-/

namespace FiniteElement

namespace Lattice

variable {d n : Nat}

/-- An entity of a cell: the corners of the cell, and which of them belong to the entity. -/
structure Part (d : Nat) where
  cell : List (Corner d)
  entity : List Nat
  deriving DecidableEq

namespace Part

def corners (x : Part d) : Finset (Corner d) :=
  (x.entity.map fun k => x.cell.getD k fun _ => false).toFinset

def low (x : Part d) : Corner d := Lattice.low x.corners

def pattern (x : Part d) : Finset (Corner d) := Lattice.pattern x.corners

theorem move_low_mem_anchors (x : Part d) {q : Fin d → Nat} (hq : q ∈ grid d n) :
    move q x.low ∈ anchors n x.pattern :=
  Lattice.move_low_mem_anchors hq x.corners

end Part

structure Cut (d : Nat) where
  shape : Shape
  cells : List (List (Corner d))

namespace Cut

def parts (cut : Cut d) (dim : Nat) : List (Part d) :=
  cut.cells.flatMap fun cell => (cut.shape.entities dim).map (Part.mk cell)

/-- The entities of a dimension occur on both faces of the cube along each axis in which they are
flat. -/
def Movable (cut : Cut d) (dim : Nat) : Prop :=
  ∀ x ∈ cut.parts dim, ∀ s : Corner d, (∀ a, s a = true → IsFlat x.pattern a) →
    ∃ y ∈ cut.parts dim, y.low = s ∧ y.pattern = x.pattern

instance (cut : Cut d) (dim : Nat) : Decidable (cut.Movable dim) :=
  inferInstanceAs (Decidable (∀ x ∈ cut.parts dim, ∀ _ : Corner d, _ → _))

/-- Two facets of different cells that are alike, unlike all others, and opposite each other along
the axes in which they are flat. -/
def Partners (cut : Cut d) (x y : Part d) : Prop :=
  y.cell ≠ x.cell ∧ y.pattern = x.pattern ∧
    (∀ z ∈ cut.parts (d - 1), z.pattern = x.pattern → z = x ∨ z = y) ∧
    ∀ a, x.low a ≠ y.low a ↔ IsFlat x.pattern a

instance (cut : Cut d) (x y : Part d) : Decidable (cut.Partners x y) :=
  inferInstanceAs (Decidable (_ ∧ _ ∧ _ ∧ _))

end Cut

/-- A cut of the cube for which the cells of equally cut cubes fit together. -/
structure Dissection (d : Nat) extends Cut d where
  dimension_eq : shape.dimension = d
  nodup_cells : cells.Nodup
  /-- Each cell starts at the lower corner. -/
  head_cell : ∀ cell ∈ cells, cell.head? = some fun _ => false
  movable : ∀ dim < d, 0 < dim → toCut.Movable dim
  /-- Every facet has a partner, in the same cube or across the faces on which it lies. -/
  paired : ∀ x ∈ toCut.parts (d - 1), ∃ y ∈ toCut.parts (d - 1), toCut.Partners x y
  /-- Each corner belongs to a facet on each face of the cube that it lies on. -/
  sided : ∀ (a : Fin d) (o : Corner d), ∃ x ∈ toCut.parts (d - 1),
    o ∈ x.corners ∧ ∀ o' ∈ x.corners, o' a = o a

namespace Dissection

def patterns (S : Dissection d) (dim : Nat) : Finset (Finset (Corner d)) :=
  ((S.parts dim).map Part.pattern).toFinset

theorem mem_parts {S : Dissection d} {dim : Nat} {x : Part d} :
    x ∈ S.parts dim ↔ x.cell ∈ S.cells ∧ x.entity ∈ S.shape.entities dim := by
  simp only [Cut.parts, List.mem_flatMap, List.mem_map]
  constructor
  · rintro ⟨cell, hcell, entity, hentity, rfl⟩
    exact ⟨hcell, hentity⟩
  · rintro ⟨hcell, hentity⟩
    exact ⟨x.cell, hcell, x.entity, hentity, rfl⟩

theorem touches_of_mem_parts {S : Dissection d} {dim : Nat} {x : Part d} (hx : x ∈ S.parts dim) :
    Touches x.pattern := by
  apply touches_pattern
  have hlength := Shape.length_of_mem_entities (mem_parts.mp hx).2
  rw [Part.corners, List.toFinset_nonempty_iff]
  intro hnil
  rw [List.map_eq_nil_iff] at hnil
  simp [hnil] at hlength

end Dissection

/-! ## Cells in their cubes -/

def place (n : Nat) (q : Fin d → Nat) (cell : List (Corner d)) : List Nat :=
  cell.map fun o => number n (move q o)

theorem number_move_injective {q : Fin d → Nat} (hq : q ∈ grid d n) :
    Function.Injective fun o => number n (move q o) := by
  intro o o' heq
  exact move_injective q (number_injOn n d (move_mem_grid hq o) (move_mem_grid hq o') heq)

theorem place_injective {S : Dissection d} {q q' : Fin d → Nat} {cell cell' : List (Corner d)}
    (hq : q ∈ grid d n) (hq' : q' ∈ grid d n) (hcell : cell ∈ S.cells) (hcell' : cell' ∈ S.cells)
    (heq : place n q cell = place n q' cell') : q = q' ∧ cell = cell' := by
  have hhead := congrArg List.head? heq
  rw [place, place, List.head?_map, List.head?_map, S.head_cell cell hcell,
    S.head_cell cell' hcell', Option.map_some, Option.map_some, Option.some.injEq] at hhead
  have hcube : q = q' :=
    number_injOn n d (move_mem_grid hq _) (move_mem_grid hq' _) hhead
  subst hcube
  exact ⟨rfl, (List.map_injective_iff.mpr (number_move_injective hq)) heq⟩

theorem globalVertices_place {q : Fin d → Nat} {x : Part d}
    (h : ∀ k ∈ x.entity, k < x.cell.length) :
    {v | v ∈ globalVertices (place n q x.cell) x.entity} = spread n q x.corners := by
  ext v
  simp only [globalVertices, List.mem_map, Set.mem_ofPred_eq, spread, Part.corners,
    List.mem_toFinset, exists_exists_and_eq_and]
  constructor
  · rintro ⟨k, hk, rfl⟩
    refine ⟨k, hk, ?_⟩
    simp [place, h k hk]
  · rintro ⟨k, hk, rfl⟩
    refine ⟨k, hk, ?_⟩
    simp [place, h k hk]

end Lattice

open FiniteElement.Lattice FiniteElement.Lattice.Dissection

namespace Mesh

variable {α : Type} {mesh : Mesh α} {d n : Nat} {S : Dissection d}

structure IsDissected (mesh : Mesh α) (S : Dissection d) (n : Nat) : Prop where
  wellFormed : mesh.WellFormed
  shape_eq : mesh.shape = S.shape
  numVertices_eq : mesh.numVertices = (n + 1) ^ d
  numCells_eq : mesh.numCells = S.cells.length * n ^ d
  mem_cells_iff : ∀ {vertices}, vertices ∈ mesh.cells ↔
    ∃ q ∈ grid d n, ∃ cell ∈ S.cells, place n q cell = vertices

structure HasPart (mesh : Mesh α) (S : Dissection d) (n dim c e : Nat) (q : Fin d → Nat)
    (x : Part d) : Prop where
  mem_grid : q ∈ grid d n
  mem_parts : x ∈ S.parts dim
  cell_eq : mesh.cells[c]? = some (place n q x.cell)
  vertices_eq : mesh.verticesOf dim e = spread n (move q x.low) x.pattern

namespace IsDissected

theorem dimension_eq (h : mesh.IsDissected S n) : mesh.dimension = d := by
  rw [dimension, h.shape_eq, S.dimension_eq]

theorem exists_cell (h : mesh.IsDissected S n) {q : Fin d → Nat} (hq : q ∈ grid d n)
    {cell : List (Corner d)} (hcell : cell ∈ S.cells) :
    ∃ c : Nat, mesh.cells[c]? = some (place n q cell) :=
  Array.getElem?_of_mem (h.mem_cells_iff.mpr ⟨q, hq, cell, hcell, rfl⟩)

/-- There are no more cells than the cubes have, so no cell is listed twice. -/
theorem nodup_cells (h : mesh.IsDissected S n) : mesh.cells.toList.Nodup := by
  have himage : mesh.cells.toList.toFinset =
      (grid d n ×ˢ S.cells.toFinset).image fun x => place n x.1 x.2 := by
    ext vertices
    simp only [List.mem_toFinset, Array.mem_toList_iff, h.mem_cells_iff, Finset.mem_image,
      Finset.mem_product, Prod.exists]
    constructor
    · rintro ⟨q, hq, cell, hcell, heq⟩
      exact ⟨q, cell, ⟨hq, hcell⟩, heq⟩
    · rintro ⟨q, cell, ⟨hq, hcell⟩, heq⟩
      exact ⟨q, hq, cell, hcell, heq⟩
  have hinj : Set.InjOn (fun x : (Fin d → Nat) × List (Corner d) => place n x.1 x.2)
      (grid d n ×ˢ S.cells.toFinset : Finset _) := by
    rintro ⟨q, cell⟩ hx ⟨q', cell'⟩ hx' heq
    simp only [Finset.coe_product, Set.mem_prod, Finset.mem_coe, List.mem_toFinset] at hx hx'
    obtain ⟨hcube, hcells⟩ := place_injective hx.1 hx'.1 hx.2 hx'.2 heq
    rw [hcube, hcells]
  have hcard : mesh.cells.toList.toFinset.card = mesh.cells.toList.length := by
    rw [himage, Finset.card_image_of_injOn hinj, Finset.card_product, card_grid,
      List.toFinset_card_of_nodup S.nodup_cells, Array.length_toList, Nat.mul_comm]
    exact h.numCells_eq.symm
  exact Multiset.coe_nodup.mp (Multiset.toFinset_card_eq_card_iff_nodup.mp hcard)

theorem cell_eq (h : mesh.IsDissected S n) {c c' : Nat} {vertices : List Nat}
    (hc : mesh.cells[c]? = some vertices) (hc' : mesh.cells[c']? = some vertices) : c = c' := by
  rw [← Array.getElem?_toList] at hc hc'
  have hlt := (List.getElem?_eq_some_iff.mp hc).1
  exact (List.getElem?_inj hlt h.nodup_cells).mp (hc.trans hc'.symm)

/-! ## Entities in their cubes -/

/-- The vertices of a local entity of a cell in its cube. -/
theorem entityVertices_eq (h : mesh.IsDissected S n) {dim c index : Nat} {q : Fin d → Nat}
    {x : Part d} (hdim : dim < d) (hc : mesh.cells[c]? = some (place n q x.cell))
    (hindex : (S.shape.entities dim)[index]? = some x.entity) :
    mesh.entityVertices c dim index = spread n (move q x.low) x.pattern := by
  have hle : dim ≤ mesh.dimension := by
    rw [h.dimension_eq]
    exact Nat.le_of_lt hdim
  have hlength := h.wellFormed.length_cell _ (Array.mem_of_getElem? hc)
  rw [place, List.length_map, h.shape_eq] at hlength
  have hbound : ∀ k ∈ x.entity, k < x.cell.length := by
    rw [hlength]
    exact Shape.lt_numVertices_of_mem_entities (List.mem_of_getElem? hindex)
  rw [← h.shape_eq] at hindex
  rw [h.wellFormed.entityVertices_eq hle hc hindex, globalVertices_place hbound,
    spread_eq_spread_pattern]
  rfl

/-- A cell with an entity has it as some part of a cube. -/
theorem exists_hasPart (h : mesh.IsDissected S n) {dim c index e : Nat} (hdim : dim < d)
    (he : mesh.HasEntity c dim index e) : ∃ q x, mesh.HasPart S n dim c e q x := by
  have hlt : dim < mesh.dimension := by rwa [h.dimension_eq]
  obtain ⟨vertices, entity, hc, hindex⟩ := h.wellFormed.exists_of_hasEntity (Nat.le_of_lt hlt) he
  obtain ⟨q, hq, cell, hcell, rfl⟩ := h.mem_cells_iff.mp (Array.mem_of_getElem? hc)
  rw [h.shape_eq] at hindex
  let x : Part d := ⟨cell, entity⟩
  refine ⟨q, x, hq, mem_parts.mpr ⟨hcell, List.mem_of_getElem? hindex⟩, hc, ?_⟩
  rw [h.wellFormed.verticesOf_eq hlt he]
  exact h.entityVertices_eq (x := x) hdim hc hindex

/-- Every part of a cube is an entity of a cell. -/
theorem exists_hasEntity (h : mesh.IsDissected S n) {dim : Nat} (hdim : dim < d)
    {q : Fin d → Nat} (hq : q ∈ grid d n) {x : Part d} (hx : x ∈ S.parts dim) :
    ∃ c index e, mesh.HasEntity c dim index e ∧ mesh.HasPart S n dim c e q x := by
  have hlt : dim < mesh.dimension := by rwa [h.dimension_eq]
  obtain ⟨hcell, hentity⟩ := mem_parts.mp hx
  obtain ⟨c, hc⟩ := h.exists_cell hq hcell
  obtain ⟨index, hindex⟩ := List.getElem?_of_mem hentity
  have hbound : index < mesh.shape.numEntities dim := by
    rw [h.shape_eq]
    exact (List.getElem?_eq_some_iff.mp hindex).1
  obtain ⟨e, he⟩ := h.wellFormed.exists_hasEntity (Nat.le_of_lt hlt)
    (Array.getElem?_eq_some_iff.mp hc).1 hbound
  refine ⟨c, index, e, he, hq, hx, hc, ?_⟩
  rw [h.wellFormed.verticesOf_eq hlt he, h.entityVertices_eq hdim hc hindex]

/-! ## Counting entities -/

/-- The vertices of the entities are those of a pattern above a point from which it stays on the
lattice. -/
theorem vertexSets_eq (h : mesh.IsDissected S n) (hn : 1 ≤ n) {dim : Nat} (hpos : 0 < dim)
    (hdim : dim < d) :
    mesh.vertexSets dim = (fun x : Σ _ : Finset (Corner d), (Fin d → Nat) => spread n x.2 x.1) ''
      ((S.patterns dim).sigma (anchors n) : Finset _) := by
  have hlt : dim < mesh.dimension := by rwa [h.dimension_eq]
  ext vertices
  simp only [Set.mem_image, Finset.mem_coe, Finset.mem_sigma, Sigma.exists, patterns,
    List.mem_toFinset, List.mem_map]
  constructor
  · rintro ⟨c, index, hc, hindex, rfl⟩
    obtain ⟨e, he⟩ := h.wellFormed.exists_hasEntity (Nat.le_of_lt hlt) hc hindex
    obtain ⟨q, x, hpart⟩ := h.exists_hasPart hdim he
    rw [← h.wellFormed.verticesOf_eq hlt he]
    exact ⟨x.pattern, move q x.low, ⟨⟨x, hpart.mem_parts, rfl⟩,
      x.move_low_mem_anchors hpart.mem_grid⟩, hpart.vertices_eq.symm⟩
  · rintro ⟨_, p, ⟨⟨x, hx, rfl⟩, hp⟩, rfl⟩
    -- the pattern starts one step above the cube along the axes in which it cannot go on
    obtain ⟨q, hq, s, hmove, hlast⟩ := exists_move_eq hn (anchors_subset_grid x.pattern hp)
    have hflat : ∀ a, s a = true → IsFlat x.pattern a := by
      intro a hs
      by_contra hnot
      have hbound := mem_anchors.mp hp a
      rw [if_neg hnot, hlast a hs] at hbound
      exact Nat.lt_irrefl _ hbound
    obtain ⟨y, hy, hlow, hpattern⟩ := S.movable dim hdim hpos x hx s hflat
    obtain ⟨c, index, e, he, hpart⟩ := h.exists_hasEntity hdim hq hy
    obtain ⟨hc, hindex⟩ := h.wellFormed.lt_of_hasEntity (Nat.le_of_lt hlt) he
    refine ⟨c, index, hc, hindex, ?_⟩
    rw [← h.wellFormed.verticesOf_eq hlt he, hpart.vertices_eq, hpattern, hlow, hmove]

theorem ncard_vertexSets (h : mesh.IsDissected S n) (hn : 1 ≤ n) {dim : Nat} (hpos : 0 < dim)
    (hdim : dim < d) :
    (mesh.vertexSets dim).ncard =
      ∑ Q ∈ S.patterns dim, (n + 1) ^ flatness Q * n ^ (d - flatness Q) := by
  have htouches : ∀ Q ∈ S.patterns dim, Touches Q := by
    intro Q hQ
    rw [patterns, List.mem_toFinset, List.mem_map] at hQ
    obtain ⟨x, hx, rfl⟩ := hQ
    exact touches_of_mem_parts hx
  have hinj : Set.InjOn
      (fun x : Σ _ : Finset (Corner d), (Fin d → Nat) => spread n x.2 x.1)
      ((S.patterns dim).sigma (anchors n) : Finset _) := by
    rintro ⟨Q, p⟩ hx ⟨Q', p'⟩ hx' heq
    obtain ⟨hQ, hp⟩ := Finset.mem_sigma.mp hx
    obtain ⟨hQ', hp'⟩ := Finset.mem_sigma.mp hx'
    obtain ⟨hpoint, hpattern⟩ := spread_injective hp hp' (htouches Q hQ) (htouches Q' hQ') heq
    dsimp only at hpoint hpattern
    rw [hpoint, hpattern]
  rw [h.vertexSets_eq hn hpos hdim, hinj.ncard_image, Set.ncard_coe_finset, Finset.card_sigma]
  exact Finset.sum_congr rfl fun Q _ => card_anchors n Q

end IsDissected
end Mesh
end FiniteElement
