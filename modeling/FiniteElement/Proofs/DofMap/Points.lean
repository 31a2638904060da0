import Mathlib
import FiniteElement.Proofs.DofMap.Tabulation
import FiniteElement.Proofs.Geometry.Barycenter
import FiniteElement.Proofs.Mesh.WellFormed

/-! # Writing the points of a cell

A layout writes the images of its reference points, as many as a buffer has room
for. The components of a mixed space write into the pieces of the buffer for
them, and the pieces for a nested space are the pieces for its leaves: a buffer
for all degrees of freedom is filled with the points of the leaves one after the
other.
-/

namespace FiniteElement

/-! ## One layout -/

theorem DofLayout.length_of_mem_points {α : Type} {layout : DofLayout α} {point : List α}
    (h : point ∈ layout.points) : point.length = layout.shape.dimension := by
  obtain ⟨i, hi, heq⟩ := List.mem_map.mp h
  have hle : layout.shape.dimension * (i + 1) ≤ layout.referencePoints.length :=
    le_trans (Nat.mul_le_mul_left _ (List.mem_range.mp hi)) (Nat.mul_div_le _ _)
  rw [Nat.mul_succ] at hle
  rw [← heq, List.length_take, List.length_drop]
  omega

section Cell

variable {α : Type} [Scalar α] {cell : CellView α} {simplex : AffineCell α}

/-- The affine map of a cell has the dimension of the space that the cell fills. -/
theorem AffineCell.dimension_of_ofCell (h : AffineCell.ofCell cell = .ok simplex) :
    simplex.dimension = cell.geometricDimension ∧ cell.geometricDimension ≤ 3 := by
  rw [AffineCell.ofCell] at h
  split at h
  · cases h
  · split at h
    · cases h
    · next hrange hspace =>
      simp only [Checked.bind_eq_ok_iff, Checked.pure_eq_ok_iff] at h
      obtain ⟨origin, -, corners, hcorners, heq⟩ := h
      have hlength := Checked.length_of_mapM_eq_ok hcorners
      rw [List.length_range] at hlength
      rw [← heq]
      simp only [AffineCell.ofCorners, List.length_map]
      omega

namespace LayoutMap

variable {map : LayoutMap α}

def images (map : LayoutMap α) (simplex : AffineCell α) : List (List α) :=
  map.layout.points.map fun point =>
    (simplex.image (Vec3.ofList (point.take simplex.dimension))).toList.take simplex.dimension

theorem writePoints_eq_ok (hcell : AffineCell.ofCell cell = .ok simplex)
    (hdim : simplex.dimension ≤ map.layout.shape.dimension) {buffer written : List α}
    (hwritten : ((map.images simplex).take (buffer.length / cell.geometricDimension)).flatten =
      written) :
    map.writePoints cell buffer = .ok (written ++ buffer.drop written.length) := by
  obtain ⟨hspace, -⟩ := AffineCell.dimension_of_ofCell hcell
  have hpoints : (map.layout.points.take (buffer.length / simplex.dimension)).mapM
      simplex.toPhysical =
        .ok ((map.layout.points.take (buffer.length / simplex.dimension)).map fun point =>
          simplex.image (Vec3.ofList (point.take simplex.dimension))) := by
    apply Checked.mapM_eq_ok_map
    intro point hpoint
    apply AffineCell.toPhysical_eq_ok
    rw [DofLayout.length_of_mem_points (List.mem_of_mem_take hpoint)]
    exact hdim
  rw [← hspace, images, ← List.map_take, ← List.flatMap_def] at hwritten
  rw [writePoints, hcell, Checked.ok_bind, ← hspace]
  dsimp only
  rw [hpoints, Checked.ok_bind, List.flatMap_map, hwritten]
  rfl

theorem length_of_mem_images (hle : simplex.dimension ≤ 3) {coordinates : List α}
    (h : coordinates ∈ map.images simplex) : coordinates.length = simplex.dimension := by
  obtain ⟨point, -, heq⟩ := List.mem_map.mp h
  rw [← heq, List.length_take]
  exact Nat.min_eq_left hle

/-- A layout with a point for each degree of freedom fills a buffer for all of them. -/
theorem writePoints_of_length_eq (hcell : AffineCell.ofCell cell = .ok simplex)
    (hdim : simplex.dimension ≤ map.layout.shape.dimension)
    (hpoints : map.layout.points.length = map.localDimension) {buffer : List α}
    (hroom : buffer.length = cell.geometricDimension * map.localDimension) :
    map.writePoints cell buffer = .ok (map.images simplex).flatten := by
  obtain ⟨hspace, hle⟩ := AffineCell.dimension_of_ofCell hcell
  rw [← hspace] at hle
  have hcount : (map.images simplex).length = map.localDimension := by
    rw [images, List.length_map, hpoints]
  have hall : (map.images simplex).take (buffer.length / cell.geometricDimension) =
      map.images simplex := by
    rw [hroom, Nat.mul_div_cancel_left _ cell.geometricDimension_pos, ← hcount, List.take_length]
  have hlength : (map.images simplex).flatten.length = buffer.length := by
    rw [length_flatten_of_length fun _ h => length_of_mem_images hle h, hcount, hroom, hspace,
      Nat.mul_comm]
  rw [writePoints_eq_ok hcell hdim (congrArg List.flatten hall), hlength, List.drop_length,
    List.append_nil]

end LayoutMap

end Cell

/-! ## Several layouts -/

namespace DofMap

variable {α : Type}

theorem allLeaves_map_single (leaves : List (LayoutMap α)) :
    allLeaves (leaves.map single) = leaves := by
  induction leaves with
  | nil => rfl
  | cons leaf rest ih =>
      rw [List.map_cons, allLeaves, ih]
      rfl

theorem totalSize_map_single (leaves : List (LayoutMap α)) :
    totalSize (leaves.map single) = sizeOnCell leaves := by
  rw [totalSize_eq, allLeaves_map_single]

variable [Scalar α] {cell : CellView α}

/-- The first of several spaces writes to the front of a buffer with room for it. -/
theorem writePointsFrom_cons (cell : CellView α) (map : DofMap α) (rest : List (DofMap α))
    (buffer : List α) (hlocal : map.size < Index.bound)
    (hroom : cell.geometricDimension * map.size ≤ buffer.length) :
    writePointsFrom cell (map :: rest) buffer = (do
      let points ← writePoints cell map (buffer.take (cell.geometricDimension * map.size))
      let written ← writePointsFrom cell rest (buffer.drop (cell.geometricDimension * map.size))
      return points ++ written) := by
  have hsize : map.localDimension = .ok map.size := Index.guard_of_lt hlocal
  simp only [writePointsFrom, hsize, Index.split_of_le hroom, Checked.ok_bind]

/-- Spaces one after the other write to the two parts of a buffer for them. -/
theorem writePointsFrom_append (cell : CellView α) (maps others : List (DofMap α))
    (buffer : List α) (hlocal : totalSize maps < Index.bound)
    (hroom : cell.geometricDimension * totalSize maps ≤ buffer.length) :
    writePointsFrom cell (maps ++ others) buffer = (do
      let points ← writePointsFrom cell maps
        (buffer.take (cell.geometricDimension * totalSize maps))
      let written ← writePointsFrom cell others
        (buffer.drop (cell.geometricDimension * totalSize maps))
      return points ++ written) := by
  induction maps generalizing buffer with
  | nil =>
      simp only [List.nil_append, totalSize, Nat.mul_zero, List.take_zero, List.drop_zero,
        writePointsFrom, Checked.ok_bind, bind_pure]
  | cons map maps ih =>
      rw [totalSize] at hlocal
      rw [totalSize, Nat.mul_add] at hroom ⊢
      -- the piece for the first of the spaces, cut from the part for all of them
      have hpart := writePointsFrom_cons cell map maps
        (buffer.take (cell.geometricDimension * map.size +
          cell.geometricDimension * totalSize maps)) (by omega) (by rw [List.length_take]; omega)
      rw [List.take_take, List.drop_take, Nat.min_eq_left (Nat.le_add_right _ _),
        Nat.add_sub_cancel_left] at hpart
      have hothers := ih (buffer.drop (cell.geometricDimension * map.size)) (by omega)
        (by rw [List.length_drop]; omega)
      rw [List.drop_drop] at hothers
      rw [List.cons_append, writePointsFrom_cons cell map _ _ (by omega) (by omega), hpart, hothers]
      simp only [bind_assoc, pure_bind, List.append_assoc]

mutual

/-- A space writes the points of its leaves one after the other. -/
theorem writePoints_eq_leaves (map : DofMap α) (hlocal : map.size < Index.bound)
    (buffer : List α) (hroom : buffer.length = cell.geometricDimension * map.size) :
    writePoints cell map buffer = writePointsFrom cell (map.leaves.map single) buffer := by
  cases map with
  | single map =>
      rw [leaves, List.map_cons, List.map_nil, writePointsFrom_cons cell _ [] _ hlocal
          (Nat.le_of_eq hroom.symm),
        List.take_of_length_le (Nat.le_of_eq hroom), List.drop_eq_nil_of_le (Nat.le_of_eq hroom)]
      simp only [writePointsFrom, Checked.ok_bind, List.append_nil, bind_pure]
  | mixed components =>
      rw [size] at hlocal hroom
      rw [writePoints, leaves]
      exact writePointsFrom_eq_leaves components hlocal buffer hroom

theorem writePointsFrom_eq_leaves (maps : List (DofMap α)) (hlocal : totalSize maps < Index.bound)
    (buffer : List α) (hroom : buffer.length = cell.geometricDimension * totalSize maps) :
    writePointsFrom cell maps buffer =
      writePointsFrom cell ((allLeaves maps).map single) buffer := by
  cases maps with
  | nil => rfl
  | cons map rest =>
      rw [totalSize] at hlocal
      rw [totalSize, Nat.mul_add] at hroom
      have hown := writePoints_eq_leaves map (by omega)
        (buffer.take (cell.geometricDimension * map.size)) (by rw [List.length_take]; omega)
      have hothers := writePointsFrom_eq_leaves rest (by omega)
        (buffer.drop (cell.geometricDimension * map.size)) (by rw [List.length_drop]; omega)
      have hleaves : totalSize (map.leaves.map single) = map.size := by
        rw [totalSize_map_single, size_eq]
      have happend := writePointsFrom_append cell (map.leaves.map single)
        ((allLeaves rest).map single) buffer (by omega) (by rw [hleaves]; omega)
      rw [hleaves] at happend
      rw [allLeaves, List.map_append, happend,
        writePointsFrom_cons cell map rest _ (by omega) (by omega), hown, hothers]

end

/-- The first of several layouts writes to the front of a buffer for all of them. -/
theorem writePointsFrom_leaves_cons {leaf : LayoutMap α} {rest : List (LayoutMap α)}
    {buffer : List α}
    (hroom : buffer.length = cell.geometricDimension * sizeOnCell (leaf :: rest)) :
    ∃ own others, own.length = cell.geometricDimension * leaf.localDimension ∧
      others.length = cell.geometricDimension * sizeOnCell rest ∧
      writePointsFrom cell ((leaf :: rest).map single) buffer = (do
        let points ← leaf.writePoints cell own
        let written ← writePointsFrom cell (rest.map single) others
        return points ++ written) := by
  have hcons : sizeOnCell (leaf :: rest) = leaf.localDimension + sizeOnCell rest := by
    simp [sizeOnCell, LayoutMap.localDimension]
  rw [hcons, Nat.mul_add] at hroom
  refine ⟨buffer.take (cell.geometricDimension * leaf.localDimension),
    buffer.drop (cell.geometricDimension * leaf.localDimension), ?_, ?_, ?_⟩
  · rw [List.length_take]
    omega
  · rw [List.length_drop]
    omega
  · exact writePointsFrom_cons cell (single leaf) _ _ leaf.fits
      (Nat.le_trans (Nat.le_add_right _ _) (Nat.le_of_eq hroom.symm))

theorem exists_writePointsFrom_leaves (leaves : List (LayoutMap α))
    (hleaves : ∀ leaf ∈ leaves, ∀ own : List α,
      own.length = cell.geometricDimension * leaf.localDimension →
        ∃ points, leaf.writePoints cell own = .ok points)
    (buffer : List α) (hroom : buffer.length = cell.geometricDimension * sizeOnCell leaves) :
    ∃ points, writePointsFrom cell (leaves.map single) buffer = .ok points := by
  induction leaves generalizing buffer with
  | nil => exact ⟨buffer, rfl⟩
  | cons leaf rest ih =>
      rw [List.forall_mem_cons] at hleaves
      obtain ⟨own, others, hown, hothers, hwrite⟩ := writePointsFrom_leaves_cons hroom
      obtain ⟨points, hpoints⟩ := hleaves.1 own hown
      obtain ⟨written, hwritten⟩ := ih hleaves.2 others hothers
      refine ⟨points ++ written, ?_⟩
      rw [hwrite, hpoints, hwritten]
      rfl

section Filled

variable {points : LayoutMap α → List α}

theorem writePointsFrom_leaves_eq_ok (leaves : List (LayoutMap α))
    (hleaves : ∀ leaf ∈ leaves, ∀ own : List α,
      own.length = cell.geometricDimension * leaf.localDimension →
        leaf.writePoints cell own = .ok (points leaf))
    (buffer : List α) (hroom : buffer.length = cell.geometricDimension * sizeOnCell leaves) :
    writePointsFrom cell (leaves.map single) buffer = .ok (leaves.flatMap points) := by
  induction leaves generalizing buffer with
  | nil =>
      rw [List.length_eq_zero_iff.mp hroom]
      rfl
  | cons leaf rest ih =>
      rw [List.forall_mem_cons] at hleaves
      obtain ⟨own, others, hown, hothers, hwrite⟩ := writePointsFrom_leaves_cons hroom
      rw [hwrite, hleaves.1 own hown, ih hleaves.2 others hothers, List.flatMap_cons]
      rfl

/-- A buffer for all degrees of freedom is filled with what the leaves write. -/
theorem writePoints_eq_ok {map : DofMap α}
    (hleaves : ∀ leaf ∈ map.leaves, ∀ own : List α,
      own.length = cell.geometricDimension * leaf.localDimension →
        leaf.writePoints cell own = .ok (points leaf))
    (hlocal : map.size < Index.bound) {buffer : List α}
    (hroom : buffer.length = cell.geometricDimension * map.size) :
    map.writePoints cell buffer = .ok (map.leaves.flatMap points) := by
  rw [writePoints_eq_leaves map hlocal buffer hroom]
  rw [size_eq] at hroom
  exact writePointsFrom_leaves_eq_ok map.leaves hleaves buffer hroom

end Filled

end DofMap
end FiniteElement
