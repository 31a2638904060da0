import Mathlib
import FiniteElement.Assembly.Serial
import FiniteElement.Proofs.Assembly.Workspace
import FiniteElement.Proofs.DofMap.Tabulation

/-! # Sizes of the buffers

The sizes of all buffers can be computed where the local dimensions and the
element tensor can be stored. A form with at most two arguments multiplies at
most two sizes, so that nothing larger than its tensor comes up on the way.
-/

namespace FiniteElement

variable {α : Type} {form : Form α} {mesh : Mesh α}

def Form.tensorEntries (form : Form α) : Nat :=
  ((form.dofMaps.take form.rank).map DofMap.size).prod

theorem Form.tensorEntries_of_rank_one {map : DofMap α} {maps : List (DofMap α)}
    (hrank : form.rank = 1) (hmaps : form.dofMaps = map :: maps) :
    form.tensorEntries = map.size := by
  rw [tensorEntries, hrank, hmaps]
  simp

theorem Form.tensorEntries_of_rank_two {rowMap colMap : DofMap α} {maps : List (DofMap α)}
    (hrank : form.rank = 2) (hmaps : form.dofMaps = rowMap :: colMap :: maps) :
    form.tensorEntries = rowMap.size * colMap.size := by
  rw [tensorEntries, hrank, hmaps]
  simp

theorem Index.product_of_length_le_two {sizes : List Nat} (hlength : sizes.length ≤ 2)
    (hsizes : ∀ n ∈ sizes, n < bound) (hproduct : sizes.prod < bound) :
    product sizes = .ok sizes.prod := by
  have hmul : ∀ m n, m * n < bound → mul m n = .ok (m * n) := fun _ _ hlt => guard_of_lt hlt
  match sizes, hlength with
  | [], _ => rfl
  | [m], _ =>
      have hm := hsizes m List.mem_cons_self
      simp only [product, List.foldlM_cons, List.foldlM_nil, hmul 1 m (by omega), Checked.ok_bind,
        List.prod_singleton, Nat.one_mul]
      rfl
  | [m, n], _ =>
      have hm := hsizes m List.mem_cons_self
      have hmn : m * n < bound := by simpa using hproduct
      simp only [product, List.foldlM_cons, List.foldlM_nil, hmul 1 m (by omega), Nat.one_mul,
        hmul m n hmn, Checked.ok_bind, List.prod_cons, List.prod_nil, Nat.mul_one]
      rfl

theorem Form.tensorSize_of_rank_le_two (hrank : form.rank ≤ 2)
    (hlength : form.rank ≤ form.dofMaps.length)
    (hmaps : ∀ map ∈ form.dofMaps, map.size < Index.capacity)
    (htensor : form.tensorEntries < Index.capacity) :
    form.tensorSize = .ok form.tensorEntries := by
  have hle : Index.capacity ≤ Index.bound := by decide
  have harguments : ∀ map ∈ form.dofMaps.take form.rank, map.size < Index.capacity :=
    fun map hmap => hmaps map (List.mem_of_mem_take hmap)
  have hshape : form.tensorShape = .ok ((form.dofMaps.take form.rank).map DofMap.size) := by
    rw [tensorShape, argumentMaps_of_le hlength, Checked.ok_bind]
    exact Checked.mapM_eq_ok_map fun map hmap => DofMap.localDimension_of_lt (harguments map hmap)
  rw [tensorSize, hshape, Checked.ok_bind]
  apply Index.product_of_length_le_two
  · rw [List.length_map, List.length_take]
    omega
  · intro n hn
    obtain ⟨map, hmap, rfl⟩ := List.mem_map.mp hn
    exact Nat.lt_of_lt_of_le (harguments map hmap) hle
  · exact Nat.lt_of_lt_of_le htensor hle

theorem Workspace.bufferSizes_of_lt {maps : List (DofMap α)}
    (h : ∀ map ∈ maps, map.size < Index.capacity) :
    bufferSizes maps = .ok (maps.map DofMap.size) := by
  apply Checked.mapM_eq_ok_map
  intro map hmap
  have hlt := h map hmap
  rw [DofMap.localDimension_of_lt hlt, Checked.ok_bind]
  exact Index.length_eq_ok_iff.mpr ⟨hlt, rfl⟩

theorem Workspace.exists_bufferSizes_iff {maps : List (DofMap α)} :
    (∃ sizes, bufferSizes maps = .ok sizes) ↔ ∀ map ∈ maps, map.size < Index.capacity := by
  constructor
  · rintro ⟨sizes, hsizes⟩
    have hlengths := Checked.mapM_eq_ok_iff.mp hsizes
    rw [bufferSizes_eq_ok hsizes, List.forall₂_map_right_iff, List.forall₂_same] at hlengths
    intro map hmap
    obtain ⟨_, -, hlength⟩ := Checked.bind_eq_ok_iff.mp (hlengths map hmap)
    obtain ⟨hlt, heq⟩ := Index.length_eq_ok_iff.mp hlength
    rwa [heq] at hlt
  · intro h
    exact ⟨_, bufferSizes_of_lt h⟩

theorem SerialAssembler.tripletRoom_of_lt (hsize : form.tensorSize = .ok form.tensorEntries)
    (htriplets : 3 * (mesh.numCells * form.tensorEntries) < Index.capacity) :
    tripletRoom form mesh = .ok (3 * (mesh.numCells * form.tensorEntries)) := by
  have hle : Index.capacity ≤ Index.bound := by decide
  have hcount : Index.mul mesh.numCells form.tensorEntries =
      .ok (mesh.numCells * form.tensorEntries) := Index.guard_of_lt (by omega)
  rw [tripletRoom, hsize, Checked.ok_bind, hcount, Checked.ok_bind]
  exact Index.length_eq_ok_iff.mpr ⟨htriplets, rfl⟩

variable [Scalar α]

/-- A workspace can be fitted to a form exactly if its buffers can be stored. -/
theorem Workspace.exists_fitTo_iff (workspace : Workspace α)
    (hlength : form.rank ≤ form.dofMaps.length) :
    (∃ fitted, workspace.fitTo form = .ok fitted) ↔
      (∀ map ∈ form.dofMaps, map.size < Index.capacity) ∧
        ∃ entries, form.tensorSize = .ok entries ∧ entries < Index.capacity := by
  constructor
  · rintro ⟨fitted, hfitted⟩
    simp only [fitTo, Form.argumentMaps_of_le hlength, Form.coefficientMaps_of_le hlength,
      Checked.bind_eq_ok_iff, Checked.ok_bind, Index.length_eq_ok_iff] at hfitted
    obtain ⟨argumentSizes, harguments, coefficientSizes, hcoefficients, entries, hentries, _,
      ⟨hlt, -⟩, -⟩ := hfitted
    refine ⟨?_, entries, hentries, hlt⟩
    rw [← List.take_append_drop form.rank form.dofMaps, List.forall_mem_append]
    exact ⟨exists_bufferSizes_iff.mp ⟨_, harguments⟩, exists_bufferSizes_iff.mp ⟨_, hcoefficients⟩⟩
  · rintro ⟨hmaps, entries, hentries, hlt⟩
    rw [← List.take_append_drop form.rank form.dofMaps, List.forall_mem_append] at hmaps
    have htensor : Index.length entries = .ok entries := Index.length_eq_ok_iff.mpr ⟨hlt, rfl⟩
    simp only [fitTo, Form.argumentMaps_of_le hlength, Form.coefficientMaps_of_le hlength,
      bufferSizes_of_lt hmaps.1, bufferSizes_of_lt hmaps.2, hentries, htensor, Checked.ok_bind]
    exact ⟨_, rfl⟩

theorem Workspace.exists_fitTo_of_rank_le_two (workspace : Workspace α) (hrank : form.rank ≤ 2)
    (hlength : form.rank ≤ form.dofMaps.length)
    (hmaps : ∀ map ∈ form.dofMaps, map.size < Index.capacity)
    (htensor : form.tensorEntries < Index.capacity) :
    ∃ fitted, workspace.fitTo form = .ok fitted :=
  (workspace.exists_fitTo_iff hlength).mpr
    ⟨hmaps, _, Form.tensorSize_of_rank_le_two hrank hlength hmaps htensor, htensor⟩

end FiniteElement
