import Mathlib
import FiniteElement.DofMap.Basic
import FiniteElement.Proofs.Checked

/-! # Node buffers

A space fills a buffer of its size: the buffer keeps its length, and nothing of
what it held is left in it. Whether writing fails does not depend on it either.
-/

namespace FiniteElement

namespace LayoutMap

variable {α : Type} {map : LayoutMap α} {mesh : EntityCounts} {cell : CellView α}

theorem writeNodes_congr {buffer buffer' : List Nat} (h : buffer.length = map.localDimension)
    (h' : buffer'.length = map.localDimension) :
    map.writeNodes mesh cell buffer = map.writeNodes mesh cell buffer' := by
  have hrest : buffer.drop map.localDimension = [] := List.drop_eq_nil_of_le (Nat.le_of_eq h)
  have hrest' : buffer'.drop map.localDimension = [] := List.drop_eq_nil_of_le (Nat.le_of_eq h')
  simp only [writeNodes, hrest, hrest', h, h']

theorem length_of_writeNodes {buffer nodes : List Nat} (h : buffer.length = map.localDimension)
    (hok : map.writeNodes mesh cell buffer = .ok nodes) : nodes.length = map.localDimension := by
  rw [writeNodes, Checked.bind_eq_ok_iff] at hok
  obtain ⟨blocks, -, hwrite⟩ := hok
  by_cases htotal : Block.total blocks = map.localDimension
  · have hroom : ¬ buffer.length < map.localDimension := Nat.not_lt.mpr (Nat.le_of_eq h.symm)
    rw [if_neg (not_not.mpr htotal), if_neg hroom, Except.ok.injEq] at hwrite
    rw [← hwrite, List.length_append, Block.length_flatMap_indices, htotal, List.length_drop, h,
      Nat.sub_self, Nat.add_zero]
  · rw [if_pos htotal] at hwrite
    cases hwrite

end LayoutMap

namespace DofMap

variable {α : Type} {mesh : EntityCounts} {cell : CellView α}

theorem localDimension_eq_ok {map : DofMap α} {n : Nat} (h : map.localDimension = .ok n) :
    n = map.size :=
  (Index.guard_eq_ok_iff.mp h).2.symm

theorem exists_localDimension_or (map : DofMap α) :
    map.localDimension = .ok map.size ∨ ∃ fault, map.localDimension = .error fault := by
  rw [localDimension, Index.guard]
  by_cases h : map.size < Index.bound
  · rw [if_pos h]
    exact Or.inl rfl
  · rw [if_neg h]
    exact Or.inr ⟨_, rfl⟩

/-- The piece of a buffer for the first of several spaces, and the others. -/
theorem split_pieces {map : DofMap α} {rest : List (DofMap α)} {buffer : List Nat}
    (h : buffer.length = totalSize (map :: rest)) :
    Index.split map.size buffer = .ok (buffer.take map.size, buffer.drop map.size) ∧
      (buffer.take map.size).length = map.size ∧
      (buffer.drop map.size).length = totalSize rest := by
  rw [totalSize] at h
  refine ⟨Index.split_of_le (by omega), ?_, ?_⟩
  · rw [List.length_take]
    omega
  · rw [List.length_drop]
    omega

mutual

theorem writeNodes_congr (map : DofMap α) {buffer buffer' : List Nat}
    (h : buffer.length = map.size) (h' : buffer'.length = map.size) :
    writeNodes mesh cell map buffer = writeNodes mesh cell map buffer' := by
  cases map with
  | single map =>
      rw [size] at h h'
      rw [writeNodes, writeNodes]
      exact LayoutMap.writeNodes_congr h h'
  | mixed components =>
      rw [size] at h h'
      rw [writeNodes, writeNodes]
      exact writeNodesFrom_congr components 0 h h'

theorem writeNodesFrom_congr (maps : List (DofMap α)) (start : Nat) {buffer buffer' : List Nat}
    (h : buffer.length = totalSize maps) (h' : buffer'.length = totalSize maps) :
    writeNodesFrom mesh cell maps start buffer = writeNodesFrom mesh cell maps start buffer' := by
  cases maps with
  | nil =>
      rw [totalSize] at h h'
      rw [List.length_eq_zero_iff.mp h, List.length_eq_zero_iff.mp h']
  | cons map rest =>
      obtain ⟨hsplit, hown, hothers⟩ := split_pieces h
      obtain ⟨hsplit', hown', hothers'⟩ := split_pieces h'
      have hnodes := writeNodes_congr map hown hown'
      have hrest : ∀ next, writeNodesFrom mesh cell rest next (buffer.drop map.size) =
          writeNodesFrom mesh cell rest next (buffer'.drop map.size) := fun next =>
        writeNodesFrom_congr rest next hothers hothers'
      rcases exists_localDimension_or map with hsize | ⟨fault, hsize⟩
      · simp only [writeNodesFrom, hsize, hsplit, hsplit', Checked.ok_bind, hnodes, hrest]
      · simp only [writeNodesFrom, hsize]
        rfl

end

mutual

theorem length_of_writeNodes (map : DofMap α) {buffer nodes : List Nat}
    (h : buffer.length = map.size) (hok : writeNodes mesh cell map buffer = .ok nodes) :
    nodes.length = map.size := by
  cases map with
  | single map =>
      rw [size] at h ⊢
      rw [writeNodes] at hok
      exact LayoutMap.length_of_writeNodes h hok
  | mixed components =>
      rw [size] at h ⊢
      rw [writeNodes] at hok
      exact length_of_writeNodesFrom components 0 h hok

theorem length_of_writeNodesFrom (maps : List (DofMap α)) (start : Nat) {buffer nodes : List Nat}
    (h : buffer.length = totalSize maps)
    (hok : writeNodesFrom mesh cell maps start buffer = .ok nodes) :
    nodes.length = totalSize maps := by
  cases maps with
  | nil =>
      rw [writeNodesFrom, Except.ok.injEq] at hok
      rw [← hok, h]
  | cons map rest =>
      obtain ⟨hsplit, hown, hothers⟩ := split_pieces h
      simp only [writeNodesFrom, Checked.bind_eq_ok_iff] at hok
      obtain ⟨n, hn, ⟨own, others⟩, hparts, nodes', hnodes, shifted, hshifted, count, -, next, -,
        written, hwritten, heq⟩ := hok
      rw [localDimension_eq_ok hn, hsplit, Except.ok.injEq, Prod.mk.injEq] at hparts
      rw [← hparts.1] at hnodes
      rw [← hparts.2] at hwritten
      have hfirst := length_of_writeNodes map hown hnodes
      have hrest := length_of_writeNodesFrom rest next hothers hwritten
      rw [Checked.pure_eq_ok_iff] at heq
      rw [← heq, List.length_append, Checked.length_of_mapM_eq_ok hshifted, hfirst, hrest,
        totalSize]

end

end DofMap
end FiniteElement
