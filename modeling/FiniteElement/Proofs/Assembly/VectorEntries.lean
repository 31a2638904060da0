import Mathlib
import FiniteElement.Proofs.Assembly.Safety

/-! # Vectors of element tensors

Numbers that are added into a vector one after the other stay apart by their
nodes: each entry of the vector is the sum from the left of the numbers for its
node, in their order.
-/

namespace FiniteElement.Job

variable {α : Type} [Scalar α] {vector next : Array α} {entries : List (Nat × α)}

def addAll (entries : List (Nat × α)) (vector : Array α) : Except Fault (Array α) :=
  entries.foldlM (fun vector (node, value) => addAt vector node value) vector

def valuesOf (entries : List (Nat × α)) (node : Nat) : List α :=
  (entries.filter fun entry => entry.1 = node).map Prod.snd

theorem addAll_cons (entry : Nat × α) (entries : List (Nat × α)) (vector : Array α) :
    addAll (entry :: entries) vector = addAt vector entry.1 entry.2 >>= addAll entries := rfl

theorem addAll_append (entries others : List (Nat × α)) (vector : Array α) :
    addAll (entries ++ others) vector = addAll entries vector >>= addAll others := by
  unfold addAll
  rw [List.foldlM_append]

theorem addAt_eq_ok_iff {node : Nat} {value : α} :
    addAt vector node value = .ok next ↔
      node < vector.size ∧ next = vector.modify node (· + value) := by
  unfold addAt
  by_cases hnode : node < vector.size
  · simp [hnode, eq_comm]
  · simp [hnode]

theorem size_of_addAll (h : addAll entries vector = .ok next) : next.size = vector.size := by
  induction entries generalizing vector with
  | nil =>
      cases h
      rfl
  | cons entry entries ih =>
      rw [addAll_cons, Checked.bind_eq_ok_iff] at h
      obtain ⟨first, hfirst, hrest⟩ := h
      rw [ih hrest, (addAt_eq_ok_iff.mp hfirst).2, Array.size_modify]

/-- Each entry of the vector takes the numbers for its node from the left. -/
theorem getElem?_addAll (h : addAll entries vector = .ok next) (node : Nat) :
    next[node]? = vector[node]?.map fun value => (valuesOf entries node).foldl (· + ·) value := by
  induction entries generalizing vector with
  | nil =>
      cases h
      simp [valuesOf]
  | cons entry entries ih =>
      rw [addAll_cons, Checked.bind_eq_ok_iff] at h
      obtain ⟨first, hfirst, hrest⟩ := h
      rw [ih hrest, (addAt_eq_ok_iff.mp hfirst).2, Array.getElem?_modify]
      by_cases heq : entry.1 = node
      · simp [valuesOf, heq, Function.comp_def]
      · simp [valuesOf, heq]

/-- Numbers for nodes within a vector can be added to it. -/
theorem exists_addAll (h : ∀ entry ∈ entries, entry.1 < vector.size) :
    ∃ next, addAll entries vector = .ok next := by
  obtain ⟨next, hnext, -⟩ := exists_foldlM_addAt entries h
  exact ⟨next, hnext⟩

omit [Scalar α] in
theorem sum_valuesOf {M : Type} [AddCommMonoid M] (exact : α → M) (entries : List (Nat × α))
    (node : Nat) :
    ((valuesOf entries node).map exact).sum =
      (entries.map fun entry => if entry.1 = node then exact entry.2 else 0).sum := by
  induction entries with
  | nil => rfl
  | cons entry entries ih =>
      rw [valuesOf] at ih
      rw [valuesOf, List.filter_cons, List.map_cons, List.sum_cons, ← ih]
      by_cases heq : entry.1 = node
      · simp [heq]
      · simp [heq]

end FiniteElement.Job
