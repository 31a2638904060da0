import Mathlib
import FiniteElement.Mesh.Unit

/-! # Points of a lattice

A lattice point is given by its steps along each axis, at most `n` of them. Its
number has the steps as digits to base `n + 1`, those along the first axis last, so
numbers and points determine each other. The vertices of the unit square and of the
unit cube are numbered in this way.
-/

namespace FiniteElement.Lattice

variable {d n : Nat}

def number (n : Nat) (p : Fin d → Nat) : Nat := ∑ a : Fin d, (n + 1) ^ (a : Nat) * p a

def step (n axis v : Nat) : Nat := v / (n + 1) ^ axis % (n + 1)

def grid (d count : Nat) : Finset (Fin d → Nat) := Fintype.piFinset fun _ => Finset.range count

theorem mem_grid {count : Nat} {p : Fin d → Nat} : p ∈ grid d count ↔ ∀ a, p a < count := by
  simp [grid, Fintype.mem_piFinset]

theorem card_grid (d count : Nat) : (grid d count).card = count ^ d := by
  simp [grid, Fintype.card_piFinset]

theorem number_succ (n : Nat) (p : Fin (d + 1) → Nat) :
    number n p = p 0 + (n + 1) * number n fun a => p a.succ := by
  simp only [number, Fin.sum_univ_succ, Finset.mul_sum, Fin.val_zero, pow_zero, one_mul,
    Fin.val_succ, pow_succ']
  congr 1
  exact Finset.sum_congr rfl fun a _ => Nat.mul_assoc _ _ _

theorem step_lt (n axis v : Nat) : step n axis v < n + 1 := Nat.mod_lt _ (Nat.succ_pos n)

theorem step_zero (n v : Nat) : step n 0 v = v % (n + 1) := by
  simp [step]

theorem step_succ (n axis v : Nat) : step n (axis + 1) v = step n axis (v / (n + 1)) := by
  rw [step, step, Nat.div_div_eq_div_mul, ← pow_succ']

theorem step_number {p : Fin d → Nat} (hp : p ∈ grid d (n + 1)) (a : Fin d) :
    step n a (number n p) = p a := by
  rw [mem_grid] at hp
  induction d with
  | zero => exact a.elim0
  | succ d ih =>
      have hmod : (p 0 + (n + 1) * number n fun a => p a.succ) % (n + 1) = p 0 := by
        rw [Nat.add_mul_mod_self_left, Nat.mod_eq_of_lt (hp 0)]
      have hdiv : (p 0 + (n + 1) * number n fun a => p a.succ) / (n + 1) =
          number n fun a => p a.succ := by
        rw [Nat.add_mul_div_left _ _ (Nat.succ_pos n), Nat.div_eq_of_lt (hp 0), Nat.zero_add]
      rw [number_succ]
      cases a using Fin.cases with
      | zero => rw [Fin.val_zero, step_zero, hmod]
      | succ a => rw [Fin.val_succ, step_succ, hdiv, ih (fun a => hp a.succ)]

theorem number_lt {p : Fin d → Nat} (hp : p ∈ grid d (n + 1)) : number n p < (n + 1) ^ d := by
  rw [mem_grid] at hp
  induction d with
  | zero => simp [number]
  | succ d ih =>
      have hrest := ih fun a => hp a.succ
      have hlast := hp 0
      have hle : (n + 1) * ((number n fun a => p a.succ) + 1) ≤ (n + 1) * (n + 1) ^ d :=
        Nat.mul_le_mul_left _ hrest
      rw [number_succ, pow_succ']
      rw [Nat.mul_succ] at hle
      omega

/-- Every number below the number of points is that of the point with its steps. -/
theorem number_step {v : Nat} (hv : v < (n + 1) ^ d) :
    number n (fun a : Fin d => step n a v) = v := by
  induction d generalizing v with
  | zero => simpa [number, eq_comm] using hv
  | succ d ih =>
      have hdiv : v / (n + 1) < (n + 1) ^ d := by
        rw [Nat.div_lt_iff_lt_mul (Nat.succ_pos n), ← pow_succ]
        exact hv
      rw [number_succ]
      simp only [Fin.val_zero, step_zero, Fin.val_succ, step_succ]
      rw [ih hdiv, Nat.mod_add_div]

theorem number_injOn (n d : Nat) : Set.InjOn (number n) (grid d (n + 1) : Set (Fin d → Nat)) := by
  intro p hp q hq heq
  funext a
  rw [← step_number hp a, ← step_number hq a, heq]

theorem squareVertex_eq_number (n i j : Nat) : UnitMesh.squareVertex n i j = number n ![i, j] := by
  simp [UnitMesh.squareVertex, number, Fin.sum_univ_succ]
  omega

theorem boxVertex_eq_number (n i j k : Nat) :
    UnitMesh.boxVertex n i j k = number n ![i, j, k] := by
  simp [UnitMesh.boxVertex, number, Fin.sum_univ_succ, pow_two]
  omega

/-! ## The sides of the lattice -/

/-- The vertices all lie on one side: along some axis they have no steps, or all steps. -/
def OnSide (n d : Nat) (vertices : Set Nat) : Prop :=
  ∃ a < d, (∀ v ∈ vertices, step n a v = 0) ∨ ∀ v ∈ vertices, step n a v = n

theorem OnSide.mono {s t : Set Nat} (h : OnSide n d t) (hsubset : s ⊆ t) : OnSide n d s := by
  obtain ⟨a, ha, hside⟩ := h
  refine ⟨a, ha, ?_⟩
  rcases hside with hside | hside
  · exact .inl fun v hv => hside v (hsubset hv)
  · exact .inr fun v hv => hside v (hsubset hv)

instance (n d v : Nat) : Decidable (OnSide n d {v}) :=
  decidable_of_iff (∃ a < d, step n a v = 0 ∨ step n a v = n) (by simp [OnSide])

theorem onSide_singleton_iff {v : Nat} :
    OnSide n d {v} ↔ ∃ a < d, step n a v = 0 ∨ step n a v = n := by
  simp [OnSide]

/-- A point lies on no side if it has some but not all steps along each axis. -/
theorem not_onSide_number_iff {p : Fin d → Nat} (hp : p ∈ grid d (n + 1)) :
    ¬ OnSide n d {number n p} ↔ ∀ a, 0 < p a ∧ p a < n := by
  have hbound := mem_grid.mp hp
  rw [onSide_singleton_iff]
  constructor
  · intro hnot a
    by_contra hside
    refine hnot ⟨a, a.isLt, ?_⟩
    have hlt := hbound a
    rw [step_number hp a]
    omega
  · rintro hinner ⟨a, ha, hside⟩
    obtain ⟨hpos, hlt⟩ := hinner ⟨a, ha⟩
    have hstep := step_number hp ⟨a, ha⟩
    dsimp only at hstep
    rw [hstep] at hside
    omega

def inside (n d : Nat) : Finset (Fin d → Nat) := Fintype.piFinset fun _ => Finset.Ioo 0 n

theorem mem_inside {p : Fin d → Nat} : p ∈ inside n d ↔ ∀ a, 0 < p a ∧ p a < n := by
  simp [inside, Fintype.mem_piFinset]

theorem inside_subset_grid (n d : Nat) : inside n d ⊆ grid d (n + 1) := by
  intro p hp
  rw [mem_inside] at hp
  exact mem_grid.mpr fun a => Nat.lt_succ_of_lt (hp a).2

theorem length_filter_not_onSide (n d : Nat) :
    ((List.range ((n + 1) ^ d)).filter fun v => ¬ OnSide n d {v}).length = (n - 1) ^ d := by
  have himage : ((List.range ((n + 1) ^ d)).filter fun v => ¬ OnSide n d {v}).toFinset =
      (inside n d).image (number n) := by
    ext v
    simp only [List.mem_toFinset, List.mem_filter, List.mem_range, decide_eq_true_eq,
      Finset.mem_image]
    constructor
    · intro ⟨hv, hnot⟩
      have hmem : (fun a : Fin d => step n a v) ∈ grid d (n + 1) :=
        mem_grid.mpr fun a => step_lt n a v
      rw [← number_step hv] at hnot
      exact ⟨_, mem_inside.mpr ((not_onSide_number_iff hmem).mp hnot), number_step hv⟩
    · rintro ⟨p, hp, rfl⟩
      have hmem := inside_subset_grid n d hp
      exact ⟨number_lt hmem, (not_onSide_number_iff hmem).mpr (mem_inside.mp hp)⟩
  have hinj : Set.InjOn (number n) (inside n d : Set (Fin d → Nat)) :=
    (number_injOn n d).mono fun _ hp => inside_subset_grid n d hp
  rw [← List.toFinset_card_of_nodup (List.nodup_range.filter _), himage,
    Finset.card_image_of_injOn hinj, inside, Fintype.card_piFinset]
  simp

/-- The numbers on the sides are those of all points but the ones inside. -/
theorem length_filter_onSide (n d : Nat) :
    ((List.range ((n + 1) ^ d)).filter fun v => OnSide n d {v}).length =
      (n + 1) ^ d - (n - 1) ^ d := by
  have htotal := List.length_eq_length_filter_add (l := List.range ((n + 1) ^ d))
    fun v => decide (OnSide n d {v})
  simp only [← decide_not, length_filter_not_onSide, List.length_range] at htotal
  omega

end FiniteElement.Lattice
