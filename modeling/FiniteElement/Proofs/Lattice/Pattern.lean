import Mathlib
import FiniteElement.Proofs.Lattice.Points

/-! # Patterns of corners

Some corners of a cube of a lattice are given by the lowest point that they reach
and their pattern, the corners seen from there. Two choices of corners in any cubes
have the same vertices exactly if they agree in both. The axes along which a pattern
is flat say how often it occurs and where it meets the sides of the lattice.
-/

namespace FiniteElement.Lattice

variable {d n : Nat}

/-- A corner of a cube: the axes along which it lies one step above the lower corner. -/
abbrev Corner (d : Nat) := Fin d → Bool

def move (p : Fin d → Nat) (o : Corner d) : Fin d → Nat := fun a => p a + (o a).toNat

def spread (n : Nat) (p : Fin d → Nat) (corners : Finset (Corner d)) : Set Nat :=
  {v | ∃ o ∈ corners, v = number n (move p o)}

theorem move_apply_le (p : Fin d → Nat) (o : Corner d) (a : Fin d) : move p o a ≤ p a + 1 := by
  have hle := Bool.toNat_le (o a)
  rw [move]
  omega

theorem move_mem_grid {q : Fin d → Nat} (hq : q ∈ grid d n) (o : Corner d) :
    move q o ∈ grid d (n + 1) := by
  rw [mem_grid] at hq ⊢
  intro a
  have hle := move_apply_le q o a
  have hlt := hq a
  omega

theorem toNat_inj {b c : Bool} : b.toNat = c.toNat ↔ b = c := by
  cases b <;> cases c <;> decide

theorem move_injective (p : Fin d → Nat) : Function.Injective (move p) := by
  intro o o' heq
  funext a
  exact toNat_inj.mp (Nat.add_left_cancel (congrFun heq a))

theorem move_left_injective (o : Corner d) : Function.Injective fun p => move p o := by
  intro p p' heq
  funext a
  exact Nat.add_right_cancel (congrFun heq a)

/-! ## Patterns -/

def low (corners : Finset (Corner d)) : Corner d := fun a => decide (∀ o ∈ corners, o a = true)

/-- Corners seen from the lowest point that they reach. -/
def pattern (corners : Finset (Corner d)) : Finset (Corner d) :=
  corners.image fun o a => o a && !low corners a

def IsFlat (corners : Finset (Corner d)) (a : Fin d) : Prop := ∀ o ∈ corners, o a = false

instance (corners : Finset (Corner d)) (a : Fin d) : Decidable (IsFlat corners a) :=
  inferInstanceAs (Decidable (∀ o ∈ corners, o a = false))

def Touches (corners : Finset (Corner d)) : Prop := ∀ a, ∃ o ∈ corners, o a = false

theorem touches_pattern {corners : Finset (Corner d)} (h : corners.Nonempty) :
    Touches (pattern corners) := by
  intro a
  by_cases hlow : low corners a = true
  · obtain ⟨o, ho⟩ := h
    exact ⟨_, Finset.mem_image_of_mem _ ho, by simp [hlow]⟩
  · simp only [low, decide_eq_true_eq, not_forall, Bool.not_eq_true] at hlow
    obtain ⟨o, ho, hfalse⟩ := hlow
    exact ⟨_, Finset.mem_image_of_mem _ ho, by simp [hfalse]⟩

theorem move_low {corners : Finset (Corner d)} {o : Corner d} (ho : o ∈ corners)
    (q : Fin d → Nat) :
    move (move q (low corners)) (fun a => o a && !low corners a) = move q o := by
  funext a
  simp only [move]
  by_cases hlow : low corners a = true
  · have hall : ∀ o ∈ corners, o a = true := by simpa [low] using hlow
    simp [hlow, hall o ho]
  · simp [hlow]

/-- The vertices of an entity are determined by its lowest point and its pattern. -/
theorem spread_eq_spread_pattern (n : Nat) (q : Fin d → Nat) (corners : Finset (Corner d)) :
    spread n q corners = spread n (move q (low corners)) (pattern corners) := by
  ext v
  constructor
  · rintro ⟨o, ho, rfl⟩
    exact ⟨_, Finset.mem_image_of_mem _ ho, by rw [move_low ho]⟩
  · rintro ⟨_, ho', rfl⟩
    obtain ⟨o, ho, rfl⟩ := Finset.mem_image.mp ho'
    exact ⟨o, ho, by rw [move_low ho]⟩

theorem isFlat_pattern_iff {corners : Finset (Corner d)} {a : Fin d} :
    IsFlat (pattern corners) a ↔ ∀ o ∈ corners, o a = true → low corners a = true := by
  simp [IsFlat, pattern]

/-! ## Lowest points -/

/-- The points from which a pattern stays on the lattice. -/
def anchors (n : Nat) (corners : Finset (Corner d)) : Finset (Fin d → Nat) :=
  Fintype.piFinset fun a => Finset.range (if IsFlat corners a then n + 1 else n)

def flatness (corners : Finset (Corner d)) : Nat := (Finset.univ.filter (IsFlat corners)).card

theorem mem_anchors {corners : Finset (Corner d)} {p : Fin d → Nat} :
    p ∈ anchors n corners ↔ ∀ a, p a < if IsFlat corners a then n + 1 else n := by
  simp [anchors, Fintype.mem_piFinset]

theorem card_anchors (n : Nat) (corners : Finset (Corner d)) :
    (anchors n corners).card = (n + 1) ^ flatness corners * n ^ (d - flatness corners) := by
  have hrest : (Finset.univ.filter fun a => ¬ IsFlat corners a).card = d - flatness corners := by
    have htotal := Finset.card_filter_add_card_filter_not (s := Finset.univ) (IsFlat corners)
    rw [Finset.card_univ, Fintype.card_fin] at htotal
    rw [flatness]
    omega
  rw [anchors, Fintype.card_piFinset]
  simp only [Finset.card_range, Finset.prod_ite, Finset.prod_const]
  rw [hrest, flatness]

theorem anchors_subset_grid (corners : Finset (Corner d)) :
    anchors n corners ⊆ grid d (n + 1) := by
  intro p hp
  rw [mem_anchors] at hp
  rw [mem_grid]
  intro a
  have hlt := hp a
  split at hlt <;> omega

theorem move_mem_grid_of_anchor {corners : Finset (Corner d)} {p : Fin d → Nat} {o : Corner d}
    (hp : p ∈ anchors n corners) (ho : o ∈ corners) : move p o ∈ grid d (n + 1) := by
  rw [mem_anchors] at hp
  rw [mem_grid]
  intro a
  have hlt := hp a
  have hle := move_apply_le p o a
  split at hlt
  · next hflat => simpa [move, hflat o ho] using hlt
  · omega

/-- Seen from its lowest point, an entity of a cube stays on the lattice. -/
theorem move_low_mem_anchors {q : Fin d → Nat} (hq : q ∈ grid d n) (corners : Finset (Corner d)) :
    move q (low corners) ∈ anchors n (pattern corners) := by
  rw [mem_grid] at hq
  rw [mem_anchors]
  intro a
  have hlt := hq a
  have hle := move_apply_le q (low corners) a
  split
  · omega
  · next hflat =>
      rw [isFlat_pattern_iff] at hflat
      have hlow : low corners a = false := by
        by_contra htrue
        exact hflat fun _ _ _ => by simpa using htrue
      simpa [move, hlow] using hlt

/-- Equal vertices are those of the same pattern above the same point. -/
theorem spread_injective {p p' : Fin d → Nat} {corners corners' : Finset (Corner d)}
    (hp : p ∈ anchors n corners) (hp' : p' ∈ anchors n corners') (h : Touches corners)
    (h' : Touches corners') (heq : spread n p corners = spread n p' corners') :
    p = p' ∧ corners = corners' := by
  have hforth : ∀ o ∈ corners, ∃ o' ∈ corners', move p o = move p' o' := by
    intro o ho
    have hmem : number n (move p o) ∈ spread n p' corners' := heq ▸ ⟨o, ho, rfl⟩
    obtain ⟨o', ho', hnumber⟩ := hmem
    exact ⟨o', ho', number_injOn n d (move_mem_grid_of_anchor hp ho)
      (move_mem_grid_of_anchor hp' ho') hnumber⟩
  have hback : ∀ o' ∈ corners', ∃ o ∈ corners, move p' o' = move p o := by
    intro o' ho'
    have hmem : number n (move p' o') ∈ spread n p corners := heq ▸ ⟨o', ho', rfl⟩
    obtain ⟨o, ho, hnumber⟩ := hmem
    exact ⟨o, ho, number_injOn n d (move_mem_grid_of_anchor hp' ho')
      (move_mem_grid_of_anchor hp ho) hnumber⟩
  have hpoint : p = p' := by
    funext a
    obtain ⟨o, ho, hzero⟩ := h a
    obtain ⟨o', -, hsame⟩ := hforth o ho
    obtain ⟨o', ho', hzero'⟩ := h' a
    obtain ⟨o, -, hsame'⟩ := hback o' ho'
    have ha := congrFun hsame a
    have ha' := congrFun hsame' a
    simp only [move, hzero, hzero', Bool.toNat_false] at ha ha'
    omega
  subst hpoint
  refine ⟨rfl, Finset.Subset.antisymm ?_ ?_⟩
  · intro o ho
    obtain ⟨o', ho', hsame⟩ := hforth o ho
    rwa [move_injective p hsame]
  · intro o' ho'
    obtain ⟨o, ho, hsame⟩ := hback o' ho'
    rwa [move_injective p hsame]

/-- The vertices lie on one side if a flat axis of the pattern meets that side. -/
theorem onSide_spread_iff {p : Fin d → Nat} {corners : Finset (Corner d)}
    (hp : p ∈ anchors n corners) (h : Touches corners) :
    OnSide n d (spread n p corners) ↔ ∃ a, IsFlat corners a ∧ (p a = 0 ∨ p a = n) := by
  have hstep : ∀ o ∈ corners, ∀ a : Fin d, step n a (number n (move p o)) = p a + (o a).toNat := by
    intro o ho a
    rw [step_number (move_mem_grid_of_anchor hp ho)]
    rfl
  constructor
  · rintro ⟨a, ha, hside⟩
    obtain ⟨low, hlow, hzero⟩ := h ⟨a, ha⟩
    -- all corners have the step that a lowest one has
    have hall : ∃ side, (side = 0 ∨ side = n) ∧
        ∀ o ∈ corners, p ⟨a, ha⟩ + (o ⟨a, ha⟩).toNat = side := by
      rcases hside with hside | hside
      · exact ⟨0, .inl rfl, fun o ho => by rw [← hstep o ho, hside _ ⟨o, ho, rfl⟩]⟩
      · exact ⟨n, .inr rfl, fun o ho => by rw [← hstep o ho, hside _ ⟨o, ho, rfl⟩]⟩
    obtain ⟨side, hends, hsame⟩ := hall
    have hpoint := hsame low hlow
    rw [hzero, Bool.toNat_false, Nat.add_zero] at hpoint
    refine ⟨⟨a, ha⟩, ?_, by rwa [hpoint]⟩
    intro o ho
    have hnone := hsame o ho
    rw [hpoint, Nat.add_eq_left] at hnone
    exact Bool.toNat_eq_zero.mp hnone
  · rintro ⟨a, hflat, hends⟩
    have hsame : ∀ v ∈ spread n p corners, step n a v = p a := by
      rintro _ ⟨o, ho, rfl⟩
      rw [hstep o ho, hflat o ho, Bool.toNat_false, Nat.add_zero]
    rcases hends with hends | hends
    · exact ⟨a, a.isLt, .inl fun v hv => by rw [hsame v hv, hends]⟩
    · exact ⟨a, a.isLt, .inr fun v hv => by rw [hsame v hv, hends]⟩

/-! ## Cubes -/

/-- Every point is a corner of a cube, one above its lower corner only where the lattice ends. -/
theorem exists_move_eq (hn : 1 ≤ n) {p : Fin d → Nat} (hp : p ∈ grid d (n + 1)) :
    ∃ q ∈ grid d n, ∃ s : Corner d, move q s = p ∧ ∀ a, s a = true → p a = n := by
  rw [mem_grid] at hp
  refine ⟨fun a => if p a = n then n - 1 else p a, ?_, fun a => decide (p a = n), ?_, ?_⟩
  · rw [mem_grid]
    intro a
    have hlt := hp a
    split <;> omega
  · funext a
    by_cases hlast : p a = n
    · simp [move, hlast]
      omega
    · simp [move, hlast]
  · intro a hlast
    exact of_decide_eq_true hlast

/-- From another corner the same point is reached unless it lies on a side along an axis in which
the corners differ. -/
theorem exists_move_eq_move_iff {q : Fin d → Nat} (hq : q ∈ grid d n) (s s' : Corner d) :
    (∃ q' ∈ grid d n, move q' s' = move q s) ↔
      ∀ a, s a ≠ s' a → move q s a ≠ 0 ∧ move q s a ≠ n := by
  simp only [mem_grid, ne_eq, ← toNat_inj] at hq ⊢
  constructor
  · rintro ⟨q', hq', hsame⟩ a hne
    have ha := congrFun hsame a
    have hlt := hq a
    have hlt' := hq' a
    have hle := Bool.toNat_le (s a)
    have hle' := Bool.toNat_le (s' a)
    simp only [move] at ha ⊢
    omega
  · intro hinner
    refine ⟨fun a => q a + (s a).toNat - (s' a).toNat, fun a => ?_, funext fun a => ?_⟩
    all_goals
      have ha := hinner a
      have hlt := hq a
      have hle := Bool.toNat_le (s a)
      have hle' := Bool.toNat_le (s' a)
      simp only [move] at ha ⊢
      omega

end FiniteElement.Lattice
