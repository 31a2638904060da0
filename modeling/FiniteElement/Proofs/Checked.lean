import Mathlib
import FiniteElement.Basic

/-! # Checked computations

Success of a computation that may fail, taken apart along its steps: a sequence
succeeds when each step does, and a traversal succeeds when it does on every
entry. The guards of index arithmetic follow.
-/

namespace FiniteElement.Checked

variable {ε α β γ : Type}

@[simp] theorem bind_eq_ok_iff {x : Except ε α} {f : α → Except ε β} {b : β} :
    (x >>= f) = .ok b ↔ ∃ a, x = .ok a ∧ f a = .ok b := by
  cases x <;> simp [bind, Except.bind]

@[simp] theorem pure_eq_ok_iff {a b : α} : (pure a : Except ε α) = .ok b ↔ a = b := by
  simp [pure, Except.pure]

@[simp] theorem map_eq_ok_iff {x : Except ε α} {f : α → β} {b : β} :
    x.map f = .ok b ↔ ∃ a, x = .ok a ∧ f a = b := by
  cases x <;> simp [Except.map]

@[simp] theorem fmap_eq_ok_iff {x : Except ε α} {f : α → β} {b : β} :
    f <$> x = .ok b ↔ ∃ a, x = .ok a ∧ f a = b :=
  map_eq_ok_iff

theorem map_bind (x : Except ε α) (f : α → Except ε β) (g : β → γ) :
    (x >>= f).map g = x >>= fun a => (f a).map g := by
  cases x <;> rfl

theorem ok_bind (a : α) (f : α → Except ε β) : ((.ok a : Except ε α) >>= f) = f a := rfl

/-- A traversal that succeeds relates its entries to its results one by one. -/
theorem mapM_eq_ok_iff {f : α → Except ε β} {xs : List α} {ys : List β} :
    xs.mapM f = .ok ys ↔ List.Forall₂ (fun x y => f x = .ok y) xs ys := by
  induction xs generalizing ys with
  | nil => cases ys <;> simp
  | cons x xs ih =>
      rw [List.mapM_cons]
      cases ys with
      | nil => simp
      | cons y ys =>
          simp only [bind_eq_ok_iff, pure_eq_ok_iff, List.cons.injEq, List.forall₂_cons, ih]
          constructor
          · intro h
            obtain ⟨y', hy, ys', hys, rfl, rfl⟩ := h
            exact ⟨hy, hys⟩
          · intro h
            exact ⟨y, h.1, ys, h.2, rfl, rfl⟩

theorem mapM_congr {f g : α → Except ε β} {xs : List α} (h : ∀ x ∈ xs, f x = g x) :
    xs.mapM f = xs.mapM g := by
  induction xs with
  | nil => rfl
  | cons x xs ih =>
      rw [List.mapM_cons, List.mapM_cons, h x List.mem_cons_self,
        ih fun y hy => h y (List.mem_cons_of_mem _ hy)]

theorem mapM_eq_ok_map {f : α → Except ε β} {g : α → β} {xs : List α}
    (h : ∀ x ∈ xs, f x = .ok (g x)) : xs.mapM f = .ok (xs.map g) := by
  rw [mapM_eq_ok_iff, List.forall₂_map_right_iff, List.forall₂_same]
  exact h

theorem exists_mapM_eq_ok {f : α → Except ε β} {xs : List α}
    (h : ∀ x ∈ xs, ∃ y, f x = .ok y) : ∃ ys, xs.mapM f = .ok ys := by
  induction xs with
  | nil => exact ⟨[], rfl⟩
  | cons x xs ih =>
      obtain ⟨y, hy⟩ := h x List.mem_cons_self
      obtain ⟨ys, hys⟩ := ih fun x hx => h x (List.mem_cons_of_mem _ hx)
      exact ⟨y :: ys, mapM_eq_ok_iff.mpr (.cons hy (mapM_eq_ok_iff.mp hys))⟩

/-- Every result of a traversal is that of an entry, and every entry has one. -/
theorem exists_of_mapM_eq_ok {f : α → Except ε β} {xs : List α} {ys : List β}
    (h : xs.mapM f = .ok ys) :
    (∀ y ∈ ys, ∃ x ∈ xs, f x = .ok y) ∧ ∀ x ∈ xs, ∃ y ∈ ys, f x = .ok y := by
  have hall := List.forall₂_iff_get.mp (mapM_eq_ok_iff.mp h)
  constructor
  · intro y hy
    obtain ⟨i, hi, heq⟩ := List.getElem_of_mem hy
    have hlt : i < xs.length := by
      rw [hall.1]
      exact hi
    refine ⟨xs[i], List.getElem_mem hlt, ?_⟩
    rw [← heq]
    exact hall.2 i hlt hi
  · intro x hx
    obtain ⟨i, hi, heq⟩ := List.getElem_of_mem hx
    have hlt : i < ys.length := by
      rw [← hall.1]
      exact hi
    refine ⟨ys[i], List.getElem_mem hlt, ?_⟩
    rw [← heq]
    exact hall.2 i hi hlt

theorem length_of_mapM_eq_ok {f : α → Except ε β} {xs : List α} {ys : List β}
    (h : xs.mapM f = .ok ys) : ys.length = xs.length :=
  (mapM_eq_ok_iff.mp h).length_eq.symm

/-- A check of all entries passes if it passes for each. -/
theorem forM_eq_ok_iff {f : α → Except ε Unit} {xs : List α} {value : Unit} :
    xs.forM f = .ok value ↔ ∀ x ∈ xs, f x = .ok () := by
  induction xs with
  | nil =>
      constructor
      · intro _ x hx
        cases hx
      · intro _
        rfl
  | cons x xs ih =>
      change (f x >>= fun _ => xs.forM f) = .ok value ↔ _
      rw [bind_eq_ok_iff, List.forall_mem_cons]
      constructor
      · intro ⟨first, hfirst, hrest⟩
        exact ⟨hfirst, ih.mp hrest⟩
      · intro ⟨hfirst, hrest⟩
        exact ⟨(), hfirst, ih.mpr hrest⟩

/-- A traversal of which each step succeeds or fails in one way succeeds or fails in that way. -/
theorem mapM_eq_ok_map_or {f : α → Except ε β} {g : α → β} {e : ε} {P : Prop} {xs : List α}
    (h : ∀ x ∈ xs, f x = .ok (g x) ∨ f x = .error e ∧ P) :
    xs.mapM f = .ok (xs.map g) ∨ xs.mapM f = .error e ∧ P := by
  induction xs with
  | nil => exact Or.inl rfl
  | cons x xs ih =>
      rw [List.mapM_cons]
      rcases h x List.mem_cons_self with hok | ⟨herror, hP⟩
      · rw [hok, ok_bind]
        rcases ih fun y hy => h y (List.mem_cons_of_mem _ hy) with hrest | ⟨hrest, hP⟩
        · rw [hrest]
          exact Or.inl rfl
        · rw [hrest]
          exact Or.inr ⟨rfl, hP⟩
      · rw [herror]
        exact Or.inr ⟨rfl, hP⟩

theorem foldlM_eq_ok_foldl {σ : Type} {f : σ → α → Except ε σ} {g : σ → α → σ} {xs : List α}
    (h : ∀ s, ∀ x ∈ xs, f s x = .ok (g s x)) (s : σ) : xs.foldlM f s = .ok (xs.foldl g s) := by
  induction xs generalizing s with
  | nil => rfl
  | cons x xs ih =>
      rw [List.foldlM_cons, h s x List.mem_cons_self, ok_bind, List.foldl_cons]
      exact ih (fun s y hy => h s y (List.mem_cons_of_mem _ hy)) _

theorem anyM_eq_ok_any {f : α → Except ε Bool} {g : α → Bool} {xs : List α}
    (h : ∀ x ∈ xs, f x = .ok (g x)) : xs.anyM f = .ok (xs.any g) := by
  induction xs with
  | nil => rfl
  | cons x xs ih =>
      rw [List.anyM, h x List.mem_cons_self, ok_bind, List.any_cons]
      cases g x with
      | true => rfl
      | false => exact ih fun y hy => h y (List.mem_cons_of_mem _ hy)

theorem findM?_eq_ok_find? {f : α → Except ε Bool} {g : α → Bool} {xs : List α}
    (h : ∀ x ∈ xs, f x = .ok (g x)) : xs.findM? f = .ok (xs.find? g) := by
  induction xs with
  | nil => rfl
  | cons x xs ih =>
      rw [List.findM?, h x List.mem_cons_self, ok_bind, List.find?_cons]
      cases g x with
      | true => rfl
      | false => exact ih fun y hy => h y (List.mem_cons_of_mem _ hy)

end FiniteElement.Checked

namespace FiniteElement.Index

variable {α : Type}

theorem guard_of_lt {n : Nat} (h : n < bound) : guard n = .ok n := by
  simp [guard, h]

/-- A list passes if all its entries are in range. -/
theorem mapM_guard (xs : List Nat) :
    xs.mapM guard = if ∀ x ∈ xs, x < bound then .ok xs else .error .overflow := by
  induction xs with
  | nil => rfl
  | cons x xs ih =>
      have hall : (∀ y ∈ x :: xs, y < bound) ↔ x < bound ∧ ∀ y ∈ xs, y < bound :=
        List.forall_mem_cons
      rw [List.mapM_cons, ih, guard]
      by_cases hx : x < bound
      · by_cases hxs : ∀ y ∈ xs, y < bound
        · rw [if_pos hx, if_pos hxs, if_pos (hall.mpr ⟨hx, hxs⟩)]
          rfl
        · rw [if_pos hx, if_neg hxs, if_neg fun h => hxs (hall.mp h).2]
          rfl
      · rw [if_neg hx, if_neg fun h => hx (hall.mp h).1]
        rfl

theorem mapM_guard_of_lt {xs : List Nat} (h : ∀ x ∈ xs, x < bound) : xs.mapM guard = .ok xs := by
  rw [mapM_guard, if_pos h]

/-- Shifting a list that has passed is as good as shifting it first. -/
theorem mapM_guard_bind_add (shift : Nat) (xs : List Nat) :
    (xs.mapM guard >>= fun ys => ys.mapM (add shift)) = (xs.map (shift + ·)).mapM guard := by
  have hadd : ∀ ys : List Nat, ys.mapM (add shift) = (ys.map (shift + ·)).mapM guard := fun ys =>
    List.mapM_map.symm
  by_cases h : ∀ x ∈ xs, x < bound
  · rw [mapM_guard_of_lt h, Checked.ok_bind, hadd]
  · have hshifted : ¬ ∀ y ∈ xs.map (shift + ·), y < bound := by
      intro hall
      apply h
      intro x hx
      have hlt := hall _ (List.mem_map_of_mem hx)
      omega
    rw [mapM_guard, mapM_guard, if_neg h, if_neg hshifted]
    rfl

theorem mapM_add_of_lt {shift : Nat} {xs : List Nat} (h : ∀ x ∈ xs, shift + x < bound) :
    xs.mapM (add shift) = .ok (xs.map (shift + ·)) :=
  Checked.mapM_eq_ok_map fun x hx => guard_of_lt (h x hx)

theorem add_eq_ok_iff {m n k : Nat} : add m n = .ok k ↔ m + n < bound ∧ m + n = k :=
  guard_eq_ok_iff

theorem length_eq_ok_iff {n k : Nat} : length n = .ok k ↔ n < capacity ∧ n = k := by
  unfold length
  by_cases h : n < capacity <;> simp [h]

theorem split_of_le {n : Nat} {xs : List α} (h : n ≤ xs.length) :
    split n xs = .ok (xs.take n, xs.drop n) := by
  simp [split, h]

theorem entry_of_lt {xs : List α} {i : Nat} (h : i < xs.length) : entry xs i = .ok xs[i] := by
  rw [entry_eq_ok_iff, List.getElem?_eq_getElem h]

theorem entry_of_le {xs : List α} {i : Nat} (h : xs.length ≤ i) :
    entry xs i = .error .outOfBounds := by
  rw [entry, List.getElem?_eq_none h]

theorem slot_of_lt {xs : Array α} {i : Nat} (h : i < xs.size) : slot xs i = .ok xs[i] := by
  rw [slot_eq_ok_iff, Array.getElem?_eq_getElem h]

end FiniteElement.Index
