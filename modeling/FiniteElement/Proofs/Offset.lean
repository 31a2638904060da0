import Mathlib

/-! # Blocks one after the other

Where blocks of given sizes lie one after the other, an index determines its
block and its place in it.
-/

namespace FiniteElement

/-- The entries of a list are numbered in increasing order. -/
theorem pairwise_snd_zipIdx {β : Type} (xs : List β) (k : Nat) :
    (xs.zipIdx k).Pairwise fun x y => x.2 < y.2 := by
  have hplaces : ((xs.zipIdx k).map Prod.snd).Pairwise (· < ·) := by
    rw [List.zipIdx_map_snd]
    exact List.pairwise_lt_range'
  exact List.pairwise_map.mp hplaces

/-- The number of entries in the blocks before block `i`, for blocks of the given sizes. -/
def offset (sizes : List Nat) (i : Nat) : Nat := (sizes.take i).sum

@[simp] theorem offset_zero (sizes : List Nat) : offset sizes 0 = 0 := by
  simp [offset]

@[simp] theorem offset_cons_succ (n : Nat) (sizes : List Nat) (i : Nat) :
    offset (n :: sizes) (i + 1) = n + offset sizes i := by
  simp [offset]

theorem offset_length (sizes : List Nat) : offset sizes sizes.length = sizes.sum := by
  simp [offset]

theorem offset_succ {sizes : List Nat} {i n : Nat} (h : sizes[i]? = some n) :
    offset sizes (i + 1) = offset sizes i + n := by
  rw [offset, offset, List.take_add_one, h, List.sum_append]
  simp

theorem offset_le_sum (sizes : List Nat) (i : Nat) : offset sizes i ≤ sizes.sum := by
  have h := congrArg List.sum (List.take_append_drop i sizes)
  rw [List.sum_append] at h
  rw [offset]
  omega

theorem offset_add_lt_sum {sizes : List Nat} {i n r : Nat} (h : sizes[i]? = some n) (hr : r < n) :
    offset sizes i + r < sizes.sum := by
  have hle := offset_le_sum sizes (i + 1)
  rw [offset_succ h] at hle
  omega

theorem offset_add_inj {sizes : List Nat} {i j m n r s : Nat} (hi : sizes[i]? = some m)
    (hj : sizes[j]? = some n) (hr : r < m) (hs : s < n) :
    offset sizes i + r = offset sizes j + s ↔ i = j ∧ r = s := by
  constructor
  · intro heq
    induction sizes generalizing i j with
    | nil => simp at hi
    | cons size sizes ih =>
        cases i with
        | zero =>
            cases j with
            | zero =>
                simp only [offset_zero, Nat.zero_add] at heq
                exact ⟨rfl, heq⟩
            | succ j =>
                simp only [List.getElem?_cons_zero, Option.some.injEq] at hi
                rw [offset_zero, offset_cons_succ] at heq
                omega
        | succ i =>
            cases j with
            | zero =>
                simp only [List.getElem?_cons_zero, Option.some.injEq] at hj
                rw [offset_zero, offset_cons_succ] at heq
                omega
            | succ j =>
                simp only [offset_cons_succ, Nat.add_assoc, Nat.add_left_cancel_iff] at heq
                obtain ⟨hij, hrs⟩ := ih (by simpa using hi) (by simpa using hj) heq
                exact ⟨congrArg Nat.succ hij, hrs⟩
  · intro ⟨hij, hrs⟩
    rw [hij, hrs]

theorem exists_offset_add {sizes : List Nat} {k : Nat} (h : k < sizes.sum) :
    ∃ i n r, sizes[i]? = some n ∧ r < n ∧ k = offset sizes i + r := by
  induction sizes generalizing k with
  | nil => simp at h
  | cons size sizes ih =>
      by_cases hk : k < size
      · exact ⟨0, size, k, rfl, hk, by simp⟩
      · rw [List.sum_cons] at h
        have hrest : k - size < sizes.sum := by omega
        obtain ⟨i, n, r, hi, hr, heq⟩ := ih hrest
        refine ⟨i + 1, n, r, hi, hr, ?_⟩
        rw [offset_cons_succ]
        omega

/-- Entry `r` of block `i` of concatenated lists. -/
theorem getElem?_flatten_offset {β : Type} {blocks : List (List β)} {i r : Nat} {block : List β}
    (hi : blocks[i]? = some block) (hr : r < block.length) :
    blocks.flatten[offset (blocks.map List.length) i + r]? = block[r]? := by
  induction blocks generalizing i with
  | nil => simp at hi
  | cons first blocks ih =>
      cases i with
      | zero =>
          simp only [List.getElem?_cons_zero, Option.some.injEq] at hi
          rw [hi, List.flatten_cons, offset_zero, Nat.zero_add, List.getElem?_append_left hr]
      | succ i =>
          rw [List.getElem?_cons_succ] at hi
          rw [List.flatten_cons, List.map_cons, offset_cons_succ, Nat.add_assoc,
            List.getElem?_append_right (Nat.le_add_right _ _), Nat.add_sub_cancel_left, ih hi]

theorem offset_append_length_add (sizes others : List Nat) (i : Nat) :
    offset (sizes ++ others) (sizes.length + i) = sizes.sum + offset others i := by
  rw [offset, List.take_length_add_append, List.sum_append, offset]

/-- Of concatenated sizes, those before entry `r` of block `i` are the blocks before and the entries
before in the block. -/
theorem offset_flatten {blocks : List (List Nat)} {i r : Nat} {block : List Nat}
    (hi : blocks[i]? = some block) (hr : r ≤ block.length) :
    offset blocks.flatten (offset (blocks.map List.length) i + r) =
      offset (blocks.map List.sum) i + offset block r := by
  induction blocks generalizing i with
  | nil => simp at hi
  | cons first blocks ih =>
      cases i with
      | zero =>
          rw [List.getElem?_cons_zero, Option.some.injEq] at hi
          rw [hi, offset_zero, offset_zero, Nat.zero_add, Nat.zero_add, List.flatten_cons, offset,
            List.take_append_of_le_length hr, offset]
      | succ i =>
          rw [List.getElem?_cons_succ] at hi
          rw [List.map_cons, List.map_cons, offset_cons_succ, offset_cons_succ, Nat.add_assoc,
            Nat.add_assoc, ← ih hi, List.flatten_cons, offset_append_length_add]

/-- Lists of indices one after the other, the first shifted by `start` and each by the sizes of
those before it. -/
def shiftedFrom {β : Type} (size : β → Nat) (entries : β → List Nat) : Nat → List β → List Nat
  | _, [] => []
  | start, block :: rest =>
    (entries block).map (start + ·) ++ shiftedFrom size entries (start + size block) rest

theorem shiftedFrom_append {β : Type} (size : β → Nat) (entries : β → List Nat) (start : Nat)
    (blocks others : List β) :
    shiftedFrom size entries start (blocks ++ others) =
      shiftedFrom size entries start blocks ++
        shiftedFrom size entries (start + (blocks.map size).sum) others := by
  induction blocks generalizing start with
  | nil => simp [shiftedFrom]
  | cons block blocks ih =>
      rw [List.cons_append, shiftedFrom, shiftedFrom, ih, List.append_assoc, List.map_cons,
        List.sum_cons, Nat.add_assoc]

theorem shiftedFrom_eq_flatMap {β : Type} (size : β → Nat) (entries : β → List Nat) (start : Nat)
    (blocks : List β) :
    shiftedFrom size entries start blocks = (blocks.map entries).zipIdx.flatMap fun (part, i) =>
      part.map (start + offset (blocks.map size) i + ·) := by
  induction blocks generalizing start with
  | nil => rfl
  | cons block blocks ih =>
      simp only [shiftedFrom, ih, List.map_cons, List.zipIdx_cons', List.flatMap_cons,
        List.flatMap_map, Prod.map_fst, Prod.map_snd, id_eq, offset_zero, Nat.zero_add,
        offset_cons_succ, Nat.add_assoc]

theorem shiftedFrom_replicate {β : Type} (size : β → Nat) (entries : β → List Nat) (start : Nat)
    (block : β) (k : Nat) :
    shiftedFrom size entries start (List.replicate k block) =
      (List.range k).flatMap fun i => (entries block).map (start + i * size block + ·) := by
  induction k generalizing start with
  | zero => rfl
  | succ k ih =>
      rw [List.replicate_succ, shiftedFrom, ih, List.range_succ_eq_map, List.flatMap_cons,
        List.flatMap_map, Nat.zero_mul, Nat.add_zero]
      congr 2
      funext i
      rw [Nat.succ_mul, Nat.add_assoc, Nat.add_comm (size block)]

theorem map_add_shiftedFrom {β : Type} (size : β → Nat) (entries : β → List Nat)
    (shift start : Nat) (blocks : List β) :
    (shiftedFrom size entries start blocks).map (shift + ·) =
      shiftedFrom size entries (shift + start) blocks := by
  induction blocks generalizing start with
  | nil => rfl
  | cons block blocks ih =>
      rw [shiftedFrom, shiftedFrom, List.map_append, List.map_map, ih, Nat.add_assoc]
      simp only [Function.comp_def, Nat.add_assoc]

theorem length_shiftedFrom {β : Type} (size : β → Nat) (entries : β → List Nat) (start : Nat)
    (blocks : List β) :
    (shiftedFrom size entries start blocks).length =
      (blocks.map fun block => (entries block).length).sum := by
  induction blocks generalizing start with
  | nil => rfl
  | cons block blocks ih =>
      rw [shiftedFrom, List.length_append, List.length_map, ih, List.map_cons, List.sum_cons]

theorem mem_shiftedFrom_iff {β : Type} {size : β → Nat} {entries : β → List Nat} {start k : Nat}
    {blocks : List β} :
    k ∈ shiftedFrom size entries start blocks ↔ ∃ i block r, blocks[i]? = some block ∧
      r ∈ entries block ∧ k = start + (offset (blocks.map size) i + r) := by
  induction blocks generalizing start with
  | nil => simp [shiftedFrom]
  | cons block blocks ih =>
      rw [shiftedFrom, List.mem_append, List.mem_map, ih]
      constructor
      · rintro (⟨r, hr, rfl⟩ | ⟨i, other, r, hi, hr, rfl⟩)
        · exact ⟨0, block, r, rfl, hr, by simp⟩
        · refine ⟨i + 1, other, r, hi, hr, ?_⟩
          rw [List.map_cons, offset_cons_succ]
          omega
      · rintro ⟨i, other, r, hi, hr, rfl⟩
        cases i with
        | zero =>
            rw [List.getElem?_cons_zero, Option.some.injEq] at hi
            subst hi
            exact Or.inl ⟨r, hr, by simp⟩
        | succ i =>
            refine Or.inr ⟨i, other, r, hi, hr, ?_⟩
            rw [List.map_cons, offset_cons_succ]
            omega

theorem lt_of_mem_shiftedFrom {β : Type} {size : β → Nat} {entries : β → List Nat} {start : Nat}
    {blocks : List β} (h : ∀ block ∈ blocks, ∀ r ∈ entries block, r < size block) :
    ∀ k ∈ shiftedFrom size entries start blocks, k < start + (blocks.map size).sum := by
  intro k hk
  obtain ⟨i, block, r, hi, hr, heq⟩ := mem_shiftedFrom_iff.mp hk
  have hsize : (blocks.map size)[i]? = some (size block) := by
    rw [List.getElem?_map, hi, Option.map_some]
  have hlt := offset_add_lt_sum hsize (h block (List.mem_of_getElem? hi) r hr)
  omega

/-- Increasing lists below their sizes stay increasing when they are laid out one after another. -/
theorem pairwise_shiftedFrom {β : Type} {size : β → Nat} {entries : β → List Nat} {start : Nat}
    {blocks : List β} (hlt : ∀ block ∈ blocks, ∀ r ∈ entries block, r < size block)
    (hpairwise : ∀ block ∈ blocks, (entries block).Pairwise (· < ·)) :
    (shiftedFrom size entries start blocks).Pairwise (· < ·) := by
  induction blocks generalizing start with
  | nil => exact List.Pairwise.nil
  | cons block blocks ih =>
      rw [List.forall_mem_cons] at hlt hpairwise
      rw [shiftedFrom, List.pairwise_append, List.pairwise_map]
      refine ⟨hpairwise.1.imp (Nat.add_lt_add_left · start), ih hlt.2 hpairwise.2, ?_⟩
      intro i hi j hj
      obtain ⟨r, hr, rfl⟩ := List.mem_map.mp hi
      obtain ⟨-, -, s, -, -, rfl⟩ := mem_shiftedFrom_iff.mp hj
      have hsize := hlt.1 r hr
      omega

/-- Equal blocks of `n` entries, one after the other. -/
theorem mul_add_inj {n a b r s : Nat} (hr : r < n) (hs : s < n) :
    n * a + r = n * b + s ↔ a = b ∧ r = s := by
  constructor
  · intro heq
    have hdiv := congrArg (· / n) heq
    have hmod := congrArg (· % n) heq
    have hpos : 0 < n := Nat.zero_lt_of_lt hr
    simp only [Nat.mul_add_div hpos, Nat.div_eq_of_lt hr, Nat.div_eq_of_lt hs, Nat.add_zero]
      at hdiv
    simp only [Nat.mul_add_mod, Nat.mod_eq_of_lt hr, Nat.mod_eq_of_lt hs] at hmod
    exact ⟨hdiv, hmod⟩
  · intro ⟨hab, hrs⟩
    rw [hab, hrs]

theorem mul_add_lt {n a count r : Nat} (ha : a < count) (hr : r < n) :
    n * a + r < n * count := by
  have hle : n * (a + 1) ≤ n * count := Nat.mul_le_mul_left n ha
  rw [Nat.mul_succ] at hle
  omega

end FiniteElement
