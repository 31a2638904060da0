import Mathlib
import FiniteElement.Mesh.Basic

/-! # Numbers of entities in order of first appearance

The key of an entity is the increasing list of its vertices, and its number is
the place of that key in the list of first appearances. A table built in this way
has one row per cell, with the places of the keys of its entities.
-/

namespace FiniteElement

/-! ## Numbers in order of first appearance

A numbering is described by the list of the keys it has seen: the number of a
key is its place in that list, and visiting more keys only appends to the list.
From this follow the three facts that make the numbers usable as indices. Equal
numbers belong to equal keys, the numbers given are all those below the size,
and each number is an old one or the number of those given so far.
-/

section Keys

variable {κ : Type} [BEq κ]

def appendNew (seen keys : List κ) : List κ :=
  keys.foldl (fun seen key => if seen.contains key then seen else seen ++ [key]) seen

theorem firstAppearances_eq_appendNew (keys : List κ) :
    firstAppearances keys = appendNew [] keys := rfl

theorem appendNew_cons (seen : List κ) (key : κ) (keys : List κ) :
    appendNew seen (key :: keys) = appendNew (appendNew seen [key]) keys := rfl

theorem appendNew_append (seen xs ys : List κ) :
    appendNew seen (xs ++ ys) = appendNew (appendNew seen xs) ys :=
  List.foldl_append

theorem firstAppearances_append (xs ys : List κ) :
    firstAppearances (xs ++ ys) = appendNew (firstAppearances xs) ys :=
  appendNew_append [] xs ys

variable [LawfulBEq κ]

theorem appendNew_singleton_of_mem {seen : List κ} {key : κ} (h : key ∈ seen) :
    appendNew seen [key] = seen := by
  simp [appendNew, h]

theorem appendNew_singleton_of_not_mem {seen : List κ} {key : κ} (h : key ∉ seen) :
    appendNew seen [key] = seen ++ [key] := by
  simp [appendNew, h]

theorem prefix_appendNew (seen keys : List κ) : seen <+: appendNew seen keys := by
  induction keys generalizing seen with
  | nil => exact List.prefix_refl seen
  | cons key keys ih =>
      rw [appendNew_cons]
      refine List.IsPrefix.trans ?_ (ih (appendNew seen [key]))
      by_cases h : key ∈ seen
      · rw [appendNew_singleton_of_mem h]
      · rw [appendNew_singleton_of_not_mem h]
        exact List.prefix_append seen [key]

theorem mem_appendNew {seen keys : List κ} {key : κ} :
    key ∈ appendNew seen keys ↔ key ∈ seen ∨ key ∈ keys := by
  induction keys generalizing seen with
  | nil => simp [appendNew]
  | cons first keys ih =>
      rw [appendNew_cons, ih, List.mem_cons]
      by_cases h : first ∈ seen
      · rw [appendNew_singleton_of_mem h]
        constructor
        · intro hmem
          rcases hmem with hseen | hkeys
          · exact .inl hseen
          · exact .inr (.inr hkeys)
        · intro hmem
          rcases hmem with hseen | rfl | hkeys
          · exact .inl hseen
          · exact .inl h
          · exact .inr hkeys
      · rw [appendNew_singleton_of_not_mem h, List.mem_append, List.mem_singleton, or_assoc]

theorem nodup_appendNew {seen : List κ} (h : seen.Nodup) (keys : List κ) :
    (appendNew seen keys).Nodup := by
  induction keys generalizing seen with
  | nil => exact h
  | cons key keys ih =>
      rw [appendNew_cons]
      apply ih
      by_cases hmem : key ∈ seen
      · rwa [appendNew_singleton_of_mem hmem]
      · rw [appendNew_singleton_of_not_mem hmem]
        have hapart : ∀ a ∈ seen, ∀ b ∈ [key], a ≠ b := by
          intro a ha b hb heq
          rw [heq, List.mem_singleton.mp hb] at ha
          exact hmem ha
        exact List.nodup_append.mpr ⟨h, List.nodup_singleton key, hapart⟩

theorem firstAppearances_prefix {xs ys : List κ} (h : xs <+: ys) :
    firstAppearances xs <+: firstAppearances ys := by
  obtain ⟨zs, rfl⟩ := h
  rw [firstAppearances_append]
  exact prefix_appendNew _ zs

theorem mem_firstAppearances {keys : List κ} {key : κ} :
    key ∈ firstAppearances keys ↔ key ∈ keys := by
  rw [firstAppearances_eq_appendNew, mem_appendNew]
  simp

theorem nodup_firstAppearances (keys : List κ) : (firstAppearances keys).Nodup :=
  nodup_appendNew List.nodup_nil keys

end Keys

/-- A place in a list is a place in all its extensions. -/
theorem getElem?_mono {κ : Type} {xs ys : List κ} (h : xs <+: ys) {i : Nat} {x : κ}
    (hx : xs[i]? = some x) : ys[i]? = some x := by
  obtain ⟨zs, rfl⟩ := h
  obtain ⟨hi, -⟩ := List.getElem?_eq_some_iff.mp hx
  rwa [List.getElem?_append_left hi]

/-- Equal places in a list without repetitions hold equal entries. -/
theorem place_eq_iff {κ : Type} {xs : List κ} (h : xs.Nodup) {m n : Nat} {x y : κ}
    (hm : xs[m]? = some x) (hn : xs[n]? = some y) : m = n ↔ x = y := by
  obtain ⟨hlt, rfl⟩ := List.getElem?_eq_some_iff.mp hm
  obtain ⟨hlt', rfl⟩ := List.getElem?_eq_some_iff.mp hn
  exact (List.Nodup.getElem_inj_iff h).symm

/-- A new key at the end of a list stands in the last place, and all others where they stood. -/
theorem getElem?_append_new {κ : Type} {seen : List κ} {key : κ} (hnew : key ∉ seen) (other : κ)
    (i : Nat) : (seen ++ [key])[i]? = some other ↔
      (key = other ∧ i = seen.length) ∨ (key ≠ other ∧ seen[i]? = some other) := by
  by_cases hlt : i < seen.length
  · rw [List.getElem?_append_left hlt]
    constructor
    · intro hi
      refine Or.inr ⟨?_, hi⟩
      intro heq
      exact hnew (heq ▸ List.mem_of_getElem? hi)
    · intro h
      rcases h with ⟨-, hi⟩ | ⟨-, hi⟩
      · omega
      · exact hi
  · have hnone : seen[i]? = none := List.getElem?_eq_none (by omega)
    rw [List.getElem?_append_right (by omega), List.getElem?_singleton, hnone]
    by_cases hi : i = seen.length
    · simp [hi]
    · have hpos : i - seen.length ≠ 0 := by omega
      simp [hi, hpos]

namespace Numbering

variable {κ : Type} [BEq κ] [Hashable κ]

/-- A numbering of the keys of a list: the number of a key is its place. -/
structure Numbers (numbering : Numbering κ) (seen : List κ) : Prop where
  number_eq_some_iff : ∀ (key : κ) (i : Nat), numbering.numbers[key]? = some i ↔ seen[i]? = some key
  size_eq : numbering.size = seen.length

theorem numbers_empty : (empty : Numbering κ).Numbers [] where
  number_eq_some_iff := by simp [empty]
  size_eq := by simp [empty, size]

theorem Numbers.nodup {numbering : Numbering κ} {seen : List κ} (h : numbering.Numbers seen) :
    seen.Nodup := by
  rw [List.nodup_iff_getElem?_ne_getElem?]
  intro i j hij hj heq
  have hkey : seen[j]? = some seen[j] := List.getElem?_eq_getElem hj
  have hnumber := (h.number_eq_some_iff seen[j] j).mpr hkey
  rw [(h.number_eq_some_iff seen[j] i).mpr (heq.trans hkey)] at hnumber
  simp only [Option.some.injEq] at hnumber
  omega

variable [LawfulBEq κ] [LawfulHashable κ]

/-- One more key gets its place in the list that includes it. -/
theorem Numbers.visit {numbering : Numbering κ} {seen : List κ} (h : numbering.Numbers seen)
    (key : κ) :
    (appendNew seen [key])[(numbering.visit key).1]? = some key ∧
      (numbering.visit key).2.Numbers (appendNew seen [key]) := by
  unfold Numbering.visit
  cases hnumber : numbering.numbers[key]? with
  | some number =>
      have hplace : seen[number]? = some key := (h.number_eq_some_iff key number).mp hnumber
      rw [appendNew_singleton_of_mem (List.mem_of_getElem? hplace)]
      exact ⟨hplace, h⟩
  | none =>
      have hnew : key ∉ seen := by
        intro hmem
        obtain ⟨i, hi⟩ := List.getElem?_of_mem hmem
        rw [(h.number_eq_some_iff key i).mpr hi] at hnumber
        cases hnumber
      have hsize : numbering.numbers.size = seen.length := h.size_eq
      rw [appendNew_singleton_of_not_mem hnew]
      refine ⟨by simp [hsize], ?_, ?_⟩
      · intro other i
        rw [getElem?_append_new hnew, Std.HashMap.getElem?_insert, hsize]
        by_cases hother : key = other
        · simp [hother, eq_comm]
        · simp [hother, h.number_eq_some_iff]
      · have hcontains : ¬ key ∈ numbering.numbers := by
          intro hmem
          rw [Std.HashMap.getElem?_eq_some_getElem hmem] at hnumber
          cases hnumber
        simp [size, Std.HashMap.size_insert, hcontains, hsize]

/-- Several keys get their places in the list that includes them all. -/
theorem Numbers.visitAll {numbering : Numbering κ} {seen : List κ} (h : numbering.Numbers seen)
    (keys : List κ) :
    (numbering.visitAll keys).1.map (fun n => (appendNew seen keys)[n]?) = keys.map some ∧
      (numbering.visitAll keys).2.Numbers (appendNew seen keys) := by
  induction keys generalizing numbering seen with
  | nil => exact ⟨rfl, h⟩
  | cons key keys ih =>
      obtain ⟨hplace, hvisit⟩ := h.visit key
      obtain ⟨hplaces, hall⟩ := ih hvisit
      rw [appendNew_cons]
      refine ⟨?_, hall⟩
      have hlater := getElem?_mono (prefix_appendNew (appendNew seen [key]) keys) hplace
      simp only [Numbering.visitAll, List.map_cons, hlater, hplaces]

end Numbering

/-- The numbers of keys are their places in a list without repetitions. -/
structure Places {κ : Type} (distinct : List κ) (numbers : List Nat) (keys : List κ) : Prop where
  nodup : distinct.Nodup
  map_getElem? : numbers.map (fun n => distinct[n]?) = keys.map some

namespace Places

variable {κ : Type} {distinct keys : List κ} {numbers : List Nat}

theorem length_eq (h : Places distinct numbers keys) : numbers.length = keys.length := by
  simpa using congrArg List.length h.map_getElem?

theorem getElem?_number (h : Places distinct numbers keys) {p n : Nat}
    (hn : numbers[p]? = some n) : ∃ key, keys[p]? = some key ∧ distinct[n]? = some key := by
  have hp := congrArg (fun xs => xs[p]?) h.map_getElem?
  simp only [List.getElem?_map, hn, Option.map_some] at hp
  cases hkey : keys[p]? with
  | none => simp [hkey] at hp
  | some key =>
      simp only [hkey, Option.map_some, Option.some.injEq] at hp
      exact ⟨key, rfl, hp⟩

theorem getElem?_key (h : Places distinct numbers keys) {p : Nat} {key : κ}
    (hkey : keys[p]? = some key) : ∃ n, numbers[p]? = some n ∧ distinct[n]? = some key := by
  have hp : p < numbers.length := by
    rw [h.length_eq]
    exact (List.getElem?_eq_some_iff.mp hkey).1
  obtain ⟨key', hkey', hplace⟩ := h.getElem?_number (List.getElem?_eq_getElem hp)
  rw [hkey] at hkey'
  cases hkey'
  exact ⟨numbers[p], List.getElem?_eq_getElem hp, hplace⟩

/-- The numbers are all those below the number of distinct keys, if these are all keys. -/
theorem mem_numbers_iff (h : Places distinct numbers keys) (hmem : ∀ key ∈ distinct, key ∈ keys)
    {n : Nat} : n ∈ numbers ↔ n < distinct.length := by
  constructor
  · intro hn
    obtain ⟨p, hp⟩ := List.getElem?_of_mem hn
    obtain ⟨key, -, hplace⟩ := h.getElem?_number hp
    exact (List.getElem?_eq_some_iff.mp hplace).1
  · intro hn
    obtain ⟨p, hp⟩ := List.getElem?_of_mem (hmem _ (List.getElem_mem hn))
    obtain ⟨m, hm, hplace⟩ := h.getElem?_key hp
    have heq : m = n := (place_eq_iff h.nodup hplace (List.getElem?_eq_getElem hn)).mpr rfl
    rw [← heq]
    exact List.mem_of_getElem? hm

theorem append {numbers' : List Nat} {keys' : List κ} (h : Places distinct numbers keys)
    (h' : Places distinct numbers' keys') :
    Places distinct (numbers ++ numbers') (keys ++ keys') where
  nodup := h.nodup
  map_getElem? := by rw [List.map_append, List.map_append, h.map_getElem?, h'.map_getElem?]

theorem flatten {β : Type} {f : β → List κ} (hnodup : distinct.Nodup) {rows : List (List Nat)}
    {cells : List β} (h : List.Forall₂ (fun row cell => Places distinct row (f cell)) rows cells) :
    Places distinct rows.flatten (cells.flatMap f) := by
  induction h with
  | nil => exact ⟨hnodup, rfl⟩
  | cons hrow _ ih => exact hrow.append ih

theorem take (h : Places distinct numbers keys) (p : Nat) :
    Places distinct (numbers.take p) (keys.take p) where
  nodup := h.nodup
  map_getElem? := by rw [List.map_take, List.map_take, h.map_getElem?]

/-- More distinct keys do not move the places of those at hand. -/
theorem extend (h : Places distinct numbers keys) {distinct' : List κ}
    (hpre : distinct <+: distinct') (hnodup : distinct'.Nodup) : Places distinct' numbers keys where
  nodup := hnodup
  map_getElem? := by
    rw [← h.map_getElem?]
    apply List.map_congr_left
    intro n hn
    obtain ⟨p, hp⟩ := List.getElem?_of_mem hn
    obtain ⟨key, -, hplace⟩ := h.getElem?_number hp
    rw [hplace, getElem?_mono hpre hplace]

end Places

/-- Each number is one seen before or the number of distinct ones seen before. -/
def InOrderOfAppearance (numbers : List Nat) : Prop :=
  ∀ p n, numbers[p]? = some n → n ∈ numbers.take p ∨ n = (numbers.take p).toFinset.card

/-- The places of the first `p` keys are places in the list of those that appear among them. -/
theorem Places.take_firstAppearances {κ : Type} [BEq κ] [LawfulBEq κ] {numbers : List Nat}
    {keys : List κ} (h : Places (firstAppearances keys) numbers keys) (p : Nat) :
    Places (firstAppearances (keys.take p)) (numbers.take p) (keys.take p) where
  nodup := nodup_firstAppearances _
  map_getElem? := by
    rw [← (h.take p).map_getElem?]
    apply List.map_congr_left
    intro n hn
    obtain ⟨q, hq⟩ := List.getElem?_of_mem hn
    obtain ⟨key, hkey, hplace⟩ := (h.take p).getElem?_number hq
    obtain ⟨i, hi⟩ := List.getElem?_of_mem (mem_firstAppearances.mpr (List.mem_of_getElem? hkey))
    have hpre := firstAppearances_prefix (List.take_prefix p keys)
    have heq : n = i := (place_eq_iff h.nodup hplace (getElem?_mono hpre hi)).mpr rfl
    rw [hplace, heq, hi]

/-- Places in the list of first appearances come in order of appearance. -/
theorem Places.inOrderOfAppearance {κ : Type} [BEq κ] [LawfulBEq κ] {numbers : List Nat}
    {keys : List κ} (h : Places (firstAppearances keys) numbers keys) :
    InOrderOfAppearance numbers := by
  intro p n hn
  obtain ⟨key, hkey, hplace⟩ := h.getElem?_number hn
  have hbefore : ∀ m, m ∈ numbers.take p ↔ m < (firstAppearances (keys.take p)).length := fun m =>
    (h.take_firstAppearances p).mem_numbers_iff fun key hkey => mem_firstAppearances.mp hkey
  by_cases hold : key ∈ firstAppearances (keys.take p)
  · obtain ⟨i, hi⟩ := List.getElem?_of_mem hold
    have hpre := firstAppearances_prefix (List.take_prefix p keys)
    have heq : n = i := (place_eq_iff h.nodup hplace (getElem?_mono hpre hi)).mpr rfl
    have hlt : i < (firstAppearances (keys.take p)).length :=
      (List.getElem?_eq_some_iff.mp hi).1
    exact .inl ((hbefore n).mpr (heq ▸ hlt))
  · right
    -- the key comes right after those that have appeared before it
    have hsplit : keys.take (p + 1) = keys.take p ++ [key] := by
      rw [List.take_add_one, hkey, Option.toList_some]
    have hlast : (firstAppearances (keys.take (p + 1)))[
        (firstAppearances (keys.take p)).length]? = some key := by
      rw [hsplit, firstAppearances_append, appendNew_singleton_of_not_mem hold]
      simp
    have hpre := firstAppearances_prefix (List.take_prefix (p + 1) keys)
    have heq : n = (firstAppearances (keys.take p)).length :=
      (place_eq_iff h.nodup hplace (getElem?_mono hpre hlast)).mpr rfl
    have hset : (numbers.take p).toFinset =
        Finset.range (firstAppearances (keys.take p)).length := by
      ext m
      rw [List.mem_toFinset, Finset.mem_range, hbefore]
    rw [heq, hset, Finset.card_range]

/-! ## Tables of entities

The key of an entity is the increasing list of its vertices, so equal keys are
equal sets of vertices. A table built by first appearance has one row per cell,
and its rows hold the places of the keys in the list of their first appearances.
-/

/-! ### Keys -/

theorem mergeSort_eq_iff {xs ys : List Nat} :
    xs.mergeSort (· ≤ ·) = ys.mergeSort (· ≤ ·) ↔ xs.Perm ys := by
  constructor
  · intro h
    have hx := List.mergeSort_perm xs (· ≤ ·)
    rw [h] at hx
    exact hx.symm.trans (List.mergeSort_perm ys (· ≤ ·))
  · intro h
    apply List.Perm.eq_of_pairwise' (List.pairwise_mergeSort' (· ≤ ·) xs)
      (List.pairwise_mergeSort' (· ≤ ·) ys)
    exact (List.mergeSort_perm xs _).trans (h.trans (List.mergeSort_perm ys _).symm)

def globalVertices (cell entity : List Nat) : List Nat := entity.map fun v => cell.getD v 0

theorem nodup_globalVertices {cell entity : List Nat} (hcell : cell.Nodup) (hentity : entity.Nodup)
    (hlt : ∀ v ∈ entity, v < cell.length) : (globalVertices cell entity).Nodup := by
  apply hentity.map_on
  intro v hv w hw hvw
  have hv' := hlt v hv
  have hw' := hlt w hw
  simp only [List.getD_eq_getElem?_getD, List.getElem?_eq_getElem hv',
    List.getElem?_eq_getElem hw', Option.getD_some] at hvw
  exact (List.Nodup.getElem_inj_iff hcell).mp hvw

theorem mem_globalVertices {cell entity : List Nat} (hlt : ∀ v ∈ entity, v < cell.length)
    {w : Nat} : w ∈ globalVertices cell entity ↔ ∃ v ∈ entity, cell[v]? = some w := by
  rw [globalVertices, List.mem_map]
  constructor
  · intro ⟨v, hv, hw⟩
    refine ⟨v, hv, ?_⟩
    rw [List.getD_eq_getElem?_getD, List.getElem?_eq_getElem (hlt v hv), Option.getD_some] at hw
    rw [List.getElem?_eq_getElem (hlt v hv), hw]
  · intro ⟨v, hv, hw⟩
    exact ⟨v, hv, by rw [List.getD_eq_getElem?_getD, hw, Option.getD_some]⟩

/-- In a cell without repeated vertices the local vertices follow from the global ones. -/
theorem subset_of_globalVertices_subset {cell entity entity' : List Nat} (hcell : cell.Nodup)
    (hlt : ∀ v ∈ entity, v < cell.length) (hlt' : ∀ v ∈ entity', v < cell.length)
    (h : ∀ w ∈ globalVertices cell entity, w ∈ globalVertices cell entity') :
    ∀ v ∈ entity, v ∈ entity' := by
  intro v hv
  have hv' := hlt v hv
  have hget := List.getElem?_eq_getElem hv'
  have hmem := h cell[v] ((mem_globalVertices hlt).mpr ⟨v, hv, hget⟩)
  obtain ⟨v', hmem', hget'⟩ := (mem_globalVertices hlt').mp hmem
  rw [← hget, List.getElem?_inj (hlt' v' hmem') hcell] at hget'
  rw [← hget']
  exact hmem'

/-- Keys tell sets of distinct vertices apart. -/
theorem entityKey_eq_iff {cell cell' entity entity' : List Nat}
    (h : (globalVertices cell entity).Nodup) (h' : (globalVertices cell' entity').Nodup) :
    entityKey cell entity = entityKey cell' entity' ↔
      ∀ v, v ∈ globalVertices cell entity ↔ v ∈ globalVertices cell' entity' := by
  rw [entityKey, entityKey, mergeSort_eq_iff]
  exact List.perm_ext_iff_of_nodup h h'

/-! ### Numbering by first appearance -/

namespace EntityTable

/-- Walking the cells adds one row for each, with the places of its keys. -/
theorem foldl_visitCell (shape : Shape) (dim : Nat) {numbering : Numbering (List Nat)}
    {seen : List (List Nat)} (h : numbering.Numbers seen) (table : Array (List Nat))
    (cells : List (List Nat)) :
    ∃ rows numbering', cells.foldl (visitCell shape dim) (table, numbering) =
        (table ++ rows.toArray, numbering') ∧
      numbering'.Numbers (appendNew seen (cells.flatMap (keys shape dim))) ∧
      List.Forall₂ (fun row cell =>
        Places (appendNew seen (cells.flatMap (keys shape dim))) row (keys shape dim cell))
        rows cells := by
  induction cells generalizing table numbering seen with
  | nil => exact ⟨[], numbering, by simp, by simpa [appendNew] using h, .nil⟩
  | cons cell cells ih =>
      obtain ⟨hplaces, hnumbers⟩ := h.visitAll (keys shape dim cell)
      obtain ⟨rows, numbering', hfold, hnumbers', hrows⟩ :=
        ih hnumbers (table.push (numbering.visitAll (keys shape dim cell)).1)
      rw [List.flatMap_cons, appendNew_append]
      refine ⟨(numbering.visitAll (keys shape dim cell)).1 :: rows, numbering', ?_, hnumbers', ?_⟩
      · rw [List.foldl_cons, visitCell, hfold]
        simp
      · have hrow : Places (appendNew seen (keys shape dim cell))
            (numbering.visitAll (keys shape dim cell)).1 (keys shape dim cell) :=
          ⟨hnumbers.nodup, hplaces⟩
        exact .cons (hrow.extend (prefix_appendNew _ _) hnumbers'.nodup) hrows

def allKeys (shape : Shape) (dim : Nat) (cells : Array (List Nat)) : List (List Nat) :=
  cells.toList.flatMap (keys shape dim)

theorem count_byFirstAppearance (shape : Shape) (dim : Nat) (cells : Array (List Nat)) :
    (byFirstAppearance shape dim cells).count =
      (firstAppearances (allKeys shape dim cells)).length := by
  obtain ⟨rows, numbering, hfold, hnumbers, -⟩ :=
    foldl_visitCell shape dim Numbering.numbers_empty #[] cells.toList
  rw [Array.foldl_toList] at hfold
  simp only [byFirstAppearance, hfold]
  exact hnumbers.size_eq

theorem places_byFirstAppearance (shape : Shape) (dim : Nat) (cells : Array (List Nat)) :
    List.Forall₂ (fun row cell =>
      Places (firstAppearances (allKeys shape dim cells)) row (keys shape dim cell))
      (byFirstAppearance shape dim cells).ofCell.toList cells.toList := by
  obtain ⟨rows, numbering, hfold, -, hrows⟩ :=
    foldl_visitCell shape dim Numbering.numbers_empty #[] cells.toList
  rw [Array.foldl_toList] at hfold
  have hof : (byFirstAppearance shape dim cells).ofCell.toList = rows := by
    simp [byFirstAppearance, hfold]
  rw [hof]
  exact hrows

/-- The rows of a table by first appearance, laid side by side, number all keys. -/
theorem places_flatten_byFirstAppearance (shape : Shape) (dim : Nat) (cells : Array (List Nat)) :
    Places (firstAppearances (allKeys shape dim cells))
      (byFirstAppearance shape dim cells).ofCell.toList.flatten (allKeys shape dim cells) := by
  exact Places.flatten (nodup_firstAppearances _) (places_byFirstAppearance shape dim cells)

end EntityTable
end FiniteElement
