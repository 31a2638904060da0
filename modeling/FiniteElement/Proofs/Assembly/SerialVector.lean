import Mathlib
import FiniteElement.Proofs.Assembly.SerialSums
import FiniteElement.Proofs.Samples

/-! # Serial assembly of vectors

The entry of a node in an assembled vector is the sum from the left of the
entries of the element tensors at the places of the node: the cells that have it,
in order, and within a cell its positions in order. The order is part of the
result, as sums of floating point numbers depend on it.
-/

namespace FiniteElement

variable {α : Type}

/-- The cells that have a node, and the positions of the node there, in increasing order. -/
def DofMap.places (map : DofMap α) (mesh : Mesh α) (node : Nat) : List (Nat × Nat) :=
  (List.range mesh.numCells).flatMap fun cell =>
    let nodes := map.cellNodes mesh cell
    ((List.range nodes.length).filter fun i => nodes[i]? = some node).map (Prod.mk cell)

namespace DofMap

variable {map : DofMap α} {mesh : Mesh α} {node : Nat}

theorem mem_places {place : Nat × Nat} :
    place ∈ map.places mesh node ↔
      place.1 < mesh.numCells ∧ (map.cellNodes mesh place.1)[place.2]? = some node := by
  obtain ⟨cell, i⟩ := place
  simp only [places, List.mem_flatMap, List.mem_range, List.mem_map, List.mem_filter,
    decide_eq_true_eq, Prod.mk.injEq]
  constructor
  · rintro ⟨_, hc, _, ⟨-, hnode⟩, rfl, rfl⟩
    exact ⟨hc, hnode⟩
  · rintro ⟨hc, hnode⟩
    exact ⟨cell, hc, i, ⟨(List.getElem?_eq_some_iff.mp hnode).1, hnode⟩, rfl, rfl⟩

theorem places_eq_nil (h : ∀ cell < mesh.numCells, node ∉ map.cellNodes mesh cell) :
    map.places mesh node = [] := by
  rw [List.eq_nil_iff_forall_not_mem]
  intro place hplace
  obtain ⟨hc, hnode⟩ := mem_places.mp hplace
  exact h place.1 hc (List.mem_of_getElem? hnode)

/-- The places are listed in lexicographic order, each of them once. -/
theorem pairwise_places :
    (map.places mesh node).Pairwise (Prod.Lex (· < ·) (· < ·)) := by
  rw [places, List.pairwise_flatMap]
  constructor
  · intro cell _
    rw [List.pairwise_map]
    exact (List.pairwise_lt_range.filter _).imp fun hlt => Prod.Lex.right cell hlt
  · refine List.pairwise_lt_range.imp ?_
    intro cell other hlt a ha b hb
    obtain ⟨i, -, rfl⟩ := List.mem_map.mp ha
    obtain ⟨j, -, rfl⟩ := List.mem_map.mp hb
    exact Prod.Lex.left i j hlt

end DofMap

variable [Scalar α]

namespace Job

/-- The numbers for a node are those at its positions. -/
theorem valuesOf_zip {nodes : List Nat} {tensor : List α} (h : nodes.length = tensor.length)
    (node : Nat) :
    valuesOf (nodes.zip tensor) node =
      ((List.range nodes.length).filter fun i => nodes[i]? = some node).map
        fun i => tensor.getD i Scalar.zero := by
  induction nodes generalizing tensor with
  | nil => rfl
  | cons first nodes ih =>
      cases tensor with
      | nil => cases h
      | cons value tensor =>
          have hrest := ih (Nat.succ.inj h)
          rw [valuesOf] at hrest
          rw [valuesOf, List.zip_cons_cons, List.filter_cons, List.length_cons,
            List.range_succ_eq_map, List.filter_cons, List.filter_map]
          by_cases heq : first = node
          · simp [heq, hrest, Function.comp_def]
          · simp [heq, hrest, Function.comp_def]

omit [Scalar α] in
theorem valuesOf_flatMap {β : Type} (cells : List β) (entries : β → List (Nat × α)) (node : Nat) :
    valuesOf (cells.flatMap entries) node =
      cells.flatMap fun cell => valuesOf (entries cell) node := by
  simp only [valuesOf, List.filter_flatMap, List.map_flatMap]

end Job

/-- The numbers for a node in all cells are the entries of the tensors at its places. -/
theorem DofMap.valuesOf_cells (map : DofMap α) (mesh : Mesh α) {tensor : Nat → List α}
    (hlength : ∀ cell < mesh.numCells, (map.cellNodes mesh cell).length = (tensor cell).length)
    (node : Nat) :
    Job.valuesOf ((List.range mesh.numCells).flatMap fun cell =>
        (map.cellNodes mesh cell).zip (tensor cell)) node =
      (map.places mesh node).map fun place => (tensor place.1).getD place.2 Scalar.zero := by
  rw [Job.valuesOf_flatMap, places, List.map_flatMap]
  apply List.flatMap_congr
  intro cell hcell
  rw [Job.valuesOf_zip (hlength cell (List.mem_range.mp hcell)), List.map_map]
  rfl

/-! ## Entries -/

variable {form : Form α} {mesh : Mesh α} {coefficients : List (Array α)} {map : DofMap α}
  {maps : List (DofMap α)} {length : Nat} {vector : Array α}

namespace Form.Tabulates

variable {tensor : Nat → List α} (h : form.Tabulates mesh coefficients tensor)
  (hrank : form.rank = 1) (hmaps : form.dofMaps = map :: maps)
  (hlength : map.globalDimension mesh.entityCounts = .ok length) (assembler : SerialAssembler α)
  (hquiet : assembler.options.nonFinite.IsQuiet α)

include h hrank hmaps hlength hquiet

theorem exists_vector_iff :
    (∃ vector, (assembler.assembleVector form mesh coefficients).1.result = .ok vector) ↔
      length < Index.capacity := by
  simp only [h.result_assembleVector hrank hmaps hlength assembler hquiet, Failure.lift_eq_ok_iff,
    Checked.bind_eq_ok_iff, Index.length_eq_ok_iff]
  constructor
  · rintro ⟨_, _, ⟨hlt, -⟩, -⟩
    exact hlt
  · intro hlt
    have hmap := (h.numbering map (hmaps ▸ List.mem_cons_self)).1
    have hinside : ∀ entry ∈ (List.range mesh.numCells).flatMap fun cell =>
        (map.cellNodes mesh cell).zip (tensor cell),
        entry.1 < (Array.replicate length (Scalar.zero : α)).size := by
      intro entry hentry
      obtain ⟨cell, hcell, hzip⟩ := List.mem_flatMap.mp hentry
      rw [Array.size_replicate]
      exact DofMap.lt_of_mem_cellNodes_of_globalDimension h.wellFormed hmap hlength
        (List.mem_range.mp hcell) _ (List.of_mem_zip hzip).1
    obtain ⟨vector, hvector⟩ := Job.exists_addAll hinside
    exact ⟨vector, length, ⟨hlt, rfl⟩, hvector⟩

/-- The entries of an assembled vector are sums from the left at the places of their nodes. -/
theorem getElem?_vector
    (hvector : (assembler.assembleVector form mesh coefficients).1.result = .ok vector) :
    vector.size = length ∧ ∀ node < length, vector[node]? = some ((map.places mesh node).foldl
      (fun sum place => sum + (tensor place.1).getD place.2 Scalar.zero) Scalar.zero) := by
  simp only [h.result_assembleVector hrank hmaps hlength assembler hquiet, Failure.lift_eq_ok_iff,
    Checked.bind_eq_ok_iff, Index.length_eq_ok_iff] at hvector
  obtain ⟨_, ⟨-, rfl⟩, hadded⟩ := hvector
  refine ⟨(Job.size_of_addAll hadded).trans Array.size_replicate, ?_⟩
  intro node hnode
  have hmap := (h.numbering map (hmaps ▸ List.mem_cons_self)).1
  have hlengths : ∀ cell < mesh.numCells,
      (map.cellNodes mesh cell).length = (tensor cell).length := by
    intro cell hc
    rw [DofMap.length_cellNodes h.wellFormed hmap hc, h.length_tensor hc,
      tensorEntries_of_rank_one hrank hmaps]
  rw [Job.getElem?_addAll hadded, Array.getElem?_replicate, if_pos hnode, Option.map_some,
    map.valuesOf_cells mesh hlengths, List.foldl_map]

end Form.Tabulates

/-! ## The assembled vector -/

namespace SerialAssembler

/-- A vector comes only of a form whose buffers can be stored. -/
theorem exists_fitTo_of_assembleVector {assembler : SerialAssembler α} {vector : Array α}
    (h : (assembler.assembleVector form mesh coefficients).1.result = .ok vector) :
    ∃ fitted, assembler.workspace.fitTo form = .ok fitted := by
  simp only [assembleVector] at h
  split at h
  · cases h
  · unfold runJob at h
    split at h
    · cases h
    · exact ⟨_, by assumption⟩

/-- A form with one argument that fits a mesh is assembled into the vector of its element tensors,
unless the vector or a buffer cannot be stored. Each entry is the sum from the left, starting at
zero, of the entries of the tensors at the places of its node, by cells and then by positions. -/
theorem assembleVector_eq_foldl (assembler : SerialAssembler α)
    (hpolicy : assembler.options.nonFinite = .ignore) (hmesh : mesh.IsBuilt)
    (hfit : form.checkFit 1 mesh coefficients = .ok ())
    (hnumbering : ∀ map ∈ form.dofMaps, map.HasNumbering mesh)
    (hcomputes : form.ComputesOn mesh coefficients) :
    ∃ map maps length, form.dofMaps = map :: maps ∧
      map.globalDimension mesh.entityCounts = .ok length ∧
      ((∃ vector, (assembler.assembleVector form mesh coefficients).1.result = .ok vector) ↔
        (∀ other ∈ form.dofMaps, other.size < Index.capacity) ∧ length < Index.capacity) ∧
      ∀ vector, (assembler.assembleVector form mesh coefficients).1.result = .ok vector →
        vector.size = length ∧
        ∃ tensor : Nat → List α,
          (∀ cell < mesh.numCells,
            (∀ buffer : List Nat, buffer.length = map.size →
              map.tabulate mesh cell buffer = .ok (map.cellNodes mesh cell)) ∧
            form.elementTensor mesh coefficients cell = .ok (tensor cell) ∧
            (tensor cell).length = map.size) ∧
          ∀ node < length, ∃ places : List (Nat × Nat),
            (∀ place, place ∈ places ↔
              place.1 < mesh.numCells ∧ (map.cellNodes mesh place.1)[place.2]? = some node) ∧
            places.Pairwise (Prod.Lex (· < ·) (· < ·)) ∧
            vector[node]? = some (places.foldl
              (fun sum place => sum + (tensor place.1).getD place.2 Scalar.zero) Scalar.zero) ∧
            ((∀ cell < mesh.numCells, node ∉ map.cellNodes mesh cell) →
              vector[node]? = some Scalar.zero) := by
  have hwell := hmesh.wellFormed
  obtain ⟨hrank, hcount, -⟩ := Form.checkFit_eq_ok hfit
  have hquiet : assembler.options.nonFinite.IsQuiet α := by
    intro cell tensor
    rw [hpolicy]
    rfl
  have hpos : 0 < form.dofMaps.length := by omega
  obtain ⟨map, maps, hmaps⟩ := List.exists_cons_of_length_pos hpos
  obtain ⟨hmap, length, hlength⟩ := hnumbering map (hmaps ▸ List.mem_cons_self)
  have htabulates : (∀ other ∈ form.dofMaps, other.size < Index.capacity) →
      ∃ tensor, form.Tabulates mesh coefficients tensor := by
    intro hsizes
    have hentries : form.tensorEntries < Index.capacity := by
      rw [Form.tensorEntries_of_rank_one hrank hmaps]
      exact hsizes map (hmaps ▸ List.mem_cons_self)
    exact Form.exists_tabulates hwell (hrank.symm ▸ hfit) (by omega) hnumbering hsizes hentries
      hcomputes
  have hstored : ∀ vector, (assembler.assembleVector form mesh coefficients).1.result = .ok vector →
      ∀ other ∈ form.dofMaps, other.size < Index.capacity :=
    fun vector hvector => ((assembler.workspace.exists_fitTo_iff (by omega)).mp
      (exists_fitTo_of_assembleVector hvector)).1
  refine ⟨map, maps, length, hmaps, hlength, ?_, ?_⟩
  · constructor
    · rintro ⟨vector, hvector⟩
      have hsizes := hstored vector hvector
      obtain ⟨tensor, htensor⟩ := htabulates hsizes
      exact ⟨hsizes, (htensor.exists_vector_iff hrank hmaps hlength assembler hquiet).mp
        ⟨vector, hvector⟩⟩
    · rintro ⟨hsizes, hlt⟩
      obtain ⟨tensor, htensor⟩ := htabulates hsizes
      exact (htensor.exists_vector_iff hrank hmaps hlength assembler hquiet).mpr hlt
  · intro vector hvector
    obtain ⟨tensor, htensor⟩ := htabulates (hstored vector hvector)
    obtain ⟨hsize, hentries⟩ :=
      htensor.getElem?_vector hrank hmaps hlength assembler hquiet hvector
    refine ⟨hsize, tensor, ?_, ?_⟩
    · intro cell hc
      refine ⟨?_, htensor.elementTensor_eq cell hc, ?_⟩
      · exact fun buffer => DofMap.HasNumbering.tabulate_eq_ok ⟨hmap, length, hlength⟩ hwell hc
      · rw [htensor.length_tensor hc, Form.tensorEntries_of_rank_one hrank hmaps]
    · intro node hnode
      refine ⟨map.places mesh node, fun _ => DofMap.mem_places, DofMap.pairwise_places,
        hentries node hnode, ?_⟩
      intro huntouched
      rw [hentries node hnode, DofMap.places_eq_nil huntouched, List.foldl_nil]

/-- Two intervals that share a vertex, whose entry is the sum of one entry of each tensor, and a
vertex that no interval has. -/
theorem assembleVector_eq_foldl_of_two_intervals :
    let corners : LayoutMap Rat := LayoutMap.p1 .interval
    let form : Form Rat := .probe "probe" 1 0 [.single corners] none []
    let assembler : SerialAssembler Rat := .fresh {}
    ∃ (mesh : Mesh Rat) (vector : Array Rat),
      Mesh.ofData ⟨.interval, 1, #[0, 1, 2, 3], #[0, 1, 1, 2]⟩ = .ok mesh ∧
      form.checkFit 1 mesh [] = .ok () ∧ (∀ map ∈ form.dofMaps, map.HasNumbering mesh) ∧
      form.ComputesOn mesh [] ∧ (assembler.assembleVector form mesh []).1.result = .ok vector ∧
      vector[1]? = some 103 ∧ vector[3]? = some 0 := by
  intro corners form assembler
  let mesh : Mesh Rat := Sample.intervals [0, 1, 2, 3] 2
  have hdata : Mesh.ofData ⟨.interval, 1, #[0, 1, 2, 3], #[0, 1, 1, 2]⟩ = .ok mesh :=
    Sample.ofData_intervals [0, 1, 2, 3] 2 (Nat.le_succ 2)
  have hfit : form.checkFit 1 mesh [] = .ok () := by
    decide +kernel
  have hfirst : form.elementTensor mesh [] 0 = .ok [1, 2] := by
    decide +kernel
  have hsecond : form.elementTensor mesh [] 1 = .ok [101, 102] := by
    decide +kernel
  have hcomputes : form.ComputesOn mesh [] := by
    rw [Form.computesOn_iff (Mesh.wellFormed_of_ofData hdata) rfl]
    intro cell hc
    have hcases : cell = 0 ∨ cell = 1 := by
      have hlt : cell < 2 := hc
      omega
    rcases hcases with heq | heq
    · exact ⟨_, heq ▸ hfirst⟩
    · exact ⟨_, heq ▸ hsecond⟩
  have hcorners : ∀ map ∈ form.dofMaps, map = .single corners :=
    fun map hmap => List.mem_singleton.mp hmap
  have hnumbering : ∀ map ∈ form.dofMaps, map.HasNumbering mesh := by
    intro map hmap
    rw [hcorners map hmap]
    exact ⟨DofMap.isOn_single.mpr ⟨rfl, rfl⟩, 4, rfl⟩
  obtain ⟨map, maps, length, hmaps, hlength, hstored, hentries⟩ :=
    assembleVector_eq_foldl assembler rfl (Or.inl ⟨_, hdata⟩) hfit hnumbering hcomputes
  have hone : [.single corners] = map :: maps := hmaps
  cases hone
  have hfour : (DofMap.single corners).globalDimension mesh.entityCounts = .ok 4 := rfl
  rw [hfour, Except.ok.injEq] at hlength
  subst hlength
  have hsizes : ∀ map ∈ form.dofMaps, map.size < Index.capacity := by
    intro map hmap
    rw [hcorners map hmap]
    decide
  obtain ⟨vector, hvector⟩ := hstored.mpr ⟨hsizes, by decide⟩
  obtain ⟨-, tensor, htensor, hvalues⟩ := hentries vector hvector
  have htensor₀ : tensor 0 = [1, 2] := by
    have hown := (htensor 0 (by decide)).2.1
    rw [hfirst, Except.ok.injEq] at hown
    exact hown.symm
  have htensor₁ : tensor 1 = [101, 102] := by
    have hown := (htensor 1 (by decide)).2.1
    rw [hsecond, Except.ok.injEq] at hown
    exact hown.symm
  refine ⟨mesh, vector, hdata, hfit, hnumbering, hcomputes, hvector, ?_, ?_⟩
  · obtain ⟨places, hplaces, hsorted, hvalue, -⟩ := hvalues 1 (by decide)
    have hshared : places = [(0, 1), (1, 0)] := by
      have hown : (DofMap.single corners).places mesh 1 = [(0, 1), (1, 0)] := by decide +kernel
      rw [← hown]
      exact hsorted.eq_of_mem_iff DofMap.pairwise_places
        fun place => (hplaces place).trans DofMap.mem_places.symm
    rw [hvalue, hshared]
    simp only [List.foldl_cons, List.foldl_nil, htensor₀, htensor₁]
    decide +kernel
  · obtain ⟨-, -, -, -, huntouched⟩ := hvalues 3 (by decide)
    exact huntouched (by decide +kernel)

/-- A form whose sizes are all in range, but whose coefficient has more values on a cell than can be
stored, has no vector even on a mesh without cells. -/
theorem assembleVector_fails_on_wide_coefficient :
    let constants : LayoutMap Rat := LayoutMap.p0 .interval
    let wide := Sample.inside (2 ^ 60) (by decide)
    let form : Form Rat := .probe "wide" 1 1 [.single constants, .single wide] none []
    let mesh : Mesh Rat := Sample.intervals [] 0
    let assembler : SerialAssembler Rat := .fresh {}
    Mesh.ofData ⟨.interval, 1, #[], #[]⟩ = .ok mesh ∧ form.checkFit 1 mesh [#[]] = .ok () ∧
      (∀ map ∈ form.dofMaps, map.HasNumbering mesh) ∧ form.tensorSize = .ok 1 ∧
      form.ComputesOn mesh [#[]] ∧ assembler.options.nonFinite = .ignore ∧
      (assembler.assembleVector form mesh [#[]]).1.result = .error (.fault .tooManyEntries) := by
  intro constants wide form mesh assembler
  have hdata : Mesh.ofData ⟨.interval, 1, #[], #[]⟩ = .ok mesh :=
    Sample.ofData_intervals [] 0 (Nat.le_refl 0)
  have hnumbering : ∀ map ∈ form.dofMaps, map.HasNumbering mesh :=
    List.forall_mem_cons.mpr
      ⟨⟨by decide, 0, rfl⟩, List.forall_mem_singleton.mpr ⟨by decide, 0, rfl⟩⟩
  refine ⟨hdata, by decide +kernel, hnumbering, by decide +kernel, ?_, rfl, by decide +kernel⟩
  intro cell hc
  exact absurd hc (Nat.not_lt_zero cell)

end SerialAssembler
end FiniteElement
