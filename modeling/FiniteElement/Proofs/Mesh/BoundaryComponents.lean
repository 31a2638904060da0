import Mathlib
import FiniteElement.Proofs.DofMap.Components
import FiniteElement.Proofs.Mesh.BoundaryNodes
import FiniteElement.Proofs.Samples

/-! # Boundary nodes of a mixed space

A mixed space is walked facet after facet, all components together, and its nodes
are sorted only then. The components by themselves are sorted one by one. Both give
the same list, as the indices of a component lie between those of its neighbours:
two strictly increasing lists with the same members are equal.
-/

namespace FiniteElement.Mesh

variable {α : Type} {mesh : Mesh α} {map : DofMap α} {maps : List (DofMap α)}

/-- The nodes of a facet in a mixed space are the shifted nodes of the components. -/
theorem mem_facetNodes_mixed_iff (hmaps : ∀ map ∈ maps, map.IsOn mesh.shape) {facet : Nat × Nat}
    {g : Nat} :
    g ∈ mesh.facetNodes (.mixed maps) facet ↔ ∃ (i : Nat) (map : DofMap α) (node : Nat),
      maps[i]? = some map ∧ node ∈ mesh.facetNodes map facet ∧
      g = offset (maps.map fun map => DofMap.sizeOn mesh.entityCounts map.leaves) i + node := by
  rw [mem_facetNodes_iff_mem_localDofs (DofMap.isOn_mixed.mpr hmaps)]
  constructor
  · rintro ⟨source, hsource, hclosure, rfl⟩
    obtain ⟨i, map, dof, hi, hdof, rfl⟩ := DofMap.mem_localDofs_mixed_iff.mp hsource
    have hmap := hmaps map (List.mem_of_getElem? hi)
    exact ⟨i, map, _, hi,
      (mem_facetNodes_iff_mem_localDofs hmap).mpr ⟨dof, hdof, hclosure, rfl⟩,
      DofMap.globalIndex_onCell_after hi hdof _⟩
  · rintro ⟨i, map, node, hi, hnode, rfl⟩
    have hmap := hmaps map (List.mem_of_getElem? hi)
    obtain ⟨dof, hdof, hclosure, rfl⟩ := (mem_facetNodes_iff_mem_localDofs hmap).mp hnode
    exact ⟨_, DofMap.mem_localDofs_mixed_iff.mpr ⟨i, map, dof, hi, hdof, rfl⟩, hclosure,
      DofMap.globalIndex_onCell_after hi hdof _⟩

theorem WellFormed.boundaryNodeList_mixed (hmesh : mesh.WellFormed)
    (hmaps : ∀ map ∈ maps, map.IsOn mesh.shape) :
    mesh.boundaryNodeList (.mixed maps) =
      shiftedFrom (fun map => DofMap.sizeOn mesh.entityCounts map.leaves) mesh.boundaryNodeList 0
        maps := by
  refine List.Pairwise.eq_of_mem_iff (mesh.pairwise_boundaryNodeList _)
    (pairwise_shiftedFrom ?_ fun map _ => mesh.pairwise_boundaryNodeList map) ?_
  · exact fun map hmap => hmesh.lt_of_mem_boundaryNodeList (hmaps map hmap)
  intro g
  simp only [mem_boundaryNodeList_iff, mem_shiftedFrom_iff, mem_facetNodes_mixed_iff hmaps,
    Nat.zero_add]
  constructor
  · rintro ⟨facet, hfacet, i, map, node, hi, hnode, rfl⟩
    exact ⟨i, map, node, hi, ⟨facet, hfacet, hnode⟩, rfl⟩
  · rintro ⟨i, map, node, hi, ⟨facet, hfacet, hnode⟩, rfl⟩
    exact ⟨facet, hfacet, i, map, node, hi, hnode, rfl⟩

theorem BoundaryIsStorable.component (h : mesh.BoundaryIsStorable (.mixed maps))
    (hmap : map ∈ maps) : mesh.BoundaryIsStorable map where
  nodes := Nat.lt_of_le_of_lt (DofMap.size_le_mixed hmap) h.nodes
  facets := h.facets
  found := Nat.lt_of_le_of_lt (Nat.mul_le_mul_left _ (DofMap.facetSize_le_mixed hmap)) h.found

/-- On an accepted mesh the boundary nodes of a mixed space on its cells are those of its components
one after the other, each shifted by the global dimensions of the components before, if all that is
set aside for the mixed space can be stored. So a space of copies has shifted copies of the boundary
nodes of one. -/
theorem boundaryNodes_mixed {data : MeshData α} (h : ofData data = .ok mesh)
    (hmaps : ∀ map ∈ maps, map.IsOn mesh.shape) {n : Nat}
    (hn : (DofMap.mixed maps).globalDimension mesh.entityCounts = .ok n)
    (hstorable : mesh.BoundaryIsStorable (.mixed maps)) :
    ∃ parts counts, maps.mapM mesh.boundaryNodes = .ok parts ∧
      maps.mapM (DofMap.globalDimension mesh.entityCounts) = .ok counts ∧
      mesh.boundaryNodes (.mixed maps) = .ok (parts.zipIdx.flatMap fun (nodes, i) =>
        nodes.map (offset counts i + ·)) ∧
      ∀ layout k, DofMap.vector layout k = .ok (.mixed maps) → ∃ nodes count,
        mesh.boundaryNodes (.mixed maps) =
          .ok ((List.range k).flatMap fun i => nodes.map (i * count + ·)) ∧
        (0 < k → ∃ scalar, DofMap.ofLayout layout = .ok scalar ∧
          mesh.boundaryNodes scalar = .ok nodes ∧
          scalar.globalDimension mesh.entityCounts = .ok count) := by
  have hmesh := wellFormed_of_ofData h
  have hmixed := DofMap.isOn_mixed.mpr hmaps
  obtain ⟨hbound, -⟩ :=
    (DofMap.globalDimension_eq_ok_iff mesh.length_entityCounts (.mixed maps) hmixed n).mp hn
  have hall := hmesh.boundaryNodes_eq_ok hmixed hbound hstorable
  rw [hmesh.boundaryNodeList_mixed hmaps] at hall
  have hlt : ∀ map ∈ maps, DofMap.sizeOn mesh.entityCounts map.leaves < Index.bound :=
    fun map hmap => Nat.lt_of_le_of_lt (DofMap.sizeOn_le_mixed hmap) hbound
  have hcount : ∀ map ∈ maps, map.globalDimension mesh.entityCounts =
      .ok (DofMap.sizeOn mesh.entityCounts map.leaves) := fun map hmap =>
    (DofMap.globalDimension_eq_ok_iff mesh.length_entityCounts map (hmaps map hmap) _).mpr
      ⟨hlt map hmap, rfl⟩
  have hnodes : ∀ map ∈ maps, mesh.boundaryNodes map = .ok (mesh.boundaryNodeList map) :=
    fun map hmap => hmesh.boundaryNodes_eq_ok (hmaps map hmap) (hlt map hmap)
      (hstorable.component hmap)
  refine ⟨_, _, Checked.mapM_eq_ok_map hnodes, Checked.mapM_eq_ok_map hcount, ?_, ?_⟩
  · rw [hall, shiftedFrom_eq_flatMap]
    simp only [Nat.zero_add]
  · intro layout k hvector
    rcases DofMap.components_of_vector hvector with ⟨rfl, rfl⟩ | ⟨hpos, scalar, hscalar, rfl⟩
    · exact ⟨[], 0, hall, fun hpos => absurd hpos (Nat.lt_irrefl 0)⟩
    · have hmem : scalar ∈ List.replicate k scalar :=
        List.mem_replicate.mpr ⟨Nat.ne_of_gt hpos, rfl⟩
      refine ⟨_, _, ?_, fun _ => ⟨scalar, hscalar, hnodes scalar hmem, hcount scalar hmem⟩⟩
      rw [hall, shiftedFrom_replicate]
      simp only [Nat.zero_add]

/-- Two copies of a space on the vertices of two intervals: the boundary nodes are the two ends,
listed for the first copy and then for the second. -/
theorem boundaryNodes_mixed_of_two_intervals :
    let layout : DofLayout Nat := ⟨.lagrange, .interval, 1, [1, 0], []⟩
    ∃ mesh : Mesh Nat, ∃ maps scalar, ofData ⟨.interval, 1, #[0, 1, 2], #[0, 1, 1, 2]⟩ = .ok mesh ∧
      DofMap.ofLayout layout = .ok scalar ∧ DofMap.vector layout 2 = .ok (.mixed maps) ∧
      (DofMap.mixed maps).globalDimension mesh.entityCounts = .ok 6 ∧
      mesh.BoundaryIsStorable (.mixed maps) ∧
      mesh.boundaryNodes scalar = .ok [0, 2] ∧
      mesh.boundaryNodes (.mixed maps) = .ok [0, 2, 3, 5] := by
  intro layout
  let mesh : Mesh Nat := Sample.intervals [0, 1, 2] 2
  let corners : LayoutMap Nat := { layout := layout }
  let maps : List (DofMap Nat) := [.single corners, .single corners]
  have hdata : ofData ⟨.interval, 1, #[0, 1, 2], #[0, 1, 1, 2]⟩ = .ok mesh :=
    Sample.ofData_intervals [0, 1, 2] 2 (Nat.le_refl 2)
  have hon : (DofMap.single corners).IsOn mesh.shape := DofMap.isOn_single.mpr ⟨rfl, rfl⟩
  have hmaps : ∀ map ∈ maps, map.IsOn mesh.shape := by
    intro map hmap
    rwa [List.eq_of_mem_replicate (show map ∈ List.replicate 2 (.single corners) from hmap)]
  have hdimension : (DofMap.mixed maps).globalDimension mesh.entityCounts = .ok 6 := rfl
  have hvector : DofMap.vector layout 2 = .ok (.mixed maps) := rfl
  have hmesh := wellFormed_of_ofData hdata
  have hstorable : mesh.BoundaryIsStorable (.mixed maps) :=
    hmesh.boundaryIsStorable (by decide) (by decide)
  obtain ⟨-, -, -, -, -, hcopies⟩ := boundaryNodes_mixed hdata hmaps hdimension hstorable
  obtain ⟨nodes, count, hmixed, hsingle⟩ := hcopies layout 2 hvector
  obtain ⟨scalar, hscalar, hnodes, hcount⟩ := hsingle (by decide)
  have hcorners : DofMap.ofLayout layout = .ok (.single corners) := rfl
  rw [hcorners, Except.ok.injEq] at hscalar
  rw [← hscalar] at hnodes hcount
  have hthree : (DofMap.single corners).globalDimension mesh.entityCounts = .ok 3 := rfl
  rw [hthree, Except.ok.injEq] at hcount
  -- the ends are found in increasing order
  have hends : mesh.boundaryFacets.flatMap (mesh.facetNodes (.single corners)) = [0, 2] := by
    decide +kernel
  have hlist : mesh.boundaryNodes (.single corners) = .ok [0, 2] := by
    rw [hmesh.boundaryNodes_eq_ok hon (by decide +kernel)
      (hmesh.boundaryIsStorable (by decide) (by decide)), boundaryNodeList, hends,
      List.mergeSort_of_pairwise (by decide)]
    rfl
  rw [hlist, Except.ok.injEq] at hnodes
  rw [← hnodes, ← hcount] at hmixed
  exact ⟨mesh, maps, .single corners, hdata, hcorners, hvector, hdimension, hstorable, hlist,
    hmixed⟩

/-- On a mesh without cells each of two components asks for a buffer that it gets and never uses,
but their mixed space asks for one that cannot be stored. -/
theorem boundaryNodes_fails_on_wide_components :
    let half := Sample.inside (2 ^ 59) (by decide)
    let maps : List (DofMap Rat) := [.single half, .single half]
    let mesh : Mesh Rat := Sample.intervals [] 0
    ofData ⟨.interval, 1, #[], #[]⟩ = .ok mesh ∧ (∀ map ∈ maps, map.IsOn mesh.shape) ∧
      (DofMap.mixed maps).globalDimension mesh.entityCounts = .ok 0 ∧
      mesh.boundaryNodes (.single half) = .ok [] ∧
      mesh.boundaryNodes (.mixed maps) = .error .tooManyEntries :=
  ⟨Sample.ofData_intervals [] 0 (Nat.le_refl 0), by decide, rfl, by decide +kernel,
    by decide +kernel⟩

end FiniteElement.Mesh
