import Mathlib
import FiniteElement.Proofs.Assembly.SerialMatrix
import FiniteElement.Proofs.Samples

/-! # What a form is handed

Whatever a workspace holds, once it has been fitted to a form it hands over the
same to compute a cell: a tensor of zeros, the view of the cell, and for each
coefficient its values at the nodes of the cell. The number of coefficients
decides how their values are laid out, not what is handed over.
-/

namespace FiniteElement

variable {α : Type} [Scalar α] {form : Form α} {mesh : Mesh α} {coefficients : List (Array α)}
  {cell : Nat}

theorem Form.getElem?_nodalValues {maps : List (DofMap α)} {j : Nat} {map : DofMap α}
    {global : Array α} (hmap : maps[j]? = some map) (hglobal : coefficients[j]? = some global) :
    (nodalValues maps mesh coefficients cell)[j]? =
      some ((map.cellNodes mesh cell).map (global.getD · Scalar.zero)) := by
  rw [nodalValues, List.getElem?_zipWith, hmap, hglobal]

/-- A slice has the values of its coefficient at the nodes of the cell, one for each node. -/
theorem DofMap.exists_value_at_node {map : DofMap α} {global : Array α} (hmesh : mesh.WellFormed)
    (hmap : map.IsOn mesh.shape) (hsize : map.globalDimension mesh.entityCounts = .ok global.size)
    (hc : cell < mesh.numCells) {k node : Nat} (hk : (map.cellNodes mesh cell)[k]? = some node) :
    ∃ value, global[node]? = some value ∧
      ((map.cellNodes mesh cell).map (global.getD · Scalar.zero))[k]? = some value := by
  have hlt := lt_of_mem_cellNodes_of_globalDimension hmesh hmap hsize hc node
    (List.mem_of_getElem? hk)
  refine ⟨global[node], Array.getElem?_eq_getElem hlt, ?_⟩
  rw [List.getElem?_map, hk, Option.map_some, Array.getD_eq_getD_getElem?,
    Array.getElem?_eq_getElem hlt, Option.getD_some]

omit [Scalar α] in
/-- The spaces of the coefficients of a form that fits are numbered, as the check has counted their
degrees of freedom. -/
theorem Form.hasNumbering_of_checkFit {rank : Nat}
    (hfit : form.checkFit rank mesh coefficients = .ok ())
    (hmaps : ∀ map ∈ form.dofMaps, map.IsOn mesh.shape)
    (harguments : ∀ map ∈ form.dofMaps.take rank,
      ∃ n, map.globalDimension mesh.entityCounts = .ok n) :
    ∀ map ∈ form.dofMaps, map.HasNumbering mesh := by
  have hlength := (checkFit_eq_ok hfit).2.1
  have hcoefficients : ∀ map ∈ form.dofMaps.drop rank,
      ∃ n, map.globalDimension mesh.entityCounts = .ok n := by
    intro map hmap
    obtain ⟨j, hj⟩ := List.getElem?_of_mem hmap
    rw [List.getElem?_drop] at hj
    have hlt := (List.getElem?_eq_some_iff.mp hj).1
    obtain ⟨own, global, hown, -, hsize⟩ := exists_coefficient_of_checkFit hfit
      (show j < coefficients.length by omega)
    rw [hj, Option.some.injEq] at hown
    exact ⟨_, hown ▸ hsize⟩
  intro map hmap
  refine ⟨hmaps map hmap, ?_⟩
  rw [← List.take_append_drop rank form.dofMaps, List.mem_append] at hmap
  exact hmap.elim (harguments map) (hcoefficients map)

namespace Workspace

omit [Scalar α] in
/-- Nodes can be written only in spaces whose degrees of freedom have numbers. -/
theorem exists_globalDimension_of_writeAllNodes {view : CellView α} {maps : List (DofMap α)}
    {buffers nodes : List (List Nat)} (hbuffers : BuffersOf maps buffers)
    (h : writeAllNodes mesh.entityCounts view maps buffers = .ok nodes) :
    ∀ map ∈ maps, map.IsOn mesh.shape → ∃ n, map.globalDimension mesh.entityCounts = .ok n := by
  induction hbuffers generalizing nodes with
  | nil => exact fun map hmap => absurd hmap List.not_mem_nil
  | cons _ _ ih =>
      rw [writeAllNodes, List.zip_cons_cons, List.mapM_cons] at h
      simp only [Checked.bind_eq_ok_iff] at h
      obtain ⟨own, hown, others, hothers, -⟩ := h
      intro map hmap hon
      rcases List.mem_cons.mp hmap with rfl | hmem
      · have hlt := DofMap.sizeOn_lt_of_writeNodes mesh.length_entityCounts hon hown
        exact ⟨_, (DofMap.globalDimension_eq_ok_iff mesh.length_entityCounts map hon _).mpr
          ⟨hlt, rfl⟩⟩
      · exact ih hothers map hmem hon

/-- Fitting a workspace to a form that fits a mesh succeeds exactly if the buffers can be stored.
After that a cell is computed only if the nodes of the arguments have numbers, and the form is then
asked once for its tensor, whatever it computes and whatever the workspace held: into zeros, on the
view of the cell, and with one slice for each coefficient, in their order, which has the values of
the coefficient at the nodes that its space tabulates. -/
theorem computeCell_hands_over (hmesh : mesh.IsBuilt) {rank : Nat}
    (hfit : form.checkFit rank mesh coefficients = .ok ())
    (hmaps : ∀ map ∈ form.dofMaps, map.IsOn mesh.shape) (hc : cell < mesh.numCells)
    (workspace : Workspace α) :
    ((∃ fitted, workspace.fitTo form = .ok fitted) ↔
      (∀ map ∈ form.dofMaps, map.size < Index.capacity) ∧
        ∃ entries, form.tensorSize = .ok entries ∧ entries < Index.capacity) ∧
    ∀ fitted, workspace.fitTo form = .ok fitted →
      (∀ compute : {n : Nat} → Vector α n → List (List α) → CellView α → Except Fault (Vector α n),
        ∀ next, fitted.computeCell { form with computeTensor := compute } mesh coefficients cell =
            .ok next →
          ∀ map ∈ form.dofMaps.take rank, ∃ n, map.globalDimension mesh.entityCounts = .ok n) ∧
      ((∀ map ∈ form.dofMaps.take rank, ∃ n, map.globalDimension mesh.entityCounts = .ok n) →
        ∃ entries view coordinates slices argumentNodes coefficientNodes,
          form.tensorSize = .ok entries ∧ mesh.view cell #[] = .ok (view, coordinates) ∧
          slices.length = form.numCoefficients ∧ coefficientSlices slices = slices ∧
          (∀ j < form.numCoefficients, ∃ map global nodes slice,
            form.dofMaps[rank + j]? = some map ∧ coefficients[j]? = some global ∧
            slices[j]? = some slice ∧ map.localDimension = .ok slice.length ∧
            (∀ buffer : List Nat, buffer.length = slice.length →
              map.tabulate mesh cell buffer = .ok nodes) ∧
            nodes.length = slice.length ∧
            ∀ (k node : Nat), nodes[k]? = some node →
              ∃ value, global[node]? = some value ∧ slice[k]? = some value) ∧
          ∀ compute : {n : Nat} → Vector α n → List (List α) → CellView α →
              Except Fault (Vector α n),
            fitted.computeCell { form with computeTensor := compute } mesh coefficients cell =
              (compute (Vector.replicate entries Scalar.zero) slices view).map fun tensor =>
                ⟨coordinates, argumentNodes, coefficientNodes, slices, tensor.toArray⟩) := by
  have hwell := hmesh.wellFormed
  obtain ⟨hrank, hlength, hsizes⟩ := Form.checkFit_eq_ok hfit
  subst hrank
  have hle : form.rank ≤ form.dofMaps.length := by omega
  refine ⟨workspace.exists_fitTo_iff hle, ?_⟩
  intro fitted hfitted
  have hfits := fits_of_fitTo hfitted
  refine ⟨?_, ?_⟩
  · intro compute next hnext map hmap
    have harguments : Form.argumentMaps { form with computeTensor := compute } =
        .ok (form.dofMaps.take form.rank) := Form.argumentMaps_of_le hle
    simp only [computeCell, harguments, Checked.bind_eq_ok_iff, Checked.ok_bind] at hnext
    obtain ⟨⟨view, coordinates⟩, -, argumentNodes, hwritten, -⟩ := hnext
    exact exists_globalDimension_of_writeAllNodes hfits.argumentNodes hwritten map hmap
      (hmaps map (List.mem_of_mem_take hmap))
  intro harguments
  have hnumbering := Form.hasNumbering_of_checkFit hfit hmaps harguments
  have hstorable := ((workspace.exists_fitTo_iff hle).mp ⟨fitted, hfitted⟩).1
  obtain ⟨view, coordinates, hview, -⟩ := computeCell_eq hwell hc hle hnumbering hsizes hfits
  refine ⟨fitted.tensor.size, view, coordinates,
    Form.nodalValues (form.dofMaps.drop form.rank) mesh coefficients cell,
    (form.dofMaps.take form.rank).map fun map => map.cellNodes mesh cell,
    (form.dofMaps.drop form.rank).map fun map => map.cellNodes mesh cell, hfits.tensor, hview, ?_,
    coefficientSlices_eq _, ?_, ?_⟩
  · rw [Form.nodalValues, List.length_zipWith, List.length_drop, hlength,
      Form.numCoefficients_of_checkFit hfit]
    omega
  · intro j hj
    rw [Form.numCoefficients_of_checkFit hfit] at hj
    obtain ⟨map, global, hmap, hglobal, hsize⟩ := Form.exists_coefficient_of_checkFit hfit hj
    have hmem := List.mem_of_getElem? hmap
    have hnodes := DofMap.length_cellNodes hwell (hmaps map hmem) hc
    have hslice := hmap
    rw [← List.getElem?_drop] at hslice
    refine ⟨map, global, map.cellNodes mesh cell, _, hmap, hglobal,
      Form.getElem?_nodalValues hslice hglobal, ?_, ?_, ?_, ?_⟩
    · rw [List.length_map, hnodes]
      exact DofMap.localDimension_of_lt (hstorable map hmem)
    · intro buffer hroom
      rw [List.length_map, hnodes] at hroom
      exact (hnumbering map hmem).tabulate_eq_ok hwell hc hroom
    · rw [List.length_map]
    · exact fun k node => DofMap.exists_value_at_node hwell (hmaps map hmem) hsize hc
  · intro compute
    let asked : Form α := { form with computeTensor := compute }
    have hasked : asked.rank ≤ asked.dofMaps.length := hle
    have hsame : fitted.Fits asked :=
      ⟨hfits.argumentNodes, hfits.coefficientNodes, hfits.coefficientValues, hfits.tensor⟩
    obtain ⟨view', coordinates', hview', hcomputeCell⟩ :=
      computeCell_eq hwell hc hasked hnumbering hsizes hsame
    rw [hview, Except.ok.injEq, Prod.mk.injEq] at hview'
    rw [hcomputeCell, ← hview'.1, ← hview'.2]

/-- Nine coefficients on an interval whose vertices are listed backwards, in a workspace that is
left over from another form: the last slice has the values of the last coefficient backwards. -/
theorem computeCell_hands_over_nine_coefficients :
    let corners : LayoutMap Rat := LayoutMap.p1 .interval
    let form : Form Rat := .probe "many" 1 9 (List.replicate 10 (.single corners)) none []
    let coefficients : List (Array Rat) := (List.range 9).map fun (j : Nat) => #[(j : Rat), 10 + j]
    let workspace : Workspace Rat := ⟨#[7], [[5], [6]], [[4, 4, 4]], [[3, 3, 3]], #[2, 2, 2]⟩
    ∃ (mesh : Mesh Rat) (fitted next : Workspace Rat),
      Mesh.ofData ⟨.interval, 1, #[0, 1], #[1, 0]⟩ = .ok mesh ∧
      form.checkFit 1 mesh coefficients = .ok () ∧ (∀ map ∈ form.dofMaps, map.IsOn mesh.shape) ∧
      0 < mesh.numCells ∧ workspace.fitTo form = .ok fitted ∧
      fitted.computeCell
        { form with
          computeTensor := fun zeros slices _ => .ok (zeros.map (· + (slices.getD 8 []).getD 0 0)) }
        mesh coefficients 0 = .ok next ∧
      next.coefficientValues[8]? = some [18, 8] ∧ next.tensor = #[18, 18] := by
  intro corners form coefficients workspace
  let mesh : Mesh Rat :=
    { shape := .interval, geometricDimension := 1, points := #[[0], [1]], cells := #[[1, 0]] }
  have hdata : Mesh.ofData ⟨.interval, 1, #[0, 1], #[1, 0]⟩ = .ok mesh :=
    Mesh.ofData_eq_ok_iff.mpr (by decide +kernel)
  have hfit : form.checkFit 1 mesh coefficients = .ok () := by
    decide +kernel
  have hcorners : ∀ map ∈ form.dofMaps, map = .single corners :=
    fun map hmap => List.eq_of_mem_replicate hmap
  have hmaps : ∀ map ∈ form.dofMaps, map.IsOn mesh.shape := by
    intro map hmap
    rw [hcorners map hmap]
    exact DofMap.isOn_single.mpr ⟨rfl, rfl⟩
  have harguments : ∀ map ∈ form.dofMaps.take 1,
      ∃ n, map.globalDimension mesh.entityCounts = .ok n := by
    intro map hmap
    rw [hcorners map (List.mem_of_mem_take hmap)]
    exact ⟨2, rfl⟩
  have hsizes : ∀ map ∈ form.dofMaps, map.size < Index.capacity := by
    intro map hmap
    rw [hcorners map hmap]
    decide
  have hc : 0 < mesh.numCells := by decide
  obtain ⟨hfits, hgiven⟩ :=
    computeCell_hands_over (Or.inl ⟨_, hdata⟩) hfit hmaps hc workspace
  obtain ⟨fitted, hfitted⟩ := hfits.mpr ⟨hsizes, 2, by decide +kernel, by decide⟩
  obtain ⟨entries, view, coordinates, slices, argumentNodes, coefficientNodes, hentries, -, -, -,
    hslices, hcompute⟩ := (hgiven fitted hfitted).2 harguments
  have htwo : form.tensorSize = .ok 2 := by decide +kernel
  rw [htwo, Except.ok.injEq] at hentries
  subst hentries
  obtain ⟨map, global, nodes, slice, hmap, hglobal, hslice, hdim, hnodes, hlength, hvalues⟩ :=
    hslices 8 (by decide)
  have heq := hcorners map (List.mem_of_getElem? hmap)
  subst heq
  have hroom : slice.length = 2 := by
    have hown : (DofMap.single corners).localDimension = .ok 2 := rfl
    rw [hown, Except.ok.injEq] at hdim
    exact hdim.symm
  have hbackwards : nodes = [1, 0] := by
    have hown : (DofMap.single corners).tabulate mesh 0 [0, 0] = .ok [1, 0] := by decide +kernel
    rw [hnodes [0, 0] hroom.symm, Except.ok.injEq] at hown
    exact hown
  have hsame : global = #[8, 18] := by
    have hown : coefficients[8]? = some #[8, 18] := by decide +kernel
    rw [hglobal, Option.some.injEq] at hown
    exact hown
  subst hbackwards hsame
  have hlast : slices[8]? = some [18, 8] := by
    obtain ⟨first, hfirst, hfirst'⟩ := hvalues 0 1 rfl
    obtain ⟨second, hsecond, hsecond'⟩ := hvalues 1 0 rfl
    cases hfirst
    cases hsecond
    match slice, hroom, hfirst', hsecond' with
    | [a, b], _, hfirst', hsecond' =>
        cases hfirst'
        cases hsecond'
        exact hslice
  refine ⟨mesh, fitted, _, hdata, hfit, hmaps, hc, hfitted, hcompute _, hlast, ?_⟩
  have hhanded : slices.getD 8 [] = [18, 8] := by
    rw [List.getD_eq_getElem?_getD, hlast, Option.getD_some]
  simp only [hhanded]
  decide +kernel

/-- A form that fits a mesh with one cell, and whose sizes are all in range, but whose tensor no
workspace can store. -/
theorem fitTo_fails_on_wide_tensor :
    let wide := Sample.inside (2 ^ 60) (by decide)
    let narrow : LayoutMap Rat := LayoutMap.p0 .interval
    let form : Form Rat := .probe "wide" 2 0 [.single wide, .single narrow] none []
    ∃ mesh : Mesh Rat, Mesh.ofData ⟨.interval, 1, #[0, 1], #[0, 1]⟩ = .ok mesh ∧
      form.checkFit 2 mesh [] = .ok () ∧ (∀ map ∈ form.dofMaps, map.HasNumbering mesh) ∧
      0 < mesh.numCells ∧ form.tensorSize = .ok (2 ^ 60) ∧
      ∀ workspace : Workspace Rat, workspace.fitTo form = .error .tooManyEntries := by
  intro wide narrow form
  let mesh : Mesh Rat := Sample.intervals [0, 1] 1
  have hdata : Mesh.ofData ⟨.interval, 1, #[0, 1], #[0, 1]⟩ = .ok mesh :=
    Sample.ofData_intervals [0, 1] 1 (Nat.le_refl 1)
  have hnumbering : ∀ map ∈ form.dofMaps, map.HasNumbering mesh :=
    List.forall_mem_cons.mpr
      ⟨⟨by decide, 2 ^ 60, rfl⟩, List.forall_mem_singleton.mpr ⟨by decide, 1, rfl⟩⟩
  refine ⟨mesh, hdata, by decide +kernel, hnumbering, by decide, by decide +kernel, ?_⟩
  intro workspace
  have harguments : form.argumentMaps = .ok [.single wide, .single narrow] := rfl
  have hbuffers : bufferSizes [.single wide, .single narrow] = .error .tooManyEntries := by
    decide +kernel
  simp only [fitTo, harguments, hbuffers, Checked.ok_bind]
  rfl

end Workspace
end FiniteElement
