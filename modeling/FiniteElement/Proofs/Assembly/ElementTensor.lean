import Mathlib
import FiniteElement.Proofs.Assembly.Workspace
import FiniteElement.Proofs.DofMap.GlobalNumbering

/-! # Element tensors

On a well-formed mesh a cell is computed from the global indices of its degrees
of freedom: they are the nodes of the arguments, and the coefficients are read
there. Only the form itself can fail on the way.
-/

namespace FiniteElement

variable {α : Type}

/-- The space is one on cells of the mesh, and its degrees of freedom there can be numbered. -/
def DofMap.HasNumbering (map : DofMap α) (mesh : Mesh α) : Prop :=
  map.IsOn mesh.shape ∧ ∃ n, map.globalDimension mesh.entityCounts = .ok n

theorem DofMap.lt_of_mem_cellNodes_of_globalDimension {map : DofMap α} {mesh : Mesh α}
    (hmesh : mesh.WellFormed) (hmap : map.IsOn mesh.shape) {n : Nat}
    (hn : map.globalDimension mesh.entityCounts = .ok n) {cell : Nat} (hc : cell < mesh.numCells) :
    ∀ node ∈ map.cellNodes mesh cell, node < n := by
  rw [← ((globalDimension_eq_ok_iff mesh.length_entityCounts map hmap n).mp hn).2]
  exact lt_of_mem_cellNodes hmesh hmap hc

theorem DofMap.HasNumbering.writeNodes_eq_ok {map : DofMap α} {mesh : Mesh α}
    (h : map.HasNumbering mesh) (hmesh : mesh.WellFormed) {cell : Nat} (hc : cell < mesh.numCells)
    {view : CellView α} (hview : view.entities = mesh.localEntities cell) {buffer : List Nat}
    (hroom : buffer.length = map.size) :
    map.writeNodes mesh.entityCounts view buffer = .ok (map.cellNodes mesh cell) := by
  obtain ⟨hmap, n, hn⟩ := h
  have hbound := ((globalDimension_eq_ok_iff mesh.length_entityCounts map hmap n).mp hn).1
  exact writeNodes_cell_eq_ok hmesh hmap hbound hc hview hroom

theorem DofMap.HasNumbering.tabulate_eq_ok {map : DofMap α} {mesh : Mesh α}
    (h : map.HasNumbering mesh) (hmesh : mesh.WellFormed) {cell : Nat} (hc : cell < mesh.numCells)
    {buffer : List Nat} (hroom : buffer.length = map.size) :
    map.tabulate mesh cell buffer = .ok (map.cellNodes mesh cell) := by
  obtain ⟨hmap, n, hn⟩ := h
  have hbound := ((globalDimension_eq_ok_iff mesh.length_entityCounts map hmap n).mp hn).1
  exact DofMap.tabulate_eq_ok hmesh hmap hbound hc hroom

namespace Workspace

variable {mesh : Mesh α} {cell : Nat} {view : CellView α} {maps : List (DofMap α)}

theorem writeAllNodes_eq_ok (hmesh : mesh.WellFormed) (hc : cell < mesh.numCells)
    (hview : view.entities = mesh.localEntities cell)
    (hmaps : ∀ map ∈ maps, map.HasNumbering mesh) {buffers : List (List Nat)}
    (h : BuffersOf maps buffers) :
    writeAllNodes mesh.entityCounts view maps buffers =
      .ok (maps.map fun map => map.cellNodes mesh cell) := by
  induction maps generalizing buffers with
  | nil =>
      cases h
      rfl
  | cons map maps ih =>
      cases h with
      | cons hfirst hrest =>
          have hown := (hmaps map List.mem_cons_self).writeNodes_eq_ok hmesh hc hview hfirst
          have hothers := ih (fun other hother => hmaps other (List.mem_cons_of_mem _ hother)) hrest
          rw [writeAllNodes] at hothers
          rw [writeAllNodes, List.zip_cons_cons, List.mapM_cons]
          dsimp only
          rw [hown, hothers]
          rfl

end Workspace

variable [Scalar α]

namespace Form

def nodalValues (maps : List (DofMap α)) (mesh : Mesh α) (coefficients : List (Array α))
    (cell : Nat) : List (List α) :=
  List.zipWith (fun global map => (map.cellNodes mesh cell).map (global.getD · Scalar.zero))
    coefficients maps

/-- The element tensor of a cell, computed into zeros from the values of the coefficients. -/
def elementTensor (form : Form α) (mesh : Mesh α) (coefficients : List (Array α)) (cell : Nat) :
    Except Fault (List α) := do
  let size ← form.tensorSize
  let (view, _) ← mesh.view cell #[]
  let values := nodalValues (form.dofMaps.drop form.rank) mesh coefficients cell
  let tensor ← form.computeTensor (Vector.replicate size Scalar.zero) values view
  return tensor.toList

end Form

namespace Workspace

variable {mesh : Mesh α} {cell : Nat}

theorem gather_eq_ok {global : Array α} {buffer : List α} {nodes : List Nat}
    (hlength : buffer.length = nodes.length) (hnodes : ∀ node ∈ nodes, node < global.size) :
    gather global buffer nodes = .ok (nodes.map (global.getD · Scalar.zero)) := by
  rw [gather, if_pos hlength]
  apply Checked.mapM_eq_ok_map
  intro node hnode
  have hlt := hnodes node hnode
  rw [Index.slot_of_lt hlt, Array.getD_eq_getD_getElem?, Array.getElem?_eq_getElem hlt,
    Option.getD_some]

theorem gatherValues_eq_ok (hmesh : mesh.WellFormed) (hc : cell < mesh.numCells)
    {maps : List (DofMap α)} (hmaps : ∀ map ∈ maps, map.HasNumbering mesh)
    {coefficients : List (Array α)}
    (hsizes : ∀ pair ∈ coefficients.zip maps,
      pair.2.globalDimension mesh.entityCounts = .ok pair.1.size)
    {buffers : List (List α)} (h : BuffersOf maps buffers) :
    gatherValues coefficients buffers (maps.map fun map => map.cellNodes mesh cell) =
      .ok (Form.nodalValues maps mesh coefficients cell) := by
  induction maps generalizing coefficients buffers with
  | nil =>
      cases h
      cases coefficients <;> rfl
  | cons map maps ih =>
      cases h with
      | cons hfirst hrest =>
          cases coefficients with
          | nil => rfl
          | cons global coefficients =>
              have hmap := (hmaps map List.mem_cons_self).1
              have hsize := hsizes (global, map) List.mem_cons_self
              have hlength := DofMap.length_cellNodes hmesh hmap hc
              have hown := gather_eq_ok (hfirst.trans hlength.symm)
                (DofMap.lt_of_mem_cellNodes_of_globalDimension hmesh hmap hsize hc)
              have hothers := ih (fun other hother => hmaps other (List.mem_cons_of_mem _ hother))
                (fun pair hpair => hsizes pair (List.mem_cons_of_mem _ hpair)) hrest
              rw [gatherValues] at hothers
              rw [gatherValues, List.map_cons, List.zip_cons_cons, List.zip_cons_cons,
                List.mapM_cons]
              dsimp only
              rw [hown, hothers]
              rfl

section Computing

variable (hmesh : mesh.WellFormed) (hc : cell < mesh.numCells) {form : Form α}
  (hrank : form.rank ≤ form.dofMaps.length) (hmaps : ∀ map ∈ form.dofMaps, map.HasNumbering mesh)
  {coefficients : List (Array α)}
  (hsizes : ∀ pair ∈ coefficients.zip (form.dofMaps.drop form.rank),
    pair.2.globalDimension mesh.entityCounts = .ok pair.1.size)
  {workspace : Workspace α} (h : workspace.Fits form)

include hmesh hc hrank hmaps hsizes h

/-- To compute a cell, a form is asked for its tensor once: into zeros, for the values of the
coefficients at their nodes, on the view of the cell. All else is written whatever it answers. -/
theorem computeCell_eq :
    ∃ view coordinates, mesh.view cell #[] = .ok (view, coordinates) ∧
      workspace.computeCell form mesh coefficients cell =
        (form.computeTensor (Vector.replicate workspace.tensor.size Scalar.zero)
          (Form.nodalValues (form.dofMaps.drop form.rank) mesh coefficients cell) view).map
        fun tensor => ⟨coordinates,
          (form.dofMaps.take form.rank).map fun map => map.cellNodes mesh cell,
          (form.dofMaps.drop form.rank).map fun map => map.cellNodes mesh cell,
          Form.nodalValues (form.dofMaps.drop form.rank) mesh coefficients cell,
          tensor.toArray⟩ := by
  obtain ⟨view, coordinates, hview, hentities⟩ := hmesh.view_eq_ok hc workspace.coordinates
  have harguments := Form.argumentMaps_of_le hrank
  have hcoefficients := Form.coefficientMaps_of_le hrank
  have hargumentNodes := writeAllNodes_eq_ok hmesh hc hentities
    (fun map hmap => hmaps map (List.mem_of_mem_take hmap)) h.argumentNodes
  have hcoefficientNodes := writeAllNodes_eq_ok hmesh hc hentities
    (fun map hmap => hmaps map (List.mem_of_mem_drop hmap)) h.coefficientNodes
  have hvalues := gatherValues_eq_ok hmesh hc
    (fun map hmap => hmaps map (List.mem_of_mem_drop hmap)) hsizes h.coefficientValues
  refine ⟨view, coordinates, ?_, ?_⟩
  · rw [← Mesh.view_eq_of_buffer mesh cell workspace.coordinates, hview]
  · simp only [computeCell, hview, harguments, hcoefficients, hargumentNodes, hcoefficientNodes,
      hvalues, coefficientSlices_eq, Checked.ok_bind]
    rfl

/-- A cell is computed in every workspace that fits if the form computes its tensor. -/
theorem computeCell_eq_ok {tensor : List α}
    (htensor : form.elementTensor mesh coefficients cell = .ok tensor) :
    ∃ next, workspace.computeCell form mesh coefficients cell = .ok next ∧
      next.argumentNodes =
        (form.dofMaps.take form.rank).map (fun map => map.cellNodes mesh cell) ∧
      next.tensor.toList = tensor := by
  obtain ⟨view, coordinates, hview, hcomputeCell⟩ :=
    computeCell_eq hmesh hc hrank hmaps hsizes h
  simp only [Form.elementTensor, h.tensor, hview, Checked.ok_bind, Checked.bind_eq_ok_iff,
    Checked.pure_eq_ok_iff] at htensor
  obtain ⟨computed, hcomputed, heq⟩ := htensor
  rw [hcomputeCell, hcomputed]
  exact ⟨_, rfl, rfl, heq⟩

end Computing

end Workspace
end FiniteElement
