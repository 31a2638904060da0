import Mathlib
import FiniteElement.Assembly.Job
import FiniteElement.Proofs.Assembly.Fitting
import FiniteElement.Proofs.DofMap.Buffers
import FiniteElement.Proofs.Mesh.View

/-! # Workspaces that fit a form

The lengths of the buffers are all that matters about a workspace. Fitting gives
them the lengths that a form asks for, computing a cell keeps these lengths, and
its result is the same in every workspace that has them.
-/

namespace FiniteElement

/-! ## Sizes -/

def BuffersOf {α β : Type} (maps : List (DofMap α)) (buffers : List (List β)) : Prop :=
  List.Forall₂ (fun map buffer => buffer.length = map.size) maps buffers

theorem BuffersOf.exists_of_singleton {α β : Type} {map : DofMap α} {buffers : List (List β)}
    (h : BuffersOf [map] buffers) : ∃ own, buffers = [own] ∧ own.length = map.size := by
  cases h with
  | cons hlength hrest =>
      cases hrest
      exact ⟨_, rfl, hlength⟩

theorem length_resize {β : Type} (n : Nat) (fill : β) (xs : List β) :
    (resize n fill xs).length = n := by
  rw [resize, List.length_append, List.length_take, List.length_replicate]
  omega

theorem forall₂_resizeAll {β : Type} (sizes : List Nat) (fill : β) (buffers : List (List β)) :
    List.Forall₂ (fun n buffer => buffer.length = n) sizes (resizeAll sizes fill buffers) := by
  have hlength := length_resize sizes.length [] buffers
  rw [resizeAll]
  generalize resize sizes.length [] buffers = resized at hlength
  induction sizes generalizing resized with
  | nil => exact List.Forall₂.nil
  | cons n sizes ih =>
      cases resized with
      | nil => cases hlength
      | cons buffer resized =>
          exact List.Forall₂.cons (length_resize n fill buffer) (ih resized (Nat.succ.inj hlength))

namespace Form

variable {α : Type}

/-- The sizes of all buffers for a cell: those of the arguments, those of the coefficients and that
of the element tensor. -/
def bufferSizes (form : Form α) : Except Fault (List Nat × List Nat × Nat) := do
  let argumentSizes ← Workspace.bufferSizes (← form.argumentMaps)
  let coefficientSizes ← Workspace.bufferSizes (← form.coefficientMaps)
  let tensorSize ← Index.length (← form.tensorSize)
  return (argumentSizes, coefficientSizes, tensorSize)

end Form

namespace Workspace

variable {α : Type}

theorem bufferSizes_eq_ok {maps : List (DofMap α)} {sizes : List Nat}
    (h : bufferSizes maps = .ok sizes) : sizes = maps.map DofMap.size := by
  have hsizes : List.Forall₂ (fun map n => DofMap.size map = n) maps sizes := by
    apply (Checked.mapM_eq_ok_iff.mp h).imp
    intro map n hn
    obtain ⟨size, hsize, hlength⟩ := Checked.bind_eq_ok_iff.mp hn
    rw [← DofMap.localDimension_eq_ok hsize, (Index.length_eq_ok_iff.mp hlength).2]
  rw [← List.forall₂_eq_eq_eq, List.forall₂_map_right_iff]
  exact hsizes.flip.imp fun _ _ heq => heq.symm

theorem buffersOf_resizeAll {β : Type} {maps : List (DofMap α)} {sizes : List Nat} {fill : β}
    (h : bufferSizes maps = .ok sizes) (buffers : List (List β)) :
    BuffersOf maps (resizeAll sizes fill buffers) := by
  have hlengths := forall₂_resizeAll sizes fill buffers
  rw [bufferSizes_eq_ok h, List.forall₂_map_left_iff] at hlengths
  rw [bufferSizes_eq_ok h]
  exact hlengths

structure Fits (workspace : Workspace α) (form : Form α) : Prop where
  argumentNodes : BuffersOf (form.dofMaps.take form.rank) workspace.argumentNodes
  coefficientNodes : BuffersOf (form.dofMaps.drop form.rank) workspace.coefficientNodes
  coefficientValues : BuffersOf (form.dofMaps.drop form.rank) workspace.coefficientValues
  tensor : form.tensorSize = .ok workspace.tensor.size

/-! ## Fitting -/

section Fitting

variable [Scalar α]

def resizeTo (workspace : Workspace α) (sizes : List Nat × List Nat × Nat) : Workspace α :=
  { workspace with
    argumentNodes := resizeAll sizes.1 Index.last workspace.argumentNodes
    coefficientNodes := resizeAll sizes.2.1 Index.last workspace.coefficientNodes
    coefficientValues := resizeAll sizes.2.1 Scalar.zero workspace.coefficientValues
    tensor := (resize sizes.2.2 Scalar.zero workspace.tensor.toList).toArray }

/-- Fitting fails or succeeds whatever the workspace holds. -/
theorem fitTo_eq (workspace : Workspace α) (form : Form α) :
    workspace.fitTo form = form.bufferSizes.map workspace.resizeTo := by
  simp only [fitTo, Form.bufferSizes, Checked.map_bind]
  rfl

theorem fits_of_fitTo {workspace fitted : Workspace α} {form : Form α}
    (h : workspace.fitTo form = .ok fitted) : fitted.Fits form := by
  rw [fitTo_eq, Checked.map_eq_ok_iff] at h
  obtain ⟨⟨argumentSizes, coefficientSizes, tensorSize⟩, hsizes, heq⟩ := h
  simp only [Form.bufferSizes, Checked.bind_eq_ok_iff, Checked.pure_eq_ok_iff] at hsizes
  obtain ⟨argumentMaps, hargumentMaps, argumentSizes', hargumentSizes, coefficientMaps,
    hcoefficientMaps, coefficientSizes', hcoefficientSizes, size, hsize, length, hlength,
    htuple⟩ := hsizes
  cases htuple
  rw [Form.argumentMaps_eq_ok hargumentMaps] at hargumentSizes
  rw [Form.coefficientMaps_eq_ok hcoefficientMaps] at hcoefficientSizes
  rw [← heq]
  refine ⟨buffersOf_resizeAll hargumentSizes _, buffersOf_resizeAll hcoefficientSizes _,
    buffersOf_resizeAll hcoefficientSizes _, ?_⟩
  rw [hsize, resizeTo, List.size_toArray, length_resize, (Index.length_eq_ok_iff.mp hlength).2]

/-- Either no workspace can be fitted to a form or all can, to the same sizes. -/
theorem fitTo_eq_error_or_ok (form : Form α) :
    (∃ fault, ∀ workspace : Workspace α, workspace.fitTo form = .error fault) ∨
      ∃ sizes, ∀ workspace : Workspace α,
        workspace.fitTo form = .ok (workspace.resizeTo sizes) := by
  cases hsizes : form.bufferSizes with
  | error fault =>
      refine Or.inl ⟨fault, fun workspace => ?_⟩
      rw [fitTo_eq, hsizes]
      rfl
  | ok sizes =>
      refine Or.inr ⟨sizes, fun workspace => ?_⟩
      rw [fitTo_eq, hsizes]
      rfl

/-- All workspaces can be fitted to a form if one can. -/
theorem exists_fitTo {workspace fitted : Workspace α} {form : Form α}
    (h : workspace.fitTo form = .ok fitted) (other : Workspace α) :
    ∃ fitted', other.fitTo form = .ok fitted' := by
  rw [fitTo_eq, Checked.map_eq_ok_iff] at h
  obtain ⟨sizes, hsizes, -⟩ := h
  exact ⟨other.resizeTo sizes, by rw [fitTo_eq, hsizes]; rfl⟩

end Fitting

/-! ## Nodes and values of a cell -/

section Cells

variable {mesh : EntityCounts} {cell : CellView α} {maps : List (DofMap α)}

theorem writeAllNodes_congr {buffers buffers' : List (List Nat)} (h : BuffersOf maps buffers)
    (h' : BuffersOf maps buffers') :
    writeAllNodes mesh cell maps buffers = writeAllNodes mesh cell maps buffers' := by
  induction maps generalizing buffers buffers' with
  | nil => rfl
  | cons map maps ih =>
      cases h with
      | cons hfirst hrest =>
          cases h' with
          | cons hfirst' hrest' =>
              have hothers := ih hrest hrest'
              rw [writeAllNodes, writeAllNodes] at hothers
              rw [writeAllNodes, writeAllNodes, List.zip_cons_cons, List.zip_cons_cons,
                List.mapM_cons, List.mapM_cons, hothers]
              dsimp only
              rw [DofMap.writeNodes_congr map hfirst hfirst']

theorem buffersOf_writeAllNodes {buffers nodes : List (List Nat)} (h : BuffersOf maps buffers)
    (hok : writeAllNodes mesh cell maps buffers = .ok nodes) : BuffersOf maps nodes := by
  induction maps generalizing buffers nodes with
  | nil =>
      cases hok
      exact List.Forall₂.nil
  | cons map maps ih =>
      cases h with
      | cons hfirst hrest =>
          rw [writeAllNodes, List.zip_cons_cons, List.mapM_cons, Checked.bind_eq_ok_iff] at hok
          obtain ⟨own, hown, hothers⟩ := hok
          obtain ⟨others, hmapM, heq⟩ := Checked.bind_eq_ok_iff.mp hothers
          rw [Checked.pure_eq_ok_iff] at heq
          rw [← heq]
          exact List.Forall₂.cons (DofMap.length_of_writeNodes map hfirst hown) (ih hrest hmapM)

theorem gather_congr {global : Array α} {buffer buffer' : List α} {indices : List Nat}
    (h : buffer.length = buffer'.length) :
    gather global buffer indices = gather global buffer' indices := by
  unfold gather
  rw [h]

theorem length_of_gather {global : Array α} {buffer values : List α} {indices : List Nat}
    (h : gather global buffer indices = .ok values) : values.length = buffer.length := by
  unfold gather at h
  by_cases hlength : buffer.length = indices.length
  · rw [if_pos hlength] at h
    rw [Checked.length_of_mapM_eq_ok h, hlength]
  · rw [if_neg hlength] at h
    cases h

theorem gatherValues_congr {buffers buffers' : List (List α)} (h : BuffersOf maps buffers)
    (h' : BuffersOf maps buffers') (coefficients : List (Array α)) (nodes : List (List Nat)) :
    gatherValues coefficients buffers nodes = gatherValues coefficients buffers' nodes := by
  induction maps generalizing buffers buffers' coefficients nodes with
  | nil =>
      cases h
      cases h'
      rfl
  | cons map maps ih =>
      cases h with
      | cons hfirst hrest =>
          cases h' with
          | cons hfirst' hrest' =>
              cases coefficients with
              | nil => rfl
              | cons global coefficients =>
                  cases nodes with
                  | nil => rfl
                  | cons indices nodes =>
                      have hothers := ih hrest hrest' coefficients nodes
                      rw [gatherValues, gatherValues] at hothers
                      rw [gatherValues, gatherValues, List.zip_cons_cons, List.zip_cons_cons,
                        List.zip_cons_cons, List.zip_cons_cons, List.mapM_cons, List.mapM_cons,
                        hothers]
                      dsimp only
                      rw [gather_congr (hfirst.trans hfirst'.symm)]

theorem buffersOf_gatherValues {coefficients : List (Array α)} {buffers values : List (List α)}
    {nodes : List (List Nat)} (hcoefficients : coefficients.length = maps.length)
    (h : BuffersOf maps buffers) (hnodes : BuffersOf maps nodes)
    (hok : gatherValues coefficients buffers nodes = .ok values) : BuffersOf maps values := by
  induction maps generalizing coefficients buffers nodes values with
  | nil =>
      rw [List.length_nil, List.length_eq_zero_iff] at hcoefficients
      rw [hcoefficients] at hok
      cases hok
      exact List.Forall₂.nil
  | cons map maps ih =>
      cases h with
      | cons hfirst hrest =>
          cases hnodes with
          | cons hindices hothers =>
              cases coefficients with
              | nil => cases hcoefficients
              | cons global coefficients =>
                  rw [gatherValues, List.zip_cons_cons, List.zip_cons_cons, List.mapM_cons,
                    Checked.bind_eq_ok_iff] at hok
                  obtain ⟨own, hown, htail⟩ := hok
                  obtain ⟨others, hmapM, heq⟩ := Checked.bind_eq_ok_iff.mp htail
                  rw [Checked.pure_eq_ok_iff] at heq
                  rw [← heq]
                  exact List.Forall₂.cons ((length_of_gather hown).trans hfirst)
                    (ih (Nat.succ.inj hcoefficients) hrest hothers hmapM)

end Cells

/-! ## Computing a cell -/

/-- In slots or not, a form is handed the values of all coefficients and no more. -/
@[simp] theorem coefficientSlices_eq (values : List (List α)) :
    coefficientSlices values = values := by
  rw [coefficientSlices]
  split
  case isFalse => rfl
  case isTrue hfew =>
      apply List.ext_getElem
      · rw [List.length_take, List.length_map, List.length_range]
        exact Nat.min_eq_left hfew
      · intro j _ hj
        simp [hj]

section Computing

variable [Scalar α] {form : Form α} {mesh : Mesh α} {coefficients : List (Array α)} {cell : Nat}

/-- A cell is computed alike in all workspaces that fit. -/
theorem computeCell_congr {workspace workspace' : Workspace α} (h : workspace.Fits form)
    (h' : workspace'.Fits form) :
    workspace.computeCell form mesh coefficients cell =
      workspace'.computeCell form mesh coefficients cell := by
  have hview : mesh.view cell workspace.coordinates = mesh.view cell workspace'.coordinates := by
    rw [Mesh.view_eq_of_buffer mesh cell workspace.coordinates,
      Mesh.view_eq_of_buffer mesh cell workspace'.coordinates]
  have htensor : workspace.tensor.size = workspace'.tensor.size := by
    have heq := h.tensor
    rw [h'.tensor, Except.ok.injEq] at heq
    exact heq.symm
  have hvalues := gatherValues_congr h.coefficientValues h'.coefficientValues coefficients
  rw [computeCell, computeCell, hview, htensor]
  cases hargument : form.argumentMaps with
  | error fault => rfl
  | ok argumentMaps =>
    cases hcoefficient : form.coefficientMaps with
    | error fault =>
      have hfirst := h.argumentNodes
      have hfirst' := h'.argumentNodes
      rw [← Form.argumentMaps_eq_ok hargument] at hfirst hfirst'
      simp only [Checked.ok_bind, writeAllNodes_congr hfirst hfirst']
      rfl
    | ok coefficientMaps =>
      have hfirst := h.argumentNodes
      have hfirst' := h'.argumentNodes
      have hsecond := h.coefficientNodes
      have hsecond' := h'.coefficientNodes
      rw [← Form.argumentMaps_eq_ok hargument] at hfirst hfirst'
      rw [← Form.coefficientMaps_eq_ok hcoefficient] at hsecond hsecond'
      simp only [Checked.ok_bind, writeAllNodes_congr hfirst hfirst',
        writeAllNodes_congr hsecond hsecond', hvalues]

/-- A computed cell leaves the buffers at their lengths. -/
theorem Fits.computeCell {workspace next : Workspace α} (h : workspace.Fits form)
    (hcoefficients : coefficients.length = (form.dofMaps.drop form.rank).length)
    (hok : workspace.computeCell form mesh coefficients cell = .ok next) : next.Fits form := by
  simp only [Workspace.computeCell, Checked.bind_eq_ok_iff, Checked.pure_eq_ok_iff] at hok
  obtain ⟨⟨view, coordinates⟩, -, argumentMaps, hargument, argumentNodes, hargumentNodes,
    coefficientMaps, hcoefficient, coefficientNodes, hcoefficientNodes, values, hvalues, tensor,
    -, heq⟩ := hok
  rw [Form.argumentMaps_eq_ok hargument] at hargumentNodes
  rw [Form.coefficientMaps_eq_ok hcoefficient] at hcoefficientNodes
  have hnodes := buffersOf_writeAllNodes h.coefficientNodes hcoefficientNodes
  rw [← heq]
  refine ⟨buffersOf_writeAllNodes h.argumentNodes hargumentNodes, hnodes,
    buffersOf_gatherValues hcoefficients h.coefficientValues hnodes hvalues, ?_⟩
  rw [h.tensor, Vector.size_toArray]

end Computing

end Workspace
end FiniteElement
