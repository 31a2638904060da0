import Mathlib
import FiniteElement.Assembly.Request
import FiniteElement.Proofs.Assembly.Triplets

/-! # Reuse of an assembler

Fitting a workspace to a form leaves nothing in it that a cell could read, so a
cell is computed alike in all workspaces. A pass keeps its workspace at the
lengths of the form, and thus comes to the same in every workspace that it may
start with. An assembler answers each request as if it were the first.
-/

namespace FiniteElement

variable {α σ τ : Type} [Scalar α]

/-! ## Cells -/

namespace Assembly

variable {assembly : Assembly α}

def processFitted (assembly : Assembly α) (workspace : Workspace α) (cell : Nat) :
    Except Failure (Workspace α × List Event) := do
  let fitted ← Failure.lift (workspace.fitTo assembly.form)
  assembly.process fitted cell

theorem processFitted_congr (assembly : Assembly α) (workspace workspace' : Workspace α)
    (cell : Nat) :
    assembly.processFitted workspace cell = assembly.processFitted workspace' cell := by
  unfold processFitted
  rcases Workspace.fitTo_eq_error_or_ok assembly.form with ⟨fault, hfit⟩ | ⟨sizes, hfit⟩
  · rw [hfit workspace, hfit workspace']
  · rw [hfit workspace, hfit workspace']
    exact assembly.process_congr (Workspace.fits_of_fitTo (hfit workspace))
      (Workspace.fits_of_fitTo (hfit workspace')) cell

theorem hasCoefficients_of_scalarJob {job : Job α α α} (h : assembly.scalarJob = .ok job) :
    assembly.HasCoefficients := by
  cases hsizes : assembly.prepare 0 with
  | error failure =>
      rw [scalarJob, hsizes] at h
      cases h
  | ok sizes => exact hasCoefficients_of_prepare hsizes

theorem hasCoefficients_of_vectorJob {job : Job α (Array α) (Array α)}
    (h : assembly.vectorJob = .ok job) : assembly.HasCoefficients := by
  rw [vectorJob, Checked.bind_eq_ok_iff] at h
  obtain ⟨sizes, hsizes, -⟩ := h
  exact hasCoefficients_of_prepare hsizes

end Assembly

/-! ## Serial passes -/

namespace Pass

/-- Two passes that differ at most in what their workspaces hold. -/
structure Agree (form : Form α) (pass pass' : Pass α σ) : Prop where
  value : pass.value = pass'.value
  events : pass.events = pass'.events
  fits : pass.workspace.Fits form
  fits' : pass'.workspace.Fits form

variable {assembly : Assembly α} {job : Job α σ τ} {pass pass' : Pass α σ}

theorem Agree.step (hcoefficients : assembly.HasCoefficients) (h : Agree assembly.form pass pass')
    (cell : Nat) :
    Agree assembly.form (Pass.step assembly job pass cell) (Pass.step assembly job pass' cell) := by
  have hstep : (Pass.step assembly job pass cell).value =
        (Pass.step assembly job pass' cell).value ∧
      (Pass.step assembly job pass cell).events = (Pass.step assembly job pass' cell).events := by
    obtain ⟨value, events, workspace⟩ := pass
    obtain ⟨value', events', workspace'⟩ := pass'
    obtain ⟨hvalue, hevents, hfits, hfits'⟩ := h
    cases hvalue
    cases hevents
    cases value with
    | error failure => exact ⟨rfl, rfl⟩
    | ok collected =>
      have hsame := assembly.process_congr hfits hfits' cell
      cases hprocess : assembly.process workspace' cell with
      | error failure =>
        rw [hprocess] at hsame
        simp only [Pass.step, hprocess, hsame, and_self]
      | ok processed =>
        rw [hprocess] at hsame
        simp only [Pass.step, hprocess, hsame, and_self]
  exact ⟨hstep.1, hstep.2, fits_step hcoefficients h.fits cell,
    fits_step hcoefficients h.fits' cell⟩

theorem Agree.foldl (hcoefficients : assembly.HasCoefficients) (cells : List Nat)
    (h : Agree assembly.form pass pass') :
    Agree assembly.form (cells.foldl (Pass.step assembly job) pass)
      (cells.foldl (Pass.step assembly job) pass') := by
  induction cells generalizing pass pass' with
  | nil => exact h
  | cons cell cells ih => exact ih (h.step hcoefficients cell)

end Pass

namespace SerialAssembler

theorem agree_pass {assembly : Assembly α} (hcoefficients : assembly.HasCoefficients)
    (job : Job α σ τ) (room : Except Fault Nat) {workspace workspace' : Workspace α}
    (h : workspace.Fits assembly.form) (h' : workspace'.Fits assembly.form) :
    Pass.Agree assembly.form (pass assembly job room workspace)
      (pass assembly job room workspace') :=
  Pass.Agree.foldl hcoefficients _ ⟨rfl, rfl, h, h'⟩

/-- What comes of a job does not depend on the workspace that it starts with. -/
theorem runJob_congr {assembly : Assembly α} (hcoefficients : assembly.HasCoefficients)
    (job : Job α σ τ) (room : Except Fault Nat) (assembler assembler' : SerialAssembler α) :
    (assembler.runJob assembly job room).1 = (assembler'.runJob assembly job room).1 := by
  unfold runJob
  rcases Workspace.fitTo_eq_error_or_ok assembly.form with ⟨fault, hfit⟩ | ⟨sizes, hfit⟩
  · rw [hfit assembler.workspace, hfit assembler'.workspace]
  · rw [hfit assembler.workspace, hfit assembler'.workspace]
    have hagree := agree_pass hcoefficients job room
      (Workspace.fits_of_fitTo (hfit assembler.workspace))
      (Workspace.fits_of_fitTo (hfit assembler'.workspace))
    dsimp only
    rw [hagree.value, hagree.events]

theorem options_runJob (assembler : SerialAssembler α) (assembly : Assembly α) (job : Job α σ τ)
    (room : Except Fault Nat) :
    (assembler.runJob assembly job room).2.options = assembler.options := by
  unfold runJob
  cases assembler.workspace.fitTo assembly.form <;> rfl

theorem options_answer (assembler : SerialAssembler α) (request : Request α) :
    (assembler.answer request).2.options = assembler.options := by
  obtain ⟨kind, form, mesh, coefficients⟩ := request
  cases kind with
  | scalar =>
      simp only [answer, assembleScalar]
      cases (assembler.assembly form mesh coefficients).scalarJob with
      | error failure => rfl
      | ok job => exact assembler.options_runJob _ job _
  | vector =>
      simp only [answer, assembleVector]
      cases (assembler.assembly form mesh coefficients).vectorJob with
      | error failure => rfl
      | ok job => exact assembler.options_runJob _ job _
  | matrix =>
      simp only [answer, assembleMatrix]
      cases (assembler.assembly form mesh coefficients).matrixJob with
      | error failure => rfl
      | ok job => exact assembler.options_runJob _ job _

/-- An assembler answers a request as a fresh one with its options does. -/
theorem answer_eq_fresh (assembler : SerialAssembler α) (request : Request α) :
    (assembler.answer request).1 = ((fresh assembler.options).answer request).1 := by
  obtain ⟨kind, form, mesh, coefficients⟩ := request
  have hassembly : (fresh assembler.options).assembly form mesh coefficients =
      assembler.assembly form mesh coefficients := rfl
  cases kind with
  | scalar =>
      simp only [answer, assembleScalar, hassembly]
      cases hjob : (assembler.assembly form mesh coefficients).scalarJob with
      | error failure => rfl
      | ok job =>
          have hsame := runJob_congr (Assembly.hasCoefficients_of_scalarJob hjob) job (.ok 0)
            assembler (fresh assembler.options)
          exact congrArg (Outcome.map Tensor.scalar) hsame
  | vector =>
      simp only [answer, assembleVector, hassembly]
      cases hjob : (assembler.assembly form mesh coefficients).vectorJob with
      | error failure => rfl
      | ok job =>
          have hsame := runJob_congr (Assembly.hasCoefficients_of_vectorJob hjob) job (.ok 0)
            assembler (fresh assembler.options)
          exact congrArg (Outcome.map Tensor.vector) hsame
  | matrix =>
      simp only [answer, assembleMatrix, hassembly]
      cases hjob : (assembler.assembly form mesh coefficients).matrixJob with
      | error failure => rfl
      | ok job =>
          have hsame := runJob_congr (Assembly.hasCoefficients_of_matrixJob hjob) job
            (tripletRoom form mesh) assembler (fresh assembler.options)
          exact congrArg (fun outcome => (withCompletion outcome).map Tensor.matrix) hsame

theorem answers_eq_fresh (assembler : SerialAssembler α) (requests : List (Request α)) :
    assembler.answers requests =
      requests.map fun request => ((fresh assembler.options).answer request).1 := by
  induction requests generalizing assembler with
  | nil => rfl
  | cons request requests ih =>
      unfold answers
      dsimp only
      rw [ih, options_answer, answer_eq_fresh, List.map_cons]

end SerialAssembler

/-! ## Parallel tasks -/

namespace ParallelAssembler

variable {assembly : Assembly α} {job : Job α σ τ}

theorem step_congr (workspaces workspaces' : Nat → Workspace α) (collected : Partial σ)
    (cell : Nat) :
    step assembly job workspaces collected cell = step assembly job workspaces' collected cell := by
  obtain ⟨value, events⟩ := collected
  cases value with
  | error failure => rfl
  | ok value =>
      have hsame := assembly.processFitted_congr (workspaces cell) (workspaces' cell) cell
      unfold Assembly.processFitted at hsame
      simp only [step, hsame]

/-- What the tasks of a tree collect does not depend on the workspaces at hand. -/
theorem runTree_congr (workspaces workspaces' : Nat → Workspace α) (tree : TaskTree) :
    runTree assembly job workspaces tree = runTree assembly job workspaces' tree := by
  have hstep : step assembly job workspaces = step assembly job workspaces' := by
    funext collected cell
    exact step_congr workspaces workspaces' collected cell
  induction tree with
  | task range => rw [runTree, runTree, runTask, runTask, hstep]
  | split left right ihleft ihright => rw [runTree, runTree, ihleft, ihright]

theorem answer_congr (assembler : ParallelAssembler) (tree : TaskTree)
    (workspaces workspaces' : Nat → Workspace α) (request : Request α) :
    assembler.answer ⟨tree, workspaces⟩ request = assembler.answer ⟨tree, workspaces'⟩ request := by
  obtain ⟨kind, form, mesh, coefficients⟩ := request
  cases kind <;>
    simp only [answer, assembleScalar, assembleVector, assembleMatrix, runJob,
      runTree_congr workspaces workspaces' tree]

end ParallelAssembler

/-- An assembler that has been used before answers as a fresh one: a cell does not depend on the
workspace, a serial assembler answers each of several requests as if it were the first, and the
answer of a parallel assembler depends on the split into tasks alone. -/
theorem reuse_leaks_nothing :
    (∀ (assembly : Assembly α) (workspace : Workspace α) (cell : Nat),
      assembly.processFitted workspace cell = assembly.processFitted {} cell) ∧
    (∀ (assembler : SerialAssembler α) (requests : List (Request α)),
      assembler.answers requests =
        requests.map fun request => ((SerialAssembler.fresh assembler.options).answer request).1) ∧
    ∀ (assembler : ParallelAssembler) (schedule : Schedule α) (request : Request α),
      assembler.answer schedule request = assembler.answer ⟨schedule.tree, fun _ => {}⟩ request :=
  ⟨fun assembly workspace cell => assembly.processFitted_congr workspace {} cell,
    fun assembler requests => assembler.answers_eq_fresh requests,
    fun assembler schedule request =>
      assembler.answer_congr schedule.tree schedule.workspace (fun _ => {}) request⟩

end FiniteElement
