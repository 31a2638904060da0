import Mathlib
import FiniteElement.Proofs.Assembly.Answers
import FiniteElement.Proofs.Assembly.Reports
import FiniteElement.Proofs.Samples

/-! # Policies of a serial assembler

A serial assembler that only warns comes to the tensor of one that does not
look, and logs the cells that are not finite between the start of the pass and
its end. One that stops comes to the same tensor if all cells are finite, and to
a report on the first that is not otherwise.
-/

namespace FiniteElement

variable {α σ τ : Type}

/-! ## Passes -/

namespace Pass

variable [Scalar α]

def outcome (pass : Pass α σ) : Partial σ := ⟨pass.value, pass.events⟩

variable {assembly : Assembly α} {job : Job α σ τ}

/-- A pass goes on like a task that fits its workspace before each cell. -/
theorem outcome_step (hfit : ∃ fitted, ({} : Workspace α).fitTo assembly.form = .ok fitted)
    {pass : Pass α σ} (h : pass.workspace.Fits assembly.form) (cell : Nat) :
    (step assembly job pass cell).outcome =
      ParallelAssembler.step assembly job (fun _ => {}) pass.outcome cell := by
  obtain ⟨fitted, hfitted⟩ := hfit
  obtain ⟨value, events, workspace⟩ := pass
  cases value with
  | error failure => rfl
  | ok collected =>
      have hsame := assembly.process_congr h (Workspace.fits_of_fitTo hfitted) cell
      have hlift : Failure.lift (.ok fitted) = (.ok fitted : Except Failure (Workspace α)) := rfl
      simp only [step, hsame, outcome, ParallelAssembler.step, hfitted, hlift, Checked.ok_bind]
      cases assembly.process fitted cell <;> rfl

theorem outcome_foldl (hfit : ∃ fitted, ({} : Workspace α).fitTo assembly.form = .ok fitted)
    (hcoefficients : assembly.HasCoefficients) (cells : List Nat) {pass : Pass α σ}
    (h : pass.workspace.Fits assembly.form) :
    (cells.foldl (step assembly job) pass).outcome =
      cells.foldl (ParallelAssembler.step assembly job fun _ => {}) pass.outcome := by
  induction cells generalizing pass with
  | nil => rfl
  | cons cell cells ih =>
      rw [List.foldl_cons, List.foldl_cons, ih (fits_step hcoefficients h cell),
        outcome_step hfit h]

end Pass

/-! ## Jobs -/

namespace SerialAssembler

variable [Scalar α] {assembly : Assembly α} {job : Job α σ τ} {room : Except Fault Nat}

/-- A job without faults: its collection can be started, all cells are gathered, and the collection
can be finished. -/
structure Completes (assembly : Assembly α) (job : Job α σ τ) (room : Except Fault Nat)
    (result : τ) : Prop where
  fits : ∃ fitted, ({} : Workspace α).fitTo assembly.form = .ok fitted
  gathers : ∃ start value, (do discard room; job.initial) = .ok start ∧
    assembly.gathered job start (List.range assembly.mesh.numCells) = .ok value ∧
    job.finish value = .ok result

/-- A pass over the cells goes like one task that walks them all. -/
theorem outcome_pass (assembly : Assembly α) (job : Job α σ τ) (room : Except Fault Nat)
    (hcoefficients : assembly.HasCoefficients)
    (hfit : ∃ fitted, ({} : Workspace α).fitTo assembly.form = .ok fitted)
    {fitted : Workspace α} (h : fitted.Fits assembly.form) :
    (pass assembly job room fitted).outcome =
      (List.range assembly.mesh.numCells).foldl (ParallelAssembler.step assembly job fun _ => {})
        ⟨Failure.lift (do discard room; job.initial), #[assembly.startEvent job false]⟩ :=
  Pass.outcome_foldl hfit hcoefficients _ h

theorem runJob_of_fitTo {assembler : SerialAssembler α} {fitted : Workspace α}
    (h : assembler.workspace.fitTo assembly.form = .ok fitted) :
    (assembler.runJob assembly job room).1 =
      ⟨(pass assembly job room fitted).outcome.events.toList,
        (pass assembly job room fitted).outcome.value >>= fun collected =>
          Failure.lift (job.finish collected)⟩ := by
  simp only [runJob, h]
  rfl

/-- A job that comes to no fault where nothing is looked at can be completed. -/
theorem exists_completes (hcoefficients : assembly.HasCoefficients) {assembler : SerialAssembler α}
    (h : Failure.Faultless (assembler.runJob (assembly.withPolicy .ignore) job room).1.result) :
    ∃ result, Completes assembly job room result := by
  cases hfitted : assembler.workspace.fitTo assembly.form with
  | error fault =>
      simp only [runJob, Assembly.form_withPolicy, hfitted] at h
      exact absurd rfl (h fault)
  | ok fitted =>
      have hfit := Workspace.exists_fitTo hfitted {}
      rw [← assembly.form_withPolicy .ignore] at hfitted
      rw [runJob_of_fitTo hfitted, outcome_pass (assembly.withPolicy .ignore) job room hcoefficients
        hfit (Workspace.fits_of_fitTo hfitted)] at h
      dsimp only at h
      rw [ParallelAssembler.value_foldl_ignore, ← Failure.lift_bind, ← Failure.lift_bind] at h
      obtain ⟨result, hresult⟩ := h.exists_lift
      obtain ⟨value, hgathered, hfinish⟩ := Checked.bind_eq_ok_iff.mp hresult
      obtain ⟨start, hstart, hcells⟩ := Checked.bind_eq_ok_iff.mp hgathered
      exact ⟨result, hfit, start, value, hstart, hcells, hfinish⟩

theorem Completes.runJob {result : τ} (h : Completes assembly job room result)
    (hcoefficients : assembly.HasCoefficients) (policy : FinitenessPolicy)
    (assembler : SerialAssembler α) :
    (assembler.runJob (assembly.withPolicy policy) job room).1 =
      .reporting policy (assembly.startEvent job false) result []
        ((List.range assembly.mesh.numCells).filter assembly.isNonFinite) := by
  obtain ⟨fitted, hfitted⟩ := h.fits
  obtain ⟨start, value, hstart, hcells, hfinish⟩ := h.gathers
  obtain ⟨own, hown⟩ := Workspace.exists_fitTo hfitted assembler.workspace
  rw [← assembly.form_withPolicy policy] at hown
  have hstarted : Failure.lift (do discard room; job.initial) = .ok start := by
    rw [hstart]
    rfl
  rw [runJob_of_fitTo hown, outcome_pass (assembly.withPolicy policy) job room hcoefficients h.fits
    (Workspace.fits_of_fitTo hown), hstarted, Assembly.mesh_withPolicy,
    ParallelAssembler.foldl_step_eq_reporting policy _ _ hcells, Partial.reporting,
    Outcome.reporting]
  cases policy.report ((List.range assembly.mesh.numCells).filter assembly.isNonFinite) with
  | error error => rfl
  | ok logged =>
      dsimp only
      rw [Checked.ok_bind, hfinish]
      simp only [Array.toList_appendList, Failure.lift, Except.mapError, List.append_nil]
      rfl

end SerialAssembler

/-! ## Requests -/

/-- How a request is carried out: a job, the words that a serial assembler sets aside for it, the
tensor that its result stands for, and what a serial assembler logs about the result. -/
structure Plan (α : Type) where
  {σ τ : Type}
  job : Job α σ τ
  room : Except Fault Nat
  tensor : τ → Tensor α
  closing : τ → List Event
  level_closing : ∀ result, ∀ event ∈ closing result, event.level = "DEBUG"

namespace Plan

def scalar (job : Job α α α) : Plan α := ⟨job, .ok 0, .scalar, fun _ => [], by simp⟩

def vector (job : Job α (Array α) (Array α)) : Plan α := ⟨job, .ok 0, .vector, fun _ => [], by simp⟩

def matrix (room : Except Fault Nat) (job : Job α (Array (Triplet α)) (SparseMatrix α)) : Plan α :=
  ⟨job, room, .matrix, fun matrix => [.completed matrix.numEntries], by simp [Event.level]⟩

def close (plan : Plan α) (outcome : Outcome plan.τ) : Outcome (Tensor α) :=
  match outcome.result with
  | .error failure => ⟨outcome.events, .error failure⟩
  | .ok result => ⟨outcome.events ++ plan.closing result, .ok (plan.tensor result)⟩

theorem faultless_of_close (plan : Plan α) {outcome : Outcome plan.τ}
    (h : Failure.Faultless (plan.close outcome).result) : Failure.Faultless outcome.result := by
  intro fault hfault
  apply h fault
  simp only [close, hfault]

theorem close_reporting (plan : Plan α) (policy : FinitenessPolicy) (start : Event)
    (result : plan.τ) (cells : List Nat) :
    plan.close (Outcome.reporting policy start result [] cells) =
      Outcome.reporting policy start (plan.tensor result) (plan.closing result) cells := by
  rw [Outcome.reporting, Outcome.reporting]
  cases policy.report cells with
  | error error => rfl
  | ok logged => simp only [close, List.append_nil, List.cons_append]

theorem close_of_quiet (plan : Plan α) (h : ∀ result, plan.closing result = [])
    (outcome : Outcome plan.τ) : plan.close outcome = outcome.map plan.tensor := by
  obtain ⟨events, result⟩ := outcome
  cases result with
  | error failure => rfl
  | ok result => simp only [close, h, List.append_nil, Outcome.map, Except.map]

theorem close_matrix (room : Except Fault Nat)
    (job : Job α (Array (Triplet α)) (SparseMatrix α)) (outcome : Outcome (SparseMatrix α)) :
    (matrix room job).close outcome =
      (SerialAssembler.withCompletion outcome).map Tensor.matrix := by
  obtain ⟨events, result⟩ := outcome
  cases result <;> rfl

end Plan

variable [Scalar α]

namespace Request

def plan (request : Request α) : Except Failure (Plan α) :=
  match request.kind with
  | .scalar => request.assembly.scalarJob.map Plan.scalar
  | .vector => request.assembly.vectorJob.map Plan.vector
  | .matrix => request.assembly.matrixJob.map
      (Plan.matrix (SerialAssembler.tripletRoom request.form request.mesh))

/-- The cells whose element tensors have entries that are no numbers, in increasing order. -/
def nonFiniteCells (request : Request α) : List Nat :=
  (List.range request.mesh.numCells).filter request.assembly.isNonFinite

def cellTensor (request : Request α) (cell : Nat) : Except Fault (Array α) :=
  (request.assembly.computed cell).map Workspace.tensor

theorem mem_nonFiniteCells {request : Request α} {cell : Nat} :
    cell ∈ request.nonFiniteCells ↔ cell < request.mesh.numCells ∧
      ∃ tensor, request.cellTensor cell = .ok tensor ∧
        ∃ entry ∈ tensor, Scalar.isFinite entry = false := by
  rw [nonFiniteCells, List.mem_filter, List.mem_range, Assembly.isNonFinite, cellTensor]
  cases request.assembly.computed cell with
  | error fault => simp [Except.map]
  | ok next => simp [Except.map, ← Array.all_toList]

theorem pairwise_nonFiniteCells (request : Request α) :
    request.nonFiniteCells.Pairwise (· < ·) :=
  List.pairwise_lt_range.filter _

theorem hasCoefficients_of_plan {request : Request α} {plan : Plan α}
    (h : request.plan = .ok plan) : request.assembly.HasCoefficients := by
  unfold Request.plan at h
  cases hkind : request.kind with
  | scalar =>
      cases hjob : request.assembly.scalarJob with
      | error failure => simp [hkind, hjob, Except.map] at h
      | ok job => exact Assembly.hasCoefficients_of_scalarJob hjob
  | vector =>
      cases hjob : request.assembly.vectorJob with
      | error failure => simp [hkind, hjob, Except.map] at h
      | ok job => exact Assembly.hasCoefficients_of_vectorJob hjob
  | matrix =>
      cases hjob : request.assembly.matrixJob with
      | error failure => simp [hkind, hjob, Except.map] at h
      | ok job => exact Assembly.hasCoefficients_of_matrixJob hjob

/-- A request that the check accepts is carried out, or its sizes are out of range. -/
theorem exists_plan {request : Request α}
    (h : request.form.checkFit request.kind.rank request.mesh request.coefficients = .ok ()) :
    (∃ plan, request.plan = .ok plan) ∨ ∃ fault, request.plan = .error (.fault fault) := by
  have hprepare : request.assembly.prepare request.kind.rank =
      Failure.lift (request.form.argumentSizes request.mesh) := by
    rw [Assembly.prepare]
    change (request.form.checkFit request.kind.rank request.mesh request.coefficients >>= _) = _
    rw [h]
    rfl
  unfold Request.plan
  cases hkind : request.kind with
  | scalar =>
      rw [hkind, TensorKind.rank] at hprepare
      rw [Assembly.scalarJob, hprepare]
      cases request.form.argumentSizes request.mesh with
      | error fault => exact Or.inr ⟨fault, rfl⟩
      | ok sizes => exact Or.inl ⟨_, rfl⟩
  | vector =>
      rw [hkind, TensorKind.rank] at hprepare
      rw [Assembly.vectorJob, hprepare]
      cases request.form.argumentSizes request.mesh with
      | error fault => exact Or.inr ⟨fault, rfl⟩
      | ok sizes =>
          cases sizes with
          | nil => exact Or.inr ⟨_, rfl⟩
          | cons size sizes => exact Or.inl ⟨_, rfl⟩
  | matrix =>
      rw [hkind, TensorKind.rank] at hprepare
      rw [Assembly.matrixJob, hprepare]
      cases request.form.argumentSizes request.mesh with
      | error fault => exact Or.inr ⟨fault, rfl⟩
      | ok sizes =>
          cases sizes with
          | nil => exact Or.inr ⟨_, rfl⟩
          | cons rows sizes =>
              cases sizes with
              | nil => exact Or.inr ⟨_, rfl⟩
              | cons columns sizes => exact Or.inl ⟨_, rfl⟩

end Request

/-- A serial assembler answers a request by running its job. -/
theorem SerialAssembler.answer_eq_close (assembler : SerialAssembler α) (request : Request α) :
    (assembler.answer request).1 =
      match request.plan with
      | .error failure => ⟨[], .error failure⟩
      | .ok plan => plan.close (assembler.runJob
          (request.assembly.withPolicy assembler.options.nonFinite) plan.job plan.room).1 := by
  obtain ⟨kind, form, mesh, coefficients⟩ := request
  cases kind with
  | scalar =>
      have hsame : (assembler.assembly form mesh coefficients).scalarJob =
          (Request.assembly ⟨.scalar, form, mesh, coefficients⟩).scalarJob := rfl
      simp only [answer_scalar, assembleScalar, hsame, Request.plan]
      cases (Request.assembly ⟨.scalar, form, mesh, coefficients⟩).scalarJob with
      | error failure => rfl
      | ok job => exact ((Plan.scalar job).close_of_quiet (fun _ => rfl) _).symm
  | vector =>
      have hsame : (assembler.assembly form mesh coefficients).vectorJob =
          (Request.assembly ⟨.vector, form, mesh, coefficients⟩).vectorJob := rfl
      simp only [answer_vector, assembleVector, hsame, Request.plan]
      cases (Request.assembly ⟨.vector, form, mesh, coefficients⟩).vectorJob with
      | error failure => rfl
      | ok job => exact ((Plan.vector job).close_of_quiet (fun _ => rfl) _).symm
  | matrix =>
      have hsame : (assembler.assembly form mesh coefficients).matrixJob =
          (Request.assembly ⟨.matrix, form, mesh, coefficients⟩).matrixJob := rfl
      simp only [answer_matrix, assembleMatrix, hsame, Request.plan]
      cases (Request.assembly ⟨.matrix, form, mesh, coefficients⟩).matrixJob with
      | error failure => rfl
      | ok job => exact (Plan.close_matrix (tripletRoom form mesh) job _).symm

/-- If a request comes to no fault where nothing is looked at, then every serial assembler comes to
the same tensor, up to what its policy reports on the cells that are not finite. -/
theorem SerialAssembler.exists_answer_eq_reporting {request : Request α}
    (haccepted : request.form.checkFit request.kind.rank request.mesh request.coefficients = .ok ())
    {assembler : SerialAssembler α} (hpolicy : assembler.options.nonFinite = .ignore)
    (hsafe : Failure.Faultless (assembler.answer request).1.result) :
    ∃ start later tensor, start.level = "DEBUG" ∧ (∀ event ∈ later, event.level = "DEBUG") ∧
      ∀ other : SerialAssembler α, (other.answer request).1 =
        .reporting other.options.nonFinite start tensor later request.nonFiniteCells := by
  rcases Request.exists_plan haccepted with ⟨plan, hplan⟩ | ⟨fault, hplan⟩
  · have hcoefficients := Request.hasCoefficients_of_plan hplan
    rw [answer_eq_close, hplan, hpolicy] at hsafe
    obtain ⟨result, hcompletes⟩ :=
      exists_completes hcoefficients (plan.faultless_of_close hsafe)
    refine ⟨request.assembly.startEvent plan.job false, plan.closing result, plan.tensor result,
      rfl, plan.level_closing result, ?_⟩
    intro other
    rw [answer_eq_close, hplan]
    dsimp only
    rw [hcompletes.runJob hcoefficients, plan.close_reporting]
    rfl
  · rw [answer_eq_close, hplan] at hsafe
    exact absurd rfl (hsafe fault)

def Outcome.warnings {τ : Type} (outcome : Outcome τ) : List Event :=
  outcome.events.filter fun event => event.level = "WARN"

theorem Outcome.warnings_reporting {τ : Type} {start : Event} {later : List Event}
    (hstart : start.level = "DEBUG") (hlater : ∀ event ∈ later, event.level = "DEBUG") (result : τ)
    (cells : List Nat) :
    (reporting .warn start result later cells).warnings = cells.map .nonFinite := by
  have hquiet : later.filter (fun event => event.level = "WARN") = [] := by
    rw [List.filter_eq_nil_iff]
    intro event hevent
    simp [hlater event hevent]
  have hloud : (cells.map Event.nonFinite).filter (fun event => event.level = "WARN") =
      cells.map Event.nonFinite := by
    rw [List.filter_eq_self]
    intro event hevent
    obtain ⟨cell, -, rfl⟩ := List.mem_map.mp hevent
    rfl
  simp only [reporting, FinitenessPolicy.report, warnings]
  rw [List.filter_cons_of_neg (by simp [hstart]), List.filter_append, hloud, hquiet,
    List.append_nil]

/-- Three serial assemblers, one for each policy, on a request that the check accepts and that comes
to no fault where nothing is looked at. That policy never fails, warning adds a warning for each
cell that is not finite between the first event and all later ones, and stopping comes to the same
or ends with the first such cell. -/
theorem SerialAssembler.policies_differ_in_reports
    (assembler : FinitenessPolicy → SerialAssembler α)
    (hpolicy : ∀ policy, (assembler policy).options.nonFinite = policy) (request : Request α)
    (haccepted : request.form.checkFit request.kind.rank request.mesh request.coefficients = .ok ())
    (hsafe : Failure.Faultless ((assembler .ignore).answer request).1.result) :
    (∀ cell, cell ∈ request.nonFiniteCells ↔ cell < request.mesh.numCells ∧
      ∃ tensor, request.cellTensor cell = .ok tensor ∧
        ∃ entry ∈ tensor, Scalar.isFinite entry = false) ∧
    request.nonFiniteCells.Pairwise (· < ·) ∧
    ∃ start later tensor, start.level = "DEBUG" ∧ (∀ event ∈ later, event.level = "DEBUG") ∧
      ((assembler .ignore).answer request).1 = ⟨start :: later, .ok tensor⟩ ∧
      ((assembler .warn).answer request).1 =
        ⟨start :: (request.nonFiniteCells.map .nonFinite ++ later), .ok tensor⟩ ∧
      ((assembler .warn).answer request).1.warnings = request.nonFiniteCells.map .nonFinite ∧
      (request.nonFiniteCells = [] →
        ((assembler .error).answer request).1 = ⟨start :: later, .ok tensor⟩) ∧
      (request.nonFiniteCells ≠ [] → ∃ cell,
        IsLeast {other | other ∈ request.nonFiniteCells} cell ∧
          ((assembler .error).answer request).1 =
            ⟨[start], .error (.rejected (.nonFinite cell))⟩) := by
  obtain ⟨start, later, tensor, hstart, hlater, hanswer⟩ :=
    exists_answer_eq_reporting haccepted (hpolicy .ignore) hsafe
  have hignore := hanswer (assembler .ignore)
  have hwarn := hanswer (assembler .warn)
  have herror := hanswer (assembler .error)
  rw [hpolicy] at hignore hwarn herror
  have hsorted := request.pairwise_nonFiniteCells
  refine ⟨fun _ => Request.mem_nonFiniteCells, hsorted, start, later, tensor, hstart, hlater,
    hignore, hwarn, ?_, ?_, ?_⟩
  · rw [hwarn]
    exact Outcome.warnings_reporting hstart hlater tensor _
  · intro hnone
    rw [herror, hnone]
    rfl
  · intro hsome
    obtain ⟨cell, rest, hcells⟩ := List.exists_cons_of_ne_nil hsome
    rw [hcells, List.pairwise_cons] at hsorted
    refine ⟨cell, ⟨?_, ?_⟩, ?_⟩
    · simp [hcells]
    · intro other hother
      have hmem : other ∈ request.nonFiniteCells := hother
      rw [hcells, List.mem_cons] at hmem
      rcases hmem with heq | hmem
      · exact heq.ge
      · exact (hsorted.1 other hmem).le
    · rw [herror, hcells]
      rfl

/-- The last two of three intervals have an undefined load. -/
theorem policies_differ_in_reports_on_three_intervals :
    let constants : LayoutMap (Option Rat) := LayoutMap.p0 .interval
    let form : Form (Option Rat) :=
      .probe "probe" 1 0 [.single constants] none [⟨1, 0, none⟩, ⟨2, 0, none⟩]
    let mesh : Mesh (Option Rat) := Sample.intervals ([0, 1, 2, 3].map some) 3
    let request : Request (Option Rat) := ⟨.vector, form, mesh, []⟩
    let assembler : FinitenessPolicy → SerialAssembler (Option Rat) :=
      fun policy => .fresh { nonFinite := policy }
    request.form.checkFit request.kind.rank request.mesh request.coefficients = .ok () ∧
      Failure.Faultless ((assembler .ignore).answer request).1.result ∧
      ((assembler .warn).answer request).1.warnings = [.nonFinite 1, .nonFinite 2] ∧
      ((assembler .error).answer request).1.result = .error (.rejected (.nonFinite 1)) := by
  intro constants form mesh request assembler
  have haccepted :
      request.form.checkFit request.kind.rank request.mesh request.coefficients = .ok () := by
    decide +kernel
  have hresult : ((assembler .ignore).assembleVector form mesh []).1.result =
      .ok #[some 1, none, none] := by
    decide +kernel
  have hsafe : Failure.Faultless ((assembler .ignore).answer request).1.result := by
    rw [SerialAssembler.answer_vector, Outcome.map, hresult]
    exact Failure.faultless_ok _
  have hcells : request.nonFiniteCells = [1, 2] := by
    decide +kernel
  obtain ⟨-, -, start, later, tensor, -, -, -, -, hwarnings, -, herror⟩ :=
    SerialAssembler.policies_differ_in_reports assembler (fun _ => rfl) request haccepted hsafe
  rw [hcells] at hwarnings herror
  obtain ⟨cell, hleast, hanswer⟩ := herror (by simp)
  have hcell : cell = 1 := by
    apply hleast.unique
    constructor <;> simp [lowerBounds]
  refine ⟨haccepted, hsafe, hwarnings, ?_⟩
  rw [hanswer, hcell]

end FiniteElement
