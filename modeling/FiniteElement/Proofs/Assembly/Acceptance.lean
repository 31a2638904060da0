import Mathlib
import FiniteElement.Assembly.Request
import FiniteElement.Proofs.Assembly.Fitting

/-! # Acceptance of a request

The check of a form, a mesh and coefficients passes exactly for what it looks
at: the numbers of arguments, coefficients and dof maps, the dimensions, and the
lengths of the coefficients. Where it does not pass it ends in a report, and
nothing else comes of the request.
-/

namespace FiniteElement

/-! ## Reports -/

namespace Failure

variable {β γ : Type}

/-- A computation that comes to a value or a report, but to no fault. -/
def Faultless (result : Except Failure β) : Prop := ∀ fault, result ≠ .error (.fault fault)

theorem faultless_ok (value : β) : Faultless (.ok value : Except Failure β) := by
  intro fault h
  cases h

theorem faultless_lift {result : Except Fault β} {value : β} (h : result = .ok value) :
    Faultless (lift result) := by
  rw [h]
  exact faultless_ok value

theorem faultless_ensure (condition : Bool) (error : AssemblyError) :
    Faultless (ensure condition error) := by
  intro fault h
  cases condition <;> cases h

theorem Faultless.bind {result : Except Failure β} {next : β → Except Failure γ}
    (h : Faultless result) (hnext : ∀ value, result = .ok value → Faultless (next value)) :
    Faultless (result >>= next) := by
  cases result with
  | error failure =>
      intro fault hfault
      cases hfault
      exact h fault rfl
  | ok value => exact hnext value rfl

theorem faultless_forM {check : β → Except Failure Unit} {xs : List β}
    (h : ∀ x ∈ xs, Faultless (check x)) : Faultless (xs.forM check) := by
  induction xs with
  | nil => exact faultless_ok ()
  | cons x xs ih =>
      have hrest := ih fun other hother => h other (List.mem_cons_of_mem _ hother)
      exact (h x List.mem_cons_self).bind fun _ _ => hrest

/-- What does not pass and has no fault ends in a report. -/
theorem Faultless.exists_rejected {result : Except Failure β} (h : Faultless result)
    (hfail : ∀ value, result ≠ .ok value) : ∃ error, result = .error (.rejected error) := by
  cases result with
  | ok value => exact absurd rfl (hfail value)
  | error failure =>
      cases failure with
      | fault fault => exact absurd rfl (h fault)
      | rejected error => exact ⟨error, rfl⟩

end Failure

/-! ## The check -/

namespace Form

variable {α : Type} {form : Form α} {mesh : Mesh α} {coefficients : List (Array α)} {rank : Nat}

theorem checkDescription_eq_ok_iff {count : Nat} {value : Unit}
    (hcount : form.rank + form.numCoefficients < Index.bound) :
    form.checkDescription rank count = .ok value ↔ form.rank = rank ∧
      form.dofMaps.length = form.rank + form.numCoefficients ∧ count = form.numCoefficients := by
  have hadd : Index.add form.rank form.numCoefficients =
      .ok (form.rank + form.numCoefficients) := Index.guard_of_lt hcount
  simp only [checkDescription, hadd, Failure.lift, Except.mapError, Checked.ok_bind,
    Checked.bind_eq_ok_iff, Failure.ensure_eq_ok_iff, decide_eq_true_eq, exists_const]

theorem faultless_checkDescription (count : Nat)
    (hcount : form.rank + form.numCoefficients < Index.bound) :
    Failure.Faultless (form.checkDescription rank count) := by
  have hadd : Index.add form.rank form.numCoefficients =
      .ok (form.rank + form.numCoefficients) := Index.guard_of_lt hcount
  apply (Failure.faultless_ensure _ _).bind
  intro _ _
  apply (Failure.faultless_lift hadd).bind
  intro _ _
  apply (Failure.faultless_ensure _ _).bind
  intro _ _
  exact Failure.faultless_ensure _ _

theorem checkCells_eq_ok_iff {value : Unit} :
    form.checkCells mesh = .ok value ↔ mesh.geometricDimension = mesh.dimension ∧
      ∀ map ∈ form.dofMaps, map.dimension = mesh.dimension := by
  simp only [checkCells, Checked.bind_eq_ok_iff, Checked.forM_eq_ok_iff,
    Failure.ensure_eq_ok_iff, decide_eq_true_eq, exists_const]

theorem faultless_checkCells (form : Form α) (mesh : Mesh α) :
    Failure.Faultless (form.checkCells mesh) := by
  apply (Failure.faultless_ensure _ _).bind
  intro _ _
  exact Failure.faultless_forM fun map _ => Failure.faultless_ensure _ _

/-- A form with a dof map that reports another dimension than that of the mesh is rejected. -/
theorem exists_checkFit_eq_rejected (hcount : form.rank + form.numCoefficients < Index.bound)
    (h : form.checkCells mesh ≠ .ok ()) :
    ∃ error, form.checkFit rank mesh coefficients = .error (.rejected error) := by
  have hfaultless : Failure.Faultless (form.checkDescription rank coefficients.length >>=
      fun _ => form.checkCells mesh) :=
    (form.faultless_checkDescription _ hcount).bind fun _ _ => form.faultless_checkCells mesh
  have hfail : ∀ value, (form.checkDescription rank coefficients.length >>=
      fun _ => form.checkCells mesh) ≠ .ok value := by
    intro value hvalue
    obtain ⟨_, -, hcells⟩ := Checked.bind_eq_ok_iff.mp hvalue
    exact h hcells
  obtain ⟨error, herror⟩ := hfaultless.exists_rejected hfail
  refine ⟨error, ?_⟩
  have hassoc : form.checkFit rank mesh coefficients =
      (form.checkDescription rank coefficients.length >>= fun _ => form.checkCells mesh) >>=
        fun _ => form.checkCoefficients mesh coefficients := by
    rw [bind_assoc]
    rfl
  rw [hassoc, herror]
  rfl

theorem checkCoefficients_eq_ok_iff (hle : form.rank ≤ form.dofMaps.length) {value : Unit} :
    form.checkCoefficients mesh coefficients = .ok value ↔
      ∀ pair ∈ coefficients.zip (form.dofMaps.drop form.rank),
        pair.2.globalDimension mesh.entityCounts = .ok pair.1.size := by
  refine ⟨checkCoefficients_eq_ok, ?_⟩
  intro h
  rw [checkCoefficients, coefficientMaps_of_le hle]
  refine Checked.forM_eq_ok_iff.mpr ?_
  rintro ⟨pair, index⟩ hmem
  have hlength := h pair (List.fst_mem_of_mem_zipIdx hmem)
  simp only [Checked.bind_eq_ok_iff, Failure.lift_eq_ok_iff, Failure.ensure_eq_ok_iff,
    decide_eq_true_eq]
  exact ⟨_, hlength, rfl⟩

theorem faultless_checkCoefficients (hle : form.rank ≤ form.dofMaps.length)
    (hmaps : ∀ map ∈ form.dofMaps, ∃ n, map.globalDimension mesh.entityCounts = .ok n)
    (coefficients : List (Array α)) :
    Failure.Faultless (form.checkCoefficients mesh coefficients) := by
  apply (Failure.faultless_lift (coefficientMaps_of_le hle)).bind
  intro maps heq
  have hdrop : form.dofMaps.drop form.rank = maps :=
    (coefficientMaps_eq_ok (Failure.lift_eq_ok_iff.mp heq)).symm
  apply Failure.faultless_forM
  rintro ⟨⟨values, map⟩, index⟩ hmem
  have hmap : map ∈ maps := (List.of_mem_zip (List.fst_mem_of_mem_zipIdx hmem)).2
  rw [← hdrop] at hmap
  obtain ⟨n, hn⟩ := hmaps map (List.mem_of_mem_drop hmap)
  apply (Failure.faultless_lift hn).bind
  intro _ _
  exact Failure.faultless_ensure _ _

end Form

/-! ## Answers -/

variable {α : Type} {failure : Failure}

namespace Request

variable {request : Request α}

/-- All that the check asks of a request. -/
structure Accepted (request : Request α) : Prop where
  rank : request.form.rank = request.kind.rank
  dofMaps : request.form.dofMaps.length = request.form.rank + request.form.numCoefficients
  coefficients : request.coefficients.length = request.form.numCoefficients
  volumetric : request.mesh.geometricDimension = request.mesh.dimension
  dimensions : ∀ map ∈ request.form.dofMaps, map.dimension = request.mesh.dimension
  lengths : ∀ pair ∈ request.coefficients.zip (request.form.dofMaps.drop request.form.rank),
    pair.2.globalDimension request.mesh.entityCounts = .ok pair.1.size

theorem Accepted.rank_le (h : request.Accepted) :
    request.form.rank ≤ request.form.dofMaps.length := by
  have hlength := h.dofMaps
  omega

theorem checkFit_eq_ok_iff
    (hcount : request.form.rank + request.form.numCoefficients < Index.bound) :
    request.form.checkFit request.kind.rank request.mesh request.coefficients = .ok () ↔
      request.Accepted := by
  simp only [Form.checkFit, Checked.bind_eq_ok_iff, Form.checkDescription_eq_ok_iff hcount,
    Form.checkCells_eq_ok_iff]
  constructor
  · intro ⟨_, ⟨hrank, hmaps, hcoefficients⟩, _, ⟨hvolumetric, hdims⟩, hlengths⟩
    exact ⟨hrank, hmaps, hcoefficients, hvolumetric, hdims, Form.checkCoefficients_eq_ok hlengths⟩
  · intro h
    refine ⟨(), ⟨h.rank, h.dofMaps, h.coefficients⟩, (), ⟨h.volumetric, h.dimensions⟩, ?_⟩
    exact (Form.checkCoefficients_eq_ok_iff h.rank_le).mpr h.lengths

/-- A request with numbers in range is accepted or ends in a report. -/
theorem exists_checkFit_eq_rejected
    (hcount : request.form.rank + request.form.numCoefficients < Index.bound)
    (hmaps : ∀ map ∈ request.form.dofMaps, map.dimension = request.mesh.dimension →
      ∃ n, map.globalDimension request.mesh.entityCounts = .ok n) (h : ¬ request.Accepted) :
    ∃ error, request.form.checkFit request.kind.rank request.mesh request.coefficients =
      .error (.rejected error) := by
  have hfaultless : Failure.Faultless
      (request.form.checkFit request.kind.rank request.mesh request.coefficients) := by
    apply (request.form.faultless_checkDescription _ hcount).bind
    intro _ hdescription
    obtain ⟨-, hlength, -⟩ := (Form.checkDescription_eq_ok_iff hcount).mp hdescription
    apply (request.form.faultless_checkCells request.mesh).bind
    intro _ hcells
    obtain ⟨-, hdims⟩ := Form.checkCells_eq_ok_iff.mp hcells
    exact Form.faultless_checkCoefficients (by omega)
      (fun map hmap => hmaps map hmap (hdims map hmap)) _
  apply hfaultless.exists_rejected
  intro _ hvalue
  exact h ((checkFit_eq_ok_iff hcount).mp hvalue)

end Request

namespace Assembly

variable {assembly : Assembly α}

theorem prepare_eq_error {rank : Nat}
    (h : assembly.form.checkFit rank assembly.mesh assembly.coefficients = .error failure) :
    assembly.prepare rank = .error failure := by
  rw [prepare, h]
  rfl

variable [Scalar α]

theorem scalarJob_eq_error (h : assembly.prepare 0 = .error failure) :
    assembly.scalarJob = .error failure := by
  rw [scalarJob, h]
  rfl

theorem vectorJob_eq_error (h : assembly.prepare 1 = .error failure) :
    assembly.vectorJob = .error failure := by
  rw [vectorJob, h]
  rfl

theorem matrixJob_eq_error (h : assembly.prepare 2 = .error failure) :
    assembly.matrixJob = .error failure := by
  rw [matrixJob, h]
  rfl

end Assembly

variable [Scalar α] {request : Request α}

/-- Nothing but its failure comes of a request that does not pass the check. -/
theorem SerialAssembler.answer_eq_error (assembler : SerialAssembler α)
    (h : request.form.checkFit request.kind.rank request.mesh request.coefficients =
      .error failure) : (assembler.answer request).1 = ⟨[], .error failure⟩ := by
  obtain ⟨kind, form, mesh, coefficients⟩ := request
  have hprepare : (assembler.assembly form mesh coefficients).prepare kind.rank =
      .error failure := Assembly.prepare_eq_error h
  cases kind with
  | scalar =>
      rw [answer_scalar, assembleScalar, Assembly.scalarJob_eq_error hprepare]
      rfl
  | vector =>
      rw [answer_vector, assembleVector, Assembly.vectorJob_eq_error hprepare]
      rfl
  | matrix =>
      rw [answer_matrix, assembleMatrix, Assembly.matrixJob_eq_error hprepare]
      rfl

theorem ParallelAssembler.answer_eq_error (assembler : ParallelAssembler) (schedule : Schedule α)
    (h : request.form.checkFit request.kind.rank request.mesh request.coefficients =
      .error failure) : assembler.answer schedule request = ⟨[], .error failure⟩ := by
  obtain ⟨kind, form, mesh, coefficients⟩ := request
  have hprepare : (assembler.assembly form mesh coefficients).prepare kind.rank =
      .error failure := Assembly.prepare_eq_error h
  cases kind with
  | scalar => simp only [answer, assembleScalar, Assembly.scalarJob_eq_error hprepare, Outcome.map,
      Except.map]
  | vector => simp only [answer, assembleVector, Assembly.vectorJob_eq_error hprepare, Outcome.map,
      Except.map]
  | matrix => simp only [answer, assembleMatrix, Assembly.matrixJob_eq_error hprepare, Outcome.map,
      Except.map]

end FiniteElement
