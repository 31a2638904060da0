import Mathlib
import FiniteElement.Proofs.Assembly.Acceptance
import FiniteElement.Proofs.Assembly.Reuse

/-! # Cells that are not finite

Whether the element tensor of a cell is finite does not depend on what is made
of it. A policy therefore reports on the list of the cells of a walk that are
not finite: it warns of all of them, or stops at the first. Apart from this
report, a walk collects the same under every policy, and the reports of two
neighbouring tasks are joined like their collections.
-/

namespace FiniteElement

/-! ## Reports -/

/-- What a policy makes of the cells of a walk that are not finite, in the order of the walk. -/
def FinitenessPolicy.report : FinitenessPolicy → List Nat → Except AssemblyError (List Event)
  | .ignore, _ => .ok []
  | .warn, cells => .ok (cells.map .nonFinite)
  | .error, [] => .ok []
  | .error, cell :: _ => .error (.nonFinite cell)

theorem FinitenessPolicy.report_nil (policy : FinitenessPolicy) : policy.report [] = .ok [] := by
  cases policy <;> rfl

theorem FinitenessPolicy.exists_report {policy : FinitenessPolicy} {cells : List Nat}
    (h : policy = .error → cells = []) : ∃ logged, policy.report cells = .ok logged := by
  cases policy with
  | ignore => exact ⟨_, rfl⟩
  | warn => exact ⟨_, rfl⟩
  | error =>
      rw [h rfl]
      exact ⟨_, rfl⟩

/-- A policy looks at a cell as it reports on it. -/
theorem FinitenessPolicy.inspect_eq_report {α : Type} [Scalar α] (policy : FinitenessPolicy)
    (cell : Nat) (tensor : Array α) :
    policy.inspect cell tensor =
      policy.report (if tensor.all Scalar.isFinite then [] else [cell]) := by
  unfold inspect
  cases tensor.all Scalar.isFinite <;> cases policy <;> rfl

def Partial.reporting {σ : Type} (policy : FinitenessPolicy) (events : Array Event) (value : σ)
    (cells : List Nat) : Partial σ :=
  match policy.report cells with
  | .ok logged => ⟨.ok value, events ++ logged⟩
  | .error error => ⟨.error (.rejected error), events⟩

def Outcome.reporting {τ : Type} (policy : FinitenessPolicy) (start : Event) (result : τ)
    (later : List Event) (cells : List Nat) : Outcome τ :=
  match policy.report cells with
  | .ok logged => ⟨start :: (logged ++ later), .ok result⟩
  | .error error => ⟨[start], .error (.rejected error)⟩

theorem Outcome.result_reporting {τ : Type} {policy : FinitenessPolicy} {cells : List Nat}
    (start : Event) (result : τ) (later : List Event) (h : policy = .error → cells = []) :
    (reporting policy start result later cells).result = .ok result := by
  obtain ⟨logged, hlogged⟩ := FinitenessPolicy.exists_report h
  rw [reporting, hlogged]

theorem Outcome.map_reporting {τ ρ : Type} (f : τ → ρ) (policy : FinitenessPolicy) (start : Event)
    (result : τ) (later : List Event) (cells : List Nat) :
    (reporting policy start result later cells).map f =
      reporting policy start (f result) later cells := by
  rw [reporting, reporting]
  cases policy.report cells <;> rfl

namespace Partial

variable {σ : Type} {policy : FinitenessPolicy} {events : Array Event} {value : σ}
  {cells : List Nat}

theorem reporting_nil : reporting policy events value [] = ⟨.ok value, events⟩ := by
  rw [reporting, policy.report_nil]
  simp only [Array.appendList_nil]

theorem reporting_ignore : reporting .ignore events value cells = ⟨.ok value, events⟩ := by
  simp only [reporting, FinitenessPolicy.report, Array.appendList_nil]

theorem reporting_warn :
    reporting .warn events value cells = ⟨.ok value, events ++ cells.map Event.nonFinite⟩ := rfl

theorem reporting_error_cons {cell : Nat} : reporting .error events value (cell :: cells) =
    ⟨.error (.rejected (.nonFinite cell)), events⟩ := rfl

theorem value_reporting (events : Array Event) (value : σ)
    (h : policy = .error → cells = []) :
    (reporting policy events value cells).value = .ok value := by
  obtain ⟨logged, hlogged⟩ := FinitenessPolicy.exists_report h
  rw [reporting, hlogged]

/-- Neighbouring tasks report on the cells of the left one before those of the right one. -/
theorem join_reporting (combine : σ → σ → σ) (policy : FinitenessPolicy) (left right : σ)
    (cells cells' : List Nat) :
    join combine (reporting policy #[] left cells) (reporting policy #[] right cells') =
      reporting policy #[] (combine left right) (cells ++ cells') := by
  cases policy with
  | ignore => simp only [reporting_ignore, join, Array.append_empty]
  | warn => simp [reporting_warn, join]
  | error =>
      cases cells with
      | nil => cases cells' <;> simp [reporting_nil, reporting_error_cons, join]
      | cons cell cells =>
          cases cells' <;>
            simp only [reporting_nil, reporting_error_cons, join, List.cons_append,
              Array.append_empty]

/-- Two tasks come to no fault together only if neither does. -/
theorem faultless_of_join {combine : σ → σ → σ} {left right : Partial σ}
    (h : Failure.Faultless (join combine left right).value) :
    Failure.Faultless left.value ∧ Failure.Faultless right.value := by
  constructor
  · intro fault hleft
    apply h fault
    simp only [join, hleft]
  · intro fault hright
    cases hleft : left.value with
    | ok value =>
        apply h fault
        simp only [join, hleft, hright]
    | error failure =>
        cases failure with
        | fault first =>
            apply h first
            simp only [join, hleft]
        | rejected error =>
            apply h fault
            simp only [join, hleft, hright]

end Partial

theorem Failure.Faultless.exists_lift {β : Type} {result : Except Fault β}
    (h : Faultless (lift result)) : ∃ value, result = .ok value := by
  cases result with
  | error fault => exact absurd rfl (h fault)
  | ok value => exact ⟨value, rfl⟩

/-! ## Cells -/

variable {α σ τ : Type}

namespace Assembly

def withPolicy (assembly : Assembly α) (policy : FinitenessPolicy) : Assembly α :=
  { assembly with policy := policy }

@[simp] theorem form_withPolicy (assembly : Assembly α) (policy : FinitenessPolicy) :
    (assembly.withPolicy policy).form = assembly.form := rfl

@[simp] theorem mesh_withPolicy (assembly : Assembly α) (policy : FinitenessPolicy) :
    (assembly.withPolicy policy).mesh = assembly.mesh := rfl

variable [Scalar α]

/-- What a cell is computed to, in whichever workspace, before its tensor is looked at. -/
def computed (assembly : Assembly α) (cell : Nat) : Except Fault (Workspace α) := do
  let fitted ← ({} : Workspace α).fitTo assembly.form
  fitted.computeCell assembly.form assembly.mesh assembly.coefficients cell

def isNonFinite (assembly : Assembly α) (cell : Nat) : Bool :=
  match assembly.computed cell with
  | .error _ => false
  | .ok next => !next.tensor.all Scalar.isFinite

def gathered (assembly : Assembly α) (job : Job α σ τ) (collected : σ) (cells : List Nat) :
    Except Fault σ :=
  cells.foldlM (fun collected cell => do job.accumulate collected (← assembly.computed cell))
    collected

variable {assembly : Assembly α} {job : Job α σ τ}

theorem gathered_cons {collected : σ} {cell : Nat} {cells : List Nat} :
    assembly.gathered job collected (cell :: cells) = (do
      let next ← job.accumulate collected (← assembly.computed cell)
      assembly.gathered job next cells) := by
  rw [gathered, List.foldlM_cons, bind_assoc]
  rfl

/-- A walk that may stop early goes on from where it is stopped. -/
theorem exists_gathered_of_append {collected value : σ} {cells rest : List Nat}
    (h : assembly.gathered job collected (cells ++ rest) = .ok value) :
    ∃ first, assembly.gathered job collected cells = .ok first := by
  rw [gathered, List.foldlM_append, Checked.bind_eq_ok_iff] at h
  obtain ⟨first, hfirst, -⟩ := h
  exact ⟨first, hfirst⟩

theorem filter_isNonFinite_singleton {cell : Nat} {next : Workspace α}
    (h : assembly.computed cell = .ok next) :
    [cell].filter assembly.isNonFinite =
      if next.tensor.all Scalar.isFinite then [] else [cell] := by
  cases hfinite : next.tensor.all Scalar.isFinite <;> simp [isNonFinite, h, hfinite]

theorem processFitted_eq (assembly : Assembly α) (workspace : Workspace α) (cell : Nat) :
    assembly.processFitted workspace cell = (do
      let next ← Failure.lift (assembly.computed cell)
      let events ← (assembly.policy.inspect cell next.tensor).mapError .rejected
      return (next, events)) := by
  rw [assembly.processFitted_congr workspace {}, processFitted, computed]
  cases ({} : Workspace α).fitTo assembly.form <;> rfl

end Assembly

variable [Scalar α]

/-! ## Walks -/

namespace ParallelAssembler

variable {assembly : Assembly α} {job : Job α σ τ} {workspaces : Nat → Workspace α}
  {events : Array Event} {collected : σ} {cell : Nat}

theorem step_of_computed {policy : FinitenessPolicy} {next : Workspace α} {value : σ}
    (hcomputed : assembly.computed cell = .ok next)
    (haccumulate : job.accumulate collected next = .ok value) :
    step (assembly.withPolicy policy) job workspaces ⟨.ok collected, events⟩ cell =
      .reporting policy events value ([cell].filter assembly.isNonFinite) := by
  have hprocess := (assembly.withPolicy policy).processFitted_eq (workspaces cell) cell
  have hsame : (assembly.withPolicy policy).computed cell = .ok next := hcomputed
  rw [hsame, Assembly.processFitted] at hprocess
  simp only [step, hprocess]
  rw [Assembly.filter_isNonFinite_singleton hcomputed, Partial.reporting,
    ← policy.inspect_eq_report]
  simp only [Failure.lift, Except.mapError, Checked.ok_bind]
  cases hinspect : policy.inspect cell next.tensor with
  | error error => simp [Assembly.withPolicy, hinspect]
  | ok logged => simp [Assembly.withPolicy, hinspect, haccumulate]

theorem foldl_step_error (failure : Failure) (events : Array Event) (cells : List Nat) :
    cells.foldl (step assembly job workspaces) ⟨.error failure, events⟩ =
      ⟨.error failure, events⟩ := by
  induction cells with
  | nil => rfl
  | cons cell cells ih => exact ih

theorem value_step_ignore (start : Partial σ) (cell : Nat) :
    (step (assembly.withPolicy .ignore) job workspaces start cell).value =
      start.value >>= fun collected => Failure.lift (do
        job.accumulate collected (← assembly.computed cell)) := by
  obtain ⟨value, events⟩ := start
  cases value with
  | error failure => rfl
  | ok collected =>
      have hprocess := (assembly.withPolicy .ignore).processFitted_eq (workspaces cell) cell
      rw [Assembly.processFitted] at hprocess
      have hsame : (assembly.withPolicy .ignore).computed cell = assembly.computed cell := rfl
      rw [hsame] at hprocess
      simp only [step, hprocess, Checked.ok_bind]
      cases assembly.computed cell <;> rfl

/-- Going on from a report adds to it what is reported on the way. -/
theorem foldl_step_reporting {policy : FinitenessPolicy} {value : σ} {first rest cells : List Nat}
    (h : ∀ events, cells.foldl (step (assembly.withPolicy policy) job workspaces)
      ⟨.ok collected, events⟩ = .reporting policy events value rest) :
    cells.foldl (step (assembly.withPolicy policy) job workspaces)
        (.reporting policy events collected first) =
      .reporting policy events value (first ++ rest) := by
  cases policy with
  | ignore => rw [Partial.reporting_ignore, h, Partial.reporting_ignore, Partial.reporting_ignore]
  | warn =>
      rw [Partial.reporting_warn, h, Partial.reporting_warn, Partial.reporting_warn,
        List.map_append]
      simp [← Array.toList_inj]
  | error =>
      cases first with
      | nil => rw [Partial.reporting_nil, h, List.nil_append]
      | cons cell first =>
          rw [Partial.reporting_error_cons, foldl_step_error, List.cons_append,
            Partial.reporting_error_cons]

/-- Every policy collects the same from the cells of a walk and reports on those that are not
finite. -/
theorem foldl_step_eq_reporting (policy : FinitenessPolicy) (workspaces : Nat → Workspace α)
    (events : Array Event) {value : σ} {cells : List Nat}
    (h : assembly.gathered job collected cells = .ok value) :
    cells.foldl (step (assembly.withPolicy policy) job workspaces) ⟨.ok collected, events⟩ =
      .reporting policy events value (cells.filter assembly.isNonFinite) := by
  induction cells generalizing collected events with
  | nil =>
      cases h
      exact Partial.reporting_nil.symm
  | cons cell cells ih =>
      rw [Assembly.gathered_cons] at h
      obtain ⟨next, hcomputed, hrest⟩ := Checked.bind_eq_ok_iff.mp h
      obtain ⟨first, haccumulate, hgathered⟩ := Checked.bind_eq_ok_iff.mp hrest
      have happend : (cell :: cells).filter assembly.isNonFinite =
          [cell].filter assembly.isNonFinite ++ cells.filter assembly.isNonFinite := by
        rw [← List.filter_append, List.singleton_append]
      rw [List.foldl_cons, step_of_computed hcomputed haccumulate, happend]
      exact foldl_step_reporting fun events => ih events hgathered

/-- Where nothing is looked at, a walk comes to what is gathered or to a fault. -/
theorem value_foldl_ignore (cells : List Nat) (start : Partial σ) :
    (cells.foldl (step (assembly.withPolicy .ignore) job workspaces) start).value =
      start.value >>= fun collected => Failure.lift (assembly.gathered job collected cells) := by
  induction cells generalizing start with
  | nil =>
      cases hvalue : start.value <;> rw [List.foldl_nil, hvalue] <;> rfl
  | cons cell cells ih =>
      rw [List.foldl_cons, ih, value_step_ignore, bind_assoc]
      simp only [Assembly.gathered_cons, Failure.lift_bind, bind_assoc]

end ParallelAssembler
end FiniteElement
