import Mathlib
import FiniteElement.Proofs.Assembly.Policies
import FiniteElement.Proofs.Samples

/-! # Tasks that stop early

A task may stop early once another task has failed. Its collection is then
incomplete, and so must be the answer: the failure of the other task is one of
the whole tree. Where no task fails none stops early, and all cells are in the
result. Under the policy that stops, a failure names a cell that is not finite,
though not always the first.
-/

namespace FiniteElement

/-! ## Whole tasks -/

namespace CellRange

def whole (range : CellRange) : CellRange := { range with stopAfter := none }

/-- A task that stops early has cells left. -/
theorem exists_walked_append (range : CellRange) : ∃ rest, range.walked ++ rest = range.cells := by
  rw [walked]
  cases range.stopAfter with
  | none => exact ⟨[], List.append_nil _⟩
  | some n => exact ⟨range.cells.drop n, List.take_append_drop n _⟩

theorem mem_cells_of_mem_walked {range : CellRange} {cell : Nat} (h : cell ∈ range.walked) :
    cell ∈ range.cells := by
  obtain ⟨rest, hrest⟩ := range.exists_walked_append
  rw [← hrest]
  exact List.mem_append_left rest h

end CellRange

namespace TaskTree

def whole : TaskTree → TaskTree
  | task range => task range.whole
  | split left right => split left.whole right.whole

theorem ranges_whole (tree : TaskTree) : tree.whole.ranges = tree.ranges.map CellRange.whole := by
  induction tree with
  | task range => rfl
  | split left right ihleft ihright =>
      rw [whole, ranges, ranges, ihleft, ihright, List.map_append]

theorem flatMap_walked_whole (tree : TaskTree) :
    tree.whole.ranges.flatMap CellRange.walked = tree.cells := by
  rw [ranges_whole, List.flatMap_map, cells]
  rfl

/-- Every cell that is walked is one of the tree. -/
theorem mem_cells_of_mem_walked {tree : TaskTree} {cell : Nat}
    (h : cell ∈ tree.ranges.flatMap CellRange.walked) : cell ∈ tree.cells := by
  obtain ⟨range, hrange, hcell⟩ := List.mem_flatMap.mp h
  exact List.mem_flatMap.mpr ⟨range, hrange, CellRange.mem_cells_of_mem_walked hcell⟩

theorem flatMap_walked_of_walked_eq {tree : TaskTree}
    (h : ∀ range ∈ tree.ranges, range.walked = range.cells) :
    tree.ranges.flatMap CellRange.walked = tree.cells :=
  List.flatMap_congr h

end TaskTree

variable {α σ τ : Type} [Scalar α]

/-! ## Trees of tasks -/

namespace ParallelAssembler

variable {assembly : Assembly α} {job : Job α σ τ} {workspaces : Nat → Workspace α}

/-- Tasks that walk all their cells come to the same as if none could stop early. -/
theorem runTree_whole {tree : TaskTree}
    (h : ∀ range ∈ tree.ranges, range.walked = range.cells) :
    runTree assembly job workspaces tree.whole = runTree assembly job workspaces tree := by
  induction tree with
  | task range =>
      have hwalked : range.whole.walked = range.walked := (h range List.mem_cons_self).symm
      rw [TaskTree.whole, runTree, runTree, runTask, runTask, hwalked]
  | split left right ihleft ihright =>
      rw [TaskTree.whole, runTree, runTree,
        ihleft fun range hrange => h range (List.mem_append_left _ hrange),
        ihright fun range hrange => h range (List.mem_append_right _ hrange)]

theorem runTask_eq_reporting (policy : FinitenessPolicy) {start value : σ} {range : CellRange}
    (hstart : job.initial = .ok start)
    (h : assembly.gathered job start range.walked = .ok value) :
    runTask (assembly.withPolicy policy) job workspaces range =
      .reporting policy #[] value (range.walked.filter assembly.isNonFinite) := by
  have hlift : Failure.lift job.initial = .ok start := Failure.lift_eq_ok_iff.mpr hstart
  rw [runTask, hlift, foldl_step_eq_reporting policy workspaces #[] h]

/-- Every policy collects the same from a tree of tasks and reports on the cells of all tasks from
left to right. -/
theorem exists_runTree_eq_reporting {start : σ} (hstart : job.initial = .ok start)
    (workspaces : Nat → Workspace α) (tree : TaskTree)
    (h : ∀ range ∈ tree.ranges, ∃ value, assembly.gathered job start range.walked = .ok value) :
    ∃ value, ∀ policy, runTree (assembly.withPolicy policy) job workspaces tree =
      .reporting policy #[] value
        ((tree.ranges.flatMap CellRange.walked).filter assembly.isNonFinite) := by
  induction tree with
  | task range =>
      obtain ⟨value, hvalue⟩ := h range List.mem_cons_self
      refine ⟨job.combine start value, fun policy => ?_⟩
      have hlift : Failure.lift job.initial = .ok start := Failure.lift_eq_ok_iff.mpr hstart
      have hempty : (⟨.ok start, #[]⟩ : Partial σ) = .reporting policy #[] start [] :=
        Partial.reporting_nil.symm
      rw [runTree, hlift, runTask_eq_reporting policy hstart hvalue, hempty,
        Partial.join_reporting, List.nil_append, TaskTree.ranges, List.flatMap_singleton]
  | split left right ihleft ihright =>
      obtain ⟨first, hfirst⟩ := ihleft fun range hrange => h range (List.mem_append_left _ hrange)
      obtain ⟨second, hsecond⟩ :=
        ihright fun range hrange => h range (List.mem_append_right _ hrange)
      refine ⟨job.combine first second, fun policy => ?_⟩
      rw [runTree, hfirst, hsecond, Partial.join_reporting, TaskTree.ranges, List.flatMap_append,
        List.filter_append]

/-- In a tree that comes to no fault where nothing is looked at, all tasks gather their cells. -/
theorem exists_gathered_of_faultless {tree : TaskTree}
    (h : Failure.Faultless (runTree (assembly.withPolicy .ignore) job workspaces tree).value) :
    ∃ start, job.initial = .ok start ∧
      ∀ range ∈ tree.ranges, ∃ value, assembly.gathered job start range.walked = .ok value := by
  induction tree with
  | task range =>
      obtain ⟨hinitial, htask⟩ := Partial.faultless_of_join h
      obtain ⟨start, hstart⟩ := hinitial.exists_lift
      have hlift : Failure.lift job.initial = .ok start := Failure.lift_eq_ok_iff.mpr hstart
      rw [runTask, value_foldl_ignore, hlift, Checked.ok_bind] at htask
      refine ⟨start, hstart, fun other hother => ?_⟩
      rw [List.mem_singleton.mp hother]
      exact htask.exists_lift
  | split left right ihleft ihright =>
      obtain ⟨hleft, hright⟩ := Partial.faultless_of_join h
      obtain ⟨start, hstart, hfirst⟩ := ihleft hleft
      obtain ⟨start', hstart', hsecond⟩ := ihright hright
      rw [hstart, Except.ok.injEq] at hstart'
      rw [← hstart'] at hsecond
      refine ⟨start, hstart, fun range hrange => ?_⟩
      rcases List.mem_append.mp hrange with hmem | hmem
      · exact hfirst range hmem
      · exact hsecond range hmem

end ParallelAssembler

/-! ## Answers -/

/-- A parallel assembler answers a request by running its job. -/
theorem ParallelAssembler.answer_eq_map (assembler : ParallelAssembler) (schedule : Schedule α)
    (request : Request α) :
    assembler.answer schedule request =
      match request.plan with
      | .error failure => ⟨[], .error failure⟩
      | .ok plan => (runJob schedule (request.assembly.withPolicy assembler.options.nonFinite)
          plan.job).map plan.tensor := by
  obtain ⟨kind, form, mesh, coefficients⟩ := request
  cases kind with
  | scalar =>
      have hsame : (assembler.assembly form mesh coefficients).scalarJob =
          (Request.assembly ⟨.scalar, form, mesh, coefficients⟩).scalarJob := rfl
      simp only [answer, assembleScalar, hsame, Request.plan]
      cases (Request.assembly ⟨.scalar, form, mesh, coefficients⟩).scalarJob <;> rfl
  | vector =>
      have hsame : (assembler.assembly form mesh coefficients).vectorJob =
          (Request.assembly ⟨.vector, form, mesh, coefficients⟩).vectorJob := rfl
      simp only [answer, assembleVector, hsame, Request.plan]
      cases (Request.assembly ⟨.vector, form, mesh, coefficients⟩).vectorJob <;> rfl
  | matrix =>
      have hsame : (assembler.assembly form mesh coefficients).matrixJob =
          (Request.assembly ⟨.matrix, form, mesh, coefficients⟩).matrixJob := rfl
      simp only [answer, assembleMatrix, hsame, Request.plan]
      cases (Request.assembly ⟨.matrix, form, mesh, coefficients⟩).matrixJob <;> rfl

namespace Request

def TaskFails (request : Request α) (policy : FinitenessPolicy) (workspaces : Nat → Workspace α)
    (range : CellRange) : Prop :=
  ∃ plan failure, request.plan = .ok plan ∧
    (ParallelAssembler.runTask (request.assembly.withPolicy policy) plan.job workspaces
      range).value = .error failure

/-- A task stops before its last cell only if some task fails. -/
def Allows (request : Request α) (policy : FinitenessPolicy) (schedule : Schedule α) : Prop :=
  ∀ range ∈ schedule.tree.ranges, range.walked ≠ range.cells →
    ∃ other ∈ schedule.tree.ranges, request.TaskFails policy schedule.workspace other

theorem Allows.walked_eq {request : Request α} {policy : FinitenessPolicy} {schedule : Schedule α}
    (h : request.Allows policy schedule)
    (hnone : ∀ range ∈ schedule.tree.ranges, ¬ request.TaskFails policy schedule.workspace range) :
    ∀ range ∈ schedule.tree.ranges, range.walked = range.cells := by
  intro range hrange
  by_contra hstop
  obtain ⟨other, hother, hfails⟩ := h range hrange hstop
  exact hnone other hother hfails

end Request

namespace ParallelAssembler

section Jobs

variable {assembly : Assembly α} {job : Job α σ τ} {schedule : Schedule α}
  {policy : FinitenessPolicy} {value : σ} {cells : List Nat}

theorem runJob_of_reporting {result : τ}
    (htree : runTree (assembly.withPolicy policy) job schedule.workspace schedule.tree =
      .reporting policy #[] value cells)
    (hfinish : job.finish value = .ok result) :
    runJob schedule (assembly.withPolicy policy) job =
      .reporting policy (assembly.startEvent job true) result [] cells := by
  rw [runJob, htree, Partial.reporting, Outcome.reporting]
  cases policy.report cells with
  | error error => rfl
  | ok logged =>
      dsimp only
      rw [Checked.ok_bind, hfinish]
      simp only [Array.toList_appendList, Failure.lift, Except.mapError, List.append_nil]
      rfl

theorem result_runJob_of_cons {cell : Nat}
    (htree : runTree (assembly.withPolicy .error) job schedule.workspace schedule.tree =
      .reporting .error #[] value (cell :: cells)) :
    (runJob schedule (assembly.withPolicy .error) job).result =
      .error (.rejected (.nonFinite cell)) := by
  rw [runJob, htree]
  rfl

end Jobs

/-- What a job comes to with whole tasks, if this is no fault where nothing is looked at. -/
theorem exists_runTree_whole {assembly : Assembly α} {job : Job α σ τ}
    {workspaces : Nat → Workspace α} {tree : TaskTree}
    (h : Failure.Faultless
      (runJob ⟨tree.whole, workspaces⟩ (assembly.withPolicy .ignore) job).result) :
    ∃ start value result, job.initial = .ok start ∧ job.finish value = .ok result ∧
      (∀ range ∈ tree.ranges, ∃ own, assembly.gathered job start range.cells = .ok own) ∧
      ∀ policy, runTree (assembly.withPolicy policy) job workspaces tree.whole =
        .reporting policy #[] value (tree.cells.filter assembly.isNonFinite) := by
  have htree : Failure.Faultless
      (runTree (assembly.withPolicy .ignore) job workspaces tree.whole).value := by
    intro fault hfault
    apply h fault
    simp only [runJob, hfault]
    rfl
  obtain ⟨start, hstart, hgathered⟩ := exists_gathered_of_faultless htree
  obtain ⟨value, hvalue⟩ := exists_runTree_eq_reporting hstart workspaces tree.whole hgathered
  rw [tree.flatMap_walked_whole] at hvalue
  have hfinish : Failure.Faultless (Failure.lift (job.finish value)) := by
    simp only [runJob, hvalue, Partial.reporting_ignore] at h
    exact h
  obtain ⟨result, hresult⟩ := hfinish.exists_lift
  refine ⟨start, value, result, hstart, hresult, ?_, hvalue⟩
  intro range hrange
  have hmem : range.whole ∈ tree.whole.ranges := by
    rw [tree.ranges_whole]
    exact List.mem_map_of_mem hrange
  exact hgathered range.whole hmem

section Answers

variable {request : Request α} {schedule : Schedule α}

section Planned

variable {plan : Plan α} {start : plan.σ} {other : ParallelAssembler}

/-- A task fails only at a cell that is not finite, under the policy that stops. -/
theorem not_taskFails (hplan : request.plan = .ok plan) (hstart : plan.job.initial = .ok start)
    {policy : FinitenessPolicy} {workspaces : Nat → Workspace α} {range : CellRange}
    (hgathered : ∃ own, request.assembly.gathered plan.job start range.walked = .ok own)
    (hfinite : policy = .error → range.walked.filter request.assembly.isNonFinite = []) :
    ¬ request.TaskFails policy workspaces range := by
  rintro ⟨plan', failure, hplan', hfails⟩
  rw [hplan, Except.ok.injEq] at hplan'
  subst hplan'
  obtain ⟨own, hown⟩ := hgathered
  rw [runTask_eq_reporting policy hstart hown, Partial.value_reporting #[] own hfinite] at hfails
  cases hfails

variable (hplan : request.plan = .ok plan) (hstart : plan.job.initial = .ok start)
  (hgathered : ∀ range ∈ schedule.tree.ranges, ∃ own,
    request.assembly.gathered plan.job start range.walked = .ok own)

include hplan hstart hgathered

/-- Where no cell on the way ends a task, no task stops early. -/
theorem answer_of_filter_eq_nil (hallows : request.Allows other.options.nonFinite schedule)
    (hfinite : other.options.nonFinite = .error → (schedule.tree.ranges.flatMap
      CellRange.walked).filter request.assembly.isNonFinite = []) :
    other.answer schedule request =
        other.answer ⟨schedule.tree.whole, schedule.workspace⟩ request ∧
      ∀ range ∈ schedule.tree.ranges, range.walked = range.cells := by
  have hnone : ∀ range ∈ schedule.tree.ranges,
      ¬ request.TaskFails other.options.nonFinite schedule.workspace range := by
    intro range hrange
    apply not_taskFails hplan hstart (hgathered range hrange)
    intro herror
    have hall := hfinite herror
    rw [List.filter_eq_nil_iff] at hall ⊢
    intro cell hcell
    exact hall cell (List.mem_flatMap.mpr ⟨range, hrange, hcell⟩)
  have heq := hallows.walked_eq hnone
  refine ⟨?_, heq⟩
  rw [answer_eq_map, answer_eq_map, hplan]
  simp only [runJob, runTree_whole heq]

/-- The first cell on the way that is not finite, counted from left to right, ends the answer. -/
theorem result_answer_of_filter_eq_cons (herror : other.options.nonFinite = .error) {cell : Nat}
    {rest : List Nat} (hlist : (schedule.tree.ranges.flatMap CellRange.walked).filter
      request.assembly.isNonFinite = cell :: rest) :
    (other.answer schedule request).result = .error (.rejected (.nonFinite cell)) := by
  obtain ⟨value, hvalue⟩ :=
    exists_runTree_eq_reporting hstart schedule.workspace schedule.tree hgathered
  have htree := hvalue .error
  rw [hlist] at htree
  rw [answer_eq_map, hplan, herror]
  dsimp only
  rw [Outcome.map, result_runJob_of_cons htree]
  rfl

end Planned

/-- If a request comes to no fault where nothing is looked at and no task stops early, then a
parallel assembler whose tasks stop early only after a failure comes to the answer of whole tasks,
or to a report on a cell that is not finite. -/
theorem exists_answer_whole
    (haccepted : request.form.checkFit request.kind.rank request.mesh request.coefficients = .ok ())
    (hcells : schedule.tree.cells = List.range request.mesh.numCells)
    {assembler : ParallelAssembler} (hpolicy : assembler.options.nonFinite = .ignore)
    (hsafe : Failure.Faultless
      (assembler.answer ⟨schedule.tree.whole, schedule.workspace⟩ request).result) :
    ∃ start tensor, start.level = "DEBUG" ∧
      (∀ other : ParallelAssembler, other.answer ⟨schedule.tree.whole, schedule.workspace⟩ request =
        .reporting other.options.nonFinite start tensor [] request.nonFiniteCells) ∧
      ∀ other : ParallelAssembler, request.Allows other.options.nonFinite schedule →
        (other.answer schedule request =
            other.answer ⟨schedule.tree.whole, schedule.workspace⟩ request ∧
          ∀ range ∈ schedule.tree.ranges, range.walked = range.cells) ∨
        (other.options.nonFinite = .error ∧ ∃ cell ∈ request.nonFiniteCells,
          (other.answer schedule request).result = .error (.rejected (.nonFinite cell))) := by
  rcases Request.exists_plan haccepted with ⟨plan, hplan⟩ | ⟨fault, hplan⟩
  · rw [answer_eq_map, hplan, hpolicy] at hsafe
    have hjob : Failure.Faultless (runJob ⟨schedule.tree.whole, schedule.workspace⟩
        (request.assembly.withPolicy .ignore) plan.job).result := by
      intro fault hfault
      apply hsafe fault
      simp only [Outcome.map, hfault]
      rfl
    obtain ⟨start, value, result, hstart, hfinish, hwhole, htree⟩ := exists_runTree_whole hjob
    have hgathered : ∀ range ∈ schedule.tree.ranges, ∃ own,
        request.assembly.gathered plan.job start range.walked = .ok own := by
      intro range hrange
      obtain ⟨rest, hrest⟩ := range.exists_walked_append
      obtain ⟨own, hown⟩ := hwhole range hrange
      rw [← hrest] at hown
      exact Assembly.exists_gathered_of_append hown
    rw [hcells] at htree
    refine ⟨request.assembly.startEvent plan.job true, plan.tensor result, rfl, ?_, ?_⟩
    · intro other
      rw [answer_eq_map, hplan]
      dsimp only
      rw [runJob_of_reporting (htree _) hfinish, Outcome.map_reporting]
      rfl
    · intro other hallows
      by_cases hfinite : other.options.nonFinite = .error → (schedule.tree.ranges.flatMap
          CellRange.walked).filter request.assembly.isNonFinite = []
      · exact Or.inl (answer_of_filter_eq_nil hplan hstart hgathered hallows hfinite)
      · rw [Classical.not_imp] at hfinite
        obtain ⟨herror, hsome⟩ := hfinite
        obtain ⟨cell, rest, hlist⟩ := List.exists_cons_of_ne_nil hsome
        have hmem : cell ∈ (schedule.tree.ranges.flatMap CellRange.walked).filter
            request.assembly.isNonFinite := by
          rw [hlist]
          exact List.mem_cons_self
        rw [List.mem_filter] at hmem
        refine Or.inr ⟨herror, cell, ?_,
          result_answer_of_filter_eq_cons hplan hstart hgathered herror hlist⟩
        rw [Request.nonFiniteCells, List.mem_filter, ← hcells]
        exact ⟨TaskTree.mem_cells_of_mem_walked hmem.1, hmem.2⟩
  · rw [answer_eq_map, hplan] at hsafe
    exact absurd rfl (hsafe fault)

end Answers

end ParallelAssembler

/-- Parallel assemblers, one for each policy, on a request that the check accepts and that comes
to no fault where nothing is looked at, for any split of the cells into tasks that stop early only
after a failure. Ignoring and warning come to the tensor of all cells, with one warning for each
cell that is not finite. Stopping comes to that tensor or to a report on a cell that is not finite,
the latter exactly if there is one; a serial assembler reports the same cell if it is the only
one. -/
theorem ParallelAssembler.policies_under_cancellation
    (assembler : FinitenessPolicy → ParallelAssembler)
    (hpolicy : ∀ policy, (assembler policy).options.nonFinite = policy) (request : Request α)
    (schedule : Schedule α) (hcells : schedule.tree.cells = List.range request.mesh.numCells)
    (haccepted : request.form.checkFit request.kind.rank request.mesh request.coefficients = .ok ())
    (hsafe : Failure.Faultless
      ((assembler .ignore).answer ⟨schedule.tree.whole, schedule.workspace⟩ request).result) :
    (∀ cell, cell ∈ request.nonFiniteCells ↔ cell < request.mesh.numCells ∧
      ∃ tensor, request.cellTensor cell = .ok tensor ∧
        ∃ entry ∈ tensor, Scalar.isFinite entry = false) ∧
    request.nonFiniteCells.Nodup ∧
    ∃ tensor,
      ((assembler .ignore).answer ⟨schedule.tree.whole, schedule.workspace⟩ request).result =
        .ok tensor ∧
      (∀ policy, policy ≠ .error → request.Allows policy schedule →
        ((assembler policy).answer schedule request).result = .ok tensor) ∧
      (request.Allows .warn schedule →
        ((assembler .warn).answer schedule request).warnings.Perm
          (request.nonFiniteCells.map .nonFinite)) ∧
      (request.Allows .error schedule →
        ((∃ failure, ((assembler .error).answer schedule request).result = .error failure) ↔
          ∃ cell, cell ∈ request.nonFiniteCells) ∧
        (∀ failure, ((assembler .error).answer schedule request).result = .error failure →
          ∃ cell ∈ request.nonFiniteCells, failure = .rejected (.nonFinite cell)) ∧
        (∀ other, ((assembler .error).answer schedule request).result = .ok other →
          other = tensor ∧
            schedule.tree.ranges.flatMap CellRange.walked = List.range request.mesh.numCells) ∧
        ∀ serial : FinitenessPolicy → SerialAssembler α,
          (∀ policy, (serial policy).options.nonFinite = policy) →
          Failure.Faultless ((serial .ignore).answer request).1.result →
          ∀ cell, request.nonFiniteCells = [cell] →
            ((assembler .error).answer schedule request).result =
              ((serial .error).answer request).1.result) := by
  obtain ⟨start, tensor, hstart, hwhole, hallowed⟩ :=
    exists_answer_whole haccepted hcells (hpolicy .ignore) hsafe
  refine ⟨fun _ => Request.mem_nonFiniteCells,
    request.pairwise_nonFiniteCells.imp fun hlt => hlt.ne, tensor, ?_, ?_, ?_, ?_⟩
  · rw [hwhole, hpolicy]
    rfl
  · intro policy hgoes hallows
    rw [← hpolicy policy] at hallows
    rcases hallowed (assembler policy) hallows with ⟨hsame, -⟩ | ⟨herror, -⟩
    · rw [hsame, hwhole, hpolicy]
      exact Outcome.result_reporting start tensor [] fun herror => absurd herror hgoes
    · rw [hpolicy] at herror
      exact absurd herror hgoes
  · intro hallows
    rw [← hpolicy .warn] at hallows
    rcases hallowed (assembler .warn) hallows with ⟨hsame, -⟩ | ⟨herror, -⟩
    · rw [hsame, hwhole, hpolicy, Outcome.warnings_reporting hstart (by simp)]
    · rw [hpolicy] at herror
      cases herror
  · intro hallows
    have hresult : (request.nonFiniteCells = [] ∧
          ((assembler .error).answer schedule request).result = .ok tensor ∧
          schedule.tree.ranges.flatMap CellRange.walked = List.range request.mesh.numCells) ∨
        ∃ cell ∈ request.nonFiniteCells,
          ((assembler .error).answer schedule request).result =
            .error (.rejected (.nonFinite cell)) := by
      rw [← hpolicy .error] at hallows
      rcases hallowed (assembler .error) hallows with ⟨hsame, hall⟩ | ⟨-, hfails⟩
      · rw [hsame, hwhole, hpolicy, TaskTree.flatMap_walked_of_walked_eq hall]
        cases hlist : request.nonFiniteCells with
        | nil => exact Or.inl ⟨rfl, rfl, hcells⟩
        | cons cell rest => exact Or.inr ⟨cell, List.mem_cons_self, rfl⟩
      · exact Or.inr hfails
    rcases hresult with ⟨hnone, hok, hall⟩ | ⟨cell, hcell, hfails⟩
    · rw [hok, hnone]
      refine ⟨?_, ?_, ?_, ?_⟩
      · simp
      · intro failure hfailure
        cases hfailure
      · intro other hother
        cases hother
        exact ⟨rfl, hall⟩
      · intro serial _ _ cell hcell
        cases hcell
    · rw [hfails]
      refine ⟨⟨fun _ => ⟨cell, hcell⟩, fun _ => ⟨_, rfl⟩⟩, ?_, ?_, ?_⟩
      · intro failure hfailure
        cases hfailure
        exact ⟨cell, hcell, rfl⟩
      · intro other hother
        cases hother
      · intro serial hserial hfaultless only hlist
        obtain ⟨start', later, tensor', -, -, hanswer⟩ :=
          SerialAssembler.exists_answer_eq_reporting haccepted (hserial .ignore) hfaultless
        rw [hlist, List.mem_singleton] at hcell
        rw [hanswer, hserial, hlist, hcell]
        rfl

/-- The last of three intervals has an undefined load; the task for the other two stops after the
first of them. -/
theorem policies_under_cancellation_on_three_intervals :
    let constants : LayoutMap (Option Rat) := LayoutMap.p0 .interval
    let form : Form (Option Rat) :=
      .probe "probe" 1 0 [.single constants] none [⟨2, 0, none⟩]
    let mesh : Mesh (Option Rat) := Sample.intervals ([0, 1, 2, 3].map some) 3
    let request : Request (Option Rat) := ⟨.vector, form, mesh, []⟩
    let schedule : Schedule (Option Rat) :=
      ⟨.split (.task ⟨0, 2, some 1⟩) (.task ⟨2, 1, none⟩), fun _ => {}⟩
    let serial : FinitenessPolicy → SerialAssembler (Option Rat) :=
      fun policy => .fresh { nonFinite := policy }
    let parallel : FinitenessPolicy → ParallelAssembler := fun policy => ⟨{ nonFinite := policy }⟩
    schedule.tree.cells = List.range request.mesh.numCells ∧
      request.form.checkFit request.kind.rank request.mesh request.coefficients = .ok () ∧
      Failure.Faultless
        ((parallel .ignore).answer ⟨schedule.tree.whole, schedule.workspace⟩ request).result ∧
      request.Allows .error schedule ∧
      (∃ failure, ((parallel .error).answer schedule request).result = .error failure) ∧
      ((parallel .error).answer schedule request).result =
        ((serial .error).answer request).1.result := by
  intro constants form mesh request schedule serial parallel
  have hcells : schedule.tree.cells = List.range request.mesh.numCells := by
    decide
  have haccepted :
      request.form.checkFit request.kind.rank request.mesh request.coefficients = .ok () := by
    decide +kernel
  have hparallel : ((parallel .ignore).assembleVector
      ⟨schedule.tree.whole, schedule.workspace⟩ form mesh []).result =
        .ok #[some 1, some 101, none] := by
    decide +kernel
  have hserial : ((serial .ignore).assembleVector form mesh []).1.result =
      .ok #[some 1, some 101, none] := by
    decide +kernel
  have hsafe : Failure.Faultless
      ((parallel .ignore).answer ⟨schedule.tree.whole, schedule.workspace⟩ request).result := by
    simp only [ParallelAssembler.answer, request, Outcome.map, hparallel]
    exact Failure.faultless_ok _
  have hfaultless : Failure.Faultless ((serial .ignore).answer request).1.result := by
    rw [SerialAssembler.answer_vector, Outcome.map, hserial]
    exact Failure.faultless_ok _
  have hfails : (ParallelAssembler.runTask (request.assembly.withPolicy .error) (Job.vector 3)
      schedule.workspace ⟨2, 1, none⟩).value = .error (.rejected (.nonFinite 2)) := by
    decide +kernel
  have hallows : request.Allows .error schedule :=
    fun _ _ _ => ⟨⟨2, 1, none⟩, List.mem_cons_of_mem _ List.mem_cons_self, _, _, rfl, hfails⟩
  have honly : request.nonFiniteCells = [2] := by
    decide +kernel
  obtain ⟨-, -, tensor, -, -, -, herror⟩ := ParallelAssembler.policies_under_cancellation parallel
    (fun _ => rfl) request schedule hcells haccepted hsafe
  obtain ⟨hiff, -, -, hsame⟩ := herror hallows
  refine ⟨hcells, haccepted, hsafe, hallows, hiff.mpr ⟨2, ?_⟩, ?_⟩
  · rw [honly]
    exact List.mem_cons_self
  · exact hsame serial (fun _ => rfl) hfaultless 2 honly

end FiniteElement
