import Mathlib
import FiniteElement.Form.Probe
import FiniteElement.Proofs.Assembly.Triplets
import FiniteElement.Proofs.Mesh.WellFormed
import FiniteElement.Proofs.Samples

/-! # Parallel assembly of matrices

A parallel assembler collects the very triplets of the serial one, in their
order, however the cells are split into tasks and whichever buffers the workers
have at hand. The serial assembler alone sizes its buffers before the first cell
and sets aside room for all triplets, which can fail where no cell does.
-/

namespace FiniteElement

variable {α : Type} [Scalar α]

/-- Joined triplets make the matrix of a parallel assembly. -/
theorem ParallelAssembler.result_assembleMatrix {assembler : ParallelAssembler}
    {schedule : Schedule α} {form : Form α} {mesh : Mesh α} {coefficients : List (Array α)}
    {job : Job α (Array (Triplet α)) (SparseMatrix α)}
    (hjob : (assembler.assembly form mesh coefficients).matrixJob = .ok job)
    {triplets : Array (Triplet α)}
    (htree : (runTree (assembler.assembly form mesh coefficients) job schedule.workspace
      schedule.tree).value = .ok triplets) :
    (assembler.assembleMatrix schedule form mesh coefficients).result =
      Failure.lift (job.finish triplets) := by
  simp only [assembleMatrix, hjob, runJob, htree, Checked.ok_bind]

/-- Both assemblers collect the triplets of the cells in order. -/
theorem exists_collected {assembly : Assembly α} {job : Job α (Array (Triplet α)) (SparseMatrix α)}
    (hjob : assembly.matrixJob = .ok job) {tree : TaskTree}
    (htree : tree.Covers assembly.mesh.numCells)
    (hcells : ∀ cell < assembly.mesh.numCells, ∃ triplets,
      assembly.cellTriplets cell = .ok triplets)
    {workspace fitted : Workspace α} (hfit : workspace.fitTo assembly.form = .ok fitted)
    {room : Except Fault Nat} {words : Nat} (hroom : room = .ok words)
    (workspaces : Nat → Workspace α) :
    ∃ triplets : Array (Triplet α),
      (SerialAssembler.pass assembly job room fitted).value = .ok triplets ∧
      (ParallelAssembler.runTree assembly job workspaces tree).value = .ok triplets := by
  choose! own hown using hcells
  obtain ⟨numRows, numCols, heq⟩ := Assembly.exists_matrixJob_eq hjob
  obtain ⟨fresh, hfresh⟩ := Workspace.exists_fitTo hfit {}
  have hcoefficients := Assembly.hasCoefficients_of_matrixJob hjob
  have hserial := SerialAssembler.value_pass_matrix numRows numCols hcoefficients
    (Workspace.fits_of_fitTo hfit) hroom hown
  have hwalked : ∀ cell ∈ tree.ranges.flatMap CellRange.walked,
      assembly.cellTriplets cell = .ok (own cell) := by
    rw [htree.walked]
    intro cell hcell
    exact hown cell (List.mem_range.mp hcell)
  have hparallel := ParallelAssembler.value_runTree_matrix numRows numCols hfresh workspaces tree
    hwalked
  rw [htree.walked] at hparallel
  rw [heq]
  exact ⟨_, hserial, hparallel⟩

/-- If no cell fails and the serial assembler can size its buffers and its list of triplets, both
assemblers turn the same triplets into the same matrix, for every split of the cells into tasks. -/
theorem parallel_assembleMatrix_eq_serial (serial : SerialAssembler α)
    (parallel : ParallelAssembler)
    (hpolicy : parallel.options.nonFinite = serial.options.nonFinite) (form : Form α)
    (mesh : Mesh α) (coefficients : List (Array α)) (schedule : Schedule α)
    (hcovers : schedule.tree.Covers mesh.numCells)
    (hcells : ∀ cell < mesh.numCells, ∃ triplets,
      (serial.assembly form mesh coefficients).cellTriplets cell = .ok triplets)
    (hfit : ∃ fitted, serial.workspace.fitTo form = .ok fitted)
    (hroom : ∃ words, SerialAssembler.tripletRoom form mesh = .ok words) :
    (parallel.assembleMatrix schedule form mesh coefficients).result =
        (serial.assembleMatrix form mesh coefficients).1.result ∧
      (∀ job fitted, (serial.assembly form mesh coefficients).matrixJob = .ok job →
        serial.workspace.fitTo form = .ok fitted →
        ∃ triplets : Array (Triplet α),
          (SerialAssembler.pass (serial.assembly form mesh coefficients) job
            (SerialAssembler.tripletRoom form mesh) fitted).value = .ok triplets ∧
          (ParallelAssembler.runTree (parallel.assembly form mesh coefficients) job
            schedule.workspace schedule.tree).value = .ok triplets) ∧
      (parallel.schedule mesh).tree.Covers mesh.numCells := by
  have hsame : parallel.assembly form mesh coefficients =
      serial.assembly form mesh coefficients := by
    rw [ParallelAssembler.assembly, SerialAssembler.assembly, hpolicy]
  obtain ⟨fitted, hfitted⟩ := hfit
  obtain ⟨words, hwords⟩ := hroom
  refine ⟨?_, ?_, parallel.covers_schedule mesh⟩
  · cases hjob : (serial.assembly form mesh coefficients).matrixJob with
    | error failure =>
      rw [ParallelAssembler.assembleMatrix, SerialAssembler.assembleMatrix, hsame]
      simp only [hjob]
    | ok job =>
      obtain ⟨triplets, hserial, hparallel⟩ :=
        exists_collected hjob hcovers hcells hfitted hwords schedule.workspace
      rw [SerialAssembler.result_assembleMatrix hjob hfitted hserial]
      rw [← hsame] at hjob hparallel
      exact ParallelAssembler.result_assembleMatrix hjob hparallel
  · intro job fitted' hjob hfitted'
    rw [hsame, hwords]
    exact exists_collected hjob hcovers hcells hfitted' rfl schedule.workspace

/-- Two intervals in a serial and a parallel run, the latter with one task for each. -/
theorem parallel_assembleMatrix_eq_serial_of_two_intervals :
    let corners : LayoutMap Rat := LayoutMap.p1 .interval
    let form : Form Rat := .probe "probe" 2 0 [.single corners, .single corners] none []
    let mesh : Mesh Rat := Sample.intervals [0, 1, 2] 2
    let schedule : Schedule Rat := ⟨.split (.task ⟨0, 1, none⟩) (.task ⟨1, 1, none⟩), fun _ => {}⟩
    let serial : SerialAssembler Rat := .fresh {}
    let parallel : ParallelAssembler := ⟨{}⟩
    (∃ words, SerialAssembler.tripletRoom form mesh = .ok words) ∧
      (parallel.assembleMatrix schedule form mesh []).result =
        (serial.assembleMatrix form mesh []).1.result := by
  intro corners form mesh schedule serial parallel
  have hcells : ∀ cell < mesh.numCells, ∃ triplets,
      (serial.assembly form mesh []).cellTriplets cell = .ok triplets := by
    have hfirst : (serial.assembly form mesh []).cellTriplets 0 =
        .ok [⟨0, 0, 1⟩, ⟨0, 1, 2⟩, ⟨1, 0, 3⟩, ⟨1, 1, 4⟩] := by
      decide +kernel
    have hsecond : (serial.assembly form mesh []).cellTriplets 1 =
        .ok [⟨1, 1, 101⟩, ⟨1, 2, 102⟩, ⟨2, 1, 103⟩, ⟨2, 2, 104⟩] := by
      decide +kernel
    intro cell hcell
    have hcases : cell = 0 ∨ cell = 1 := by
      have hlt : cell < 2 := hcell
      omega
    rcases hcases with heq | heq
    · exact ⟨_, heq ▸ hfirst⟩
    · exact ⟨_, heq ▸ hsecond⟩
  have hcovers : schedule.tree.Covers mesh.numCells := by
    refine ⟨?_, rfl⟩
    decide
  have hroom : ∃ words, SerialAssembler.tripletRoom form mesh = .ok words := ⟨24, rfl⟩
  exact ⟨hroom, (parallel_assembleMatrix_eq_serial serial parallel rfl form mesh [] schedule
    hcovers hcells ⟨_, rfl⟩ hroom).1⟩

/-- On a mesh without cells the parallel assembler returns the empty matrix of a form whose buffers
the serial assembler cannot size. -/
theorem assemblers_differ_without_cells :
    let wide := Sample.inside (2 ^ 60) (by decide)
    let form : Form Rat := .probe "wide" 2 0 [.single wide, .single wide] none []
    let mesh : Mesh Rat := Sample.intervals [] 0
    let serial : SerialAssembler Rat := .fresh {}
    let parallel : ParallelAssembler := ⟨{}⟩
    Mesh.ofData ⟨.interval, 1, #[], #[]⟩ = .ok mesh ∧
      (∀ cell < mesh.numCells, ∃ triplets,
        (serial.assembly form mesh []).cellTriplets cell = .ok triplets) ∧
      (parallel.schedule mesh).tree.Covers mesh.numCells ∧
      (serial.assembleMatrix form mesh []).1.result = .error (.fault .tooManyEntries) ∧
      (parallel.assembleMatrix (parallel.schedule mesh) form mesh []).result =
        .ok (.empty 0 0) := by
  intro wide form mesh serial parallel
  have hdata : Mesh.ofData ⟨.interval, 1, #[], #[]⟩ = .ok mesh :=
    Sample.ofData_intervals [] 0 (Nat.le_refl 0)
  refine ⟨hdata, ?_, parallel.covers_schedule mesh, by decide +kernel, ?_⟩
  · intro cell hcell
    exact absurd hcell (Nat.not_lt_zero cell)
  · have hschedule : parallel.schedule mesh = ⟨.task ⟨0, 0, none⟩, fun _ => {}⟩ := by
      rw [ParallelAssembler.schedule, TaskTree.balanced, if_neg (by decide)]
      rfl
    rw [hschedule]
    rfl

end FiniteElement
