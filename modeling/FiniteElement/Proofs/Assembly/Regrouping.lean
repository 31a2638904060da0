import Mathlib
import FiniteElement.Catalogue
import FiniteElement.Form.Probe
import FiniteElement.Proofs.Assembly.Reuse
import FiniteElement.Proofs.Assembly.VectorEntries
import FiniteElement.Proofs.Samples

/-! # Regrouping of sums

Where addition is associative with zero as its neutral element, adding a cell to
a sum is the same as joining to it what the cell gives alone. A serial pass and
every tree of tasks then come to the same sum over the cells in order, although
a tree starts from zero in each task and once more wherever it joins a task.
-/

namespace FiniteElement

/-- Addition is associative and zero is its neutral element, as in exact arithmetic. -/
structure Scalar.AddsExactly (α : Type) [Scalar α] : Prop where
  add_assoc : ∀ a b c : α, a + b + c = a + (b + c)
  zero_add : ∀ a : α, Scalar.zero + a = a
  add_zero : ∀ a : α, a + Scalar.zero = a

theorem Scalar.addsExactly_rat : Scalar.AddsExactly Rat where
  add_assoc := Rat.add_assoc
  zero_add := Rat.zero_add
  add_zero := Rat.add_zero

variable {α σ τ : Type}

/-- Joining is how the job adds up: on collections with the invariant it is associative, the initial
collection is its neutral element, and a cell that is added to the second of two collections is
added to their join. -/
structure Job.Additive (job : Job α σ τ) (start : σ) (Inv : σ → Prop) : Prop where
  initial : job.initial = .ok start
  inv_start : Inv start
  inv_combine : ∀ a b, Inv a → Inv b → Inv (job.combine a b)
  inv_accumulate : ∀ a workspace next, Inv a → job.accumulate a workspace = .ok next → Inv next
  start_combine : ∀ a, Inv a → job.combine start a = a
  combine_start : ∀ a, Inv a → job.combine a start = a
  combine_assoc : ∀ a b c, Inv a → Inv b → Inv c →
    job.combine (job.combine a b) c = job.combine a (job.combine b c)
  accumulate_combine : ∀ a b workspace, Inv a → Inv b →
    job.accumulate (job.combine a b) workspace = (job.accumulate b workspace).map (job.combine a)

variable [Scalar α]

/-! ## Scalars and vectors -/

namespace Job

theorem additive_scalar (hadd : Scalar.AddsExactly α) :
    (scalar : Job α α α).Additive Scalar.zero fun _ => True where
  initial := rfl
  inv_start := trivial
  inv_combine _ _ _ _ := trivial
  inv_accumulate _ _ _ _ _ := trivial
  start_combine a _ := hadd.zero_add a
  combine_start a _ := hadd.add_zero a
  combine_assoc a b c _ _ _ := hadd.add_assoc a b c
  accumulate_combine := by
    intro a b workspace _ _
    show (Index.slot workspace.tensor 0 >>= fun value => .ok (a + b + value)) =
      (Index.slot workspace.tensor 0 >>= fun value => .ok (b + value)).map (a + ·)
    rw [Checked.map_bind]
    simp only [hadd.add_assoc, Except.map]

section Vectors

variable {a b c : Array α}

theorem zipWith_add_assoc (hadd : Scalar.AddsExactly α) (a b c : Array α) :
    Array.zipWith (· + ·) (Array.zipWith (· + ·) a b) c =
      Array.zipWith (· + ·) a (Array.zipWith (· + ·) b c) := by
  apply Array.ext
  · simp only [Array.size_zipWith, Nat.min_assoc]
  · intro i hi hi'
    simp only [Array.getElem_zipWith, hadd.add_assoc]

theorem zipWith_zeros_add (hadd : Scalar.AddsExactly α) (a : Array α) :
    Array.zipWith (· + ·) (Array.replicate a.size Scalar.zero) a = a := by
  apply Array.ext
  · simp
  · intro i hi hi'
    simp only [Array.getElem_zipWith, Array.getElem_replicate, hadd.zero_add]

theorem zipWith_add_zeros (hadd : Scalar.AddsExactly α) (a : Array α) :
    Array.zipWith (· + ·) a (Array.replicate a.size Scalar.zero) = a := by
  apply Array.ext
  · simp
  · intro i hi hi'
    simp only [Array.getElem_zipWith, Array.getElem_replicate, hadd.add_zero]

theorem addAt_zipWith (hadd : Scalar.AddsExactly α) (hsize : a.size = b.size) (node : Nat)
    (value : α) :
    addAt (Array.zipWith (· + ·) a b) node value =
      (addAt b node value).map (Array.zipWith (· + ·) a) := by
  have hjoined : (Array.zipWith (· + ·) a b).size = b.size := by
    rw [Array.size_zipWith, hsize, Nat.min_self]
  unfold addAt
  rw [hjoined]
  by_cases hnode : node < b.size
  · rw [if_pos hnode, if_pos hnode, Except.map, Except.ok.injEq]
    apply Array.ext
    · simp
    · intro i hi hi'
      simp only [Array.getElem_modify, Array.getElem_zipWith]
      by_cases heq : node = i
      · simp only [heq, if_true, hadd.add_assoc]
      · simp only [heq, if_false]
  · rw [if_neg hnode, if_neg hnode, Except.map]

theorem addAll_zipWith (hadd : Scalar.AddsExactly α) (entries : List (Nat × α))
    (hsize : a.size = b.size) :
    addAll entries (Array.zipWith (· + ·) a b) =
      (addAll entries b).map (Array.zipWith (· + ·) a) := by
  induction entries generalizing b with
  | nil => rfl
  | cons entry entries ih =>
      rw [addAll_cons, addAll_cons, addAt_zipWith hadd hsize]
      cases hentry : addAt b entry.1 entry.2 with
      | error fault => rfl
      | ok next =>
          have hnext : next.size = b.size := by
            rw [(addAt_eq_ok_iff.mp hentry).2, Array.size_modify]
          exact ih (hsize.trans hnext.symm)

theorem additive_vector (hadd : Scalar.AddsExactly α) {length : Nat}
    (hlength : length < Index.capacity) :
    (vector length : Job α (Array α) (Array α)).Additive (Array.replicate length Scalar.zero)
      fun collected => collected.size = length where
  initial := by
    show (Index.length length).map _ = _
    rw [Index.length_eq_ok_iff.mpr ⟨hlength, rfl⟩]
    rfl
  inv_start := Array.size_replicate
  inv_combine := by
    intro a b ha hb
    show (Array.zipWith _ a b).size = length
    rw [Array.size_zipWith, ha, hb, Nat.min_self]
  inv_accumulate := by
    intro a workspace next ha hnext
    obtain ⟨nodes, -, hfold⟩ := Checked.bind_eq_ok_iff.mp hnext
    exact (size_of_addAll hfold).trans ha
  start_combine := by
    intro a ha
    rw [← ha]
    exact zipWith_zeros_add hadd a
  combine_start := by
    intro a ha
    rw [← ha]
    exact zipWith_add_zeros hadd a
  combine_assoc a b c _ _ _ := zipWith_add_assoc hadd a b c
  accumulate_combine := by
    intro a b workspace ha hb
    show (Index.entry workspace.argumentNodes 0 >>= _) =
      (Index.entry workspace.argumentNodes 0 >>= _).map _
    rw [Checked.map_bind]
    cases hnodes : Index.entry workspace.argumentNodes 0 with
    | error fault => rfl
    | ok nodes => exact addAll_zipWith hadd _ (ha.trans hb.symm)

end Vectors

def joined (job : Job α σ τ) (own : Nat → σ) (collected : σ) (cells : List Nat) : σ :=
  cells.foldl (fun collected cell => job.combine collected (own cell)) collected

end Job

/-! ## What a cell gives alone -/

/-- What a job collects from one cell, computed in fresh buffers, if it has collected nothing
else. -/
def Assembly.contribution (assembly : Assembly α) (job : Job α σ τ) (cell : Nat) :
    Except Failure σ := do
  let fitted ← Failure.lift (({} : Workspace α).fitTo assembly.form)
  let start ← Failure.lift job.initial
  assembly.addCell job fitted start cell

namespace Job.Additive

variable {assembly : Assembly α} {job : Job α σ τ} {start collected : σ} {Inv : σ → Prop}
  {fitted : Workspace α} {own : Nat → σ} {cells : List Nat}

/-- A cell is added to what has been collected by joining what it gives alone. -/
theorem addCell_eq_ok (h : job.Additive start Inv) (hfitted : fitted.Fits assembly.form)
    {cell : Nat} {share : σ} (hshare : assembly.contribution job cell = .ok share)
    (hinv : Inv collected) :
    Inv share ∧ assembly.addCell job fitted collected cell = .ok (job.combine collected share) := by
  simp only [Assembly.contribution, Assembly.addCell, h.initial, Checked.bind_eq_ok_iff,
    Failure.lift_eq_ok_iff] at hshare
  obtain ⟨fresh, hfresh, _, heq, ⟨workspace, logged⟩, hprocess, haccumulate⟩ := hshare
  cases heq
  refine ⟨h.inv_accumulate _ _ _ h.inv_start haccumulate, ?_⟩
  rw [assembly.process_congr (Workspace.fits_of_fitTo hfresh) hfitted] at hprocess
  have hadded : job.accumulate collected workspace = .ok (job.combine collected share) := by
    have hmoved := h.accumulate_combine collected start workspace hinv h.inv_start
    rw [h.combine_start collected hinv, haccumulate] at hmoved
    exact hmoved
  rw [Assembly.addCell, hprocess, Checked.ok_bind]
  exact Failure.lift_eq_ok_iff.mpr hadded

theorem inv_contribution (h : job.Additive start Inv) {cell : Nat} {share : σ}
    (hshare : assembly.contribution job cell = .ok share) : Inv share := by
  obtain ⟨fresh, hfresh, -⟩ := Checked.bind_eq_ok_iff.mp hshare
  have hfits := Workspace.fits_of_fitTo (Failure.lift_eq_ok_iff.mp hfresh)
  exact (h.addCell_eq_ok hfits hshare h.inv_start).1

omit [Scalar α] in
theorem inv_joined (h : job.Additive start Inv) (hown : ∀ cell ∈ cells, Inv (own cell))
    (hinv : Inv collected) : Inv (job.joined own collected cells) := by
  induction cells generalizing collected with
  | nil => exact hinv
  | cons cell cells ih =>
      exact ih (fun other hother => hown other (List.mem_cons_of_mem _ hother))
        (h.inv_combine _ _ hinv (hown cell List.mem_cons_self))

omit [Scalar α] in
/-- Joining to the second of two collections joins to the join of both. -/
theorem joined_combine (h : job.Additive start Inv) {a b : σ}
    (hown : ∀ cell ∈ cells, Inv (own cell)) (ha : Inv a) (hb : Inv b) :
    job.joined own (job.combine a b) cells = job.combine a (job.joined own b cells) := by
  induction cells generalizing b with
  | nil => rfl
  | cons cell cells ih =>
      have hfirst := hown cell List.mem_cons_self
      have hrest := ih (fun other hother => hown other (List.mem_cons_of_mem _ hother))
        (h.inv_combine _ _ hb hfirst)
      rw [Job.joined] at hrest
      rw [Job.joined, List.foldl_cons, h.combine_assoc _ _ _ ha hb hfirst, hrest]
      rfl

/-- A walk over cells joins what they give, one after the other. -/
theorem collect_eq_ok (h : job.Additive start Inv) (hfitted : fitted.Fits assembly.form)
    (hcells : ∀ cell ∈ cells, assembly.contribution job cell = .ok (own cell))
    (hinv : Inv collected) :
    assembly.collect job fitted collected cells = .ok (job.joined own collected cells) := by
  induction cells generalizing collected with
  | nil => rfl
  | cons cell cells ih =>
      obtain ⟨hown, hadded⟩ := h.addCell_eq_ok hfitted (hcells cell List.mem_cons_self) hinv
      have hrest := ih (fun other hother => hcells other (List.mem_cons_of_mem _ hother))
        (h.inv_combine _ _ hinv hown)
      rw [Assembly.collect] at hrest
      rw [Assembly.collect, List.foldlM_cons, hadded, Checked.ok_bind, hrest]
      rfl

/-! ## Serial passes and trees of tasks -/

theorem value_pass (h : job.Additive start Inv) (hcoefficients : assembly.HasCoefficients)
    (hfitted : fitted.Fits assembly.form) {room : Except Fault Nat} {words : Nat}
    (hroom : room = .ok words)
    (hcells : ∀ cell < assembly.mesh.numCells, assembly.contribution job cell = .ok (own cell)) :
    (SerialAssembler.pass assembly job room fitted).value =
      .ok (job.joined own start (List.range assembly.mesh.numCells)) := by
  have hlift : Failure.lift (do discard room; job.initial) = .ok start := by
    rw [hroom, h.initial]
    rfl
  rw [SerialAssembler.pass, Pass.value_foldl hcoefficients hfitted _ hfitted, hlift,
    Checked.ok_bind]
  exact h.collect_eq_ok hfitted (fun cell hcell => hcells cell (List.mem_range.mp hcell))
    h.inv_start

/-- Every tree of tasks joins what its cells give from left to right. The initial collections of the
tasks and of the joins drop out as they are neutral. -/
theorem value_runTree (h : job.Additive start Inv)
    (hfit : ∀ workspace : Workspace α, ∃ fitted, workspace.fitTo assembly.form = .ok fitted)
    (workspaces : Nat → Workspace α) (tree : TaskTree)
    (hcells : ∀ cell ∈ tree.ranges.flatMap CellRange.walked,
      assembly.contribution job cell = .ok (own cell)) :
    (ParallelAssembler.runTree assembly job workspaces tree).value =
      .ok (job.joined own start (tree.ranges.flatMap CellRange.walked)) := by
  have hown : ∀ cell ∈ tree.ranges.flatMap CellRange.walked, Inv (own cell) :=
    fun cell hcell => h.inv_contribution (hcells cell hcell)
  induction tree with
  | task range =>
      rw [TaskTree.ranges, List.flatMap_singleton] at hcells hown ⊢
      obtain ⟨fresh, hfresh⟩ := hfit {}
      have hfitted := Workspace.fits_of_fitTo hfresh
      have hlift : Failure.lift job.initial = .ok start := Failure.lift_eq_ok_iff.mpr h.initial
      have htask : (ParallelAssembler.runTask assembly job workspaces range).value =
          .ok (job.joined own start range.walked) := by
        rw [ParallelAssembler.runTask, ParallelAssembler.value_foldl hfitted hfit, hlift]
        exact h.collect_eq_ok hfitted hcells h.inv_start
      rw [ParallelAssembler.runTree, Partial.value_join hlift htask,
        h.start_combine _ (h.inv_joined hown h.inv_start)]
  | split left right ihleft ihright =>
      rw [TaskTree.ranges, List.flatMap_append] at hcells hown ⊢
      have hleft : ∀ cell ∈ left.ranges.flatMap CellRange.walked, Inv (own cell) :=
        fun cell hcell => hown cell (List.mem_append_left _ hcell)
      have hright : ∀ cell ∈ right.ranges.flatMap CellRange.walked, Inv (own cell) :=
        fun cell hcell => hown cell (List.mem_append_right _ hcell)
      have hfirst := ihleft (fun cell hcell => hcells cell (List.mem_append_left _ hcell)) hleft
      have hsecond := ihright (fun cell hcell => hcells cell (List.mem_append_right _ hcell)) hright
      have hinv := h.inv_joined hleft h.inv_start
      -- the right tree starts anew from the initial collection, which is neutral
      have hjoin := h.joined_combine hright hinv h.inv_start
      rw [h.combine_start _ hinv] at hjoin
      rw [ParallelAssembler.runTree, Partial.value_join hfirst hsecond, ← hjoin, Job.joined,
        Job.joined, Job.joined, List.foldl_append]

end Job.Additive

/-! ## Both assemblers -/

section Assemblers

variable {assembly : Assembly α} {job : Job α σ τ} {start : σ} {Inv : σ → Prop}
  {schedule : Schedule α} {room : Except Fault Nat} {words : Nat}

/-- Both assemblers finish what the cells give one after the other, for every split into tasks. -/
theorem Job.Additive.result_runJob (h : job.Additive start Inv)
    (hcoefficients : assembly.HasCoefficients) {assembler : SerialAssembler α}
    (hfit : ∃ fitted, assembler.workspace.fitTo assembly.form = .ok fitted)
    (hroom : room = .ok words) (hcovers : schedule.tree.Covers assembly.mesh.numCells)
    {own : Nat → σ}
    (hcells : ∀ cell < assembly.mesh.numCells, assembly.contribution job cell = .ok (own cell)) :
    (assembler.runJob assembly job room).1.result =
        Failure.lift (job.finish (job.joined own start (List.range assembly.mesh.numCells))) ∧
      (ParallelAssembler.runJob schedule assembly job).result =
        Failure.lift (job.finish (job.joined own start (List.range assembly.mesh.numCells))) := by
  obtain ⟨fitted, hfitted⟩ := hfit
  have hwalked : ∀ cell ∈ schedule.tree.ranges.flatMap CellRange.walked,
      assembly.contribution job cell = .ok (own cell) := by
    rw [hcovers.walked]
    intro cell hcell
    exact hcells cell (List.mem_range.mp hcell)
  have hserial := h.value_pass hcoefficients (Workspace.fits_of_fitTo hfitted) hroom hcells
  have hparallel := h.value_runTree (Workspace.exists_fitTo hfitted) schedule.workspace
    schedule.tree hwalked
  rw [hcovers.walked] at hparallel
  constructor
  · simp only [SerialAssembler.runJob, hfitted, hserial, Checked.ok_bind]
  · simp only [ParallelAssembler.runJob, hparallel, Checked.ok_bind]

/-- A job that cannot start ends in the same fault, in order and in every tree of tasks. -/
theorem Job.result_runJob_of_initial_eq_error (schedule : Schedule α) {fault : Fault}
    (hinitial : job.initial = .error fault) (hcoefficients : assembly.HasCoefficients)
    {assembler : SerialAssembler α}
    (hfit : ∃ fitted, assembler.workspace.fitTo assembly.form = .ok fitted)
    (hroom : room = .ok words) :
    (assembler.runJob assembly job room).1.result = .error (.fault fault) ∧
      (ParallelAssembler.runJob schedule assembly job).result = .error (.fault fault) := by
  obtain ⟨fitted, hfitted⟩ := hfit
  have hlift : Failure.lift job.initial = .error (.fault fault) := by
    rw [hinitial]
    rfl
  have hserial : (SerialAssembler.pass assembly job room fitted).value = .error (.fault fault) := by
    have hstart : Failure.lift (do discard room; job.initial) = .error (.fault fault) := by
      rw [hroom, hinitial]
      rfl
    have hfits := Workspace.fits_of_fitTo hfitted
    rw [SerialAssembler.pass, Pass.value_foldl hcoefficients hfits _ hfits, hstart]
    rfl
  have hparallel : ∀ tree, (ParallelAssembler.runTree assembly job schedule.workspace tree).value =
      .error (.fault fault) := by
    intro tree
    induction tree with
    | task range => rw [ParallelAssembler.runTree, Partial.join, hlift]
    | split left right ihleft _ => rw [ParallelAssembler.runTree, Partial.join, ihleft]
  constructor
  · simp only [SerialAssembler.runJob, hfitted, hserial]
    rfl
  · simp only [ParallelAssembler.runJob, hparallel]
    rfl

theorem Assembly.eq_scalar_of_scalarJob {job : Job α α α} (h : assembly.scalarJob = .ok job) :
    job = Job.scalar := by
  cases hsizes : assembly.prepare 0 with
  | error failure =>
      rw [scalarJob, hsizes] at h
      cases h
  | ok sizes =>
      rw [scalarJob, hsizes] at h
      cases h
      rfl

theorem Assembly.exists_vectorJob_eq {job : Job α (Array α) (Array α)}
    (h : assembly.vectorJob = .ok job) : ∃ length, job = Job.vector length := by
  simp only [vectorJob, Checked.bind_eq_ok_iff, Checked.pure_eq_ok_iff] at h
  obtain ⟨sizes, -, length, -, heq⟩ := h
  exact ⟨length, heq.symm⟩

theorem Job.getElem?_joined_vector {length : Nat} {own : Nat → Array α} {cells : List Nat}
    (hown : ∀ cell ∈ cells, (own cell).size = length) {collected : Array α}
    (hsize : collected.size = length) {g : Nat} (hg : g < length) :
    ((vector length).joined own collected cells)[g]? =
      some (cells.foldl (fun sum cell => sum + (own cell).getD g Scalar.zero)
        (collected.getD g Scalar.zero)) := by
  induction cells generalizing collected with
  | nil =>
      rw [← hsize] at hg
      simp [joined, hg]
  | cons cell cells ih =>
      have hcell := hown cell List.mem_cons_self
      have hjoined : (Array.zipWith (· + ·) collected (own cell)).size = length := by
        rw [Array.size_zipWith, hsize, hcell, Nat.min_self]
      have hentry : (Array.zipWith (· + ·) collected (own cell)).getD g Scalar.zero =
          collected.getD g Scalar.zero + (own cell).getD g Scalar.zero := by
        simp [Array.getD_eq_getD_getElem?, hsize, hcell, hg]
      have hrest := ih (fun other hother => hown other (List.mem_cons_of_mem _ hother)) hjoined
      rw [hentry] at hrest
      exact hrest

theorem Job.vector_inj {length length' : Nat}
    (h : (vector length : Job α (Array α) (Array α)) = vector length') : length = length' :=
  Target.vector.inj (congrArg target h)

/-- Both assemblers come to the same vector, or cannot start as it is too long. -/
theorem Job.result_runJob_vector (hadd : Scalar.AddsExactly α) (length : Nat)
    (hcoefficients : assembly.HasCoefficients) {assembler : SerialAssembler α}
    (hfit : ∃ fitted, assembler.workspace.fitTo assembly.form = .ok fitted)
    (hroom : room = .ok words) (hcovers : schedule.tree.Covers assembly.mesh.numCells)
    {own : Nat → Array α} (hcells : ∀ cell < assembly.mesh.numCells,
      assembly.contribution (vector length) cell = .ok (own cell)) :
    (ParallelAssembler.runJob schedule assembly (vector length)).result =
        (assembler.runJob assembly (vector length) room).1.result ∧
      (length < Index.capacity →
        ∃ sums, (assembler.runJob assembly (vector length) room).1.result = .ok sums ∧
          sums.size = length ∧ ∀ g < length, sums[g]? =
            some ((List.range assembly.mesh.numCells).foldl
              (fun sum cell => sum + (own cell).getD g Scalar.zero) Scalar.zero)) := by
  by_cases hlength : length < Index.capacity
  · have hadditive := additive_vector hadd hlength
    obtain ⟨hserial, hparallel⟩ :=
      hadditive.result_runJob hcoefficients hfit hroom hcovers hcells
    refine ⟨hparallel.trans hserial.symm, fun _ => ⟨_, hserial, ?_, ?_⟩⟩
    · exact hadditive.inv_joined
        (fun cell hcell => hadditive.inv_contribution (hcells cell (List.mem_range.mp hcell)))
        hadditive.inv_start
    · intro g hg
      rw [getElem?_joined_vector
        (fun cell hcell => hadditive.inv_contribution (hcells cell (List.mem_range.mp hcell)))
        hadditive.inv_start hg]
      simp [hg]
  · have hinitial : (vector length : Job α (Array α) (Array α)).initial =
        .error .tooManyEntries := by
      show (Index.length length).map _ = _
      rw [Index.length, if_neg hlength]
      rfl
    obtain ⟨hserial, hparallel⟩ :=
      result_runJob_of_initial_eq_error schedule hinitial hcoefficients hfit hroom
    exact ⟨hparallel.trans hserial.symm, fun hlt => absurd hlt hlength⟩

end Assemblers

/-- Where addition is associative with zero as its neutral element, a parallel assembler comes to
the scalar or the vector of the serial one, however the cells are split into tasks, provided that no
cell fails and that the serial assembler can size its buffers before the first cell. Every cell
counts once, in the order of the cells. -/
theorem parallel_sums_eq_serial (hadd : Scalar.AddsExactly α) (serial : SerialAssembler α)
    (parallel : ParallelAssembler)
    (hpolicy : parallel.options.nonFinite = serial.options.nonFinite) (form : Form α)
    (mesh : Mesh α) (coefficients : List (Array α)) (schedule : Schedule α)
    (hcovers : schedule.tree.Covers mesh.numCells)
    (hfit : ∃ fitted, serial.workspace.fitTo form = .ok fitted) :
    (∀ own : Nat → α,
      (∀ job, (serial.assembly form mesh coefficients).scalarJob = .ok job →
        ∀ cell < mesh.numCells,
          (serial.assembly form mesh coefficients).contribution job cell = .ok (own cell)) →
      (parallel.assembleScalar schedule form mesh coefficients).result =
          (serial.assembleScalar form mesh coefficients).1.result ∧
        ∀ job, (serial.assembly form mesh coefficients).scalarJob = .ok job →
          (serial.assembleScalar form mesh coefficients).1.result =
            .ok ((List.range mesh.numCells).foldl (fun sum cell => sum + own cell) Scalar.zero)) ∧
    (∀ own : Nat → Array α,
      (∀ job, (serial.assembly form mesh coefficients).vectorJob = .ok job →
        ∀ cell < mesh.numCells,
          (serial.assembly form mesh coefficients).contribution job cell = .ok (own cell)) →
      (parallel.assembleVector schedule form mesh coefficients).result =
          (serial.assembleVector form mesh coefficients).1.result ∧
        ∀ length, (serial.assembly form mesh coefficients).vectorJob = .ok (Job.vector length) →
          length < Index.capacity →
          ∃ vector, (serial.assembleVector form mesh coefficients).1.result = .ok vector ∧
            vector.size = length ∧ ∀ g < length, vector[g]? =
              some ((List.range mesh.numCells).foldl
                (fun sum cell => sum + (own cell).getD g Scalar.zero) Scalar.zero)) ∧
    (parallel.schedule mesh).tree.Covers mesh.numCells := by
  have hsame : parallel.assembly form mesh coefficients =
      serial.assembly form mesh coefficients := by
    rw [ParallelAssembler.assembly, SerialAssembler.assembly, hpolicy]
  refine ⟨?_, ?_, parallel.covers_schedule mesh⟩
  · intro own hown
    cases hjob : (serial.assembly form mesh coefficients).scalarJob with
    | error failure =>
        constructor
        · simp only [ParallelAssembler.assembleScalar, SerialAssembler.assembleScalar, hsame, hjob]
        · intro job heq
          cases heq
    | ok job =>
        have hscalar := Assembly.eq_scalar_of_scalarJob hjob
        have hcoefficients := Assembly.hasCoefficients_of_scalarJob hjob
        subst hscalar
        obtain ⟨hserial, hparallel⟩ := (Job.additive_scalar hadd).result_runJob hcoefficients hfit
          (rfl : (.ok 0 : Except Fault Nat) = _) hcovers (hown _ hjob)
        simp only [ParallelAssembler.assembleScalar, SerialAssembler.assembleScalar, hsame, hjob]
        exact ⟨hparallel.trans hserial.symm, fun _ _ => hserial⟩
  · intro own hown
    cases hjob : (serial.assembly form mesh coefficients).vectorJob with
    | error failure =>
        constructor
        · simp only [ParallelAssembler.assembleVector, SerialAssembler.assembleVector, hsame, hjob]
        · intro length heq
          cases heq
    | ok job =>
        obtain ⟨length, hvector⟩ := Assembly.exists_vectorJob_eq hjob
        have hcoefficients := Assembly.hasCoefficients_of_vectorJob hjob
        subst hvector
        obtain ⟨hequal, hentries⟩ := Job.result_runJob_vector hadd length hcoefficients hfit
          (rfl : (.ok 0 : Except Fault Nat) = _) hcovers (hown _ hjob)
        simp only [ParallelAssembler.assembleVector, SerialAssembler.assembleVector, hsame, hjob]
        refine ⟨hequal, ?_⟩
        intro length' heq hlength
        rw [← Job.vector_inj (Except.ok.inj heq)] at hlength ⊢
        exact hentries hlength

/-- The load and the integral of a source on two intervals, in order and with one task for each. -/
theorem parallel_sums_eq_serial_of_two_intervals :
    let mesh : Mesh Rat := Sample.intervals [0, 1, 3] 2
    let schedule : Schedule Rat := ⟨.split (.task ⟨0, 1, none⟩) (.task ⟨1, 1, none⟩), fun _ => {}⟩
    let serial : SerialAssembler Rat := .fresh {}
    let parallel : ParallelAssembler := ⟨{ minCellsPerTask := 0 }⟩
    let load : Form Rat := .source .interval .linear
    let integral : Form Rat := .integral .interval .linear
    Scalar.AddsExactly Rat ∧ schedule.tree.Covers mesh.numCells ∧
      (parallel.assembleVector schedule load mesh [#[6, 0, 3]]).result =
        (serial.assembleVector load mesh [#[6, 0, 3]]).1.result ∧
      (∃ vector, (serial.assembleVector load mesh [#[6, 0, 3]]).1.result = .ok vector ∧
        vector.size = 3 ∧ vector[1]? = some 2) ∧
      (parallel.assembleScalar schedule integral mesh [#[6, 0, 3]]).result =
        (serial.assembleScalar integral mesh [#[6, 0, 3]]).1.result ∧
      (serial.assembleScalar integral mesh [#[6, 0, 3]]).1.result = .ok 6 := by
  intro mesh schedule serial parallel load integral
  have hcovers : schedule.tree.Covers mesh.numCells := by
    refine ⟨?_, rfl⟩
    decide
  have hcases : ∀ cell < mesh.numCells, cell = 0 ∨ cell = 1 := by
    intro cell hcell
    have hlt : cell < 2 := hcell
    omega
  have hvectorJob : (serial.assembly load mesh [#[6, 0, 3]]).vectorJob = .ok (Job.vector 3) := rfl
  have hscalarJob : (serial.assembly integral mesh [#[6, 0, 3]]).scalarJob = .ok Job.scalar := rfl
  have hloads : ∀ job, (serial.assembly load mesh [#[6, 0, 3]]).vectorJob = .ok job →
      ∀ cell < mesh.numCells, (serial.assembly load mesh [#[6, 0, 3]]).contribution job cell =
        .ok (if cell = 0 then #[2, 1, 0] else #[0, 1, 2]) := by
    intro job hjob cell hcell
    rw [hvectorJob, Except.ok.injEq] at hjob
    rw [← hjob]
    rcases hcases cell hcell with heq | heq <;> rw [heq] <;> decide +kernel
  have hintegrals : ∀ job, (serial.assembly integral mesh [#[6, 0, 3]]).scalarJob = .ok job →
      ∀ cell < mesh.numCells, (serial.assembly integral mesh [#[6, 0, 3]]).contribution job cell =
        .ok 3 := by
    intro job hjob cell hcell
    rw [hscalarJob, Except.ok.injEq] at hjob
    rw [← hjob]
    rcases hcases cell hcell with heq | heq <;> rw [heq] <;> decide +kernel
  obtain ⟨-, hvectors, -⟩ := parallel_sums_eq_serial Scalar.addsExactly_rat serial parallel rfl load
    mesh [#[6, 0, 3]] schedule hcovers ⟨_, rfl⟩
  obtain ⟨hscalars, -, -⟩ := parallel_sums_eq_serial Scalar.addsExactly_rat serial parallel rfl
    integral mesh [#[6, 0, 3]] schedule hcovers ⟨_, rfl⟩
  obtain ⟨hvector, hentries⟩ := hvectors _ hloads
  obtain ⟨vector, hresult, hsize, hget⟩ := hentries 3 hvectorJob (by decide)
  obtain ⟨hscalar, hsum⟩ := hscalars _ hintegrals
  refine ⟨Scalar.addsExactly_rat, hcovers, hvector, ⟨vector, hresult, hsize, ?_⟩, hscalar, ?_⟩
  · rw [hget 1 (by decide)]
    decide +kernel
  · rw [hsum _ hscalarJob]
    decide +kernel

/-- On a mesh without cells the parallel assembler returns the empty vector of a form whose buffers
the serial assembler cannot size. -/
theorem vector_assemblers_differ_without_cells :
    let wide := Sample.inside (2 ^ 60) (by decide)
    let form : Form Rat := .probe "wide" 1 0 [.single wide] none []
    let mesh : Mesh Rat := Sample.intervals [] 0
    let serial : SerialAssembler Rat := .fresh {}
    let parallel : ParallelAssembler := ⟨{}⟩
    Mesh.ofData ⟨.interval, 1, #[], #[]⟩ = .ok mesh ∧ Scalar.AddsExactly Rat ∧
      (∀ length, ∀ cell < mesh.numCells, ∃ own,
        (serial.assembly form mesh []).contribution (Job.vector length) cell = .ok own) ∧
      (parallel.schedule mesh).tree.Covers mesh.numCells ∧
      (serial.assembleVector form mesh []).1.result = .error (.fault .tooManyEntries) ∧
      (parallel.assembleVector (parallel.schedule mesh) form mesh []).result = .ok #[] := by
  intro wide form mesh serial parallel
  have hdata : Mesh.ofData ⟨.interval, 1, #[], #[]⟩ = .ok mesh :=
    Sample.ofData_intervals [] 0 (Nat.le_refl 0)
  refine ⟨hdata, Scalar.addsExactly_rat, ?_, parallel.covers_schedule mesh, by decide +kernel, ?_⟩
  · intro length cell hcell
    exact absurd hcell (Nat.not_lt_zero cell)
  · have hschedule : parallel.schedule mesh = ⟨.task ⟨0, 0, none⟩, fun _ => {}⟩ := by
      rw [ParallelAssembler.schedule, TaskTree.balanced, if_neg (by decide)]
      rfl
    rw [hschedule]
    decide +kernel

end FiniteElement
