import Mathlib
import FiniteElement.Form.Probe
import FiniteElement.Proofs.Assembly.Acceptance
import FiniteElement.Proofs.Assembly.CellDimension
import FiniteElement.Proofs.Assembly.Safety
import FiniteElement.Proofs.Assembly.SerialMatrix
import FiniteElement.Proofs.Form.Linear
import FiniteElement.Proofs.Samples

/-! # Answers to requests

A request that the check accepts is answered with a tensor, and any other with a
report. Nothing fails on the way: the buffers fit, all nodes and coefficient
values are found, and every entry of an element tensor has its place in the
result. What is assumed is that the sizes can be stored and that the form itself
computes its tensors.
-/

namespace FiniteElement

/-! ## Spaces on the cells of a mesh -/

theorem Shape.dimension_injective : Function.Injective Shape.dimension := by
  intro shape shape' h
  cases shape <;> cases shape' <;> first | rfl | cases h

/-- A space on cells of one shape is on the cells of a mesh whose dimension it reports. -/
theorem DofMap.isOn_of_dimension_eq {α : Type} {map : DofMap α} {shape shape' : Shape}
    (hmap : map.IsOn shape) (h : map.dimension = shape'.dimension) : map.IsOn shape' := by
  obtain ⟨leaf, hleaf, hdim⟩ := (dimension_eq_iff shape'.dimension_pos).mp h
  obtain ⟨hshape, -⟩ := hmap leaf (mem_leaves_of_leadingLeaf? map hleaf)
  have heq : shape = shape' := by
    apply Shape.dimension_injective
    rw [← hdim, ← hshape]
    rfl
  exact heq ▸ hmap

namespace Request

variable {α : Type}

/-- What is set aside for a request can be stored: the buffers of a cell, a vector with an entry for
each degree of freedom of an argument and one more, and, for a matrix, three words for each entry of
each element tensor. -/
structure IsStorable (request : Request α) : Prop where
  nodes : ∀ map ∈ request.form.dofMaps, map.size < Index.capacity
  tensor : request.form.tensorEntries < Index.capacity
  arguments : ∀ map ∈ request.form.dofMaps.take request.form.rank, ∀ n,
    map.globalDimension request.mesh.entityCounts = .ok n → n + 1 < Index.capacity
  triplets : request.kind = .matrix →
    3 * (request.mesh.numCells * request.form.tensorEntries) < Index.capacity

def assembly (request : Request α) : Assembly α :=
  ⟨request.form, request.mesh, request.coefficients, .ignore⟩

theorem Accepted.hasCoefficients {request : Request α} (h : request.Accepted) :
    request.assembly.HasCoefficients := by
  have hlength := h.dofMaps
  have hcount := h.coefficients
  change request.coefficients.length = (request.form.dofMaps.drop request.form.rank).length
  rw [List.length_drop]
  omega

theorem Accepted.rank_le_two {request : Request α} (h : request.Accepted) :
    request.form.rank ≤ 2 := by
  rw [h.rank]
  cases request.kind <;> decide

/-- An accepted request with sizes that can be stored, on a well-formed mesh, with spaces on its
cells and a form that computes its tensors. -/
structure Sound (request : Request α) : Prop where
  accepted : request.Accepted
  countable : request.form.rank + request.form.numCoefficients < Index.bound
  storable : request.IsStorable
  mesh : request.mesh.WellFormed
  numbering : ∀ map ∈ request.form.dofMaps, map.HasNumbering request.mesh
  total : request.form.IsTotalOn request.mesh

variable {request : Request α}

theorem Sound.tensorSize_eq_ok (h : request.Sound) :
    request.form.tensorSize = .ok request.form.tensorEntries :=
  Form.tensorSize_of_rank_le_two h.accepted.rank_le_two h.accepted.rank_le h.storable.nodes
    h.storable.tensor

theorem Sound.checkFit_eq_ok (h : request.Sound) :
    request.form.checkFit request.kind.rank request.mesh request.coefficients = .ok () :=
  (checkFit_eq_ok_iff h.countable).mpr h.accepted

theorem Sound.prepare_eq_ok (h : request.Sound) {sizes : List Nat}
    (hsizes : (request.form.dofMaps.take request.form.rank).mapM
      (DofMap.globalDimension request.mesh.entityCounts) = .ok sizes) :
    request.assembly.prepare request.kind.rank = .ok sizes := by
  have harguments : request.form.argumentSizes request.mesh = .ok sizes := by
    rw [Form.argumentSizes, Form.argumentMaps_of_le h.accepted.rank_le, Checked.ok_bind, hsizes]
  simp only [Assembly.prepare, assembly, h.checkFit_eq_ok, harguments, Checked.ok_bind]
  rfl

end Request

/-! ## Cells -/

section Cells

variable {α : Type} [Scalar α] {request : Request α}

theorem Form.buffersOf_nodalValues {mesh : Mesh α} (hmesh : mesh.WellFormed) {cell : Nat}
    (hc : cell < mesh.numCells) {maps : List (DofMap α)} (hmaps : ∀ map ∈ maps, map.IsOn mesh.shape)
    {coefficients : List (Array α)} (hlength : coefficients.length = maps.length) :
    BuffersOf maps (nodalValues maps mesh coefficients cell) := by
  induction maps generalizing coefficients with
  | nil =>
      rw [nodalValues, List.zipWith_nil_right]
      exact List.Forall₂.nil
  | cons map maps ih =>
      cases coefficients with
      | nil => cases hlength
      | cons global coefficients =>
          have hown : ((map.cellNodes mesh cell).map (global.getD · Scalar.zero)).length =
              map.size := by
            rw [List.length_map, DofMap.length_cellNodes hmesh (hmaps map List.mem_cons_self) hc]
          exact List.Forall₂.cons hown (ih (fun other hother =>
            hmaps other (List.mem_cons_of_mem _ hother)) (Nat.succ.inj hlength))

theorem Assembly.Computes.mono {assembly : Assembly α} {Cell Cell' : Workspace α → Prop}
    {cell : Nat} (h : assembly.Computes Cell cell) (himp : ∀ workspace, Cell workspace →
      Cell' workspace) : assembly.Computes Cell' cell := by
  intro fitted hfitted
  obtain ⟨next, logged, hprocess, hcell⟩ := h fitted hfitted
  exact ⟨next, logged, hprocess, himp next hcell⟩

def Workspace.Holds (workspace : Workspace α) (request : Request α) (cell : Nat) : Prop :=
  workspace.argumentNodes = (request.form.dofMaps.take request.form.rank).map
      (fun map => map.cellNodes request.mesh cell) ∧
    workspace.tensor.size = request.form.tensorEntries

namespace Request

theorem Sound.exists_fitTo (h : request.Sound) (workspace : Workspace α) :
    ∃ fitted, workspace.fitTo request.assembly.form = .ok fitted :=
  workspace.exists_fitTo_of_rank_le_two h.accepted.rank_le_two h.accepted.rank_le h.storable.nodes
    h.storable.tensor

theorem Sound.computesOn (h : request.Sound) :
    request.form.ComputesOn request.mesh request.coefficients := by
  intro cell hc view coordinates hview
  apply h.total h.accepted.volumetric h.accepted.dimensions h.accepted.dofMaps cell hc view
    coordinates hview
  exact Form.buffersOf_nodalValues h.mesh hc
    (fun map hmap => (h.numbering map (List.mem_of_mem_drop hmap)).1) h.accepted.hasCoefficients

theorem Sound.computes (h : request.Sound) {cell : Nat} (hc : cell < request.mesh.numCells) :
    request.assembly.Computes (fun workspace => workspace.Holds request cell) cell := by
  intro fitted hfitted
  obtain ⟨tensor, htensor⟩ :=
    (Form.computesOn_iff h.mesh h.tensorSize_eq_ok).mp h.computesOn cell hc
  obtain ⟨next, hnext, hnodes, hentries⟩ := Workspace.computeCell_eq_ok h.mesh hc
    h.accepted.rank_le h.numbering h.accepted.lengths hfitted htensor
  refine ⟨next, [], ?_, hnodes, ?_⟩
  · simp only [Assembly.process, assembly, hnext, Failure.lift, FinitenessPolicy.inspect]
    rfl
  · rw [← Array.length_toList, hentries, Form.length_of_elementTensor h.tensorSize_eq_ok htensor]

theorem Sound.delivers {σ τ : Type} (h : request.Sound) {job : Job α σ τ}
    {Cell : Workspace α → Prop} {Inv : σ → Prop} (hsafe : job.Safe Cell Inv)
    (hcell : ∀ cell < request.mesh.numCells, ∀ workspace : Workspace α,
      workspace.Holds request cell → Cell workspace) : job.Delivers request.assembly :=
  hsafe.delivers h.accepted.hasCoefficients h.exists_fitTo
    fun cell hc => (h.computes hc).mono (hcell cell hc)

/-! ## The three kinds -/

theorem Sound.scalarJob (h : request.Sound) (hkind : request.kind = .scalar) :
    request.assembly.scalarJob = .ok Job.scalar ∧
      (Job.scalar : Job α α α).Delivers request.assembly := by
  have hrank : request.form.rank = 0 := by rw [h.accepted.rank, hkind, TensorKind.rank]
  have hprepare : request.assembly.prepare 0 = .ok [] := by
    have hsizes := h.prepare_eq_ok (by rw [hrank, List.take_zero]; rfl)
    rwa [hkind] at hsizes
  refine ⟨?_, h.delivers Job.safe_scalar ?_⟩
  · rw [Assembly.scalarJob, hprepare]
    rfl
  · intro cell _ workspace hholds
    rw [hholds.2, Form.tensorEntries, hrank, List.take_zero]
    exact Nat.one_pos

theorem Sound.vectorJob (h : request.Sound) (hkind : request.kind = .vector) :
    ∃ length, request.assembly.vectorJob = .ok (Job.vector length) ∧
      (Job.vector length : Job α (Array α) (Array α)).Delivers request.assembly := by
  have hrank : request.form.rank = 1 := by rw [h.accepted.rank, hkind, TensorKind.rank]
  obtain ⟨map, maps, hmaps⟩ : ∃ map maps, request.form.dofMaps = map :: maps := by
    apply List.exists_cons_of_length_pos
    have hle := h.accepted.rank_le
    omega
  have htake : request.form.dofMaps.take request.form.rank = [map] := by
    rw [hrank, hmaps]
    rfl
  obtain ⟨hmap, length, hlength⟩ := h.numbering map (hmaps ▸ List.mem_cons_self)
  have hstorable := h.storable.arguments map (htake ▸ List.mem_cons_self) length hlength
  have hprepare : request.assembly.prepare 1 = .ok [length] := by
    have hsizes := h.prepare_eq_ok (by
      rw [htake, List.mapM_cons, hlength]
      rfl)
    rwa [hkind] at hsizes
  refine ⟨length, ?_, h.delivers (Job.safe_vector (Nat.lt_of_succ_lt hstorable)) ?_⟩
  · rw [Assembly.vectorJob, hprepare]
    rfl
  · intro cell hc workspace hholds
    refine ⟨map.cellNodes request.mesh cell, ?_,
      DofMap.lt_of_mem_cellNodes_of_globalDimension h.mesh hmap hlength hc⟩
    rw [hholds.1, htake]
    rfl

theorem Sound.matrixJob (h : request.Sound) (hkind : request.kind = .matrix) :
    ∃ numRows numCols, request.assembly.matrixJob = .ok (Job.matrix numRows numCols) ∧
      (Job.matrix numRows numCols : Job α (Array (Triplet α)) (SparseMatrix α)).Delivers
        request.assembly := by
  have hrank : request.form.rank = 2 := by rw [h.accepted.rank, hkind, TensorKind.rank]
  obtain ⟨rowMap, colMap, maps, hmaps⟩ := Form.exists_two_dofMaps (hrank ▸ h.accepted.rank_le)
  obtain ⟨hrow, numRows, hrows⟩ := h.numbering rowMap (hmaps ▸ List.mem_cons_self)
  obtain ⟨hcol, numCols, hcols⟩ :=
    h.numbering colMap (hmaps ▸ List.mem_cons_of_mem _ List.mem_cons_self)
  have hfit := h.checkFit_eq_ok
  rw [hkind] at hfit
  have hroom : numRows + 1 < Index.capacity := by
    apply h.storable.arguments rowMap _ numRows hrows
    rw [hrank, hmaps]
    exact List.mem_cons_self
  refine ⟨numRows, numCols, Assembly.matrixJob_eq_ok hfit hrank hmaps hrows hcols,
    h.delivers (Job.safe_matrix hroom numCols) ?_⟩
  intro cell hc workspace hholds
  refine ⟨rowMap.cellNodes request.mesh cell, colMap.cellNodes request.mesh cell, ?_, ?_,
    DofMap.lt_of_mem_cellNodes_of_globalDimension h.mesh hrow hrows hc,
    DofMap.lt_of_mem_cellNodes_of_globalDimension h.mesh hcol hcols hc⟩
  · rw [hholds.1, hrank, hmaps]
    rfl
  · rw [hholds.2, Form.tensorEntries_of_rank_two hrank hmaps,
      DofMap.length_cellNodes h.mesh hrow hc, DofMap.length_cellNodes h.mesh hcol hc]

end Request

end Cells

/-! ## Answers -/

theorem Outcome.exists_map {τ ρ : Type} {outcome : Outcome τ} (f : τ → ρ)
    (h : ∃ value, outcome.result = .ok value) : ∃ value, (outcome.map f).result = .ok value := by
  obtain ⟨value, hvalue⟩ := h
  exact ⟨f value, Checked.map_eq_ok_iff.mpr ⟨value, hvalue, rfl⟩⟩

theorem SerialAssembler.result_withCompletion {α : Type}
    (outcome : Outcome (SparseMatrix α)) :
    (withCompletion outcome).result = outcome.result := by
  unfold withCompletion
  split <;> rfl

section Answers

variable {α : Type} [Scalar α] {request : Request α}

/-- A serial assembler answers a sound request with a tensor. -/
theorem SerialAssembler.exists_answer (assembler : SerialAssembler α)
    (hpolicy : assembler.options.nonFinite = .ignore) (h : request.Sound) :
    ∃ tensor, (assembler.answer request).1.result = .ok tensor := by
  have hassembly : assembler.assembly request.form request.mesh request.coefficients =
      request.assembly := by
    rw [SerialAssembler.assembly, hpolicy, Request.assembly]
  obtain ⟨kind, form, mesh, coefficients⟩ := request
  cases kind with
  | scalar =>
      obtain ⟨hjob, hdelivers⟩ := h.scalarJob rfl
      rw [answer_scalar]
      apply Outcome.exists_map
      simp only [assembleScalar, hassembly, hjob]
      exact hdelivers.serial assembler rfl
  | vector =>
      obtain ⟨length, hjob, hdelivers⟩ := h.vectorJob rfl
      rw [answer_vector]
      apply Outcome.exists_map
      simp only [assembleVector, hassembly, hjob]
      exact hdelivers.serial assembler rfl
  | matrix =>
      obtain ⟨numRows, numCols, hjob, hdelivers⟩ := h.matrixJob rfl
      rw [answer_matrix]
      apply Outcome.exists_map
      simp only [assembleMatrix, hassembly, hjob, result_withCompletion]
      exact hdelivers.serial assembler
        (tripletRoom_of_lt h.tensorSize_eq_ok (h.storable.triplets rfl))

/-- A parallel assembler answers a sound request with a tensor, for every split of the cells. -/
theorem ParallelAssembler.exists_answer (assembler : ParallelAssembler)
    (hpolicy : assembler.options.nonFinite = .ignore) (h : request.Sound) {schedule : Schedule α}
    (hcovers : schedule.tree.Covers request.mesh.numCells) :
    ∃ tensor, (assembler.answer schedule request).result = .ok tensor := by
  have hassembly : assembler.assembly request.form request.mesh request.coefficients =
      request.assembly := by
    rw [ParallelAssembler.assembly, hpolicy, Request.assembly]
  obtain ⟨kind, form, mesh, coefficients⟩ := request
  cases kind with
  | scalar =>
      obtain ⟨hjob, hdelivers⟩ := h.scalarJob rfl
      apply Outcome.exists_map Tensor.scalar
      simp only [assembleScalar, hassembly, hjob]
      exact hdelivers.parallel schedule hcovers
  | vector =>
      obtain ⟨length, hjob, hdelivers⟩ := h.vectorJob rfl
      apply Outcome.exists_map Tensor.vector
      simp only [assembleVector, hassembly, hjob]
      exact hdelivers.parallel schedule hcovers
  | matrix =>
      obtain ⟨numRows, numCols, hjob, hdelivers⟩ := h.matrixJob rfl
      apply Outcome.exists_map Tensor.matrix
      simp only [assembleMatrix, hassembly, hjob]
      exact hdelivers.parallel schedule hcovers

/-- A tensor for a request that is accepted, and a report for any other. -/
def Request.IsAnsweredBy (request : Request α) (outcome : Outcome (Tensor α)) : Prop :=
  (request.Accepted → ∃ tensor, outcome.result = .ok tensor) ∧
    (¬ request.Accepted → ∃ error, outcome = ⟨[], .error (.rejected error)⟩)

/-- On a mesh made from lists, with spaces on cells of one shape each and a form that computes its
tensors on every mesh it may be accepted on, a request is answered with a tensor if it is accepted
and with a report otherwise, provided that its counts are indices and that what is set aside for an
accepted request can be stored. The forms on linear elements are of this kind. -/
theorem answered_iff_accepted (request : Request α)
    (hmesh : ∃ data, Mesh.ofData data = .ok request.mesh)
    (hmaps : ∀ map ∈ request.form.dofMaps, ∃ shape, map.IsOn shape)
    (htotal : request.form.IsTotalOn request.mesh)
    (hcount : request.form.rank + request.form.numCoefficients < Index.bound)
    (hnumbering : ∀ map ∈ request.form.dofMaps, map.IsOn request.mesh.shape →
      ∃ n, map.globalDimension request.mesh.entityCounts = .ok n)
    (hstorable : request.Accepted → request.IsStorable) :
    (∀ assembler : SerialAssembler α, assembler.options.nonFinite = .ignore →
      request.IsAnsweredBy (assembler.answer request).1) ∧
    (∀ (assembler : ParallelAssembler) (schedule : Schedule α),
      assembler.options.nonFinite = .ignore → schedule.tree.Covers request.mesh.numCells →
      request.IsAnsweredBy (assembler.answer schedule request)) ∧
    ∀ form : Form α, form.OnLinearElements →
      form.IsTotalOn request.mesh ∧ ∀ map ∈ form.dofMaps, ∃ shape, map.IsOn shape := by
  obtain ⟨data, hdata⟩ := hmesh
  have hwell := Mesh.wellFormed_of_ofData hdata
  have hnumbered : ∀ map ∈ request.form.dofMaps, map.dimension = request.mesh.dimension →
      map.HasNumbering request.mesh := by
    intro map hmap hdim
    obtain ⟨shape, hshape⟩ := hmaps map hmap
    have hon := DofMap.isOn_of_dimension_eq hshape hdim
    exact ⟨hon, hnumbering map hmap hon⟩
  have hsound : request.Accepted → request.Sound := fun h =>
    ⟨h, hcount, hstorable h, hwell, fun map hmap => hnumbered map hmap (h.dimensions map hmap),
      htotal⟩
  have hreject := Request.exists_checkFit_eq_rejected hcount
    fun map hmap hdim => (hnumbered map hmap hdim).2
  refine ⟨?_, ?_, fun form hform => ⟨hform.isTotalOn hwell, hform.exists_isOn⟩⟩
  · intro assembler hpolicy
    refine ⟨fun haccepted => assembler.exists_answer hpolicy (hsound haccepted), ?_⟩
    intro hnot
    obtain ⟨error, herror⟩ := hreject hnot
    exact ⟨error, assembler.answer_eq_error herror⟩
  · intro assembler schedule hpolicy hcovers
    refine ⟨fun haccepted => assembler.exists_answer hpolicy (hsound haccepted) hcovers, ?_⟩
    intro hnot
    obtain ⟨error, herror⟩ := hreject hnot
    exact ⟨error, assembler.answer_eq_error schedule herror⟩

/-- The load of a source on two intervals that share a vertex: with a value for each vertex it is
assembled in order and by two tasks, and with two values for the three vertices it is rejected. -/
theorem answered_iff_accepted_on_two_intervals :
    let form : Form Rat := .source .interval .linear
    let mesh : Mesh Rat := Sample.intervals [0, 1, 2] 2
    let request (values : Array Rat) : Request Rat := ⟨.vector, form, mesh, [values]⟩
    let schedule : Schedule Rat := ⟨.split (.task ⟨0, 1, none⟩) (.task ⟨1, 1, none⟩), fun _ => {}⟩
    Mesh.ofData ⟨.interval, 1, #[0, 1, 2], #[0, 1, 1, 2]⟩ = .ok mesh ∧
      (∀ map ∈ form.dofMaps, ∃ shape, map.IsOn shape) ∧ form.IsTotalOn mesh ∧
      form.rank + form.numCoefficients < Index.bound ∧
      (∀ map ∈ form.dofMaps, map.IsOn .interval →
        ∃ n, map.globalDimension mesh.entityCounts = .ok n) ∧
      (∀ values, (request values).IsStorable) ∧ (request #[5, 7, 11]).Accepted ∧
      (∃ tensor, ((SerialAssembler.fresh {}).answer (request #[5, 7, 11])).1.result = .ok tensor) ∧
      (∃ tensor, (ParallelAssembler.answer ⟨{}⟩ schedule (request #[5, 7, 11])).result =
        .ok tensor) ∧
      ¬ (request #[5, 7]).Accepted ∧
      ∃ error, ((SerialAssembler.fresh {}).answer (request #[5, 7])).1 =
        ⟨[], .error (.rejected error)⟩ := by
  intro form mesh request schedule
  have hdata : Mesh.ofData ⟨.interval, 1, #[0, 1, 2], #[0, 1, 1, 2]⟩ = .ok mesh :=
    Sample.ofData_intervals [0, 1, 2] 2 (Nat.le_refl 2)
  have hform : form.OnLinearElements := .source .interval .linear
  have htotal : form.IsTotalOn mesh := hform.isTotalOn (Mesh.wellFormed_of_ofData hdata)
  have hcount : form.rank + form.numCoefficients < Index.bound := by decide
  have hglobal : ∀ map ∈ form.dofMaps, map.globalDimension mesh.entityCounts = .ok 3 := by
    decide +kernel
  have hnumbering : ∀ map ∈ form.dofMaps, map.IsOn .interval →
      ∃ n, map.globalDimension mesh.entityCounts = .ok n :=
    fun map hmap _ => ⟨3, hglobal map hmap⟩
  have hnodes : ∀ map ∈ form.dofMaps, map.size < Index.capacity := by
    decide +kernel
  have htensor : form.tensorEntries < Index.capacity := by
    decide +kernel
  have hstorable : ∀ values, (request values).IsStorable := by
    intro values
    refine ⟨hnodes, htensor, ?_, fun hkind => nomatch hkind⟩
    intro map hmap n hn
    rw [hglobal map (List.mem_of_mem_take hmap), Except.ok.injEq] at hn
    rw [← hn]
    decide
  have haccepted : (request #[5, 7, 11]).Accepted := by
    rw [← Request.checkFit_eq_ok_iff hcount]
    decide +kernel
  have hnot : ¬ (request #[5, 7]).Accepted := by
    rw [← Request.checkFit_eq_ok_iff hcount]
    decide +kernel
  have hcovers : schedule.tree.Covers mesh.numCells := ⟨by decide, rfl⟩
  have hmaps := hform.exists_isOn
  obtain ⟨hserial, hparallel, -⟩ := answered_iff_accepted (request #[5, 7, 11]) ⟨_, hdata⟩
    hmaps htotal hcount hnumbering fun _ => hstorable _
  obtain ⟨hrejected, -⟩ := answered_iff_accepted (request #[5, 7]) ⟨_, hdata⟩
    hmaps htotal hcount hnumbering fun _ => hstorable _
  exact ⟨hdata, hmaps, htotal, hcount, hnumbering, hstorable, haccepted,
    (hserial _ rfl).1 haccepted, (hparallel ⟨{}⟩ schedule rfl hcovers).1 haccepted, hnot,
    (hrejected _ rfl).2 hnot⟩

/-- Numbers of coefficients and of degrees of freedom that are indices do not suffice. A form with
one argument and the largest number of coefficients ends in a fault where it should be rejected, as
the two cannot be added up. An accepted request for an empty vector ends in a fault as the buffer
for the nodes of a cell cannot be stored. -/
theorem answer_fails_on_large_counts :
    let corners : LayoutMap Rat := LayoutMap.p1 .interval
    let wide := Sample.inside (2 ^ 60) (by decide)
    let mesh : Mesh Rat := Sample.intervals [] 0
    let many : Request Rat :=
      ⟨.vector, .probe "probe" 1 Index.last [.single corners] none [], mesh, []⟩
    let large : Request Rat :=
      ⟨.vector, .probe "wide" 1 0 [.mixed [.single wide]] none [], mesh, []⟩
    Mesh.ofData ⟨.interval, 1, #[], #[]⟩ = .ok mesh ∧
      (∀ request ∈ [many, large], request.form.IsTotalOn mesh ∧
        ∀ map ∈ request.form.dofMaps, map.IsOn .interval ∧
          map.globalDimension mesh.entityCounts = .ok 0) ∧
      (¬ many.Accepted ∧ many.form.numCoefficients < Index.bound ∧
        ((SerialAssembler.fresh {}).answer many).1.result = .error (.fault .overflow)) ∧
      large.Accepted ∧ large.form.tensorSize = .ok (2 ^ 60) ∧
      ((SerialAssembler.fresh {}).answer large).1.result = .error (.fault .tooManyEntries) := by
  intro corners wide mesh many large
  have hdata : Mesh.ofData ⟨.interval, 1, #[], #[]⟩ = .ok mesh :=
    Sample.ofData_intervals [] 0 (Nat.le_refl 0)
  have htotal : ∀ form : Form Rat, form.IsTotalOn mesh := by
    intro form _ _ _ cell hc
    exact absurd hc (Nat.not_lt_zero cell)
  have hcorners : (DofMap.single corners).IsOn .interval := DofMap.isOn_single.mpr ⟨rfl, rfl⟩
  have hwide : (DofMap.mixed [.single wide]).IsOn .interval := by
    intro leaf hleaf
    rw [List.mem_singleton.mp hleaf]
    exact ⟨rfl, rfl⟩
  have hmany : ((SerialAssembler.fresh {}).assembleVector many.form mesh []).1.result =
      .error (.fault .overflow) := by
    decide +kernel
  have hlarge : ((SerialAssembler.fresh {}).assembleVector large.form mesh []).1.result =
      .error (.fault .tooManyEntries) := by
    decide +kernel
  refine ⟨hdata, ?_, ⟨?_, by decide +kernel, ?_⟩, ?_, by decide +kernel, ?_⟩
  · refine List.forall_mem_cons.mpr ⟨⟨htotal _, ?_⟩, List.forall_mem_singleton.mpr ⟨htotal _, ?_⟩⟩
    · exact List.forall_mem_singleton.mpr ⟨hcorners, rfl⟩
    · exact List.forall_mem_singleton.mpr ⟨hwide, rfl⟩
  · intro haccepted
    have hne : ([] : List (Array Rat)).length ≠ Index.last := by decide
    exact hne haccepted.coefficients
  · rw [SerialAssembler.answer_vector, Outcome.map, hmany]
    rfl
  · refine (Request.checkFit_eq_ok_iff (by decide)).mp ?_
    decide +kernel
  · rw [SerialAssembler.answer_vector, Outcome.map, hlarge]
    rfl

end Answers

end FiniteElement
