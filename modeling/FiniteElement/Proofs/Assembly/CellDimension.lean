import Mathlib
import FiniteElement.Form.Probe
import FiniteElement.Proofs.Assembly.Acceptance
import FiniteElement.Proofs.DofMap.Dof
import FiniteElement.Proofs.Mesh.WellFormed
import FiniteElement.Proofs.Samples

/-! # Cells of another dimension

A mixed space reports the dimension of the leaf that its first components lead
to. The check before a pass compares this one with the dimension of the mesh: it
turns away every space with another leading leaf, and every misfit among spaces
whose leaves agree. The leaves behind the leading one are not looked at.
-/

namespace FiniteElement

namespace DofMap

variable {α : Type} {map : DofMap α} {leaf : LayoutMap α}

def leadingLeaf? : DofMap α → Option (LayoutMap α)
  | single map => some map
  | mixed [] => none
  | mixed (first :: _) => first.leadingLeaf?

theorem dimension_eq (map : DofMap α) :
    map.dimension = map.leadingLeaf?.elim 0 LayoutMap.dimension := by
  cases map with
  | single map => rfl
  | mixed components =>
      cases components with
      | nil => rfl
      | cons first rest =>
          rw [dimension, leadingLeaf?]
          exact dimension_eq first

theorem mem_leaves_of_leadingLeaf? (map : DofMap α) (h : map.leadingLeaf? = some leaf) :
    leaf ∈ map.leaves := by
  cases map with
  | single map =>
      cases h
      exact List.mem_singleton_self _
  | mixed components =>
      cases components with
      | nil => cases h
      | cons first rest =>
          rw [leadingLeaf?] at h
          exact List.mem_append_left _ (mem_leaves_of_leadingLeaf? first h)

theorem dimension_eq_iff {d : Nat} (hd : 0 < d) :
    map.dimension = d ↔ ∃ leaf, map.leadingLeaf? = some leaf ∧ leaf.dimension = d := by
  rw [dimension_eq]
  cases map.leadingLeaf? with
  | none =>
      simp only [Option.elim_none, reduceCtorEq, false_and, exists_false, iff_false]
      omega
  | some leaf => simp

/-- A space that leads to no leaf on cells of dimension `d`, or with a leaf that is not on such
cells although all its leaves are on cells of one dimension. -/
def Misfits (map : DofMap α) (d : Nat) : Prop :=
  (∀ leaf, map.leadingLeaf? = some leaf → leaf.dimension ≠ d) ∨
    (∃ d', ∀ leaf ∈ map.leaves, leaf.dimension = d') ∧ ∃ leaf ∈ map.leaves, leaf.dimension ≠ d

theorem Misfits.dimension_ne {d : Nat} (hd : 0 < d) (h : map.Misfits d) : map.dimension ≠ d := by
  intro heq
  obtain ⟨leading, hleading, hdim⟩ := (dimension_eq_iff hd).mp heq
  rcases h with hall | ⟨⟨d', hsame⟩, leaf, hleaf, hother⟩
  · exact hall leading hleading hdim
  · have hfirst := hsame leading (mem_leaves_of_leadingLeaf? map hleading)
    rw [hsame leaf hleaf, ← hfirst, hdim] at hother
    exact hother rfl

end DofMap

variable {α : Type} [Scalar α]

/-- A form that passes the check has only dof maps that lead to a leaf on cells of the mesh. A form
with a misfit among its dof maps ends in a report before anything is logged. -/
theorem check_sees_leading_leaves (request : Request α) :
    (request.form.checkFit request.kind.rank request.mesh request.coefficients = .ok () →
      ∀ map ∈ request.form.dofMaps, ∃ leaf, map.leadingLeaf? = some leaf ∧
        leaf.dimension = request.mesh.dimension) ∧
    (request.form.rank + request.form.numCoefficients < Index.bound →
      ∀ map ∈ request.form.dofMaps, map.Misfits request.mesh.dimension →
        (∀ assembler : SerialAssembler α, ∃ error,
          (assembler.answer request).1 = ⟨[], .error (.rejected error)⟩) ∧
        ∀ (assembler : ParallelAssembler) (schedule : Schedule α), ∃ error,
          assembler.answer schedule request = ⟨[], .error (.rejected error)⟩) := by
  have hpos : 0 < request.mesh.dimension := request.mesh.shape.dimension_pos
  constructor
  · intro hfit map hmap
    obtain ⟨_, -, _, hcells, -⟩ := by
      simpa only [Form.checkFit, Checked.bind_eq_ok_iff] using hfit
    exact (DofMap.dimension_eq_iff hpos).mp ((Form.checkCells_eq_ok_iff.mp hcells).2 map hmap)
  · intro hcount map hmap hmisfit
    have hcells : request.form.checkCells request.mesh ≠ .ok () := by
      intro h
      exact hmisfit.dimension_ne hpos ((Form.checkCells_eq_ok_iff.mp h).2 map hmap)
    obtain ⟨error, herror⟩ := Form.exists_checkFit_eq_rejected hcount hcells
    exact ⟨fun assembler => ⟨error, assembler.answer_eq_error herror⟩,
      fun assembler schedule => ⟨error, assembler.answer_eq_error schedule herror⟩⟩

/-- On triangles a space that starts with triangles passes the check, and one that starts with
intervals is rejected. -/
theorem check_sees_leading_leaves_on_triangles :
    let triangle : DofMap Rat := .single (LayoutMap.p1 .triangle)
    let interval : DofMap Rat := .single (LayoutMap.p1 .interval)
    let form (map : DofMap Rat) : Form Rat := .probe "probe" 1 0 [map] none []
    let mesh : Mesh Rat :=
      { shape := .triangle, geometricDimension := 2, points := #[], cells := #[] }
    (form (.mixed [triangle, interval])).checkFit 1 mesh [] = .ok () ∧
      (∃ leaf, (DofMap.mixed [triangle, interval]).leadingLeaf? = some leaf ∧
        leaf.dimension = 2) ∧
      (DofMap.mixed [interval, triangle]).Misfits 2 ∧
      ∃ error, ((SerialAssembler.fresh {}).answer
        ⟨.vector, form (.mixed [interval, triangle]), mesh, []⟩).1 =
          ⟨[], .error (.rejected error)⟩ := by
  intro triangle interval form mesh
  have hfit : (form (.mixed [triangle, interval])).checkFit 1 mesh [] = .ok () := by
    decide +kernel
  have hmisfit : (DofMap.mixed [interval, triangle]).Misfits 2 := by
    left
    intro leaf hleaf
    cases hleaf
    decide
  obtain ⟨hpass, -⟩ :=
    check_sees_leading_leaves ⟨.vector, form (.mixed [triangle, interval]), mesh, []⟩
  obtain ⟨-, hreject⟩ :=
    check_sees_leading_leaves ⟨.vector, form (.mixed [interval, triangle]), mesh, []⟩
  obtain ⟨hserial, -⟩ := hreject (by decide) _ List.mem_cons_self hmisfit
  exact ⟨hfit, hpass hfit _ List.mem_cons_self, hmisfit, hserial _⟩

/-- A space on triangles is accepted although one of its leaves is on intervals. On a mesh without
cells this goes unnoticed, and on one triangle the pass ends in a fault where it should have been
rejected. -/
theorem check_misses_trailing_leaf :
    let triangle : LayoutMap Rat := LayoutMap.p1 .triangle
    let interval : LayoutMap Rat := LayoutMap.p1 .interval
    let map : DofMap Rat := .mixed [.single triangle, .single interval]
    let form : Form Rat := .probe "probe" 1 0 [map] none []
    let noTriangles : Mesh Rat :=
      { shape := .triangle, geometricDimension := 2, points := #[], cells := #[] }
    interval ∈ map.leaves ∧ interval.dimension ≠ Shape.triangle.dimension ∧
      Mesh.ofData ⟨.triangle, 2, #[], #[]⟩ = .ok noTriangles ∧
      form.checkFit 1 noTriangles [] = .ok () ∧
      ((SerialAssembler.fresh {}).assembleVector form noTriangles []).1.result = .ok #[] ∧
      Mesh.ofData ⟨.triangle, 2, #[0, 0, 1, 0, 0, 1], #[0, 1, 2]⟩ = .ok Sample.triangle ∧
      form.checkFit 1 Sample.triangle [] = .ok () ∧
      ((SerialAssembler.fresh {}).assembleVector form Sample.triangle []).1.result =
        .error (.fault .unfilledNodes) := by
  intro triangle interval map form noTriangles
  exact ⟨List.mem_cons_of_mem _ List.mem_cons_self, by decide,
    Mesh.ofData_eq_ok_iff.mpr (by decide +kernel), by decide +kernel, by decide +kernel,
    Sample.ofData_triangle, by decide +kernel, by decide +kernel⟩

end FiniteElement
