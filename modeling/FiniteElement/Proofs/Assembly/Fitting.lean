import Mathlib
import FiniteElement.Assembly.Basic
import FiniteElement.Proofs.Checked

/-! # Forms that fit

What an assembler knows once a form, a mesh and coefficients have passed its
check: how many dof maps and coefficients there are, and that each coefficient
has one value per degree of freedom of its space.
-/

namespace FiniteElement

namespace Failure

theorem lift_eq_ok_iff {β : Type} {result : Except Fault β} {value : β} :
    lift result = .ok value ↔ result = .ok value := by
  cases result <;> simp [lift, Except.mapError]

theorem lift_bind {β γ : Type} (result : Except Fault β) (next : β → Except Fault γ) :
    lift (result >>= next) = lift result >>= fun value => lift (next value) := by
  cases result <;> rfl

theorem ensure_eq_ok_iff {condition : Bool} {error : AssemblyError} {value : Unit} :
    ensure condition error = .ok value ↔ condition = true := by
  cases condition <;> simp [ensure]

end Failure

namespace Form

variable {α : Type} {form : Form α} {mesh : Mesh α} {coefficients : List (Array α)} {rank : Nat}

theorem checkDescription_eq_ok {count : Nat} {value : Unit}
    (h : form.checkDescription rank count = .ok value) :
    form.rank = rank ∧ form.dofMaps.length = rank + form.numCoefficients ∧
      count = form.numCoefficients := by
  simp only [checkDescription, Checked.bind_eq_ok_iff, Failure.ensure_eq_ok_iff,
    Failure.lift_eq_ok_iff, decide_eq_true_eq] at h
  obtain ⟨-, hrank, expected, hexpected, -, hmaps, hcount⟩ := h
  rw [Index.add_eq_ok_iff] at hexpected
  exact ⟨hrank, by rw [hmaps, ← hexpected.2, hrank], hcount⟩

theorem coefficientMaps_eq_ok {maps : List (DofMap α)} (h : form.coefficientMaps = .ok maps) :
    maps = form.dofMaps.drop form.rank := by
  obtain ⟨parts, hparts, heq⟩ := Checked.map_eq_ok_iff.mp h
  rw [← heq, (Index.split_eq_ok_iff.mp hparts).2]

theorem argumentMaps_eq_ok {maps : List (DofMap α)} (h : form.argumentMaps = .ok maps) :
    maps = form.dofMaps.take form.rank := by
  obtain ⟨parts, hparts, heq⟩ := Checked.map_eq_ok_iff.mp h
  rw [← heq, (Index.split_eq_ok_iff.mp hparts).2]

theorem coefficientMaps_of_le (h : form.rank ≤ form.dofMaps.length) :
    form.coefficientMaps = .ok (form.dofMaps.drop form.rank) := by
  rw [coefficientMaps, Index.split_of_le h]
  rfl

theorem argumentMaps_of_le (h : form.rank ≤ form.dofMaps.length) :
    form.argumentMaps = .ok (form.dofMaps.take form.rank) := by
  rw [argumentMaps, Index.split_of_le h]
  rfl

/-- Each coefficient has as many values as its space has degrees of freedom. -/
theorem checkCoefficients_eq_ok {value : Unit}
    (h : form.checkCoefficients mesh coefficients = .ok value) :
    ∀ pair ∈ coefficients.zip (form.dofMaps.drop form.rank),
      pair.2.globalDimension mesh.entityCounts = .ok pair.1.size := by
  rw [checkCoefficients, Checked.bind_eq_ok_iff] at h
  obtain ⟨maps, hmaps, hall⟩ := h
  rw [coefficientMaps_eq_ok (Failure.lift_eq_ok_iff.mp hmaps)] at hall
  intro pair hpair
  obtain ⟨index, hindex⟩ := List.getElem?_of_mem hpair
  have hmem : (pair, index) ∈ (coefficients.zip (form.dofMaps.drop form.rank)).zipIdx :=
    List.mem_zipIdx_iff_getElem?.mpr hindex
  have hcheck := Checked.forM_eq_ok_iff.mp hall _ hmem
  simp only [Checked.bind_eq_ok_iff, Failure.ensure_eq_ok_iff, Failure.lift_eq_ok_iff,
    decide_eq_true_eq] at hcheck
  obtain ⟨expected, hexpected, hsize⟩ := hcheck
  rw [hexpected, hsize]

/-- What the check of a form, a mesh and coefficients promises. -/
theorem checkFit_eq_ok {value : Unit} (h : form.checkFit rank mesh coefficients = .ok value) :
    form.rank = rank ∧ form.dofMaps.length = rank + coefficients.length ∧
      ∀ pair ∈ coefficients.zip (form.dofMaps.drop rank),
        pair.2.globalDimension mesh.entityCounts = .ok pair.1.size := by
  simp only [checkFit, Checked.bind_eq_ok_iff] at h
  obtain ⟨_, hdescription, _, -, hcoefficients⟩ := h
  obtain ⟨hrank, hmaps, hcount⟩ := checkDescription_eq_ok hdescription
  rw [← hcount] at hmaps
  have hall := checkCoefficients_eq_ok hcoefficients
  rw [hrank] at hall
  exact ⟨hrank, hmaps, hall⟩

theorem numCoefficients_of_checkFit {value : Unit}
    (h : form.checkFit rank mesh coefficients = .ok value) :
    form.numCoefficients = coefficients.length := by
  simp only [checkFit, Checked.bind_eq_ok_iff] at h
  obtain ⟨_, hdescription, -⟩ := h
  exact (checkDescription_eq_ok hdescription).2.2.symm

/-- Every coefficient of a form that fits has a space, which counts its values. -/
theorem exists_coefficient_of_checkFit {value : Unit}
    (h : form.checkFit rank mesh coefficients = .ok value) {j : Nat}
    (hj : j < coefficients.length) :
    ∃ map global, form.dofMaps[rank + j]? = some map ∧ coefficients[j]? = some global ∧
      map.globalDimension mesh.entityCounts = .ok global.size := by
  obtain ⟨-, hlength, hsizes⟩ := checkFit_eq_ok h
  have hlt : rank + j < form.dofMaps.length := by omega
  have hmap := List.getElem?_eq_getElem hlt
  have hglobal := List.getElem?_eq_getElem hj
  refine ⟨_, _, hmap, hglobal, hsizes (coefficients[j], form.dofMaps[rank + j]) ?_⟩
  rw [← List.getElem?_drop] at hmap
  exact List.mem_of_getElem? (List.getElem?_zip_eq_some.mpr ⟨hglobal, hmap⟩)

end Form
end FiniteElement
