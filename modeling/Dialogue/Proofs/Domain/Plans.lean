import Mathlib.Data.List.MinMax
import Dialogue.Update.Uptake

/-! # Plans of a domain

What the checks on a blueprint say of the plans that a dialogue can load or put on the agenda.
-/

namespace Dialogue.Domain

variable {d : Domain} {p : Plan} {q : Question} {name : String}

theorem planFault?_eq_none {index : Nat} (h : (p, index) ∈ d.plans.zipIdx) :
    d.planFault? index p = none := by
  have hFault := d.faultless
  rw [Blueprint.fault?, Option.or_eq_none_iff, List.findSome?_eq_none_iff] at hFault
  exact hFault.1 (p, index) h

theorem exists_planFault?_eq_none (h : p ∈ d.plans) : ∃ index, d.planFault? index p = none := by
  obtain ⟨index, hIndex, rfl⟩ := List.getElem_of_mem h
  have hMem : (d.plans[index], index) ∈ d.plans.zipIdx :=
    List.mk_mem_zipIdx_iff_getElem?.mpr (by simp)
  exact ⟨index, planFault?_eq_none hMem⟩

theorem isRespond_eq_false (h : p ∈ d.plans) {a : Action} (hStep : a ∈ p.steps) :
    a.isRespond = false := by
  obtain ⟨index, hFault⟩ := exists_planFault?_eq_none h
  rw [Blueprint.planFault?] at hFault
  split at hFault
  · cases hFault
  · next hRespond =>
    rw [Bool.not_eq_true, List.any_eq_false] at hRespond
    exact Bool.eq_false_iff.mpr (hRespond a hStep)

theorem contains_of_step (h : p ∈ d.plans) {a : Action} (hStep : a ∈ p.steps)
    (hQuestion : a.question? = some q) : d.predicates.contains q.predicate = true := by
  obtain ⟨index, hFault⟩ := exists_planFault?_eq_none h
  rw [Blueprint.planFault?] at hFault
  split at hFault
  · cases hFault
  · split at hFault
    · cases hFault
    · rw [Option.map_eq_none_iff, Blueprint.strayQuestion?, List.find?_eq_none] at hFault
      have hMem : q ∈ p.questions :=
        List.mem_append_right _ (List.mem_filterMap.mpr ⟨a, hStep, hQuestion⟩)
      simpa using hFault q hMem

theorem mem_plans_of_issuePlan? (h : d.issuePlan? q = some p) : p ∈ d.plans :=
  List.mem_of_find?_eq_some h

theorem mem_plans_of_actionPlan? (h : d.actionPlan? name = some p) : p ∈ d.plans :=
  List.mem_of_find?_eq_some h

/-- A move requests the steps of the first plan for its request. -/
theorem exists_actionPlan?_of_requestedSteps? {m : Move} {steps : List Action}
    (h : Update.requestedSteps? d m = some steps) :
    ∃ name p, d.actionPlan? name = some p ∧ p.steps = steps := by
  rw [Update.requestedSteps?] at h
  split at h
  · next name _ =>
    obtain ⟨p, hPlan, hSteps⟩ := Option.map_eq_some_iff.mp h
    exact ⟨name, p, hPlan, hSteps⟩
  · cases h

theorem isRespond_of_requestedSteps? {m : Move} {steps : List Action}
    (h : Update.requestedSteps? d m = some steps) : ∀ a ∈ steps, a.isRespond = false := by
  obtain ⟨_, p, hPlan, rfl⟩ := exists_actionPlan?_of_requestedSteps? h
  exact fun a hStep => isRespond_eq_false (mem_plans_of_actionPlan? hPlan) hStep

theorem kind_of_issuePlan? (h : d.issuePlan? q = some p) : p.kind = .issue := by
  have hIssue : p.issue? = some q := by simpa using List.find?_some h
  rw [Plan.issue?] at hIssue
  split at hIssue
  · next hKind => exact hKind
  · cases hIssue

/-- The length of the longest issue plan. -/
def longestIssue (d : Domain) : Nat :=
  ((d.plans.filter fun p => p.kind == .issue).map fun p => p.steps.length).foldr max 0

theorem length_steps_le_longestIssue (h : d.issuePlan? q = some p) :
    p.steps.length ≤ d.longestIssue := by
  have hKind : (p.kind == .issue) = true := by rw [kind_of_issuePlan? h]; rfl
  have hMem : p ∈ d.plans.filter fun p => p.kind == .issue :=
    List.mem_filter.mpr ⟨mem_plans_of_issuePlan? h, hKind⟩
  exact List.le_max_of_le' 0 (List.mem_map.mpr ⟨p, hMem, rfl⟩) (Nat.le_refl _)

end Dialogue.Domain
