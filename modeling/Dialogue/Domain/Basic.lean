import Dialogue.Domain.Blueprint

/-! # Domains

A blueprint without a fault, and what a dialogue asks of it.
-/

namespace Dialogue

structure Domain extends Blueprint where
  faultless : toBlueprint.fault? = none

/-- The domain that a blueprint describes, or its first fault. -/
def Blueprint.build (b : Blueprint) : Except DomainError Domain :=
  match h : b.fault? with
  | none => .ok ⟨b, h⟩
  | some fault => .error fault

theorem Blueprint.build_eq_ok_iff {b : Blueprint} {d : Domain} :
    b.build = .ok d ↔ d.toBlueprint = b := by
  unfold build
  split
  · next h =>
    exact ⟨fun he => by rw [← Except.ok.inj he], fun he => by subst he; rfl⟩
  · next fault h =>
    refine ⟨fun he => by simp at he, fun he => ?_⟩
    subst he
    rw [d.faultless] at h
    simp at h

theorem Blueprint.build_eq_error_iff {b : Blueprint} {fault : DomainError} :
    b.build = .error fault ↔ b.fault? = some fault := by
  unfold build
  split <;> simp_all

namespace Domain

def issuePlan? (d : Domain) (q : Question) : Option Plan :=
  d.plans.find? fun p => p.issue? == some q

def actionPlan? (d : Domain) (name : String) : Option Plan :=
  d.plans.find? fun p => p.request? == some name

/-- The fact to assume when the user stays silent on a predicate. -/
def default? (d : Domain) (predicate : String) : Option Proposition :=
  (d.defaults.get? predicate).map fun individual => ⟨predicate, individual⟩

theorem resolves_of_default? {d : Domain} {q : Question} {p : Proposition}
    (h : d.default? q.predicate = some p) : p.resolves q = true := by
  obtain ⟨individual, _, rfl⟩ := Option.map_eq_some_iff.mp h
  exact beq_self_eq_true q.predicate

/-- A predicate without a format accepts every answer. -/
def accepts (d : Domain) (p : Proposition) : Bool :=
  match d.formats.get? p.predicate with
  | some f => f.accepts p.argument
  | none => true

/-- A full answer is relevant to a question on its predicate; a short one to a question on a
predicate that ranges over the sort of its individual. -/
def relevant (d : Domain) (a : Answer) (q : Question) : Bool :=
  match a with
  | .full p => p.resolves q
  | .short individual =>
    match d.individuals.get? individual, d.predicates.get? q.predicate with
    | some found, some expected => found == expected
    | _, _ => false

end Domain

end Dialogue
