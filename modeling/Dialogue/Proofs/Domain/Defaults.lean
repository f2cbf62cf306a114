import Dialogue.Domain.Basic

/-! # Defaults of a domain

What the checks on a blueprint say of the individuals that are assumed in silence. Their sorts are
checked, so each is relevant to the question that it is the default for. No check reads defaults and
formats together, so the format of that question may still refuse the default.
-/

namespace Dialogue.Domain

variable {d : Domain} {q : Question} {predicate individual : String}

theorem defaultFault?_eq_none (h : d.defaults.get? predicate = some individual) :
    d.defaultFault? predicate individual = none := by
  have hFault := d.faultless
  rw [Blueprint.fault?, Option.or_eq_none_iff, Option.or_eq_none_iff,
    List.findSome?_eq_none_iff] at hFault
  obtain ⟨-, hDefaults, -⟩ := hFault
  rw [List.findSome?_eq_none_iff] at hDefaults
  exact hDefaults (predicate, individual) (d.defaults.get?_eq_some_iff.mp h)

theorem exists_sort_of_default (h : d.defaults.get? predicate = some individual) :
    ∃ sort, d.predicates.get? predicate = some sort ∧
      d.individuals.get? individual = some sort := by
  have hFault := defaultFault?_eq_none h
  rw [Blueprint.defaultFault?] at hFault
  split at hFault
  · cases hFault
  · cases hFault
  · next expected found hPredicate hIndividual =>
    split at hFault
    · next hSort => exact ⟨expected, hPredicate, hSort ▸ hIndividual⟩
    · cases hFault

theorem relevant_of_default (h : d.defaults.get? q.predicate = some individual) :
    d.relevant (.short individual) q = true := by
  obtain ⟨sort, hPredicate, hIndividual⟩ := exists_sort_of_default h
  rw [relevant, hPredicate, hIndividual]
  exact beq_self_eq_true sort

/-- The predicate has no format, or its format lists the individual in lower case. -/
def Allows (d : Domain) (predicate individual : String) : Prop :=
  ∀ f, d.formats.get? predicate = some f → f.allowed.contains (Text.lower individual) = true

theorem accepts_eq_true_iff {p : Proposition} :
    d.accepts p = true ↔ d.Allows p.predicate p.argument := by
  rw [accepts, Allows]
  cases hFormat : d.formats.get? p.predicate with
  | none =>
    constructor
    · rintro - f hSome
      cases hSome
    · intro _
      rfl
  | some f =>
    constructor
    · rintro hAccepts f' hSame
      cases hSame
      exact hAccepts
    · intro hAllows
      exact hAllows f rfl

end Dialogue.Domain
