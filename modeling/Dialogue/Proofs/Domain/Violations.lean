import Mathlib.Data.List.Basic
import Dialogue.Proofs.Domain.Listing

/-! # What declarations violate

Each violation of the rules for a domain stands at a place, and the places are ordered. The checks
go through the places in that order, so declarations are refused for their first violation.
-/

namespace Dialogue

/-- What is declared with a sort. -/
inductive Named where
  | predicate
  | individual
  deriving DecidableEq

namespace Named

def declaration : Named → String → String → Declaration
  | predicate => .predicate
  | individual => .individual

/-- The names that are declared, with their sorts, in the order of the declarations. -/
def sorts : Named → List Declaration → List (String × String)
  | predicate, ds => ds.filterMap Declaration.predicate?
  | individual, ds => ds.filterMap Declaration.individual?

theorem mem_sorts_iff {k : Named} {ds : List Declaration} {name sort : String} :
    (name, sort) ∈ k.sorts ds ↔ k.declaration name sort ∈ ds := by
  cases k with
  | predicate | individual =>
    rw [sorts, List.mem_filterMap]
    constructor
    · rintro ⟨d, hMem, hSort⟩
      cases d <;> cases hSort
      exact hMem
    · exact fun hMem => ⟨_, hMem, rfl⟩

end Named

/-- Where a violation stands. -/
inductive Place where
  /-- The declaration of a predicate, or that of an individual, counted among those. -/
  | sort (k : Named) (index : Nat)
  /-- A plan, and what is checked of it: its steps, its goal, and then each of its questions. -/
  | plan (index check : Nat)
  /-- A default, and what is checked of it: its predicate, its individual, and then its sort. -/
  | default (predicate : String) (check : Nat)
  | format (predicate : String)

namespace Place

def stage : Place → Nat
  | sort .predicate _ => 0
  | sort .individual _ => 1
  | plan _ _ => 2
  | default _ _ => 3
  | format _ => 4

inductive Before : Place → Place → Prop where
  | stage {a b : Place} : a.stage < b.stage → Before a b
  | sort {k : Named} {i j : Nat} : i < j → Before (sort k i) (sort k j)
  | plan {i j : Nat} (check check' : Nat) : i < j → Before (plan i check) (plan j check')
  | planCheck {i check check' : Nat} : check < check' → Before (plan i check) (plan i check')
  | default {p q : String} (check check' : Nat) :
      p < q → Before (default p check) (default q check')
  | defaultCheck {p : String} {check check' : Nat} : check < check' →
      Before (default p check) (default p check')
  | format {p q : String} : p < q → Before (format p) (format q)

theorem stage_le (place : Place) : place.stage ≤ 4 := by
  cases place with
  | sort k _ => cases k <;> simp [stage]
  | plan | default | format => simp [stage]

theorem Before.irrefl {place : Place} : ¬ place.Before place := by
  intro h
  cases h with
  | stage hLess => exact Nat.lt_irrefl _ hLess
  | sort hLess | plan _ _ hLess | planCheck hLess | defaultCheck hLess =>
    exact Nat.lt_irrefl _ hLess
  | default _ _ hLess | format hLess => exact String.lt_irrefl _ hLess

theorem Before.stage_le {a b : Place} (h : Before a b) : a.stage ≤ b.stage := by
  cases h with
  | stage hLess => exact Nat.le_of_lt hLess
  | @sort k _ _ _ => cases k <;> exact Nat.le_refl _
  | plan | planCheck | default | defaultCheck | format => exact Nat.le_refl _

theorem Before.lt_of_plan {i check check' : Nat}
    (h : (Place.plan i check).Before (.plan i check')) : check < check' := by
  cases h with
  | stage hLess | plan _ _ hLess => exact absurd hLess (Nat.lt_irrefl _)
  | planCheck hLess => exact hLess

theorem Before.lt_of_default {predicate : String} {check check' : Nat}
    (h : (Place.default predicate check).Before (.default predicate check')) : check < check' := by
  cases h with
  | stage hLess => exact absurd hLess (Nat.lt_irrefl _)
  | default _ _ hLess => exact absurd hLess (String.lt_irrefl _)
  | defaultCheck hLess => exact hLess

theorem Before.lt_of_format {p q : String} (h : (Place.format p).Before (.format q)) : p < q := by
  cases h with
  | stage hLess => exact absurd hLess (Nat.lt_irrefl _)
  | format hLess => exact hLess

theorem eq_or_before (a b : Place) : a = b ∨ a.Before b ∨ b.Before a := by
  rcases Nat.lt_trichotomy a.stage b.stage with hLess | hStage | hMore
  · exact .inr (.inl (.stage hLess))
  · cases a <;> cases b
    case sort.sort k i l j =>
      have hKind : k = l := by
        cases k <;> cases l <;> cases hStage <;> rfl
      subst hKind
      rcases Nat.lt_trichotomy i j with hLess | rfl | hMore
      · exact .inr (.inl (.sort hLess))
      · exact .inl rfl
      · exact .inr (.inr (.sort hMore))
    case plan.plan i c j d =>
      rcases Nat.lt_trichotomy i j with hLess | rfl | hMore
      · exact .inr (.inl (.plan c d hLess))
      · rcases Nat.lt_trichotomy c d with hLess | rfl | hMore
        · exact .inr (.inl (.planCheck hLess))
        · exact .inl rfl
        · exact .inr (.inr (.planCheck hMore))
      · exact .inr (.inr (.plan d c hMore))
    case default.default p c q d =>
      rcases Std.lt_trichotomy p q with hLess | rfl | hMore
      · exact .inr (.inl (.default c d hLess))
      · rcases Nat.lt_trichotomy c d with hLess | rfl | hMore
        · exact .inr (.inl (.defaultCheck hLess))
        · exact .inl rfl
        · exact .inr (.inr (.defaultCheck hMore))
      · exact .inr (.inr (.default d c hMore))
    case format.format p q =>
      rcases Std.lt_trichotomy p q with hLess | rfl | hMore
      · exact .inr (.inl (.format hLess))
      · exact .inl rfl
      · exact .inr (.inr (.format hMore))
    -- Places of different kinds stand at different stages.
    case sort.plan k _ _ _ | sort.default k _ _ _ | sort.format k _ _ =>
      cases k <;> cases hStage
    case plan.sort _ _ k _ | default.sort _ _ k _ | format.sort _ k _ =>
      cases k <;> cases hStage
    all_goals cases hStage
  · exact .inr (.inr (.stage hMore))

end Place

section

open Declaration

def declaredPlans (ds : List Declaration) : List Plan :=
  ds.filterMap plan?

/-- The last individual that is declared as the default of a predicate. -/
def IsDefault (ds : List Declaration) (predicate individual : String) : Prop :=
  ∃ before after, ds = before ++ .default predicate individual :: after ∧
    ∀ other, .default predicate other ∉ after

/-- What the declarations violate, and where. -/
inductive Violation (ds : List Declaration) : Place → DomainError → Prop where
  | sort {k : Named} {i : Nat} {name first second : String} :
      (k.sorts ds)[i]? = some (name, second) → (k.sorts ds).lookup name = some first →
      first ≠ second → Violation ds (.sort k i) (.conflictingSort name first second)
  | respond {i : Nat} {p : Plan} {q : Question} : (declaredPlans ds)[i]? = some p →
      .respond q ∈ p.steps → Violation ds (.plan i 0) (.respondInPlan i)
  | noQuestion {i : Nat} {p : Plan} : (declaredPlans ds)[i]? = some p → p.kind = .issue →
      (∀ q, p.goal ≠ some (.question q)) → Violation ds (.plan i 1) (.issueWithoutQuestion i)
  | stray {i j : Nat} {p : Plan} {q : Question} : (declaredPlans ds)[i]? = some p →
      p.questions[j]? = some q → (∀ sort, .predicate q.predicate sort ∉ ds) →
      Violation ds (.plan i (j + 2)) (.unknownPredicate i q.predicate)
  | defaultPredicate {predicate individual : String} : IsDefault ds predicate individual →
      (∀ sort, .predicate predicate sort ∉ ds) →
      Violation ds (.default predicate 0) (.unknownTablePredicate .defaults predicate)
  | defaultIndividual {predicate individual : String} : IsDefault ds predicate individual →
      (∀ sort, .individual individual sort ∉ ds) →
      Violation ds (.default predicate 1) (.unknownIndividual predicate individual)
  | defaultSort {predicate individual expected found : String} :
      IsDefault ds predicate individual →
      (Named.predicate.sorts ds).lookup predicate = some expected →
      (Named.individual.sorts ds).lookup individual = some found → found ≠ expected →
      Violation ds (.default predicate 2) (.sortMismatch predicate individual expected found)
  | format {predicate : String} {f : Format} : .format predicate f ∈ ds →
      (∀ sort, .predicate predicate sort ∉ ds) →
      Violation ds (.format predicate) (.unknownTablePredicate .formats predicate)

/-- Nothing is violated at an earlier place. -/
def IsFirstViolation (ds : List Declaration) (fault : DomainError) : Prop :=
  ∃ place, Violation ds place fault ∧
    ∀ earlier fault', Violation ds earlier fault' → ¬ earlier.Before place

end

variable {ds : List Declaration} {fault fault' : DomainError} {place : Place}

theorem mem_declaredPlans_iff {p : Plan} : p ∈ declaredPlans ds ↔ .plan p ∈ ds := by
  rw [declaredPlans, List.mem_filterMap]
  constructor
  · rintro ⟨d, hMem, hPlan⟩
    cases d <;> cases hPlan
    exact hMem
  · exact fun hMem => ⟨_, hMem, rfl⟩

theorem lookup_reverse_eq_some_iff {α : Type} {l : List (String × α)} {name : String} {value : α} :
    l.reverse.lookup name = some value ↔ ∃ before after, l = before ++ (name, value) :: after ∧
      ∀ e ∈ after, e.1 ≠ name := by
  rw [List.lookup_eq_some_iff]
  constructor
  · rintro ⟨after, before, hList, hAfter⟩
    refine ⟨before.reverse, after.reverse, ?_, ?_⟩
    · rw [← List.reverse_reverse l, hList]
      simp
    · intro e hMem hName
      simpa [hName] using hAfter e (List.mem_reverse.mp hMem)
  · rintro ⟨before, after, rfl, hAfter⟩
    refine ⟨after.reverse, before.reverse, by simp, ?_⟩
    intro e hMem
    have hOther := hAfter e (List.mem_reverse.mp hMem)
    simpa using Ne.symm hOther

theorem isDefault_iff {predicate individual : String} : IsDefault ds predicate individual ↔
    (Table.ofList (ds.filterMap Declaration.default?)).get? predicate = some individual := by
  rw [Table.get?_ofList, lookup_reverse_eq_some_iff]
  constructor
  · rintro ⟨before, after, rfl, hLast⟩
    refine ⟨before.filterMap Declaration.default?, after.filterMap Declaration.default?, ?_, ?_⟩
    · simp [Declaration.default?]
    · rintro ⟨name, other⟩ hMem rfl
      obtain ⟨d, hMem, hDefault⟩ := List.mem_filterMap.mp hMem
      cases d <;> cases hDefault
      exact hLast _ hMem
  · rintro ⟨before, after, hList, hLast⟩
    obtain ⟨front, back, rfl, rfl, hBack⟩ := List.filterMap_eq_append_iff.mp hList
    obtain ⟨skipped, d, rest, rfl, hSkipped, hDefault, rfl⟩ := List.filterMap_eq_cons_iff.mp hBack
    cases d <;> cases hDefault
    refine ⟨front ++ skipped, rest, by simp, ?_⟩
    intro other hMem
    have hOther : (predicate, other) ∈ rest.filterMap Declaration.default? :=
      List.mem_filterMap.mpr ⟨_, hMem, rfl⟩
    exact hLast _ hOther rfl

theorem IsDefault.eq {predicate individual other : String} (h : IsDefault ds predicate individual)
    (h' : IsDefault ds predicate other) : individual = other := by
  rw [isDefault_iff] at h h'
  exact Option.some.inj (h.symm.trans h')

theorem Violation.eq (h : Violation ds place fault) (h' : Violation ds place fault') :
    fault = fault' := by
  cases h with
  | sort hHere hFirst _ =>
    cases h' with
    | sort hHere' hFirst' _ =>
      rw [hHere] at hHere'
      cases hHere'
      rw [hFirst] at hFirst'
      cases hFirst'
      rfl
  | respond => cases h'; rfl
  | noQuestion => cases h'; rfl
  | stray hPlan hQuestion _ =>
    cases h' with
    | stray hPlan' hQuestion' _ =>
      rw [hPlan] at hPlan'
      cases hPlan'
      rw [hQuestion] at hQuestion'
      cases hQuestion'
      rfl
  | defaultPredicate => cases h'; rfl
  | defaultIndividual hDefault _ =>
    cases h' with
    | defaultIndividual hDefault' _ =>
      cases hDefault.eq hDefault'
      rfl
  | defaultSort hDefault hExpected hFound _ =>
    cases h' with
    | defaultSort hDefault' hExpected' hFound' _ =>
      cases hDefault.eq hDefault'
      rw [hExpected] at hExpected'
      cases hExpected'
      rw [hFound] at hFound'
      cases hFound'
      rfl
  | format => cases h'; rfl

theorem IsFirstViolation.eq (h : IsFirstViolation ds fault) (h' : IsFirstViolation ds fault') :
    fault = fault' := by
  obtain ⟨place, hViolation, hFirst⟩ := h
  obtain ⟨place', hViolation', hFirst'⟩ := h'
  rcases place.eq_or_before place' with rfl | hBefore | hBefore
  · exact hViolation.eq hViolation'
  · exact absurd hBefore (hFirst' _ _ hViolation)
  · exact absurd hBefore (hFirst _ _ hViolation')

end Dialogue
