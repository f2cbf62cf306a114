import Dialogue.Lecture.Task
import Dialogue.Proofs.Domain.Faults

/-! # Well-formed declarations

Declarations make a domain exactly if they are well-formed. Which domain it is depends on the order
of the plans, and of the defaults and formats of one predicate, and on no other order.
-/

namespace Dialogue

section

open Declaration

/-- Every sort is the only one of its name, and plans, defaults and formats are on what is
declared. -/
structure WellFormed (ds : List Declaration) : Prop where
  predicates : ∀ name sort sort', .predicate name sort ∈ ds → .predicate name sort' ∈ ds →
    sort = sort'
  individuals : ∀ name sort sort', .individual name sort ∈ ds → .individual name sort' ∈ ds →
    sort = sort'
  steps : ∀ p, .plan p ∈ ds → ∀ q, .respond q ∉ p.steps
  goals : ∀ p, .plan p ∈ ds → p.kind = .issue → ∃ q, p.goal = some (.question q)
  questions : ∀ p, .plan p ∈ ds → ∀ q,
    p.goal = some (.question q) ∨ (∃ a ∈ p.steps, a.question? = some q) →
      ∃ sort, .predicate q.predicate sort ∈ ds
  defaults : ∀ predicate individual, IsDefault ds predicate individual →
    ∃ sort, .predicate predicate sort ∈ ds ∧ .individual individual sort ∈ ds
  formats : ∀ predicate f, .format predicate f ∈ ds → ∃ sort, .predicate predicate sort ∈ ds

/-- The same declarations in another order. The plans keep theirs, and so do the defaults and the
formats of one predicate. -/
structure Reordered (ds ds' : List Declaration) : Prop where
  perm : ds.Perm ds'
  plans : ds.filterMap plan? = ds'.filterMap plan?
  defaults : ∀ name, (ds.filterMap default?).filter (·.1 == name) =
    (ds'.filterMap default?).filter (·.1 == name)
  formats : ∀ name, (ds.filterMap format?).filter (·.1 == name) =
    (ds'.filterMap format?).filter (·.1 == name)

end

variable {ds ds' : List Declaration}

theorem Reordered.symm (h : Reordered ds ds') : Reordered ds' ds where
  perm := h.perm.symm
  plans := h.plans.symm
  defaults name := (h.defaults name).symm
  formats name := (h.formats name).symm

theorem Plan.mem_questions_iff {p : Plan} {q : Question} : q ∈ p.questions ↔
    p.goal = some (.question q) ∨ ∃ a ∈ p.steps, a.question? = some q := by
  rw [questions, List.mem_append, List.mem_filterMap, Option.mem_toList]
  refine or_congr ?_ Iff.rfl
  rw [goalQuestion?]
  split
  · next other hGoal => simp [hGoal]
  · next hOther =>
    refine iff_of_false (by simp) ?_
    exact hOther q

namespace WellFormed

theorem sort_eq (h : WellFormed ds) {k : Named} {name sort sort' : String}
    (hMem : k.declaration name sort ∈ ds) (hMem' : k.declaration name sort' ∈ ds) :
    sort = sort' := by
  cases k with
  | predicate => exact h.predicates name sort sort' hMem hMem'
  | individual => exact h.individuals name sort sort' hMem hMem'

theorem lookup_sorts_eq_some_iff (h : WellFormed ds) {k : Named} {name sort : String} :
    (k.sorts ds).lookup name = some sort ↔ k.declaration name sort ∈ ds := by
  constructor
  · exact fun hFound => Named.mem_sorts_iff.mp (Table.mem_of_lookup hFound)
  · intro hMem
    obtain ⟨first, hFound⟩ := Named.exists_lookup_sorts hMem
    have hFirst := Named.mem_sorts_iff.mp (Table.mem_of_lookup hFound)
    rw [hFound, h.sort_eq hFirst hMem]

theorem not_violation (h : WellFormed ds) {place : Place} {fault : DomainError} :
    ¬ Violation ds place fault := by
  intro hViolation
  cases hViolation with
  | sort hHere hFirst hDiffer =>
    have hMem := Named.mem_sorts_iff.mp (List.mem_of_getElem? hHere)
    exact hDiffer (h.sort_eq (h.lookup_sorts_eq_some_iff.mp hFirst) hMem)
  | respond hPlan hMem =>
    exact h.steps _ (mem_declaredPlans_iff.mp (List.mem_of_getElem? hPlan)) _ hMem
  | noQuestion hPlan hKind hGoal =>
    obtain ⟨q, hQuestion⟩ :=
      h.goals _ (mem_declaredPlans_iff.mp (List.mem_of_getElem? hPlan)) hKind
    exact hGoal q hQuestion
  | stray hPlan hQuestion hNone =>
    obtain ⟨sort, hMem⟩ := h.questions _ (mem_declaredPlans_iff.mp (List.mem_of_getElem? hPlan)) _
      (Plan.mem_questions_iff.mp (List.mem_of_getElem? hQuestion))
    exact hNone sort hMem
  | defaultPredicate hDefault hNone =>
    obtain ⟨sort, hMem, -⟩ := h.defaults _ _ hDefault
    exact hNone sort hMem
  | defaultIndividual hDefault hNone =>
    obtain ⟨sort, -, hMem⟩ := h.defaults _ _ hDefault
    exact hNone sort hMem
  | defaultSort hDefault hExpected hFound hDiffer =>
    obtain ⟨sort, hPredicate, hIndividual⟩ := h.defaults _ _ hDefault
    have hSame := h.sort_eq (h.lookup_sorts_eq_some_iff.mp hExpected) hPredicate
    have hSame' := h.sort_eq (h.lookup_sorts_eq_some_iff.mp hFound) hIndividual
    exact hDiffer (hSame'.trans hSame.symm)
  | format hFormat hNone =>
    obtain ⟨sort, hMem⟩ := h.formats _ _ hFormat
    exact hNone sort hMem

end WellFormed

section

variable (h : ∀ place fault, ¬ Violation ds place fault)
include h

theorem lookup_sorts_of_mem {k : Named} {name sort : String}
    (hMem : k.declaration name sort ∈ ds) : (k.sorts ds).lookup name = some sort := by
  obtain ⟨first, hFirst⟩ := Named.exists_lookup_sorts hMem
  obtain ⟨i, hHere⟩ := List.getElem?_of_mem (Named.mem_sorts_iff.mpr hMem)
  by_cases hSame : first = sort
  · rw [hFirst, hSame]
  · exact absurd (.sort hHere hFirst hSame) (h _ _)

theorem sort_eq_of_not_violation {k : Named} {name sort sort' : String}
    (hMem : k.declaration name sort ∈ ds) (hMem' : k.declaration name sort' ∈ ds) :
    sort = sort' := by
  have hFound := lookup_sorts_of_mem h hMem
  rw [lookup_sorts_of_mem h hMem'] at hFound
  exact (Option.some.inj hFound).symm

theorem wellFormed_of_not_violation : WellFormed ds where
  predicates name sort sort' hMem hMem' := sort_eq_of_not_violation h (k := .predicate) hMem hMem'
  individuals name sort sort' hMem hMem' := sort_eq_of_not_violation h (k := .individual) hMem hMem'
  steps p hPlan q hMem := by
    obtain ⟨i, hHere⟩ := List.getElem?_of_mem (mem_declaredPlans_iff.mpr hPlan)
    exact h _ _ (.respond hHere hMem)
  goals p hPlan hKind := by
    obtain ⟨i, hHere⟩ := List.getElem?_of_mem (mem_declaredPlans_iff.mpr hPlan)
    refine Classical.byContradiction fun hNone => ?_
    exact h _ _ (.noQuestion hHere hKind (not_exists.mp hNone))
  questions p hPlan q hQuestion := by
    obtain ⟨i, hHere⟩ := List.getElem?_of_mem (mem_declaredPlans_iff.mpr hPlan)
    obtain ⟨j, hThere⟩ := List.getElem?_of_mem (Plan.mem_questions_iff.mpr hQuestion)
    refine Classical.byContradiction fun hNone => ?_
    exact h _ _ (.stray hHere hThere (not_exists.mp hNone))
  defaults predicate individual hDefault := by
    have hPredicate : ∃ sort, .predicate predicate sort ∈ ds := by
      refine Classical.byContradiction fun hNone => ?_
      exact h _ _ (.defaultPredicate hDefault (not_exists.mp hNone))
    have hIndividual : ∃ sort, .individual individual sort ∈ ds := by
      refine Classical.byContradiction fun hNone => ?_
      exact h _ _ (.defaultIndividual hDefault (not_exists.mp hNone))
    obtain ⟨expected, hExpected⟩ := hPredicate
    obtain ⟨found, hFound⟩ := hIndividual
    have hSame : found = expected := by
      refine Classical.byContradiction fun hDiffer => ?_
      exact h _ _ (.defaultSort hDefault (lookup_sorts_of_mem h (k := .predicate) hExpected)
        (lookup_sorts_of_mem h (k := .individual) hFound) hDiffer)
    exact ⟨expected, hExpected, hSame ▸ hFound⟩
  formats predicate f hFormat := by
    refine Classical.byContradiction fun hNone => ?_
    exact h _ _ (.format hFormat (not_exists.mp hNone))

end

theorem exists_ok_iff_wellFormed : (∃ d, Domain.ofDeclarations ds = .ok d) ↔ WellFormed ds := by
  rw [← faultOf_eq_none_iff]
  constructor
  · intro hNone
    apply wellFormed_of_not_violation
    exact fun place fault => (searches_ofDeclarations ds).missed hNone place fault trivial
  · intro hWell
    cases hFault : faultOf (Domain.ofDeclarations ds) with
    | none => rfl
    | some fault =>
      obtain ⟨place, -, hViolation, -⟩ := (searches_ofDeclarations ds).found fault hFault
      exact absurd hViolation hWell.not_violation

theorem lookup_reverse_congr {α : Type} {l m : List (String × α)} {name : String}
    (h : l.filter (·.1 == name) = m.filter (·.1 == name)) :
    l.reverse.lookup name = m.reverse.lookup name := by
  have hFilter (entries : List (String × α)) :
      entries.lookup name = (entries.filter (·.1 == name)).lookup name := by
    induction entries with
    | nil => rfl
    | cons e rest ih =>
      obtain ⟨other, value⟩ := e
      by_cases hName : other = name
      · simp [hName]
      · simp [hName, List.lookup_cons, beq_eq_false_iff_ne.mpr (Ne.symm hName), ih]
  rw [hFilter l.reverse, hFilter m.reverse, List.filter_reverse, List.filter_reverse, h]

namespace Reordered

theorem isDefault_iff (h : Reordered ds ds') {predicate individual : String} :
    IsDefault ds predicate individual ↔ IsDefault ds' predicate individual := by
  rw [Dialogue.isDefault_iff, Dialogue.isDefault_iff, Table.get?_ofList, Table.get?_ofList,
    lookup_reverse_congr (h.defaults predicate)]

theorem wellFormed (h : Reordered ds ds') (hWell : WellFormed ds) : WellFormed ds' := by
  have hSame {c : Declaration} : c ∈ ds' ↔ c ∈ ds := h.perm.mem_iff.symm
  constructor
  · intro name sort sort' hMem hMem'
    exact hWell.predicates name sort sort' (hSame.mp hMem) (hSame.mp hMem')
  · intro name sort sort' hMem hMem'
    exact hWell.individuals name sort sort' (hSame.mp hMem) (hSame.mp hMem')
  · exact fun p hPlan => hWell.steps p (hSame.mp hPlan)
  · exact fun p hPlan => hWell.goals p (hSame.mp hPlan)
  · intro p hPlan q hQuestion
    obtain ⟨sort, hMem⟩ := hWell.questions p (hSame.mp hPlan) q hQuestion
    exact ⟨sort, hSame.mpr hMem⟩
  · intro predicate individual hDefault
    obtain ⟨sort, hPredicate, hIndividual⟩ :=
      hWell.defaults predicate individual (h.isDefault_iff.mpr hDefault)
    exact ⟨sort, hSame.mpr hPredicate, hSame.mpr hIndividual⟩
  · intro predicate f hFormat
    obtain ⟨sort, hMem⟩ := hWell.formats predicate f (hSame.mp hFormat)
    exact ⟨sort, hSame.mpr hMem⟩

theorem lookup_sorts (h : Reordered ds ds') (hWell : WellFormed ds) (k : Named) (name : String) :
    (k.sorts ds).lookup name = (k.sorts ds').lookup name := by
  apply Option.ext
  intro sort
  rw [hWell.lookup_sorts_eq_some_iff, (h.wellFormed hWell).lookup_sorts_eq_some_iff,
    h.perm.mem_iff]

theorem blueprint_eq (h : Reordered ds ds') (hWell : WellFormed ds) {b b' : Blueprint}
    (hDescribes : Describes b ds) (hDescribes' : Describes b' ds') : b = b' := by
  have hPredicates : b.predicates = b'.predicates := by
    apply Table.ext_get?
    intro name
    rw [hDescribes.predicates, hDescribes'.predicates, h.lookup_sorts hWell]
  have hIndividuals : b.individuals = b'.individuals := by
    apply Table.ext_get?
    intro name
    rw [hDescribes.individuals, hDescribes'.individuals, h.lookup_sorts hWell]
  have hPlans : b.plans = b'.plans := by
    rw [hDescribes.plans, hDescribes'.plans]
    exact h.plans
  have hDefaults : b.defaults = b'.defaults := by
    apply Table.ext_get?
    intro name
    rw [hDescribes.defaults, hDescribes'.defaults, Table.get?_ofList, Table.get?_ofList,
      lookup_reverse_congr (h.defaults name)]
  have hFormats : b.formats = b'.formats := by
    apply Table.ext_get?
    intro name
    rw [hDescribes.formats, hDescribes'.formats, Table.get?_ofList, Table.get?_ofList,
      lookup_reverse_congr (h.formats name)]
  cases b
  cases b'
  simp only [Blueprint.mk.injEq]
  exact ⟨hPredicates, hIndividuals, hPlans, hDefaults, hFormats⟩

theorem ofDeclarations_eq_ok (h : Reordered ds ds') {d : Domain}
    (hMade : Domain.ofDeclarations ds = .ok d) : Domain.ofDeclarations ds' = .ok d := by
  have hWell := exists_ok_iff_wellFormed.mp ⟨d, hMade⟩
  obtain ⟨d', hMade'⟩ := exists_ok_iff_wellFormed.mpr (h.wellFormed hWell)
  have hSame := h.blueprint_eq hWell (describes_of_ofDeclarations hMade)
    (describes_of_ofDeclarations hMade')
  rw [hMade']
  cases d
  cases d'
  cases hSame
  rfl

end Reordered

namespace Domain

/-- Declarations make a domain exactly if they are well-formed, and in another order, where nothing
that counts is put before anything else, they make the same domain. If they make none, they are
refused for the first violation. -/
theorem declares_iff_wellFormed (ds : List Declaration) :
    ((∃ d, ofDeclarations ds = .ok d) ↔ WellFormed ds) ∧
      (∀ ds', Reordered ds ds' → ∀ d, ofDeclarations ds = .ok d ↔ ofDeclarations ds' = .ok d) ∧
      ∀ fault, ofDeclarations ds = .error fault ↔ IsFirstViolation ds fault := by
  refine ⟨exists_ok_iff_wellFormed, ?_, fun fault => ofDeclarations_eq_error_iff⟩
  intro ds' hReordered d
  exact ⟨hReordered.ofDeclarations_eq_ok, hReordered.symm.ofDeclarations_eq_ok⟩

/-- Declared backwards, the lecture task is the same domain. -/
theorem lecture_declared_backwards :
    Reordered Lecture.declarations Lecture.declarations.reverse ∧
      ofDeclarations Lecture.declarations.reverse = .ok Lecture.domain := by
  have hDefaults : Lecture.declarations.filterMap Declaration.default? =
      [(Lecture.bookingDay, "friday"), (Lecture.bookingCourse, Lecture.course)] := rfl
  have hFormats : Lecture.declarations.filterMap Declaration.format? =
      [(Lecture.bookingDay, .ofValues Lecture.weekdays Lecture.weekdayHint)] := rfl
  have hReordered : Reordered Lecture.declarations Lecture.declarations.reverse := by
    refine ⟨(List.reverse_perm _).symm, rfl, fun name => ?_, fun name => ?_⟩
    · rw [List.filterMap_reverse, List.filter_reverse, hDefaults]
      by_cases hDay : Lecture.bookingDay = name
      · subst hDay
        rfl
      · by_cases hCourse : Lecture.bookingCourse = name
        · subst hCourse
          rfl
        · simp [hDay, hCourse]
    · rw [List.filterMap_reverse, List.filter_reverse, hFormats]
      by_cases hDay : Lecture.bookingDay = name
      · subst hDay
        rfl
      · simp [hDay]
  refine ⟨hReordered, ?_⟩
  have hSame := (declares_iff_wellFormed Lecture.declarations).2.1 _ hReordered Lecture.domain
  exact hSame.mp Lecture.ofDeclarations_declarations

end Domain

end Dialogue
