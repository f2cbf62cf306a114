import Mathlib.Data.List.Induction
import Dialogue.Proofs.Domain.Searches

/-! # The first fault

Each check of a draft or a blueprint searches some places for what the declarations violate there,
and together they search every place. So the fault of a draft is the first violation of its
declarations.
-/

namespace Dialogue

namespace Draft

variable {entries : List (String × String)} {t t' : Table String} {e : String × String}

theorem enterSort_eq_error_iff {fault : DomainError} : enterSort t e = .error fault ↔
    ∃ first, t.get? e.1 = some first ∧ first ≠ e.2 ∧
      fault = .conflictingSort e.1 first e.2 := by
  rw [enterSort]
  cases hFound : t.get? e.1 with
  | none => simp
  | some first => by_cases hSame : first = e.2 <;> simp [hSame, eq_comm]

theorem get?_of_enterSort {name sort : String} (h : enterSort t (name, sort) = .ok t')
    (other : String) : t'.get? other = (t.get? other).or ([(name, sort)].lookup other) := by
  have hLookup : [(name, sort)].lookup other = if other = name then some sort else none := by
    by_cases hName : other = name
    · simp [hName]
    · simp [hName, List.lookup_cons, beq_eq_false_iff_ne.mpr hName]
  rw [hLookup]
  by_cases hFirst : ∃ first, t.get? name = some first
  · obtain ⟨first, hFound⟩ := hFirst
    have hSame : t' = t := by
      simp only [enterSort, hFound] at h
      split at h
      · exact (Except.ok.inj h).symm
      · cases h
    by_cases hName : other = name
    · simp [hSame, hName, hFound]
    · simp [hSame, hName]
  · have hFound : t.get? name = none := by
      rw [Option.eq_none_iff_forall_ne_some]
      exact not_exists.mp hFirst
    have hNew : t' = t.insert name sort := by
      simp only [enterSort, hFound] at h
      exact (Except.ok.inj h).symm
    by_cases hName : other = name
    · simp [hNew, hName, hFound]
    · simp [hNew, hName]

theorem sortTable_concat :
    sortTable (entries ++ [e]) = (sortTable entries >>= fun t => enterSort t e) := by
  rw [sortTable, List.foldlM_append]
  simp [sortTable]

theorem get?_of_sortTable (h : sortTable entries = .ok t) (name : String) :
    t.get? name = entries.lookup name := by
  induction entries using List.reverseRecOn generalizing t with
  | nil =>
    cases h
    rfl
  | append_singleton before e ih =>
    rw [sortTable_concat] at h
    cases hBefore : sortTable before with
    | error fault => rw [hBefore] at h; cases h
    | ok found =>
      rw [hBefore] at h
      rw [get?_of_enterSort h, ih hBefore, List.lookup_append]

end Draft

section

variable {ds : List Declaration}

/-- An entry is checked against the first sort of its name before it. -/
theorem searches_enterSort {k : Named} {before after : List (String × String)} {e : String × String}
    {t : Table String} (hSorts : k.sorts ds = before ++ e :: after)
    (hTable : Draft.sortTable before = .ok t) :
    Searches ds (· = .sort k before.length) (faultOf (Draft.enterSort t e)) := by
  have hHere : (k.sorts ds)[before.length]? = some e := by simp [hSorts]
  have hFirst (first : String) (hFound : t.get? e.1 = some first) :
      (k.sorts ds).lookup e.1 = some first := by
    rw [Draft.get?_of_sortTable hTable] at hFound
    rw [hSorts, List.lookup_append, hFound]
    rfl
  constructor
  · intro fault hFault
    rw [faultOf_eq_some_iff, Draft.enterSort_eq_error_iff] at hFault
    obtain ⟨first, hFound, hOther, rfl⟩ := hFault
    refine ⟨_, rfl, .sort hHere (hFirst first hFound) hOther, ?_⟩
    rintro _ _ rfl _
    exact Place.Before.irrefl
  -- Conversely, a violation here is one against the first sort, which stands in the table by now.
  · rintro hNone _ fault rfl hViolation
    cases hViolation with
    | @sort _ _ name first second hAt hLookup hOther =>
      rw [hHere] at hAt
      cases hAt
      cases hFound : t.get? name with
      | some found =>
        have hSame := hFirst found hFound
        rw [hLookup] at hSame
        cases hSame
        have hError : Draft.enterSort t (name, second) =
            .error (.conflictingSort name first second) :=
          Draft.enterSort_eq_error_iff.mpr ⟨first, hFound, hOther, rfl⟩
        rw [hError] at hNone
        cases hNone
      | none =>
        rw [Draft.get?_of_sortTable hTable] at hFound
        rw [hSorts, List.lookup_append, hFound] at hLookup
        simp at hLookup
        exact hOther hLookup.symm

theorem searches_sortTable_of_append (k : Named) {before after : List (String × String)}
    (hSorts : k.sorts ds = before ++ after) :
    Searches ds (fun place => ∃ i < before.length, place = .sort k i)
      (faultOf (Draft.sortTable before)) := by
  induction before using List.reverseRecOn generalizing after with
  | nil => exact Searches.nowhere.of_iff fun _ _ _ => by simp
  | append_singleton before e ih =>
    rw [List.append_assoc] at hSorts
    rw [Draft.sortTable_concat]
    refine ((ih hSorts).bind _ (fun t hTable => searches_enterSort hSorts hTable) ?_).of_iff ?_
    · rintro _ _ ⟨i, hLess, rfl⟩ rfl hBefore
      cases hBefore with
      | stage hStage => cases k <;> exact Nat.lt_irrefl _ hStage
      | sort hMore => exact Nat.lt_asymm hLess hMore
    · intro place _ _
      simp only [List.length_append, List.length_singleton, Nat.lt_succ_iff_lt_or_eq]
      constructor
      · rintro (⟨i, hLess, rfl⟩ | rfl)
        · exact ⟨i, .inl hLess, rfl⟩
        · exact ⟨_, .inr rfl, rfl⟩
      · rintro ⟨i, hLess | rfl, rfl⟩
        · exact .inl ⟨i, hLess, rfl⟩
        · exact .inr rfl

theorem searches_sortTable (k : Named) :
    Searches ds (fun place => ∃ i, place = .sort k i) (faultOf (Draft.sortTable (k.sorts ds))) := by
  refine (searches_sortTable_of_append k (List.append_nil _).symm).of_iff ?_
  intro place fault hViolation
  constructor
  · rintro ⟨i, -, rfl⟩
    exact ⟨i, rfl⟩
  · rintro ⟨i, rfl⟩
    cases hViolation with
    | sort hHere => exact ⟨i, (List.getElem?_eq_some_iff.mp hHere).1, rfl⟩

end

theorem Named.lookup_sorts_eq_none_iff {k : Named} {ds : List Declaration} {name : String} :
    (k.sorts ds).lookup name = none ↔ ∀ sort, k.declaration name sort ∉ ds := by
  rw [List.lookup_eq_none_iff]
  constructor
  · intro hNone sort hMem
    simpa using hNone _ (Named.mem_sorts_iff.mpr hMem)
  · rintro hNone ⟨other, sort⟩ hMem
    rw [bne_iff_ne, ne_eq]
    rintro rfl
    exact hNone sort (Named.mem_sorts_iff.mp hMem)

theorem Named.exists_lookup_sorts {k : Named} {ds : List Declaration} {name sort : String}
    (h : k.declaration name sort ∈ ds) : ∃ first, (k.sorts ds).lookup name = some first := by
  rw [← Option.ne_none_iff_exists', ne_eq, Named.lookup_sorts_eq_none_iff]
  exact fun hNone => hNone sort h

theorem get?_formats_eq_none_iff {ds : List Declaration} {predicate : String} :
    (Table.ofList (ds.filterMap Declaration.format?)).get? predicate = none ↔
      ∀ f, .format predicate f ∉ ds := by
  rw [Table.get?_ofList, List.lookup_eq_none_iff]
  constructor
  · intro hNone f hMem
    have hEntry : (predicate, f) ∈ ds.filterMap Declaration.format? :=
      List.mem_filterMap.mpr ⟨_, hMem, rfl⟩
    simpa using hNone _ (List.mem_reverse.mpr hEntry)
  · rintro hNone ⟨other, f⟩ hEntry
    rw [bne_iff_ne, ne_eq]
    rintro rfl
    obtain ⟨d, hMem, hFormat⟩ := List.mem_filterMap.mp (List.mem_reverse.mp hEntry)
    cases d <;> cases hFormat
    exact hNone f hMem

/-- A blueprint with what is declared, where the first sort of a name counts. -/
structure Describes (b : Blueprint) (ds : List Declaration) : Prop where
  predicates : ∀ name, b.predicates.get? name = (Named.predicate.sorts ds).lookup name
  individuals : ∀ name, b.individuals.get? name = (Named.individual.sorts ds).lookup name
  plans : b.plans = declaredPlans ds
  defaults : b.defaults = .ofList (ds.filterMap Declaration.default?)
  formats : b.formats = .ofList (ds.filterMap Declaration.format?)

namespace Describes

variable {b : Blueprint} {ds : List Declaration}

theorem get?_predicates_eq_none_iff (h : Describes b ds) {name : String} :
    b.predicates.get? name = none ↔ ∀ sort, .predicate name sort ∉ ds := by
  rw [h.predicates, Named.lookup_sorts_eq_none_iff]
  rfl

theorem get?_individuals_eq_none_iff (h : Describes b ds) {name : String} :
    b.individuals.get? name = none ↔ ∀ sort, .individual name sort ∉ ds := by
  rw [h.individuals, Named.lookup_sorts_eq_none_iff]
  rfl

theorem contains_eq_false_iff (h : Describes b ds) {name : String} :
    b.predicates.contains name = false ↔ ∀ sort, .predicate name sort ∉ ds := by
  rw [Table.contains, Option.isSome_eq_false_iff, Option.isNone_iff_eq_none,
    h.get?_predicates_eq_none_iff]

theorem isDefault_iff_mem (h : Describes b ds) {predicate individual : String} :
    IsDefault ds predicate individual ↔ (predicate, individual) ∈ b.defaults.entries := by
  rw [isDefault_iff, ← h.defaults, Table.get?_eq_some_iff]

theorem searches_strayQuestion? (h : Describes b ds) {p : Plan} {i : Nat}
    (hPlan : (declaredPlans ds)[i]? = some p) :
    Searches ds (fun place => ∃ j, place = .plan i (j + 2))
      ((b.strayQuestion? p).map fun q => .unknownPredicate i q.predicate) := by
  rw [Blueprint.strayQuestion?]
  constructor
  · intro fault hFound
    obtain ⟨q, hStray, rfl⟩ := Option.map_eq_some_iff.mp hFound
    obtain ⟨hUnknown, j, hBound, hHere, hFirst⟩ := List.find?_eq_some_iff_getElem.mp hStray
    have hQuestion : p.questions[j]? = some q := by rw [List.getElem?_eq_getElem hBound, hHere]
    have hUndeclared := h.contains_eq_false_iff.mp (Bool.not_eq_true' _ ▸ hUnknown)
    refine ⟨_, ⟨j, rfl⟩, .stray hPlan hQuestion hUndeclared, ?_⟩
    rintro _ fault' ⟨k, rfl⟩ hViolation hBefore
    cases hViolation with
    | stray hPlan' hQuestion' hUndeclared' =>
      rw [hPlan] at hPlan'
      cases hPlan'
      obtain ⟨_, rfl⟩ := List.getElem?_eq_some_iff.mp hQuestion'
      have hDeclared := hFirst k (Nat.lt_of_add_lt_add_right hBefore.lt_of_plan)
      rw [h.contains_eq_false_iff.mpr hUndeclared'] at hDeclared
      cases hDeclared
  · rintro hMissed _ fault ⟨j, rfl⟩ hViolation
    rw [Option.map_eq_none_iff, List.find?_eq_none] at hMissed
    cases hViolation with
    | stray hPlan' hQuestion hUndeclared =>
      rw [hPlan] at hPlan'
      cases hPlan'
      apply hMissed _ (List.mem_of_getElem? hQuestion)
      rw [h.contains_eq_false_iff.mpr hUndeclared]
      rfl

theorem planFault?_eq (b : Blueprint) (i : Nat) (p : Plan) : b.planFault? i p =
    (if p.steps.any Action.isRespond then some (.respondInPlan i) else none).or
      ((if p.kind = .issue ∧ p.goalQuestion? = none then some (.issueWithoutQuestion i)
        else none).or
      ((b.strayQuestion? p).map fun q => .unknownPredicate i q.predicate)) := by
  rw [Blueprint.planFault?]
  split
  · rfl
  · split <;> rfl

theorem any_isRespond_iff {p : Plan} :
    p.steps.any Action.isRespond ↔ ∃ q, .respond q ∈ p.steps := by
  rw [List.any_eq_true]
  constructor
  · rintro ⟨a, hMem, hRespond⟩
    cases a with
    | respond q => exact ⟨q, hMem⟩
    | greet | raise _ | findout _ | consult _ => cases hRespond
  · exact fun ⟨q, hMem⟩ => ⟨_, hMem, rfl⟩

theorem goalQuestion?_eq_none_iff {p : Plan} :
    p.goalQuestion? = none ↔ ∀ q, p.goal ≠ some (.question q) := by
  rw [Plan.goalQuestion?]
  split
  · next q hGoal => simp [hGoal]
  · next hOther => simpa using hOther

theorem searches_planFault? (h : Describes b ds) {p : Plan} {i : Nat}
    (hPlan : (declaredPlans ds)[i]? = some p) :
    Searches ds (fun place => ∃ check, place = .plan i check) (b.planFault? i p) := by
  rw [planFault?_eq]
  refine ((Searches.ite (.plan i 0) ?_ ?_).or
    (fun _ => (Searches.ite (.plan i 1) ?_ ?_).or
      (fun _ => h.searches_strayQuestion? hPlan) ?_) ?_).of_iff ?_
  · intro hRespond
    obtain ⟨q, hMem⟩ := any_isRespond_iff.mp hRespond
    exact .respond hPlan hMem
  · intro fault hViolation
    cases hViolation with
    | respond hPlan' hMem =>
      rw [hPlan] at hPlan'
      cases hPlan'
      exact any_isRespond_iff.mpr ⟨_, hMem⟩
  · rintro ⟨hKind, hGoal⟩
    exact .noQuestion hPlan hKind (goalQuestion?_eq_none_iff.mp hGoal)
  · intro fault hViolation
    cases hViolation with
    | noQuestion hPlan' hKind hGoal =>
      rw [hPlan] at hPlan'
      cases hPlan'
      exact ⟨hKind, goalQuestion?_eq_none_iff.mpr hGoal⟩
  · rintro _ _ rfl ⟨j, rfl⟩ hBefore
    have hLess := hBefore.lt_of_plan
    omega
  · rintro _ _ rfl (rfl | ⟨j, rfl⟩) hBefore
    · exact Nat.not_lt_zero _ hBefore.lt_of_plan
    · exact Nat.not_lt_zero _ hBefore.lt_of_plan
  · intro place _ _
    constructor
    · rintro (rfl | rfl | ⟨j, rfl⟩)
      · exact ⟨_, rfl⟩
      · exact ⟨_, rfl⟩
      · exact ⟨_, rfl⟩
    · rintro ⟨check, rfl⟩
      match check with
      | 0 => exact .inl rfl
      | 1 => exact .inr (.inl rfl)
      | j + 2 => exact .inr (.inr ⟨j, rfl⟩)

theorem searches_plans (h : Describes b ds) :
    Searches ds (fun place => place.stage = 2)
      (b.plans.zipIdx.findSome? fun e => b.planFault? e.2 e.1) := by
  have hOrder : b.plans.zipIdx.Pairwise fun a c => ∀ x y : Place,
      (∃ check, x = .plan a.2 check) → (∃ check, y = .plan c.2 check) → ¬ y.Before x := by
    rw [List.pairwise_iff_getElem]
    rintro i j _ _ hLess x y ⟨check, rfl⟩ ⟨check', rfl⟩ hBefore
    simp only [List.getElem_zipIdx, Nat.zero_add] at hBefore
    cases hBefore with
    | stage hStage => exact Nat.lt_irrefl _ hStage
    | plan _ _ hMore => exact Nat.lt_asymm hLess hMore
    | planCheck => exact Nat.lt_irrefl _ hLess
  refine (Searches.findSome? (fun e hMem => h.searches_planFault? (i := e.2) ?_) hOrder).of_iff ?_
  · rw [← h.plans]
    simpa using List.mk_mem_zipIdx_iff_getElem?.mp hMem
  · intro place fault hViolation
    constructor
    · rintro ⟨e, -, check, rfl⟩
      rfl
    · intro hStage
      have hAt {i : Nat} {p : Plan} (hPlan : (declaredPlans ds)[i]? = some p) :
          (p, i) ∈ b.plans.zipIdx := by
        rw [h.plans]
        exact List.mk_mem_zipIdx_iff_getElem?.mpr hPlan
      cases hViolation with
      | respond hPlan | noQuestion hPlan | stray hPlan => exact ⟨_, hAt hPlan, _, rfl⟩
      | @sort k => cases k <;> cases hStage
      | defaultPredicate | defaultIndividual | defaultSort | format => cases hStage

theorem searches_defaultSort (h : Describes b ds) {predicate individual expected found : String}
    (hDefault : IsDefault ds predicate individual)
    (hExpected : b.predicates.get? predicate = some expected)
    (hFound : b.individuals.get? individual = some found) :
    Searches ds (· = .default predicate 2) (if found ≠ expected then
      some (.sortMismatch predicate individual expected found) else none) := by
  refine .ite _ ?_ ?_
  · intro hDiffer
    rw [h.predicates] at hExpected
    rw [h.individuals] at hFound
    exact .defaultSort hDefault hExpected hFound hDiffer
  · intro fault hViolation
    cases hViolation with
    | defaultSort hOther hExpected' hFound' hDiffer =>
      rw [← h.predicates, hExpected] at hExpected'
      rw [← h.individuals, hOther.eq hDefault, hFound] at hFound'
      cases hExpected'
      cases hFound'
      exact hDiffer

theorem searches_defaultFault? (h : Describes b ds) {predicate individual : String}
    (hDefault : IsDefault ds predicate individual) :
    Searches ds (fun place => ∃ check, place = .default predicate check)
      (b.defaultFault? predicate individual) := by
  rw [Blueprint.defaultFault?]
  cases hExpected : b.predicates.get? predicate with
  | none =>
    have hUndeclared := h.get?_predicates_eq_none_iff.mp hExpected
    refine .of_first ⟨0, rfl⟩ (.defaultPredicate hDefault hUndeclared) ?_
    rintro _ _ ⟨check, rfl⟩ _ hBefore
    exact Nat.not_lt_zero _ hBefore.lt_of_default
  | some expected =>
    have hDeclared : ¬ ∀ sort, .predicate predicate sort ∉ ds := by
      rw [← h.get?_predicates_eq_none_iff, hExpected]
      exact Option.some_ne_none expected
    cases hFound : b.individuals.get? individual with
    | none =>
      have hUndeclared := h.get?_individuals_eq_none_iff.mp hFound
      refine .of_first ⟨1, rfl⟩ (.defaultIndividual hDefault hUndeclared) ?_
      rintro _ _ ⟨check, rfl⟩ hViolation hBefore
      have hLess := hBefore.lt_of_default
      cases hViolation with
      | defaultPredicate _ hNone => exact hDeclared hNone
      | defaultIndividual | defaultSort => omega
    | some found =>
      have hKnown : ¬ ∀ sort, .individual individual sort ∉ ds := by
        rw [← h.get?_individuals_eq_none_iff, hFound]
        exact Option.some_ne_none found
      have hCheck := h.searches_defaultSort hDefault hExpected hFound
      simp only [ne_eq, ite_not] at hCheck
      refine hCheck.of_iff ?_
      intro place fault hViolation
      constructor
      · rintro rfl
        exact ⟨2, rfl⟩
      · rintro ⟨check, rfl⟩
        cases hViolation with
        | defaultPredicate _ hNone => exact absurd hNone hDeclared
        | defaultIndividual hOther hNone => exact absurd (hOther.eq hDefault ▸ hNone) hKnown
        | defaultSort => rfl

theorem searches_defaults (h : Describes b ds) :
    Searches ds (fun place => place.stage = 3)
      (b.defaults.entries.findSome? fun e => b.defaultFault? e.1 e.2) := by
  have hOrder : b.defaults.entries.Pairwise fun a c => ∀ x y : Place,
      (∃ check, x = .default a.1 check) → (∃ check, y = .default c.1 check) → ¬ y.Before x := by
    refine b.defaults.sorted.imp ?_
    rintro ⟨p, _⟩ ⟨q, _⟩ hLess _ _ ⟨check, rfl⟩ ⟨check', rfl⟩ hBefore
    cases hBefore with
    | stage hStage => exact Nat.lt_irrefl _ hStage
    | default _ _ hMore => exact String.lt_asymm hLess hMore
    | defaultCheck => exact String.lt_irrefl _ hLess
  refine (Searches.findSome? (fun e hMem => ?_) hOrder).of_iff ?_
  · exact h.searches_defaultFault? (h.isDefault_iff_mem.mpr hMem)
  · intro place fault hViolation
    constructor
    · rintro ⟨e, -, check, rfl⟩
      rfl
    · intro hStage
      cases hViolation with
      | defaultPredicate hDefault | defaultIndividual hDefault | defaultSort hDefault =>
        exact ⟨_, h.isDefault_iff_mem.mp hDefault, _, rfl⟩
      | @sort k => cases k <;> cases hStage
      | respond | noQuestion | stray | format => cases hStage

theorem mem_names_formats_iff (h : Describes b ds) {predicate : String} :
    predicate ∈ b.formats.names ↔ ∃ f, .format predicate f ∈ ds := by
  rw [Table.names, List.mem_map]
  constructor
  · rintro ⟨⟨_, f⟩, hEntry, rfl⟩
    have hFound := b.formats.get?_eq_some_iff.mpr hEntry
    refine Classical.byContradiction fun hNone => ?_
    rw [h.formats, get?_formats_eq_none_iff.mpr (not_exists.mp hNone)] at hFound
    cases hFound
  · rintro ⟨f, hMem⟩
    have hSome : b.formats.get? predicate ≠ none := by
      rw [h.formats, ne_eq, get?_formats_eq_none_iff]
      exact fun hNone => hNone f hMem
    obtain ⟨last, hFound⟩ := Option.ne_none_iff_exists'.mp hSome
    exact ⟨_, b.formats.get?_eq_some_iff.mp hFound, rfl⟩

theorem searches_formats (h : Describes b ds) :
    Searches ds (fun place => place.stage = 4) (b.formats.names.findSome? b.formatFault?) := by
  have hOrder : b.formats.names.Pairwise fun a c => ∀ x y : Place,
      x = .format a → y = .format c → ¬ y.Before x := by
    refine (List.pairwise_map.mpr b.formats.sorted).imp ?_
    rintro a c hLess _ _ rfl rfl hBefore
    exact String.lt_asymm hLess hBefore.lt_of_format
  refine (Searches.findSome? (fun predicate hMem => ?_) hOrder).of_iff ?_
  · obtain ⟨f, hFormat⟩ := h.mem_names_formats_iff.mp hMem
    have hCheck : Searches ds (· = .format predicate) (if ¬ b.predicates.contains predicate then
        some (.unknownTablePredicate .formats predicate) else none) := by
      refine .ite _ ?_ ?_
      · intro hUnknown
        rw [Bool.not_eq_true] at hUnknown
        exact .format hFormat (h.contains_eq_false_iff.mp hUnknown)
      · intro fault hViolation
        cases hViolation with
        | format _ hNone =>
          rw [Bool.not_eq_true]
          exact h.contains_eq_false_iff.mpr hNone
    simpa only [Blueprint.formatFault?, ite_not] using hCheck
  · intro place fault hViolation
    constructor
    · rintro ⟨predicate, -, rfl⟩
      rfl
    · intro hStage
      cases hViolation with
      | format hMem => exact ⟨_, h.mem_names_formats_iff.mpr ⟨_, hMem⟩, rfl⟩
      | @sort k => cases k <;> cases hStage
      | respond | noQuestion | stray | defaultPredicate | defaultIndividual | defaultSort =>
        cases hStage

/-- What is described is searched for every violation but two sorts of a name. -/
theorem searches_fault? (h : Describes b ds) :
    Searches ds (fun place => 2 ≤ place.stage) b.fault? := by
  refine (h.searches_plans.or (fun _ => h.searches_defaults.or (fun _ => h.searches_formats) ?_)
    ?_).of_iff ?_
  · intro x y hHere hLater hBefore
    have hLe := hBefore.stage_le
    omega
  · intro x y hHere hLater hBefore
    have hLe := hBefore.stage_le
    omega
  · intro place _ _
    have hBound := place.stage_le
    omega

end Describes

/-- The blueprint with all that is declared, once the sorts are in their tables. -/
def declaredBlueprint (ds : List Declaration) (predicates individuals : Table String) :
    Blueprint where
  predicates := predicates
  individuals := individuals
  plans := declaredPlans ds
  defaults := .ofList (ds.filterMap Declaration.default?)
  formats := .ofList (ds.filterMap Declaration.format?)

section

variable {ds : List Declaration} {predicates individuals : Table String}

theorem ofDeclarations_eq (ds : List Declaration) : Domain.ofDeclarations ds =
    (Draft.sortTable (Named.predicate.sorts ds) >>= fun predicates =>
      Draft.sortTable (Named.individual.sorts ds) >>= fun individuals =>
        (declaredBlueprint ds predicates individuals).build) := by
  rw [Domain.ofDeclarations, Draft.ofDeclarations, Draft.foldl_declare]
  rfl

theorem describes_declaredBlueprint
    (hPredicates : Draft.sortTable (Named.predicate.sorts ds) = .ok predicates)
    (hIndividuals : Draft.sortTable (Named.individual.sorts ds) = .ok individuals) :
    Describes (declaredBlueprint ds predicates individuals) ds where
  predicates := Draft.get?_of_sortTable hPredicates
  individuals := Draft.get?_of_sortTable hIndividuals
  plans := rfl
  defaults := rfl
  formats := rfl

theorem describes_of_ofDeclarations {d : Domain} (h : Domain.ofDeclarations ds = .ok d) :
    Describes d.toBlueprint ds := by
  rw [ofDeclarations_eq] at h
  cases hPredicates : Draft.sortTable (Named.predicate.sorts ds) with
  | error fault => rw [hPredicates] at h; cases h
  | ok predicates =>
    cases hIndividuals : Draft.sortTable (Named.individual.sorts ds) with
    | error fault => rw [hPredicates, hIndividuals] at h; cases h
    | ok individuals =>
      rw [hPredicates, hIndividuals] at h
      rw [Blueprint.build_eq_ok_iff.mp h]
      exact describes_declaredBlueprint hPredicates hIndividuals

theorem searches_ofDeclarations (ds : List Declaration) :
    Searches ds (fun _ => True) (faultOf (Domain.ofDeclarations ds)) := by
  rw [ofDeclarations_eq]
  refine ((searches_sortTable .predicate).bind _ (fun predicates hPredicates =>
    (searches_sortTable .individual).bind (fun place => 2 ≤ place.stage)
      (fun individuals hIndividuals => ?_) ?_) ?_).of_iff ?_
  · rw [faultOf_build]
    exact (describes_declaredBlueprint hPredicates hIndividuals).searches_fault?
  · rintro _ y ⟨i, rfl⟩ hLater hBefore
    exact Nat.not_succ_le_self 1 (Nat.le_trans hLater hBefore.stage_le)
  · rintro _ _ ⟨i, rfl⟩ (⟨j, rfl⟩ | hLater) hBefore
    · exact Nat.not_succ_le_zero 0 hBefore.stage_le
    · exact Nat.not_succ_le_zero 1 (Nat.le_trans hLater hBefore.stage_le)
  · intro place _ _
    refine iff_of_true ?_ trivial
    cases place with
    | sort k i =>
      cases k with
      | predicate => exact .inl ⟨i, rfl⟩
      | individual => exact .inr (.inl ⟨i, rfl⟩)
    | plan | default | format => exact .inr (.inr (by simp [Place.stage]))

/-- The fault that declarations are refused for is their first violation. -/
theorem ofDeclarations_eq_error_iff {fault : DomainError} :
    Domain.ofDeclarations ds = .error fault ↔ IsFirstViolation ds fault := by
  rw [← faultOf_eq_some_iff]
  exact (searches_ofDeclarations ds).eq_some_iff

end

end Dialogue
