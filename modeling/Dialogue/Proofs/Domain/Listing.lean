import Dialogue.Domain.Draft
import Dialogue.Proofs.Saved.Roundtrip

/-! # Listed domains

The same entries can be declared one by one or saved as one object. A table that is loaded keeps the
last value under a name, where declarations refuse a second sort.
-/

namespace Dialogue

/-- The entries of a domain in the order given. Names may come again. -/
structure Listing where
  predicates : List (String × String)
  individuals : List (String × String)
  plans : List Plan
  defaults : List (String × String)
  /-- For a predicate, the values it accepts and the hint for any other. -/
  formats : List (String × List String × String)

namespace Listing

def declarations (l : Listing) : List Declaration :=
  l.predicates.map (fun e => .predicate e.1 e.2) ++
    (l.individuals.map (fun e => .individual e.1 e.2) ++
      (l.plans.map .plan ++
        (l.defaults.map (fun e => .default e.1 e.2) ++
          l.formats.map (fun e => .format e.1 (.ofValues e.2.1 e.2.2)))))

def json (l : Listing) : Json :=
  .obj [("predicates", .obj (l.predicates.map fun e => (e.1, save e.2))),
    ("individuals", .obj (l.individuals.map fun e => (e.1, save e.2))),
    ("plans", save l.plans),
    ("defaults", .obj (l.defaults.map fun e => (e.1, save e.2))),
    ("formats", .obj (l.formats.map fun e =>
      (e.1, .obj [("allowed", save e.2.1), ("hint", save e.2.2)])))]

/-- The tables of the entries, where the last one with a name counts. -/
def blueprint (l : Listing) : Blueprint where
  predicates := .ofList l.predicates
  individuals := .ofList l.individuals
  plans := l.plans
  defaults := .ofList l.defaults
  formats := .ofList (l.formats.map fun e => (e.1, .ofValues e.2.1 e.2.2))

end Listing

section Reading

open Json

theorem Listing.load?_json (l : Listing) : load? l.json = some l.blueprint := by
  have hSorts (entries : List (String × String)) :
      load? (Json.obj (entries.map fun e => (e.1, save e.2))) = some (Table.ofList entries) := by
    have hLoad := load?_members (f := save) (g := id) fun e (_ : e ∈ entries) =>
      LawfulSaved.load?_save e.2
    rwa [show entries.map (fun e => (e.1, id e.2)) = entries from List.map_id entries] at hLoad
  have hFormats := load?_members
    (f := fun v : List String × String => Json.obj [("allowed", save v.1), ("hint", save v.2)])
    (g := fun v => Format.ofValues v.1 v.2) fun e (_ : e ∈ l.formats) => by
      unfold instSavedFormat
      simp [members?, Members.find?]
  unfold instSavedBlueprint
  simp [json, members?, Members.find?, hSorts, hFormats, blueprint]

end Reading

/-- Nothing is named twice with different sorts. -/
def SameSorts (entries : List (String × String)) : Prop :=
  ∀ e ∈ entries, ∀ e' ∈ entries, e.1 = e'.1 → e.2 = e'.2

namespace Draft

variable {t : Table String} {e : String × String} {entries : List (String × String)}

/-- The entries agree with one another and with the table. -/
structure Fits (t : Table String) (entries : List (String × String)) : Prop where
  table : ∀ e ∈ entries, ∀ sort, t.get? e.1 = some sort → sort = e.2
  entries : SameSorts entries

theorem Fits.tail (h : Fits t (e :: entries)) : Fits (t.insert e.1 e.2) entries where
  table e' hMem sort hFound := by
    have hMem' := List.mem_cons_of_mem e hMem
    rw [Table.get?_insert] at hFound
    split at hFound
    · next hName =>
      rw [← Option.some.inj hFound]
      exact h.entries e List.mem_cons_self e' hMem' hName.symm
    · exact h.table e' hMem' sort hFound
  entries e' hMem e'' hMem' :=
    h.entries e' (List.mem_cons_of_mem e hMem) e'' (List.mem_cons_of_mem e hMem')

theorem Fits.cons (hHead : ∀ sort, t.get? e.1 = some sort → sort = e.2)
    (h : Fits (t.insert e.1 e.2) entries) : Fits t (e :: entries) := by
  have hSame : ∀ e' ∈ entries, e'.1 = e.1 → e.2 = e'.2 := by
    intro e' hMem hName
    exact h.table e' hMem e.2 (by rw [Table.get?_insert, if_pos hName])
  constructor
  · intro e' hMem sort hFound
    rcases List.mem_cons.mp hMem with rfl | hMem
    · exact hHead sort hFound
    · by_cases hName : e'.1 = e.1
      · rw [hName] at hFound
        rw [hHead sort hFound]
        exact hSame e' hMem hName
      · exact h.table e' hMem sort (by rw [Table.get?_insert, if_neg hName, hFound])
  · intro e' hMem e'' hMem' hName
    rcases List.mem_cons.mp hMem with rfl | hRest
    · rcases List.mem_cons.mp hMem' with rfl | hRest'
      · rfl
      · exact hSame e'' hRest' hName.symm
    · rcases List.mem_cons.mp hMem' with rfl | hRest'
      · exact (hSame e' hRest hName).symm
      · exact h.entries e' hRest e'' hRest' hName

theorem enterSort_of_agrees (h : ∀ sort, t.get? e.1 = some sort → sort = e.2) :
    enterSort t e = .ok (t.insert e.1 e.2) := by
  rw [enterSort]
  cases hFound : t.get? e.1 with
  | none => rfl
  | some sort =>
    have hSame := h sort hFound
    rw [← hSame, Table.insert_of_get? hFound]
    simp

theorem enterSort_of_conflict {first : String} (hFound : t.get? e.1 = some first)
    (h : first ≠ e.2) : enterSort t e = .error (.conflictingSort e.1 first e.2) := by
  rw [enterSort, hFound]
  exact if_neg h

/-- Declared sorts are entered one by one where they fit, and refused with a conflict elsewhere. -/
theorem foldlM_enterSort (entries : List (String × String)) (t : Table String) :
    (Fits t entries ∧ entries.foldlM enterSort t =
      .ok (entries.foldl (fun t e => t.insert e.1 e.2) t)) ∨
    (¬ Fits t entries ∧ ∃ name first second,
      entries.foldlM enterSort t = .error (.conflictingSort name first second)) := by
  -- The table grows along the fold, so the entries are compared with any table they may meet.
  induction entries generalizing t with
  | nil => exact .inl ⟨⟨nofun, nofun⟩, rfl⟩
  | cons e rest ih =>
    rw [List.foldlM_cons, List.foldl_cons]
    by_cases hHead : ∀ sort, t.get? e.1 = some sort → sort = e.2
    · rw [enterSort_of_agrees hHead]
      rcases ih (t.insert e.1 e.2) with ⟨hFits, hOk⟩ | ⟨hClash, hError⟩
      · exact .inl ⟨hFits.cons hHead, hOk⟩
      · exact .inr ⟨fun hFits => hClash hFits.tail, hError⟩
    · refine .inr ⟨fun hFits => hHead (hFits.table e List.mem_cons_self), ?_⟩
      simp only [not_forall] at hHead
      obtain ⟨first, hFound, hOther⟩ := hHead
      rw [enterSort_of_conflict hFound hOther]
      exact ⟨e.1, first, e.2, rfl⟩

theorem fits_empty_iff : Fits .empty entries ↔ SameSorts entries :=
  ⟨fun h => h.entries, fun h => ⟨nofun, h⟩⟩

theorem sortTable_of_sameSorts (h : SameSorts entries) : sortTable entries = .ok (.ofList entries) := by
  rcases foldlM_enterSort entries .empty with ⟨_, hOk⟩ | ⟨hClash, _⟩
  · exact hOk
  · exact absurd (fits_empty_iff.mpr h) hClash

theorem exists_conflict (h : ¬ SameSorts entries) : ∃ name first second,
    sortTable entries = .error (.conflictingSort name first second) := by
  rcases foldlM_enterSort entries .empty with ⟨hFits, _⟩ | ⟨_, hError⟩
  · exact absurd (fits_empty_iff.mp hFits) h
  · exact hError

theorem build_of_sameSorts {d : Draft} (hPredicates : SameSorts d.predicates)
    (hIndividuals : SameSorts d.individuals) :
    d.build = Blueprint.build ⟨.ofList d.predicates, .ofList d.individuals, d.plans, d.defaults,
      d.formats⟩ := by
  rw [build, sortTable_of_sameSorts hPredicates, sortTable_of_sameSorts hIndividuals]
  rfl

theorem exists_conflict_of_build {d : Draft}
    (h : ¬ (SameSorts d.predicates ∧ SameSorts d.individuals)) :
    ∃ name first second, d.build = .error (.conflictingSort name first second) := by
  rw [build]
  by_cases hPredicates : SameSorts d.predicates
  · obtain ⟨name, first, second, hConflict⟩ :=
      exists_conflict fun hIndividuals => h ⟨hPredicates, hIndividuals⟩
    rw [sortTable_of_sameSorts hPredicates, hConflict]
    exact ⟨name, first, second, rfl⟩
  · obtain ⟨name, first, second, hConflict⟩ := exists_conflict hPredicates
    rw [hConflict]
    exact ⟨name, first, second, rfl⟩

end Draft

/-- No name stands in a table twice, so that no table has a conflict. -/
theorem Blueprint.fault?_ne_conflictingSort (b : Blueprint) (name first second : String) :
    b.fault? ≠ some (.conflictingSort name first second) := by
  intro h
  rw [fault?, Option.or_eq_some_iff, Option.or_eq_some_iff] at h
  rcases h with hPlan | ⟨-, hDefault | ⟨-, hFormat⟩⟩
  · obtain ⟨e, -, hFault⟩ := List.exists_of_findSome?_eq_some hPlan
    rw [planFault?] at hFault
    split at hFault
    · simp at hFault
    · split at hFault <;> simp at hFault
  · obtain ⟨e, -, hFault⟩ := List.exists_of_findSome?_eq_some hDefault
    rw [defaultFault?] at hFault
    split at hFault
    · simp at hFault
    · simp at hFault
    · split at hFault <;> simp at hFault
  · obtain ⟨predicate, -, hFault⟩ := List.exists_of_findSome?_eq_some hFormat
    rw [formatFault?] at hFault
    split at hFault <;> simp at hFault

namespace Declaration

def predicate? : Declaration → Option (String × String)
  | .predicate name sort => some (name, sort)
  | _ => none

def individual? : Declaration → Option (String × String)
  | .individual name sort => some (name, sort)
  | _ => none

def plan? : Declaration → Option Plan
  | .plan p => some p
  | _ => none

def default? : Declaration → Option (String × String)
  | .default name value => some (name, value)
  | _ => none

def format? : Declaration → Option (String × Format)
  | .format name f => some (name, f)
  | _ => none

end Declaration

theorem Draft.foldl_declare (declarations : List Declaration) (d : Draft) :
    declarations.foldl declare d =
      { predicates := d.predicates ++ declarations.filterMap Declaration.predicate?
        individuals := d.individuals ++ declarations.filterMap Declaration.individual?
        plans := d.plans ++ declarations.filterMap Declaration.plan?
        defaults := (declarations.filterMap Declaration.default?).foldl
          (fun t e => t.insert e.1 e.2) d.defaults
        formats := (declarations.filterMap Declaration.format?).foldl
          (fun t e => t.insert e.1 e.2) d.formats } := by
  induction declarations generalizing d with
  | nil => simp
  | cons c rest ih =>
    rw [List.foldl_cons, ih]
    cases c <;>
      simp [declare, List.filterMap_cons, Declaration.predicate?, Declaration.individual?,
        Declaration.plan?, Declaration.default?, Declaration.format?]

namespace Listing

variable (l : Listing)

theorem ofDeclarations_declarations : Draft.ofDeclarations l.declarations =
    { predicates := l.predicates
      individuals := l.individuals
      plans := l.plans
      defaults := l.blueprint.defaults
      formats := l.blueprint.formats } := by
  rw [Draft.ofDeclarations, Draft.foldl_declare]
  simp [declarations, List.filterMap_map, Function.comp_def, Declaration.predicate?,
    Declaration.individual?, Declaration.plan?, Declaration.default?, Declaration.format?,
    blueprint, Table.ofList]

def IsCoherent : Prop := SameSorts l.predicates ∧ SameSorts l.individuals

theorem ofDeclarations_of_isCoherent (h : l.IsCoherent) :
    Domain.ofDeclarations l.declarations = l.blueprint.build := by
  rw [Domain.ofDeclarations, l.ofDeclarations_declarations]
  exact Draft.build_of_sameSorts h.1 h.2

theorem exists_conflict_iff : (∃ name first second,
    Domain.ofDeclarations l.declarations = .error (.conflictingSort name first second)) ↔
      ¬ l.IsCoherent := by
  constructor
  · rintro ⟨name, first, second, hConflict⟩ hCoherent
    rw [l.ofDeclarations_of_isCoherent hCoherent, Blueprint.build_eq_error_iff] at hConflict
    exact l.blueprint.fault?_ne_conflictingSort name first second hConflict
  · intro hClash
    rw [Domain.ofDeclarations, l.ofDeclarations_declarations]
    exact Draft.exists_conflict_of_build hClash

/-- Every listing is loaded. What is loaded is what the declarations make if no name is listed with
two sorts, and only then: otherwise they are refused for a conflict, which a loaded table cannot
have. So the one makes a domain and the other does not, unless the tables have another fault. -/
theorem loads_as_declared_iff : ∃ loaded : Except DomainError Domain,
    Domain.ofJson? l.json = some loaded ∧
    (loaded = Domain.ofDeclarations l.declarations ↔ l.IsCoherent) ∧
    ((∃ name first second, Domain.ofDeclarations l.declarations =
      .error (.conflictingSort name first second)) ↔ ¬ l.IsCoherent) ∧
    ((∀ d, loaded = .ok d ↔ Domain.ofDeclarations l.declarations = .ok d) ↔
      l.IsCoherent ∨ l.blueprint.fault? ≠ none) := by
  refine ⟨l.blueprint.build, by rw [Domain.ofJson?, l.load?_json]; rfl, ?_, l.exists_conflict_iff, ?_⟩
  · constructor
    · intro hSame
      refine Classical.byContradiction fun hClash => ?_
      obtain ⟨name, first, second, hConflict⟩ := l.exists_conflict_iff.mpr hClash
      rw [hConflict, Blueprint.build_eq_error_iff] at hSame
      exact l.blueprint.fault?_ne_conflictingSort name first second hSame
    · exact fun hCoherent => (l.ofDeclarations_of_isCoherent hCoherent).symm
  · by_cases hCoherent : l.IsCoherent
    · simp [l.ofDeclarations_of_isCoherent hCoherent, hCoherent]
    · obtain ⟨name, first, second, hConflict⟩ := l.exists_conflict_iff.mpr hCoherent
      simp only [hConflict, hCoherent, false_or, reduceCtorEq, iff_false]
      constructor
      · intro hRefused hFaultless
        exact hRefused ⟨l.blueprint, hFaultless⟩ (Blueprint.build_eq_ok_iff.mpr rfl)
      · intro hFault d hBuilt
        rw [Blueprint.build_eq_ok_iff] at hBuilt
        exact hFault (hBuilt ▸ d.faultless)

/-- A book with a title and then an author for its sort. -/
def twiceBooked : Listing where
  predicates := [("book", "title"), ("book", "author")]
  individuals := []
  plans := []
  defaults := []
  formats := []

/-- Declared, the book conflicts with itself. Loaded, it is an author. -/
theorem twiceBooked_is_loaded :
    Domain.ofDeclarations twiceBooked.declarations =
      .error (.conflictingSort "book" "title" "author") ∧
    ∃ d, Domain.ofJson? twiceBooked.json = some (.ok d) ∧ d.predicates.get? "book" = some "author" := by
  have hFaultless : twiceBooked.blueprint.fault? = none := by rfl
  refine ⟨by rfl, ⟨twiceBooked.blueprint, hFaultless⟩, ?_, by rfl⟩
  rw [Domain.ofJson?, load?_json, Option.map_some, Option.some.injEq, Blueprint.build_eq_ok_iff]

end Listing

end Dialogue
