import Dialogue.Proofs.Domain.Violations

/-! # Searches for a violation

A check searches some places for what the declarations violate there. Checks made one after another
search all their places, and a search of every place ends with the first violation.
-/

namespace Dialogue

/-- The result is the first violation at one of the places, and nothing if there is none. -/
structure Searches (ds : List Declaration) (places : Place → Prop) (result : Option DomainError) :
    Prop where
  found : ∀ fault, result = some fault → ∃ place, places place ∧ Violation ds place fault ∧
    ∀ earlier fault', places earlier → Violation ds earlier fault' → ¬ earlier.Before place
  missed : result = none → ∀ place fault, places place → ¬ Violation ds place fault

namespace Searches

variable {ds : List Declaration} {places later : Place → Prop} {result result' : Option DomainError}
  {place : Place} {fault : DomainError}

theorem of_iff (h : Searches ds places result)
    (hSame : ∀ place fault, Violation ds place fault → (places place ↔ later place)) :
    Searches ds later result where
  found fault hFound := by
    obtain ⟨place, hPlace, hViolation, hFirst⟩ := h.found fault hFound
    refine ⟨place, (hSame place fault hViolation).mp hPlace, hViolation, ?_⟩
    intro earlier fault' hEarlier hViolation'
    exact hFirst earlier fault' ((hSame earlier fault' hViolation').mpr hEarlier) hViolation'
  missed hMissed place fault hPlace hViolation :=
    h.missed hMissed place fault ((hSame place fault hViolation).mpr hPlace) hViolation

theorem of_first (hPlace : places place) (hViolation : Violation ds place fault)
    (hFirst : ∀ earlier fault', places earlier → Violation ds earlier fault' →
      ¬ earlier.Before place) : Searches ds places (some fault) where
  found _ hFound := by
    cases hFound
    exact ⟨place, hPlace, hViolation, hFirst⟩
  missed hMissed := by cases hMissed

theorem nowhere : Searches ds (fun _ => False) none where
  found _ hFound := nomatch hFound
  missed _ _ _ hPlace := hPlace.elim

theorem or (h : Searches ds places result) (hLater : result = none → Searches ds later result')
    (hOrder : ∀ a b, places a → later b → ¬ b.Before a) :
    Searches ds (fun place => places place ∨ later place) (result.or result') := by
  cases hResult : result with
  | some =>
    obtain ⟨place, hPlace, hViolation, hFirst⟩ := h.found _ hResult
    refine .of_first (.inl hPlace) hViolation ?_
    rintro earlier fault' (hEarlier | hEarlier) hViolation'
    · exact hFirst earlier fault' hEarlier hViolation'
    · exact hOrder place earlier hPlace hEarlier
  | none =>
    have hNone := h.missed hResult
    have hRest := hLater hResult
    constructor
    · intro fault hFound
      obtain ⟨place, hPlace, hViolation, hFirst⟩ := hRest.found fault hFound
      refine ⟨place, .inr hPlace, hViolation, ?_⟩
      rintro earlier fault' (hEarlier | hEarlier) hViolation'
      · exact absurd hViolation' (hNone earlier fault' hEarlier)
      · exact hFirst earlier fault' hEarlier hViolation'
    · rintro hMissed place fault (hPlace | hPlace)
      · exact hNone place fault hPlace
      · exact hRest.missed hMissed place fault hPlace

theorem findSome? {α : Type} {l : List α} {check : α → Option DomainError}
    {placesOf : α → Place → Prop} (h : ∀ a ∈ l, Searches ds (placesOf a) (check a))
    (hOrder : l.Pairwise fun a b => ∀ x y, placesOf a x → placesOf b y → ¬ y.Before x) :
    Searches ds (fun place => ∃ a ∈ l, placesOf a place) (l.findSome? check) := by
  induction l with
  | nil => simpa using nowhere
  | cons a rest ih =>
    obtain ⟨hHead, hTail⟩ := List.pairwise_cons.mp hOrder
    have hRest := ih (fun b hMem => h b (List.mem_cons_of_mem a hMem)) hTail
    have hBoth := (h a List.mem_cons_self).or (fun _ => hRest) (by
      rintro x y hx ⟨b, hMem, hy⟩
      exact hHead b hMem x y hx hy)
    have hCheck : (a :: rest).findSome? check = (check a).or (rest.findSome? check) := by
      rw [List.findSome?_cons]
      cases check a <;> rfl
    rw [hCheck]
    exact hBoth.of_iff fun place _ _ => by simp

theorem ite (place : Place) {p : Prop} [Decidable p] (hFault : p → Violation ds place fault)
    (hNone : ∀ fault', Violation ds place fault' → p) :
    Searches ds (· = place) (if p then some fault else none) := by
  by_cases h : p
  · rw [if_pos h]
    refine .of_first rfl (hFault h) ?_
    rintro _ _ rfl _
    exact Place.Before.irrefl
  · rw [if_neg h]
    refine nowhere.of_iff ?_
    intro earlier fault' hViolation
    apply iff_of_false id
    rintro rfl
    exact h (hNone fault' hViolation)

/-- A search of every place ends with the first violation. -/
theorem eq_some_iff (h : Searches ds (fun _ => True) result) :
    result = some fault ↔ IsFirstViolation ds fault := by
  have hFirst (fault' : DomainError) (hFound : result = some fault') :
      IsFirstViolation ds fault' := by
    obtain ⟨place, -, hViolation, hFirst⟩ := h.found fault' hFound
    exact ⟨place, hViolation, fun earlier fault' => hFirst earlier fault' trivial⟩
  constructor
  · exact hFirst fault
  · intro hViolation
    cases hResult : result with
    | none =>
      obtain ⟨place, hHere, -⟩ := hViolation
      exact absurd hHere (h.missed hResult place fault trivial)
    | some fault' => rw [hViolation.eq (hFirst fault' hResult)]

end Searches

/-- Why nothing was made. -/
def faultOf {α : Type} : Except DomainError α → Option DomainError
  | .ok _ => none
  | .error fault => some fault

section

variable {α β : Type} {x : Except DomainError α}

theorem faultOf_eq_some_iff {fault : DomainError} : faultOf x = some fault ↔ x = .error fault := by
  cases x <;> simp [faultOf]

theorem faultOf_eq_none_iff : faultOf x = none ↔ ∃ a, x = .ok a := by
  cases x <;> simp [faultOf]

theorem Searches.bind {ds : List Declaration} {places : Place → Prop}
    {f : α → Except DomainError β} (h : Searches ds places (faultOf x)) (later : Place → Prop)
    (hLater : ∀ a, x = .ok a → Searches ds later (faultOf (f a)))
    (hOrder : ∀ a b, places a → later b → ¬ b.Before a) :
    Searches ds (fun place => places place ∨ later place) (faultOf (x >>= f)) := by
  cases x with
  | error fault =>
    have hNever : some fault = none → Searches ds later none := by rintro ⟨⟩
    exact h.or hNever hOrder
  | ok a => exact h.or (fun _ => hLater a rfl) hOrder

theorem faultOf_build (b : Blueprint) : faultOf b.build = b.fault? := by
  cases hBuild : b.build with
  | error fault => exact (Blueprint.build_eq_error_iff.mp hBuild).symm
  | ok d =>
    rw [Blueprint.build_eq_ok_iff] at hBuild
    exact (hBuild ▸ d.faultless).symm

end

end Dialogue
