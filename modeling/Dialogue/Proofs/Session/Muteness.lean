import Dialogue.Proofs.Session.Echoes

/-! # Going mute

A question that is to be found out is asked again in every turn that nothing else is said in, as
long as the agenda does not stand in the way. An action on top of the agenda that cannot be carried
out does, and then the system says nothing.
-/

namespace Dialogue

open Update

namespace Engine

variable {e : Engine} {input : TurnInput} {s t u v : InformationState} {r : Rule} {rs : List Rule}
  {q : Question}

/-- From the state `s` the cycle comes to `v` before it chooses anything, and has nothing left but
to choose. -/
structure ChoosesFrom (e : Engine) (input : TurnInput) (s v : InformationState) : Prop where
  reached : ∃ rs, e.Trace input s.beginTurn rs v ∧ ∀ r ∈ rs, rank r < rank selectFromPlan
  choosing : ∀ r t, Fires e input v r t → rank selectFromPlan ≤ rank r

def IsStuck (s : InformationState) : Prop :=
  ∃ a rest, s.own.agenda = a :: rest ∧ Blocked s a

/-- Something is said, or the agenda leaves room for saying something. An answer that the plan asks
for and that is not known yet waits for the plan to change. -/
inductive Speaking (s : InformationState) : Prop where
  | said : s.nextMoves ≠ [] → Speaking s
  | free : s.own.agenda = [] → Speaking s
  | ready {a : Action} {rest : List Action} : s.own.agenda = a :: rest → ¬ Blocked s a → Speaking s
  | waiting {q : Question} {rest : List Action} : s.own.agenda = [.respond q] →
      s.own.plan = .respond q :: rest → Speaking s

theorem speaking_or_isStuck (s : InformationState) : Speaking s ∨ s.nextMoves = [] ∧ IsStuck s := by
  by_cases hSaid : s.nextMoves = []
  · cases hAgenda : s.own.agenda with
    | nil => exact .inl (.free hAgenda)
    | cons a rest =>
      by_cases hBlocked : Blocked s a
      · exact .inr ⟨hSaid, a, rest, hAgenda, hBlocked⟩
      · exact .inl (.ready hAgenda hBlocked)
  · exact .inl (.said hSaid)

theorem Speaking.fires (h : Speaking s) (hRank : rank findPlan ≤ rank r)
    (hFires : Fires e input s r t) : Speaking t := by
  cases hFires with
  -- nothing else takes an action off the agenda without a word
  | loaded hAgenda hNone =>
    cases h with
    | said hSaid => exact .said hSaid
    | free hEmpty =>
      rw [hEmpty] at hAgenda
      cases hAgenda
    | ready hReady hOpen =>
      rw [hReady] at hAgenda
      cases hAgenda
      exact absurd (.respond hNone) hOpen
    | waiting hWaiting =>
      rw [hWaiting] at hAgenda
      cases hAgenda
      exact .free rfl
  | foundOut hPlan =>
    cases h with
    | said hSaid => exact .said hSaid
    | free hEmpty => exact .free hEmpty
    | ready hReady hOpen =>
      exact .ready hReady fun hBlocked => hOpen (hBlocked.of_same (List.Subset.refl _) rfl)
    | waiting _ hWaiting =>
      rw [hWaiting] at hPlan
      cases hPlan
  | consulted hPlan =>
    cases h with
    | said hSaid => exact .said hSaid
    | free hEmpty => exact .free hEmpty
    | ready hReady hOpen =>
      exact .ready hReady fun hBlocked => hOpen (hBlocked.of_same (List.subset_append_left _ _) rfl)
    | waiting _ hWaiting =>
      rw [hWaiting] at hPlan
      cases hPlan
  | @copied a _ _ _ hPlan hConsult =>
    cases a with
    | respond q => exact .waiting rfl hPlan
    | consult q => exact absurd rfl (hConsult q)
    | _ => exact .ready rfl nofun
  | @tookUp q _ _ _ _ _ hAnswer =>
    apply Speaking.ready rfl
    rintro (hNone | _)
    rw [show answerable? s q = none from hNone] at hAnswer
    cases hAnswer
  | asked | answered | greets => exact .said (by simp)
  | _ => exact absurd hRank (by decide)

theorem nextMoves_ne_nil_of_selected (hRules : e.rules = defaultRules)
    (h : e.Trace input s.beginTurn rs t) (hSelected : t.turn.selected = true) :
    t.nextMoves ≠ [] := by
  revert hSelected
  apply h.invariant (P := fun t => t.turn.selected = true → t.nextMoves ≠ []) hRules
  · intro t r u hKept hFires
    cases hFires with
    | fellBack | unclear | misformatted | acknowledged | asked | answered | greets | reprompted =>
      simp
    | _ => exact hKept
  · intro hSelected
    cases hSelected

theorem Trace.exists_choosesFrom (hRules : e.rules = defaultRules)
    (hSettled : e.IsSettled input t) (h : e.Trace input s.beginTurn rs t) :
    ∃ v, ChoosesFrom e input s v := by
  obtain ⟨before, after, v, -, hBefore, hAfter, hEarly, hLate⟩ :=
    h.exists_split hRules (rank selectFromPlan)
  refine ⟨v, ⟨before, hBefore, hEarly⟩, ?_⟩
  rcases hLate with rfl | hChoosing
  · cases hAfter
    intro r t hFires
    exact absurd hFires (not_fires_of_isSettled hRules hSettled)
  · exact hChoosing

theorem isSettled_of_isStuck (hRules : e.rules = defaultRules)
    (hChoosing : ∀ r t, Fires e input v r t → rank selectFromPlan ≤ rank r) (h : IsStuck v) :
    e.IsSettled input v := by
  obtain ⟨a, rest, hAgenda, hBlocked⟩ := h
  refine isSettled_of_not_fires hRules fun r t hFires => ?_
  have hRank := hChoosing r t hFires
  cases hFires with
  | copied _ hEmpty | tookUp _ hEmpty =>
    rw [hAgenda] at hEmpty
    cases hEmpty
  | asked _ hTop hAction =>
    rw [hAgenda] at hTop
    cases hTop
    rcases hAction with rfl | rfl <;> cases hBlocked
  | answered _ hTop hAnswer =>
    rw [hAgenda] at hTop
    cases hTop
    cases hBlocked with
    | respond hNone =>
      rw [hNone] at hAnswer
      cases hAnswer
  | greets _ hTop =>
    rw [hAgenda] at hTop
    cases hTop
    cases hBlocked
  | _ => exact absurd hRank (by decide)

/-- With a question to be found out, a cycle that has not gone silent for good says something. -/
theorem Speaking.nextMoves_ne_nil (h : Speaking t) (hRules : e.rules = defaultRules)
    (hMay : (e.context input t).maySelect = true) (hSettled : e.IsSettled input t)
    {rest : List Action} (hPlan : t.own.plan = .findout q :: rest) : t.nextMoves ≠ [] := by
  cases h with
  | said hSaid => exact hSaid
  | free hEmpty =>
    exact absurd (.copied hMay hEmpty hPlan nofun) (not_fires_of_isSettled hRules hSettled)
  | ready hReady hOpen =>
    obtain ⟨r, u, hFires⟩ := exists_fires_of_not_blocked (e := e) hMay hReady hOpen
    exact absurd hFires (not_fires_of_isSettled hRules hSettled)
  | waiting _ hWaiting =>
    rw [hWaiting] at hPlan
    cases hPlan

end Engine

namespace Session

open Engine

variable {s s' : Session} {moves reply : List Move} {q : Question} {rest : List Action}

/-- While a question is to be found out, the system goes mute exactly if the user's turn calls for
no comment and the action that is then on top of the agenda cannot be carried out. -/
theorem mute_iff_isStuck (hRules : s.engine.rules = defaultRules)
    (hHear : s.hear moves = (.ok reply, s'))
    (hPlan : (s.heard moves).own.plan = .findout q :: rest) :
    (∃ v, ChoosesFrom s.engine (.user moves) s.state v) ∧
      ∀ v, ChoosesFrom s.engine (.user moves) s.state v →
        (reply = [] ↔ v.nextMoves = [] ∧ IsStuck v) := by
  obtain ⟨s₁, hStep, -⟩ := exists_steps_of_converse_ok hHear
  obtain ⟨rs, t, hTrace, hSettled, -, hState, rfl⟩ := exists_trace_of_step hStep
  rw [heard, hStep, hState] at hPlan
  refine ⟨hTrace.exists_choosesFrom hRules hSettled, ?_⟩
  rintro v ⟨⟨before, hBefore, -⟩, hChoosing⟩
  obtain ⟨after, -, hAfter⟩ := hBefore.exists_rest hTrace hSettled
  constructor
  · intro hNone
    rcases speaking_or_isStuck v with hSpeaking | hStuck
    · have hPursuing : s.engine.Pursuing (.user moves) v := by
        intro r t hFires
        exact Nat.le_trans (by decide) (hChoosing r t hFires)
      have hLasts : Speaking t := by
        apply hAfter.preserves hRules (Q := fun r => rank findPlan ≤ rank r) _
          (hPursuing.trace hRules rfl hAfter) hSpeaking
        intro t r u hSpeaking hRank hFires
        exact hSpeaking.fires hRank hFires
      have hMay : (s.engine.context (.user moves) t).maySelect = true := by
        cases hSelected : t.turn.selected with
        | true => exact absurd hNone (nextMoves_ne_nil_of_selected hRules hTrace hSelected)
        | false =>
          rw [Context.maySelect, context_state, hSelected]
          rfl
      exact absurd hNone (hLasts.nextMoves_ne_nil hRules hMay hSettled hPlan)
    · exact hStuck
  · rintro ⟨hNone, hStuck⟩
    have hOver := isSettled_of_isStuck hRules hChoosing hStuck
    cases hAfter with
    | done => exact hNone
    | fire hHit =>
      rw [IsSettled, hHit] at hOver
      cases hOver

def awaitingDay : Session :=
  (Console.session.start.2.hear [⟨.ask ⟨Lecture.bookingRoom⟩, none⟩]).2

/-- Asked for the course, which it does not know, the system does not ask for the day again. -/
theorem awaitingDay_goes_mute : ∃ s' v,
    awaitingDay.hear [⟨.ask ⟨Lecture.bookingCourse⟩, none⟩] = (.ok [], s') ∧
    ChoosesFrom awaitingDay.engine (.user [⟨.ask ⟨Lecture.bookingCourse⟩, none⟩])
      awaitingDay.state v ∧ v.nextMoves = [] ∧ IsStuck v := by
  have hHear : awaitingDay.hear [⟨.ask ⟨Lecture.bookingCourse⟩, none⟩] = (.ok [], _) := rfl
  obtain ⟨⟨v, hChooses⟩, hMute⟩ := mute_iff_isStuck (q := ⟨Lecture.bookingDay⟩) rfl hHear rfl
  exact ⟨_, v, hHear, hChooses, (hMute v hChooses).mp rfl⟩

theorem mute_with_open_findout : ∃ s',
    Console.session.start.1 = .ok [⟨.greet, none⟩] ∧
    Console.session.start.2.hear [⟨.ask ⟨Lecture.bookingRoom⟩, none⟩] =
      (.ok [⟨.ask ⟨Lecture.bookingDay⟩, none⟩], awaitingDay) ∧
    awaitingDay.hear [⟨.ask ⟨Lecture.bookingCourse⟩, none⟩] = (.ok [], s') ∧
    (awaitingDay.heard [⟨.ask ⟨Lecture.bookingCourse⟩, none⟩]).own.plan.head? =
      some (.findout ⟨Lecture.bookingDay⟩) :=
  ⟨_, rfl, rfl, rfl, rfl⟩

end Session

end Dialogue
