import Mathlib.Data.Set.Basic
import Mathlib.Order.Bounds.Defs
import Dialogue.Proofs.Cycle.Misunderstanding
import Dialogue.Proofs.Cycle.Rows

/-! # Answers to the question on top

What the user offers in answer to the question on top is taken or rejected, move by move: taken in
the order of the moves as long as some format accepts, and rejected with a hint only when nothing
is left to take. No move is dealt with twice, and none that could be taken is left in the end.
-/

namespace Dialogue

open InformationState Update

/-- The move at position `i` is still to be dealt with, and it answers the question on top. -/
def Offers (d : Domain) (s : InformationState) (i : Nat) (p : Proposition) : Prop :=
  ∃ m a q, (i, m) ∈ s.pendingMoves ∧ m.answered? = some a ∧ s.shared.qud.head? = some q ∧
    d.relevant a q = true ∧ p = q.combine a

/-- Where the question on top is answered in a format that is accepted, or that is not. -/
def answersAt (d : Domain) (s : InformationState) (accepted : Bool) : Set Nat :=
  {i | ∃ p, Offers d s i p ∧ d.accepts p = accepted}

namespace Firing

/-- The positions of the moves that a firing deals with. -/
def handled (f : Firing) : List Nat :=
  f.after.turn.consumed.filter (· ∉ f.before.turn.consumed)

theorem mem_handled {f : Firing} {i : Nat} :
    i ∈ f.handled ↔ i ∈ f.after.turn.consumed ∧ i ∉ f.before.turn.consumed := by
  simp [handled]

theorem handled_eq_singleton {f : Firing} {i : Nat}
    (hAfter : f.after.turn.consumed = f.before.turn.consumed.insert i)
    (hNew : i ∉ f.before.turn.consumed) : f.handled = [i] := by
  have hOld : f.before.turn.consumed.filter (· ∉ f.before.turn.consumed) = [] := by
    simp
  rw [handled, hAfter, List.insert_of_not_mem hNew, List.filter_cons_of_pos (by simpa using hNew),
    hOld]

/-- The firing commits to the first answer whose format is accepted. -/
structure Takes (d : Domain) (f : Firing) (i : Nat) (p : Proposition) : Prop where
  offers : Offers d f.before i p
  least : IsLeast (answersAt d f.before true) i
  handled : f.handled = [i]
  com : f.after.shared.com = p :: f.before.shared.com

/-- The firing asks again because of the first answer whose format is not accepted, with a hint at
the right one. There is none to take. -/
structure Rejects (d : Domain) (f : Firing) (i : Nat) (q : Question) (format : Format) : Prop where
  top : f.before.shared.qud.head? = some q
  declared : d.formats.get? q.predicate = some format
  nothing : answersAt d f.before true = ∅
  least : IsLeast (answersAt d f.before false) i
  handled : f.handled = [i]
  hint : f.after.nextMoves =
    f.before.nextMoves ++ [⟨.ask q, none⟩, ⟨.inform format.hint, none⟩]
  com : f.after.shared.com = f.before.shared.com

end Firing

namespace Engine

variable {e : Engine} {input : TurnInput} {s t u : InformationState} {r : Rule}
  {firings : List Firing} {f : Firing} {m : Move} {q : Question} {i : Nat}

theorem isSome_acceptedFact?_iff {v : Utterance} (hUser : v.speaker = .usr) :
    (acceptedFact? (e.context input s) v q m).isSome = true ↔ ∃ a, m.answered? = some a ∧
      e.domain.relevant a q = true ∧ e.domain.accepts (q.combine a) = true := by
  simp only [Option.isSome_iff_exists, acceptedFact?_eq_some_iff, hUser, true_implies]
  constructor
  · rintro ⟨p, a, hAnswered, hRelevant, hAccepts, -⟩
    exact ⟨a, hAnswered, hRelevant, hAccepts⟩
  · rintro ⟨a, hAnswered, hRelevant, hAccepts⟩
    exact ⟨_, a, hAnswered, hRelevant, hAccepts, rfl⟩

theorem mem_answersAt_iff {d : Domain} {accepted : Bool} (hTop : s.shared.qud.head? = some q) :
    i ∈ answersAt d s accepted ↔ ∃ m, (i, m) ∈ s.pendingMoves ∧ ∃ a, m.answered? = some a ∧
      d.relevant a q = true ∧ d.accepts (q.combine a) = accepted := by
  constructor
  · rintro ⟨p, ⟨m, a, q', hPending, hAnswered, hTop', hRelevant, rfl⟩, hAccepts⟩
    obtain rfl := Option.some.inj (hTop.symm.trans hTop')
    exact ⟨m, hPending, a, hAnswered, hRelevant, hAccepts⟩
  · rintro ⟨m, hPending, a, hAnswered, hRelevant, hAccepts⟩
    exact ⟨_, ⟨m, a, q, hPending, hAnswered, hTop, hRelevant, rfl⟩, hAccepts⟩

/-- The rule that takes answers searches for the accepted ones. -/
theorem mem_answersAt_true_iff (hTop : s.shared.qud.head? = some q) {v : Utterance}
    (hUser : v.speaker = .usr) : i ∈ answersAt e.domain s true ↔ ∃ m, (i, m) ∈ s.pendingMoves ∧
      (acceptedFact? (e.context input s) v q m).isSome = true := by
  simp only [mem_answersAt_iff hTop, isSome_acceptedFact?_iff hUser]

/-- The rule that rejects answers searches for the others, which only a format can rule out. -/
theorem mem_answersAt_false_iff (hTop : s.shared.qud.head? = some q) {format : Format}
    (hFormat : e.domain.formats.get? q.predicate = some format) :
    i ∈ answersAt e.domain s false ↔ ∃ m, (i, m) ∈ s.pendingMoves ∧
      (misformatted? (e.context input s) q format m).isSome = true := by
  simp only [mem_answersAt_iff hTop, isSome_misformatted?_iff hFormat]

theorem isLeast_of_findPending? {β : Type} {search : Move → Option β} {b : β} {positions : Set Nat}
    (hFind : (e.context input s).findPending? search = some (i, b))
    (hMem : ∀ j, j ∈ positions ↔ ∃ m, (j, m) ∈ s.pendingMoves ∧ (search m).isSome = true) :
    IsLeast positions i := by
  obtain ⟨m, hPending, hFound⟩ := Context.exists_pending_of_findPending? hFind
  refine ⟨(hMem i).mpr ⟨m, hPending, Option.isSome_of_mem hFound⟩, fun j hOther => ?_⟩
  obtain ⟨m', hPending', hFound'⟩ := (hMem j).mp hOther
  by_contra hBefore
  rw [Context.eq_none_of_findPending? hFind hPending' (Nat.lt_of_not_le hBefore)] at hFound'
  cases hFound'

theorem answersAt_true_eq_empty (hAttends : Attends input s) (hUser : input.speaker = .usr)
    (hClear : input.utterance.isIntelligible e.config.lowConfidence = true)
    (hNone : ∀ t, ¬ Fires e input s integrateAnswer t) : answersAt e.domain s true = ∅ := by
  rw [Set.eq_empty_iff_forall_notMem]
  intro i hMem
  obtain ⟨-, ⟨m, -, q, hPending, -, hTop, -⟩, -⟩ := id hMem
  have hLatched := hAttends.latched? (latched_of_pending hPending)
  have hMay : mayTakeAnswers (e.context input s) input.utterance = true :=
    Bool.or_eq_true_iff.mpr (.inr hClear)
  obtain ⟨qs, hQud⟩ := List.head?_eq_some_iff.mp hTop
  have hSpeaker : input.utterance.speaker = .usr := hUser
  obtain ⟨m, hPending, hFact⟩ := (mem_answersAt_true_iff hTop hSpeaker).mp hMem
  cases hFind : (e.context input s).findPending?
      (acceptedFact? (e.context input s) input.utterance q) with
  | none =>
    rw [Context.findPending?_eq_none_iff.mp hFind _ hPending] at hFact
    cases hFact
  | some found => exact hNone _ (.answer hLatched hMay hQud hFind)

theorem Fires.takes (h : Fires e input s r t) (hName : r.name = integrateAnswer.name)
    (hAttends : Attends input s) (hUser : input.speaker = .usr) (n : Nat) :
    ∃ i p, Firing.Takes e.domain ⟨r, n, s, t⟩ i p := by
  cases h with
  | @answer v q qs i p hLatched hMay hQud hFind =>
    obtain rfl := hAttends.eq_utterance hLatched
    have hSpeaker : input.utterance.speaker = .usr := hUser
    have hTop : s.shared.qud.head? = some q := List.head?_eq_some_iff.mpr ⟨qs, hQud⟩
    obtain ⟨m, hPending, hFact⟩ := Context.exists_pending_of_findPending? hFind
    obtain ⟨a, hAnswered, hRelevant, -, hCombine⟩ := acceptedFact?_eq_some_iff.mp hFact
    refine ⟨i, p, ?_, ?_, ?_, rfl⟩
    · exact ⟨m, a, q, hPending, hAnswered, hTop, hRelevant, hCombine⟩
    · exact isLeast_of_findPending? hFind fun j => mem_answersAt_true_iff hTop hSpeaker
    · exact Firing.handled_eq_singleton rfl (not_mem_consumed_of_pending hPending)
  | _ => exact absurd hName (by decide)

theorem Fires.rejects (h : Fires e input s r t)
    (hName : r.name = integratePartialUnderstanding.name) (hAttends : Attends input s)
    (hUser : input.speaker = .usr) (hFirst : ∀ r' t', Fires e input s r' t' → rank r ≤ rank r')
    (n : Nat) : ∃ i q format, Firing.Rejects e.domain ⟨r, n, s, t⟩ i q format := by
  cases h with
  | @misformatted v q qs format i _ hTurn hQud hFormat hFind =>
    obtain ⟨-, hClear⟩ := eq_utterance_of_intelligibleUserTurn? hAttends hTurn
    have hTop : s.shared.qud.head? = some q := List.head?_eq_some_iff.mpr ⟨qs, hQud⟩
    obtain ⟨m, hPending, -⟩ := Context.exists_pending_of_findPending? hFind
    refine ⟨i, q, format, hTop, hFormat, ?_, ?_, ?_, rfl, rfl⟩
    -- to take an answer comes first, so it cannot be done here
    · apply answersAt_true_eq_empty hAttends hUser hClear
      intro t hTakes
      exact absurd (hFirst _ _ hTakes) (by decide)
    · exact isLeast_of_findPending? hFind fun j => mem_answersAt_false_iff hTop hFormat
    · exact Firing.handled_eq_singleton rfl (not_mem_consumed_of_pending hPending)
  | _ => exact absurd hName (by decide)

/-- Before the turn is latched no move of it has been dealt with. -/
def Fresh (s : InformationState) : Prop :=
  s.turn.latched = false → s.turn.consumed = []

theorem fresh_of_latched (h : s.turn.latched = true) : Fresh s := by
  intro hUnlatched
  rw [h] at hUnlatched
  cases hUnlatched

theorem Fresh.fires (hFresh : Fresh s) (h : Fires e input s r t) : Fresh t := by
  cases h with
  | latch => exact fresh_of_latched rfl
  | request _ hFind | sysAsk _ _ hFind | usrAsk _ hFind | answer _ _ _ hFind | greeted hFind
  | misformatted _ _ _ _ hFind =>
    obtain ⟨m, hPending, -⟩ := Context.exists_pending_of_findPending? hFind
    have hMark : s.turn.latched = true := latched_of_pending hPending
    exact fresh_of_latched hMark
  | engaged hTurn | reprompted hTurn | fellBack hTurn =>
    have hLatched : s.latched? = some _ := (Option.filter_eq_some_iff.mp hTurn).1
    have hMark := (latched?_eq_some_iff.mp hLatched).1
    exact fresh_of_latched hMark
  | _ => exact hFresh

theorem Fires.consumed_subset (h : Fires e input s r t) (hFresh : Fresh s) :
    s.turn.consumed ⊆ t.turn.consumed := by
  cases h with
  -- latching forgets what was dealt with, and there was nothing
  | latch _ hUnlatched =>
    rw [hFresh hUnlatched]
    exact List.nil_subset _
  | request | sysAsk | usrAsk | answer | greeted | misformatted => exact consumed_subset_insert
  | engaged | reprompted | fellBack => exact consumed_subset_consumedSilence
  | _ => exact List.Subset.refl _

namespace Row

variable (hRules : e.rules = defaultRules)
include hRules

theorem not_mem_handled (h : e.Row input s firings t) (hFresh : Fresh s) (hMem : f ∈ firings)
    (hDone : i ∈ s.turn.consumed) : i ∉ f.handled := by
  induction h with
  | done s => cases hMem
  | @fire s t u r n firings hStep _ ih =>
    have hFires := fires_of_step? hRules hStep
    rcases List.mem_cons.mp hMem with rfl | hMem
    · exact fun hHandled => (Firing.mem_handled.mp hHandled).2 hDone
    · exact ih (hFresh.fires hFires) hMem (hFires.consumed_subset hFresh hDone)

/-- What one firing has dealt with no later one deals with. -/
theorem pairwise_disjoint (h : e.Row input s firings t) (hFresh : Fresh s) :
    firings.Pairwise fun f g => f.handled.Disjoint g.handled := by
  induction h with
  | done s => exact .nil
  | @fire s t u r n firings hStep hRest ih =>
    have hFires := fires_of_step? hRules hStep
    refine .cons (fun g hMem i hHandled => ?_) (ih (hFresh.fires hFires))
    exact hRest.not_mem_handled hRules (hFresh.fires hFires) hMem (Firing.mem_handled.mp hHandled).1

end Row

/-- Of the user's answers to the question on top the first that is accepted is taken; one is
rejected only when none is left that would be, and then the first. No move is dealt with twice, and
in the end nothing is left that could be taken. -/
theorem answers_taken_or_rejected (hRules : e.rules = defaultRules) (hUser : input.speaker = .usr)
    (hClear : input.utterance.isIntelligible e.config.lowConfidence = true)
    (hRun : (e.run s input).outcome = .ok t) :
    (∀ f ∈ (e.run s input).firings, f.rule = integrateAnswer → ∃ i p, f.Takes e.domain i p) ∧
    (∀ f ∈ (e.run s input).firings, f.rule = integratePartialUnderstanding →
      ∃ i q format, f.Rejects e.domain i q format) ∧
    (e.run s input).firings.Pairwise (fun f g => f.handled.Disjoint g.handled) ∧
    ∃ u, e.Row input s.beginTurn (e.run s input).firings u ∧ t = u.endTurn ∧
      answersAt e.domain u true = ∅ := by
  obtain ⟨u, hRow, hSettled, hEnd, -, -⟩ := exists_row_of_run hRun
  refine ⟨fun f hMem hRule => ?_, fun f hMem hRule => ?_, ?_, u, hRow, hEnd, ?_⟩
  · obtain ⟨before, rest, hBefore, hStep, -⟩ := hRow.exists_of_mem hMem
    have hAttends := hBefore.trace.attends hRules
    exact (fires_of_step? hRules hStep).takes (congrArg Rule.name hRule) hAttends hUser f.iteration
  · obtain ⟨before, rest, hBefore, hStep, -⟩ := hRow.exists_of_mem hMem
    have hAttends := hBefore.trace.attends hRules
    obtain ⟨deltas, hHit, -⟩ := step?_eq_some_iff.mp hStep
    exact (fires_of_step? hRules hStep).rejects (congrArg Rule.name hRule) hAttends hUser
      (fun _ _ => rank_le_of_applicable? hRules hHit) f.iteration
  · exact hRow.pairwise_disjoint hRules fun _ => rfl
  · apply answersAt_true_eq_empty (hRow.trace.attends hRules) hUser hClear
    intro t
    exact not_fires_of_isSettled hRules hSettled

/-- Two days at once, of which only the second one is a weekday. -/
def saturdayOrFriday : TurnInput :=
  .user [⟨.answer (.short "saturday"), none⟩, ⟨.answer (.short "friday"), none⟩]

theorem friday_taken_saturday_rejected :
    ∃ t, (Console.session.engine.run asksDay saturdayOrFriday).outcome = .ok t ∧
      (∃ f ∈ (Console.session.engine.run asksDay saturdayOrFriday).firings,
        f.Takes Console.session.engine.domain 1 ⟨Lecture.bookingDay, "friday"⟩) ∧
      ∃ f ∈ (Console.session.engine.run asksDay saturdayOrFriday).firings,
        f.Rejects Console.session.engine.domain 0 ⟨Lecture.bookingDay⟩
          (.ofValues Lecture.weekdays Lecture.weekdayHint) := by
  obtain ⟨t, hRun⟩ : ∃ t, (Console.session.engine.run asksDay saturdayOrFriday).outcome = .ok t :=
    ⟨_, rfl⟩
  obtain ⟨hTaken, hRejected, -, -⟩ := answers_taken_or_rejected rfl rfl rfl hRun
  have hFriday : (Console.session.engine.run asksDay saturdayOrFriday).firings[1]? = some _ := rfl
  have hSaturday : (Console.session.engine.run asksDay saturdayOrFriday).firings[2]? = some _ := rfl
  refine ⟨t, hRun, ⟨_, List.mem_of_getElem? hFriday, ?_⟩, _, List.mem_of_getElem? hSaturday, ?_⟩
  · obtain ⟨i, p, hTakes⟩ := hTaken _ (List.mem_of_getElem? hFriday) rfl
    cases hTakes.handled
    cases hTakes.com
    exact hTakes
  · obtain ⟨i, q, format, hRejects⟩ := hRejected _ (List.mem_of_getElem? hSaturday) rfl
    cases hRejects.handled
    cases hRejects.top
    cases hRejects.declared
    exact hRejects

end Engine

end Dialogue
