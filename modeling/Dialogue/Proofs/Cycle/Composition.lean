import Dialogue.Console
import Dialogue.Proofs.Cycle.Replies

/-! # How replies are composed

A reply opens with a comment on the user's turn, if there is anything to say of it. One firing of
the cycle at most adds a move of the system's own, and none does once the comment asks again.
-/

namespace Dialogue.Engine

open Update

variable {e : Engine} {input : TurnInput} {s t u v w : InformationState} {r : Rule}
  {rs before after : List Rule} {m : Move} {said choice : List Move}

/-- What there can be to say of the user's turn. -/
inductive Comment (e : Engine) : List Move → Prop where
  | nothing : Comment e []
  | reprompt (top : Option Question) : Comment e (⟨.noInput, none⟩ :: askFor top)
  | assume {p : Proposition} : e.domain.default? p.predicate = some p →
      Comment e [⟨.answer (.full p), none⟩]
  | clarify (top : Option Question) :
      Comment e (askFor top ++ [⟨.inform e.config.clarificationText, none⟩])
  | acknowledge : Comment e [⟨.acknowledge e.config.acknowledgementText, none⟩]
  | hint {acks : List Move} {q : Question} {f : Format} :
      acks = [] ∨ acks = [⟨.acknowledge e.config.acknowledgementText, none⟩] →
      e.domain.formats.get? q.predicate = some f →
      Comment e (acks ++ [⟨.ask q, none⟩, ⟨.inform f.hint, none⟩])

/-- A move after which the system says nothing of its own. -/
def EndsReply (m : Move) : Prop :=
  m.isNoInput = true ∨ ∃ text, m.act = .inform text

namespace Commented

theorem comment (h : Commented e input s) : Comment e s.nextMoves := by
  cases h with
  | nothing hNone =>
    rw [hNone]
    exact .nothing
  | reprompted top _ hSaid =>
    rw [hSaid]
    exact .reprompt top
  | assumed p _ hDefault _ hSaid =>
    rw [hSaid]
    exact .assume hDefault
  | clarified top _ hSaid =>
    rw [hSaid]
    exact .clarify top
  | acknowledged _ hSaid =>
    rw [hSaid]
    exact .acknowledge
  | hinted acks q f _ hFormat hAcks hSaid =>
    rw [hSaid]
    exact .hint hAcks hFormat

theorem selected_of_endsReply (h : Commented e input s) (hMem : m ∈ s.nextMoves)
    (hEnds : EndsReply m) : s.turn.selected = true := by
  cases h with
  | nothing hNone =>
    rw [hNone] at hMem
    cases hMem
  | reprompted _ _ _ hDone | clarified _ _ _ _ hDone | hinted _ _ _ _ _ _ _ _ hDone => exact hDone
  | assumed _ _ _ _ hSaid | acknowledged _ hSaid =>
    rw [hSaid, List.mem_singleton] at hMem
    subst hMem
    rcases hEnds with hNoInput | ⟨text, hInform⟩
    · cases hNoInput
    · cases hInform

end Commented

/-- The rule turns the action it finds in `v` into the move. An answer is believed to the end of the
cycle, in `t`, and was not agreed on before. -/
inductive Realizes (v t : InformationState) : Rule → Move → Prop where
  | ask (q : Question) : Realizes v t selectAsk ⟨.ask q, none⟩
  | answer {p : Proposition} : p ∈ t.own.bel → p ∉ v.shared.com →
      Realizes v t selectAnswer ⟨.answer (.full p), none⟩
  | greet : Realizes v t selectOther ⟨.greet, none⟩

theorem Realizes.of_bel (h : Realizes v w r m) (hBel : w.own.bel ⊆ t.own.bel) :
    Realizes v t r m := by
  cases h with
  | ask q => exact .ask q
  | answer hMem hFresh => exact .answer (hBel hMem) hFresh
  | greet => exact .greet

/-- What the firings `rs` from `s` to `t` add to what was `said`: nothing, or one move by one
firing. -/
inductive Adds (e : Engine) (input : TurnInput) (s : InformationState) (rs : List Rule)
    (t : InformationState) (said : List Move) : List Move → Prop where
  | nothing : (∀ r ∈ rs, ¬ IsChoice r) → Adds e input s rs t said []
  | move {before after : List Rule} {r : Rule} {v w : InformationState} {m : Move} :
      rs = before ++ r :: after → e.Trace input s before v → e.Trace input v [r] w →
      e.Trace input w after t → (∀ r' ∈ before ++ after, ¬ IsChoice r') →
      v.nextMoves = said → w.nextMoves = said ++ [m] → Realizes v t r m →
      Adds e input s rs t said [m]

theorem Adds.prepend (h : Adds e input u after t said choice) (hTrace : e.Trace input s before u)
    (hOther : ∀ r ∈ before, ¬ IsChoice r) : Adds e input s (before ++ after) t said choice := by
  cases h with
  | nothing hNone =>
    apply Adds.nothing
    intro r hMem
    exact (List.mem_append.mp hMem).elim (hOther r) (hNone r)
  | @move before' after' r v w m hSplit hBefore hFire hAfter hNone hSaid hMove hRealizes =>
    refine .move ?_ (hTrace.append hBefore) hFire hAfter ?_ hSaid hMove hRealizes
    · rw [hSplit, List.append_assoc]
    · intro r' hMem
      rw [List.append_assoc] at hMem
      exact (List.mem_append.mp hMem).elim (hOther r') (hNone r')

theorem Fires.bel_subset (h : Fires e input s r t) : s.own.bel ⊆ t.own.bel := by
  cases h with
  | consulted => exact List.subset_append_left _ _
  | _ => exact List.Subset.refl _

theorem Fires.selected (h : Fires e input s r t) (hDone : s.turn.selected = true) :
    t.turn.selected = true := by
  cases h with
  | reprompted | unclear | misformatted | asked | answered | greets => rfl
  | _ => exact hDone

theorem Fires.not_isChoice_of_selected (h : Fires e input s r t) (hDone : s.turn.selected = true) :
    ¬ IsChoice r := by
  cases h with
  | asked hMay | answered hMay | greets hMay =>
    rw [selected_of_maySelect hMay] at hDone
    cases hDone
  | _ => decide

theorem Fires.realizes (h : Fires e input s r t) (hChoice : IsChoice r) :
    ∃ m, t.nextMoves = s.nextMoves ++ [m] ∧ t.turn.selected = true ∧ Realizes s t r m := by
  cases h with
  | asked => exact ⟨_, rfl, rfl, .ask _⟩
  | answered _ _ hAnswer =>
    obtain ⟨hMem, hFresh⟩ := mem_of_answerable? hAnswer
    exact ⟨_, rfl, rfl, .answer hMem hFresh⟩
  | greets => exact ⟨_, rfl, rfl, .greet⟩
  | _ => exact absurd hChoice (by decide)

theorem Fires.nextMoves_eq (h : Fires e input s r t) (hLate : rank findPlan ≤ rank r)
    (hOther : ¬ IsChoice r) : t.nextMoves = s.nextMoves := by
  cases h with
  | loaded | foundOut | consulted | copied | tookUp => rfl
  | asked | answered | greets => exact absurd (by decide) hOther
  | _ => exact absurd hLate (by decide)

section

variable (hRules : e.rules = defaultRules)
include hRules

theorem Trace.bel_subset (h : e.Trace input s rs t) : s.own.bel ⊆ t.own.bel := by
  apply h.invariant (P := fun t => s.own.bel ⊆ t.own.bel) hRules
  · intro t r u hKept hFires
    exact List.Subset.trans hKept hFires.bel_subset
  · exact List.Subset.refl _

theorem Trace.not_isChoice_of_selected (h : e.Trace input s rs t)
    (hDone : s.turn.selected = true) : ∀ r ∈ rs, ¬ IsChoice r := by
  induction h with
  | done s => simp
  | fire hHit _ ih =>
    have hFires := fires_of_applicable? hRules hHit
    rw [List.forall_mem_cons]
    exact ⟨hFires.not_isChoice_of_selected hDone, ih (hFires.selected hDone)⟩

theorem Trace.nextMoves_eq (h : e.Trace input s rs t) (hLate : ∀ r ∈ rs, rank findPlan ≤ rank r)
    (hOther : ∀ r ∈ rs, ¬ IsChoice r) : t.nextMoves = s.nextMoves := by
  induction h with
  | done s => rfl
  | fire hHit _ ih =>
    rw [List.forall_mem_cons] at hLate hOther
    exact (ih hLate.2 hOther.2).trans
      ((fires_of_applicable? hRules hHit).nextMoves_eq hLate.1 hOther.1)

/-- Pursuit and selection add one move at most: whatever chooses it marks the turn. -/
theorem Trace.exists_adds (h : e.Trace input s rs t) (hLate : ∀ r ∈ rs, rank findPlan ≤ rank r) :
    ∃ choice, t.nextMoves = s.nextMoves ++ choice ∧ Adds e input s rs t s.nextMoves choice := by
  induction h with
  | done s => exact ⟨[], (List.append_nil _).symm, .nothing (by simp)⟩
  | @fire s t r deltas rs hHit hRest ih =>
    rw [List.forall_mem_cons] at hLate
    have hFires := fires_of_applicable? hRules hHit
    -- A choice marks the turn, so no other follows it; whatever else fires says nothing.
    by_cases hChoice : IsChoice r
    · obtain ⟨m, hMove, hDone, hRealizes⟩ := hFires.realizes hChoice
      have hSilent := hRest.not_isChoice_of_selected hRules hDone
      refine ⟨[m], (hRest.nextMoves_eq hRules hLate.2 hSilent).trans hMove, ?_⟩
      exact .move rfl (.done s) (.fire hHit (.done _)) hRest hSilent rfl hMove
        (hRealizes.of_bel (hRest.bel_subset hRules))
    · obtain ⟨choice, hMoves, hAdds⟩ := ih hLate.2
      rw [hFires.nextMoves_eq hLate.1 hChoice] at hMoves hAdds
      refine ⟨choice, hMoves, hAdds.prepend (.fire hHit (.done _)) ?_⟩
      simpa using hChoice

theorem Trace.nextMoves_of_sys (h : e.Trace input s.beginTurn rs t) (hSys : input.speaker = .sys) :
    t.nextMoves = [] := by
  apply h.preserves_attending (P := fun t => t.nextMoves = []) (Q := fun _ => True) hRules _
    (fun _ _ => trivial) rfl
  intro t r u hAttends hNone _ hFires
  have hUser {u : Utterance} : (e.context input t).userTurn? ≠ some u := by
    intro hTurn
    rw [speaker_of_userTurn? hAttends hTurn] at hSys
    cases hSys
  have hMay : (e.context input t).maySelect ≠ true := by
    simp [Context.maySelect, hSys]
  cases hFires with
  | reprompted hTurn | fellBack hTurn | unclear hTurn => exact absurd hTurn hUser
  | misformatted _ hTurn | acknowledged hTurn =>
    exact absurd (Option.filter_eq_some_iff.mp hTurn).1 hUser
  | asked hMay' | answered hMay' | greets hMay' => exact absurd hMay' hMay
  | _ => exact hNone

end

/-- The system does not reply to itself. A reply to the user is a comment and what one firing adds
to it at most, and nothing is added once the comment asks again. -/
theorem reply_of_run (hRules : e.rules = defaultRules) (hRun : (e.run s input).outcome = .ok t) :
    (input.speaker = .sys → t.nextMoves = []) ∧
    (input.speaker = .usr → ∃ comment choice rs u, Comment e comment ∧
      t.nextMoves = comment ++ choice ∧ e.Trace input s.beginTurn rs u ∧ e.IsSettled input u ∧
      t = u.endTurn ∧ Adds e input s.beginTurn rs u comment choice ∧
      ((∃ m ∈ comment, EndsReply m) → choice = [])) := by
  obtain ⟨rs, t, hTrace, hSettled, -, rfl⟩ := run_outcome_eq_ok_iff.mp hRun
  constructor
  · intro hSys
    have hNone := hTrace.nextMoves_of_sys hRules hSys
    exact hNone
  · intro _
    obtain ⟨taken, pursued, u, rfl, hTaken, hPursued, hCommented, hOther, hLate⟩ :=
      hTrace.exists_comment hRules
    obtain ⟨choice, hMoves, hAdds⟩ := hPursued.exists_adds hRules hLate
    refine ⟨u.nextMoves, choice, _, t, hCommented.comment, hMoves, hTrace, hSettled, rfl,
      hAdds.prepend hTaken hOther, ?_⟩
    rintro ⟨m, hMem, hEnds⟩
    have hSilent := hPursued.not_isChoice_of_selected hRules
      (hCommented.selected_of_endsReply hMem hEnds)
    rw [hPursued.nextMoves_eq hRules hLate hSilent] at hMoves
    exact List.self_eq_append_right.mp hMoves

/-- The day is asked for, and the room can be told then. -/
def asksDayForRoom : InformationState where
  own := { plan := [.findout ⟨Lecture.bookingDay⟩, .consult ⟨Lecture.bookingRoom⟩] }
  shared :=
    { qud := [⟨Lecture.bookingDay⟩, ⟨Lecture.bookingRoom⟩]
      com := [⟨Lecture.bookingCourse, Lecture.course⟩] }

theorem friday_is_acknowledged : ∃ t,
    (Console.session.engine.run asksDayForRoom
      (.user [⟨.answer (.short "friday"), none⟩])).outcome = .ok t ∧
    t.nextMoves = [⟨.acknowledge Console.session.engine.config.acknowledgementText, none⟩,
      ⟨.answer (.full ⟨Lecture.bookingRoom, "G212"⟩), none⟩] ∧
    ∃ comment choice rs u, Comment Console.session.engine comment ∧
      t.nextMoves = comment ++ choice ∧
      Adds Console.session.engine (.user [⟨.answer (.short "friday"), none⟩])
        asksDayForRoom.beginTurn rs u comment choice := by
  refine ⟨_, rfl, rfl, ?_⟩
  have hRun : (Console.session.engine.run asksDayForRoom
    (.user [⟨.answer (.short "friday"), none⟩])).outcome = .ok _ := rfl
  obtain ⟨comment, choice, rs, u, hComment, hMoves, -, -, -, hAdds, -⟩ :=
    (reply_of_run rfl hRun).2 rfl
  exact ⟨comment, choice, rs, u, hComment, hMoves, hAdds⟩

end Dialogue.Engine
