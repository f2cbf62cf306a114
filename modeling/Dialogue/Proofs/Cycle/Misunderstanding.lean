import Dialogue.Console
import Dialogue.Proofs.Cycle.Commitments
import Dialogue.Proofs.Cycle.Replies

/-! # Turns that are not understood

The system says so and asks again. What it was about to do waits: the cycle leaves the agenda, the
plan, the beliefs, the commitments and the questions under discussion as they were.
-/

namespace Dialogue.Engine

open Update InformationState

variable {e : Engine} {s t u : InformationState} {r : Rule} {moves reply : List Move} {m : Move}

/-- How the user's moves can fail to be understood, with the reply that they get. -/
inductive NotUnderstood (e : Engine) (s : InformationState) (moves : List Move) :
    List Move → Prop where
  | unclear : (∃ m ∈ moves, m.isUnclear e.config.lowConfidence = true) →
      NotUnderstood e s moves (askAgain s ++ [⟨.inform e.config.clarificationText, none⟩])
  | silent : (TurnInput.user moves).utterance.isSilence = true →
      (e.config.escalation ≤ nextCount s.own.noInputCount →
        ∀ q, s.shared.qud.head? = some q → e.domain.default? q.predicate = none) →
      NotUnderstood e s moves (⟨.noInput, none⟩ :: askAgain s)
  | rejected {q : Question} {f : Format} : s.shared.qud.head? = some q →
      e.domain.formats.get? q.predicate = some f →
      (∀ m ∈ moves, m.isUnclear e.config.lowConfidence = false) →
      (∀ m ∈ moves, ∃ a, m.answered? = some a ∧
        ¬ (e.domain.relevant a q = true ∧ e.domain.accepts (q.combine a) = true)) →
      (∃ m ∈ moves, ∃ a, m.answered? = some a ∧
        e.domain.relevant a q = true ∧ e.domain.accepts (q.combine a) = false) →
      NotUnderstood e s moves [⟨.ask q, none⟩, ⟨.inform f.hint, none⟩]

theorem isIntelligible_eq_false {moves : List Move} {threshold : Float32}
    (h : ∃ m ∈ moves, m.isUnclear threshold = true) :
    (TurnInput.user moves).utterance.isIntelligible threshold = false := by
  rw [Utterance.isIntelligible, Bool.not_eq_false', List.any_eq_true]
  exact h

theorem isIntelligible_of_forall {moves : List Move} {threshold : Float32}
    (h : ∀ m ∈ moves, m.isUnclear threshold = false) :
    (TurnInput.user moves).utterance.isIntelligible threshold = true := by
  rw [Utterance.isIntelligible, Bool.not_eq_true', List.any_eq_false]
  intro m hMem
  rw [h m hMem]
  exact Bool.false_ne_true

/-- Nothing is taken in from the move, though it was clear. -/
structure Ignored (e : Engine) (s : InformationState) (moves : List Move) (m : Move) : Prop where
  requested : requestedSteps? e.domain m = none
  asked : m.asked? = none
  greeting : greeting? m = none
  silence : m.isNoInput = true → (TurnInput.user moves).utterance.isSilence = true
  fact : ∀ q t, s.shared.qud.head? = some q →
    acceptedFact? (e.context (.user moves) t) (TurnInput.user moves).utterance q m = none

namespace NotUnderstood

theorem moves_ne_nil (h : NotUnderstood e s moves reply) : moves ≠ [] := by
  cases h with
  | unclear hUnclear =>
    obtain ⟨m, hMem, -⟩ := hUnclear
    exact List.ne_nil_of_mem hMem
  | silent hSilence =>
    rintro rfl
    cases hSilence
  | rejected _ _ _ _ hRejected =>
    obtain ⟨m, hMem, -⟩ := hRejected
    exact List.ne_nil_of_mem hMem

theorem not_isSilence_of_rejected {q : Question}
    (hAnswers : ∃ m ∈ moves, ∃ a, m.answered? = some a ∧ e.domain.relevant a q = true ∧
      e.domain.accepts (q.combine a) = false) :
    (TurnInput.user moves).utterance.isSilence = false := by
  obtain ⟨m, hMem, a, hAnswered, -⟩ := hAnswers
  exact isSilence_eq_false_of_answered (u := (TurnInput.user moves).utterance) hMem hAnswered

theorem ignored (h : NotUnderstood e s moves reply)
    (hClear : (TurnInput.user moves).utterance.isIntelligible e.config.lowConfidence = true)
    (hMem : m ∈ moves) : Ignored e s moves m := by
  cases h with
  | unclear hUnclear =>
    rw [isIntelligible_eq_false hUnclear] at hClear
    cases hClear
  | silent hSilence =>
    have hNoInput := List.all_eq_true.mp (Bool.and_eq_true_iff.mp hSilence).2 m hMem
    obtain ⟨hGreeting, hAsked, hAnswered⟩ := isRemark_of_isNoInput hNoInput
    constructor
    · exact requestedSteps?_of_isNoInput hNoInput _
    · exact hAsked
    · exact hGreeting
    · intro _
      exact hSilence
    · intro q t _
      rw [acceptedFact?, hAnswered]
      rfl
  | @rejected q f hTop _ _ hAnswers =>
    obtain ⟨a, hAnswered, hRefused⟩ := hAnswers m hMem
    constructor
    · exact requestedSteps?_of_answered hAnswered _
    · exact asked?_of_answered hAnswered
    · exact greeting?_of_answered hAnswered
    · intro hNoInput
      rw [isNoInput_of_answered hAnswered] at hNoInput
      cases hNoInput
    · intro q' t hTop'
      obtain rfl : q = q' := Option.some.inj (hTop.symm.trans hTop')
      have hNone : (e.domain.relevant a q &&
          (Speaker.usr == .sys || e.domain.accepts (q.combine a))) = false := by
        rw [show (Speaker.usr == .sys) = false from rfl, Bool.false_or, Bool.eq_false_iff, ne_eq,
          Bool.and_eq_true]
        exact hRefused
      rw [acceptedFact?, hAnswered]
      exact if_neg (Bool.eq_false_iff.mp hNone)

theorem of_silence (h : NotUnderstood e s moves reply)
    (hSilence : (TurnInput.user moves).utterance.isSilence = true) :
    reply = ⟨.noInput, none⟩ :: askAgain s ∧
      (e.config.escalation ≤ nextCount s.own.noInputCount →
        ∀ q, s.shared.qud.head? = some q → e.domain.default? q.predicate = none) := by
  cases h with
  | unclear hUnclear =>
    have hClear := isIntelligible_of_isSilence e.config.lowConfidence hSilence
    rw [isIntelligible_eq_false hUnclear] at hClear
    cases hClear
  | silent _ hNone => exact ⟨rfl, hNone⟩
  | rejected _ _ _ _ hRejected =>
    rw [not_isSilence_of_rejected hRejected] at hSilence
    cases hSilence

theorem of_unclear (h : NotUnderstood e s moves reply)
    (hUnclear : (TurnInput.user moves).utterance.isIntelligible e.config.lowConfidence = false) :
    reply = askAgain s ++ [⟨.inform e.config.clarificationText, none⟩] := by
  cases h with
  | unclear => rfl
  | silent hSilence =>
    rw [isIntelligible_of_isSilence _ hSilence] at hUnclear
    cases hUnclear
  | rejected _ _ hClear =>
    rw [isIntelligible_of_forall hClear] at hUnclear
    cases hUnclear

theorem of_clear (h : NotUnderstood e s moves reply)
    (hClear : (TurnInput.user moves).utterance.isIntelligible e.config.lowConfidence = true)
    (hSpoken : (TurnInput.user moves).utterance.isSilence = false) {q : Question} {f : Format}
    (hTop : s.shared.qud.head? = some q) (hFormat : e.domain.formats.get? q.predicate = some f) :
    reply = [⟨.ask q, none⟩, ⟨.inform f.hint, none⟩] := by
  cases h with
  | unclear hUnclear =>
    rw [isIntelligible_eq_false hUnclear] at hClear
    cases hClear
  | silent hSilence =>
    rw [hSilence] at hSpoken
    cases hSpoken
  | rejected hTop' hFormat' =>
    rw [hTop] at hTop'
    cases hTop'
    rw [hFormat] at hFormat'
    cases hFormat'
    rfl

end NotUnderstood

/-- What a cycle leaves as it is when the turn is not understood. -/
structure Untouched (s t : InformationState) : Prop where
  agenda : t.own.agenda = s.own.agenda
  plan : t.own.plan = s.own.plan
  bel : t.own.bel = s.own.bel
  com : t.shared.com = s.shared.com
  qud : t.shared.qud = s.shared.qud

theorem Untouched.idle (h : Untouched s t) (hIdle : e.Idle s) : e.Idle t :=
  hIdle.of_same h.agenda h.plan h.bel h.qud h.com

/-- The turn has not been commented on yet. Of a clear turn no move was dealt with before, so there
still is one to comment on. -/
structure Unsaid (e : Engine) (s : InformationState) (moves : List Move) (t : InformationState) :
    Prop where
  nextMoves : t.nextMoves = []
  grounded : t.turn.grounded = false
  count : (TurnInput.user moves).utterance.isSilence = true →
    t.own.noInputCount = s.own.noInputCount
  consumed : (TurnInput.user moves).utterance.isIntelligible e.config.lowConfidence = true →
    t.turn.consumed = []

/-- The turn has been commented on. The marks keep from commenting on it again. -/
structure Said (moves reply : List Move) (t : InformationState) : Prop where
  nextMoves : t.nextMoves = reply
  latched : t.turn.latched = true
  selected : t.turn.selected = true
  done : (TurnInput.user moves).utterance.isSilence = false ∧ t.turn.grounded = true ∨
    Counted (.user moves) t

namespace NotUnderstood

section

variable (h : NotUnderstood e s moves reply) (hSame : Untouched s t)
  (hAttends : Attends (.user moves) t)
include h hSame hAttends

theorem rank_of_fires (hFires : Fires e (.user moves) t r u) :
    rank r ≤ rank getLatestMove ∨ rank integrateGreet ≤ rank r := by
  cases hFires with
  | request hTurn hFind =>
    obtain ⟨-, hClear⟩ := eq_utterance_of_intelligibleUserTurn? hAttends hTurn
    refine absurd hFind (not_fires_of_findPending? fun x hMem => ?_)
    exact (h.ignored hClear (hAttends.mem_moves hMem)).requested
  | sysAsk hLatched hSpeaker =>
    obtain rfl := hAttends.eq_utterance hLatched
    cases hSpeaker
  | usrAsk hTurn hFind =>
    obtain ⟨-, hClear⟩ := eq_utterance_of_intelligibleUserTurn? hAttends hTurn
    refine absurd hFind (not_fires_of_findPending? fun x hMem => ?_)
    exact (h.ignored hClear (hAttends.mem_moves hMem)).asked
  | answer hLatched hMay hQud hFind =>
    obtain rfl := hAttends.eq_utterance hLatched
    have hClear : (TurnInput.user moves).utterance.isIntelligible e.config.lowConfidence = true :=
      hMay
    refine absurd hFind (not_fires_of_findPending? fun x hMem => ?_)
    refine (h.ignored hClear (hAttends.mem_moves hMem)).fact _ t ?_
    rw [← hSame.qud, hQud]
    rfl
  | _ => decide

theorem exists_fires (hUnsaid : Unsaid e s moves t) :
    ∃ r t', Fires e (.user moves) t r t' ∧ rank r ≤ rank integratePartialUnderstanding := by
  cases hMark : t.turn.latched with
  | false => exact ⟨_, _, .latch h.moves_ne_nil hMark, by decide⟩
  | true =>
    have hTurn : (e.context (.user moves) t).userTurn? = some (TurnInput.user moves).utterance :=
      hAttends.userTurn? rfl hMark
    cases h with
    | unclear hUnclear =>
      refine ⟨_, _, .unclear hTurn hUnsaid.grounded ?_, by decide⟩
      exact isIntelligible_eq_false hUnclear
    | silent hSilence =>
      have hFresh := hUnsaid.consumed (isIntelligible_of_isSilence _ hSilence)
      obtain ⟨r, t', hFires, hRank⟩ :=
        exists_fires_of_uncounted (e := e) hAttends ⟨rfl, hSilence⟩ hFresh
      exact ⟨r, t', hFires, Nat.le_trans hRank (by decide)⟩
    | @rejected q f hTop hFormat hClear _ hRejected =>
      have hIntelligible := isIntelligible_of_forall hClear
      obtain ⟨m, hMem, a, hAnswered, hRelevant, hRefused⟩ := hRejected
      obtain ⟨i, hMove⟩ := List.mem_iff_getElem?.mp hMem
      have hPending : (i, m) ∈ t.pendingMoves := by
        rw [mem_pendingMoves_iff (hAttends.latched? hMark), hUnsaid.consumed hIntelligible]
        exact ⟨hMove, List.not_mem_nil⟩
      have hMisformatted : (misformatted? (e.context (.user moves) t) q f m).isSome = true :=
        (isSome_misformatted?_iff hFormat).mpr ⟨a, hAnswered, hRelevant, hRefused⟩
      have hSome : (e.context (.user moves) t).findPending?
          (misformatted? (e.context (.user moves) t) q f) ≠ none := by
        intro hNone
        have hMissed := Context.findPending?_eq_none_iff.mp hNone _ hPending
        rw [hMissed] at hMisformatted
        cases hMisformatted
      obtain ⟨⟨j, ⟨⟩⟩, hFind⟩ := Option.ne_none_iff_exists'.mp hSome
      obtain ⟨qs, hQud⟩ := List.head?_eq_some_iff.mp (hSame.qud ▸ hTop)
      have hUser : (e.context (.user moves) t).intelligibleUserTurn? =
          some (TurnInput.user moves).utterance :=
        Option.filter_eq_some_iff.mpr ⟨hTurn, hIntelligible⟩
      exact ⟨_, _, .misformatted hUnsaid.grounded hUser hQud hFormat hFind, Nat.le_refl _⟩

/-- The first to comment on the turn says the whole reply. -/
theorem fires_unsaid (hUnsaid : Unsaid e s moves t) (hFires : Fires e (.user moves) t r u)
    (hFirst : ∀ r' t', Fires e (.user moves) t r' t' → rank r ≤ rank r') :
    Untouched s u ∧ (Unsaid e s moves u ∨ Said moves reply u) := by
  have hTaken := h.rank_of_fires hSame hAttends hFires
  obtain ⟨r', t', hFires', hBefore⟩ := h.exists_fires hSame hAttends hUnsaid
  have hRank := Nat.le_trans (hFirst r' t' hFires') hBefore
  obtain ⟨hAgenda, hPlan, hBel, hCom, hQud⟩ := hSame
  obtain ⟨hNone, hFresh, hCount, hConsumed⟩ := hUnsaid
  have hAgain : askAgain t = askAgain s := by rw [askAgain, askAgain, hQud]
  cases hFires with
  | clearAgenda hReset => cases hReset
  | latch => exact ⟨⟨hAgenda, hPlan, hBel, hCom, hQud⟩, .inl ⟨hNone, hFresh, hCount, fun _ => rfl⟩⟩
  | request | sysAsk | usrAsk | answer => exact absurd hTaken (by decide)
  | greeted hFind =>
    refine ⟨⟨hAgenda, hPlan, hBel, hCom, hQud⟩, .inl ⟨hNone, hFresh, hCount, fun hClear => ?_⟩⟩
    refine absurd hFind (not_fires_of_findPending? fun x hMem => ?_)
    exact (h.ignored hClear (hAttends.mem_moves hMem)).greeting
  | engaged hTurn hSpoken =>
    obtain ⟨rfl, -⟩ := eq_utterance_of_userTurn? hAttends hTurn
    refine ⟨⟨hAgenda, hPlan, hBel, hCom, hQud⟩, .inl ⟨hNone, hFresh, ?_, fun hClear => ?_⟩⟩
    · intro hSilence
      rw [hSpoken] at hSilence
      cases hSilence
    · refine (consumedSilence_eq_self fun x hMem => ?_).trans (hConsumed hClear)
      by_contra hNoInput
      have hSilence := (h.ignored hClear (hAttends.mem_moves hMem)).silence
        (Bool.of_not_eq_false hNoInput)
      rw [hSpoken] at hSilence
      cases hSilence
  -- the comments, of which only one fits the turn
  | reprompted hTurn hSilence =>
    obtain ⟨rfl, hMark⟩ := eq_utterance_of_userTurn? hAttends hTurn
    refine ⟨⟨hAgenda, hPlan, hBel, hCom, hQud⟩, .inr ⟨?_, hMark, rfl, .inr ?_⟩⟩
    · rw [(h.of_silence hSilence).1, ← hAgain]
      exact congrArg (· ++ _) hNone
    · exact counted_of_consumedSilence hSilence hMark rfl rfl rfl
  | fellBack hTurn hSilence _ hEscalate hTopped hDefault =>
    obtain ⟨rfl, -⟩ := eq_utterance_of_userTurn? hAttends hTurn
    rw [hCount hSilence] at hEscalate
    rw [hQud] at hTopped
    rw [(h.of_silence hSilence).2 hEscalate _ (by rw [hTopped]; rfl)] at hDefault
    cases hDefault
  | unclear hTurn _ hUnclear =>
    obtain ⟨rfl, hMark⟩ := eq_utterance_of_userTurn? hAttends hTurn
    refine ⟨⟨hAgenda, hPlan, hBel, hCom, hQud⟩, .inr ⟨?_, hMark, rfl, .inl ⟨?_, rfl⟩⟩⟩
    · rw [h.of_unclear hUnclear, ← hAgain]
      exact congrArg (· ++ _ ++ _) hNone
    · rw [Bool.eq_false_iff]
      intro hSilence
      rw [isIntelligible_of_isSilence _ hSilence] at hUnclear
      cases hUnclear
  | misformatted _ hTurn hTopped hFormat hFind =>
    obtain ⟨hClear, hSpoken⟩ := understood_of_misformatted hAttends hTurn hFind
    obtain ⟨m, hPending, -⟩ := Context.exists_pending_of_findPending? hFind
    have hMark := latched_of_pending hPending
    rw [hQud] at hTopped
    have hReply := h.of_clear hClear hSpoken (by rw [hTopped]; rfl) hFormat
    refine ⟨⟨hAgenda, hPlan, hBel, hCom, hQud⟩, .inr ⟨?_, hMark, rfl, .inl ⟨hSpoken, rfl⟩⟩⟩
    rw [hReply]
    exact congrArg (· ++ _) hNone
  -- everything else has to wait for the comment
  | _ => exact absurd hRank (by decide)

theorem fires_said (hIdle : e.Idle s) (hSaid : Said moves reply t)
    (hFires : Fires e (.user moves) t r u) : Untouched s u ∧ Said moves reply u := by
  have hTaken := h.rank_of_fires hSame hAttends hFires
  have hPursued : rank downdateQud ≤ rank r → rank selectFromPlan ≤ rank r :=
    (hSame.idle hIdle).rank_of_fires hFires
  obtain ⟨hAgenda, hPlan, hBel, hCom, hQud⟩ := hSame
  obtain ⟨hReply, hMark, hSelected, hDone⟩ := hSaid
  have hOver {P : Prop} (hMay : (e.context (.user moves) t).maySelect = true) : P := by
    rw [selected_of_maySelect hMay] at hSelected
    cases hSelected
  have hCounted (hFresh : t.turn.grounded = false) : Counted (.user moves) t := by
    rcases hDone with ⟨-, hGrounded⟩ | hCounted
    · rw [hFresh] at hGrounded
      cases hGrounded
    · exact hCounted
  cases hFires with
  | clearAgenda hReset => cases hReset
  | latch _ hUnlatched =>
    rw [hMark] at hUnlatched
    cases hUnlatched
  | request | sysAsk | usrAsk | answer => exact absurd hTaken (by decide)
  | greeted =>
    refine ⟨⟨hAgenda, hPlan, hBel, hCom, hQud⟩, hReply, hMark, hSelected, ?_⟩
    exact hDone.imp id (·.of_consumed rfl rfl consumed_subset_insert)
  | engaged =>
    refine ⟨⟨hAgenda, hPlan, hBel, hCom, hQud⟩, hReply, hMark, hSelected, ?_⟩
    exact hDone.imp id (·.of_consumed rfl rfl consumed_subset_consumedSilence)
  | reprompted hTurn hSilent hPending | fellBack hTurn hSilent hPending =>
    obtain ⟨rfl, -⟩ := eq_utterance_of_userTurn? hAttends hTurn
    obtain ⟨m, hMem, hNoInput⟩ := hPending
    rcases hDone with ⟨hSpoken, -⟩ | hCounted
    · rw [hSpoken] at hSilent
      cases hSilent
    · rw [hCounted.pending m hMem] at hNoInput
      cases hNoInput
  | unclear hTurn hFresh hUnclear =>
    obtain ⟨rfl, -⟩ := eq_utterance_of_userTurn? hAttends hTurn
    rw [isIntelligible_of_isSilence _ (hCounted hFresh).silence] at hUnclear
    cases hUnclear
  | misformatted hFresh hTurn _ _ hFind =>
    have hSpoken := (understood_of_misformatted hAttends hTurn hFind).spoken
    rw [(hCounted hFresh).silence] at hSpoken
    cases hSpoken
  | acknowledged hTurn _ hFresh hSure =>
    have hSpoken := (understood_of_sure hAttends hTurn hSure).spoken
    rw [(hCounted hFresh).silence] at hSpoken
    cases hSpoken
  | downdate | loaded | foundOut | consulted => exact absurd (hPursued (by decide)) (by decide)
  | copied hMay | asked hMay | tookUp hMay | answered hMay | greets hMay => exact hOver hMay

end

theorem said_of_trace {rs : List Rule} (h : NotUnderstood e s moves reply)
    (hRules : e.rules = defaultRules) (hIdle : e.Idle s)
    (hTrace : e.Trace (.user moves) s.beginTurn rs t) (hEnd : e.IsSettled (.user moves) t) :
    Attends (.user moves) t ∧ Untouched s t ∧ Said moves reply t := by
  obtain ⟨hAttends, hSame, hSpoken⟩ := hTrace.preserves_in_order
    (P := fun t => Untouched s t ∧ (Unsaid e s moves t ∨ Said moves reply t)) hRules
    (by
      rintro t r u hAttends ⟨hSame, hUnsaid | hSaid⟩ hFires hFirst
      · exact h.fires_unsaid hSame hAttends hUnsaid hFires hFirst
      · obtain ⟨hSame', hSaid'⟩ := h.fires_said hSame hAttends hIdle hSaid hFires
        exact ⟨hSame', .inr hSaid'⟩)
    ⟨⟨rfl, rfl, rfl, rfl, rfl⟩, .inl ⟨rfl, rfl, fun _ => rfl, fun _ => rfl⟩⟩
  rcases hSpoken with hUnsaid | hSaid
  · obtain ⟨r, u, hFires, -⟩ := h.exists_fires hSame hAttends hUnsaid
    exact absurd hFires (not_fires_of_isSettled hRules hEnd)
  · exact ⟨hAttends, hSame, hSaid⟩

end NotUnderstood

/-- A turn that is not understood leaves a settled dialogue as it was, and the reply says no more
than how it was heard. -/
theorem untouched_of_notUnderstood (hRules : e.rules = defaultRules)
    (hSettled : ∀ r ∈ [downdateQud, findPlan, removeFindout, execConsult],
      r.effect (e.context (.user moves) s) = none)
    (h : NotUnderstood e s moves reply) (hRun : (e.run s (.user moves)).outcome = .ok t) :
    Untouched s t ∧ t.shared.lu = some ⟨.usr, moves⟩ ∧ t.nextMoves = reply := by
  obtain ⟨rs, t, hTrace, hEnd, -, rfl⟩ := run_outcome_eq_ok_iff.mp hRun
  obtain ⟨hAttends, ⟨hAgenda, hPlan, hBel, hCom, hQud⟩, hSaid⟩ :=
    h.said_of_trace hRules (idle_of_effects hSettled) hTrace hEnd
  exact ⟨⟨hAgenda, hPlan, hBel, hCom, hQud⟩, hAttends hSaid.latched, hSaid.nextMoves⟩

def asksDay : InformationState where
  own := { plan := [.findout ⟨Lecture.bookingDay⟩] }
  shared := { qud := [⟨Lecture.bookingDay⟩] }

theorem effects_asksDay : ∀ r ∈ [downdateQud, findPlan, removeFindout, execConsult],
    r.effect (Console.session.engine.context (.user moves) asksDay) = none := by
  simp only [List.forall_mem_cons, List.not_mem_nil, false_implies, implies_true, and_true]
  exact ⟨rfl, rfl, rfl, rfl⟩

/-- The day is asked for again when it was mumbled, passed over in silence, or on the weekend. -/
theorem day_is_asked_again :
    (∃ t, (Console.session.engine.run asksDay
        (.user [⟨.answer (.short "friday"), some 0.5⟩])).outcome = .ok t ∧ Untouched asksDay t ∧
      t.nextMoves = [⟨.ask ⟨Lecture.bookingDay⟩, none⟩,
        ⟨.inform Console.session.engine.config.clarificationText, none⟩]) ∧
    (∃ t, (Console.session.engine.run asksDay (.user [⟨.noInput, none⟩])).outcome = .ok t ∧
      Untouched asksDay t ∧
      t.nextMoves = [⟨.noInput, none⟩, ⟨.ask ⟨Lecture.bookingDay⟩, none⟩]) ∧
    ∃ t, (Console.session.engine.run asksDay
        (.user [⟨.answer (.short "saturday"), none⟩])).outcome = .ok t ∧ Untouched asksDay t ∧
      t.nextMoves = [⟨.ask ⟨Lecture.bookingDay⟩, none⟩, ⟨.inform Lecture.weekdayHint, none⟩] := by
  refine ⟨⟨_, rfl, ?_⟩, ⟨_, rfl, ?_⟩, ⟨_, rfl, ?_⟩⟩
  · have hMumbled : NotUnderstood Console.session.engine asksDay
        [⟨.answer (.short "friday"), some 0.5⟩] _ := .unclear ⟨_, List.mem_cons_self, rfl⟩
    obtain ⟨hSame, -, hReply⟩ := untouched_of_notUnderstood rfl effects_asksDay hMumbled rfl
    exact ⟨hSame, hReply⟩
  · have hSilent : NotUnderstood Console.session.engine asksDay [⟨.noInput, none⟩]
        (⟨.noInput, none⟩ :: askAgain asksDay) := by
      apply NotUnderstood.silent rfl
      intro hEscalates
      exact absurd hEscalates (by decide)
    obtain ⟨hSame, -, hReply⟩ := untouched_of_notUnderstood rfl effects_asksDay hSilent rfl
    exact ⟨hSame, hReply⟩
  · have hWeekend : NotUnderstood Console.session.engine asksDay
        [⟨.answer (.short "saturday"), none⟩]
        [⟨.ask ⟨Lecture.bookingDay⟩, none⟩, ⟨.inform Lecture.weekdayHint, none⟩] := by
      refine .rejected (f := .ofValues Lecture.weekdays Lecture.weekdayHint) rfl rfl ?_ ?_ ?_
      · intro m hMem
        obtain rfl := List.mem_singleton.mp hMem
        rfl
      · intro m hMem
        obtain rfl := List.mem_singleton.mp hMem
        refine ⟨_, rfl, ?_⟩
        rintro ⟨-, hAccepts⟩
        cases hAccepts
      · exact ⟨_, List.mem_cons_self, _, rfl, rfl, rfl⟩
    obtain ⟨hSame, -, hReply⟩ := untouched_of_notUnderstood rfl effects_asksDay hWeekend rfl
    exact ⟨hSame, hReply⟩

end Dialogue.Engine
