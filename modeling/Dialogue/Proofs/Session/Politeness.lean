import Dialogue.Proofs.Cycle.Acknowledging
import Dialogue.Proofs.Session.Ending
import Dialogue.Proofs.Session.Refusals

/-! # Acknowledgements are polite only

Sessions under settings that differ in when and how answers are acknowledged go the same way, call
by call. Where one says nothing and the other only acknowledges, the second one hears itself, and
that changes nothing.
-/

namespace Dialogue.Session

open Update Engine InformationState

variable {s s' s₁ t t' t₁ u : Session} {input input' : TurnInput}
  {moves moves' reply reply' : List Move}
  {calls : List Call} {replies replies' : List (List Move)}

/-- The sessions differ at most in acknowledgements, past and to come. -/
structure Agrees (s t : Session) : Prop where
  engine : s.engine.Resembles t.engine
  state : Alike s.state t.state

theorem Agrees.symm (h : s.Agrees t) : t.Agrees s :=
  ⟨h.engine.symm, h.state.symm⟩

theorem Agrees.trans (h : s.Agrees t) (h' : t.Agrees u) : s.Agrees u :=
  ⟨h.engine.trans h'.engine, h.state.trans h'.state⟩

theorem Agrees.of_step (h : s.Agrees t) (hStep : s.step input = (.ok reply, s'))
    (hStep' : t.step input' = (.ok reply', t')) (hState : Alike s'.state t'.state) :
    s'.Agrees t' := by
  constructor
  · rw [engine_of_step hStep, engine_of_step hStep']
    exact h.engine
  · exact hState

theorem Agrees.step (h : s.Agrees t) (hStep : s.step input = (.ok reply, s'))
    (hStep' : t.step input = (.ok reply', t')) :
    s'.Agrees t' ∧ reply.filter (!·.isAcknowledge) = reply'.filter (!·.isAcknowledge) := by
  obtain ⟨rs, v, hTrace, hSettled, -, hState, rfl⟩ := exists_trace_of_step hStep
  obtain ⟨rs', v', hTrace', hSettled', -, hState', rfl⟩ := exists_trace_of_step hStep'
  have hSame := hTrace.unacknowledged_eq h.engine hSettled hTrace' hSettled'
    h.state.beginTurn_unacknowledged
  have hAlike := Alike.of_unacknowledged hSame
  constructor
  · apply h.of_step hStep hStep'
    rw [hState, hState']
    exact ⟨hAlike.own, hAlike.qud, hAlike.com⟩
  · exact congrArg (·.nextMoves) hSame

theorem Agrees.step_echo (h : s.Agrees t) (hMoves : moves ≠ []) (hMoves' : moves' ≠ [])
    (hTalk : moves.filter (!·.isAcknowledge) = moves'.filter (!·.isAcknowledge))
    (hStep : s.step (.echo moves) = (.ok reply, s'))
    (hStep' : t.step (.echo moves') = (.ok reply', t')) : s'.Agrees t' := by
  obtain ⟨rs, v, hTrace, hSettled, -, hState, -⟩ := exists_trace_of_step hStep
  obtain ⟨rs', v', hTrace', hSettled', -, hState', -⟩ := exists_trace_of_step hStep'
  have hSame := hTrace.hearsAlike h.engine hMoves hMoves' hTalk hSettled hTrace' hSettled' h.state
  apply h.of_step hStep hStep'
  rw [hState, hState']
  exact ⟨hSame.own, hSame.qud, hSame.com⟩

/-- When the system says nothing but that it has understood, it hears itself in vain. -/
theorem agrees_of_acknowledges (hRules : s.engine.rules = defaultRules)
    (hStep : s.step input = (.ok reply, s₁)) (h : s.converse input = (.ok reply, s'))
    (hAcks : reply.filter (!·.isAcknowledge) = []) : s₁.Agrees s' := by
  have hRules' : s₁.engine.rules = defaultRules := (engine_of_step hStep).symm ▸ hRules
  have hAlike : s₁.engine.Resembles s₁.engine := ⟨hRules', hRules', rfl, rfl, rfl⟩
  by_cases hReply : reply = []
  · subst hReply
    rw [eq_of_converse_nil hStep h]
    exact ⟨hAlike, rfl, rfl, rfl⟩
  · obtain ⟨s₂, hStep', hEcho⟩ := exists_steps_of_converse_ok h
    rw [hStep] at hStep'
    cases hStep'
    obtain ⟨reply', hEcho⟩ := hEcho hReply
    obtain ⟨rs, v, hTrace, hSettled, -, hState, rfl⟩ := exists_trace_of_step hStep
    have hIdle := idle_of_isSettled hRules hSettled
    have hIdle' : s₁.engine.Idle s₁.state := by
      rw [engine_of_step hStep, hState]
      exact hIdle.endTurn
    have hMute : ∀ m ∈ v.nextMoves, s₁.engine.Mute (fun _ => True) m := by
      intro m hMem
      have hAck := List.filter_eq_nil_iff.mp hAcks m hMem
      exact (isRemark_of_isAcknowledge (by simpa using hAck)).mute _
    have hSettles := settles_echo_of_mute hRules' hIdle' hReply hMute fun _ _ => trivial
    have hHeard := state_of_settles hRules' hSettles hEcho
    constructor
    · rw [engine_of_step hEcho]
      exact hAlike
    · rw [hHeard]
      exact ⟨rfl, rfl, rfl⟩

theorem Agrees.converse (h : s.Agrees t) (hCall : s.converse input = (.ok reply, s'))
    (hCall' : t.converse input = (.ok reply', t')) :
    s'.Agrees t' ∧ reply.filter (!·.isAcknowledge) = reply'.filter (!·.isAcknowledge) := by
  obtain ⟨s₁, hStep, hEcho⟩ := exists_steps_of_converse_ok hCall
  obtain ⟨t₁, hStep', hEcho'⟩ := exists_steps_of_converse_ok hCall'
  obtain ⟨hAgrees, hTalk⟩ := h.step hStep hStep'
  refine ⟨?_, hTalk⟩
  by_cases hAcks : reply.filter (!·.isAcknowledge) = []
  · have hKept := agrees_of_acknowledges h.engine.rules hStep hCall hAcks
    have hKept' := agrees_of_acknowledges h.engine.rules' hStep' hCall' (hTalk ▸ hAcks)
    exact hKept.symm.trans (hAgrees.trans hKept')
  · have hReply : reply ≠ [] := by
      rintro rfl
      exact hAcks rfl
    have hReply' : reply' ≠ [] := by
      rintro rfl
      exact hAcks hTalk
    obtain ⟨_, hEcho⟩ := hEcho hReply
    obtain ⟨_, hEcho'⟩ := hEcho' hReply'
    exact hAgrees.step_echo hReply hReply' hTalk hEcho hEcho'

/-- The calls return these replies, one after the other. -/
inductive Returns : Session → List Call → List (List Move) → Session → Prop where
  | nil (s : Session) : Returns s [] [] s
  | cons {s t u : Session} {c : Call} {calls : List Call} {reply : List Move}
      {replies : List (List Move)} : s.call c = (.ok reply, t) → Returns t calls replies u →
      Returns s (c :: calls) (reply :: replies) u

theorem Agrees.call {c : Call} (h : s.Agrees t) (hCall : s.call c = (.ok reply, s'))
    (hCall' : t.call c = (.ok reply', t')) :
    s'.Agrees t' ∧ reply.filter (!·.isAcknowledge) = reply'.filter (!·.isAcknowledge) := by
  cases c with
  | step input => exact h.step hCall hCall'
  | start | hear moves => exact h.converse hCall hCall'

theorem Agrees.returns (h : s.Agrees t) (hReturns : s.Returns calls replies s')
    (hReturns' : t.Returns calls replies' t') : s'.Agrees t' ∧
      replies.map (fun reply => reply.filter (!·.isAcknowledge)) =
        replies'.map fun reply => reply.filter (!·.isAcknowledge) := by
  induction hReturns generalizing t replies' with
  | nil s =>
    cases hReturns'
    exact ⟨h, rfl⟩
  | cons hCall _ ih =>
    cases hReturns' with
    | cons hCall' hRest' =>
      obtain ⟨hNext, hReply⟩ := h.call hCall hCall'
      obtain ⟨hEnd, hReplies⟩ := ih hNext hRest'
      exact ⟨hEnd, by rw [List.map_cons, List.map_cons, hReply, hReplies]⟩

/-- When and how answers are acknowledged decides nothing else: as long as all calls return, the
dialogue goes the same way, and the replies differ in acknowledgements alone. -/
theorem acknowledging_changes_nothing_else {domain : Domain} {database : Database} {config : Config}
    {initial : InformationState} {threshold : Float32} {text : String}
    (hNew : new domain database config initial = .ok s)
    (hNew' : new domain database
      { config with acknowledge := threshold, acknowledgementText := text } initial = .ok t)
    (hReturns : s.Returns calls replies s') (hReturns' : t.Returns calls replies' t') :
    s'.state.own = t'.state.own ∧ s'.state.shared.qud = t'.state.shared.qud ∧
      s'.state.shared.com = t'.state.shared.com ∧
      replies.map (fun reply => reply.filter (!·.isAcknowledge)) =
        replies'.map fun reply => reply.filter (!·.isAcknowledge) := by
  obtain ⟨hRules, hDomain, hDatabase, hConfig, hState⟩ := engine_of_new hNew
  obtain ⟨hRules', hDomain', hDatabase', hConfig', hState'⟩ := engine_of_new hNew'
  have hStart : s.Agrees t := by
    constructor
    · refine ⟨hRules, hRules', hDomain.trans hDomain'.symm, hDatabase.trans hDatabase'.symm, ?_⟩
      rw [hConfig, hConfig']
      rfl
    · rw [hState, hState']
      exact ⟨rfl, rfl, rfl⟩
  obtain ⟨hEnd, hReplies⟩ := hStart.returns hReturns hReturns'
  exact ⟨hEnd.state.own, hEnd.state.qud, hEnd.state.com, hReplies⟩

/-- A session on lectures that never acknowledges. -/
def brusque : Session :=
  .ofEngine { Console.session.engine with
    config := { acknowledge := 1, acknowledgementText := "Yes." }, valid := by decide +kernel }
    Lecture.initialState

/-- An answer that nobody asked for, the question for the room, and an answer that was asked for. -/
def fridayCalls : List Call :=
  [.start, .hear [⟨.answer (.short "pizza"), none⟩], .hear [⟨.ask ⟨Lecture.bookingRoom⟩, none⟩],
    .hear [⟨.answer (.short "friday"), none⟩]]

/-- The first answer is acknowledged by one session, which then hears itself, and passed over by the
other. -/
theorem brusque_goes_the_same_way : ∃ replies replies' s t,
    Console.session.Returns fridayCalls replies s ∧ brusque.Returns fridayCalls replies' t ∧
    replies[1]? = some [⟨.acknowledge "Okay, got it.", none⟩] ∧ replies'[1]? = some [] ∧
    s.state.own = t.state.own ∧ s.state.shared.qud = t.state.shared.qud ∧
    s.state.shared.com = t.state.shared.com ∧
    replies.map (fun reply => reply.filter (!·.isAcknowledge)) =
      replies'.map fun reply => reply.filter (!·.isAcknowledge) := by
  have hNew : new Lecture.domain Lecture.rooms {} Lecture.initialState = .ok Console.session := rfl
  have hNew' : new Lecture.domain Lecture.rooms
      { ({} : Config) with acknowledge := 1, acknowledgementText := "Yes." } Lecture.initialState =
    .ok brusque := rfl
  have hReturns : Console.session.Returns fridayCalls _ _ :=
    .cons rfl (.cons rfl (.cons rfl (.cons rfl (.nil _))))
  have hReturns' : brusque.Returns fridayCalls _ _ :=
    .cons rfl (.cons rfl (.cons rfl (.cons rfl (.nil _))))
  exact ⟨_, _, _, _, hReturns, hReturns', rfl, rfl,
    acknowledging_changes_nothing_else hNew hNew' hReturns hReturns'⟩

end Dialogue.Session
