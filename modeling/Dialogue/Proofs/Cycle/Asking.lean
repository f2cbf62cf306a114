import Dialogue.Proofs.Cycle.Idling
import Dialogue.Proofs.Cycle.Misunderstanding
import Dialogue.Proofs.Domain.Plans

/-! # What is asked

Nothing is agreed on once a question is asked. So a question that the system asks is open, unless it
was not when it was asked: a requested plan is carried out as it is, and an answer may be rejected
although another one was taken before.
-/

namespace Dialogue.Engine

open Update InformationState

variable {e : Engine} {input : TurnInput} {s t u v : InformationState} {r : Rule} {rs : List Rule}
  {moves : List Move} {m : Move} {q : Question} {deltas : List Delta}

theorem Trace.exists_said (h : e.Trace input s rs t) (hMem : m ∈ t.nextMoves)
    (hNew : m ∉ s.nextMoves) : ∃ before r after v deltas, rs = before ++ r :: after ∧
      e.Trace input s before v ∧ e.applicable? input v = some (r, deltas) ∧
      e.Trace input (v.apply deltas) after t ∧ m ∈ (v.apply deltas).nextMoves ∧
      m ∉ v.nextMoves := by
  induction h with
  | done s => exact absurd hMem hNew
  | @fire s t r deltas rs hHit hRest ih =>
    by_cases hSaid : m ∈ (s.apply deltas).nextMoves
    · exact ⟨[], r, rs, s, deltas, rfl, .done s, hHit, hRest, hSaid, hNew⟩
    · obtain ⟨before, r', after, v, deltas', rfl, hBefore, hRest⟩ := ih hMem hSaid
      exact ⟨r :: before, r', after, v, deltas', rfl, .fire hHit hBefore, hRest⟩

theorem Heeded.pursuing (h : e.Heeded input s) (hOpen : TopIsOpen s) : e.Pursuing input s := by
  intro r t hFires
  exact rank_findPlan_le hOpen hFires (h r t hFires)

theorem Pursuing.isResolved_eq (hRules : e.rules = defaultRules)
    (hReset : input.resetAgenda = false) (hPursuing : e.Pursuing input s)
    (h : e.Trace input s rs t) (q : Question) : t.isResolved q = s.isResolved q := by
  rw [isResolved, isResolved, (hPursuing.same hRules hReset h).2]

theorem Counted.heeded (h : Counted input s) (hReset : input.resetAgenda = false)
    (hAttends : Attends input s) (hUser : input.speaker = .usr) : e.Heeded input s := by
  intro r t hFires
  have hRank := h.rank_of_fires hAttends hUser hFires
  cases hFires with
  | clearAgenda hRequested =>
    rw [hReset] at hRequested
    cases hRequested
  | _ => revert hRank; decide

/-- A rejection comes last of what there is to take in and to comment on. -/
theorem heeded_of_rejected (hReset : input.resetAgenda = false)
    (hFirst : ∀ r t, Fires e input s r t → rank integratePartialUnderstanding ≤ rank r)
    (hLatched : t.turn.latched = s.turn.latched) (hLu : t.shared.lu = s.shared.lu)
    (hQud : t.shared.qud = s.shared.qud) (hCount : t.own.noInputCount = s.own.noInputCount)
    (hConsumed : s.turn.consumed ⊆ t.turn.consumed) (hGrounded : t.turn.grounded = true) :
    e.Heeded input t := by
  have hSub := pendingMoves_subset hLatched hLu hConsumed
  intro r u hFires
  -- The rejection has marked its move, so less is left to take in, and comments are marked as made.
  rcases Nat.lt_or_ge (rank r) (rank integrateLowConfidence) with hIntake | hComment
  · obtain ⟨u', hFires'⟩ := exists_fires_of_fewer hReset hLatched hLu hCount hSub
      (fun q hTop => hQud ▸ hTop) hFires hIntake
    exact absurd (Nat.lt_of_le_of_lt (hFirst r u' hFires') hIntake) (by decide)
  · cases hFires with
    | unclear _ hUngrounded | misformatted hUngrounded | acknowledged _ _ hUngrounded =>
      rw [hGrounded] at hUngrounded
      cases hUngrounded
    | _ => revert hComment; decide

/-- An action is on the agenda of a cycle from an empty one in response to the user, or because it
is the step that the plan is at. -/
inductive Due (e : Engine) (input : TurnInput) (s : InformationState) : Action → Prop where
  | respond (q : Question) : Due e input s (.respond q)
  | greet : Due e input s .greet
  | requested {m : Move} {steps : List Action} {a : Action} : m ∈ input.moves →
      requestedSteps? e.domain m = some steps → a ∈ steps → Due e input s a
  | planned {q : Question} : s.isResolved q = false → e.Pursuing input s →
      Due e input s (.findout q)

theorem Due.fires {a : Action} (h : Due e input s a) (hReset : input.resetAgenda = false)
    (hFires : Fires e input s r t) : Due e input t a := by
  cases h with
  | respond q => exact .respond q
  | greet => exact .greet
  | requested hMem hSteps hStep => exact .requested hMem hSteps hStep
  | planned hOpen hPursuing =>
    have hShared := (same_of_pursues (hPursuing _ _ hFires) hFires).2
    refine .planned ?_ (hPursuing.fires hReset hFires)
    rw [isResolved, hShared]
    exact hOpen

/-- What is to be asked is due, and nothing is to be raised. -/
structure Orderly (e : Engine) (input : TurnInput) (s : InformationState) : Prop where
  plan : ∀ q, .raise q ∉ s.own.plan
  agenda : ∀ a ∈ s.own.agenda, Due e input s a

theorem due_of_copied {a : Action} {rest : List Action} (hReset : input.resetAgenda = false)
    (hMay : (e.context input s).maySelect = true) (hAgenda : s.own.agenda = [])
    (hPlan : s.own.plan = a :: rest) (hRaise : ∀ q, a ≠ .raise q) (hConsult : ∀ q, a ≠ .consult q)
    (hFirst : ∀ r t, Fires e input s r t → rank selectFromPlan ≤ rank r) :
    Due e input { s with own.agenda := [a], version := s.version + 1 } a := by
  cases a with
  | greet => exact .greet
  | respond q => exact .respond q
  | raise q => exact absurd rfl (hRaise q)
  | consult q => exact absurd rfl (hConsult q)
  | findout q =>
    have hPursuing : e.Pursuing input s := by
      intro r t hFires
      exact Nat.le_trans (by decide) (hFirst r t hFires)
    have hOpen : s.isResolved q = false := by
      rw [Bool.eq_false_iff]
      intro hResolved
      exact absurd (hFirst _ _ (.foundOut hPlan hResolved)) (by decide)
    exact .planned hOpen (hPursuing.fires hReset (.copied hMay hAgenda hPlan hConsult))

theorem Orderly.fires (h : Orderly e input s) (hReset : input.resetAgenda = false)
    (hNoRaise : ∀ p ∈ e.domain.plans, ∀ q, .raise q ∉ p.steps) (hAttends : Attends input s)
    (hFires : Fires e input s r t)
    (hFirst : ∀ r' t', Fires e input s r' t' → rank r ≤ rank r') : Orderly e input t := by
  have hDue : ∀ a ∈ s.own.agenda, Due e input t a := by
    intro a hMem
    exact (h.agenda a hMem).fires hReset hFires
  have hRest {a : Action} {rest : List Action} (hAgenda : s.own.agenda = a :: rest) :
      ∀ a ∈ rest, Due e input t a := by
    intro a hMem
    exact hDue a (hAgenda ▸ List.mem_cons_of_mem _ hMem)
  have hTail : ∀ q, .raise q ∉ s.own.plan.tail := by
    intro q hMem
    exact h.plan q (List.mem_of_mem_tail hMem)
  cases hFires with
  | clearAgenda => exact ⟨h.plan, List.forall_mem_nil _⟩
  | latch | sysAsk | answer | greeted | engaged | reprompted | unclear | misformatted |
      acknowledged | downdate => exact ⟨h.plan, hDue⟩
  | request _ hFind =>
    obtain ⟨m, hPending, hSteps⟩ := Context.exists_pending_of_findPending? hFind
    refine ⟨h.plan, fun a hMem => ?_⟩
    rcases List.mem_append.mp hMem with hStep | hOld
    · exact .requested (hAttends.mem_moves hPending) hSteps hStep
    · exact hDue a hOld
  | @usrAsk _ _ q => exact ⟨h.plan, List.forall_mem_cons.mpr ⟨.respond q, hDue⟩⟩
  | fellBack =>
    refine ⟨?_, List.forall_mem_nil _⟩
    dsimp only
    split
    · exact hTail
    · exact h.plan
  | loaded hAgenda _ hIssue =>
    exact ⟨hNoRaise _ (Domain.mem_plans_of_issuePlan? hIssue), hRest hAgenda⟩
  | foundOut hPlan | consulted hPlan =>
    rw [hPlan] at hTail
    exact ⟨hTail, hDue⟩
  -- A step whose question is resolved would have been dropped before.
  | copied hMay hAgenda hPlan hConsult =>
    refine ⟨h.plan, List.forall_mem_singleton.mpr ?_⟩
    refine due_of_copied hReset hMay hAgenda hPlan ?_ hConsult hFirst
    rintro q rfl
    exact h.plan q (hPlan ▸ List.mem_cons_self)
  | asked _ hAgenda =>
    refine ⟨?_, hRest hAgenda⟩
    dsimp only
    split
    · exact hTail
    · exact h.plan
  | tookUp => exact ⟨h.plan, List.forall_mem_singleton.mpr (.respond _)⟩
  | answered _ hAgenda | greets _ hAgenda => exact ⟨h.plan, hRest hAgenda⟩

theorem act_of_mem_askAgain (hMem : m ∈ askAgain s) (hAct : m.act = .ask q) :
    s.shared.qud.head? = some q := by
  obtain ⟨q', hTop, rfl⟩ := List.mem_map.mp hMem
  cases hAct
  exact Option.mem_toList.mp hTop

/-- A question that a firing asks is the one on top, asked again, or it is on the agenda. -/
theorem Fires.asks (h : Fires e input s r t) (hReset : input.resetAgenda = false)
    (hUser : input.speaker = .usr)
    (hClear : input.utterance.isIntelligible e.config.lowConfidence = true)
    (hAttends : Attends input s) (hFirst : ∀ r' t', Fires e input s r' t' → rank r ≤ rank r')
    (hMem : m ∈ t.nextMoves) (hNew : m ∉ s.nextMoves) (hAct : m.act = .ask q) :
    (s.shared.qud.head? = some q ∧ t.shared.qud = s.shared.qud ∧ t.shared.com = s.shared.com ∧
      e.Heeded input t ∧ (r = integratePartialUnderstanding ∨
        r = integrateNoInput ∧ input.utterance.isSilence = true)) ∨
    rank findPlan ≤ rank r ∧ ∃ a ∈ s.own.agenda, a = .findout q ∨ a = .raise q := by
  have hAttends' := hAttends.fires h
  cases h with
  | reprompted hTurn hSilence =>
    obtain ⟨rfl, hMark⟩ := eq_utterance_of_userTurn? hAttends hTurn
    rcases List.mem_append.mp hMem with hOld | hSaid
    · exact absurd hOld hNew
    rcases List.mem_cons.mp hSaid with rfl | hAgain
    · cases hAct
    · refine .inl ⟨act_of_mem_askAgain hAgain hAct, rfl, rfl, ?_, .inr ⟨rfl, hSilence⟩⟩
      exact Counted.heeded (counted_of_consumedSilence hSilence hMark rfl rfl rfl) hReset hAttends'
        hUser
  | unclear hTurn _ hUnclear =>
    obtain ⟨rfl, -⟩ := eq_utterance_of_userTurn? hAttends hTurn
    rw [hClear] at hUnclear
    cases hUnclear
  | misformatted _ hTurn hQud =>
    -- Of what is said after a rejection only the first move asks; the other is the hint.
    rcases List.mem_append.mp hMem with hOld | hSaid
    · exact absurd hOld hNew
    rcases List.mem_cons.mp hSaid with rfl | hHint
    · cases hAct
      exact .inl ⟨by rw [hQud]; rfl, rfl, rfl,
        heeded_of_rejected hReset hFirst rfl rfl rfl rfl consumed_subset_insert rfl, .inl rfl⟩
    · rw [List.mem_singleton.mp hHint] at hAct
      cases hAct
  | asked _ hAgenda hAction =>
    rcases List.mem_append.mp hMem with hOld | hSaid
    · exact absurd hOld hNew
    · rw [List.mem_singleton.mp hSaid] at hAct
      cases hAct
      exact .inr ⟨by decide, _, hAgenda ▸ List.mem_cons_self, hAction⟩
  | fellBack | acknowledged | answered | greets =>
    rcases List.mem_append.mp hMem with hOld | hSaid
    · exact absurd hOld hNew
    · rw [List.mem_singleton.mp hSaid] at hAct
      cases hAct
  | _ => exact absurd hMem hNew

/-- In a cycle from `s` the answer to a question is rejected while the question is resolved. -/
def RejectsResolved (e : Engine) (input : TurnInput) (s : InformationState) (fired : List Rule)
    (q : Question) : Prop :=
  ∃ before after v, fired = before ++ integratePartialUnderstanding :: after ∧
    e.Trace input s.beginTurn before v ∧ v.shared.qud.head? = some q ∧ v.isResolved q = true

theorem Trace.isOpen_of_silence (hRules : e.rules = defaultRules) (hSilent : IsSilent input)
    (hOpen : TopIsOpen s) (h : e.Trace input s.beginTurn rs t)
    (hHit : e.applicable? input t = some (integrateNoInput, deltas)) : TopIsOpen t := by
  obtain ⟨hAttends, hUncounted | ⟨hCounted, -⟩⟩ := h.endured hRules hSilent
  · intro q hTop
    rw [isResolved, hUncounted.com]
    exact hOpen q (hUncounted.qud ▸ hTop)
  · have hRank := hCounted.rank_of_fires hAttends hSilent.1 (fires_of_applicable? hRules hHit)
    exact absurd hRank (by decide)

/-- A question to find out is on the agenda while it is open, or because the user requested it. -/
theorem Due.open_or_requested {a : Action} (h : Due e input s a)
    (hNoRaise : ∀ p ∈ e.domain.plans, ∀ q, .raise q ∉ p.steps)
    (hAsk : a = .findout q ∨ a = .raise q) :
    s.isResolved q = false ∨ ∃ m ∈ input.moves, ∃ steps,
      requestedSteps? e.domain m = some steps ∧ .findout q ∈ steps := by
  cases h with
  | respond | greet => rcases hAsk with hAsk | hAsk <;> cases hAsk
  | planned hOpen =>
    rcases hAsk with hAsk | hAsk
    · cases hAsk
      exact .inl hOpen
    · cases hAsk
  | requested hMem hSteps hStep =>
    rcases hAsk with rfl | rfl
    · exact .inr ⟨_, hMem, _, hSteps, hStep⟩
    · obtain ⟨name, p, hName, rfl⟩ := Domain.exists_actionPlan?_of_requestedSteps? hSteps
      exact absurd hStep (hNoRaise p (Domain.mem_plans_of_actionPlan? hName) q)

section

variable (hRules : e.rules = defaultRules)
include hRules

theorem Trace.orderly (hReset : input.resetAgenda = false)
    (hNoRaise : ∀ p ∈ e.domain.plans, ∀ q, .raise q ∉ p.steps) (hAgenda : s.own.agenda = [])
    (hPlan : ∀ q, .raise q ∉ s.own.plan) (h : e.Trace input s.beginTurn rs t) :
    Orderly e input t := by
  have hStart : Orderly e input s.beginTurn := by
    refine ⟨hPlan, ?_⟩
    rw [beginTurn, hAgenda]
    exact List.forall_mem_nil _
  exact (h.preserves_in_order hRules (fun _ _ _ hAttends hKept hFires hFirst =>
    hKept.fires hReset hNoRaise hAttends hFires hFirst) hStart).2

theorem Trace.isOpen_of_unclear (hIdle : e.Idle s)
    (hUnclear : (TurnInput.user moves).utterance.isIntelligible e.config.lowConfidence = false)
    (h : e.Trace (.user moves) s.beginTurn rs t) (hEnd : e.IsSettled (.user moves) t)
    (hMem : m ∈ t.nextMoves) (hAct : m.act = .ask q) : t.isResolved q = false := by
  have hMumbled : ∃ m ∈ moves, m.isUnclear e.config.lowConfidence = true := by
    rw [Utterance.isIntelligible, Bool.not_eq_false', List.any_eq_true] at hUnclear
    exact hUnclear
  obtain ⟨-, hSame, hSaid⟩ := (NotUnderstood.unclear hMumbled).said_of_trace hRules hIdle h hEnd
  rw [hSaid.nextMoves] at hMem
  rcases List.mem_append.mp hMem with hAgain | hInform
  · rw [isResolved, hSame.com]
    exact hIdle.top q (act_of_mem_askAgain hAgain hAct)
  · rw [List.mem_singleton.mp hInform] at hAct
    cases hAct

theorem Trace.isOpen_of_again (hReset : input.resetAgenda = false) (hHeeded : e.Heeded input s)
    (hTop : s.shared.qud.head? = some q) (hOpen : s.isResolved q = false)
    (h : e.Trace input s rs t) : t.isResolved q = false := by
  have hPursuing : e.Pursuing input s := by
    apply hHeeded.pursuing
    intro q' hTop'
    obtain rfl : q = q' := Option.some.inj (hTop.symm.trans hTop')
    exact hOpen
  rw [hPursuing.isResolved_eq hRules hReset h, hOpen]

/-- A question that is asked is open, unless it is a step of a plan that the user requests, or it is
asked again because an answer is rejected although it was resolved. -/
theorem asked_is_open (hNoRaise : ∀ p ∈ e.domain.plans, ∀ q, .raise q ∉ p.steps)
    (hSettled : ∀ r ∈ [downdateQud, findPlan, removeFindout, execConsult],
      r.effect (e.context (.user moves) s) = none)
    (hAgenda : s.own.agenda = []) (hPlan : ∀ q, .raise q ∉ s.own.plan)
    (hRun : (e.run s (.user moves)).outcome = .ok t) (hMem : m ∈ t.nextMoves)
    (hAct : m.act = .ask q) :
    t.isResolved q = false ∨
      (∃ m ∈ moves, ∃ steps, requestedSteps? e.domain m = some steps ∧ .findout q ∈ steps) ∨
      RejectsResolved e (.user moves) s (e.run s (.user moves)).fired q := by
  obtain ⟨u, hTrace, hEnd, rfl⟩ := exists_trace_of_run hRun
  change u.isResolved q = false ∨ _
  have hIdle := idle_of_effects hSettled
  cases hClear : (TurnInput.user moves).utterance.isIntelligible e.config.lowConfidence with
  | false => exact .inl (hTrace.isOpen_of_unclear hRules hIdle hClear hEnd hMem hAct)
  | true =>
    obtain ⟨before, r, after, v, deltas, hSplit, hBefore, hHit, hAfter, hSaid, hNew⟩ :=
      hTrace.exists_said hMem List.not_mem_nil
    have hFires := fires_of_applicable? hRules hHit
    have hFirst {r' : Rule} {t' : InformationState} (hFires' : Fires e (.user moves) v r' t') :
        rank r ≤ rank r' := rank_le_of_applicable? hRules hHit hFires'
    rcases hFires.asks rfl rfl hClear (hBefore.attends hRules) (fun _ _ => hFirst) hSaid hNew hAct
      with ⟨hTop, hQud, hCom, hHeeded, hAgain⟩ | ⟨hLate, a, hDue, hAsk⟩
    · cases hResolved : v.isResolved q with
      | false =>
        left
        refine hAfter.isOpen_of_again hRules rfl hHeeded (by rw [hQud, hTop]) ?_
        rw [isResolved, hCom]
        exact hResolved
      | true =>
        rcases hAgain with rfl | ⟨rfl, hSilence⟩
        · exact .inr (.inr ⟨before, after, v, hSplit, hBefore, hTop, hResolved⟩)
        · rw [hBefore.isOpen_of_silence hRules ⟨rfl, hSilence⟩ hIdle.top hHit q hTop] at hResolved
          cases hResolved
    · have hOrderly := hBefore.orderly hRules rfl hNoRaise hAgenda hPlan
      rcases (hOrderly.agenda a hDue).open_or_requested hNoRaise hAsk with hOpen | hRequested
      · left
        have hPursuing : e.Pursuing (.user moves) v := by
          intro r' t' hFires'
          exact Nat.le_trans hLate (hFirst hFires')
        exact (hPursuing.isResolved_eq hRules rfl (.fire hHit hAfter) q).trans hOpen
      · exact .inr (.inl hRequested)

end

def saturdayAnswer : List Move :=
  [⟨.answer (.short "saturday"), none⟩]

/-- Saturday is no day for lectures, so the day is asked for again, and it is still open. -/
theorem saturday_leaves_day_open : ∃ t,
    (Console.session.engine.run asksDay (.user saturdayAnswer)).outcome = .ok t ∧
    ⟨.ask ⟨Lecture.bookingDay⟩, none⟩ ∈ t.nextMoves ∧
    (t.isResolved ⟨Lecture.bookingDay⟩ = false ∨
      (∃ m ∈ saturdayAnswer, ∃ steps,
        requestedSteps? Console.session.engine.domain m = some steps ∧
          .findout ⟨Lecture.bookingDay⟩ ∈ steps) ∨
      RejectsResolved Console.session.engine (.user saturdayAnswer) asksDay
        (Console.session.engine.run asksDay (.user saturdayAnswer)).fired
        ⟨Lecture.bookingDay⟩) := by
  have hRun : (Console.session.engine.run asksDay (.user saturdayAnswer)).outcome = .ok _ := rfl
  have hNoRaise : ∀ p ∈ Console.session.engine.domain.plans, ∀ q, .raise q ∉ p.steps := by
    intro p hPlan q hStep
    obtain rfl : p = Lecture.roomPlan := List.mem_singleton.mp hPlan
    simp [Lecture.roomPlan, Plan.issue] at hStep
  have hAsk : ⟨.ask ⟨Lecture.bookingDay⟩, none⟩ ∈
    [(⟨.ask ⟨Lecture.bookingDay⟩, none⟩ : Move), ⟨.inform Lecture.weekdayHint, none⟩] := .head _
  refine ⟨_, rfl, hAsk, ?_⟩
  exact asked_is_open rfl hNoRaise effects_asksDay rfl (by simp [asksDay]) hRun hAsk rfl

/-- A desk that reserves books and asks which. -/
def bookDesk : Domain where
  predicates := .ofList [("book", "title")]
  individuals := .empty
  plans := [.action "reserve" [.findout ⟨"book"⟩]]
  defaults := .empty
  formats := .empty
  faultless := by decide +kernel

def bookDeskEngine : Engine :=
  ⟨defaultRules, bookDesk, .ofRows [], {}, rfl⟩

def bookNamed : InformationState where
  shared := { com := [⟨"book", "Emma"⟩] }

/-- The book is known, but on request the plan is carried out as it is. -/
theorem requested_book_is_asked_for :
    (∀ p ∈ bookDesk.plans, ∀ q, .raise q ∉ p.steps) ∧
    (∀ r ∈ [downdateQud, findPlan, removeFindout, execConsult], r.effect
      (bookDeskEngine.context (.user [⟨.request (some "reserve"), none⟩]) bookNamed) = none) ∧
    bookNamed.own.agenda = [] ∧ bookNamed.own.plan = [] ∧
    ∃ t, (bookDeskEngine.run bookNamed
        (.user [⟨.request (some "reserve"), none⟩])).outcome = .ok t ∧
      ⟨.ask ⟨"book"⟩, none⟩ ∈ t.nextMoves ∧ t.isResolved ⟨"book"⟩ = true := by
  refine ⟨?_, ?_, rfl, rfl, _, rfl, .head _, by decide⟩
  · simp [bookDesk, Plan.action]
  · simp only [List.forall_mem_cons, List.not_mem_nil, false_implies, implies_true, and_true]
    exact ⟨rfl, rfl, rfl, rfl⟩

end Dialogue.Engine
