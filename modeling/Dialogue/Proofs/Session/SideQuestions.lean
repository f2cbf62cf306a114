import Dialogue.Console
import Dialogue.Proofs.Session.Ending
import Dialogue.Proofs.Update.Form

/-! # Side questions

A question that a belief answers may be asked at any point of a dialogue. It comes on top of what is
under discussion, it is answered in the same turn, and it is closed once the system has heard itself
answer. No plan is loaded for it, so the dialogue goes on where it was.
-/

namespace Dialogue

open Update Engine

/-- The belief `b` answers the question `f`, which is open, and which is neither the one under
discussion nor the one the plan is at. -/
structure IsAside (f : Question) (b : Proposition) (s : InformationState) : Prop where
  unsaid : ∀ c ∈ s.shared.com, c.predicate ≠ f.predicate
  belief : s.own.bel.find? (fun p => p.resolves f && !s.shared.com.contains p) = some b
  top : s.shared.qud.head? ≠ some f
  plan : ∀ a rest, s.own.plan = a :: rest →
    ∃ q, (a = .findout q ∨ a = .raise q) ∧ q.predicate ≠ f.predicate

variable {e : Engine} {s : InformationState} {f q : Question} {b : Proposition} {m : Move}

namespace IsAside

theorem resolves (h : IsAside f b s) : b.resolves f = true := by
  have hFound := List.find?_some h.belief
  rw [Bool.and_eq_true] at hFound
  exact hFound.1

theorem answerable (h : IsAside f b s) : answerable? s f = some b := by
  rw [answerable?, InformationState.unsharedBeliefs, List.find?_filter, ← h.belief]
  simp only [Bool.decide_and, Bool.decide_eq_true, Bool.and_comm]

theorem any_resolves (h : IsAside f b s) (hOther : q.predicate ≠ f.predicate) :
    (b :: s.shared.com).any (·.resolves q) = s.isResolved q := by
  have hMiss : b.resolves q = false := by
    rw [Bool.eq_false_iff, ne_eq, Proposition.resolves_iff, Proposition.resolves_iff.mp h.resolves]
    exact hOther.symm
  rw [List.any_cons, hMiss, Bool.false_or]
  rfl

theorem isResolved_eq_false (h : IsAside f b s) : s.isResolved f = false :=
  Engine.isResolved_eq_false h.unsaid

theorem noLoad (h : IsAside f b s) :
    e.NoLoad { s with own.agenda := .respond f :: s.own.agenda } := by
  intro q rest hAgenda hNone
  cases hAgenda
  have hAnswer : answerable? s f = some b := h.answerable
  rw [show answerable? s f = none from hNone] at hAnswer
  cases hAnswer

theorem idle_answered (h : IsAside f b s) (hIdle : e.Idle s) (hAgenda : s.own.agenda = []) :
    e.Idle { s with shared.com := b :: s.shared.com } := by
  constructor
  · intro q hTop
    have hOther : q.predicate ≠ f.predicate := by
      intro hSame
      apply h.top
      rw [show f = q from congrArg Question.mk hSame.symm]
      exact hTop
    exact (h.any_resolves hOther).trans (hIdle.top q hTop)
  · exact noLoad_of_nil hAgenda
  · intro q rest hPlan
    obtain ⟨q', hStep, hOther⟩ := h.plan _ rest hPlan
    have hSame : q' = q := by rcases hStep with hStep | hStep <;> cases hStep; rfl
    exact (h.any_resolves (hSame ▸ hOther)).trans (hIdle.findout q rest hPlan)
  · intro q rest hPlan
    obtain ⟨q', hStep, -⟩ := h.plan _ rest hPlan
    rcases hStep with hStep | hStep <;> cases hStep

section

variable (hRules : e.rules = defaultRules) (h : IsAside f b s) (hIdle : e.Idle s)
include hRules h hIdle

theorem settles_asked (hClear : m.isUnclear e.config.lowConfidence = false)
    (hAsked : m.asked? = some f) :
    e.Settles (.user [m]) (3 + engagement s) s { s with
      own.noInputCount := 0
      shared := { s.shared with lu := some ⟨.usr, [m]⟩, qud := f :: s.shared.qud }
      nextMoves := [⟨.answer (.full b), none⟩]
      turn := {} } := by
  obtain ⟨t, hLeads, hQuiet, hState⟩ :=
    leads_hearsAsk (s := s.beginTurn) hRules rfl hClear hAsked
  have hPushed := hIdle.push h.isResolved_eq_false
  have hHears : e.Reaches (.user [m]) (fun _ => True) (2 + engagement s) s t :=
    ⟨hLeads, hQuiet, fun _ _ => trivial⟩
  rw [hState] at hHears
  -- With the question on the agenda the state is idle but for that: it is answered, not loaded.
  have hAnswers := leads_answered hRules hHears.quiet hHears.top
    ⟨hPushed.top, h.noLoad, hPushed.findout, hPushed.consult⟩ rfl rfl h.answerable
  have hReplies := hHears.then hRules hAnswers rfl hHears.top
  rw [show 3 + engagement s = 2 + engagement s + 1 by omega]
  exact hReplies.settles hRules (hPushed.of_same rfl rfl rfl rfl rfl) (.inl rfl)

theorem settles_echoed (hAgenda : s.own.agenda = []) :
    e.Settles (.echo [⟨.answer (.full b), none⟩]) 3 { s with shared.qud := f :: s.shared.qud }
      { s with
        shared := { s.shared with
          lu := some ⟨.sys, [⟨.answer (.full b), none⟩]⟩, com := b :: s.shared.com }
        nextMoves := []
        turn := {} } := by
  have hBefore : ∀ x ∈ ([] : List Move), e.Mute (fun _ => True) x := List.forall_mem_nil _
  obtain ⟨t, hLeads, hQuiet, hState⟩ := exists_leads_echoAnswer
    (s := { s.beginTurn with shared.qud := f :: s.shared.qud }) hRules rfl hBefore rfl trivial
    h.resolves
  have hHears : e.Reaches (.echo [⟨.answer (.full b), none⟩]) (fun _ => True) 2
      { s with shared.qud := f :: s.shared.qud } t := ⟨hLeads, hQuiet, fun _ _ => trivial⟩
  rw [hState] at hHears
  have hCloses := leads_downdate hRules hHears.quiet hHears.top rfl
    (Bool.or_eq_true_iff.mpr (.inl h.resolves))
  have hIdle' := h.idle_answered hIdle hAgenda
  exact (hHears.then hRules hCloses rfl fun _ _ => trivial).settles hRules
    (hIdle'.of_same rfl rfl rfl rfl rfl) (.inl rfl)

end

end IsAside

namespace Session

/-- A side question is answered from the beliefs and leaves the dialogue where it was. What is new
is the answer among the commitments. -/
theorem side_question_returns {s : Session} (hRules : s.engine.rules = defaultRules)
    (hSettled : ∀ r ∈ [downdateQud, findPlan, removeFindout, execConsult],
      r.effect (s.engine.context (.user [m]) s.state) = none)
    (hAgenda : s.state.own.agenda = []) (hAside : IsAside f b s.state)
    (hClear : m.isUnclear s.engine.config.lowConfidence = false) (hAsked : m.asked? = some f) :
    ((s.hear [m]).1.isOk = true ↔
      3 + engagement s.state ≤ s.engine.config.maxFirings.toNat) ∧
    ∀ reply s', s.hear [m] = (.ok reply, s') →
      reply = [⟨.answer (.full b), none⟩] ∧
      s'.state.own = { s.state.own with noInputCount := 0 } ∧
      s'.state.shared = {
        lu := some ⟨.sys, reply⟩
        qud := s.state.shared.qud
        com := b :: s.state.shared.com } := by
  have hIdle := idle_of_effects hSettled
  have hAsks := hAside.settles_asked hRules hIdle hClear hAsked
  have hEcho := IsAside.settles_echoed (s := { s.state with
      own.noInputCount := 0
      shared.lu := some ⟨.usr, [m]⟩
      nextMoves := [⟨.answer (.full b), none⟩]
      turn := {} }) hRules ⟨hAside.unsaid, hAside.belief, hAside.top, hAside.plan⟩
    (hIdle.of_same rfl rfl rfl rfl rfl) hAgenda
  have hReply : [⟨.answer (.full b), none⟩] ≠ ([] : List Move) := List.cons_ne_nil _ _
  have hReturns := isOk_converse_iff hRules (.replying hAsks hReply hEcho)
  constructor
  · rw [hear, hReturns]
    omega
  · intro reply s' hHear
    have hOk : (s.hear [m]).1.isOk = true := by rw [hHear]; rfl
    obtain ⟨hFirst, hSecond⟩ := hReturns.mp hOk
    obtain ⟨s'', hCall, -, version, hState⟩ :=
      converse_of_settles hRules hAsks hFirst hReply hEcho hSecond
    rw [hear, hCall] at hHear
    cases hHear
    rw [hState]
    exact ⟨rfl, rfl, rfl⟩

/-- The room was asked for, and the day has been asked for twice. -/
def roomDiscussed : Session := { Console.session with
  state := {
    own := {
      plan := [.findout ⟨Lecture.bookingDay⟩, .findout ⟨Lecture.bookingCourse⟩,
        .consult ⟨Lecture.bookingRoom⟩]
      bel := [⟨Lecture.favoriteFood, "pizza"⟩]
      noInputCount := 1 }
    shared := { qud := [⟨Lecture.bookingDay⟩, ⟨Lecture.bookingDay⟩, ⟨Lecture.bookingRoom⟩] } } }

/-- The food is told, and the day is still under discussion. -/
theorem food_is_told_aside :
    ∃ s', roomDiscussed.hear [⟨.ask ⟨Lecture.favoriteFood⟩, none⟩] =
        (.ok [⟨.answer (.full ⟨Lecture.favoriteFood, "pizza"⟩), none⟩], s') ∧
      s'.state.own = { roomDiscussed.state.own with noInputCount := 0 } ∧
      s'.state.shared.qud = roomDiscussed.state.shared.qud ∧
      s'.state.shared.com = [⟨Lecture.favoriteFood, "pizza"⟩] := by
  have hSettled : ∀ r ∈ [downdateQud, findPlan, removeFindout, execConsult],
      r.effect (roomDiscussed.engine.context (.user [⟨.ask ⟨Lecture.favoriteFood⟩, none⟩])
        roomDiscussed.state) = none := by
    simp only [List.forall_mem_cons, List.not_mem_nil, false_implies, implies_true, and_true]
    exact ⟨rfl, rfl, rfl, rfl⟩
  have hAside : IsAside ⟨Lecture.favoriteFood⟩ ⟨Lecture.favoriteFood, "pizza"⟩
      roomDiscussed.state := by
    constructor
    · simp [roomDiscussed]
    · rfl
    · decide
    · rintro a rest hPlan
      cases hPlan
      exact ⟨_, .inl rfl, by decide⟩
  obtain ⟨-, hReturns⟩ := side_question_returns (s := roomDiscussed) rfl hSettled rfl hAside rfl rfl
  obtain ⟨-, hOwn, hShared⟩ := hReturns _ _ rfl
  exact ⟨_, rfl, hOwn, by rw [hShared], by rw [hShared]; rfl⟩

end Session

end Dialogue
