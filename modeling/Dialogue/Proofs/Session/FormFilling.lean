import Dialogue.Console
import Dialogue.Proofs.Session.Turns
import Dialogue.Proofs.Update.Form

/-! # Forms are filled in

However many slots a form has, and however often the user is misheard on the way, each answer leads
to the next question and the last one to the answer that the form is for. Every misheard turn asks
for the open slot once more, and the answer to it closes all these questions within one cycle.
-/

namespace Dialogue.Session

open Update Engine

variable {s : Session} {e : Engine} {goal q : Question} {slots : List Question}
  {bel com : List Proposition} {p : Proposition} {m : Move}

/-- A turn of the user's while a slot is open. -/
inductive FormTurn where
  | misheard (m : Move)
  | answer (m : Move) (a : Answer)

namespace FormTurn

def move : FormTurn → Move
  | misheard m | answer m _ => m

def isMisheard : FormTurn → Bool
  | misheard _ => true
  | answer _ _ => false

end FormTurn

/-- The user's turns from a state of the session on: answers to the slots in order, and while a slot
is open any misheard turns. -/
def Fills (s : Session) : List Question → List FormTurn → Prop
  | [], [] => True
  | q :: slots, .misheard m :: turns =>
    s.engine.Misheard s.state.own.noInputCount q m ∧ Fills (s.hear [m]).2 (q :: slots) turns
  | q :: slots, .answer m a :: turns =>
    m.isUnclear s.engine.config.lowConfidence = false ∧ m.answered? = some a ∧
      s.engine.domain.relevant a q = true ∧ s.engine.domain.accepts (q.combine a) = true ∧
      Fills (s.hear [m]).2 slots turns
  | _, _ => False

/-- The facts that the turns state, latest first, on top of those stated before. -/
def stated (com : List Proposition) : List Question → List FormTurn → List Proposition
  | q :: slots, .misheard _ :: turns => stated com (q :: slots) turns
  | q :: slots, .answer _ a :: turns => stated (q.combine a :: com) slots turns
  | _, _ => com

/-- The reply is the move, acknowledgements aside. -/
def Says (reply : Reply) (m : Move) : Prop :=
  ∃ moves, reply = .ok moves ∧ moves.filter (!·.isAcknowledge) = [m]

/-- Every call returns, each answer is replied to with the next move, and in the end nothing is left
to discuss or to do. -/
def Completes (p : Proposition) (com : List Proposition) (s : Session) :
    List Question → List FormTurn → Prop
  | q :: slots, .misheard m :: turns =>
    (∃ moves, (s.hear [m]).1 = .ok moves) ∧ Completes p com (s.hear [m]).2 (q :: slots) turns
  | _ :: slots, .answer m _ :: turns =>
    Says (s.hear [m]).1 (nextMove slots p) ∧ Completes p com (s.hear [m]).2 slots turns
  | _, _ => s.state.own.agenda = [] ∧ s.state.own.plan = [] ∧ s.state.shared.qud = [] ∧
      s.state.shared.com = p :: com

theorem filter_acks {acks : List Move} (hAcks : acks.all Move.isAcknowledge = true) :
    (acks ++ [nextMove slots p]).filter (!·.isAcknowledge) = [nextMove slots p] := by
  have hNone : acks.filter (!·.isAcknowledge) = [] := by
    rw [List.filter_eq_nil_iff]
    intro m hMem
    simp [List.all_eq_true.mp hAcks m hMem]
  rw [List.filter_append, hNone]
  cases slots <;> rfl

theorem resumes_of_sameUpToVersion {t u : InformationState} {k : Nat}
    (h : Resumes goal slots bel com p k t) (hSame : SameUpToVersion t u) :
    Resumes goal slots bel com p k u := by
  obtain ⟨version, rfl⟩ := hSame
  cases slots with
  | nil => exact h
  | cons q slots => exact ⟨h.agenda, h.plan, h.bel, h.com, h.qud, h.turn⟩

theorem exists_hear_misheard {qud : List Question} (hRules : s.engine.rules = defaultRules)
    (hForm : IsOpenForm goal (q :: slots) bel com)
    (hAt : AtForm goal (q :: slots) bel com (q :: qud) s.state)
    (hMisheard : s.engine.Misheard s.state.own.noInputCount q m)
    (hCeiling : 4 ≤ s.engine.config.maxFirings.toNat) :
    ∃ moves s', s.hear [m] = (.ok moves, s') ∧ s'.engine = s.engine ∧
      AtForm goal (q :: slots) bel com (q :: q :: qud) s'.state := by
  obtain ⟨n, hn, before, after, t, hBefore, hAfter, hSettles, hMoves, hAt'⟩ :=
    exists_settles_misheard hRules hForm hAt hMisheard
  obtain ⟨u, hEcho, hAt''⟩ := exists_settles_echoAsk hRules hForm hAt'
    (fun x hMem => (hBefore x hMem).mute fun _ => True) (fun x hMem => (hAfter x hMem).mute _)
    trivial
  obtain ⟨s', hHear, hEngine, hSame⟩ := converse_of_settles hRules hSettles (by omega)
    (by simp [hMoves]) (hMoves ▸ hEcho) (by omega)
  exact ⟨t.nextMoves, s', hHear, hEngine, hAt''.of_sameUpToVersion hSame⟩

theorem exists_hear_answer {k : Nat} (hRules : s.engine.rules = defaultRules)
    (hForm : IsOpenForm goal (q :: slots) bel com)
    (hAt : AtForm goal (q :: slots) bel com (List.replicate (k + 1) q ++ [goal]) s.state)
    (hClear : m.isUnclear s.engine.config.lowConfidence = false) {a : Answer}
    (hAnswered : m.answered? = some a) (hRelevant : s.engine.domain.relevant a q = true)
    (hAccepts : s.engine.domain.accepts (q.combine a) = true)
    (hConsult : slots = [] → s.engine.database.consult goal (q.combine a :: com) = some p ∧
      p.predicate = goal.predicate)
    (hCeiling : k + 9 ≤ s.engine.config.maxFirings.toNat) :
    ∃ reply s', s.hear [m] = (reply, s') ∧ Says reply (nextMove slots p) ∧ s'.engine = s.engine ∧
      Resumes goal slots bel (q.combine a :: com) p 0 s'.state := by
  obtain ⟨n, hn, acks, t, hAcks, hSettles, hMoves, hSpoke⟩ := exists_settles_answer (p := p) hRules
    hForm hAt hClear hAnswered hRelevant hAccepts hConsult
  obtain ⟨n', hn', u, hEcho, hResumes⟩ := exists_settles_echoNext (p := p) hRules (hForm.fill a)
    hSpoke (fun h => (hConsult h).2)
    fun x hMem => isRemark_of_isAcknowledge (List.all_eq_true.mp hAcks x hMem)
  obtain ⟨s', hHear, hEngine, hSame⟩ := converse_of_settles hRules hSettles (by omega)
    (by simp [hMoves]) (hMoves ▸ hEcho) (by omega)
  exact ⟨_, s', hHear, ⟨t.nextMoves, rfl, by rw [hMoves, filter_acks hAcks]⟩, hEngine,
    resumes_of_sameUpToVersion hResumes hSame⟩

/-- From an open slot, already asked for `k + 1` times, the form is completed. -/
theorem completes_of_fills {turns : List FormTurn} {k : Nat} {com' : List Proposition}
    (hRules : s.engine.rules = defaultRules) (hForm : IsOpenForm goal slots bel com)
    (hAt : Resumes goal slots bel com p k s.state)
    (hFills : s.Fills slots turns) (hStated : stated com slots turns = com')
    (hConsult : s.engine.database.consult goal com' = some p)
    (hAnswer : p.predicate = goal.predicate)
    (hCeiling : k + turns.countP (·.isMisheard) + 9 ≤ s.engine.config.maxFirings.toNat) :
    s.Completes p com' slots turns := by
  -- A misheard turn adds a copy of the question, and an answer closes all of them: `k` counts the
  -- copies beyond the first, and the ceiling has to allow for closing them.
  induction turns generalizing s slots com k with
  | nil =>
    cases slots with
    | nil =>
      cases hStated
      exact hAt
    | cons q slots => cases hFills
  | cons turn turns ih =>
    cases slots with
    | nil => cases hFills
    | cons q slots =>
      cases turn with
      | misheard m =>
        obtain ⟨hMisheard, hFills⟩ := hFills
        rw [List.countP_cons_of_pos (by rfl)] at hCeiling
        obtain ⟨moves, s', hHear, hEngine, hAt'⟩ := exists_hear_misheard hRules hForm hAt hMisheard
          (by omega)
        rw [hHear] at hFills
        refine ⟨⟨moves, by rw [hHear]⟩, ?_⟩
        rw [hHear]
        exact ih (k := k + 1) (hEngine ▸ hRules) hForm hAt' hFills hStated (hEngine ▸ hConsult)
          (by rw [hEngine]; omega)
      | answer m a =>
        obtain ⟨hClear, hAnswered, hRelevant, hAccepts, hFills⟩ := hFills
        rw [List.countP_cons_of_neg (by simp [FormTurn.isMisheard])] at hCeiling
        have hConsult' : slots = [] → s.engine.database.consult goal (q.combine a :: com) = some p ∧
            p.predicate = goal.predicate := by
          rintro rfl
          cases turns with
          | nil => exact ⟨by rw [← hConsult, ← hStated]; rfl, hAnswer⟩
          | cons turn turns => cases hFills
        obtain ⟨reply, s', hHear, hSays, hEngine, hResumes⟩ := exists_hear_answer hRules hForm hAt
          hClear hAnswered hRelevant hAccepts hConsult' (by omega)
        rw [hHear] at hFills
        refine ⟨by rw [hHear]; exact hSays, ?_⟩
        rw [hHear]
        exact ih (k := 0) (hEngine ▸ hRules) (hForm.fill a) hResumes hFills hStated
          (hEngine ▸ hConsult) (by rw [hEngine]; omega)

/-- The session that starts from these beliefs, once the user has asked the question of the form. -/
def asked (e : Engine) (beliefs : List Proposition) (goal : Question) : Reply × Session :=
  (ofEngine e (.withBeliefs .initial beliefs)).start.2.hear [⟨.ask goal, none⟩]

theorem isUnclear_of_certain (e : Engine) (act : Act) :
    Move.isUnclear e.config.lowConfidence ⟨act, none⟩ = false := by
  obtain ⟨hUnit, _⟩ := Config.fault?_eq_none_iff.mp e.valid
  rw [isUnit, Bool.and_eq_true] at hUnit
  have hCertain : e.config.lowConfidence ≤ Move.certainty ⟨act, none⟩ := of_decide_eq_true hUnit.2
  rw [Move.isUnclear, decide_eq_true hCertain, Bool.not_true, Bool.and_false]

theorem form_completes (hRules : e.rules = defaultRules) {plan : Plan}
    (hPlan : e.domain.issuePlan? goal = some plan)
    (hSteps : plan.steps = slots.map .findout ++ [.consult goal])
    (hDistinct : ((goal :: slots).map (·.predicate)).Nodup) {beliefs : List Proposition}
    (hBeliefs : ∀ b ∈ beliefs, b.predicate ≠ goal.predicate) {turns : List FormTurn}
    (hFills : (asked e beliefs goal).2.Fills slots turns)
    (hConsult : e.database.consult goal (stated [] slots turns) = some p)
    (hAnswer : p.predicate = goal.predicate)
    (hCeiling : turns.countP (·.isMisheard) + 12 ≤ e.config.maxFirings.toNat) :
    (∃ moves, (ofEngine e (.withBeliefs .initial beliefs)).start.1 = .ok moves) ∧
      Says (asked e beliefs goal).1 (nextMove slots p) ∧
      (asked e beliefs goal).2.Completes p (stated [] slots turns) slots turns := by
  have hForm : IsOpenForm goal slots beliefs [] := ⟨hDistinct, by simp, hBeliefs⟩
  have hConsult' : slots = [] → e.database.consult goal [] = some p ∧
      p.predicate = goal.predicate := by
    rintro rfl
    cases turns with
    | nil => exact ⟨hConsult, hAnswer⟩
    | cons turn turns => cases hFills
  -- The greeting and its echo come first, and then the question and the first move of the form.
  obtain ⟨t, hOpening, hMoves, hAt⟩ := settles_opening hRules beliefs
  obtain ⟨u, hEcho, hAt'⟩ := exists_settles_echoGreet hRules hAt
  obtain ⟨s₁, hStart, hEngine, hSame⟩ :=
    converse_of_settles (s := ofEngine e (.withBeliefs .initial beliefs)) hRules hOpening
      (show 1 ≤ e.config.maxFirings.toNat by omega) (by simp [hMoves]) (hMoves ▸ hEcho)
      (show 2 ≤ e.config.maxFirings.toNat by omega)
  have hRules₁ : s₁.engine.rules = defaultRules := by
    rw [hEngine]
    exact hRules
  obtain ⟨n, hn, v, hAsk, hMoves', hSpoke⟩ := exists_settles_askGoal (e := s₁.engine) (p := p)
    (m := ⟨.ask goal, none⟩) hRules₁ hForm (hAt'.of_sameUpToVersion hSame)
    (by rw [hEngine]; exact hPlan) hSteps (isUnclear_of_certain _ _) rfl
    (by rw [hEngine]; exact hConsult')
  have hNoAcks : ∀ m ∈ ([] : List Move), IsRemark m := by simp
  obtain ⟨n', hn', w, hEcho', hResumes⟩ := exists_settles_echoNext (e := s₁.engine) hRules₁ hForm
    hSpoke (fun h => (hConsult' h).2) hNoAcks
  have hCeiling₁ : turns.countP (·.isMisheard) + 12 ≤ s₁.engine.config.maxFirings.toNat := by
    rw [hEngine]
    exact hCeiling
  obtain ⟨s₂, hHear, hEngine₂, hSame₂⟩ := converse_of_settles hRules₁ hAsk (by omega)
    (by simp [hMoves']) (hMoves' ▸ hEcho') (by omega)
  have hAsked : asked e beliefs goal = (.ok v.nextMoves, s₂) := by
    rw [asked, start, hStart, hear, hHear]
  refine ⟨⟨t.nextMoves, by rw [start, hStart]⟩, ?_, ?_⟩
  · rw [hAsked, hMoves']
    exact ⟨_, rfl, filter_acks (List.all_nil)⟩
  · rw [hAsked] at hFills ⊢
    refine completes_of_fills (hEngine₂ ▸ hRules₁) hForm
      (resumes_of_sameUpToVersion hResumes hSame₂) hFills rfl ?_ hAnswer ?_
    · rw [hEngine₂, hEngine]
      exact hConsult
    · rw [hEngine₂]
      omega

/-- A day without lectures, a day with, and the course. -/
def bookingTurns : List FormTurn :=
  [.misheard ⟨.answer (.short "saturday"), none⟩,
   .answer ⟨.answer (.short "friday"), none⟩ (.short "friday"),
   .answer ⟨.answer (.short Lecture.course), none⟩ (.short Lecture.course)]

theorem booking_completes :
    (asked Console.session.engine [⟨Lecture.favoriteFood, "pizza"⟩]
      ⟨Lecture.bookingRoom⟩).2.Completes ⟨Lecture.bookingRoom, "G212"⟩
      [⟨Lecture.bookingCourse, Lecture.course⟩, ⟨Lecture.bookingDay, "friday"⟩]
      [⟨Lecture.bookingDay⟩, ⟨Lecture.bookingCourse⟩] bookingTurns := by
  have hFills : (asked Console.session.engine [⟨Lecture.favoriteFood, "pizza"⟩]
      ⟨Lecture.bookingRoom⟩).2.Fills [⟨Lecture.bookingDay⟩, ⟨Lecture.bookingCourse⟩]
      bookingTurns := by
    refine ⟨.misformatted (a := .short "saturday") ?_ rfl ?_ ?_, ?_, rfl, ?_, ?_, ?_, rfl, ?_, ?_,
      trivial⟩
    all_goals decide +kernel
  exact (form_completes (e := Console.session.engine) rfl rfl rfl (by decide) (by decide) hFills rfl
    rfl (by decide)).2.2
end Dialogue.Session
