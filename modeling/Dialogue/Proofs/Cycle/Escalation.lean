import Dialogue.Console
import Dialogue.Proofs.Cycle.Replies
import Dialogue.Proofs.Cycle.SilentTurns

/-! # Escalation

Silence that has lasted is answered for the user: the default for the question on top is assumed and
told. The rest of the cycle works on what that leaves, closing what the default resolves and moving
on in the plan.
-/

namespace Dialogue.Engine

open Update InformationState

variable {e : Engine} {input : TurnInput} {s t u : InformationState} {r : Rule} {q : Question}
  {rs : List Rule} {d : Proposition} {moves : List Move}

/-- Whatever is on the agenda is about to be carried out. -/
def Unblocked (s : InformationState) : Prop :=
  s.own.agenda = [] ∨ ∃ a, s.own.agenda = [a] ∧ s.turn.selected = false ∧ ¬ Blocked s a

theorem Unblocked.of_same (h : Unblocked t) (hAgenda : u.own.agenda = t.own.agenda)
    (hSelected : u.turn.selected = t.turn.selected) (hBel : t.own.bel ⊆ u.own.bel)
    (hCom : u.shared.com = t.shared.com) : Unblocked u := by
  rcases h with hNone | ⟨a, hOne, hOpen, hFree⟩
  · exact .inl (hAgenda.trans hNone)
  · refine .inr ⟨a, hAgenda.trans hOne, hSelected.trans hOpen, fun hBlocked => hFree ?_⟩
    exact hBlocked.of_same hBel hCom

theorem Unblocked.of_cons (h : Unblocked t) {a : Action} {rest : List Action}
    (hAgenda : t.own.agenda = a :: rest) : rest = [] ∧ ¬ Blocked t a := by
  rcases h with hNone | ⟨a', hOne, -, hFree⟩
  · rw [hNone] at hAgenda
    cases hAgenda
  · rw [hOne] at hAgenda
    cases hAgenda
    exact ⟨rfl, hFree⟩

/-- The default `d` for the question `q` has been assumed. -/
structure Escalated (input : TurnInput) (s : InformationState) (q : Question) (d : Proposition)
    (t : InformationState) : Prop where
  counted : Counted input t
  count : t.own.noInputCount = 0
  com : t.shared.com = d :: s.shared.com
  qud : t.shared.qud.dropWhile t.isResolved = s.shared.qud.dropWhile t.isResolved
  plan : t.own.plan <:+ if planAsks s.own.plan q then s.own.plan.tail else s.own.plan
  said : [⟨.answer (.full d), none⟩] <+: t.nextMoves
  agenda : Unblocked t

theorem Escalated.plan_suffix (h : Escalated input s q d t) : t.own.plan <:+ s.own.plan := by
  have hPlan := h.plan
  split at hPlan
  · exact hPlan.trans (List.tail_suffix _)
  · exact hPlan

theorem Escalated.of_pursuit (h : Escalated input s q d t) (hHearing : u.hearing = t.hearing)
    (hCom : u.shared.com = t.shared.com)
    (hQud : u.shared.qud.dropWhile t.isResolved = t.shared.qud.dropWhile t.isResolved)
    (hPlan : u.own.plan <:+ t.own.plan) (hSaid : t.nextMoves <+: u.nextMoves)
    (hAgenda : Unblocked u) : Escalated input s q d u := by
  have hConsumed : u.turn.consumed = t.turn.consumed := congrArg Hearing.consumed hHearing
  have hResolved : u.isResolved = t.isResolved := by
    funext q
    rw [isResolved, isResolved, hCom]
  constructor
  · apply h.counted.of_consumed (congrArg Hearing.latched hHearing) (congrArg Hearing.lu hHearing)
    rw [hConsumed]
    exact List.Subset.refl _
  · exact (congrArg Hearing.noInputCount hHearing).trans h.count
  · exact hCom.trans h.com
  · rw [hResolved]
    exact hQud.trans h.qud
  · exact hPlan.trans h.plan
  · exact h.said.trans hSaid
  · exact hAgenda

theorem planAsks_of_asks {a : Action} {rest : List Action} (h : a = .findout q ∨ a = .raise q) :
    planAsks (a :: rest) q = true := by
  rcases h with rfl | rfl
  · exact beq_self_eq_true q
  · exact beq_self_eq_true q

/-- Silence that has lasted is counted no further when there is a default. -/
theorem Uncounted.escalates (h : Uncounted s t) (hAttends : Attends input t)
    (hSilent : IsSilent input) (hTop : s.shared.qud.head? = some q)
    (hDefault : e.domain.default? q.predicate = some d)
    (hEscalate : e.config.escalation ≤ nextCount s.own.noInputCount) (hFires : Fires e input t r u)
    (hFirst : ∀ r' t', Fires e input t r' t' → rank r ≤ rank r') :
    Uncounted s u ∨ Escalated input s q d u := by
  rcases h.fires hAttends hSilent hFires hFirst with hKept | hCounts
  · exact .inl hKept
  obtain ⟨hCount, hCom, hQud, hPlan, hNone, -⟩ := h
  cases hFires with
  | engaged hTurn hSpoken =>
    rw [isSilence_of_userTurn? hAttends hSilent hTurn] at hSpoken
    cases hSpoken
  | reprompted _ _ _ hFallback =>
    have hNever := hFallback (hCount ▸ hEscalate)
    rw [fallback?_of_top (hQud ▸ hTop), hDefault] at hNever
    cases hNever
  | @fellBack _ q' qs p hTurn _ _ _ hTopped hDefault' =>
    obtain ⟨-, hMark⟩ := eq_utterance_of_userTurn? hAttends hTurn
    rw [← hQud, hTopped] at hTop
    cases hTop
    rw [hDefault] at hDefault'
    cases hDefault'
    right
    constructor
    · exact counted_of_consumedSilence hSilent.2 hMark rfl rfl rfl
    · rfl
    · exact congrArg (d :: ·) hCom
    · rw [← hQud, hTopped, List.dropWhile_cons_of_pos]
      simp [isResolved, Domain.resolves_of_default? hDefault]
    · simp [hPlan]
    · simp [hNone]
    · exact .inl rfl
  | _ => exact absurd hCounts (by decide)

theorem Escalated.fires (h : Escalated input s q d t) (hAttends : Attends input t)
    (hSilent : IsSilent input) (hReset : input.resetAgenda = false)
    (hRespond : ∀ q', Action.respond q' ∉ s.own.plan) (hFires : Fires e input t r u) :
    Escalated input s q d u := by
  have hLate := h.counted.rank_of_fires hAttends hSilent.1 hFires
  have hSame := List.suffix_refl t.own.plan
  have hSaid := List.prefix_refl t.nextMoves
  cases hFires with
  | clearAgenda hRequested =>
    rw [hReset] at hRequested
    cases hRequested
  | downdate hTopped hResolved =>
    refine h.of_pursuit rfl rfl ?_ hSame hSaid (h.agenda.of_same rfl rfl (List.Subset.refl _) rfl)
    rw [hTopped, List.dropWhile_cons_of_pos hResolved]
  -- What is left on the agenda can be carried out, so no plan is loaded for it.
  | loaded hAgenda hNone => exact absurd (.respond hNone) (h.agenda.of_cons hAgenda).2
  | foundOut hPlan =>
    refine h.of_pursuit rfl rfl rfl ?_ hSaid (h.agenda.of_same rfl rfl (List.Subset.refl _) rfl)
    rw [hPlan]
    exact List.suffix_cons _ _
  | consulted hPlan =>
    refine h.of_pursuit rfl rfl rfl ?_ hSaid
      (h.agenda.of_same rfl rfl (List.subset_append_left _ _) rfl)
    rw [hPlan]
    exact List.suffix_cons _ _
  | @copied a rest hMay _ hPlan hConsult =>
    have hMem : a ∈ s.own.plan := h.plan_suffix.subset (hPlan ▸ List.mem_cons_self)
    have hOpen := selected_of_maySelect hMay
    refine h.of_pursuit rfl rfl rfl hSame hSaid (.inr ⟨a, rfl, hOpen, ?_⟩)
    intro hBlocked
    cases hBlocked with
    | respond => exact hRespond _ hMem
    | consult => exact hConsult _ rfl
  | asked _ hAgenda =>
    refine h.of_pursuit rfl rfl rfl ?_ (List.prefix_append _ _) (.inl (h.agenda.of_cons hAgenda).1)
    dsimp only
    split
    · exact List.tail_suffix _
    · exact hSame
  | tookUp hMay _ _ _ hAnswer =>
    have hOpen := selected_of_maySelect hMay
    refine h.of_pursuit rfl rfl rfl hSame hSaid (.inr ⟨_, rfl, hOpen, ?_⟩)
    rintro (hNone | _)
    rw [show answerable? t _ = none from hNone] at hAnswer
    cases hAnswer
  | answered _ hAgenda | greets _ hAgenda =>
    exact h.of_pursuit rfl rfl rfl hSame (List.prefix_append _ _)
      (.inl (h.agenda.of_cons hAgenda).1)
  | _ => exact absurd hLate (by decide)

theorem Trace.escalated (hRules : e.rules = defaultRules) (hSilent : IsSilent input)
    (hReset : input.resetAgenda = false) (hRespond : ∀ q', Action.respond q' ∉ s.own.plan)
    (hTop : s.shared.qud.head? = some q) (hDefault : e.domain.default? q.predicate = some d)
    (hEscalate : e.config.escalation ≤ nextCount s.own.noInputCount)
    (h : e.Trace input s.beginTurn rs t) (hSettled : e.IsSettled input t) :
    Escalated input s q d t := by
  have hStep : ∀ t r u, Attends input t → Uncounted s t ∨ Escalated input s q d t →
      Fires e input t r u → (∀ r' t', Fires e input t r' t' → rank r ≤ rank r') →
      Uncounted s u ∨ Escalated input s q d u := by
    rintro t r u hAttends (hUncounted | hEscalated) hFires hFirst
    · exact hUncounted.escalates hAttends hSilent hTop hDefault hEscalate hFires hFirst
    · exact .inr (hEscalated.fires hAttends hSilent hReset hRespond hFires)
  obtain ⟨hAttends, hUncounted | hEscalated⟩ :=
    h.preserves_in_order hRules hStep (.inl (uncounted_beginTurn s))
  · obtain ⟨r, u, hFires, -⟩ :=
      exists_fires_of_uncounted (e := e) hAttends hSilent hUncounted.consumed
    exact absurd hFires (not_fires_of_isSettled hRules hSettled)
  · exact hEscalated

theorem Escalated.agenda_eq_nil (h : Escalated input s q d t) (hRules : e.rules = defaultRules)
    (hUser : input.speaker = .usr) (hSettled : e.IsSettled input t) : t.own.agenda = [] := by
  rcases h.agenda with hNone | ⟨a, hOne, hOpen, hFree⟩
  · exact hNone
  · have hMay : (e.context input t).maySelect = true := by
      simp [Context.maySelect, hUser, hOpen]
    obtain ⟨r, u, hFires⟩ := exists_fires_of_not_blocked (e := e) hMay hOne hFree
    exact absurd hFires (not_fires_of_isSettled hRules hSettled)

theorem dropWhile_isResolved (hOpen : TopIsOpen s) :
    s.shared.qud.dropWhile s.isResolved = s.shared.qud := by
  cases hQud : s.shared.qud with
  | nil => rfl
  | cons q qs =>
    apply List.dropWhile_cons_of_neg
    rw [hOpen q (by rw [hQud]; rfl)]
    exact Bool.false_ne_true

/-- When silence has lasted, the default for an open question is committed to and told, and nothing
else is. The cycle goes on with the questions that the default leaves open and with the plan, past a
step that asks the question itself. -/
theorem default_fills_open_question (hRules : e.rules = defaultRules)
    (hSettled : ∀ r ∈ [downdateQud, findPlan, removeFindout, execConsult],
      r.effect (e.context (.user moves) s) = none)
    (hRespond : ∀ q', Action.respond q' ∉ s.own.plan) (hTop : s.shared.qud.head? = some q)
    (hDefault : e.domain.default? q.predicate = some d) (hMoves : moves ≠ [])
    (hSilent : ∀ m ∈ moves, m.isNoInput = true)
    (hEscalate : e.config.escalation ≤ nextCount s.own.noInputCount)
    (hRun : (e.run s (.user moves)).outcome = .ok t) :
    (∀ p ∈ s.shared.com, p.predicate ≠ q.predicate) ∧ t.shared.com = d :: s.shared.com ∧
      (∃ rest, t.nextMoves = ⟨.answer (.full d), none⟩ :: rest) ∧ t.own.agenda = [] ∧
      t.own.noInputCount = 0 ∧ t.shared.qud = s.shared.qud.dropWhile t.isResolved ∧
      t.own.plan <:+ s.own.plan ∧
      ∀ a rest, s.own.plan = a :: rest → a = .findout q ∨ a = .raise q → t.own.plan <:+ rest := by
  obtain ⟨rs, t, hTrace, hEnd, -, rfl⟩ := run_outcome_eq_ok_iff.mp hRun
  have hEscalated := hTrace.escalated hRules (isSilent_of_noInput rfl hMoves hSilent) rfl hRespond
    hTop hDefault hEscalate hEnd
  refine ⟨?_, hEscalated.com, ?_, ?_, hEscalated.count, ?_, hEscalated.plan_suffix, ?_⟩
  · intro p hMem hPredicate
    have hOpen : s.isResolved q = false := (idle_of_effects hSettled).top q hTop
    rw [isResolved, List.any_eq_false] at hOpen
    exact hOpen p hMem (Proposition.resolves_iff.mpr hPredicate)
  · obtain ⟨rest, hSaid⟩ := hEscalated.said
    exact ⟨rest, hSaid.symm⟩
  · exact hEscalated.agenda_eq_nil hRules rfl hEnd
  · have hQud := hEscalated.qud
    rw [dropWhile_isResolved (idle_of_isSettled hRules hEnd).top] at hQud
    exact hQud
  · intro a rest hPlan hAsks
    have hPast := hEscalated.plan
    rw [hPlan, planAsks_of_asks hAsks] at hPast
    exact hPast

/-- The room was asked for, and the day has been asked for three times. -/
def awaitsDay : InformationState where
  own :=
    { plan := [.findout ⟨Lecture.bookingDay⟩, .findout ⟨Lecture.bookingCourse⟩,
        .consult ⟨Lecture.bookingRoom⟩]
      noInputCount := 2 }
  shared := { qud := [⟨Lecture.bookingDay⟩, ⟨Lecture.bookingDay⟩, ⟨Lecture.bookingRoom⟩] }

/-- Friday is assumed and the course is asked for. -/
theorem silence_assumes_friday : ∃ t,
    (Console.session.engine.run awaitsDay (.user [⟨.noInput, none⟩])).outcome = .ok t ∧
    t.nextMoves = [⟨.answer (.full ⟨Lecture.bookingDay, "friday"⟩), none⟩,
      ⟨.ask ⟨Lecture.bookingCourse⟩, none⟩] ∧
    t.shared.com = [⟨Lecture.bookingDay, "friday"⟩] ∧
    t.shared.qud = awaitsDay.shared.qud.dropWhile t.isResolved ∧
    t.own.plan <:+ [.findout ⟨Lecture.bookingCourse⟩, .consult ⟨Lecture.bookingRoom⟩] := by
  refine ⟨_, rfl, rfl, ?_⟩
  have hSettled : ∀ r ∈ [downdateQud, findPlan, removeFindout, execConsult],
      r.effect (Console.session.engine.context (.user [⟨.noInput, none⟩]) awaitsDay) = none := by
    simp only [List.forall_mem_cons, List.not_mem_nil, false_implies, implies_true, and_true]
    exact ⟨rfl, rfl, rfl, rfl⟩
  have hRun : (Console.session.engine.run awaitsDay
    (.user [⟨.noInput, none⟩])).outcome = .ok _ := rfl
  obtain ⟨-, hCom, -, -, -, hQud, -, hPlan⟩ := default_fills_open_question
    (q := ⟨Lecture.bookingDay⟩) (d := ⟨Lecture.bookingDay, "friday"⟩) rfl hSettled
    (by simp [awaitsDay]) rfl rfl (List.cons_ne_nil _ _) (by simp [Move.isNoInput]) (by decide) hRun
  exact ⟨hCom, hQud, hPlan _ _ rfl (.inl rfl)⟩

end Dialogue.Engine
