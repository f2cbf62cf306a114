import Dialogue.Proofs.Update.Echo
import Dialogue.Proofs.Update.Hearing

/-! # Cycles while a form is filled in

A form is a question whose plan finds out the answers to other questions, its slots, and then looks
the answer up. Between cycles the first open slot is under discussion, once for each time it was
asked, above the question the form is for.
-/

namespace Dialogue.Engine

open Update

variable {e : Engine} {input : TurnInput} {s t : InformationState} {m : Move}
  {goal q : Question} {slots : List Question} {bel com : List Proposition} {p : Proposition}

theorem exists_format_of_accepts {d : Domain} {a : Answer}
    (h : d.accepts (q.combine a) = false) :
    ∃ f, d.formats.get? q.predicate = some f ∧ f.accepts (q.combine a).argument = false := by
  rw [Domain.accepts, show (q.combine a).predicate = q.predicate from rfl] at h
  split at h
  · next f hFormat => exact ⟨f, hFormat, h⟩
  · cases h

/-- The steps of the plan of a form. -/
def formSteps (goal : Question) (slots : List Question) : List Action :=
  slots.map .findout ++ [.consult goal]

/-- Nothing said settles an open slot or the goal, and nothing believed settles the goal. -/
structure IsOpenForm (goal : Question) (slots : List Question) (bel com : List Proposition) :
    Prop where
  distinct : ((goal :: slots).map (·.predicate)).Nodup
  unsaid : ∀ p ∈ com, p.predicate ∉ (goal :: slots).map (·.predicate)
  unknown : ∀ p ∈ bel, p.predicate ≠ goal.predicate

theorem IsOpenForm.goal_unsaid (h : IsOpenForm goal slots bel com) :
    ∀ p ∈ com, p.predicate ≠ goal.predicate :=
  fun p hMem hEq => h.unsaid p hMem (by rw [hEq]; exact List.mem_cons_self)

theorem IsOpenForm.slot_unsaid (h : IsOpenForm goal slots bel com) (hSlot : q ∈ slots) :
    ∀ p ∈ com, p.predicate ≠ q.predicate := by
  intro p hMem hEq
  refine h.unsaid p hMem ?_
  rw [hEq]
  exact List.mem_map_of_mem (List.mem_cons_of_mem _ hSlot)

/-- A form with its first slot filled in. -/
theorem IsOpenForm.fill (h : IsOpenForm goal (q :: slots) bel com) (a : Answer) :
    IsOpenForm goal slots bel (q.combine a :: com) := by
  have hDistinct := h.distinct
  simp only [List.map_cons, List.nodup_cons, List.mem_cons, not_or] at hDistinct
  obtain ⟨⟨hGoal, hGoalSlots⟩, hSlots, hNodup⟩ := hDistinct
  refine ⟨?_, ?_, h.unknown⟩
  · rw [List.map_cons, List.nodup_cons]
    exact ⟨hGoalSlots, hNodup⟩
  · intro p hMem
    rcases List.mem_cons.mp hMem with rfl | hOld
    · rw [List.map_cons, List.mem_cons, not_or]
      exact ⟨fun hEq => hGoal hEq.symm, hSlots⟩
    · have hUnsaid := h.unsaid p hOld
      simp only [List.map_cons, List.mem_cons, not_or] at hUnsaid ⊢
      exact ⟨hUnsaid.1, hUnsaid.2.2⟩

/-- A move that fails to fill in the slot `q`, by a user silent `count` times in a row before. A
silence after which a default is assumed does not count. -/
inductive Misheard (e : Engine) (count : UInt32) (q : Question) (m : Move) : Prop where
  | silent : m.act = .noInput →
      (e.config.escalation ≤ nextCount count → e.domain.default? q.predicate = none) →
      Misheard e count q m
  | unclear : m.isUnclear e.config.lowConfidence = true → Misheard e count q m
  | misformatted {a : Answer} : m.isUnclear e.config.lowConfidence = false →
      m.answered? = some a → e.domain.relevant a q = true →
      e.domain.accepts (q.combine a) = false → Misheard e count q m

/-- Between cycles of an open form. -/
structure AtForm (goal : Question) (slots : List Question) (bel com : List Proposition)
    (qud : List Question) (s : InformationState) : Prop where
  agenda : s.own.agenda = []
  plan : s.own.plan = formSteps goal slots
  bel : s.own.bel = bel
  com : s.shared.com = com
  qud : s.shared.qud = qud
  turn : s.turn = {}

theorem AtForm.of_sameUpToVersion {qud : List Question} (h : AtForm goal slots bel com qud s)
    (hSame : SameUpToVersion s t) : AtForm goal slots bel com qud t := by
  obtain ⟨version, rfl⟩ := hSame
  exact ⟨h.agenda, h.plan, h.bel, h.com, h.qud, h.turn⟩

theorem answerable?_append (hUnknown : ∀ b ∈ bel, b.predicate ≠ q.predicate)
    (hBel : s.own.bel = bel ++ [p]) (hUnsaid : ∀ c ∈ s.shared.com, c.predicate ≠ q.predicate)
    (hAnswer : p.predicate = q.predicate) : answerable? s q = some p := by
  have hFresh : s.shared.com.contains p = false := by
    rw [List.contains_eq_any_beq, List.any_eq_false]
    intro c hMem hEq
    exact hUnsaid c hMem (by rw [← beq_iff_eq.mp hEq, hAnswer])
  have hNone : (bel.filter fun b => !s.shared.com.contains b).find? (·.resolves q) = none := by
    rw [List.find?_eq_none]
    intro b hMem hResolves
    exact hUnknown b (List.mem_of_mem_filter hMem) (Proposition.resolves_iff.mp hResolves)
  have hLast : [p].filter (fun b => !s.shared.com.contains b) = [p] :=
    List.filter_eq_self.mpr (by simpa using hFresh)
  rw [answerable?, InformationState.unsharedBeliefs, hBel, List.filter_append, List.find?_append,
    hNone, hLast]
  simp [hAnswer]

theorem answerable?_eq_none (hUnknown : ∀ b ∈ s.own.bel, b.predicate ≠ q.predicate) :
    answerable? s q = none := by
  rw [answerable?, List.find?_eq_none]
  intro b hMem hResolves
  exact hUnknown b (List.mem_of_mem_filter hMem) (Proposition.resolves_iff.mp hResolves)

/-- What the system says when the slots are open: it asks for the first, or gives the answer. -/
def nextMove (slots : List Question) (p : Proposition) : Move :=
  match slots with
  | [] => ⟨.answer (.full p), none⟩
  | q :: _ => ⟨.ask q, none⟩

/-- The next move is made but not yet taken in. -/
def Spoke (goal : Question) (slots : List Question) (bel com : List Proposition)
    (s : InformationState) : Prop :=
  match slots with
  | [] => s.own.agenda = [] ∧ s.own.plan = [] ∧ s.shared.qud = [goal] ∧ s.shared.com = com
  | _ :: _ => AtForm goal slots bel com [goal] s

/-- The next move is taken in, and the first slot was asked for `k` times more. -/
def Resumes (goal : Question) (slots : List Question) (bel com : List Proposition)
    (p : Proposition) (k : Nat) (s : InformationState) : Prop :=
  match slots with
  | [] => s.own.agenda = [] ∧ s.own.plan = [] ∧ s.shared.qud = [] ∧ s.shared.com = p :: com
  | q :: _ => AtForm goal slots bel com (List.replicate (k + 1) q ++ [goal]) s

section

variable (hRules : e.rules = defaultRules)
include hRules

theorem exists_leads_next (hQuiet : e.Quiet input (fun _ => True) s)
    (hForm : IsOpenForm goal slots bel com) (hMay : (e.context input s).maySelect = true)
    (hAgenda : s.own.agenda = []) (hPlan : s.own.plan = formSteps goal slots)
    (hBel : s.own.bel = bel) (hCom : s.shared.com = com) (hQud : s.shared.qud = [goal])
    (hConsult : slots = [] → e.database.consult goal com = some p ∧
      p.predicate = goal.predicate) :
    ∃ n ≤ 3, ∃ t, e.Leads input n s t ∧ e.IsSettled input t ∧
      t.nextMoves = s.nextMoves ++ [nextMove slots p] ∧ Spoke goal slots bel com t.endTurn ∧
      t.own.noInputCount = s.own.noInputCount := by
  have hGoal : s.isResolved goal = false := isResolved_eq_false (hCom ▸ hForm.goal_unsaid)
  have hOpen : TopIsOpen s := topIn_of_cons hQud hGoal
  cases slots with
  | nil =>
    obtain ⟨hFound, hAnswer⟩ := hConsult rfl
    have hPlan : s.own.plan = .consult goal :: [] := hPlan
    have hConsulted := leads_consulted hRules hQuiet (fun _ _ => trivial) hOpen
      (noLoad_of_nil hAgenda) hPlan (hCom ▸ hFound)
    have hResponded := leads_responds (s := { s with own.plan := [], own.bel := s.own.bel ++ [p] })
      hRules (hQuiet.of_hearing rfl) (fun _ _ => trivial) (idle_of_nil hOpen hAgenda rfl) hMay
      hAgenda rfl hQud
      (answerable?_append hForm.unknown (by rw [hBel]) (hCom ▸ hForm.goal_unsaid) hAnswer)
    refine ⟨1 + 2, by omega, _, hConsulted.trans hRules hResponded, ?_, rfl, ?_⟩
    · refine isSettled_of_selected hRules (hQuiet.of_hearing rfl) (fun _ _ => trivial)
        (idle_of_nil hOpen hAgenda rfl) ?_
      simp [Context.maySelect]
    · exact ⟨⟨hAgenda, rfl, hQud, hCom⟩, rfl⟩
  | cons q rest =>
    have hPlan' : s.own.plan = .findout q :: formSteps goal rest := hPlan
    have hSlot : s.isResolved q = false :=
      isResolved_eq_false (hCom ▸ hForm.slot_unsaid List.mem_cons_self)
    have hAsked := leads_asks hRules hQuiet (fun _ _ => trivial)
      (idle_of_findout hOpen hAgenda hPlan' hSlot) hMay hAgenda hPlan'
    refine ⟨2, by omega, _, hAsked, ?_, rfl, ⟨hAgenda, hPlan, hBel, hCom, hQud, rfl⟩, rfl⟩
    refine isSettled_of_selected hRules (hQuiet.of_hearing rfl) (fun _ _ => trivial)
      (idle_of_findout hOpen hAgenda hPlan' hSlot) ?_
    simp [Context.maySelect]

/-- A cycle that may not select rests while a slot is open. -/
theorem settles_of_atForm {n : Nat} {qud : List Question} {tops : Question → Prop}
    (hForm : IsOpenForm goal (q :: slots) bel com) (hLeads : e.Leads input n s.beginTurn t)
    (hQuiet : e.Quiet input tops t) (hTop : tops q) (hMay : (e.context input t).maySelect = false)
    (hAt : AtForm goal (q :: slots) bel com (q :: qud) t.endTurn) :
    e.Settles input n s t.endTurn := by
  have hQud : t.shared.qud = q :: qud := hAt.qud
  have hSlot : t.isResolved q = false :=
    isResolved_eq_false (hAt.com ▸ hForm.slot_unsaid List.mem_cons_self)
  refine ⟨t, hLeads, ?_, rfl⟩
  exact isSettled_of_selected hRules hQuiet (topIn_of_cons hQud hTop)
    (idle_of_findout (topIn_of_cons hQud hSlot) hAt.agenda hAt.plan hSlot) hMay

theorem exists_settles_echoAsk {qud : List Question} {tops : Question → Prop}
    (hForm : IsOpenForm goal (q :: slots) bel com)
    (hAt : AtForm goal (q :: slots) bel com qud s) {before after : List Move}
    (hBefore : ∀ x ∈ before, e.Mute tops x) (hAfter : ∀ x ∈ after, e.Mute tops x)
    (hTop : tops q) :
    ∃ t, e.Settles (.echo (before ++ ⟨.ask q, none⟩ :: after)) 2 s t ∧
      AtForm goal (q :: slots) bel com (q :: qud) t := by
  obtain ⟨t, hLeads, hQuiet, turn, hState⟩ := exists_leads_echoAsk (e := e) (s := s.beginTurn)
    hRules rfl hBefore hAfter q
  have hAt' : AtForm goal (q :: slots) bel com (q :: qud) t.endTurn := by
    rw [hState]
    exact ⟨hAt.agenda, hAt.plan, hAt.bel, hAt.com, congrArg (q :: ·) hAt.qud, rfl⟩
  exact ⟨_, settles_of_atForm hRules hForm hLeads hQuiet hTop rfl hAt', hAt'⟩

/-- The system takes in its next move, said after what answers no question of the form. -/
theorem exists_settles_echoNext_of_mute (hForm : IsOpenForm goal slots bel com)
    (hAt : Spoke goal slots bel com s) (hAnswer : slots = [] → p.predicate = goal.predicate)
    {before : List Move} (hBefore : ∀ x ∈ before, e.Mute (· ∈ goal :: slots) x) :
    ∃ n ≤ 3, ∃ t, e.Settles (.echo (before ++ [nextMove slots p])) n s t ∧
      Resumes goal slots bel com p 0 t := by
  cases slots with
  | nil =>
    obtain ⟨hAgenda, hPlan, hQud, hCom⟩ := hAt
    have hResolves : p.resolves goal = true := Proposition.resolves_iff.mpr (hAnswer rfl)
    obtain ⟨t, hLeads, hQuiet, rfl⟩ := exists_leads_echoAnswer (e := e) (s := s.beginTurn)
      hRules rfl hBefore hQud List.mem_cons_self hResolves
    have hClosed := leads_downdate hRules hQuiet (topIn_of_cons hQud List.mem_cons_self) hQud
      (by simp [InformationState.isResolved, hAnswer rfl])
    refine ⟨2 + 1, by omega, _, ⟨_, hLeads.trans hRules hClosed, ?_, rfl⟩, hAgenda, hPlan, rfl,
      congrArg (p :: ·) hCom⟩
    exact isSettled_of_selected hRules (hQuiet.of_hearing rfl) (topIn_of_nil rfl)
      (idle_of_nil (topIn_of_nil rfl) hAgenda hPlan) rfl
  | cons q rest =>
    have hAfter : ∀ x ∈ ([] : List Move), e.Mute (· ∈ goal :: q :: rest) x := by simp
    obtain ⟨t, hSettles, hAt'⟩ := exists_settles_echoAsk (e := e) hRules hForm hAt hBefore hAfter
      (by simp)
    exact ⟨2, by omega, t, hSettles, hAt'⟩

theorem exists_settles_echoNext (hForm : IsOpenForm goal slots bel com)
    (hAt : Spoke goal slots bel com s) (hAnswer : slots = [] → p.predicate = goal.predicate)
    {acks : List Move} (hAcks : ∀ x ∈ acks, IsRemark x) :
    ∃ n ≤ 3, ∃ t, e.Settles (.echo (acks ++ [nextMove slots p])) n s t ∧
      Resumes goal slots bel com p 0 t :=
  exists_settles_echoNext_of_mute hRules hForm hAt hAnswer fun x hMem => (hAcks x hMem).mute _

theorem exists_settles_answer {k : Nat} (hForm : IsOpenForm goal (q :: slots) bel com)
    (hAt : AtForm goal (q :: slots) bel com (List.replicate (k + 1) q ++ [goal]) s)
    (hClear : m.isUnclear e.config.lowConfidence = false) {a : Answer}
    (hAnswered : m.answered? = some a) (hRelevant : e.domain.relevant a q = true)
    (hAccepts : e.domain.accepts (q.combine a) = true)
    (hConsult : slots = [] → e.database.consult goal (q.combine a :: com) = some p ∧
      p.predicate = goal.predicate) :
    ∃ n ≤ k + 9, ∃ acks t, acks.all Move.isAcknowledge = true ∧ e.Settles (.user [m]) n s t ∧
      t.nextMoves = acks ++ [nextMove slots p] ∧
      Spoke goal slots bel (q.combine a :: com) t := by
  obtain ⟨acks, t, hLength, hAcks, -, hLeads, hQuiet, turn, hSelected, hState⟩ :=
    exists_leads_hearsAnswer (e := e) (s := s.beginTurn) hRules rfl hClear hAnswered hAt.qud
      hRelevant hAccepts
  have hOnce := engagement_le s.beginTurn
  have hFilled := hForm.fill a
  have hAgenda : t.own.agenda = [] := by rw [hState]; exact hAt.agenda
  have hPlan : t.own.plan = .findout q :: formSteps goal slots := by rw [hState]; exact hAt.plan
  have hBel : t.own.bel = bel := by rw [hState]; exact hAt.bel
  have hCom : t.shared.com = q.combine a :: com := by
    rw [hState]
    exact congrArg (q.combine a :: ·) hAt.com
  have hQud : t.shared.qud = List.replicate (k + 1) q ++ [goal] := by rw [hState]; exact hAt.qud
  have hResolved : t.isResolved q = true := by
    rw [InformationState.isResolved, hCom, List.any_cons, q.combine_resolves a, Bool.true_or]
  have hDowndates := leads_downdates hRules hQuiet (fun _ _ => trivial) hQud (fun _ _ => trivial)
    fun q' hMem => by rw [List.eq_of_mem_replicate hMem, hResolved]
  -- The goal is left on top, and nothing said settles it.
  have hOpen : TopIsOpen { t with shared.qud := [goal] } := by
    intro q' hHead
    cases hHead
    exact isResolved_eq_false (hCom ▸ hFilled.goal_unsaid)
  have hFound := leads_foundOut (s := { t with shared.qud := [goal] }) hRules
    (hQuiet.of_hearing rfl) (fun _ _ => trivial) hOpen (noLoad_of_nil hAgenda) hPlan hResolved
  have hMay : (e.context (.user [m]) t).maySelect = true := by
    simp [Context.maySelect, TurnInput.user, hState, hSelected]
  obtain ⟨n', hn', u, hNext, hSettled, hMoves, hSpoke, -⟩ := exists_leads_next (p := p)
    (s := { t with own.plan := formSteps goal slots, shared.qud := [goal] }) hRules
    (hQuiet.of_hearing rfl) hFilled hMay hAgenda rfl hBel hCom rfl hConsult
  rw [List.length_replicate] at hDowndates
  have hMoves' : u.nextMoves = acks ++ [nextMove slots p] := by
    rw [hMoves, hState]
    rfl
  refine ⟨2 + engagement s.beginTurn + acks.length + (k + 1) + 1 + n', by omega, acks, u.endTurn,
    hAcks, ⟨u, ?_, hSettled, rfl⟩, hMoves', hSpoke⟩
  exact ((hLeads.trans hRules hDowndates).trans hRules hFound).trans hRules hNext

theorem exists_settles_reprompt {qud : List Question}
    (hForm : IsOpenForm goal (q :: slots) bel com)
    (hAt : AtForm goal (q :: slots) bel com (q :: qud) s) (hAct : m.act = .noInput)
    (hDefault : e.config.escalation ≤ nextCount s.own.noInputCount →
      e.domain.default? q.predicate = none) :
    ∃ t, e.Settles (.user [m]) 2 s t ∧ t.nextMoves = [⟨.noInput, none⟩, ⟨.ask q, none⟩] ∧
      t.own.noInputCount = nextCount s.own.noInputCount ∧
      AtForm goal (q :: slots) bel com (q :: qud) t := by
  have hTop : s.beginTurn.shared.qud.head? = some q := List.head?_eq_some_iff.mpr ⟨_, hAt.qud⟩
  have hAgain : askAgain s.beginTurn = [⟨.ask q, none⟩] := askAgain_of_top hTop
  obtain ⟨t, hLeads, hQuiet, hState⟩ := leads_hearsSilence (e := e) (s := s.beginTurn) hRules rfl
    hAct fun hEscalate => by rw [fallback?_of_top hTop, hDefault hEscalate, Option.map_none]
  have hAt' : AtForm goal (q :: slots) bel com (q :: qud) t.endTurn := by
    rw [hState]
    exact ⟨hAt.agenda, hAt.plan, hAt.bel, hAt.com, hAt.qud, rfl⟩
  refine ⟨_, settles_of_atForm hRules hForm hLeads hQuiet trivial ?_ hAt', ?_, ?_, hAt'⟩
  · simp [Context.maySelect, hState]
  · rw [hState, hAgain]
    rfl
  · rw [hState]
    rfl

/-- Once the user was silent too often the default fills in the first slot, and the next move is
made in the same cycle. -/
theorem exists_settles_default {k : Nat} {d : Proposition}
    (hForm : IsOpenForm goal (q :: slots) bel com)
    (hAt : AtForm goal (q :: slots) bel com (List.replicate (k + 1) q ++ [goal]) s)
    (hAct : m.act = .noInput) (hEscalate : e.config.escalation ≤ nextCount s.own.noInputCount)
    (hDefault : e.domain.default? q.predicate = some d)
    (hConsult : slots = [] → e.database.consult goal (d :: com) = some p ∧
      p.predicate = goal.predicate) :
    ∃ n ≤ k + 5, ∃ t, e.Settles (.user [m]) n s t ∧
      t.nextMoves = [⟨.answer (.full d), none⟩, nextMove slots p] ∧ t.own.noInputCount = 0 ∧
      Spoke goal slots bel (d :: com) t := by
  have hFilled : IsOpenForm goal slots bel (d :: com) :=
    combine_of_resolves (Domain.resolves_of_default? hDefault) ▸ hForm.fill (.full d)
  obtain ⟨t, hLeads, hQuiet, hState⟩ := leads_hearsFallback (e := e) (s := s.beginTurn) hRules rfl
    hAct hEscalate hAt.qud hDefault
  have hPlan : t.own.plan = formSteps goal slots := by
    rw [hState, if_pos]
    · change s.own.plan.tail = _
      rw [hAt.plan]
      rfl
    · change planAsks s.own.plan q = true
      rw [hAt.plan]
      exact beq_self_eq_true q
  have hCom : t.shared.com = d :: com := by
    rw [hState]
    exact congrArg (d :: ·) hAt.com
  have hBel : t.own.bel = bel := by rw [hState]; exact hAt.bel
  have hQud : t.shared.qud = List.replicate k q ++ [goal] := by rw [hState]; rfl
  have hResolved : t.isResolved q = true := by
    rw [InformationState.isResolved, hCom, List.any_cons, Domain.resolves_of_default? hDefault,
      Bool.true_or]
  have hDowndates := leads_downdates hRules hQuiet (fun _ _ => trivial) hQud (fun _ _ => trivial)
    fun q' hMem => by rw [List.eq_of_mem_replicate hMem, hResolved]
  have hMay : (e.context (.user [m]) t).maySelect = true := by
    rw [hState]
    rfl
  obtain ⟨n, hn, u, hNext, hSettled, hMoves, hSpoke, hCount⟩ := exists_leads_next (p := p)
    (s := { t with shared.qud := [goal] }) hRules (hQuiet.of_hearing rfl) hFilled hMay
    (by rw [hState]) hPlan hBel hCom rfl hConsult
  rw [List.length_replicate] at hDowndates
  refine ⟨2 + k + n, by omega, u.endTurn,
    ⟨u, (hLeads.trans hRules hDowndates).trans hRules hNext, hSettled, rfl⟩, ?_, ?_, hSpoke⟩
  · change u.nextMoves = _
    rw [hMoves, hState]
    rfl
  · change u.own.noInputCount = 0
    rw [hCount, hState]

theorem exists_settles_misheard {qud : List Question}
    (hForm : IsOpenForm goal (q :: slots) bel com)
    (hAt : AtForm goal (q :: slots) bel com (q :: qud) s)
    (hMisheard : Misheard e s.own.noInputCount q m) :
    ∃ n ≤ 4, ∃ before after t, (∀ x ∈ before, IsRemark x) ∧ (∀ x ∈ after, IsRemark x) ∧
      e.Settles (.user [m]) n s t ∧ t.nextMoves = before ++ ⟨.ask q, none⟩ :: after ∧
      AtForm goal (q :: slots) bel com (q :: qud) t := by
  have hAgain : askAgain s.beginTurn = [⟨.ask q, none⟩] :=
    askAgain_of_top (List.head?_eq_some_iff.mpr ⟨_, hAt.qud⟩)
  cases hMisheard with
  | silent hAct hDefault =>
    obtain ⟨t, hSettles, hMoves, -, hAt'⟩ := exists_settles_reprompt hRules hForm hAt hAct hDefault
    refine ⟨2, by omega, [⟨.noInput, none⟩], [], t, ?_, by simp, hSettles, hMoves, hAt'⟩
    simp
  | unclear hUnclear =>
    obtain ⟨n, hn, t, hLeads, hQuiet, count, turn, hSelected, hState⟩ :=
      exists_leads_hearsUnclear (e := e) (s := s.beginTurn) hRules rfl hUnclear
    have hAt' : AtForm goal (q :: slots) bel com (q :: qud) t.endTurn := by
      rw [hState]
      exact ⟨hAt.agenda, hAt.plan, hAt.bel, hAt.com, hAt.qud, rfl⟩
    refine ⟨n, hn, [], [⟨.inform e.config.clarificationText, none⟩], _, by simp, ?_,
      settles_of_atForm hRules hForm hLeads hQuiet trivial ?_ hAt', ?_, hAt'⟩
    · simp
    · simp [Context.maySelect, hState, hSelected]
    · rw [hState, hAgain]
      rfl
  | @misformatted a hClear hAnswered hRelevant hRejects =>
    obtain ⟨f, hFormat, hRejects⟩ := exists_format_of_accepts hRejects
    obtain ⟨n, hn, t, hLeads, hQuiet, turn, hSelected, hState⟩ :=
      exists_leads_hearsMisformatted (e := e) (s := s.beginTurn) hRules rfl hClear hAnswered hAt.qud
        hRelevant hFormat hRejects
    have hAt' : AtForm goal (q :: slots) bel com (q :: qud) t.endTurn := by
      rw [hState]
      exact ⟨hAt.agenda, hAt.plan, hAt.bel, hAt.com, hAt.qud, rfl⟩
    refine ⟨n, by omega, [], [⟨.inform f.hint, none⟩], _, by simp, ?_,
      settles_of_atForm hRules hForm hLeads hQuiet trivial ?_ hAt', ?_, hAt'⟩
    · simp
    · simp [Context.maySelect, hState, hSelected]
    · rw [hState]
      rfl

/-- Between cycles with nothing to pursue. -/
structure AtRest (bel com : List Proposition) (s : InformationState) : Prop where
  agenda : s.own.agenda = []
  plan : s.own.plan = []
  bel : s.own.bel = bel
  com : s.shared.com = com
  qud : s.shared.qud = []
  turn : s.turn = {}

omit hRules in
theorem AtRest.of_sameUpToVersion (h : AtRest bel com s) (hSame : SameUpToVersion s t) :
    AtRest bel com t := by
  obtain ⟨version, rfl⟩ := hSame
  exact ⟨h.agenda, h.plan, h.bel, h.com, h.qud, h.turn⟩

theorem exists_settles_askGoal (hForm : IsOpenForm goal slots bel com) (hAt : AtRest bel com s)
    {plan : Plan} (hPlan : e.domain.issuePlan? goal = some plan)
    (hSteps : plan.steps = formSteps goal slots)
    (hClear : m.isUnclear e.config.lowConfidence = false) (hAsked : m.asked? = some goal)
    (hConsult : slots = [] → e.database.consult goal com = some p ∧
      p.predicate = goal.predicate) :
    ∃ n ≤ 7, ∃ t, e.Settles (.user [m]) n s t ∧ t.nextMoves = [nextMove slots p] ∧
      Spoke goal slots bel com t := by
  obtain ⟨t, hLeads, hQuiet, hState⟩ := leads_hearsAsk (e := e) (s := s.beginTurn) hRules rfl
    hClear hAsked
  have hOnce := engagement_le s.beginTurn
  have hAgenda : t.own.agenda = .respond goal :: [] := by
    rw [hState]
    exact congrArg (Action.respond goal :: ·) hAt.agenda
  have hBel : t.own.bel = bel := by rw [hState]; exact hAt.bel
  have hCom : t.shared.com = com := by rw [hState]; exact hAt.com
  have hQud : t.shared.qud = [goal] := by
    rw [hState]
    exact congrArg (goal :: ·) hAt.qud
  have hOpen : TopIsOpen t := by
    intro q' hHead
    rw [hQud] at hHead
    cases hHead
    exact isResolved_eq_false (hCom ▸ hForm.goal_unsaid)
  have hLoaded := leads_loaded hRules hQuiet (fun _ _ => trivial) hOpen hAgenda
    (answerable?_eq_none (hBel ▸ hForm.unknown)) hPlan
  rw [hSteps] at hLoaded
  have hMay : (e.context (.user [m]) t).maySelect = true := by
    rw [hState]
    rfl
  obtain ⟨n', hn', u, hNext, hSettled, hMoves, hSpoke, -⟩ := exists_leads_next (p := p)
    (s := { t with own.agenda := [], own.plan := formSteps goal slots }) hRules
    (hQuiet.of_hearing rfl) hForm hMay rfl rfl hBel hCom hQud hConsult
  have hMoves' : u.nextMoves = [nextMove slots p] := by
    rw [hMoves, hState]
    rfl
  exact ⟨2 + engagement s.beginTurn + 1 + n', by omega, u.endTurn,
    ⟨u, (hLeads.trans hRules hLoaded).trans hRules hNext, hSettled, rfl⟩, hMoves', hSpoke⟩

theorem settles_opening (bel : List Proposition) :
    ∃ t, e.Settles (.user []) 1 (.withBeliefs .initial bel) t ∧ t.nextMoves = [⟨.greet, none⟩] ∧
      AtRest bel [] t := by
  have hQuiet : e.Quiet (.user []) (fun _ => True)
      (InformationState.withBeliefs .initial bel).beginTurn := quiet_of_no_moves rfl rfl rfl
  have hGreets : e.Leads (.user []) 1 _ _ := leads_greets hRules hQuiet (fun _ _ => trivial)
    ⟨fun q h => (by cases h), fun q rest h => (by cases h), fun q rest h => (by cases h),
      fun q rest h => (by cases h)⟩ rfl (show _ = Action.greet :: [] from rfl)
  refine ⟨_, ⟨_, hGreets, ?_, rfl⟩, rfl, rfl, rfl, rfl, rfl, rfl, rfl⟩
  exact isSettled_of_selected hRules (hQuiet.of_hearing rfl) (fun _ _ => trivial)
    (idle_of_nil (fun q h => (by cases h)) rfl rfl) rfl

theorem exists_settles_echoGreet (hAt : AtRest bel com s) :
    ∃ t, e.Settles (.echo [⟨.greet, none⟩]) 2 s t ∧ AtRest bel com t := by
  obtain ⟨t, hLeads, hQuiet, turn, hState⟩ := exists_leads_echoGreet (e := e) (s := s.beginTurn)
    hRules rfl
  have hAt' : AtRest bel com t.endTurn := by
    rw [hState]
    exact ⟨hAt.agenda, hAt.plan, hAt.bel, hAt.com, hAt.qud, rfl⟩
  refine ⟨_, ⟨t, hLeads, ?_, rfl⟩, hAt'⟩
  refine isSettled_of_selected hRules hQuiet (fun _ _ => trivial)
    (idle_of_nil ?_ hAt'.agenda hAt'.plan) rfl
  exact topIn_of_nil hAt'.qud

end

end Dialogue.Engine
