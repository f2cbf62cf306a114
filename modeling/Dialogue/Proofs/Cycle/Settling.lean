import Dialogue.Console
import Dialogue.Proofs.Domain.Plans
import Dialogue.Proofs.Update.Priority

/-! # Cycles settle

A weight bounds what a cycle of the default rules can still do. Each move not dealt with may put a
question on QUD and a `respond` on the agenda, and each `respond` may load a plan. Every firing
lowers the weight, but for a `respond` put on an empty agenda: that one is done with at once.
-/

namespace Dialogue.Engine

open Update

variable {e : Engine} {input : TurnInput} {s t : InformationState} {r : Rule}

/-- Whether an action can load a plan. -/
def loads (d : Domain) : Action → Bool
  | .respond q => (d.issuePlan? q).isSome
  | _ => false

/-- The moves of the cycle still to be dealt with, taken in or not. -/
def outstanding (input : TurnInput) (s : InformationState) : Nat :=
  if s.turn.latched then s.pendingMoves.length else input.moves.length

/-- Whether the count of silent turns can still be set back. -/
def engagementWeight (input : TurnInput) (count : UInt32) : Nat :=
  (count != 0 && input.moves.any (·.isContentful)).toNat

/-- What selection can still do: copy a step, take up another one in place of a `respond` of the
plan, and emit a move. -/
def selectionWeight (d : Domain) (may : Bool) (agenda plan : List Action) : Nat :=
  if may then
    (if agenda.all Action.isRespond then 2 else 1) +
      if plan.any (loads d) then d.longestIssue + 1 else 0
  else 0

/-- What can fire apart from taking in moves. -/
def pursuitWeight (e : Engine) (input : TurnInput) (s : InformationState) : Nat :=
  engagementWeight input s.own.noInputCount + (!s.turn.grounded).toNat +
    (!s.turn.acknowledged).toNat + s.shared.qud.length + s.own.plan.length +
    (e.domain.longestIssue + 1) * s.own.agenda.countP (loads e.domain) +
    selectionWeight e.domain (input.speaker != .sys && !s.turn.selected) s.own.agenda s.own.plan

def weight (e : Engine) (input : TurnInput) (s : InformationState) : Nat :=
  (!s.turn.latched).toNat + (e.domain.longestIssue + 3) * outstanding input s +
    pursuitWeight e input s

theorem outstanding_lt {p : Nat → Bool} (hLatched : t.turn.latched = s.turn.latched)
    (hLu : t.shared.lu = s.shared.lu)
    (hConsumed : ∀ i, i ∈ t.turn.consumed ↔ i ∈ s.turn.consumed ∨ p i = true)
    {m : Nat × Move} (hPending : m ∈ s.pendingMoves) (hHit : p m.1 = true) :
    outstanding input t < outstanding input s := by
  have hMark := latched_of_pending hPending
  rw [outstanding, outstanding, hLatched, hMark]
  exact InformationState.length_pendingMoves_lt hLatched hLu hConsumed hPending hHit

theorem outstanding_lt_of_findPending? {β : Type} {f : Move → Option β} {i : Nat} {b : β}
    (hFind : (e.context input s).findPending? f = some (i, b))
    (hLatched : t.turn.latched = s.turn.latched) (hLu : t.shared.lu = s.shared.lu)
    (hConsumed : t.turn.consumed = s.turn.consumed.insert i) :
    outstanding input t < outstanding input s := by
  obtain ⟨m, hPending, _⟩ := Context.exists_pending_of_findPending? hFind
  refine outstanding_lt (p := (· == i)) hLatched hLu ?_ hPending (by simp)
  intro j
  rw [hConsumed, List.mem_insert_iff, beq_iff_eq, or_comm]

theorem outstanding_lt_of_silence (hPending : ∃ m ∈ s.pendingMoves, m.2.isNoInput = true)
    (hLatched : t.turn.latched = s.turn.latched) (hLu : t.shared.lu = s.shared.lu)
    (hConsumed : t.turn.consumed = s.consumedSilence) :
    outstanding input t < outstanding input s := by
  obtain ⟨m, hPending, hSilent⟩ := hPending
  refine outstanding_lt (p := fun i => s.pendingMoves.any fun m => m.2.isNoInput && m.1 == i)
    hLatched hLu (fun i => ?_) hPending (List.any_eq_true.mpr ⟨m, hPending, by simp [hSilent]⟩)
  rw [hConsumed, InformationState.mem_consumedSilence]

theorem outstanding_le {p : Nat → Bool} (hLatched : t.turn.latched = s.turn.latched)
    (hLu : t.shared.lu = s.shared.lu)
    (hConsumed : ∀ i, i ∈ t.turn.consumed ↔ i ∈ s.turn.consumed ∨ p i = true) :
    outstanding input t ≤ outstanding input s := by
  rw [outstanding, outstanding, hLatched]
  split
  · exact InformationState.length_pendingMoves_le hLatched hLu hConsumed
  · exact Nat.le_refl _

/-- Dealing with a move pays for a question, a `respond` and its plan. -/
theorem weight_lt_of_outstanding_lt (hLatched : t.turn.latched = s.turn.latched)
    (hOutstanding : outstanding input t < outstanding input s)
    (hPursuit : pursuitWeight e input t < pursuitWeight e input s + e.domain.longestIssue + 3) :
    weight e input t < weight e input s := by
  have hProduct : (e.domain.longestIssue + 3) * (outstanding input t + 1) ≤
      (e.domain.longestIssue + 3) * outstanding input s := Nat.mul_le_mul_left _ hOutstanding
  rw [Nat.mul_succ] at hProduct
  rw [weight, weight, hLatched]
  omega

theorem weight_add_le (n : Nat) (hLatched : t.turn.latched = s.turn.latched)
    (hOutstanding : outstanding input t ≤ outstanding input s)
    (hPursuit : pursuitWeight e input t + n ≤ pursuitWeight e input s) :
    weight e input t + n ≤ weight e input s := by
  have hProduct : (e.domain.longestIssue + 3) * outstanding input t ≤
      (e.domain.longestIssue + 3) * outstanding input s := Nat.mul_le_mul_left _ hOutstanding
  rw [weight, weight, hLatched]
  omega

section Selection

variable {d : Domain} {agenda agenda' plan plan' : List Action}

@[simp] theorem selectionWeight_false : selectionWeight d false agenda plan = 0 := rfl

theorem selectionWeight_pos (d : Domain) (agenda plan : List Action) :
    0 < selectionWeight d true agenda plan := by
  rw [selectionWeight, if_pos rfl]
  split <;> omega

theorem two_le_selectionWeight_nil (d : Domain) (plan : List Action) :
    2 ≤ selectionWeight d true [] plan := by
  rw [selectionWeight, if_pos rfl, List.all_nil, if_pos rfl]
  exact Nat.le_add_right _ _

theorem selectionWeight_le_length (d : Domain) (may : Bool) (agenda plan : List Action) :
    selectionWeight d may agenda plan ≤ d.longestIssue + 3 := by
  rw [selectionWeight]
  split
  · split <;> split <;> omega
  · exact Nat.zero_le _

theorem selectionWeight_singleton (d : Domain) (plan : List Action) {a : Action}
    (hAction : a.isRespond = false) :
    selectionWeight d true [a] plan + 1 = selectionWeight d true [] plan := by
  simp only [selectionWeight, List.all_cons, hAction, List.all_nil, Bool.false_and, if_pos,
    Bool.false_eq_true, if_false]
  omega

theorem selectionWeight_le (may : Bool)
    (hAgenda : agenda'.all Action.isRespond = true → agenda.all Action.isRespond = true)
    (hPlan : plan'.any (loads d) = true → plan.any (loads d) = true) :
    selectionWeight d may agenda' plan' ≤ selectionWeight d may agenda plan := by
  cases may with
  | false => exact Nat.le_refl _
  | true =>
    rw [selectionWeight, selectionWeight, if_pos rfl, if_pos rfl]
    refine Nat.add_le_add ?_ ?_
    · split
      · next h => rw [if_pos (hAgenda h)]
      · split <;> omega
    · split
      · next h => rw [if_pos (hPlan h)]
      · omega

theorem selectionWeight_nil_le (may : Bool) (agenda : List Action)
    (hPlan : plan'.any (loads d) = true → plan.any (loads d) = true) :
    selectionWeight d may [] plan' ≤ selectionWeight d may agenda plan + 1 := by
  cases may with
  | false => exact Nat.zero_le _
  | true =>
    have hPlan' : (if plan'.any (loads d) = true then d.longestIssue + 1 else 0) ≤
        if plan.any (loads d) = true then d.longestIssue + 1 else 0 := by
      split
      · next h => rw [if_pos (hPlan h)]
      · omega
    have hAgenda : 1 ≤ if agenda.all Action.isRespond then 2 else 1 := by split <;> omega
    rw [selectionWeight, selectionWeight, if_pos rfl, if_pos rfl, List.all_nil, if_pos rfl]
    omega

theorem all_of_all_append (steps agenda : List Action)
    (h : (steps ++ agenda).all Action.isRespond = true) : agenda.all Action.isRespond = true := by
  rw [List.all_append, Bool.and_eq_true] at h
  exact h.2

theorem mul_countP_cons_le (d : Domain) (a : Action) (agenda : List Action) :
    (d.longestIssue + 1) * (a :: agenda).countP (loads d) ≤
      (d.longestIssue + 1) * agenda.countP (loads d) + (d.longestIssue + 1) := by
  rw [← Nat.mul_succ]
  apply Nat.mul_le_mul_left
  rw [List.countP_cons]
  split <;> omega

theorem mul_countP_le_cons (d : Domain) (a : Action) (agenda : List Action) :
    (d.longestIssue + 1) * agenda.countP (loads d) ≤
      (d.longestIssue + 1) * (a :: agenda).countP (loads d) := by
  apply Nat.mul_le_mul_left
  rw [List.countP_cons]
  exact Nat.le_add_right _ _

theorem any_loads_of_tail (h : plan.tail.any (loads d) = true) : plan.any (loads d) = true := by
  obtain ⟨a, hMem, hLoads⟩ := List.any_eq_true.mp h
  exact List.any_eq_true.mpr ⟨a, List.mem_of_mem_tail hMem, hLoads⟩

theorem loads_eq_false {a : Action} (h : a.isRespond = false) : loads d a = false := by
  cases a with
  | respond q => cases h
  | _ => rfl

end Selection

theorem engagementWeight_of_silence {u : Utterance} (hMoves : u.moves = input.moves)
    (hSilence : u.isSilence = true) (count : UInt32) : engagementWeight input count = 0 := by
  rw [Utterance.isSilence, Bool.and_eq_true, hMoves, List.all_eq_true] at hSilence
  have hContent : input.moves.any (·.isContentful) = false := by
    rw [List.any_eq_false]
    intro m hMem hContent
    have hSilent := hSilence.2 m hMem
    rw [Move.isNoInput] at hSilent
    rw [Move.isContentful] at hContent
    split at hSilent <;> simp_all
  rw [engagementWeight, hContent, Bool.and_false]
  rfl

theorem any_loads_of_issuePlan? {d : Domain} {q : Question} {p : Plan}
    (h : d.issuePlan? q = some p) : p.steps.any (loads d) = false := by
  rw [List.any_eq_false]
  intro a hStep
  rw [loads_eq_false (Domain.isRespond_eq_false (Domain.mem_plans_of_issuePlan? h) hStep)]
  exact Bool.false_ne_true

section Falling

variable {consumed : List Nat} {moves : List Move} {version : UInt64}

theorem weight_latch_lt (hLatched : s.turn.latched = false) :
    weight e input { s with
      shared.lu := some ⟨input.speaker, input.moves⟩
      turn := { s.turn with latched := true, consumed := [] }
      version := version } < weight e input s := by
  have hOutstanding : outstanding input { s with
      shared.lu := some ⟨input.speaker, input.moves⟩
      turn := { s.turn with latched := true, consumed := [] }
      version := version } = outstanding input s := by
    simp [outstanding, hLatched, InformationState.pendingMoves, InformationState.latched?]
  rw [weight, weight, hOutstanding, hLatched]
  exact Nat.add_lt_add_right (Nat.add_lt_add_right Nat.one_pos _) _

/-- Steps of an action plan load nothing, so they cost nothing. -/
theorem pursuitWeight_request_lt {steps : List Action}
    (hRespond : ∀ a ∈ steps, a.isRespond = false) :
    pursuitWeight e input { s with
      own.agenda := steps ++ s.own.agenda, turn.consumed := consumed, version := version } <
      pursuitWeight e input s + e.domain.longestIssue + 3 := by
  have hLoads : steps.countP (loads e.domain) = 0 := by
    apply List.countP_eq_zero.mpr
    intro a hMem
    rw [loads_eq_false (hRespond a hMem)]
    exact Bool.false_ne_true
  have hSelection : selectionWeight e.domain (input.speaker != .sys && !s.turn.selected)
      (steps ++ s.own.agenda) s.own.plan ≤
      selectionWeight e.domain _ s.own.agenda s.own.plan :=
    selectionWeight_le _ (all_of_all_append steps s.own.agenda) id
  simp only [pursuitWeight, List.countP_append, hLoads, Nat.zero_add]
  omega

theorem pursuitWeight_usrAsk_lt (q : Question) :
    pursuitWeight e input { s with
      own.agenda := .respond q :: s.own.agenda
      shared.qud := q :: s.shared.qud
      turn.consumed := consumed
      version := version } < pursuitWeight e input s + e.domain.longestIssue + 3 := by
  have hSelection : selectionWeight e.domain (input.speaker != .sys && !s.turn.selected)
      (.respond q :: s.own.agenda) s.own.plan ≤
      selectionWeight e.domain _ s.own.agenda s.own.plan := selectionWeight_le _ id id
  have hCount := mul_countP_cons_le e.domain (.respond q) s.own.agenda
  simp only [pursuitWeight, List.length_cons]
  omega

theorem weight_engaged_lt (hContent : input.moves.any (·.isContentful) = true)
    (hCount : s.own.noInputCount ≠ 0) :
    weight e input { s with
      own.noInputCount := 0, turn.consumed := s.consumedSilence, version := version } <
      weight e input s := by
  have hBefore : engagementWeight input s.own.noInputCount = 1 := by
    rw [engagementWeight, hContent, bne_iff_ne.mpr hCount]
    rfl
  have hAfter : engagementWeight input 0 = 0 := rfl
  refine weight_add_le 1 rfl ?_ ?_
  · exact outstanding_le rfl rfl fun _ => InformationState.mem_consumedSilence
  · simp only [pursuitWeight, hBefore, hAfter]
    omega

/-- A default closes a question; what it takes off the plan is a question of the plan. -/
theorem pursuitWeight_fellBack_lt {q : Question} {qs : List Question} {com : List Proposition}
    {u : Utterance} (hMoves : u.moves = input.moves) (hSilence : u.isSilence = true)
    (hQud : s.shared.qud = q :: qs) :
    pursuitWeight e input { s with
      own.agenda := []
      own.plan := if planAsks s.own.plan q then s.own.plan.tail else s.own.plan
      own.noInputCount := 0
      shared.qud := qs
      shared.com := com
      nextMoves := moves
      turn.consumed := consumed
      version := version } < pursuitWeight e input s + e.domain.longestIssue + 3 := by
  have hEngagement := engagementWeight_of_silence hMoves hSilence
  have hPlan : (if planAsks s.own.plan q then s.own.plan.tail else s.own.plan).length ≤
      s.own.plan.length := by split <;> simp
  have hSelection : selectionWeight e.domain (input.speaker != .sys && !s.turn.selected) []
      (if planAsks s.own.plan q then s.own.plan.tail else s.own.plan) ≤
      selectionWeight e.domain (input.speaker != .sys && !s.turn.selected) s.own.agenda
        s.own.plan + 1 := by
    apply selectionWeight_nil_le
    intro hAny
    split at hAny
    · exact any_loads_of_tail hAny
    · exact hAny
  simp only [pursuitWeight, hEngagement, hQud, List.length_cons, List.countP_nil, Nat.mul_zero]
  omega

theorem weight_loaded_lt {q : Question} {rest : List Action} {p : Plan}
    (hAgenda : s.own.agenda = .respond q :: rest) (hPlan : e.domain.issuePlan? q = some p) :
    weight e input { s with own.agenda := rest, own.plan := p.steps, version := version } <
      weight e input s := by
  have hLength := Domain.length_steps_le_longestIssue hPlan
  have hNone := any_loads_of_issuePlan? hPlan
  have hSelection : selectionWeight e.domain (input.speaker != .sys && !s.turn.selected) rest
      p.steps ≤ selectionWeight e.domain _ (.respond q :: rest) s.own.plan :=
    selectionWeight_le _ id (by simp [hNone])
  have hCount : (.respond q :: rest).countP (loads e.domain) =
      rest.countP (loads e.domain) + 1 := List.countP_cons_of_pos (by simp [loads, hPlan])
  refine weight_add_le 1 rfl (Nat.le_refl _) ?_
  simp only [pursuitWeight, hAgenda, hCount, Nat.mul_succ]
  omega

theorem weight_plan_tail_lt {a : Action} {rest : List Action} {bel : List Proposition}
    (hPlan : s.own.plan = a :: rest) :
    weight e input { s with own.plan := rest, own.bel := bel, version := version } <
      weight e input s := by
  have hSelection : selectionWeight e.domain (input.speaker != .sys && !s.turn.selected)
      s.own.agenda rest ≤ selectionWeight e.domain (input.speaker != .sys && !s.turn.selected)
      s.own.agenda (a :: rest) := by
    refine selectionWeight_le _ id ?_
    intro hAny
    rw [List.any_cons, hAny, Bool.or_true]
  refine weight_add_le 1 rfl (Nat.le_refl _) ?_
  simp only [pursuitWeight, hPlan, List.length_cons]
  omega

theorem weight_copied_lt {a : Action} (hRespond : a.isRespond = false)
    (hMay : (e.context input s).maySelect = true) (hAgenda : s.own.agenda = []) :
    weight e input { s with own.agenda := [a], version := version } < weight e input s := by
  have hMay : (input.speaker != .sys && !s.turn.selected) = true := hMay
  have hCount : [a].countP (loads e.domain) = 0 := by simp [loads_eq_false hRespond]
  have hSelection := selectionWeight_singleton e.domain s.own.plan hRespond
  refine weight_add_le 1 rfl (Nat.le_refl _) ?_
  simp only [pursuitWeight, hMay, hAgenda, hCount, List.countP_nil]
  omega

theorem weight_selected_lt {a : Action} {rest plan : List Action}
    (hMay : (e.context input s).maySelect = true) (hAgenda : s.own.agenda = a :: rest)
    (hPlan : plan.length ≤ s.own.plan.length) :
    weight e input { s with
      own.agenda := rest
      own.plan := plan
      nextMoves := moves
      turn.selected := true
      version := version } < weight e input s := by
  have hMay : (input.speaker != .sys && !s.turn.selected) = true := hMay
  have hCount := mul_countP_le_cons e.domain a rest
  have hSelection := selectionWeight_pos e.domain (a :: rest) s.own.plan
  refine weight_add_le 1 rfl (Nat.le_refl _) ?_
  simp only [pursuitWeight, hMay, hAgenda, Bool.not_true, Bool.and_false, selectionWeight_false]
  omega

end Falling

/-- A `respond` was put on the empty agenda, to be answered or, out of the plan, to load one. -/
def Copies (e : Engine) (input : TurnInput) (s t : InformationState) : Prop :=
  (e.context input s).maySelect = true ∧ s.own.agenda = [] ∧ ∃ q,
    t = { s with own.agenda := [.respond q], version := s.version + 1 } ∧
    ((∃ rest, s.own.plan = .respond q :: rest) ∨ (answerable? s q).isSome = true)

theorem weight_lt_or_copies (hAttends : Attends input s) (hReset : input.resetAgenda = false)
    (h : Fires e input s r t) : weight e input t < weight e input s ∨
      (r = selectFromPlan ∨ r = selectRespond) ∧ Copies e input s t := by
  cases h with
  | clearAgenda hRequested _ => rw [hReset] at hRequested; cases hRequested
  | latch _ hLatched => exact .inl (weight_latch_lt hLatched)
  | request _ hFind =>
    left
    obtain ⟨m, _, hSteps⟩ := Context.exists_pending_of_findPending? hFind
    exact weight_lt_of_outstanding_lt rfl (outstanding_lt_of_findPending? hFind rfl rfl rfl)
      (pursuitWeight_request_lt (Domain.isRespond_of_requestedSteps? hSteps))
  | sysAsk _ _ hFind =>
    left
    refine weight_lt_of_outstanding_lt rfl (outstanding_lt_of_findPending? hFind rfl rfl rfl) ?_
    simp only [pursuitWeight, List.length_cons]
    omega
  | @usrAsk _ _ q _ hFind =>
    left
    exact weight_lt_of_outstanding_lt rfl (outstanding_lt_of_findPending? hFind rfl rfl rfl)
      (pursuitWeight_usrAsk_lt q)
  | answer _ _ _ hFind | greeted hFind =>
    left
    refine weight_lt_of_outstanding_lt rfl (outstanding_lt_of_findPending? hFind rfl rfl rfl) ?_
    simp only [pursuitWeight]
    omega
  | engaged hTurn _ hContent hCount =>
    rw [Utterance.hasContentfulMove, moves_of_userTurn? hAttends hTurn] at hContent
    exact .inl (weight_engaged_lt hContent hCount)
  -- Nobody takes part by silence, so the count is not to be set back in this cycle.
  | reprompted hTurn hSilence hPending _ =>
    left
    have hEngagement := engagementWeight_of_silence (moves_of_userTurn? hAttends hTurn) hSilence
    refine weight_lt_of_outstanding_lt rfl (outstanding_lt_of_silence hPending rfl rfl rfl) ?_
    simp only [pursuitWeight, hEngagement, Bool.not_true, Bool.and_false, selectionWeight_false]
    omega
  | fellBack hTurn hSilence hPending _ hQud _ =>
    left
    have hMoves := moves_of_userTurn? hAttends hTurn
    exact weight_lt_of_outstanding_lt rfl (outstanding_lt_of_silence hPending rfl rfl rfl)
      (pursuitWeight_fellBack_lt hMoves hSilence hQud)
  | unclear _ hGrounded _ =>
    left
    refine weight_add_le 1 rfl (Nat.le_refl _) ?_
    simp only [pursuitWeight, hGrounded, Bool.not_true, Bool.not_false, Bool.and_false,
      selectionWeight_false, Bool.toNat_true, Bool.toNat_false]
    omega
  | misformatted hGrounded _ _ _ hFind =>
    left
    refine weight_lt_of_outstanding_lt rfl (outstanding_lt_of_findPending? hFind rfl rfl rfl) ?_
    simp only [pursuitWeight, hGrounded, Bool.not_true, Bool.not_false, Bool.and_false,
      selectionWeight_false, Bool.toNat_true, Bool.toNat_false]
    omega
  | acknowledged _ hAcknowledged _ _ =>
    left
    refine weight_add_le 1 rfl (Nat.le_refl _) ?_
    simp only [pursuitWeight, hAcknowledged, Bool.not_true, Bool.not_false, Bool.toNat_true,
      Bool.toNat_false]
    omega
  | downdate hQud _ =>
    left
    refine weight_add_le 1 rfl (Nat.le_refl _) ?_
    simp only [pursuitWeight, hQud, List.length_cons]
    omega
  | loaded hAgenda _ hPlan => exact .inl (weight_loaded_lt hAgenda hPlan)
  | foundOut hPlan _ | consulted hPlan _ => exact .inl (weight_plan_tail_lt hPlan)
  -- A `respond` copied to the agenda need not lower the weight, but every other step does.
  | @copied a rest hMay hAgenda hPlan hConsult =>
    cases hRespond : a.isRespond with
    | true =>
      right
      cases a with
      | respond q => exact ⟨.inl rfl, hMay, hAgenda, q, rfl, .inl ⟨rest, hPlan⟩⟩
      | _ => cases hRespond
    | false => exact .inl (weight_copied_lt hRespond hMay hAgenda)
  | asked hMay hAgenda _ => exact .inl (weight_selected_lt hMay hAgenda (by split <;> simp))
  | tookUp hMay hAgenda _ _ hAnswer => exact .inr ⟨.inr rfl, hMay, hAgenda, _, rfl, .inr hAnswer⟩
  | answered hMay hAgenda _ => exact .inl (weight_selected_lt hMay hAgenda (Nat.le_refl _))
  | greets hMay hAgenda => exact .inl (weight_selected_lt hMay hAgenda (Nat.le_refl _))

theorem two_le_weight_of_copies (h : Copies e input s t) : 2 ≤ weight e input s := by
  obtain ⟨hMay, hAgenda, _⟩ := h
  have hMay : (input.speaker != .sys && !s.turn.selected) = true := hMay
  have hSelection := two_le_selectionWeight_nil e.domain s.own.plan
  rw [weight, pursuitWeight, hMay, hAgenda]
  omega

/-- The `respond` put on the agenda is answered, or the plan it loads costs less than the weight
that the plan with a `respond` had. -/
theorem weight_add_two_le (hRules : e.rules = defaultRules) (hReset : input.resetAgenda = false)
    {r' : Rule} {deltas deltas' : List Delta} (h : e.applicable? input s = some (r, deltas))
    (hSelect : r = selectFromPlan ∨ r = selectRespond) (hCopies : Copies e input s t)
    (h' : e.applicable? input t = some (r', deltas')) :
    weight e input (t.apply deltas') + 2 ≤ weight e input s := by
  obtain ⟨hMay, hAgenda, q, rfl, hCause⟩ := hCopies
  have hMay : (input.speaker != .sys && !s.turn.selected) = true := hMay
  have hName := name_mem_agendaRules hRules h hSelect h'
  generalize hState : InformationState.apply _ deltas' = u
  have hFires := hState ▸ fires_of_applicable? hRules h'
  cases hFires with
  | clearAgenda hRequested _ => rw [hReset] at hRequested; cases hRequested
  | @loaded _ rest p hNext hNone hPlan =>
    cases hNext
    obtain ⟨rest, hCopied⟩ := hCause.resolve_right fun hAnswer => by
      rw [show answerable? s q = none from hNone] at hAnswer
      cases hAnswer
    have hLength := Domain.length_steps_le_longestIssue hPlan
    have hSteps := any_loads_of_issuePlan? hPlan
    have hAny : (Action.respond q :: rest).any (loads e.domain) = true := by simp [loads, hPlan]
    refine weight_add_le 2 rfl (Nat.le_refl _) ?_
    simp only [pursuitWeight, hMay, hAgenda, hCopied, selectionWeight, hSteps, hAny, if_pos,
      List.all_nil, List.countP_nil, List.length_cons, Bool.false_eq_true, if_false]
    omega
  | answered _ hNext _ =>
    cases hNext
    have hSelection := two_le_selectionWeight_nil e.domain s.own.plan
    refine weight_add_le 2 rfl (Nat.le_refl _) ?_
    simp only [pursuitWeight, hMay, hAgenda, Bool.not_true, Bool.and_false, selectionWeight_false]
    omega
  | copied _ hNext => cases hNext
  | tookUp _ hNext => cases hNext
  | asked _ hNext hAction => cases hNext; rcases hAction with h | h <;> cases h
  | greets _ hNext => cases hNext
  | _ => exact absurd hName (by decide)

theorem exists_trace_length_le_weight (hRules : e.rules = defaultRules)
    (hReset : input.resetAgenda = false) (s : InformationState) (hAttends : Attends input s) :
    ∃ rs t, e.Trace input s rs t ∧ e.IsSettled input t ∧ rs.length ≤ weight e input s := by
  induction hWeight : weight e input s using Nat.strongRecOn generalizing s with
  | ind n ih =>
    cases hHit : e.applicable? input s with
    | none => exact ⟨[], s, .done s, hHit, Nat.zero_le _⟩
    | some hit =>
      obtain ⟨r, deltas⟩ := hit
      have hFires := fires_of_applicable? hRules hHit
      have hAttends' := hAttends.fires hFires
      rcases weight_lt_or_copies hAttends hReset hFires with hLess | ⟨hSelect, hCopies⟩
      · obtain ⟨rs, t, hTrace, hSettled, hLength⟩ := ih _ (hWeight ▸ hLess) _ hAttends' rfl
        refine ⟨r :: rs, t, .fire hHit hTrace, hSettled, ?_⟩
        rw [List.length_cons]
        omega
      · have hPos := two_le_weight_of_copies hCopies
        cases hNext : e.applicable? input (s.apply deltas) with
        | none =>
          refine ⟨[r], _, .fire hHit (.done _), hNext, ?_⟩
          rw [List.length_singleton]
          omega
        | some hit' =>
          obtain ⟨r', deltas'⟩ := hit'
          have hLess := weight_add_two_le hRules hReset hHit hSelect hCopies hNext
          have hAttends'' := hAttends'.fires (fires_of_applicable? hRules hNext)
          obtain ⟨rs, t, hTrace, hSettled, hLength⟩ := ih _ (by omega) _ hAttends'' rfl
          refine ⟨r :: r' :: rs, t, .fire hHit (.fire hNext hTrace), hSettled, ?_⟩
          rw [List.length_cons, List.length_cons]
          omega

/-- The firings that a cycle needs at most, in terms of the state it starts from. -/
def firingBound (d : Domain) (s : InformationState) (input : TurnInput) : Nat :=
  8 + 2 * input.moves.length + s.shared.qud.length + s.own.plan.length +
    (s.own.agenda.countP Action.isRespond + input.moves.length + 1) * (d.longestIssue + 1)

theorem weight_beginTurn_le (e : Engine) (input : TurnInput) (s : InformationState) :
    weight e input s.beginTurn ≤ firingBound e.domain s input := by
  have hCount : s.own.agenda.countP (loads e.domain) ≤ s.own.agenda.countP Action.isRespond :=
    List.countP_mono_left fun a _ h => by cases a <;> simp_all [loads, Action.isRespond]
  have hAgenda := Nat.mul_le_mul_left (e.domain.longestIssue + 1) hCount
  have hEngagement : engagementWeight input s.own.noInputCount ≤ 1 := Bool.toNat_le _
  have hSelection := selectionWeight_le_length e.domain (input.speaker != .sys && true)
    s.own.agenda s.own.plan
  have hMoves : (e.domain.longestIssue + 3) * input.moves.length =
      (e.domain.longestIssue + 1) * input.moves.length + 2 * input.moves.length := Nat.add_mul _ 2 _
  rw [firingBound, Nat.mul_comm (s.own.agenda.countP _ + _ + 1), Nat.mul_add, Nat.mul_add]
  simp only [weight, pursuitWeight, outstanding, InformationState.beginTurn, hMoves, Bool.not_false,
    Bool.toNat_true, Bool.false_eq_true, if_false]
  omega

theorem exists_trace_length_le_firingBound (hRules : e.rules = defaultRules)
    (hReset : input.resetAgenda = false) (s : InformationState) :
    ∃ rs t, e.Trace input s.beginTurn rs t ∧ e.IsSettled input t ∧
      rs.length ≤ firingBound e.domain s input ∧
      (firingBound e.domain s input ≤ e.config.maxFirings.toNat →
        (e.run s input).outcome = .ok t.endTurn) := by
  have hAttends : Attends input s.beginTurn := fun h => by cases h
  obtain ⟨rs, t, hTrace, hSettled, hLength⟩ :=
    exists_trace_length_le_weight hRules hReset s.beginTurn hAttends
  have hBound := Nat.le_trans hLength (weight_beginTurn_le e input s)
  exact ⟨rs, t, hTrace, hSettled, hBound, fun hCeiling =>
    settle_outcome_of_trace hTrace hSettled (Nat.le_trans hBound hCeiling) 0⟩

theorem settles_within_eighteen_on_a_question :
    ∃ rs t, Console.session.engine.Trace (.user [⟨.ask ⟨Lecture.bookingRoom⟩, none⟩])
        Lecture.initialState.beginTurn rs t ∧
      Console.session.engine.IsSettled (.user [⟨.ask ⟨Lecture.bookingRoom⟩, none⟩]) t ∧
      rs.length ≤ 18 ∧
      (Console.session.engine.run Lecture.initialState
        (.user [⟨.ask ⟨Lecture.bookingRoom⟩, none⟩])).outcome = .ok t.endTurn := by
  have hReset : (TurnInput.user [⟨.ask ⟨Lecture.bookingRoom⟩, none⟩]).resetAgenda = false := rfl
  obtain ⟨rs, t, hTrace, hSettled, hLength, hOutcome⟩ :=
    exists_trace_length_le_firingBound (e := Console.session.engine) rfl hReset Lecture.initialState
  exact ⟨rs, t, hTrace, hSettled, hLength, hOutcome (by decide)⟩

end Dialogue.Engine
