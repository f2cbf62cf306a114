import Dialogue.Proofs.Cycle.Leads

/-! # What fires first

Whatever `Fires` allows does have an effect, and of several rules that can fire the one with the
lowest rank does. So a firing is settled by ruling out the rules before it.
-/

namespace Dialogue.Engine

open Update

variable {e : Engine} {input : TurnInput} {s t u : InformationState} {r : Rule}

theorem contactSignal?_of_silence {u : Utterance} (hTurn : (e.context input s).userTurn? = some u)
    (hSilence : u.isSilence = true) (hPending : ∃ m ∈ s.pendingMoves, m.2.isNoInput = true) :
    contactSignal? (e.context input s) = some .silence := by
  have hAny : (s.pendingMoves.any fun m => m.2.isNoInput) = true := List.any_eq_true.mpr hPending
  simp [contactSignal?, hTurn, hSilence, hAny]

theorem integrateNoInput_effect_of_silence {u : Utterance}
    (hTurn : (e.context input s).userTurn? = some u) (hSilence : u.isSilence = true)
    (hPending : ∃ m ∈ s.pendingMoves, m.2.isNoInput = true) :
    integrateNoInput.effect (e.context input s) =
      some ((s.pendingMoves.filter (·.2.isNoInput)).map (fun m => .consume m.1) ++
        reactionDeltas (e.context input s)
          (react s.own.noInputCount e.config.escalation .silence)) := by
  simp [integrateNoInput, contactSignal?_of_silence hTurn hSilence hPending]

theorem selectAsk_effect_of_agenda {a : Action} {q : Question} {rest : List Action}
    (hMay : (e.context input s).maySelect = true) (hAgenda : s.own.agenda = a :: rest)
    (hAction : a = .findout q ∨ a = .raise q) :
    selectAsk.effect (e.context input s) =
      some ([.emit ⟨.ask q, none⟩, .popAgenda, .markSelected] ++
        if planRaises s.own.plan then [.popPlan] else []) := by
  rcases hAction with rfl | rfl
  · simp only [selectAsk, context_state, hMay, hAgenda, if_pos]
    rfl
  · simp only [selectAsk, context_state, hMay, hAgenda, if_pos]
    rfl

theorem Fires.exists_effect (h : Fires e input s r t) :
    ∃ deltas, r.effect (e.context input s) = some deltas ∧ s.apply deltas = t := by
  cases h with
  | clearAgenda hRequested hAgenda =>
    exact ⟨_, by simp [Update.clearAgenda, hRequested, hAgenda]; rfl, rfl⟩
  | latch hMoves hLatched => exact ⟨_, by simp [getLatestMove, hMoves, hLatched]; rfl, rfl⟩
  | request hTurn hFind => exact ⟨_, by simp [integrateUsrRequest, hTurn, hFind]; rfl, rfl⟩
  | sysAsk hLatched hSpeaker hFind =>
    have hTurn : s.latched?.filter (fun u => u.speaker == .sys) = some _ :=
      Option.filter_eq_some_iff.mpr ⟨hLatched, by simp [hSpeaker]⟩
    exact ⟨_, by simp [integrateSysAsk, hTurn, hFind]; rfl, rfl⟩
  | usrAsk hTurn hFind => exact ⟨_, by simp [integrateUsrAsk, hTurn, hFind]; rfl, rfl⟩
  | answer hLatched hMay hQud hFind =>
    have hTurn := Option.filter_eq_some_iff.mpr ⟨hLatched, hMay⟩
    exact ⟨_, by simp [integrateAnswer, hTurn, Context.qudTop?, hQud, hFind]; rfl, rfl⟩
  | greeted hFind => exact ⟨_, by simp [integrateGreet, hFind]; rfl, rfl⟩
  | engaged hTurn hSilence hContent hCount =>
    refine ⟨_, by simp [integrateNoInput, contactSignal?, hTurn, hSilence, hContent, hCount]; rfl,
      ?_⟩
    rw [react, if_neg hCount, apply_silence]
    rfl
  | reprompted hTurn hSilence hPending hFallback =>
    refine ⟨_, integrateNoInput_effect_of_silence hTurn hSilence hPending, ?_⟩
    rw [reactionDeltas_of_reprompts hFallback, apply_silence, apply_reprompt (by rfl)]
    rfl
  | @fellBack _ q _ p hTurn hSilence hPending hEscalate hQud hDefault =>
    have hFallback : fallback? (e.context input s) = some (q, p) := by
      rw [fallback?_of_top (List.head?_eq_some_iff.mpr ⟨_, hQud⟩), hDefault]
      rfl
    have hApply := apply_fallBack (s := { s with turn.consumed := s.consumedSilence })
      (c := e.context input s) (by rfl) hQud p
    refine ⟨_, integrateNoInput_effect_of_silence hTurn hSilence hPending, ?_⟩
    rw [reactionDeltas_of_fallsBack hEscalate hFallback, apply_silence, hApply]
  | unclear hTurn hGrounded hUnclear =>
    refine ⟨_, ?_, apply_clarify s e.config.clarificationText⟩
    simp [integrateLowConfidence, Context.qudTop?, hTurn, hGrounded, hUnclear]
  | misformatted hGrounded hTurn hQud hFormat hFind =>
    refine ⟨_, by simp [integratePartialUnderstanding, hGrounded, hTurn, Context.qudTop?, hQud,
      hFormat, hFind]; rfl, ?_⟩
    simp [InformationState.apply, InformationState.reduce]
  | acknowledged hTurn hAcknowledged hGrounded hSure =>
    have hEffect : integratePositiveGrounding.effect (e.context input s) =
        some [.emit ⟨.acknowledge e.config.acknowledgementText, none⟩, .markAcknowledged] := by
      simp only [integratePositiveGrounding, hTurn, hAcknowledged, hGrounded, hSure,
        context_state, context_config, Option.bind_eq_bind, Option.bind_some, Bool.not_false,
        Bool.and_true, if_pos]
    exact ⟨_, hEffect, rfl⟩
  | downdate hQud hResolved =>
    refine ⟨_, by simp [downdateQud, Context.qudTop?, hQud, hResolved]; rfl, ?_⟩
    simp [InformationState.apply, InformationState.reduce, hQud]
  | loaded hAgenda hNone hPlan =>
    refine ⟨_, by simp [findPlan, hAgenda, hNone, hPlan]; rfl, ?_⟩
    simp [InformationState.apply, InformationState.reduce, hAgenda]
  | foundOut hPlan hResolved =>
    refine ⟨_, by simp [removeFindout, hPlan, hResolved]; rfl, ?_⟩
    simp [InformationState.apply, InformationState.reduce, hPlan]
  | consulted hPlan hConsult =>
    refine ⟨_, by simp [execConsult, hPlan, hConsult]; rfl, ?_⟩
    simp [InformationState.apply, InformationState.reduce, hPlan]
  | @copied a _ hMay hAgenda hPlan hConsult =>
    have hEffect : selectFromPlan.effect (e.context input s) = some [.pushAgenda a] := by
      cases a with
      | consult q => exact absurd rfl (hConsult q)
      | _ => simp [selectFromPlan, hMay, hAgenda, hPlan]
    refine ⟨_, hEffect, ?_⟩
    simp [InformationState.apply, InformationState.reduce, hAgenda]
  | asked hMay hAgenda hAction =>
    exact ⟨_, selectAsk_effect_of_agenda hMay hAgenda hAction, apply_pose hAgenda _⟩
  | tookUp hMay hAgenda hPlan hQud hAnswer =>
    refine ⟨_, by simp [selectRespond, hMay, hAgenda, hPlan, Context.qudTop?, hQud, hAnswer]; rfl,
      ?_⟩
    simp [InformationState.apply, InformationState.reduce, hAgenda]
  | answered hMay hAgenda hAnswer =>
    refine ⟨_, by simp [selectAnswer, hMay, hAgenda, hAnswer]; rfl, ?_⟩
    simp [InformationState.apply, InformationState.reduce, hAgenda]
  | greets hMay hAgenda =>
    refine ⟨_, by simp [selectOther, hMay, hAgenda]; rfl, ?_⟩
    simp [InformationState.apply, InformationState.reduce, hAgenda]

/-- The place of a rule in the default table. -/
def rank (r : Rule) : Nat :=
  defaultRules.findIdx fun r' => r'.name == r.name

theorem rank_congr {r' : Rule} (h : r'.name = r.name) : rank r' = rank r := by
  simp only [rank, h]

theorem rank_lt_of_mem_rulesBefore :
    ∀ r ∈ defaultRules, ∀ r' ∈ rulesBefore r, rank r' < rank r := by
  decide +kernel

theorem mem_defaultRules_of_fires (h : Fires e input s r t) : r ∈ defaultRules := by
  cases h with
  | _ => simp [defaultRules]

theorem rulesBefore_append (hRule : r ∈ defaultRules) :
    ∃ after, defaultRules = rulesBefore r ++ r :: after := by
  cases hRule using defaultRules_cases with
  | _ => exact ⟨_, rfl⟩

theorem length_rulesBefore : ∀ r ∈ defaultRules, (rulesBefore r).length = rank r := by
  decide +kernel

theorem eq_of_rank_eq {r' : Rule} (hRule : r ∈ defaultRules) (hRule' : r' ∈ defaultRules)
    (h : rank r = rank r') : r = r' := by
  obtain ⟨after, hTable⟩ := rulesBefore_append hRule
  obtain ⟨after', hTable'⟩ := rulesBefore_append hRule'
  have hLength : (rulesBefore r).length = (rulesBefore r').length := by
    rw [length_rulesBefore r hRule, length_rulesBefore r' hRule', h]
  obtain ⟨-, hRest⟩ := List.append_inj (hTable.symm.trans hTable') hLength
  exact (List.cons.inj hRest).1

theorem rank_lt_of_ne {r' : Rule} (hRule : r ∈ defaultRules) (hRule' : r' ∈ defaultRules)
    (h : rank r ≤ rank r') (hOther : r ≠ r') : rank r < rank r' := by
  apply Nat.lt_of_le_of_ne h
  intro hRank
  exact hOther (eq_of_rank_eq hRule hRule' hRank)

theorem isSettled_of_not_fires (hRules : e.rules = defaultRules)
    (h : ∀ r t, ¬ Fires e input s r t) : e.IsSettled input s := by
  refine isSettled_iff.mpr fun r hRule => ?_
  refine Option.eq_none_iff_forall_ne_some.mpr fun deltas hEffect => ?_
  exact h r _ (fires_of_effect (hRules ▸ hRule) hEffect)

theorem not_fires_of_isSettled (hRules : e.rules = defaultRules) (h : e.IsSettled input s) :
    ¬ Fires e input s r t := by
  intro hFires
  obtain ⟨deltas, hEffect, _⟩ := hFires.exists_effect
  rw [isSettled_iff.mp h r (hRules ▸ mem_defaultRules_of_fires hFires)] at hEffect
  cases hEffect

theorem rank_le_of_mem_dropWhile :
    ∀ r ∈ defaultRules, ∀ r' ∈ defaultRules.dropWhile (fun r' => r'.name != r.name),
      rank r ≤ rank r' := by
  decide +kernel

/-- What is applied has the lowest rank of all that can fire. -/
theorem rank_le_of_applicable? (hRules : e.rules = defaultRules) {deltas : List Delta}
    (h : e.applicable? input s = some (r, deltas)) {r' : Rule} (hFires : Fires e input s r' t) :
    rank r ≤ rank r' := by
  have hRule : r' ∈ rulesBefore r ++ defaultRules.dropWhile fun r' => r'.name != r.name := by
    rw [rulesBefore, List.takeWhile_append_dropWhile]
    exact mem_defaultRules_of_fires hFires
  rcases List.mem_append.mp hRule with hBefore | hAfter
  · obtain ⟨deltas', hEffect, _⟩ := hFires.exists_effect
    rw [effect_eq_none_of_mem_rulesBefore hRules h hBefore] at hEffect
    cases hEffect
  · exact rank_le_of_mem_dropWhile r (hRules ▸ mem_rules_of_applicable? h) r' hAfter

theorem Fires.apply_eq {deltas : List Delta} (hFires : Fires e input s r t)
    (h : e.applicable? input s = some (r, deltas)) : s.apply deltas = t := by
  obtain ⟨deltas', hEffect, rfl⟩ := hFires.exists_effect
  rw [(applicable?_eq_some_iff.mp h).1] at hEffect
  cases hEffect
  rfl

/-- What can fire does when nothing of a lower rank can. -/
theorem Trace.of_fires (hRules : e.rules = defaultRules) (hFires : Fires e input s r t)
    (hFirst : ∀ r' t', Fires e input s r' t' → rank r ≤ rank r') : e.Trace input s [r] t := by
  obtain ⟨deltas, hEffect, rfl⟩ := hFires.exists_effect
  have hRule := mem_defaultRules_of_fires hFires
  obtain ⟨after, hTable⟩ := rulesBefore_append hRule
  refine .fire (applicable?_of_rulesBefore hRules hTable (fun r' hBefore => ?_) hEffect) (.done _)
  refine Option.eq_none_iff_forall_ne_some.mpr fun deltas' hEffect' => ?_
  have hFires' := fires_of_effect (hTable ▸ List.mem_append_left _ hBefore) hEffect'
  have hRank := hFirst r' _ hFires'
  have hLess := rank_lt_of_mem_rulesBefore r hRule r' hBefore
  omega

theorem Leads.of_fires (hRules : e.rules = defaultRules) (hFires : Fires e input s r u)
    (hEnd : SameUpToVersion t u)
    (hFirst : ∀ r' t', Fires e input s r' t' → rank r ≤ rank r') : e.Leads input 1 s t :=
  ⟨[r], u, .of_fires hRules hFires hFirst, rfl, hEnd⟩

end Dialogue.Engine
