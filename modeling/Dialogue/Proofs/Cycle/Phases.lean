import Dialogue.Proofs.Update.Pursuing

/-! # Phases of a cycle

A cycle first takes in what was said and comments on it, and then pursues the plan and selects a
move. Pursuit and selection change nothing that the rules before them read, so once they begin
nothing else fires.
-/

namespace Dialogue

def TurnInput.withoutReset (input : TurnInput) : TurnInput :=
  { input with resetAgenda := false }

namespace Engine

open Update

variable {e : Engine} {input : TurnInput} {s t u : InformationState} {r : Rule}
  {rs rs' : List Rule} {deltas : List Delta}

theorem Trace.preserves {P : InformationState → Prop} {Q : Rule → Prop}
    (hRules : e.rules = defaultRules)
    (hStep : ∀ s r t, P s → Q r → Fires e input s r t → P t) (h : e.Trace input s rs t)
    (hClass : ∀ r ∈ rs, Q r) (hStart : P s) : P t := by
  induction h with
  | done s => exact hStart
  | fire hHit _ ih =>
    apply ih
    · intro r hMem
      exact hClass r (List.mem_cons_of_mem _ hMem)
    · exact hStep _ _ _ hStart (hClass _ List.mem_cons_self) (fires_of_applicable? hRules hHit)

theorem Trace.invariant {P : InformationState → Prop} (hRules : e.rules = defaultRules)
    (hStep : ∀ s r t, P s → Fires e input s r t → P t) (h : e.Trace input s rs t)
    (hStart : P s) : P t := by
  apply h.preserves hRules (Q := fun _ => True) _ (fun _ _ => trivial) hStart
  intro s r t hKept _ hFires
  exact hStep s r t hKept hFires

theorem Trace.attends (hRules : e.rules = defaultRules) (h : e.Trace input s.beginTurn rs t) :
    Attends input t := by
  apply h.invariant hRules
  · intro s r t hAttends hFires
    exact hAttends.fires hFires
  · intro hLatched
    cases hLatched

theorem Trace.preserves_attending {P : InformationState → Prop} {Q : Rule → Prop}
    (hRules : e.rules = defaultRules)
    (hStep : ∀ s r t, Attends input s → P s → Q r → Fires e input s r t → P t)
    (h : e.Trace input s.beginTurn rs t) (hClass : ∀ r ∈ rs, Q r) (hStart : P s.beginTurn) :
    P t := by
  suffices hBoth : Attends input t ∧ P t from hBoth.2
  refine h.preserves (P := fun t => Attends input t ∧ P t) hRules ?_ hClass ⟨?_, hStart⟩
  · rintro s r t ⟨hAttends, hKept⟩ hQ hFires
    constructor
    · exact hAttends.fires hFires
    · exact hStep s r t hAttends hKept hQ hFires
  · intro hLatched
    cases hLatched

/-- An invariant of a cycle may also count on the priority of what fires: nothing that could have
fired comes before it. -/
theorem Trace.preserves_in_order {P : InformationState → Prop} (hRules : e.rules = defaultRules)
    (hStep : ∀ s r t, Attends input s → P s → Fires e input s r t →
      (∀ r' t', Fires e input s r' t' → rank r ≤ rank r') → P t)
    (h : e.Trace input s.beginTurn rs t) (hStart : P s.beginTurn) : Attends input t ∧ P t := by
  have hAttends : Attends input s.beginTurn := by
    intro hLatched
    cases hLatched
  generalize s.beginTurn = s' at h hStart hAttends
  induction h with
  | done s => exact ⟨hAttends, hStart⟩
  | fire hHit _ ih =>
    have hFires := fires_of_applicable? hRules hHit
    apply ih
    · apply hStep _ _ _ hAttends hStart hFires
      intro r' t' hFires'
      exact rank_le_of_applicable? hRules hHit hFires'
    · exact hAttends.fires hFires

theorem Trace.com_suffix (hRules : e.rules = defaultRules) (h : e.Trace input s rs t) :
    s.shared.com <:+ t.shared.com := by
  apply h.invariant (P := fun t => s.shared.com <:+ t.shared.com) hRules
  · intro t r u hKept hFires
    exact hKept.trans hFires.com_suffix
  · exact List.suffix_refl _

/-- A run that settles goes on from wherever it has come to. -/
theorem Trace.exists_rest (h : e.Trace input s rs t) (h' : e.Trace input s rs' u)
    (hSettled : e.IsSettled input u) : ∃ rest, rs' = rs ++ rest ∧ e.Trace input t rest u := by
  induction h generalizing rs' with
  | done s => exact ⟨rs', rfl, h'⟩
  | fire hHit _ ih =>
    cases h' with
    | done =>
      rw [IsSettled, hHit] at hSettled
      cases hSettled
    | fire hHit' hRest =>
      rw [hHit] at hHit'
      cases hHit'
      obtain ⟨rest, rfl, hRest'⟩ := ih hRest
      exact ⟨rest, rfl, hRest'⟩

/-- A cycle can be split where, for the first time, all that can fire is of a rank or after it. -/
theorem Trace.exists_split (hRules : e.rules = defaultRules) (n : Nat)
    (h : e.Trace input s rs t) : ∃ before after u, rs = before ++ after ∧
      e.Trace input s before u ∧ e.Trace input u after t ∧ (∀ r ∈ before, rank r < n) ∧
      (after = [] ∨ ∀ r t', Fires e input u r t' → n ≤ rank r) := by
  induction h with
  | done s => exact ⟨[], [], s, rfl, .done s, .done s, by simp, .inl rfl⟩
  | @fire s t r deltas rs hHit hRest ih =>
    rcases Nat.lt_or_ge (rank r) n with hEarly | hLate
    · obtain ⟨before, after, u, rfl, hBefore, hAfter, hEarlier, hLater⟩ := ih
      refine ⟨r :: before, after, u, rfl, .fire hHit hBefore, hAfter, ?_, hLater⟩
      intro r' hMem
      rcases List.mem_cons.mp hMem with rfl | hMem
      · exact hEarly
      · exact hEarlier r' hMem
    · refine ⟨[], r :: rs, s, rfl, .done s, .fire hHit hRest, by simp, .inr ?_⟩
      intro r' t' hFires
      exact Nat.le_trans hLate (rank_le_of_applicable? hRules hHit hFires)

/-- Nothing is left to take in or to comment on. -/
def Heeded (e : Engine) (input : TurnInput) (s : InformationState) : Prop :=
  ∀ r t, Fires e input s r t → rank downdateQud ≤ rank r

/-- Only pursuit and selection can fire. -/
def Pursuing (e : Engine) (input : TurnInput) (s : InformationState) : Prop :=
  ∀ r t, Fires e input s r t → rank findPlan ≤ rank r

theorem Pursuing.heeded (h : e.Pursuing input s) : e.Heeded input s := by
  intro r t hFires
  exact Nat.le_trans (by decide) (h r t hFires)

theorem userTurn?_of_hearing (h : t.hearing = s.hearing) :
    (e.context input t).userTurn? = (e.context input s).userTurn? := by
  rw [Context.userTurn?, Context.userTurn?, context_state, context_state,
    InformationState.latched?_of_hearing h]

theorem intelligibleUserTurn?_of_hearing (h : t.hearing = s.hearing) :
    (e.context input t).intelligibleUserTurn? = (e.context input s).intelligibleUserTurn? := by
  rw [Context.intelligibleUserTurn?, Context.intelligibleUserTurn?, userTurn?_of_hearing h]
  rfl

theorem findPending?_of_hearing (h : t.hearing = s.hearing) {β : Type} (f : Move → Option β) :
    (e.context input t).findPending? f = (e.context input s).findPending? f := by
  rw [Context.findPending?, Context.findPending?, context_state, context_state,
    InformationState.pendingMoves_of_hearing h]

theorem exists_fires_of_silence {u : Utterance} (hTurn : (e.context input s).userTurn? = some u)
    (hSilence : u.isSilence = true) (hPending : ∃ m ∈ s.pendingMoves, m.2.isNoInput = true) :
    ∃ t, Fires e input s integrateNoInput t :=
  ⟨_, .of_integrateNoInput (integrateNoInput_effect_of_silence hTurn hSilence hPending)⟩

theorem exists_findPending?_of_subset (hSub : t.pendingMoves ⊆ s.pendingMoves) {β : Type}
    {f : Move → Option β} {i : Nat} {b : β}
    (hFind : (e.context input t).findPending? f = some (i, b)) :
    ∃ j b', (e.context input s).findPending? f = some (j, b') := by
  obtain ⟨m, hPending, hSome⟩ := Context.exists_pending_of_findPending? hFind
  have hFound : (e.context input s).findPending? f ≠ none := by
    intro hNone
    rw [Context.findPending?_eq_none_iff.mp hNone _ (hSub hPending)] at hSome
    cases hSome
  obtain ⟨⟨j, b'⟩, hFind'⟩ := Option.ne_none_iff_exists'.mp hFound
  exact ⟨j, b', hFind'⟩

/-- What is taken in while fewer moves are pending could be taken in before, since the rest of what
was heard and the question on top are the same. -/
theorem exists_fires_of_fewer (hReset : input.resetAgenda = false)
    (hMark : t.turn.latched = s.turn.latched) (hLu : t.shared.lu = s.shared.lu)
    (hCount : t.own.noInputCount = s.own.noInputCount) (hSub : t.pendingMoves ⊆ s.pendingMoves)
    (hTop : ∀ q, t.shared.qud.head? = some q → s.shared.qud.head? = some q)
    (hFires : Fires e input t r u) (hRank : rank r < rank integrateLowConfidence) :
    ∃ u', Fires e input s r u' := by
  have hLatched : t.latched? = s.latched? := by
    rw [InformationState.latched?, InformationState.latched?, hMark, hLu]
  have hTurn : (e.context input t).userTurn? = (e.context input s).userTurn? := by
    rw [Context.userTurn?, Context.userTurn?, context_state, context_state, hLatched]
  have hClear : (e.context input t).intelligibleUserTurn? =
      (e.context input s).intelligibleUserTurn? := by
    rw [Context.intelligibleUserTurn?, Context.intelligibleUserTurn?, hTurn]
    rfl
  cases hFires with
  | clearAgenda hRequested _ => rw [hReset] at hRequested; cases hRequested
  | latch hMoves hUnlatched => exact ⟨_, .latch hMoves (hMark ▸ hUnlatched)⟩
  | request hSpoke hFind =>
    obtain ⟨j, b, hFind'⟩ := exists_findPending?_of_subset hSub hFind
    exact ⟨_, .request (hClear ▸ hSpoke) hFind'⟩
  | sysAsk hSpoke hSpeaker hFind =>
    obtain ⟨j, b, hFind'⟩ := exists_findPending?_of_subset hSub hFind
    exact ⟨_, .sysAsk (hLatched ▸ hSpoke) hSpeaker hFind'⟩
  | usrAsk hSpoke hFind =>
    obtain ⟨j, b, hFind'⟩ := exists_findPending?_of_subset hSub hFind
    exact ⟨_, .usrAsk (hClear ▸ hSpoke) hFind'⟩
  | answer hSpoke hMay hTopped hFind =>
    obtain ⟨j, b, hFind'⟩ := exists_findPending?_of_subset hSub hFind
    obtain ⟨qs', hStack⟩ :=
      List.head?_eq_some_iff.mp (hTop _ (List.head?_eq_some_iff.mpr ⟨_, hTopped⟩))
    exact ⟨_, .answer (hLatched ▸ hSpoke) hMay hStack hFind'⟩
  | greeted hFind =>
    obtain ⟨j, b, hFind'⟩ := exists_findPending?_of_subset hSub hFind
    exact ⟨_, .greeted hFind'⟩
  | engaged hSpoke hSilence hContent hSilent =>
    exact ⟨_, .engaged (hTurn ▸ hSpoke) hSilence hContent (hCount ▸ hSilent)⟩
  -- Which of the two reactions to silence it is may differ, since the question on top may be gone.
  | reprompted hSpoke hSilence hSilent | fellBack hSpoke hSilence hSilent =>
    obtain ⟨m, hMem, hNoInput⟩ := hSilent
    exact exists_fires_of_silence (hTurn ▸ hSpoke) hSilence ⟨m, hSub hMem, hNoInput⟩
  | _ => exact absurd hRank (by decide)

/-- What takes in a turn or comments on it depends on what was heard and on the question on top
alone. -/
theorem exists_fires_of_hearing (hReset : input.resetAgenda = false)
    (hSame : t.hearing = s.hearing)
    (hTop : ∀ q, t.shared.qud.head? = some q → s.shared.qud.head? = some q)
    (hFires : Fires e input t r u) (hRank : rank r < rank downdateQud) :
    ∃ u', Fires e input s r u' := by
  rcases Nat.lt_or_ge (rank r) (rank integrateLowConfidence) with hIntake | hComment
  · exact exists_fires_of_fewer hReset (congrArg Hearing.latched hSame) (congrArg Hearing.lu hSame)
      (congrArg Hearing.noInputCount hSame)
      (InformationState.pendingMoves_of_hearing hSame ▸ List.Subset.refl _) hTop hFires hIntake
  · have hComments : rank integrateLowConfidence ≤ rank r ∧ rank r < rank downdateQud :=
      ⟨hComment, hRank⟩
    have hGrounded : t.turn.grounded = s.turn.grounded := congrArg Hearing.grounded hSame
    have hAcknowledged : t.turn.acknowledged = s.turn.acknowledged :=
      congrArg Hearing.acknowledged hSame
    cases hFires with
    | unclear hSpoke hUngrounded hUnclear =>
      rw [userTurn?_of_hearing hSame] at hSpoke
      exact ⟨_, .unclear hSpoke (hGrounded ▸ hUngrounded) hUnclear⟩
    | misformatted hUngrounded hSpoke hTopped hFormat hFind =>
      rw [intelligibleUserTurn?_of_hearing hSame] at hSpoke
      rw [findPending?_of_hearing hSame] at hFind
      obtain ⟨qs', hStack⟩ :=
        List.head?_eq_some_iff.mp (hTop _ (List.head?_eq_some_iff.mpr ⟨_, hTopped⟩))
      exact ⟨_, .misformatted (hGrounded ▸ hUngrounded) hSpoke hStack hFormat hFind⟩
    | acknowledged hSpoke hFresh hUngrounded hSure =>
      rw [intelligibleUserTurn?_of_hearing hSame] at hSpoke
      exact ⟨_, .acknowledged hSpoke (hAcknowledged ▸ hFresh) (hGrounded ▸ hUngrounded) hSure⟩
    | _ => exact absurd hComments (by decide)

/-- What can no longer fire stays so, whatever becomes of the agenda, the plan and the reply. -/
theorem Heeded.quiet (hReset : input.resetAgenda = false) (h : e.Heeded input s) :
    e.Quiet input (fun q => s.shared.qud.head? = some q) s := by
  intro t hSame hTop r u hFires
  by_contra hEarly
  obtain ⟨u', hFires'⟩ :=
    exists_fires_of_hearing hReset hSame hTop hFires (Nat.lt_of_not_le hEarly)
  exact hEarly (h r u' hFires')

theorem Heeded.of_same (hReset : input.resetAgenda = false) (h : e.Heeded input s)
    (hHearing : t.hearing = s.hearing) (hQud : t.shared.qud = s.shared.qud) :
    e.Heeded input t := by
  intro r u hFires
  refine h.quiet hReset t hHearing ?_ r u hFires
  intro q hHead
  rw [← hQud]
  exact hHead

theorem Pursuing.of_same (hReset : input.resetAgenda = false) (h : e.Pursuing input s)
    (hHearing : t.hearing = s.hearing) (hQud : t.shared.qud = s.shared.qud)
    (hCom : t.shared.com = s.shared.com) : e.Pursuing input t := by
  intro r u hFires
  have hTop : TopIn (fun q => s.shared.qud.head? = some q) t := by
    intro q hHead
    rw [← hQud]
    exact hHead
  have hRank := h.heeded.quiet hReset t hHearing hTop r u hFires
  cases hFires with
  | downdate hTopped hResolved =>
    rw [hQud] at hTopped
    rw [InformationState.isResolved, hCom] at hResolved
    exact absurd (h _ _ (.downdate hTopped hResolved)) (by decide)
  | _ => revert hRank; decide

theorem same_of_pursues (hRank : rank findPlan ≤ rank r) (hFires : Fires e input s r t) :
    t.hearing = s.hearing ∧ t.shared = s.shared := by
  cases hFires with
  | loaded | foundOut | consulted | copied | asked | tookUp | answered | greets => exact ⟨rfl, rfl⟩
  | _ => exact absurd hRank (by decide)

theorem Pursuing.fires (hReset : input.resetAgenda = false) (h : e.Pursuing input s)
    (hFires : Fires e input s r t) : e.Pursuing input t := by
  obtain ⟨hHearing, hShared⟩ := same_of_pursues (h r t hFires) hFires
  exact h.of_same hReset hHearing (by rw [hShared]) (by rw [hShared])

section

variable (hRules : e.rules = defaultRules) (hReset : input.resetAgenda = false)
include hRules hReset

theorem Pursuing.trace (hPursuing : e.Pursuing input s) (h : e.Trace input s rs t) :
    ∀ r ∈ rs, rank findPlan ≤ rank r := by
  induction h with
  | done s => simp
  | fire hHit _ ih =>
    have hFires := fires_of_applicable? hRules hHit
    intro r hMem
    rcases List.mem_cons.mp hMem with rfl | hLater
    · exact hPursuing _ _ hFires
    · exact ih (hPursuing.fires hReset hFires) r hLater

theorem Trace.exists_phases (h : e.Trace input s rs t) :
    ∃ taken pursued u, rs = taken ++ pursued ∧ e.Trace input s taken u ∧
      e.Trace input u pursued t ∧ (∀ r ∈ taken, rank r < rank findPlan) ∧
      ∀ r ∈ pursued, rank findPlan ≤ rank r := by
  obtain ⟨taken, pursued, u, hSplit, hTaken, hPursued, hEarly, hLate⟩ :=
    h.exists_split hRules (rank findPlan)
  refine ⟨taken, pursued, u, hSplit, hTaken, hPursued, hEarly, ?_⟩
  rcases hLate with rfl | hPursuing
  · simp
  · exact Pursuing.trace hRules hReset hPursuing hPursued

end

theorem effect_withoutReset (hRule : r ∈ defaultRules) (hOther : r.name ≠ clearAgenda.name) :
    r.effect (e.context input.withoutReset s) = r.effect (e.context input s) := by
  cases hRule using defaultRules_cases with
  | clearAgenda => exact absurd rfl hOther
  | _ => rfl

/-- A reset may clear the agenda in between, and all else is as without it. -/
theorem Fires.cleared_or_withoutReset (h : Fires e input s r t) :
    rank r ≤ rank Update.clearAgenda ∧ t.hearing = s.hearing ∧ t.shared = s.shared ∨
      Fires e input.withoutReset s r t := by
  by_cases hName : r.name = Update.clearAgenda.name
  · left
    cases h with
    | clearAgenda => exact ⟨Nat.le_refl _, rfl, rfl⟩
    | _ => exact absurd hName (by decide)
  · right
    have hRule := mem_defaultRules_of_fires h
    obtain ⟨deltas, hEffect, rfl⟩ := h.exists_effect
    rw [← effect_withoutReset hRule hName] at hEffect
    exact fires_of_effect hRule hEffect

theorem Fires.of_withoutReset (h : Fires e input.withoutReset s r t) : Fires e input s r t := by
  have hOther : r.name ≠ Update.clearAgenda.name := by
    cases h with
    | clearAgenda hReset => cases hReset
    | _ => decide
  have hRule := mem_defaultRules_of_fires h
  obtain ⟨deltas, hEffect, rfl⟩ := h.exists_effect
  rw [effect_withoutReset hRule hOther] at hEffect
  exact fires_of_effect hRule hEffect

theorem Pursuing.fires_of_reset (h : e.Pursuing input.withoutReset s)
    (hFires : Fires e input s r t) :
    (rank r ≤ rank clearAgenda ∨ rank findPlan ≤ rank r) ∧ t.shared = s.shared ∧
      e.Pursuing input.withoutReset t := by
  rcases hFires.cleared_or_withoutReset with ⟨hRank, hHearing, hShared⟩ | hKept
  · exact ⟨.inl hRank, hShared, h.of_same rfl hHearing (by rw [hShared]) (by rw [hShared])⟩
  · have hRank := h _ _ hKept
    exact ⟨.inr hRank, (same_of_pursues hRank hKept).2, h.fires rfl hKept⟩

/-- Once a firing pursues the plan or selects, nothing more is taken in or commented on. -/
theorem pursuing_of_applicable? (hRules : e.rules = defaultRules)
    (h : e.applicable? input s = some (r, deltas)) (hLate : rank findPlan ≤ rank r) :
    e.Pursuing input.withoutReset s := by
  intro r' t hFires
  exact Nat.le_trans hLate (rank_le_of_applicable? hRules h hFires.of_withoutReset)

theorem Pursuing.trace_of_reset (hRules : e.rules = defaultRules)
    (hPursuing : e.Pursuing input.withoutReset s) (h : e.Trace input s rs t) :
    (∀ r ∈ rs, rank r ≤ rank clearAgenda ∨ rank findPlan ≤ rank r) ∧ t.shared = s.shared := by
  induction h with
  | done s => simp
  | fire hHit _ ih =>
    obtain ⟨hRank, hShared, hNext⟩ := hPursuing.fires_of_reset (fires_of_applicable? hRules hHit)
    obtain ⟨hRanks, hRest⟩ := ih hNext
    rw [List.forall_mem_cons]
    exact ⟨⟨hRank, hRanks⟩, hRest.trans hShared⟩

end Engine

end Dialogue
