import Dialogue.Console
import Dialogue.Proofs.Cycle.Acknowledging
import Dialogue.Proofs.Cycle.Comments
import Dialogue.Proofs.Cycle.Log

/-! # Responses to the user's turn

Silence, a turn that is not understood, an answer in the wrong format and an answer heard well each
have a rule that responds. A cycle responds once, with one exception: an answer may be acknowledged
and another one rejected when the question of the latter has come to the top in between.
-/

namespace Dialogue

open Update

/-- The rule responds to how the user was heard. Of silence it does only while the user is silent:
when the user takes part again, its only effect is on the count. -/
def responds (input : TurnInput) (r : Rule) : Bool :=
  r.tier == .ground && (r.name != integrateNoInput.name || input.utterance.isSilence)

/-- The responses of a cycle, in their order. -/
def CycleResult.responses (c : CycleResult) (input : TurnInput) : List Rule :=
  c.fired.filter (responds input)

namespace Engine

open InformationState

variable {e : Engine} {input : TurnInput} {s t u v : InformationState} {r : Rule}
  {rs given before after : List Rule} {deltas : List Delta}

/-- Apart from the rules that choose how to go on, those that respond are those that say
something. -/
theorem Fires.nextMoves_ne_iff_responds (h : Fires e input s r t) (hAttends : Attends input s)
    (hOther : ¬ IsChoice r) : t.nextMoves ≠ s.nextMoves ↔ responds input r = true := by
  cases h with
  | engaged hTurn hSpoken =>
    obtain ⟨rfl, -⟩ := eq_utterance_of_userTurn? hAttends hTurn
    exact iff_of_false (· rfl) (by simp [responds, hSpoken])
  | reprompted hTurn hSilence | fellBack hTurn hSilence =>
    obtain ⟨rfl, -⟩ := eq_utterance_of_userTurn? hAttends hTurn
    exact iff_of_true (by simp) (by simp [responds, integrateNoInput, hSilence])
  | unclear | misformatted | acknowledged => exact iff_of_true (by simp) rfl
  | clearAgenda | latch | request | sysAsk | usrAsk | answer | greeted | downdate | loaded |
      foundOut | consulted | copied | tookUp => exact iff_of_false (· rfl) Bool.false_ne_true
  | asked | answered | greets => exact absurd (by decide) hOther

theorem Fires.marks_eq (h : Fires e input s r t) (hSame : t.nextMoves = s.nextMoves) :
    t.turn.grounded = s.turn.grounded ∧ t.turn.acknowledged = s.turn.acknowledged := by
  cases h with
  | unclear | misformatted | acknowledged => simp at hSame
  | _ => exact ⟨rfl, rfl⟩

/-- What responses there may be from `s` on. -/
inductive Gives (e : Engine) (input : TurnInput) (s : InformationState) : List Rule → Prop where
  | nothing : Gives e input s []
  | one (r : Rule) : s.nextMoves = [] → Gives e input s [r]
  | rejection : Understood e input → s.turn.grounded = false → s.turn.acknowledged = true →
      Gives e input s [integratePartialUnderstanding]
  | both : s.nextMoves = [] →
      Gives e input s [integratePositiveGrounding, integratePartialUnderstanding]

theorem Gives.of_same (h : Gives e input t given) (hMoves : t.nextMoves = s.nextMoves)
    (hGrounded : t.turn.grounded = s.turn.grounded)
    (hAcknowledged : t.turn.acknowledged = s.turn.acknowledged) : Gives e input s given := by
  cases h with
  | nothing => exact .nothing
  | one r hNone => exact .one r (hMoves ▸ hNone)
  | rejection hClear hFresh hDone =>
    exact .rejection hClear (hGrounded ▸ hFresh) (hAcknowledged ▸ hDone)
  | both hNone => exact .both (hMoves ▸ hNone)

/-- After a response nothing more is said, but for a rejection after an acknowledgement. -/
theorem Gives.eq_nil (h : Gives e input t given) (hSaid : t.nextMoves ≠ [])
    (hOver : Understood e input → t.turn.grounded = true) : given = [] := by
  cases h with
  | nothing => rfl
  | one _ hNone | both hNone => exact absurd hNone hSaid
  | rejection hClear hFresh =>
    rw [hOver hClear] at hFresh
    cases hFresh

theorem Gives.fires (h : Gives e input t given) (hCommented : Commented e input s)
    (hAttends : Attends input s) (hOther : ¬ IsChoice r) (hFires : Fires e input s r t) :
    Gives e input s ([r].filter (responds input) ++ given) := by
  have hSays := hFires.nextMoves_ne_iff_responds hAttends hOther
  by_cases hResponds : responds input r = true
  · have hChanged := hSays.mpr hResponds
    rw [List.filter_cons_of_pos hResponds, List.filter_nil, List.singleton_append]
    cases hFires with
    | reprompted hTurn hSilence hPending | fellBack hTurn hSilence hPending =>
      obtain ⟨rfl, -⟩ := eq_utterance_of_userTurn? hAttends hTurn
      obtain rfl := h.eq_nil (by simp) fun hClear => absurd hSilence hClear.not_isSilence
      exact .one _ (hCommented.nothing_of_silence hSilence hPending).1
    | unclear hTurn hFresh hUnclear =>
      obtain ⟨rfl, -⟩ := eq_utterance_of_userTurn? hAttends hTurn
      obtain rfl := h.eq_nil (by simp) fun _ => rfl
      exact .one _ (hCommented.nothing_of_unclear hUnclear hFresh)
    | misformatted hFresh hTurn _ _ hFind =>
      have hClear := understood_of_misformatted hAttends hTurn hFind
      obtain rfl := h.eq_nil (by simp) fun _ => rfl
      rcases (hCommented.of_understood hClear hFresh).2 with ⟨hNone, -⟩ | ⟨-, hDone⟩
      · exact .one _ hNone
      · exact .rejection hClear hFresh hDone
    | acknowledged hTurn hFresh hUngrounded hSure =>
      have hClear := understood_of_sure hAttends hTurn hSure
      have hNone : s.nextMoves = [] := by
        rcases (hCommented.of_understood hClear hUngrounded).2 with ⟨hNone, -⟩ | ⟨-, hDone⟩
        · exact hNone
        · rw [hFresh] at hDone
          cases hDone
      cases h with
      | nothing => exact .one _ hNone
      | one _ hSaid | both hSaid => simp at hSaid
      | rejection => exact .both hNone
    | asked | answered | greets => exact absurd (by decide) hOther
    | _ => exact absurd rfl hChanged
  · have hSame : t.nextMoves = s.nextMoves :=
      not_ne_iff.mp fun hChanged => hResponds (hSays.mp hChanged)
    obtain ⟨hGrounded, hAcknowledged⟩ := hFires.marks_eq hSame
    rw [List.filter_cons_of_neg hResponds]
    exact h.of_same hSame hGrounded hAcknowledged

section

variable (hRules : e.rules = defaultRules)
include hRules

theorem Trace.gives (h : e.Trace input s rs t) (hOther : ∀ r ∈ rs, ¬ IsChoice r)
    (hAttends : Attends input s) (hCommented : Commented e input s) :
    Gives e input s (rs.filter (responds input)) := by
  induction h with
  | done s => exact .nothing
  | @fire s _ r _ rs hHit _ ih =>
    rw [List.forall_mem_cons] at hOther
    have hFires := fires_of_applicable? hRules hHit
    have hLater := ih hOther.2 (hAttends.fires hFires) (hCommented.fires hAttends hOther.1 hFires)
    have hGives := hLater.fires hCommented hAttends hOther.1 hFires
    rwa [← List.filter_append, List.singleton_append] at hGives

theorem Trace.subset_defaultRules (h : e.Trace input s rs t) : rs ⊆ defaultRules := by
  induction h with
  | done s => exact List.nil_subset _
  | fire hHit _ ih => exact List.cons_subset.mpr ⟨hRules ▸ mem_rules_of_applicable? hHit, ih⟩

end

theorem tier_ne_ground_of_late :
    ∀ r ∈ defaultRules, rank findPlan ≤ rank r → r.tier ≠ .ground := by
  decide +kernel

theorem Trace.length_responses (hRules : e.rules = defaultRules)
    (h : e.Trace input s.beginTurn rs t) :
    (rs.filter (responds input)).length ≤ 1 ∨
      rs.filter (responds input) = [integratePositiveGrounding, integratePartialUnderstanding] := by
  obtain ⟨taken, pursued, u, rfl, hTaken, hPursued, -, hOther, hLate⟩ := h.exists_comment hRules
  have hNone : pursued.filter (responds input) = [] := by
    rw [List.filter_eq_nil_iff]
    intro r hMem hResponds
    have hRule := hPursued.subset_defaultRules hRules hMem
    apply tier_ne_ground_of_late r hRule (hLate r hMem)
    exact beq_iff_eq.mp (Bool.and_eq_true_iff.mp hResponds).1
  have hGives := hTaken.gives hRules hOther nofun (.nothing rfl rfl rfl rfl)
  rw [List.filter_append, hNone, List.append_nil]
  generalize taken.filter (responds input) = given at hGives
  cases hGives with
  | nothing => exact .inl (Nat.zero_le _)
  | one r => exact .inl (Nat.le_refl _)
  | rejection _ _ hDone => cases hDone
  | both => exact .inr rfl

theorem Fires.acknowledged_eq (h : Fires e input s r t)
    (hOther : r ≠ integratePositiveGrounding) :
    t.turn.acknowledged = s.turn.acknowledged := by
  cases h with
  | acknowledged => exact absurd rfl hOther
  | _ => rfl

theorem Fires.grounded (h : Fires e input s r t) (hDone : s.turn.grounded = true) :
    t.turn.grounded = true := by
  cases h with
  | unclear | misformatted => rfl
  | _ => exact hDone

theorem Fires.of_acknowledging (h : Fires e input s r t)
    (hName : r.name = integratePositiveGrounding.name) :
    s.turn.acknowledged = false ∧ t.turn.acknowledged = true ∧
      t.unacknowledged = s.unacknowledged ∧ ∃ u,
        (e.context input s).intelligibleUserTurn? = some u ∧
          u.moves.any (isSureAnswer (e.context input s)) = true := by
  cases h with
  | acknowledged hTurn hFresh _ hSure =>
    refine ⟨hFresh, rfl, ?_, _, hTurn, hSure⟩
    simp [unacknowledged, InformationState.latched?, Move.isAcknowledge]
  | _ => exact absurd hName (by decide)

theorem Fires.of_rejecting (h : Fires e input s r t)
    (hName : r.name = integratePartialUnderstanding.name) (hAttends : Attends input s) :
    s.turn.grounded = false ∧ Understood e input := by
  cases h with
  | misformatted hFresh hTurn _ _ hFind =>
    exact ⟨hFresh, understood_of_misformatted hAttends hTurn hFind⟩
  | _ => exact absurd hName (by decide)

/-- No rule but the one that acknowledges can tell whether an answer has been acknowledged. -/
theorem Fires.of_unacknowledged (h : Fires e input t r u)
    (hSame : t.unacknowledged = s.unacknowledged)
    (hOther : r.name ≠ integratePositiveGrounding.name) : ∃ v, Fires e input s r v := by
  have hRule := mem_defaultRules_of_fires h
  obtain ⟨deltas, hEffect, -⟩ := h.exists_effect
  have hContext : (e.context input t).unacknowledged = (e.context input s).unacknowledged := by
    simp only [Context.unacknowledged, Engine.context, hSame]
  rw [← Context.effect_unacknowledged hRule hOther, hContext,
    Context.effect_unacknowledged hRule hOther] at hEffect
  exact ⟨_, fires_of_effect hRule hEffect⟩

section

variable (hRules : e.rules = defaultRules)
include hRules

theorem Trace.acknowledged_eq (h : e.Trace input s rs t)
    (hNever : integratePositiveGrounding ∉ rs) :
    t.turn.acknowledged = s.turn.acknowledged := by
  induction h with
  | done s => rfl
  | fire hHit _ ih =>
    rw [List.mem_cons, not_or] at hNever
    exact (ih hNever.2).trans
      ((fires_of_applicable? hRules hHit).acknowledged_eq (Ne.symm hNever.1))

theorem Trace.grounded (h : e.Trace input s rs t) (hDone : s.turn.grounded = true) :
    t.turn.grounded = true := by
  apply h.invariant (P := fun t => t.turn.grounded = true) hRules
  · intro t r u hKept hFires
    exact hFires.grounded hKept
  · exact hDone

theorem heeded_of_acknowledged
    (hHit : e.applicable? input s = some (integratePositiveGrounding, deltas)) :
    e.Heeded input.withoutReset (s.apply deltas) := by
  obtain ⟨-, hDone, hSame, -⟩ := (fires_of_applicable? hRules hHit).of_acknowledging rfl
  intro r u hFires
  have hFires := hFires.of_withoutReset
  have hOther : r.name ≠ integratePositiveGrounding.name := by
    intro hName
    rw [(hFires.of_acknowledging hName).1] at hDone
    cases hDone
  obtain ⟨v, hBefore⟩ := hFires.of_unacknowledged hSame hOther
  have hLater : rank integratePositiveGrounding < rank r := by
    apply rank_lt_of_ne (by simp [defaultRules]) (mem_defaultRules_of_fires hBefore)
    · exact rank_le_of_applicable? hRules hHit hBefore
    · rintro rfl
      exact hOther rfl
  exact hLater

theorem Heeded.rank_of_trace (hHeeded : e.Heeded input.withoutReset s)
    (h : e.Trace input s rs t) (hOpen : downdateQud ∉ rs) :
    ∀ r ∈ rs, rank r ≤ rank clearAgenda ∨ rank findPlan ≤ rank r := by
  induction h with
  | done s => simp
  | fire hHit _ ih =>
    rw [List.mem_cons, not_or] at hOpen
    have hFires := fires_of_applicable? hRules hHit
    rw [List.forall_mem_cons]
    rcases hFires.cleared_or_withoutReset with ⟨hRank, hHearing, hShared⟩ | hKept
    · exact ⟨.inl hRank, ih (hHeeded.of_same rfl hHearing (by rw [hShared])) hOpen.2⟩
    · have hLate := rank_lt_of_ne (by simp [defaultRules]) (mem_defaultRules_of_fires hKept)
        (hHeeded _ _ hKept) hOpen.1
      obtain ⟨hHearing, hShared⟩ := same_of_pursues hLate hKept
      exact ⟨.inr hLate, ih (hHeeded.of_same rfl hHearing (by rw [hShared])) hOpen.2⟩

theorem done_of_downdated (hAttends : Attends input s) (hUser : input.speaker = .usr)
    (hMoves : input.moves ≠ []) (hClear : Understood e input)
    (hSure : input.moves.any (isSureAnswer (e.context input s)) = true)
    (hHit : e.applicable? input s = some (downdateQud, deltas)) :
    s.turn.acknowledged = true ∨ s.turn.grounded = true := by
  have hFirst {r : Rule} {t : InformationState} (hFires : Fires e input s r t) :
      rank downdateQud ≤ rank r := rank_le_of_applicable? hRules hHit hFires
  cases hMark : s.turn.latched with
  | false => exact absurd (hFirst (.latch hMoves hMark)) (by decide)
  | true =>
    have hTurn : (e.context input s).intelligibleUserTurn? = some input.utterance :=
      Option.filter_eq_some_iff.mpr ⟨hAttends.userTurn? hUser hMark, hClear.intelligible⟩
    by_contra hNone
    rw [not_or, Bool.not_eq_true, Bool.not_eq_true] at hNone
    exact absurd (hFirst (.acknowledged hTurn hNone.1 hNone.2 hSure)) (by decide)

end

/-- Some answer is sure, and one is rejected once a question has been closed. -/
def RejectsLate (e : Engine) (input : TurnInput) (fired : List Rule) : Prop :=
  (∃ m ∈ input.moves, m.answered?.isSome = true ∧ e.config.acknowledge < m.certainty) ∧
    ∃ before after, fired = before ++ integratePartialUnderstanding :: after ∧
      downdateQud ∈ before

theorem any_isSureAnswer_iff : input.moves.any (isSureAnswer (e.context input s)) = true ↔
    ∃ m ∈ input.moves, m.answered?.isSome = true ∧ e.config.acknowledge < m.certainty := by
  simp only [List.any_eq_true, isSureAnswer, Bool.and_eq_true, decide_eq_true_iff]
  rfl

section

variable (hRules : e.rules = defaultRules) (h : e.Trace input s.beginTurn rs t)
include hRules h

theorem Trace.acknowledges_of_rejectsLate (hUser : input.speaker = .usr)
    (hLate : RejectsLate e input rs) : integratePositiveGrounding ∈ rs := by
  obtain ⟨hSure, before, after, rfl, hClosed⟩ := hLate
  obtain ⟨early, between, rfl⟩ := List.append_of_mem hClosed
  obtain ⟨v, hBefore, hRejects⟩ := h.exists_of_append
  obtain ⟨u, hEarly, hBetween⟩ := hBefore.exists_of_append
  by_contra hNever
  have hNotYet : u.turn.acknowledged = false := by
    apply hEarly.acknowledged_eq hRules
    intro hMem
    exact hNever (List.mem_append_left _ (List.mem_append_left _ hMem))
  cases hRejects with
  | fire hHit _ =>
    obtain ⟨hFresh, hClear⟩ :=
      (fires_of_applicable? hRules hHit).of_rejecting rfl (hBefore.attends hRules)
    have hMoves : input.moves ≠ [] := by
      obtain ⟨m, hMem, -⟩ := hSure
      exact List.ne_nil_of_mem hMem
    cases hBetween with
    | fire hHit' hRest =>
      rcases done_of_downdated hRules (hEarly.attends hRules) hUser hMoves hClear
        (any_isSureAnswer_iff.mpr hSure) hHit' with hDone | hDone
      · rw [hNotYet] at hDone
        cases hDone
      · rw [(Trace.fire hHit' hRest).grounded hRules hDone] at hFresh
        cases hFresh

theorem Trace.rejectsLate_of_acknowledges {before after : List Rule}
    (hSplit : rs = before ++ integratePartialUnderstanding :: after)
    (hBefore : integratePositiveGrounding ∈ before) : RejectsLate e input rs := by
  obtain ⟨early, between, rfl⟩ := List.append_of_mem hBefore
  rw [hSplit, List.append_assoc, List.cons_append] at h
  obtain ⟨u, hEarly, hRest⟩ := h.exists_of_append
  cases hRest with
  | fire hHit hRest =>
    constructor
    · obtain ⟨-, -, -, v, hTurn, hSure⟩ := (fires_of_applicable? hRules hHit).of_acknowledging rfl
      obtain ⟨rfl, -⟩ := eq_utterance_of_intelligibleUserTurn? (hEarly.attends hRules) hTurn
      exact any_isSureAnswer_iff.mp hSure
    · refine ⟨_, after, hSplit, ?_⟩
      by_contra hOpen
      have hNever : downdateQud ∉ between ++ [integratePartialUnderstanding] := by
        intro hMem
        rcases List.mem_append.mp hMem with hBetween | hLast
        · exact hOpen (List.mem_append_right _ (List.mem_cons_of_mem _ hBetween))
        · exact absurd (congrArg Rule.name (List.mem_singleton.mp hLast)) (by decide)
      rw [List.append_cons] at hRest
      obtain ⟨v, hUntil, -⟩ := hRest.exists_of_append
      have hRanks := (heeded_of_acknowledged hRules hHit).rank_of_trace hRules hUntil hNever
      exact absurd (hRanks _ (List.mem_append_right _ List.mem_cons_self)) (by decide)

end

theorem mem_before_of_filter {p : Rule → Bool} {r r' : Rule} (hKept : p r' = true)
    (hOther : r' ≠ r) (h : (before ++ r' :: after).filter p = [r, r']) : r ∈ before := by
  rw [List.filter_append, List.filter_cons_of_pos hKept] at h
  cases hFirst : before.filter p with
  | nil =>
    rw [hFirst] at h
    exact absurd (List.cons.inj h).1 hOther
  | cons x xs =>
    rw [hFirst] at h
    obtain rfl := (List.cons.inj h).1
    exact (List.mem_filter.mp (hFirst ▸ List.mem_cons_self)).1

theorem rejection_ne_acknowledgement :
    integratePartialUnderstanding ≠ integratePositiveGrounding := by
  intro hSame
  exact absurd (congrArg Rule.name hSame) (by decide)

theorem Trace.responses_iff (hRules : e.rules = defaultRules) (hUser : input.speaker = .usr)
    (h : e.Trace input s.beginTurn rs t) : RejectsLate e input rs ↔
      rs.filter (responds input) = [integratePositiveGrounding, integratePartialUnderstanding] := by
  constructor
  · intro hLate
    obtain ⟨-, before, after, hSplit, -⟩ := id hLate
    have hAcknowledges : integratePositiveGrounding ∈ rs.filter (responds input) :=
      List.mem_filter.mpr ⟨h.acknowledges_of_rejectsLate hRules hUser hLate, rfl⟩
    have hRejects : integratePartialUnderstanding ∈ rs.filter (responds input) :=
      List.mem_filter.mpr ⟨hSplit ▸ List.mem_append_right _ List.mem_cons_self, rfl⟩
    rcases h.length_responses hRules with hOne | hBoth
    · obtain ⟨r, hAlone⟩ := List.length_eq_one_iff.mp
        (Nat.le_antisymm hOne (List.length_pos_of_mem hRejects))
      rw [hAlone, List.mem_singleton] at hAcknowledges hRejects
      exact absurd (hRejects.trans hAcknowledges.symm) rejection_ne_acknowledgement
    · exact hBoth
  · intro hBoth
    have hMem : integratePartialUnderstanding ∈ rs.filter (responds input) := by
      rw [hBoth]
      exact .tail _ (.head _)
    obtain ⟨before, after, hSplit⟩ := List.append_of_mem (List.mem_filter.mp hMem).1
    rw [hSplit] at hBoth
    exact h.rejectsLate_of_acknowledges hRules hSplit
      (mem_before_of_filter (p := responds input) rfl rejection_ne_acknowledgement hBoth)

/-- A cycle responds to the user once, unless it acknowledges an answer and then rejects another
one. It does so exactly if some answer is sure and one is rejected once a question has been
closed. -/
theorem responds_once_iff (hRules : e.rules = defaultRules) (hUser : input.speaker = .usr)
    (hRun : (e.run s input).outcome = .ok t) :
    (((e.run s input).responses input).length ≤ 1 ↔
      ¬ RejectsLate e input (e.run s input).fired) ∧
    (RejectsLate e input (e.run s input).fired → (e.run s input).responses input =
      [integratePositiveGrounding, integratePartialUnderstanding]) := by
  obtain ⟨u, hTrace, -, -⟩ := exists_trace_of_run hRun
  have hBoth := hTrace.responses_iff hRules hUser
  refine ⟨⟨fun hOne hLate => ?_, fun hOnTime => ?_⟩, hBoth.mp⟩
  · rw [CycleResult.responses, hBoth.mp hLate] at hOne
    exact absurd hOne (by decide)
  · exact (hTrace.length_responses hRules).resolve_right fun hTwo => hOnTime (hBoth.mpr hTwo)

def asksFoodThenDay : InformationState where
  shared := { qud := [⟨Lecture.favoriteFood⟩, ⟨Lecture.bookingDay⟩] }

def pizzaOn (day : String) : TurnInput :=
  .user [⟨.answer (.full ⟨Lecture.favoriteFood, "pizza"⟩), none⟩,
    ⟨.answer (.full ⟨Lecture.bookingDay, day⟩), none⟩]

theorem pizzaOn_friday_is_acknowledged :
    ((Console.session.engine.run asksFoodThenDay (pizzaOn "friday")).responses
      (pizzaOn "friday")).length ≤ 1 ∧
    ¬ RejectsLate Console.session.engine (pizzaOn "friday")
      (Console.session.engine.run asksFoodThenDay (pizzaOn "friday")).fired := by
  have hRun : (Console.session.engine.run asksFoodThenDay (pizzaOn "friday")).outcome =
    .ok _ := rfl
  have hResponses : (Console.session.engine.run asksFoodThenDay (pizzaOn "friday")).responses
    (pizzaOn "friday") = [integratePositiveGrounding] := rfl
  have hOne : ((Console.session.engine.run asksFoodThenDay (pizzaOn "friday")).responses
      (pizzaOn "friday")).length ≤ 1 := by
    rw [hResponses]
    exact Nat.le_refl 1
  exact ⟨hOne, (responds_once_iff rfl rfl hRun).1.mp hOne⟩

/-- The food is agreed on and its question closed. Only then is the question about the day on top,
and the answer to it turns out not to be a day. -/
theorem pizzaOn_someday_is_acknowledged_and_rejected :
    (∃ t, (Console.session.engine.run asksFoodThenDay (pizzaOn "someday")).outcome = .ok t ∧
      t.nextMoves = [⟨.acknowledge Console.session.engine.config.acknowledgementText, none⟩,
        ⟨.ask ⟨Lecture.bookingDay⟩, none⟩, ⟨.inform Lecture.weekdayHint, none⟩]) ∧
    ¬ ((Console.session.engine.run asksFoodThenDay (pizzaOn "someday")).responses
      (pizzaOn "someday")).length ≤ 1 := by
  have hResponses : (Console.session.engine.run asksFoodThenDay (pizzaOn "someday")).responses
    (pizzaOn "someday") = [integratePositiveGrounding, integratePartialUnderstanding] := rfl
  refine ⟨⟨_, rfl, rfl⟩, ?_⟩
  rw [hResponses]
  decide

end Engine

end Dialogue
