import Dialogue.Proofs.Cycle.Counting
import Dialogue.Proofs.Update.Taking

/-! # Comments on the user's turn

Before a cycle pursues the plan it says what there is to say of the user's turn: of silence, of a
turn that was not understood, of an answer. The marks of the turn keep each from being said twice.
-/

namespace Dialogue.Engine

open Update InformationState

variable {e : Engine} {input : TurnInput} {s t : InformationState} {r : Rule} {rs : List Rule}
  {m : Move}

def askFor (top : Option Question) : List Move :=
  top.toList.map fun q => ⟨.ask q, none⟩

/-- The silence of this cycle has been dealt with. -/
structure Counted (input : TurnInput) (s : InformationState) : Prop where
  silence : input.utterance.isSilence = true
  latched : s.turn.latched = true
  pending : ∀ m ∈ s.pendingMoves, m.2.isNoInput = false

structure Understood (e : Engine) (input : TurnInput) : Prop where
  intelligible : input.utterance.isIntelligible e.config.lowConfidence = true
  spoken : input.utterance.isSilence = false

theorem Understood.not_isSilence (h : Understood e input) :
    input.utterance.isSilence ≠ true := by
  rw [h.spoken]
  exact Bool.false_ne_true

/-- What has been said of the user's turn so far, with the marks that keep from saying more. -/
inductive Commented (e : Engine) (input : TurnInput) (s : InformationState) : Prop where
  | nothing : s.nextMoves = [] → s.turn.grounded = false → s.turn.acknowledged = false →
      s.turn.selected = false → Commented e input s
  | reprompted (top : Option Question) : Counted input s →
      s.nextMoves = ⟨.noInput, none⟩ :: askFor top → s.turn.selected = true → Commented e input s
  | assumed (p : Proposition) : Counted input s → e.domain.default? p.predicate = some p →
      p ∈ s.shared.com → s.nextMoves = [⟨.answer (.full p), none⟩] → s.turn.selected = false →
      Commented e input s
  | clarified (top : Option Question) :
      input.utterance.isIntelligible e.config.lowConfidence = false →
      s.nextMoves = askFor top ++ [⟨.inform e.config.clarificationText, none⟩] →
      s.turn.grounded = true → s.turn.selected = true → Commented e input s
  | acknowledged : Understood e input →
      s.nextMoves = [⟨.acknowledge e.config.acknowledgementText, none⟩] →
      s.turn.grounded = false → s.turn.acknowledged = true → s.turn.selected = false →
      Commented e input s
  | hinted (acks : List Move) (q : Question) (f : Format) : Understood e input →
      e.domain.formats.get? q.predicate = some f →
      acks = [] ∨ acks = [⟨.acknowledge e.config.acknowledgementText, none⟩] →
      s.nextMoves = acks ++ [⟨.ask q, none⟩, ⟨.inform f.hint, none⟩] →
      s.turn.grounded = true → s.turn.selected = true → Commented e input s

/-- The rule turns an action into a move. -/
def IsChoice (r : Rule) : Prop :=
  r.name ∈ [selectAsk, selectAnswer, selectOther].map (·.name)

instance (r : Rule) : Decidable (IsChoice r) :=
  inferInstanceAs (Decidable (r.name ∈ _))

theorem isIntelligible_of_isSilence {u : Utterance} (threshold : Float32)
    (h : u.isSilence = true) : u.isIntelligible threshold = true := by
  rw [Utterance.isSilence, Bool.and_eq_true, List.all_eq_true] at h
  rw [Utterance.isIntelligible, Bool.not_eq_true', List.any_eq_false]
  intro m hMem
  rw [Move.isUnclear, h.2 m hMem]
  exact Bool.false_ne_true

theorem isSilence_eq_false_of_answered {u : Utterance} {a : Answer} (hMem : m ∈ u.moves)
    (hAnswered : m.answered? = some a) : u.isSilence = false := by
  rw [Bool.eq_false_iff]
  intro hSilence
  rw [Utterance.isSilence, Bool.and_eq_true, List.all_eq_true] at hSilence
  have hSilent := hSilence.2 m hMem
  rw [isNoInput_of_answered hAnswered] at hSilent
  cases hSilent

section

variable (hAttends : Attends input s)
include hAttends

theorem eq_utterance_of_intelligibleUserTurn? {u : Utterance}
    (h : (e.context input s).intelligibleUserTurn? = some u) :
    u = input.utterance ∧ input.utterance.isIntelligible e.config.lowConfidence = true := by
  obtain ⟨hTurn, hClear⟩ := Option.filter_eq_some_iff.mp h
  obtain ⟨rfl, -⟩ := eq_utterance_of_userTurn? hAttends hTurn
  exact ⟨rfl, hClear⟩

theorem isSilence_eq_false_of_pending {x : Nat × Move} (hMem : x ∈ s.pendingMoves) {a : Answer}
    (hAnswered : x.2.answered? = some a) : input.utterance.isSilence = false := by
  exact isSilence_eq_false_of_answered (u := input.utterance) (hAttends.mem_moves hMem) hAnswered

theorem understood_of_misformatted {u : Utterance} {q : Question} {f : Format} {i : Nat}
    (hTurn : (e.context input s).intelligibleUserTurn? = some u)
    (hFind : (e.context input s).findPending? (misformatted? (e.context input s) q f) =
      some (i, ())) : Understood e input := by
  obtain ⟨-, hClear⟩ := eq_utterance_of_intelligibleUserTurn? hAttends hTurn
  obtain ⟨m, hPending, hFormat⟩ := Context.exists_pending_of_findPending? hFind
  obtain ⟨a, hAnswered, -⟩ := Option.bind_eq_some_iff.mp hFormat
  exact ⟨hClear, isSilence_eq_false_of_pending hAttends hPending hAnswered⟩

theorem understood_of_sure {u : Utterance}
    (hTurn : (e.context input s).intelligibleUserTurn? = some u)
    (hSure : u.moves.any (isSureAnswer (e.context input s)) = true) : Understood e input := by
  obtain ⟨rfl, hClear⟩ := eq_utterance_of_intelligibleUserTurn? hAttends hTurn
  obtain ⟨m, hMem, hAnswer⟩ := List.any_eq_true.mp hSure
  obtain ⟨a, hAnswered⟩ := Option.isSome_iff_exists.mp (Bool.and_eq_true_iff.mp hAnswer).1
  exact ⟨hClear, isSilence_eq_false_of_answered hMem hAnswered⟩

end

theorem Counted.of_consumed (h : Counted input s) (hLatched : t.turn.latched = s.turn.latched)
    (hLu : t.shared.lu = s.shared.lu) (hConsumed : s.turn.consumed ⊆ t.turn.consumed) :
    Counted input t := by
  constructor
  · exact h.silence
  · exact hLatched.trans h.latched
  · intro m hMem
    exact h.pending m (pendingMoves_subset hLatched hLu hConsumed hMem)

theorem counted_of_consumedSilence (hSilence : input.utterance.isSilence = true)
    (hMark : s.turn.latched = true) (hLatched : t.turn.latched = s.turn.latched)
    (hLu : t.shared.lu = s.shared.lu) (hConsumed : t.turn.consumed = s.consumedSilence) :
    Counted input t := by
  constructor
  · exact hSilence
  · exact hLatched.trans hMark
  · intro m hMem
    rw [pendingMoves_eq_filter
      (fun i => s.pendingMoves.any fun m => m.2.isNoInput && m.1 == i) hLatched hLu fun i => by
        rw [hConsumed, mem_consumedSilence]] at hMem
    obtain ⟨hOld, hKept⟩ := List.mem_filter.mp hMem
    rw [Bool.not_eq_true', List.any_eq_false] at hKept
    simpa using hKept m hOld

namespace Commented

theorem of_same (h : Commented e input s)
    (hSame : t.nextMoves = s.nextMoves ∧ t.turn.grounded = s.turn.grounded ∧
      t.turn.acknowledged = s.turn.acknowledged ∧ t.turn.selected = s.turn.selected)
    (hCounted : Counted input s → Counted input t) (hCom : s.shared.com ⊆ t.shared.com) :
    Commented e input t := by
  obtain ⟨hMoves, hGrounded, hAcknowledged, hSelected⟩ := hSame
  cases h with
  | nothing hNone hFresh hUnacknowledged hOpen =>
    exact .nothing (hMoves.trans hNone) (hGrounded.trans hFresh)
      (hAcknowledged.trans hUnacknowledged) (hSelected.trans hOpen)
  | reprompted top hDone hSaid hOver =>
    exact .reprompted top (hCounted hDone) (hMoves.trans hSaid) (hSelected.trans hOver)
  | assumed p hDone hDefault hMem hSaid hOpen =>
    exact .assumed p (hCounted hDone) hDefault (hCom hMem) (hMoves.trans hSaid)
      (hSelected.trans hOpen)
  | clarified top hUnclear hSaid hDone hOver =>
    exact .clarified top hUnclear (hMoves.trans hSaid) (hGrounded.trans hDone)
      (hSelected.trans hOver)
  | acknowledged hClear hSaid hFresh hDone hOpen =>
    exact .acknowledged hClear (hMoves.trans hSaid) (hGrounded.trans hFresh)
      (hAcknowledged.trans hDone) (hSelected.trans hOpen)
  | hinted acks q f hClear hFormat hAcks hSaid hDone hOver =>
    exact .hinted acks q f hClear hFormat hAcks (hMoves.trans hSaid) (hGrounded.trans hDone)
      (hSelected.trans hOver)

theorem nothing_of_silence (h : Commented e input s)
    (hSilence : input.utterance.isSilence = true)
    (hPending : ∃ m ∈ s.pendingMoves, m.2.isNoInput = true) :
    s.nextMoves = [] ∧ s.turn.selected = false := by
  have hUncounted : ¬ Counted input s := by
    intro hCounted
    obtain ⟨m, hMem, hSilent⟩ := hPending
    rw [hCounted.pending m hMem] at hSilent
    cases hSilent
  cases h with
  | nothing hNone _ _ hOpen => exact ⟨hNone, hOpen⟩
  | reprompted _ hCounted | assumed _ hCounted => exact absurd hCounted hUncounted
  | clarified _ hUnclear =>
    rw [isIntelligible_of_isSilence _ hSilence] at hUnclear
    cases hUnclear
  | acknowledged hClear | hinted _ _ _ hClear =>
    rw [hClear.spoken] at hSilence
    cases hSilence

theorem nothing_of_unclear (h : Commented e input s)
    (hUnclear : input.utterance.isIntelligible e.config.lowConfidence = false)
    (hFresh : s.turn.grounded = false) : s.nextMoves = [] := by
  cases h with
  | nothing hNone => exact hNone
  | reprompted _ hCounted | assumed _ hCounted =>
    rw [isIntelligible_of_isSilence _ hCounted.silence] at hUnclear
    cases hUnclear
  | clarified _ _ _ hDone | hinted _ _ _ _ _ _ _ hDone =>
    rw [hDone] at hFresh
    cases hFresh
  | acknowledged hClear =>
    rw [hClear.intelligible] at hUnclear
    cases hUnclear

/-- Before an answer is rejected, one may only have been acknowledged. -/
theorem of_understood (h : Commented e input s) (hClear : Understood e input)
    (hFresh : s.turn.grounded = false) : s.turn.selected = false ∧
      (s.nextMoves = [] ∧ s.turn.acknowledged = false ∨
        s.nextMoves = [⟨.acknowledge e.config.acknowledgementText, none⟩] ∧
          s.turn.acknowledged = true) := by
  cases h with
  | nothing hNone _ hUnacknowledged hOpen => exact ⟨hOpen, .inl ⟨hNone, hUnacknowledged⟩⟩
  | reprompted _ hCounted | assumed _ hCounted =>
    exact absurd hCounted.silence hClear.not_isSilence
  | clarified _ hUnclear =>
    rw [hClear.intelligible] at hUnclear
    cases hUnclear
  | acknowledged _ hSaid _ hDone hOpen => exact ⟨hOpen, .inr ⟨hSaid, hDone⟩⟩
  | hinted _ _ _ _ _ _ _ hDone =>
    rw [hDone] at hFresh
    cases hFresh

theorem fires (h : Commented e input s) (hAttends : Attends input s) (hOther : ¬ IsChoice r)
    (hFires : Fires e input s r t) : Commented e input t := by
  cases hFires with
  -- These say nothing, and silence that was dealt with stays so.
  | clearAgenda | downdate | loaded | foundOut | consulted | copied | tookUp =>
    exact h.of_same ⟨rfl, rfl, rfl, rfl⟩ (fun hCounted => ⟨hCounted.1, hCounted.2, hCounted.3⟩)
      (List.Subset.refl _)
  | latch _ hUnlatched =>
    refine h.of_same ⟨rfl, rfl, rfl, rfl⟩ ?_ (List.Subset.refl _)
    intro hCounted
    rw [hCounted.latched] at hUnlatched
    cases hUnlatched
  | request | sysAsk | usrAsk | greeted =>
    exact h.of_same ⟨rfl, rfl, rfl, rfl⟩ (·.of_consumed rfl rfl consumed_subset_insert)
      (List.Subset.refl _)
  | answer =>
    exact h.of_same ⟨rfl, rfl, rfl, rfl⟩ (·.of_consumed rfl rfl consumed_subset_insert)
      (List.subset_cons_self _ _)
  | engaged =>
    exact h.of_same ⟨rfl, rfl, rfl, rfl⟩ (·.of_consumed rfl rfl consumed_subset_consumedSilence)
      (List.Subset.refl _)
  -- the rest say something, so what was said before has to be ruled out
  | reprompted hTurn hSilence hPending _ =>
    obtain ⟨rfl, hMark⟩ := eq_utterance_of_userTurn? hAttends hTurn
    have hNone := (h.nothing_of_silence hSilence hPending).1
    exact .reprompted s.shared.qud.head? (counted_of_consumedSilence hSilence hMark rfl rfl rfl)
      (congrArg (· ++ _) hNone) rfl
  | @fellBack _ q _ p hTurn hSilence hPending _ _ hDefault =>
    obtain ⟨rfl, hMark⟩ := eq_utterance_of_userTurn? hAttends hTurn
    obtain ⟨hNone, hOpen⟩ := h.nothing_of_silence hSilence hPending
    have hPredicate := Proposition.resolves_iff.mp (Domain.resolves_of_default? hDefault)
    exact .assumed p (counted_of_consumedSilence hSilence hMark rfl rfl rfl)
      (hPredicate ▸ hDefault) List.mem_cons_self (congrArg (· ++ _) hNone) hOpen
  | unclear hTurn hFresh hUnclear =>
    obtain ⟨rfl, -⟩ := eq_utterance_of_userTurn? hAttends hTurn
    have hNone := h.nothing_of_unclear hUnclear hFresh
    exact .clarified s.shared.qud.head? hUnclear (congrArg (· ++ _ ++ _) hNone) rfl rfl
  | @misformatted _ q _ f _ hFresh hTurn _ hFormat hFind =>
    have hClear := understood_of_misformatted hAttends hTurn hFind
    rcases (h.of_understood hClear hFresh).2 with ⟨hSaid, -⟩ | ⟨hSaid, -⟩
    · exact .hinted [] q f hClear hFormat (.inl rfl) (congrArg (· ++ _) hSaid) rfl rfl
    · exact .hinted _ q f hClear hFormat (.inr rfl) (congrArg (· ++ _) hSaid) rfl rfl
  | acknowledged hTurn hFresh hUngrounded hSure =>
    have hClear := understood_of_sure hAttends hTurn hSure
    obtain ⟨hOpen, ⟨hSaid, -⟩ | ⟨-, hAcknowledged⟩⟩ := h.of_understood hClear hUngrounded
    · exact .acknowledged hClear (congrArg (· ++ _) hSaid) hUngrounded rfl hOpen
    · rw [hAcknowledged] at hFresh
      cases hFresh
  | _ => exact absurd (by decide) hOther

end Commented

theorem not_isChoice_of_rank_lt (h : rank r < rank findPlan) : ¬ IsChoice r := by
  intro hChoice
  obtain ⟨r', hRule, hName⟩ := List.mem_map.mp hChoice
  have hLate : ∀ r ∈ [selectAsk, selectAnswer, selectOther], rank findPlan ≤ rank r := by decide
  have hRank := hLate r' hRule
  rw [rank_congr hName] at hRank
  exact absurd h (Nat.not_lt.mpr hRank)

theorem Fires.agenda_ne_nil (h : Fires e input s r t) (hChoice : IsChoice r) :
    s.own.agenda ≠ [] := by
  cases h with
  | asked _ hAgenda | answered _ hAgenda | greets _ hAgenda =>
    rw [hAgenda]
    exact List.cons_ne_nil _ _
  | _ => exact absurd hChoice (by decide)

section

variable (hRules : e.rules = defaultRules)
include hRules

theorem Trace.not_isChoice_of_reset (h : e.Trace input s rs t) (hReset : input.resetAgenda = true) :
    ∀ r ∈ rs, ¬ IsChoice r := by
  induction h with
  | done s => simp
  | fire hHit _ ih =>
    rw [List.forall_mem_cons]
    refine ⟨?_, ih⟩
    intro hChoice
    have hAgenda := (fires_of_applicable? hRules hHit).agenda_ne_nil hChoice
    have hRank := rank_le_of_applicable? hRules hHit (.clearAgenda hReset hAgenda)
    exact not_isChoice_of_rank_lt (Nat.lt_of_le_of_lt hRank (by decide)) hChoice

theorem Trace.commented (h : e.Trace input s.beginTurn rs t)
    (hOther : ∀ r ∈ rs, ¬ IsChoice r) : Commented e input t := by
  apply h.preserves_attending (Q := fun r => ¬ IsChoice r) hRules _ hOther
  · exact .nothing rfl rfl rfl rfl
  · intro s r t hAttends hCommented hOther hFires
    exact hCommented.fires hAttends hOther hFires

/-- A cycle comments on what was said before anything is chosen. -/
theorem Trace.exists_comment (h : e.Trace input s.beginTurn rs t) :
    ∃ taken pursued u, rs = taken ++ pursued ∧ e.Trace input s.beginTurn taken u ∧
      e.Trace input u pursued t ∧ Commented e input u ∧ (∀ r ∈ taken, ¬ IsChoice r) ∧
      ∀ r ∈ pursued, rank findPlan ≤ rank r := by
  cases hReset : input.resetAgenda with
  | true =>
    have hOther := h.not_isChoice_of_reset hRules hReset
    refine ⟨rs, [], t, (List.append_nil rs).symm, h, .done t, ?_, hOther, by simp⟩
    exact h.commented hRules hOther
  | false =>
    obtain ⟨taken, pursued, u, hSplit, hTaken, hPursued, hEarly, hLate⟩ :=
      h.exists_phases hRules hReset
    have hOther : ∀ r ∈ taken, ¬ IsChoice r := by
      intro r hMem
      exact not_isChoice_of_rank_lt (hEarly r hMem)
    exact ⟨taken, pursued, u, hSplit, hTaken, hPursued, hTaken.commented hRules hOther, hOther,
      hLate⟩

end

end Dialogue.Engine
