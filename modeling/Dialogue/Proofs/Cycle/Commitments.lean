import Dialogue.Console
import Dialogue.Proofs.Cycle.SilentTurns

/-! # Where commitments come from

A cycle only adds to the commitments. In a turn that is taken in, every new one is stated by a move
of its own, in answer to a question that is under discussion or asked in the same turn. In silence
the one new commitment there may be is the default for the question on top.
-/

namespace Dialogue.Engine

open Update InformationState

variable {e : Engine} {input : TurnInput} {s t u : InformationState} {r : Rule} {rs : List Rule}
  {m : Move} {new : List Proposition} {positions : List Nat}

/-- In a cycle from `s` the question is under discussion or comes under discussion. -/
def OpenTo (input : TurnInput) (s : InformationState) (q : Question) : Prop :=
  q ∈ s.shared.qud ∨ ∃ m ∈ input.moves, m.asked? = some q

/-- The move at the position states `p` in answer to an open question, in the right format if it is
the user's. -/
def Answers (e : Engine) (input : TurnInput) (s : InformationState) (p : Proposition) (i : Nat) :
    Prop :=
  ∃ m a q, input.moves[i]? = some m ∧ m.answered? = some a ∧ OpenTo input s q ∧
    e.domain.relevant a q = true ∧ p = q.combine a ∧
    (input.speaker = .usr → e.domain.accepts p = true)

/-- The new commitments of a cycle from `s`, with the positions of the moves that state them. -/
structure Accounts (e : Engine) (input : TurnInput) (s t : InformationState)
    (new : List Proposition) (positions : List Nat) : Prop where
  com : t.shared.com = new ++ s.shared.com
  stated : List.Forall₂ (Answers e input s) new positions
  nodup : positions.Nodup
  dealt : positions ⊆ t.turn.consumed
  unlatched : t.turn.latched = false → positions = []
  isOpen : ∀ q ∈ t.shared.qud, OpenTo input s q

namespace Accounts

theorem start (e : Engine) (input : TurnInput) (s : InformationState) :
    Accounts e input s s.beginTurn [] [] := by
  constructor
  · rfl
  · exact .nil
  · exact List.nodup_nil
  · exact List.nil_subset _
  · intro _
    rfl
  · intro q hMem
    exact .inl hMem

theorem of_same (h : Accounts e input s t new positions) (hCom : u.shared.com = t.shared.com)
    (hLatched : u.turn.latched = t.turn.latched) (hConsumed : t.turn.consumed ⊆ u.turn.consumed)
    (hOpen : ∀ q ∈ u.shared.qud, q ∈ t.shared.qud ∨ ∃ m ∈ input.moves, m.asked? = some q) :
    Accounts e input s u new positions := by
  constructor
  · exact hCom.trans h.com
  · exact h.stated
  · exact h.nodup
  · exact List.Subset.trans h.dealt hConsumed
  · rw [hLatched]
    exact h.unlatched
  · intro q hMem
    rcases hOpen q hMem with hOld | hAsked
    · exact h.isOpen q hOld
    · exact .inr hAsked

/-- A move is dealt with once, so it states one commitment at most. -/
theorem answer (h : Accounts e input s t new positions) {u : Utterance} {q : Question}
    {qs : List Question} {i : Nat} {p : Proposition} (hAttends : Attends input t)
    (hLatched : t.latched? = some u) (hQud : t.shared.qud = q :: qs)
    (hFind : (e.context input t).findPending? (acceptedFact? (e.context input t) u q) =
      some (i, p)) :
    Accounts e input s { t with
      shared.com := p :: t.shared.com
      turn.consumed := t.turn.consumed.insert i
      version := t.version + 1 } (p :: new) (i :: positions) := by
  obtain rfl := hAttends.eq_utterance hLatched
  have hMark := (latched?_eq_some_iff.mp hLatched).1
  obtain ⟨m, hPending, hFact⟩ := Context.exists_pending_of_findPending? hFind
  obtain ⟨hMove, hFresh⟩ := (mem_pendingMoves_iff hLatched).mp hPending
  obtain ⟨a, hAnswered, hRelevant, hAccepts, rfl⟩ := acceptedFact?_eq_some_iff.mp hFact
  have hAnswers : Answers e input s (q.combine a) i :=
    ⟨m, a, q, hMove, hAnswered, h.isOpen q (hQud ▸ List.mem_cons_self), hRelevant, rfl, hAccepts⟩
  constructor
  · exact congrArg (q.combine a :: ·) h.com
  · exact .cons hAnswers h.stated
  · exact List.nodup_cons.mpr ⟨fun hMem => hFresh (h.dealt hMem), h.nodup⟩
  · intro j hMem
    rw [List.mem_insert_iff]
    exact (List.mem_cons.mp hMem).imp id (h.dealt ·)
  · intro hUnlatched
    rw [hMark] at hUnlatched
    cases hUnlatched
  · exact h.isOpen

end Accounts

theorem asked?_mem_of_findPending? (hAttends : Attends input s) {i : Nat} {q : Question}
    (hFind : (e.context input s).findPending? Move.asked? = some (i, q)) :
    ∃ m ∈ input.moves, m.asked? = some q := by
  obtain ⟨m, hPending, hAsked⟩ := Context.exists_pending_of_findPending? hFind
  exact ⟨m, hAttends.mem_moves hPending, hAsked⟩

theorem Accounts.fires (h : Accounts e input s t new positions) (hAttends : Attends input t)
    (hSpoken : ¬ IsSilent input) (hFires : Fires e input t r u) :
    ∃ new' positions', Accounts e input s u new' positions' := by
  cases hFires with
  | latch _ hUnlatched =>
    obtain rfl := h.unlatched hUnlatched
    refine ⟨new, [], h.com, h.stated, h.nodup, List.nil_subset _, fun _ => rfl, h.isOpen⟩
  | request | greeted | misformatted =>
    exact ⟨new, positions, h.of_same rfl rfl consumed_subset_insert fun q hMem => .inl hMem⟩
  | engaged | reprompted =>
    refine ⟨new, positions, h.of_same rfl rfl consumed_subset_consumedSilence ?_⟩
    exact fun q hMem => .inl hMem
  | sysAsk _ _ hFind | usrAsk _ hFind =>
    refine ⟨new, positions, h.of_same rfl rfl consumed_subset_insert fun q hMem => ?_⟩
    rcases List.mem_cons.mp hMem with rfl | hOld
    · exact .inr (asked?_mem_of_findPending? hAttends hFind)
    · exact .inl hOld
  | answer hLatched _ hQud hFind => exact ⟨_, _, h.answer hAttends hLatched hQud hFind⟩
  | fellBack hTurn hSilent =>
    have hUser := speaker_of_userTurn? hAttends hTurn
    obtain ⟨rfl, -⟩ := eq_utterance_of_userTurn? hAttends hTurn
    exact absurd ⟨hUser, hSilent⟩ hSpoken
  | downdate hQud =>
    refine ⟨new, positions, h.of_same rfl rfl (List.Subset.refl _) fun q hMem => .inl ?_⟩
    rw [hQud]
    exact List.mem_cons_of_mem _ hMem
  | _ => exact ⟨new, positions, h.of_same rfl rfl (List.Subset.refl _) fun q hMem => .inl hMem⟩

theorem Trace.exists_accounts (hRules : e.rules = defaultRules) (hSpoken : ¬ IsSilent input)
    (h : e.Trace input s.beginTurn rs t) : ∃ new positions, Accounts e input s t new positions := by
  apply h.preserves_attending (P := fun t => ∃ new positions, Accounts e input s t new positions)
    (Q := fun _ => True) hRules _ (fun _ _ => trivial) ⟨[], [], .start e input s⟩
  rintro t r u hAttends ⟨new, positions, hAccounts⟩ - hFires
  exact hAccounts.fires hAttends hSpoken hFires

theorem Trace.com_of_unclear (hRules : e.rules = defaultRules) (hUser : input.speaker = .usr)
    (hUnclear : input.utterance.isIntelligible e.config.lowConfidence = false)
    (h : e.Trace input s.beginTurn rs t) : t.shared.com = s.shared.com := by
  apply h.preserves_attending (P := fun t => t.shared.com = s.shared.com) (Q := fun _ => True)
    hRules _ (fun _ _ => trivial) rfl
  rintro t r u hAttends hSame - hFires
  cases hFires with
  | answer hLatched hMay =>
    obtain rfl := hAttends.eq_utterance hLatched
    have hSpeaker : (input.utterance.speaker == .sys) = false := by
      rw [TurnInput.utterance, hUser]
      rfl
    rw [mayTakeAnswers, context_config, hUnclear, hSpeaker] at hMay
    cases hMay
  | fellBack hTurn hSilent =>
    obtain ⟨rfl, -⟩ := eq_utterance_of_userTurn? hAttends hTurn
    rw [isIntelligible_of_isSilence _ hSilent] at hUnclear
    cases hUnclear
  | _ => exact hSame

/-- New commitments are put on top of the old ones. In silence there is at most the default for the
question on top, and with an unclear move there is none. Otherwise each is stated by a move of its
own. -/
theorem exists_new_commitments (hRules : e.rules = defaultRules)
    (hRun : (e.run s input).outcome = .ok t) : ∃ new, t.shared.com = new ++ s.shared.com ∧
      (input.speaker = .usr ∧ input.utterance.isSilence = true →
        new = [] ∨ ∃ q p, s.shared.qud.head? = some q ∧
          e.domain.default? q.predicate = some p ∧ new = [p]) ∧
      (input.speaker = .usr ∧ (∃ m ∈ input.moves, m.isUnclear e.config.lowConfidence = true) →
        new = []) ∧
      (¬ (input.speaker = .usr ∧ input.utterance.isSilence = true) →
        ∃ positions : List Nat, positions.Nodup ∧
          List.Forall₂ (Answers e input s) new positions) := by
  obtain ⟨rs, t, hTrace, -, -, rfl⟩ := run_outcome_eq_ok_iff.mp hRun
  have hNone {new : List Proposition} (hCom : t.shared.com = new ++ s.shared.com)
      (hUnclear : input.speaker = .usr ∧
        ∃ m ∈ input.moves, m.isUnclear e.config.lowConfidence = true) : new = [] := by
    have hAny : input.utterance.isIntelligible e.config.lowConfidence = false := by
      rw [Utterance.isIntelligible, Bool.not_eq_false', List.any_eq_true]
      exact hUnclear.2
    rw [hTrace.com_of_unclear hRules hUnclear.1 hAny] at hCom
    exact List.self_eq_append_left.mp hCom
  by_cases hSilent : IsSilent input
  · rcases hTrace.com_of_silence hRules hSilent with hCom | ⟨q, p, hTop, hDefault, hCom⟩
    · exact ⟨[], hCom, fun _ => .inl rfl, fun _ => rfl, fun hSpoken => absurd hSilent hSpoken⟩
    · refine ⟨[p], hCom, fun _ => .inr ⟨q, p, hTop, hDefault, rfl⟩, hNone hCom, ?_⟩
      exact fun hSpoken => absurd hSilent hSpoken
  · obtain ⟨new, positions, hAccounts⟩ := hTrace.exists_accounts hRules hSilent
    refine ⟨new, hAccounts.com, fun h => absurd h hSilent, hNone hAccounts.com, fun _ => ?_⟩
    exact ⟨positions, hAccounts.nodup, hAccounts.stated⟩

/-- The day is asked for on top of the course. -/
def asksDayThenCourse : InformationState where
  shared := { qud := [⟨Lecture.bookingDay⟩, ⟨Lecture.bookingCourse⟩] }

def courseAndDay : TurnInput :=
  .user [⟨.answer (.short Lecture.course), none⟩, ⟨.answer (.short "friday"), none⟩]

/-- The day is committed to first, although the user names the course first. -/
theorem courseAndDay_are_stated : ∃ t,
    (Console.session.engine.run asksDayThenCourse courseAndDay).outcome = .ok t ∧
    t.shared.com = [⟨Lecture.bookingCourse, Lecture.course⟩, ⟨Lecture.bookingDay, "friday"⟩] ∧
    ∃ positions : List Nat, positions.Nodup ∧ List.Forall₂
      (Answers Console.session.engine courseAndDay asksDayThenCourse) t.shared.com positions := by
  refine ⟨_, rfl, rfl, ?_⟩
  have hRun : (Console.session.engine.run asksDayThenCourse courseAndDay).outcome = .ok _ := rfl
  obtain ⟨new, hCom, -, -, hStated⟩ := exists_new_commitments rfl hRun
  rw [hCom, show asksDayThenCourse.shared.com = [] from rfl, List.append_nil]
  apply hStated
  rintro ⟨-, hSilence⟩
  cases hSilence

end Dialogue.Engine
