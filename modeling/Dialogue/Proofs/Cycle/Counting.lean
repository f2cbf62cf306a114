import Dialogue.Proofs.Cycle.Phases

/-! # Counting silent turns

The count of silent turns changes only when the user is silent or takes part. A cycle does not
settle before the count is back at zero for whoever takes part.
-/

namespace Dialogue.Engine

open Update

variable {e : Engine} {input : TurnInput} {s t u : InformationState} {r : Rule} {rs : List Rule}
  {moves : List Move} {n : Nat}

theorem Fires.noInputCount_eq (h : Fires e input s r t)
    (hPassive : ∀ u, (e.context input s).userTurn? = some u →
      u.isSilence = false ∧ u.hasContentfulMove = false) :
    t.own.noInputCount = s.own.noInputCount := by
  cases h with
  | engaged hTurn _ hContent =>
    rw [(hPassive _ hTurn).2] at hContent
    cases hContent
  | reprompted hTurn hSilence | fellBack hTurn hSilence =>
    rw [(hPassive _ hTurn).1] at hSilence
    cases hSilence
  | _ => rfl

theorem Trace.noInputCount_eq (hRules : e.rules = defaultRules)
    (hPassive : input.speaker = .usr →
      input.utterance.isSilence = false ∧ input.utterance.hasContentfulMove = false)
    (h : e.Trace input s.beginTurn rs t) : t.own.noInputCount = s.own.noInputCount := by
  refine h.preserves_attending (P := fun t => t.own.noInputCount = s.own.noInputCount)
    (Q := fun _ => True) hRules ?_ (fun _ _ => trivial) rfl
  intro t r u hAttends hCount _ hFires
  refine (hFires.noInputCount_eq fun v hTurn => ?_).trans hCount
  have hUser := speaker_of_userTurn? hAttends hTurn
  obtain ⟨rfl, -⟩ := eq_utterance_of_userTurn? hAttends hTurn
  exact hPassive hUser

theorem Settles.noInputCount_of_echo (hRules : e.rules = defaultRules)
    (h : e.Settles (.echo moves) n s t) : t.own.noInputCount = s.own.noInputCount := by
  obtain ⟨u, ⟨rs, u', hTrace, _, version, rfl⟩, _, rfl⟩ := h
  have hCount := hTrace.noInputCount_eq hRules (by rintro ⟨⟩)
  exact hCount

theorem latched?_of_isSettled (hRules : e.rules = defaultRules) (hAttends : Attends input s)
    (hMoves : input.moves ≠ []) (h : e.IsSettled input s) :
    s.latched? = some ⟨input.speaker, input.moves⟩ := by
  cases hMark : s.turn.latched with
  | false => exact absurd (Fires.latch hMoves hMark) (not_fires_of_isSettled hRules h)
  | true => exact hAttends.latched? hMark

theorem isSilence_of_contentful {u : Utterance} (h : u.hasContentfulMove = true) :
    u.isSilence = false := by
  obtain ⟨m, hMem, hContent⟩ := List.any_eq_true.mp h
  rw [Utterance.isSilence, Bool.and_eq_false_iff, List.all_eq_false]
  refine .inr ⟨m, hMem, ?_⟩
  rw [Move.isContentful] at hContent
  rw [Move.isNoInput]
  split at hContent <;> simp_all

/-- Whoever asks, answers or requests is not counted as silent any more. -/
theorem noInputCount_of_contentful (hRules : e.rules = defaultRules) (hAttends : Attends input s)
    (hUser : input.speaker = .usr) (hContent : input.utterance.hasContentfulMove = true)
    (hSettled : e.IsSettled input s) : s.own.noInputCount = 0 := by
  have hMoves : input.moves ≠ [] := by
    intro hNone
    rw [Utterance.hasContentfulMove, TurnInput.utterance, hNone] at hContent
    cases hContent
  obtain ⟨hMark, -⟩ :=
    InformationState.latched?_eq_some_iff.mp (latched?_of_isSettled hRules hAttends hMoves hSettled)
  have hTurn : (e.context input s).userTurn? = some input.utterance :=
    hAttends.userTurn? hUser hMark
  by_contra hCount
  exact not_fires_of_isSettled hRules hSettled
    (.engaged hTurn (isSilence_of_contentful hContent) hContent hCount)

theorem Settles.noInputCount_of_contentful (hRules : e.rules = defaultRules)
    (h : e.Settles (.user moves) n s t) (hContent : moves.any (·.isContentful) = true) :
    t.own.noInputCount = 0 := by
  obtain ⟨u, ⟨rs, u', hTrace, _, hSame⟩, hSettled, rfl⟩ := h
  have hAttends : Attends (.user moves) u := by
    obtain ⟨version, rfl⟩ := hSame
    have hAttends' := hTrace.attends hRules
    exact hAttends'
  have hCount := noInputCount_of_contentful hRules hAttends rfl hContent hSettled
  exact hCount

end Dialogue.Engine
