import Dialogue.Proofs.Cycle.Phases
import Dialogue.Proofs.Session.Refusals

/-! # Dialogues of any calls

A dialogue is any sequence of calls, those that are refused included. What no cycle puts an end to
lasts through all of it.
-/

namespace Dialogue

open Update

/-- What no cycle of the engine puts an end to. -/
structure Engine.Lasting (e : Engine) (P : InformationState → Prop) : Prop where
  begins : ∀ s, P s → P s.beginTurn
  fires : ∀ input s r t, P s → Fires e input s r t → P t
  ends : ∀ s, P s → P s.endTurn

namespace Session

open Engine

variable {s : Session} {P : InformationState → Prop}

def after (s : Session) : List Call → Session
  | [] => s
  | c :: calls => (s.call c).2.after calls

def answers (s : Session) : List Call → List Reply
  | [] => []
  | c :: calls => (s.call c).1 :: (s.call c).2.answers calls

theorem hearAll_eq_after (s : Session) (turns : List (List Move)) :
    s.hearAll turns = s.after (turns.map .hear) := by
  induction turns generalizing s with
  | nil => rfl
  | cons moves turns ih => exact ih _

theorem outcome_of_step {s' : Session} {input : TurnInput} {reply : List Move}
    (h : s.step input = (.ok reply, s')) :
    (s.engine.run s.state input).outcome = .ok s'.state ∧ s'.state.nextMoves = reply := by
  rw [step] at h
  split at h
  · next t hRun =>
    cases h
    exact ⟨hRun, rfl⟩
  · cases h

theorem exists_step_of_call {s' : Session} {c : Call} {reply : List Move}
    (h : s.call c = (.ok reply, s')) : ∃ s₁, s.step c.input = (.ok reply, s₁) := by
  cases c with
  | step input => exact ⟨s', h⟩
  | start | hear moves =>
    obtain ⟨s₁, hStep, -⟩ := exists_steps_of_converse_ok h
    exact ⟨s₁, hStep⟩

theorem engine_call (s : Session) (c : Call) : (s.call c).2.engine = s.engine := by
  cases c with
  | step input => exact s.engine_step input
  | start | hear moves => exact s.engine_converse _

theorem engine_after (s : Session) (calls : List Call) : (s.after calls).engine = s.engine := by
  induction calls generalizing s with
  | nil => rfl
  | cons c calls ih => rw [after, ih, engine_call]

theorem engine_hearAll (s : Session) (turns : List (List Move)) :
    (s.hearAll turns).engine = s.engine := by
  rw [hearAll_eq_after, engine_after]

section

variable (hRules : s.engine.rules = defaultRules) (hLasting : s.engine.Lasting P)
  (hStart : P s.state)
include hRules hLasting hStart

theorem lasts_of_step (input : TurnInput) : P (s.step input).2.state := by
  cases hReply : s.step input with
  | mk result s₁ =>
    cases result with
    | error fault => rwa [state_of_step_error hReply]
    | ok reply =>
      obtain ⟨rs, t, hTrace, -, -, hState, -⟩ := exists_trace_of_step hReply
      rw [hState]
      apply hLasting.ends
      exact hTrace.invariant hRules (hLasting.fires input) (hLasting.begins _ hStart)

theorem lasts_of_converse (input : TurnInput) : P (s.converse input).2.state := by
  have hFirst := lasts_of_step hRules hLasting hStart input
  have hEngine := s.engine_step input
  rw [converse]
  split
  · next hStep => rwa [hStep] at hFirst
  · next hStep => rwa [hStep] at hFirst
  · next reply s₁ _ hStep =>
    rw [hStep] at hFirst hEngine
    have hSecond := lasts_of_step (hEngine ▸ hRules) (hEngine ▸ hLasting) hFirst (.echo reply)
    split
    · next hEcho => rwa [hEcho] at hSecond
    · next hEcho => rwa [hEcho] at hSecond

theorem lasts_of_call (c : Call) : P (s.call c).2.state := by
  cases c with
  | step input => exact lasts_of_step hRules hLasting hStart input
  | start | hear moves => exact lasts_of_converse hRules hLasting hStart _

theorem lasts_after (calls : List Call) : P (s.after calls).state := by
  induction calls generalizing s with
  | nil => exact hStart
  | cons c calls ih =>
    have hEngine := s.engine_call c
    apply ih
    · rw [hEngine, hRules]
    · rw [hEngine]
      exact hLasting
    · exact lasts_of_call hRules hLasting hStart c

theorem lasts_of_hearAll (turns : List (List Move)) : P (s.hearAll turns).state := by
  rw [hearAll_eq_after]
  exact lasts_after hRules hLasting hStart _

end

end Session

end Dialogue
