import Dialogue.Console
import Dialogue.Proofs.Session.Turns

/-! # Refused calls

A cycle that is refused leaves no trace, but a call may be refused after a cycle that was not: what
the system was about to say is then lost, and the state that it was said from as well.
-/

namespace Dialogue

/-- What may be called on a session. -/
inductive Call where
  | step (input : TurnInput)
  | start
  | hear (moves : List Move)

def Call.input : Call → TurnInput
  | step input => input
  | start => .user []
  | hear moves => .user moves

namespace Session

variable {s s' : Session} {input : TurnInput} {fault : NoProgress} {reply : List Move}

def call (s : Session) : Call → Reply × Session
  | .step input => s.step input
  | .start => s.start
  | .hear moves => s.hear moves

/-- A reply is made by rules that fire, so it comes with a new version. -/
theorem version_ne_of_reply (h : s.step input = (.ok reply, s')) (hReply : reply ≠ []) :
    s'.state.version ≠ s.state.version := by
  obtain ⟨rs, t, hTrace, -, hLength, hState, hMoves⟩ := exists_trace_of_step h
  have hFired : rs.length ≠ 0 := by
    intro hNone
    rw [List.length_eq_zero_iff] at hNone
    subst hNone
    cases hTrace
    exact hReply hMoves.symm
  have hSize : rs.length < UInt64.size := by
    have hBound := s.engine.config.maxFirings.toNat_lt
    change rs.length < 2 ^ 64
    omega
  have hVersion : t.version = s.state.version + UInt64.ofNat rs.length := hTrace.version_eq
  intro hSame
  rw [hState, show t.endTurn.version = t.version from rfl, hVersion] at hSame
  have hZero : UInt64.ofNat rs.length = 0 := UInt64.add_eq_left.mp hSame
  have hNat := congrArg UInt64.toNat hZero
  rw [UInt64.toNat_ofNat_of_lt' hSize] at hNat
  exact hFired hNat

theorem converse_refused (h : s.converse input = (.error fault, s')) :
    s'.state = (s.step input).2.state ∧
      (s'.state = s.state ↔ (s.step input).1 = .error fault) := by
  rcases exists_steps_of_converse_error h with hStep | ⟨reply, s₁, hStep, hReply, hEcho⟩
  · rw [hStep]
    simp [state_of_step_error hStep]
  · have hKept := state_of_step_error hEcho
    have hVersion := version_ne_of_reply hStep hReply
    rw [hStep]
    constructor
    · exact hKept
    · constructor
      · intro hSame
        rw [← hKept, hSame] at hVersion
        exact absurd rfl hVersion
      · intro hRefused
        cases hRefused

/-- A refused call leaves what its first cycle made of the state. That is the state before the call
exactly if the first cycle is the one that was refused. -/
theorem refused_keeps_state_iff {c : Call} (h : s.call c = (.error fault, s')) :
    s'.state = (s.step c.input).2.state ∧
      (s'.state = s.state ↔ (s.step c.input).1 = .error fault) := by
  cases c with
  | step input =>
    change s.step input = _ at h
    rw [Call.input, h]
    simp [state_of_step_error h]
  | start => exact converse_refused h
  | hear moves => exact converse_refused h

/-- A session on lectures that allows for one firing in a cycle. -/
def curt : Session :=
  .ofEngine { Console.session.engine with
    config := { maxFirings := 1 }, valid := by decide +kernel } Lecture.initialState

example : Lecture.session { maxFirings := 1 } = .ok curt := rfl

theorem curt_start_changes_state : curt.start.2.state ≠ curt.state := by
  have hStart : curt.call .start = (.error ⟨"integrate_greet", 1⟩, curt.start.2) := rfl
  intro hSame
  have hRefused := (refused_keeps_state_iff hStart).2.mp hSame
  cases hRefused

theorem curt_start_loses_greeting : ∃ s', curt.start = (.error ⟨"integrate_greet", 1⟩, s') ∧
    curt.state.own.agenda = [.greet] ∧ s'.state.own.agenda = [] :=
  ⟨_, rfl, rfl, rfl⟩

end Session

end Dialogue
