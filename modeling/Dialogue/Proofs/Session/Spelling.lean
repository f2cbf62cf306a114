import Dialogue.Proofs.Cycle.Reading
import Dialogue.Proofs.Session.Lockstep

/-! # Dialogues that read the same

Two dialogues that differ in nothing but the spelling of values go the same way. What is said in
them differs in nothing else either, and the same is believed at each point.
-/

namespace Dialogue

open Update

namespace Reading

variable {g : Reading} {e : Engine}

def call (g : Reading) : Call → Call
  | .step i => .step (g.input i)
  | .start => .start
  | .hear moves => .hear (moves.map g.move)

def Hears (g : Reading) (i i' : TurnInput) : Prop :=
  g.input i = g.input i'

def Says (g : Reading) (moves moves' : List Move) : Prop :=
  moves.map g.move = moves'.map g.move

theorem hears_input (i : TurnInput) : g.Hears i (g.input i) := by
  simp [Hears, input, Function.comp_def]

theorem callsAlike_call (c : Call) : Session.CallsAlike g.Hears c (g.call c) := by
  cases c with
  | step i => exact .step (hears_input i)
  | start => exact .start rfl
  | hear moves => exact .hear (hears_input (.user moves))

theorem lasting_apart (hBlind : g.Blind e.domain e.database) : e.Lasting g.Apart := by
  constructor
  · exact fun _ h => h
  · exact fun _ _ _ _ h hFires => h.fires hBlind hFires
  · exact fun _ h => h

end Reading

namespace Session

variable {g : Reading} {s t : Session}

/-- The sessions run the same engine, blind to how values are spelled, and their states are read the
same. -/
structure ReadsAs (g : Reading) (s t : Session) : Prop where
  engine : s.engine = t.engine
  state : g.state s.state = g.state t.state
  apart : g.Apart s.state
  rules : s.engine.rules = defaultRules
  blind : g.Blind s.engine.domain s.engine.database

theorem ReadsAs.step (h : ReadsAs g s t) {i i' : TurnInput} (hHears : g.Hears i i') :
    RepliesAlike g.Says (s.step i).1 (t.step i').1 ∧ ReadsAs g (s.step i).2 (t.step i').2 := by
  have hApart := lasts_of_step h.rules (Reading.lasting_apart h.blind) h.apart i
  obtain ⟨e, state, recorder⟩ := s
  obtain ⟨e', state', recorder'⟩ := t
  obtain ⟨rfl, hState, hStart, hRules, hBlind⟩ := h
  have hRun := Reading.run_read hRules hBlind hHears hStart hState
  simp only [Session.step] at hApart ⊢
  generalize (e.run state i).outcome = outcome at hRun hApart
  generalize (e.run state' i').outcome = outcome' at hRun
  rcases Reading.same_or_read hRun with ⟨fault, rfl, rfl⟩ | ⟨u, v, rfl, rfl, hSame⟩
  · exact ⟨.refused fault, rfl, hState, hApart, hRules, hBlind⟩
  · have hSaid : g.Says u.nextMoves v.nextMoves := congrArg InformationState.nextMoves hSame
    exact ⟨.returned hSaid, rfl, hSame, hApart, hRules, hBlind⟩

theorem lockstep_readsAs (g : Reading) : Lockstep g.Says g.Hears (ReadsAs g) := by
  constructor
  · intro s t i i' h hHears
    exact h.step hHears
  · intro moves moves' hSaid
    rw [Reading.Hears, Reading.input, Reading.input, TurnInput.echo, TurnInput.echo, hSaid]
  · intro moves moves' hSaid
    rw [← List.map_eq_nil_iff (f := g.move), hSaid, List.map_eq_nil_iff]

/-- A dialogue and the same one spelled differently say the same, turn by turn, but for the
spelling. -/
theorem ReadsAs.after (h : ReadsAs g s t) (calls : List Call) :
    List.Forall₂ (RepliesAlike g.Says) (s.answers calls) (t.answers (calls.map g.call)) ∧
      ReadsAs g (s.after calls) (t.after (calls.map g.call)) := by
  have hCalls : List.Forall₂ (CallsAlike g.Hears) calls (calls.map g.call) :=
    List.forall₂_map_right_iff.mpr (List.forall₂_same.mpr fun c _ => Reading.callsAlike_call c)
  exact (lockstep_readsAs g).after h hCalls

end Session

end Dialogue
