import Dialogue.Proofs.Cycle.Visibility
import Dialogue.Proofs.Saved.Loading
import Dialogue.Proofs.Session.Lockstep

/-! # Restoring a dialogue

A dialogue that goes on from a saved state goes on as it would have without a break. No cycle tells
apart what is loaded from what was saved.
-/

namespace Dialogue

open Update Engine

namespace Recorder

theorem observe_visible (r : Recorder) (n : Notice) : r.observe n.visible = r.observe n := by
  cases n with
  | _ => rfl

/-- The events of a cycle are told from what can be seen of it. -/
theorem observeAll_of_visible {c c' : CycleResult} (h : c.visible = c'.visible) (r : Recorder) :
    r.observeAll c.log = r.observeAll c'.log := by
  have hSeen (c : CycleResult) : r.observeAll c.visible.log = r.observeAll c.log := by
    rw [observeAll, observeAll, CycleResult.visible, List.foldl_map]
    simp only [observe_visible]
  rw [← hSeen, h, hSeen]

end Recorder

namespace Session

variable {s t : Session} {e : Engine}

/-- The sessions differ at most in what no cycle reads. -/
structure Twins (s t : Session) : Prop where
  engine : s.engine = t.engine
  recorder : s.recorder = t.recorder
  state : Alike s.state t.state

theorem Twins.step (hRules : s.engine.rules = defaultRules) (h : s.Twins t) (input : TurnInput) :
    (s.step input).1 = (t.step input).1 ∧ (s.step input).2.Twins (t.step input).2 := by
  obtain ⟨e, state, recorder⟩ := s
  obtain ⟨e', state', recorder'⟩ := t
  obtain ⟨rfl, rfl, hState⟩ := h
  have hRecorder := recorder.observeAll_of_visible (run_visible hRules hState input)
  have hEnd := endAlike_of_alike hRules hState input
  simp only [Session.step]
  generalize (e.run state input).outcome = outcome at hEnd
  generalize (e.run state' input).outcome = outcome' at hEnd
  cases hEnd with
  | refused fault => exact ⟨rfl, rfl, hRecorder, hState⟩
  | returned hAlike hMoves => exact ⟨congrArg Except.ok hMoves, rfl, hRecorder, hAlike⟩

theorem lockstep_twins :
    Lockstep (· = ·) (· = ·) fun s t => s.engine.rules = defaultRules ∧ s.Twins t := by
  constructor
  · rintro s t i _ ⟨hRules, hTwins⟩ rfl
    obtain ⟨hReply, hNext⟩ := hTwins.step hRules i
    rw [hReply]
    exact ⟨.refl (fun _ => rfl) _, (s.engine_step i).symm ▸ hRules, hNext⟩
  · rintro moves _ rfl
    rfl
  · rintro moves _ rfl
    rfl

theorem Twins.after (hRules : s.engine.rules = defaultRules) (h : s.Twins t)
    (calls : List Call) :
    s.answers calls = t.answers calls ∧ (s.after calls).Twins (t.after calls) := by
  have hCalls : List.Forall₂ (CallsAlike (· = ·)) calls calls :=
    List.forall₂_same.mpr fun c _ => .of_heard (fun _ => rfl) c
  obtain ⟨hReplies, -, hEnd⟩ := lockstep_twins.after ⟨hRules, h⟩ hCalls
  have hSame (a b : Reply) (hReply : RepliesAlike (· = ·) a b) : id a = id b := by
    cases hReply with
    | refused fault => rfl
    | returned hSaid => rw [hSaid]
  have hAnswers := map_eq_of_repliesAlike hSame hReplies
  rw [List.map_id, List.map_id] at hAnswers
  exact ⟨hAnswers, hEnd⟩

theorem alike_reloaded (s : InformationState) : Alike s s.reloaded :=
  ⟨rfl, rfl, rfl⟩

/-- Nothing else is carried over from one cycle to the next than the private state, the questions
under discussion and the commitments: cycles that start from the same ones do the same and end
alike. So a dialogue that goes on from a state saved and loaded again answers every call as it would
have otherwise, and records the same. -/
theorem runs_alike_and_resumes (hRules : e.rules = defaultRules) :
    (∀ s t input, Alike s t → (e.run s input).fired = (e.run t input).fired ∧
      EndAlike input s t (e.run s input).fired.length (e.run s input).outcome
        (e.run t input).outcome) ∧
    ∀ s : Session, s.engine = e → ∃ state, load? (save s.state) = some state ∧
      ∀ calls, s.answers calls = { s with state := state }.answers calls ∧
        (s.after calls).Twins ({ s with state := state }.after calls) := by
  constructor
  · intro s t input hAlike
    constructor
    · exact run_fired hRules hAlike input
    · exact endAlike_of_alike hRules hAlike input
  · rintro s rfl
    refine ⟨s.state.reloaded, load?_save_state s.state, fun calls => ?_⟩
    have hTwins : s.Twins { s with state := s.state.reloaded } :=
      ⟨rfl, rfl, alike_reloaded s.state⟩
    exact hTwins.after hRules calls

def dayAsked : InformationState where
  own := { plan := [.findout ⟨Lecture.bookingDay⟩] }
  shared := { qud := [⟨Lecture.bookingDay⟩] }

/-- The day is asked for, and much is left over from earlier cycles. -/
def dayAskedLater : InformationState :=
  { dayAsked with
    shared.lu := some ⟨.sys, [⟨.ask ⟨Lecture.bookingDay⟩, none⟩]⟩
    nextMoves := [⟨.ask ⟨Lecture.bookingDay⟩, none⟩]
    version := 40
    turn := { latched := true, consumed := [0], acknowledged := true, selected := true } }

def fridayAnswer : List Move :=
  [⟨.answer (.short "friday"), none⟩]

/-- What is left over does not keep the system from taking up the answer. -/
theorem friday_is_taken_up_later :
    (Console.session.engine.run dayAsked (.user fridayAnswer)).fired =
      (Console.session.engine.run dayAskedLater (.user fridayAnswer)).fired ∧
    EndAlike (.user fridayAnswer) dayAsked dayAskedLater
      (Console.session.engine.run dayAsked (.user fridayAnswer)).fired.length
      (Console.session.engine.run dayAsked (.user fridayAnswer)).outcome
      (Console.session.engine.run dayAskedLater (.user fridayAnswer)).outcome ∧
    ∃ state, load? (save dayAskedLater) = some state ∧
      (ofEngine Console.session.engine state).answers [.hear fridayAnswer] =
        [.ok [⟨.acknowledge "Okay, got it.", none⟩]] := by
  obtain ⟨hRuns, hResumes⟩ := runs_alike_and_resumes (e := Console.session.engine) rfl
  obtain ⟨hFired, hEnd⟩ := hRuns dayAsked dayAskedLater (.user fridayAnswer) ⟨rfl, rfl, rfl⟩
  obtain ⟨state, hLoad, hAnswers⟩ := hResumes (ofEngine Console.session.engine dayAskedLater) rfl
  exact ⟨hFired, hEnd, state, hLoad, (hAnswers [.hear fridayAnswer]).1.symm⟩

end Session

end Dialogue
