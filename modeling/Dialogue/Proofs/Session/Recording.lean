import Dialogue.Proofs.Session.Calls
import Dialogue.Proofs.Telemetry.Recording

/-! # What is recorded of a dialogue

A dialogue is a sequence of cycles, and its recorder holds the newest of the events of their logs.
Where every call returns, so does every cycle, and each goes on from the state the one before it
has led to.
-/

namespace Dialogue

/-- A call of the user's, and not one for a cycle of its own. -/
def Call.IsTurn : Call → Prop
  | step _ => False
  | start | hear _ => True

/-- Cycles that return, each from the state that the one before it has led to. -/
inductive Engine.Ran (e : Engine) : InformationState → List CycleResult → InformationState → Prop
  | done (s : InformationState) : Ran e s [] s
  | cycle {s t u : InformationState} {input : TurnInput} {cycles : List CycleResult} :
      (e.run s input).outcome = .ok t → Ran e t cycles u → Ran e s (e.run s input :: cycles) u

theorem Engine.Ran.append {e : Engine} {s t u : InformationState} {before after : List CycleResult}
    (h : e.Ran s before t) (h' : e.Ran t after u) : e.Ran s (before ++ after) u := by
  induction h with
  | done s => exact h'
  | cycle hRun _ ih => exact .cycle hRun (ih h')

namespace Session

variable {s s' : Session} {c : Call} {calls : List Call} {reply : List Move}

/-- A cycle on the input, and one on the reply if there is any. -/
def converseCycles (s : Session) (input : TurnInput) : List CycleResult :=
  s.engine.run s.state input ::
    match s.step input with
    | (.ok (m :: moves), s') => [s'.engine.run s'.state (.echo (m :: moves))]
    | _ => []

def callCycles (s : Session) : Call → List CycleResult
  | .step input => [s.engine.run s.state input]
  | .start => s.converseCycles (.user [])
  | .hear moves => s.converseCycles (.user moves)

def cycles (s : Session) : List Call → List CycleResult
  | [] => []
  | c :: calls => s.callCycles c ++ (s.call c).2.cycles calls

def history (s : Session) (calls : List Call) : List Event :=
  (s.cycles calls).flatMap s.recorder.cycleEvents

theorem recorder_step (s : Session) (input : TurnInput) :
    (s.step input).2.recorder = s.recorder.observeAll (s.engine.run s.state input).log := by
  rw [step]
  split <;> rfl

theorem recorder_converse (s : Session) (input : TurnInput) : (s.converse input).2.recorder =
    s.recorder.observeAll ((s.converseCycles input).flatMap (·.log)) := by
  have hFirst := s.recorder_step input
  rw [converse, converseCycles]
  split
  · next hStep => simpa [hStep] using hFirst
  · next hStep => simpa [hStep] using hFirst
  · next reply s₁ hSome hStep =>
    cases reply with
    | nil => exact absurd rfl hSome
    | cons m moves =>
      have hSecond := s₁.recorder_step (.echo (m :: moves))
      have hBoth : (s₁.step (.echo (m :: moves))).2.recorder =
          s.recorder.observeAll ((s.engine.run s.state input).log ++
            (s₁.engine.run s₁.state (.echo (m :: moves))).log) := by
        rw [hStep] at hFirst
        rw [hSecond, hFirst, Recorder.observeAll, Recorder.observeAll, Recorder.observeAll,
          List.foldl_append]
      split
      · next hEcho => simpa [hStep, hEcho] using hBoth
      · next hEcho => simpa [hStep, hEcho] using hBoth

theorem recorder_call (s : Session) (c : Call) : (s.call c).2.recorder =
    s.recorder.observeAll ((s.callCycles c).flatMap (·.log)) := by
  cases c with
  | step input => simpa [callCycles, call] using s.recorder_step input
  | start | hear moves => exact s.recorder_converse _

theorem recorder_after (s : Session) (calls : List Call) : (s.after calls).recorder =
    s.recorder.observeAll ((s.cycles calls).flatMap (·.log)) := by
  induction calls generalizing s with
  | nil => rfl
  | cons c calls ih =>
    rw [after, ih, recorder_call, cycles, List.flatMap_append, Recorder.observeAll,
      Recorder.observeAll, Recorder.observeAll, List.foldl_append]

/-- The recorder holds the newest events of the dialogue. -/
theorem events_after (hEmpty : s.recorder.events = []) (calls : List Call) :
    (s.after calls).recorder.events = Buffer.newest (s.history calls) := by
  have hRoom : s.recorder.events.length ≤ Buffer.capacity := by
    rw [hEmpty]
    exact Nat.zero_le _
  rw [recorder_after, Recorder.observeAll_eq_foldl_record, Recorder.events_foldl_record hRoom,
    hEmpty, List.nil_append, List.flatMap_assoc]
  rfl

theorem cycleEvents_call (s : Session) (c : Call) :
    (s.call c).2.recorder.cycleEvents = s.recorder.cycleEvents := by
  have hThreshold : (s.call c).2.recorder.threshold = s.recorder.threshold := by
    rw [recorder_call, Recorder.threshold_observeAll]
  funext cycle
  rw [Recorder.cycleEvents, Recorder.noticeEvents_congr hThreshold, Recorder.cycleEvents]

theorem history_cons (s : Session) (c : Call) (calls : List Call) : s.history (c :: calls) =
    (s.callCycles c).flatMap s.recorder.cycleEvents ++ (s.call c).2.history calls := by
  rw [history, history, cycles, List.flatMap_append, cycleEvents_call]

theorem exists_cycles_of_converse {input : TurnInput} (h : s.converse input = (.ok reply, s')) :
    ∃ t, (s.engine.run s.state input).outcome = .ok t ∧ t.nextMoves = reply ∧
      (reply = [] ∧ s'.state = t ∧ s.converseCycles input = [s.engine.run s.state input] ∨
        reply ≠ [] ∧ (s.engine.run t (.echo reply)).outcome = .ok s'.state ∧
          s.converseCycles input =
            [s.engine.run s.state input, s.engine.run t (.echo reply)]) := by
  obtain ⟨s₁, hStep, hEcho⟩ := exists_steps_of_converse_ok h
  obtain ⟨hRun, hMoves⟩ := outcome_of_step hStep
  refine ⟨s₁.state, hRun, hMoves, ?_⟩
  rw [converseCycles, hStep]
  cases reply with
  | nil =>
    rw [eq_of_converse_nil hStep h]
    exact .inl ⟨rfl, rfl, rfl⟩
  | cons m moves =>
    obtain ⟨reply', hEcho⟩ := hEcho (List.cons_ne_nil m moves)
    obtain ⟨hRun', -⟩ := outcome_of_step hEcho
    have hEngine := engine_of_step hStep
    rw [hEngine] at hRun'
    refine .inr ⟨List.cons_ne_nil m moves, hRun', ?_⟩
    rw [← hEngine]

/-- A call that returns runs a cycle on its input, and one on its reply unless that is empty. -/
theorem exists_cycles_of_call (hTurn : c.IsTurn) (h : s.call c = (.ok reply, s')) :
    ∃ t, (s.engine.run s.state c.input).outcome = .ok t ∧ t.nextMoves = reply ∧
      (reply = [] ∧ s'.state = t ∧ s.callCycles c = [s.engine.run s.state c.input] ∨
        reply ≠ [] ∧ (s.engine.run t (.echo reply)).outcome = .ok s'.state ∧
          s.callCycles c = [s.engine.run s.state c.input, s.engine.run t (.echo reply)]) := by
  cases c with
  | step input => exact hTurn.elim
  | start | hear moves => exact exists_cycles_of_converse h

structure Proceeds (s : Session) (calls : List Call) : Prop where
  turns : ∀ c ∈ calls, c.IsTurn
  returns : ∀ answer ∈ s.answers calls, ∃ reply, answer = .ok reply

theorem Proceeds.cons (h : s.Proceeds (c :: calls)) : c.IsTurn ∧
    ∃ reply, s.call c = (.ok reply, (s.call c).2) ∧ (s.call c).2.Proceeds calls := by
  refine ⟨h.turns c List.mem_cons_self, ?_⟩
  obtain ⟨reply, hReply⟩ := h.returns _ List.mem_cons_self
  refine ⟨reply, by rw [← hReply], ?_, ?_⟩
  · exact fun c' hMem => h.turns c' (List.mem_cons_of_mem _ hMem)
  · exact fun answer hMem => h.returns answer (List.mem_cons_of_mem _ hMem)

theorem ran_of_call (hTurn : c.IsTurn) (h : s.call c = (.ok reply, s')) :
    s.engine.Ran s.state (s.callCycles c) s'.state := by
  obtain ⟨t, hRun, -, ⟨-, hState, hCycles⟩ | ⟨-, hEcho, hCycles⟩⟩ := exists_cycles_of_call hTurn h
  · rw [hCycles, hState]
    exact .cycle hRun (.done t)
  · rw [hCycles]
    exact .cycle hRun (.cycle hEcho (.done _))

theorem Proceeds.ran (h : s.Proceeds calls) :
    s.engine.Ran s.state (s.cycles calls) (s.after calls).state := by
  induction calls generalizing s with
  | nil => exact .done s.state
  | cons c calls ih =>
    obtain ⟨hTurn, reply, hCall, hRest⟩ := h.cons
    have hLater := ih hRest
    rw [engine_call] at hLater
    exact (ran_of_call hTurn hCall).append hLater

theorem recorder_of_new {domain : Domain} {database : Database} {config : Config}
    {initial : InformationState} (h : new domain database config initial = .ok s) :
    s.recorder = { threshold := config.escalation } := by
  rw [new, Engine.new] at h
  split at h
  · cases h
    rfl
  · cases h

/-- A talk about the room: the user answers after one silent turn, and not at all in the end. -/
def talk : List Call :=
  [.start, .hear [⟨.greet, none⟩], .hear [⟨.ask ⟨Lecture.bookingRoom⟩, none⟩],
    .hear [⟨.noInput, none⟩], .hear [⟨.answer (.short "friday"), none⟩], .hear [⟨.noInput, none⟩],
    .hear [⟨.noInput, none⟩], .hear [⟨.noInput, none⟩]]

theorem proceeds_talk : Console.session.Proceeds talk where
  turns := by simp [talk, Call.IsTurn]
  returns answer hMem := by
    have hAll : (Console.session.answers talk).all (·.isOk) = true := by decide +kernel
    have hOk := List.all_eq_true.mp hAll answer hMem
    cases answer with
    | error fault => cases hOk
    | ok reply => exact ⟨reply, rfl⟩

theorem length_history_talk_le : (Console.session.history talk).length ≤ Buffer.capacity := by
  decide +kernel

end Session

end Dialogue
