import Dialogue.Proofs.Session.Recording
import Dialogue.Proofs.Telemetry.Changes

/-! # Contact over a dialogue

What a recorder tells of contact is what happened to it, call after call, as long as the count of
silent turns cannot reach its largest value.
-/

namespace Dialogue

open Update

/-- Nothing was heard, and the reply says so. -/
def Reply.asksAgain : Reply → Bool
  | .ok moves => moves.any (·.isNoInput)
  | .error _ => false

namespace Session

open Engine

variable {s s' : Session} {c : Call} {calls : List Call} {reply : List Move}

theorem nothingHeard_reply (hRules : s.engine.rules = defaultRules) (hTurn : c.IsTurn)
    (h : s.call c = (.ok reply, s')) :
    nothingHeard reply = if Reply.asksAgain (.ok reply) then 1 else 0 := by
  obtain ⟨t, hRun, rfl, -⟩ := exists_cycles_of_call hTurn h
  obtain ⟨u, hRow, -, rfl, -⟩ := exists_row_of_run hRun
  have hOnce := hRow.trace.nothingHeard_le hRules
  have hSome : Reply.asksAgain (.ok u.endTurn.nextMoves) = true ↔
      0 < nothingHeard u.endTurn.nextMoves := by
    rw [Reply.asksAgain, List.any_eq_true, nothingHeard, List.countP_pos_iff]
  split
  · next hAsks => exact Nat.le_antisymm hOnce (hSome.mp hAsks)
  · next hAsks => exact Nat.eq_zero_of_not_pos fun hPos => hAsks (hSome.mpr hPos)

theorem contacted_of_call (hRules : s.engine.rules = defaultRules) (hTurn : c.IsTurn)
    (h : s.call c = (.ok reply, s')) (hBelow : s.state.own.noInputCount.toNat + 1 < UInt32.size - 1)
    (recorder : Recorder) : Contacted s.engine.domain recorder s.state (s.callCycles c) s'.state
      (if Reply.asksAgain (.ok reply) then 1 else 0) := by
  have hSaid := nothingHeard_reply hRules hTurn h
  obtain ⟨t, hRun, rfl, hCycles⟩ := exists_cycles_of_call hTurn h
  have hHeard := contacted_of_run hRules hRun (Nat.lt_of_succ_lt hBelow) recorder
  rw [hSaid] at hHeard
  rcases hCycles with ⟨-, rfl, hCycles⟩ | ⟨-, hEcho, hCycles⟩
  · rw [hCycles]
    exact hHeard
  · have hCount := hHeard.count_le
    have hStill : t.own.noInputCount.toNat < UInt32.size - 1 := by
      split at hCount <;> omega
    have hOwn := contacted_of_run hRules hEcho hStill recorder
    obtain ⟨u, hRow, -, hEnd, -⟩ := exists_row_of_run hEcho
    -- The system says nothing to its own reply, and so this cycle adds nothing to the count.
    have hMoves := hRow.trace.nextMoves_of_sys hRules rfl
    have hNone : s'.state.nextMoves = [] := by
      rw [hEnd]
      exact hMoves
    rw [hNone] at hOwn
    rw [hCycles]
    exact hHeard.append hOwn

theorem Proceeds.contacted (hRules : s.engine.rules = defaultRules) (h : s.Proceeds calls)
    (hBelow : s.state.own.noInputCount.toNat + calls.length < UInt32.size - 1)
    (recorder : Recorder) : Contacted s.engine.domain recorder s.state (s.cycles calls)
      (s.after calls).state ((s.answers calls).countP Reply.asksAgain) := by
  induction calls generalizing s with
  | nil => exact .nil s.engine.domain recorder s.state
  | cons c calls ih =>
    rw [List.length_cons] at hBelow
    obtain ⟨hTurn, reply, hCall, hRest⟩ := h.cons
    have hHere := contacted_of_call hRules hTurn hCall (by omega) recorder
    have hCount := hHere.count_le
    have hLater := ih (by rw [engine_call, hRules]) hRest (by split at hCount <;> omega)
    rw [engine_call] at hLater
    rw [answers, List.countP_cons, hCall, Nat.add_comm]
    exact hHere.append hLater

/-- Of a new session whose calls all return and whose events all fit into the buffer, where the
count of silent turns cannot reach its largest value: the recorder holds the events of the logs,
with one change of contact right after each handling of silence or engagement, and nowhere else.
Its kind tells what the firing did. Contact goes from the initial one through all of these changes,
and the system is counted to ask again as often as its replies say that nothing was heard. -/
theorem contact_is_recorded {domain : Domain} {database : Database} {config : Config}
    {initial : InformationState} (hNew : new domain database config initial = .ok s)
    (hProceeds : s.Proceeds calls) (hRoom : (s.history calls).length ≤ Buffer.capacity)
    (hBelow : initial.own.noInputCount.toNat + calls.length < UInt32.size - 1) :
    let recorder := (s.after calls).recorder
    ∃ kind : Firing → ContactChange,
      recorder.events = (s.cycles calls).flatMap
        (fun cycle => cycle.log.flatMap (Notice.events config.escalation kind)) ∧
      (∀ cycle ∈ s.cycles calls, ∀ f ∈ cycle.firings, f.rule.name = integrateNoInput.name →
        Tells domain f (kind f)) ∧
      Contact.Runs (.ofCount initial.own.noInputCount config.escalation) recorder.events
        (.ofCount (s.after calls).state.own.noInputCount config.escalation) ∧
      recorder.snapshot.reprompts = (s.answers calls).countP Reply.asksAgain := by
  have hRecorder := recorder_of_new hNew
  obtain ⟨hRules, rfl, -, rfl, rfl⟩ := engine_of_new hNew
  have hContacted := hProceeds.contacted hRules hBelow s.recorder
  have hEvents : (s.after calls).recorder.events =
      (s.cycles calls).flatMap s.recorder.cycleEvents := by
    have hEmpty : s.recorder.events = [] := by rw [hRecorder]; rfl
    rw [events_after hEmpty, Buffer.newest_of_le hRoom, history]
  have hThreshold : s.recorder.threshold = s.engine.config.escalation := by rw [hRecorder]
  obtain ⟨kind, hTells, hRecorded⟩ := hContacted.exists_kind
  have hRuns := hContacted.runs
  rw [hThreshold] at hRecorded hRuns
  refine ⟨kind, ?_, hTells, ?_, ?_⟩
  · rw [hEvents, hRecorded]
  · rw [hEvents]
    exact hRuns
  · rw [Recorder.snapshot, hEvents]
    exact hContacted.reprompts

theorem contact_of_talk :
    new Lecture.domain Lecture.rooms {} Lecture.initialState = .ok Console.session ∧
    Console.session.Proceeds talk ∧ (Console.session.history talk).length ≤ Buffer.capacity ∧
    Lecture.initialState.own.noInputCount.toNat + talk.length < UInt32.size - 1 ∧
    let recorder := (Console.session.after talk).recorder
    Contact.Runs .listening recorder.events .listening ∧
    recorder.events.filterMap Event.contactChange? =
      [.reprompted, .reset, .reprompted, .reprompted, .escalated] ∧
    recorder.snapshot.reprompts = 3 := by
  have hNew : new Lecture.domain Lecture.rooms {} Lecture.initialState = .ok Console.session := rfl
  have hBelow : Lecture.initialState.own.noInputCount.toNat + talk.length < UInt32.size - 1 := by
    decide +kernel
  obtain ⟨kind, -, -, hRuns, hReprompts⟩ :=
    contact_is_recorded hNew proceeds_talk length_history_talk_le hBelow
  have hFirst : Lecture.initialState.own.noInputCount = 0 := rfl
  have hLast : (Console.session.after talk).state.own.noInputCount = 0 := by decide +kernel
  have hListening : Contact.ofCount 0 ({} : Config).escalation = .listening :=
    Contact.ofCount_eq_iff.mpr rfl
  rw [hFirst, hLast, hListening] at hRuns
  refine ⟨hNew, proceeds_talk, length_history_talk_le, hBelow, hRuns, ?_, ?_⟩
  · decide +kernel
  · rw [hReprompts]
    decide +kernel

end Session

end Dialogue
