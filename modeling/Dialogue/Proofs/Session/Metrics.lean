import Dialogue.Proofs.Cycle.Replies
import Dialogue.Proofs.Session.Recording
import Dialogue.Proofs.Telemetry.Counts

/-! # Metrics of a dialogue

What a snapshot counts, next to the calls of the dialogue and their replies, the firings of its
cycles and the versions of the state.
-/

namespace Dialogue

open Update

section

variable {e : Engine} {input : TurnInput} {s t : InformationState} {p : Event → Bool}
  {cycles : List CycleResult}

/-- What can be read off the events of a cycle, where changes of contact do not count. -/
theorem filterMap_cycleEvents {β : Type} {g : Event → Option β}
    (hContact : ∀ before after kind, g (.contactTransition before after kind) = none)
    (h : (e.run s input).outcome = .ok t) (r : Recorder) :
    (r.cycleEvents (e.run s input)).filterMap g =
      (e.run s input).firings.filterMap
        (fun f => g (.ruleFired f.rule.name f.rule.tier (UInt64.ofNat f.iteration))) ++
      (g (.turnCompleted input.speaker (UInt64.ofNat (e.run s input).firings.length)
        (UInt64.ofNat t.nextMoves.length))).toList := by
  have hFired (f : Firing) : (r.noticeEvents f.notice).filterMap g =
      (g (.ruleFired f.rule.name f.rule.tier (UInt64.ofNat f.iteration))).toList := by
    obtain ⟨contact, hEvents, hKinds⟩ := r.exists_contact f
    have hNone : contact.filterMap g = [] := by
      rw [List.filterMap_eq_nil_iff]
      intro event hMem
      obtain ⟨before, after, kind, rfl⟩ := hKinds event hMem
      exact hContact before after kind
    rw [hEvents, List.filterMap_cons, hNone]
    cases g _ <;> rfl
  rw [cycleEvents_eq h, List.filterMap_append, List.filterMap_flatMap,
    List.filterMap_eq_flatMap_toList _ (e.run s input).firings]
  simp only [hFired, List.filterMap_cons, List.filterMap_nil]
  cases g _ <;> rfl

/-- What counts completed cycles counts a cycle once or not at all. -/
theorem countP_cycleEvents (hFired : ∀ rule tier i, p (.ruleFired rule tier i) = false)
    (hContact : ∀ before after kind, p (.contactTransition before after kind) = false)
    (h : (e.run s input).outcome = .ok t) (r : Recorder) :
    (r.cycleEvents (e.run s input)).countP p =
      if p (.turnCompleted input.speaker (UInt64.ofNat (e.run s input).firings.length)
        (UInt64.ofNat t.nextMoves.length)) then 1 else 0 := by
  have hNone : ((e.run s input).firings.flatMap fun f => r.noticeEvents f.notice).countP p = 0 := by
    rw [List.countP_eq_zero]
    intro event hMem
    obtain ⟨f, -, hEvent⟩ := List.mem_flatMap.mp hMem
    obtain ⟨contact, hEvents, hKinds⟩ := r.exists_contact f
    rw [hEvents] at hEvent
    rcases List.mem_cons.mp hEvent with rfl | hRest
    · simp [hFired]
    · obtain ⟨before, after, kind, rfl⟩ := hKinds event hRest
      simp [hContact]
  rw [cycleEvents_eq h, List.countP_append, hNone, Nat.zero_add, List.countP_singleton]

namespace Engine.Ran

def total (cycles : List CycleResult) : Nat :=
  (cycles.map (·.firings.length)).sum

theorem length_filterMap_events (h : e.Ran s cycles t) {β : Type} {g : Event → Option β}
    (hFired : ∀ rule tier i, (g (.ruleFired rule tier i)).isSome)
    (hContact : ∀ before after kind, g (.contactTransition before after kind) = none)
    (hCompleted : ∀ speaker firings outgoing, g (.turnCompleted speaker firings outgoing) = none)
    (r : Recorder) : ((cycles.flatMap r.cycleEvents).filterMap g).length = total cycles := by
  induction h with
  | done s => rfl
  | @cycle s t u input cycles hRun _ ih =>
    have hEach : ((e.run s input).firings.filterMap fun f =>
        g (.ruleFired f.rule.name f.rule.tier (UInt64.ofNat f.iteration))).length =
          (e.run s input).firings.length :=
      List.filterMap_length_eq_length.mpr fun f _ => hFired _ _ _
    rw [List.flatMap_cons, List.filterMap_append, filterMap_cycleEvents hContact hRun, hCompleted,
      Option.toList_none, List.append_nil, List.length_append, hEach, ih, total, total,
      List.map_cons, List.sum_cons]

theorem filterMap_firings? (h : e.Ran s cycles t) (r : Recorder) :
    (cycles.flatMap r.cycleEvents).filterMap Event.firings? =
      (cycles.map (·.firings.length)).map UInt64.ofNat := by
  induction h with
  | done s => rfl
  | @cycle s t u input cycles hRun _ ih =>
    rw [List.flatMap_cons, List.filterMap_append,
      filterMap_cycleEvents (g := Event.firings?) (fun _ _ _ => rfl) hRun, ih]
    simp [Event.firings?]

theorem version_eq (h : e.Ran s cycles t) :
    t.version = s.version + UInt64.ofNat (total cycles) := by
  induction h with
  | done s => exact (UInt64.add_zero s.version).symm
  | @cycle s t u input cycles hRun _ ih =>
    obtain ⟨v, hRow, -, rfl, -⟩ := exists_row_of_run hRun
    have hVersion : v.endTurn.version =
        s.version + UInt64.ofNat (e.run s input).firings.length := by
      have hTrace := hRow.trace.version_eq
      rwa [List.length_map] at hTrace
    rw [ih, hVersion, UInt64.add_assoc, ← UInt64.ofNat_add, total, total, List.map_cons,
      List.sum_cons]

theorem length_firings_le (h : e.Ran s cycles t) :
    ∀ cycle ∈ cycles, cycle.firings.length ≤ e.config.maxFirings.toNat := by
  induction h with
  | done s => exact List.forall_mem_nil _
  | cycle hRun _ ih =>
    obtain ⟨-, -, -, -, hLength, -⟩ := exists_row_of_run hRun
    exact List.forall_mem_cons.mpr ⟨hLength, ih⟩

theorem total_le_length (h : e.Ran s cycles t) (r : Recorder) :
    total cycles ≤ (cycles.flatMap r.cycleEvents).length := by
  rw [← h.length_filterMap_events (g := Event.firedRule?) (fun _ _ _ => rfl) (fun _ _ _ => rfl)
    (fun _ _ _ => rfl) r]
  exact List.length_filterMap_le _ _

theorem totalFirings_eq (h : e.Ran s cycles t) (r : Recorder) :
    (Snapshot.ofEvents (cycles.flatMap r.cycleEvents)).totalFirings =
      UInt64.ofNat (total cycles) := by
  change ((cycles.flatMap r.cycleEvents).filterMap Event.firings?).foldl (· + ·) 0 = _
  rw [h.filterMap_firings?, foldl_add_ofNat, UInt64.zero_add, total]

theorem toNat_maxFirings_eq (h : e.Ran s cycles t) (r : Recorder) :
    (Snapshot.ofEvents (cycles.flatMap r.cycleEvents)).maxFirings.toNat =
      (cycles.map (·.firings.length)).foldr max 0 := by
  have hWords : ∀ n ∈ cycles.map (·.firings.length), n < UInt64.size := by
    rw [List.forall_mem_map]
    exact fun cycle hMem => Nat.lt_of_le_of_lt (h.length_firings_le cycle hMem) (UInt64.toNat_lt _)
  change (((cycles.flatMap r.cycleEvents).filterMap Event.firings?).foldl max 0).toNat = _
  rw [h.filterMap_firings?, toNat_foldl_max hWords, UInt64.toNat_zero, Nat.zero_max]

end Engine.Ran

end

namespace Reply

def speaks : Reply → Bool
  | .ok (_ :: _) => true
  | _ => false

def isSilent : Reply → Bool
  | .ok [] => true
  | _ => false

end Reply

namespace Session

variable {s s' : Session} {c : Call} {calls : List Call} {reply : List Move} {p : Event → Bool}

theorem speaker_of_isTurn (h : c.IsTurn) : c.input.speaker = .usr := by
  cases c with
  | step input => exact h.elim
  | start | hear moves => rfl

section

variable (hFired : ∀ rule tier i, p (.ruleFired rule tier i) = false)
  (hContact : ∀ before after kind, p (.contactTransition before after kind) = false)
include hFired hContact

/-- A call that returns completes a cycle of the user's, and one of the system's if it speaks. -/
theorem exists_countP_call (hTurn : c.IsTurn) (h : s.call c = (.ok reply, s')) (r : Recorder) :
    ∃ n k outgoing, ((s.callCycles c).flatMap r.cycleEvents).countP p =
      (if p (.turnCompleted .usr n (UInt64.ofNat reply.length)) then 1 else 0) +
        if reply ≠ [] ∧ p (.turnCompleted .sys k outgoing) then 1 else 0 := by
  obtain ⟨t, hRun, rfl, ⟨hNone, -, hCycles⟩ | ⟨hSome, hEcho, hCycles⟩⟩ :=
    exists_cycles_of_call hTurn h
  · have hFirst := countP_cycleEvents hFired hContact hRun r
    rw [speaker_of_isTurn hTurn] at hFirst
    refine ⟨UInt64.ofNat (s.engine.run s.state c.input).firings.length, 0, 0, ?_⟩
    rw [hCycles, List.flatMap_singleton, hFirst]
    simp [hNone]
  · have hFirst := countP_cycleEvents hFired hContact hRun r
    have hSecond := countP_cycleEvents hFired hContact hEcho r
    rw [speaker_of_isTurn hTurn] at hFirst
    refine ⟨UInt64.ofNat (s.engine.run s.state c.input).firings.length,
      UInt64.ofNat (s.engine.run t (.echo t.nextMoves)).firings.length,
      UInt64.ofNat s'.state.nextMoves.length, ?_⟩
    rw [hCycles, List.flatMap_cons, List.flatMap_singleton, List.countP_append, hFirst, hSecond]
    simp only [ne_eq, hSome, not_false_eq_true, true_and]
    rfl

end

/-- What each call adds to a count is counted over the dialogue. -/
theorem Proceeds.countP_history {q : Reply → Bool} (hRules : s.engine.rules = defaultRules)
    (hEach : ∀ (s : Session) (c : Call) (reply : List Move) (s' : Session),
      s.engine.rules = defaultRules → c.IsTurn → s.call c = (.ok reply, s') → ∀ r : Recorder,
        ((s.callCycles c).flatMap r.cycleEvents).countP p = if q (.ok reply) then 1 else 0)
    (h : s.Proceeds calls) : (s.history calls).countP p = (s.answers calls).countP q := by
  induction calls generalizing s with
  | nil => rfl
  | cons c calls ih =>
    obtain ⟨hTurn, reply, hCall, hRest⟩ := h.cons
    have hLater := ih (by rw [engine_call, hRules]) hRest
    rw [history_cons, List.countP_append, hEach s c reply _ hRules hTurn hCall, hLater, answers,
      List.countP_cons, hCall]
    exact Nat.add_comm _ _

theorem countP_userTurns (hTurn : c.IsTurn) (h : s.call c = (.ok reply, s')) (r : Recorder) :
    ((s.callCycles c).flatMap r.cycleEvents).countP (Event.isTurnOf .usr) = 1 := by
  obtain ⟨n, k, outgoing, hCount⟩ := exists_countP_call (p := Event.isTurnOf .usr)
    (fun _ _ _ => rfl) (fun _ _ _ => rfl) hTurn h r
  rw [hCount]
  simp [Event.isTurnOf]

theorem countP_echoTurns (hTurn : c.IsTurn) (h : s.call c = (.ok reply, s')) (r : Recorder) :
    ((s.callCycles c).flatMap r.cycleEvents).countP (Event.isTurnOf .sys) =
      if Reply.speaks (.ok reply) then 1 else 0 := by
  obtain ⟨n, k, outgoing, hCount⟩ := exists_countP_call (p := Event.isTurnOf .sys)
    (fun _ _ _ => rfl) (fun _ _ _ => rfl) hTurn h r
  rw [hCount]
  cases reply <;> simp [Event.isTurnOf, Reply.speaks]

theorem countP_silentReplies (hRules : s.engine.rules = defaultRules) (hTurn : c.IsTurn)
    (h : s.call c = (.ok reply, s')) (r : Recorder) :
    ((s.callCycles c).flatMap r.cycleEvents).countP Event.isSilentReply =
      if Reply.isSilent (.ok reply) then 1 else 0 := by
  obtain ⟨n, k, outgoing, hCount⟩ := exists_countP_call (p := Event.isSilentReply)
    (fun _ _ _ => rfl) (fun _ _ _ => rfl) hTurn h r
  obtain ⟨t, hRun, rfl, -⟩ := exists_cycles_of_call hTurn h
  obtain ⟨u, v, hCommented, hPursued, rfl⟩ := Engine.exists_pursued_of_run hRules hRun
  have hLength : v.endTurn.nextMoves.length ≤ 4 := hPursued.length_nextMoves_le hCommented
  rw [hCount]
  generalize v.endTurn.nextMoves = moves at hLength
  have hWord : (UInt64.ofNat moves.length).toNat = moves.length :=
    UInt64.toNat_ofNat_of_lt' (Nat.lt_of_le_of_lt hLength (by decide))
  cases moves with
  | nil => rfl
  | cons m rest =>
    have hSome : (UInt64.ofNat (m :: rest).length == 0) = false := by
      rw [beq_eq_false_iff_ne]
      intro hZero
      rw [hZero] at hWord
      cases hWord
    simp only [Event.isSilentReply, Reply.isSilent, hSome]
    rfl

theorem length_answers (s : Session) (calls : List Call) :
    (s.answers calls).length = calls.length := by
  induction calls generalizing s with
  | nil => rfl
  | cons c calls ih => rw [answers, List.length_cons, ih, List.length_cons]

/-- Of a new session whose calls all return and whose events all fit into the buffer: the counts by
rule and by tier add up to the firings, and these to the versions of the state. Every call is a turn
of the user's, with or without a reply, and every reply is a turn of the system's. The largest
number of firings is that of some cycle, and the ceiling is above it. -/
theorem metrics_add_up {domain : Domain} {database : Database} {config : Config}
    {initial : InformationState} (hNew : new domain database config initial = .ok s)
    (hProceeds : s.Proceeds calls) (hRoom : (s.history calls).length ≤ Buffer.capacity) :
    let snapshot := (s.after calls).recorder.snapshot
    (snapshot.byRule.entries.map (·.2)).sum = snapshot.totalFirings.toNat ∧
    (snapshot.byTier.map (·.2)).sum = snapshot.totalFirings.toNat ∧
    snapshot.totalFirings = (s.after calls).state.version - initial.version ∧
    snapshot.userTurns = calls.length ∧
    snapshot.echoTurns = (s.answers calls).countP Reply.speaks ∧
    snapshot.silentReplies = (s.answers calls).countP Reply.isSilent ∧
    snapshot.maxFirings.toNat = ((s.cycles calls).map (·.firings.length)).foldr max 0 ∧
    snapshot.maxFirings ≤ config.maxFirings := by
  obtain ⟨hRules, -, -, rfl, rfl⟩ := engine_of_new hNew
  have hRan := hProceeds.ran
  have hSnapshot : (s.after calls).recorder.snapshot = .ofEvents (s.history calls) := by
    have hEmpty : s.recorder.events = [] := by rw [recorder_of_new hNew]; rfl
    rw [Recorder.snapshot, events_after hEmpty, Buffer.newest_of_le hRoom]
  have hTotal : (Snapshot.ofEvents (s.history calls)).totalFirings =
      UInt64.ofNat (Engine.Ran.total (s.cycles calls)) := hRan.totalFirings_eq s.recorder
  have hMost : (Snapshot.ofEvents (s.history calls)).maxFirings.toNat =
      ((s.cycles calls).map (·.firings.length)).foldr max 0 := hRan.toNat_maxFirings_eq s.recorder
  have hByRule : ((s.history calls).filterMap Event.firedRule?).length =
      Engine.Ran.total (s.cycles calls) :=
    hRan.length_filterMap_events (fun _ _ _ => rfl) (fun _ _ _ => rfl) (fun _ _ _ => rfl) _
  have hByTier : ((s.history calls).filterMap Event.firedTier?).length =
      Engine.Ran.total (s.cycles calls) :=
    hRan.length_filterMap_events (fun _ _ _ => rfl) (fun _ _ _ => rfl) (fun _ _ _ => rfl) _
  -- Every firing is an event, and these fit into the buffer, so that the sum does not wrap around.
  have hFits : (UInt64.ofNat (Engine.Ran.total (s.cycles calls))).toNat =
      Engine.Ran.total (s.cycles calls) := by
    have hFew := Nat.le_trans (hRan.total_le_length s.recorder) hRoom
    exact UInt64.toNat_ofNat_of_lt' (Nat.lt_of_le_of_lt hFew (by decide))
  rw [hSnapshot]
  refine ⟨?_, ?_, ?_, ?_, ?_, ?_, hMost, ?_⟩
  · rw [hTotal, hFits, ← hByRule]
    exact Snapshot.sum_tally _
  · rw [hTotal, hFits, ← hByTier]
    exact (Snapshot.sum_filterMap_ne_zero _ _).trans (Snapshot.sum_count_tiers _)
  · rw [hTotal, hRan.version_eq, UInt64.add_comm, UInt64.add_sub_cancel]
  · have hTurns := hProceeds.countP_history (q := fun _ => true) hRules
      fun s c reply s' _ hTurn hCall r => countP_userTurns hTurn hCall r
    rw [List.countP_true, length_answers] at hTurns
    exact hTurns
  · exact hProceeds.countP_history hRules
      fun s c reply s' _ hTurn hCall r => countP_echoTurns hTurn hCall r
  · exact hProceeds.countP_history hRules
      fun s c reply s' hRules hTurn hCall r => countP_silentReplies hRules hTurn hCall r
  · rw [UInt64.le_iff_toNat_le, hMost]
    exact List.max_le_of_forall_le _ _ (List.forall_mem_map.mpr hRan.length_firings_le)

theorem metrics_of_talk :
    new Lecture.domain Lecture.rooms {} Lecture.initialState = .ok Console.session ∧
    Console.session.Proceeds talk ∧ (Console.session.history talk).length ≤ Buffer.capacity ∧
    let snapshot := (Console.session.after talk).recorder.snapshot
    (snapshot.byRule.entries.map (·.2)).sum = 45 ∧ (snapshot.byTier.map (·.2)).sum = 45 ∧
    snapshot.userTurns = 8 ∧ snapshot.echoTurns = 7 ∧ snapshot.silentReplies = 1 ∧
    snapshot.maxFirings.toNat = 9 := by
  have hNew : new Lecture.domain Lecture.rooms {} Lecture.initialState = .ok Console.session := rfl
  obtain ⟨hByRule, hByTier, hVersion, hUser, hEcho, hSilent, hMost, -⟩ :=
    metrics_add_up hNew proceeds_talk length_history_talk_le
  have hGrowth :
      (Console.session.after talk).state.version - Lecture.initialState.version = 45 := by
    decide +kernel
  rw [hVersion, hGrowth] at hByRule hByTier
  refine ⟨hNew, proceeds_talk, length_history_talk_le, hByRule, hByTier, hUser, ?_, ?_, ?_⟩
  · rw [hEcho]
    decide +kernel
  · rw [hSilent]
    decide +kernel
  · rw [hMost]
    decide +kernel

end Session

end Dialogue
