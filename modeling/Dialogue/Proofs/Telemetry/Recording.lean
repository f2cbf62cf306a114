import Dialogue.Proofs.Cycle.Rows
import Dialogue.Telemetry.Recorder

/-! # What a recorder holds

A recorder holds the newest of the events it was given. A cycle that returns gives it the events of
its firings, one after another, and at last that it is completed.
-/

namespace Dialogue

namespace Buffer

/-- The events that a buffer still holds after these. -/
def newest (events : List Event) : List Event :=
  events.drop (events.length - capacity)

theorem newest_of_le {events : List Event} (h : events.length ≤ capacity) :
    newest events = events := by
  rw [newest, Nat.sub_eq_zero_of_le h, List.drop_zero]

theorem length_newest_le (events : List Event) : (newest events).length ≤ capacity := by
  rw [newest, List.length_drop]
  omega

theorem newest_append (before after : List Event) :
    newest (newest before ++ after) = newest (before ++ after) := by
  unfold newest
  generalize capacity = n
  have hDropped : before.length - n ≤ before.length := Nat.sub_le _ _
  have hLength : before.length - n + ((before ++ after).length - (before.length - n) - n) =
      (before ++ after).length - n := by
    rw [List.length_append]
    omega
  rw [← List.drop_append_of_le_length hDropped, List.drop_drop, List.length_drop, hLength]

theorem toList_record_eq_newest {b : Buffer} (h : b.toList.length ≤ capacity) (event : Event) :
    (b.record event).toList = newest (b.toList ++ [event]) := by
  rw [toList_record, newest, List.length_append, List.length_singleton]
  split
  · next hFull =>
    have hSize : b.toList.length = capacity := Nat.le_antisymm h hFull
    have hOne : b.toList.length + 1 - capacity = 1 := by omega
    rw [hOne, List.drop_append_of_le_length (by rw [hSize]; decide), List.drop_one]
  · next hRoom => rw [Nat.sub_eq_zero_of_le (by omega), List.drop_zero]

end Buffer

namespace Recorder

variable {r r' : Recorder}

theorem noticeEvents_congr (h : r'.threshold = r.threshold) :
    r'.noticeEvents = r.noticeEvents := by
  funext notice
  cases notice with
  | evaluated | completed => rfl
  | fired => simp only [noticeEvents, contactEvent?, h]

theorem threshold_foldl_record (r : Recorder) (events : List Event) :
    (events.foldl record r).threshold = r.threshold := by
  induction events generalizing r with
  | nil => rfl
  | cons event rest ih => rw [List.foldl_cons, ih, record]

theorem events_foldl_record (h : r.events.length ≤ Buffer.capacity) (events : List Event) :
    (events.foldl record r).events = Buffer.newest (r.events ++ events) := by
  induction events generalizing r with
  | nil => rw [List.foldl_nil, List.append_nil, Buffer.newest_of_le h]
  | cons event rest ih =>
    have hEvents : (r.record event).events = Buffer.newest (r.events ++ [event]) :=
      Buffer.toList_record_eq_newest h event
    rw [List.foldl_cons, ih (by rw [hEvents]; exact Buffer.length_newest_le _), hEvents,
      Buffer.newest_append, List.append_assoc, List.singleton_append]

theorem observeAll_eq_foldl_record (r : Recorder) (log : List Notice) :
    r.observeAll log = (log.flatMap r.noticeEvents).foldl record r := by
  rw [observeAll]
  induction log generalizing r with
  | nil => rfl
  | cons notice rest ih =>
    have hThreshold : (r.observe notice).threshold = r.threshold := threshold_foldl_record r _
    rw [List.foldl_cons, ih, noticeEvents_congr hThreshold, List.flatMap_cons, List.foldl_append]
    rfl

theorem threshold_observeAll (r : Recorder) (log : List Notice) :
    (r.observeAll log).threshold = r.threshold := by
  rw [observeAll_eq_foldl_record, threshold_foldl_record]

end Recorder

def Recorder.cycleEvents (r : Recorder) (cycle : CycleResult) : List Event :=
  cycle.log.flatMap r.noticeEvents

section

variable {e : Engine} {input : TurnInput} {s t : InformationState}

theorem Recorder.tellsFirings (r : Recorder) : Engine.TellsFirings r.noticeEvents :=
  fun _ _ => rfl

/-- That a rule fires is recorded, and what that does to contact. -/
theorem Recorder.exists_contact (r : Recorder) (f : Firing) : ∃ contact,
    r.noticeEvents f.notice =
      .ruleFired f.rule.name f.rule.tier (UInt64.ofNat f.iteration) :: contact ∧
    ∀ event ∈ contact, ∃ before after kind, event = .contactTransition before after kind := by
  refine ⟨_, rfl, ?_⟩
  intro event hMem
  split at hMem
  · obtain ⟨kind, -, rfl⟩ := Option.map_eq_some_iff.mp (Option.mem_toList.mp hMem)
    exact ⟨_, _, kind, rfl⟩
  · cases hMem

theorem cycleEvents_eq (h : (e.run s input).outcome = .ok t) (r : Recorder) :
    r.cycleEvents (e.run s input) =
      (e.run s input).firings.flatMap (fun f => r.noticeEvents f.notice) ++
        [.turnCompleted input.speaker (UInt64.ofNat (e.run s input).firings.length)
          (UInt64.ofNat t.nextMoves.length)] := by
  obtain ⟨-, -, -, -, -, hLog⟩ := Engine.exists_row_of_run h
  exact hLog r.tellsFirings

end

end Dialogue
