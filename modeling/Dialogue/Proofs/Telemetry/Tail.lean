import Mathlib.Data.List.DropRight
import Dialogue.Proofs.Telemetry.Counts
import Dialogue.Proofs.Telemetry.Recording

/-! # The tail of a history

Whatever is recorded and cleared, a recorder holds the newest of the events since it was cleared
last, as many as it has room for, and its snapshot counts these and no others.
-/

namespace Dialogue

/-- What there is to tell apart in what is recorded. -/
inductive Event.Kind where
  | firing
  | transition
  | completion
  deriving DecidableEq

def Event.kind : Event → Event.Kind
  | ruleFired _ _ _ => .firing
  | contactTransition _ _ _ => .transition
  | turnCompleted _ _ _ => .completion

namespace Recorder

/-- What may be asked of a recorder. -/
inductive Call where
  | record (event : Event)
  | clear

namespace Call

def event? : Call → Option Event
  | record event => some event
  | clear => none

/-- The events recorded since the last of some calls that clears. -/
def sinceClear (calls : List Call) : List Event :=
  (calls.rtakeWhile fun c => c.event?.isSome).filterMap event?

@[simp] theorem sinceClear_nil : sinceClear [] = [] := rfl

@[simp] theorem sinceClear_record (calls : List Call) (event : Event) :
    sinceClear (calls ++ [record event]) = sinceClear calls ++ [event] := by
  rw [sinceClear, List.rtakeWhile_concat_pos _ _ _ (by rfl), List.filterMap_append]
  rfl

@[simp] theorem sinceClear_clear (calls : List Call) : sinceClear (calls ++ [clear]) = [] := by
  rw [sinceClear, List.rtakeWhile_concat_neg _ _ _ (by simp [event?]), List.filterMap_nil]

end Call

def call (r : Recorder) : Call → Recorder
  | .record event => r.record event
  | .clear => r.clear

def after (threshold : UInt32) (calls : List Call) : Recorder :=
  calls.foldl call { threshold }

theorem events_call {r : Recorder} {history : List Event} (h : r.events = Buffer.newest history)
    (event : Event) : (r.call (.record event)).events = Buffer.newest (history ++ [event]) := by
  have hRoom : r.events.length ≤ Buffer.capacity := h ▸ Buffer.length_newest_le history
  calc (r.call (.record event)).events
      = Buffer.newest (r.events ++ [event]) := Buffer.toList_record_eq_newest hRoom event
    _ = Buffer.newest (history ++ [event]) := by rw [h, Buffer.newest_append]

theorem events_after (threshold : UInt32) (calls : List Call) :
    (after threshold calls).events = Buffer.newest (Call.sinceClear calls) := by
  -- what was recorded is decided by the last call first
  induction calls using List.reverseRecOn with
  | nil => rfl
  | append_singleton calls c ih =>
    rw [after, List.foldl_append, List.foldl_cons, List.foldl_nil]
    cases c with
    | record event =>
      rw [Call.sinceClear_record]
      exact events_call ih event
    | clear =>
      rw [Call.sinceClear_clear]
      rfl

end Recorder

/-- The counts of a snapshot are those of some events. -/
structure Snapshot.Counts (s : Snapshot) (events : List Event) : Prop where
  byRule : ∀ rule, (s.byRule.get? rule).getD 0 = events.countP (·.firedRule? == some rule)
  byTier : ∀ tier, (s.byTier.lookup tier).getD 0 = events.countP (·.firedTier? == some tier)
  sum_byRule : (s.byRule.entries.map (·.2)).sum = events.countP (·.kind = .firing)
  sum_byTier : (s.byTier.map (·.2)).sum = events.countP (·.kind = .firing)
  turns : s.userTurns + s.echoTurns = events.countP (·.kind = .completion)
  contacts : s.reprompts + s.escalations + s.resets = events.countP (·.kind = .transition)

namespace Snapshot

theorem length_filterMap_of_kind {α : Type} {g : Event → Option α} {kind : Event.Kind}
    (h : ∀ event : Event, (g event).isSome = true ↔ event.kind = kind) (events : List Event) :
    (events.filterMap g).length = events.countP (·.kind = kind) := by
  rw [List.length_filterMap_eq_countP]
  apply List.countP_congr
  intro event _
  rw [h, decide_eq_true_iff]

theorem turns_add (events : List Event) :
    events.countP (Event.isTurnOf .usr) + events.countP (Event.isTurnOf .sys) =
      events.countP (·.kind = .completion) := by
  induction events with
  | nil => rfl
  | cons event rest ih =>
    simp only [List.countP_cons, ← ih]
    cases event with
    | ruleFired | contactTransition => simp [Event.isTurnOf, Event.kind]
    | turnCompleted speaker =>
      cases speaker <;> simp [Event.isTurnOf, Event.kind] <;> omega

theorem counts_ofEvents (events : List Event) : (ofEvents events).Counts events where
  byRule rule := by rw [ofEvents, get?_tally, List.count_filterMap]
  byTier tier := by
    have hAll : tier ∈ Tier.all := by cases tier <;> decide
    rw [ofEvents, lookup_filterMap_ne_zero, if_pos hAll, List.count_filterMap]
  sum_byRule := by
    rw [ofEvents, sum_tally]
    apply length_filterMap_of_kind
    intro event
    cases event <;> simp [Event.firedRule?, Event.kind]
  sum_byTier := by
    rw [ofEvents, sum_filterMap_ne_zero, sum_count_tiers]
    apply length_filterMap_of_kind
    intro event
    cases event <;> simp [Event.firedTier?, Event.kind]
  turns := turns_add events
  contacts := by
    rw [ofEvents, sum_count_changes]
    apply length_filterMap_of_kind
    intro event
    cases event <;> simp [Event.contactChange?, Event.kind]

end Snapshot

/-- A recorder holds the tail of what was recorded since it was cleared last, and counts it. -/
theorem Recorder.holds_tail (threshold : UInt32) (calls : List Call) :
    (after threshold calls).events <:+ Call.sinceClear calls ∧
    (after threshold calls).events.length = min (Call.sinceClear calls).length 10000 ∧
    (after threshold calls).snapshot.Counts (after threshold calls).events := by
  refine ⟨?_, ?_, Snapshot.counts_ofEvents _⟩
  · rw [events_after]
    exact List.drop_suffix _ _
  · rw [events_after, Buffer.newest, List.length_drop, Buffer.capacity]
    omega

end Dialogue
