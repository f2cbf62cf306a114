import Dialogue.Cycle
import Dialogue.Telemetry.Buffer
import Dialogue.Telemetry.Snapshot

/-! # Recorders

Turning the log of cycles into events.
-/

namespace Dialogue

/-- The events recorded so far, with the threshold at which silence escalates. -/
structure Recorder where
  threshold : UInt32
  buffer : Buffer := .empty

namespace Recorder

def events (r : Recorder) : List Event :=
  r.buffer.toList

def record (r : Recorder) (event : Event) : Recorder :=
  { r with buffer := r.buffer.record event }

def clear (r : Recorder) : Recorder :=
  { r with buffer := .empty }

def snapshot (r : Recorder) : Snapshot :=
  .ofEvents r.events

/-- What a step of the dialogue did to contact, told from the count and the commitments. An
escalation commits to a default; a plain reset commits to nothing. -/
def contactChange? (before after : InformationState) : Option ContactChange :=
  let was := before.own.noInputCount
  let now := after.own.noInputCount
  if was < now then some .reprompted
  else if now = 0 ∧ before.shared.com.length < after.shared.com.length then some .escalated
  else if now = 0 ∧ 0 < was then some .reset
  else none

def contactEvent? (r : Recorder) (before after : InformationState) : Option Event :=
  (contactChange? before after).map fun kind =>
    .contactTransition (Contact.ofCount before.own.noInputCount r.threshold)
      (Contact.ofCount after.own.noInputCount r.threshold) kind

/-- The events of one notice. Only the handling of silence touches contact. -/
def noticeEvents (r : Recorder) : Notice → List Event
  | .evaluated _ _ => []
  | .fired rule iteration before after =>
    .ruleFired rule.name rule.tier (UInt64.ofNat iteration) ::
      if rule.name = Update.integrateNoInput.name then (r.contactEvent? before after).toList else []
  | .completed input firings state =>
    [.turnCompleted input.speaker (UInt64.ofNat firings) (UInt64.ofNat state.nextMoves.length)]

def observe (r : Recorder) (notice : Notice) : Recorder :=
  (r.noticeEvents notice).foldl record r

def observeAll (r : Recorder) (log : List Notice) : Recorder :=
  log.foldl observe r

end Recorder

end Dialogue
