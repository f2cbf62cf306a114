import Dialogue.Decimal.Fixed
import Dialogue.Table
import Dialogue.Telemetry.Event

/-! # Snapshots

Counts over the recorded events.
-/

namespace Dialogue

structure Snapshot where
  byRule : Table Nat
  /-- The tiers with a firing, highest first. -/
  byTier : List (Tier × Nat)
  userTurns : Nat
  echoTurns : Nat
  /-- The firings of all turns, modulo `2 ^ 64`. -/
  totalFirings : UInt64
  maxFirings : UInt64
  /-- User turns without a reply. -/
  silentReplies : Nat
  reprompts : Nat
  escalations : Nat
  resets : Nat

namespace Event

def firedRule? : Event → Option String
  | ruleFired rule _ _ => some rule
  | _ => none

def firedTier? : Event → Option Tier
  | ruleFired _ tier _ => some tier
  | _ => none

def contactChange? : Event → Option ContactChange
  | contactTransition _ _ kind => some kind
  | _ => none

/-- The firings of a completed turn. -/
def firings? : Event → Option UInt64
  | turnCompleted _ firings _ => some firings
  | _ => none

def isTurnOf (speaker : Speaker) : Event → Bool
  | turnCompleted s _ _ => s == speaker
  | _ => false

/-- A user turn with nothing to say in return. -/
def isSilentReply : Event → Bool
  | turnCompleted .usr _ outgoing => outgoing == 0
  | _ => false

end Event

namespace Snapshot

def tally (names : List String) : Table Nat :=
  names.foldl (fun t name => t.insert name ((t.get? name).getD 0 + 1)) .empty

def ofEvents (events : List Event) : Snapshot where
  byRule := tally (events.filterMap Event.firedRule?)
  byTier := Tier.all.filterMap fun tier =>
    let n := (events.filterMap Event.firedTier?).count tier
    if n = 0 then none else some (tier, n)
  userTurns := events.countP (Event.isTurnOf .usr)
  echoTurns := events.countP (Event.isTurnOf .sys)
  totalFirings := (events.filterMap Event.firings?).foldl (· + ·) 0
  maxFirings := (events.filterMap Event.firings?).foldl max 0
  silentReplies := events.countP Event.isSilentReply
  reprompts := (events.filterMap Event.contactChange?).count .reprompted
  escalations := (events.filterMap Event.contactChange?).count .escalated
  resets := (events.filterMap Event.contactChange?).count .reset

def turns (s : Snapshot) : Nat :=
  s.userTurns + s.echoTurns

/-- The mean number of firings per turn, zero without turns. -/
def averageFirings (s : Snapshot) : Float :=
  if s.turns = 0 then 0 else s.totalFirings.toFloat / (UInt64.ofNat s.turns).toFloat

def averageText (s : Snapshot) : String :=
  Decimal.fixed 6 s.averageFirings

end Snapshot

end Dialogue
