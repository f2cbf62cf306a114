import Dialogue.Config
import Dialogue.Database
import Dialogue.Domain.Basic
import Dialogue.State.Delta

/-! # Update rules

A rule reads the dialogue and either does not apply or says which changes it makes. It never changes
anything itself.
-/

namespace Dialogue

/-- Priority bands, highest first. -/
inductive Tier where
  | reset
  | latch
  | integrate
  | ground
  | downdate
  | execPlan
  | select
  deriving DecidableEq

namespace Tier

def name : Tier → String
  | reset => "Reset"
  | latch => "Latch"
  | integrate => "Integrate"
  | ground => "Ground"
  | downdate => "Downdate"
  | execPlan => "ExecPlan"
  | select => "Select"

def all : List Tier :=
  [reset, latch, integrate, ground, downdate, execPlan, select]

end Tier

/-- What is said in a cycle. -/
structure TurnInput where
  speaker : Speaker
  moves : List Move
  /-- Whether to drop what earlier cycles left on the agenda. -/
  resetAgenda : Bool := false

namespace TurnInput

def user (moves : List Move) : TurnInput where
  speaker := .usr
  moves := moves

/-- The system's own moves, fed back so that they become common ground. -/
def echo (moves : List Move) : TurnInput where
  speaker := .sys
  moves := moves

end TurnInput

/-- Everything a rule may read. -/
structure Context where
  domain : Domain
  database : Database
  config : Config
  input : TurnInput
  state : InformationState

namespace Context

/-- The utterance of this cycle when the user made it. -/
def userTurn? (c : Context) : Option Utterance :=
  c.state.latched?.filter fun u => u.speaker == .usr

/-- The user's utterance when every move of it is clear enough. -/
def intelligibleUserTurn? (c : Context) : Option Utterance :=
  c.userTurn?.filter (·.isIntelligible c.config.lowConfidence)

def qudTop? (c : Context) : Option Question :=
  c.state.shared.qud.head?

/-- The first move not dealt with for which there is a result, with its position. -/
def findPending? {β : Type} (c : Context) (f : Move → Option β) : Option (Nat × β) :=
  c.state.pendingMoves.findSome? fun e => (f e.2).map fun b => (e.1, b)

/-- Moves are chosen once a cycle, and never in reply to the system itself. -/
def maySelect (c : Context) : Bool :=
  c.input.speaker != .sys && !c.state.turn.selected

end Context

structure Rule where
  name : String
  tier : Tier
  /-- The changes the rule makes; none when it does not apply. -/
  effect : Context → Option (List Delta)

def Rule.description (r : Rule) : String :=
  "Rule \x7b name: \"" ++ r.name ++ "\", tier: " ++ r.tier.name ++ " \x7d"

end Dialogue
