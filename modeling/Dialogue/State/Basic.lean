import Dialogue.Move
import Dialogue.Plan
import Dialogue.Stack

/-! # Information states

What the system keeps to itself, what it shares with the user, and what it is about to say.
-/

namespace Dialogue

structure PrivateState where
  agenda : Stack Action := []
  plan : Stack Action := []
  /-- In the order they were formed. -/
  bel : List Proposition := []
  /-- Silent turns in a row. -/
  noInputCount : UInt32 := 0

structure SharedState where
  /-- The latest utterance. -/
  lu : Option Utterance := none
  /-- The questions under discussion. -/
  qud : Stack Question := []
  /-- The commitments. -/
  com : Stack Proposition := []

/-- What has been done in the current cycle. -/
structure TurnMarks where
  /-- The utterance of this cycle has been taken in. -/
  latched : Bool := false
  /-- Positions in the latest utterance whose moves are dealt with. -/
  consumed : List Nat := []
  grounded : Bool := false
  acknowledged : Bool := false
  /-- The output of this cycle is settled. -/
  selected : Bool := false

/-- The positions dealt with, in ascending order. -/
def TurnMarks.positions (t : TurnMarks) : List Nat :=
  t.consumed.mergeSort

structure InformationState where
  own : PrivateState := {}
  shared : SharedState := {}
  nextMoves : List Move := []
  /-- How many rule applications led here. -/
  version : UInt64 := 0
  turn : TurnMarks := {}

namespace InformationState

/-- The state a dialogue starts from, with a greeting to give. -/
def initial : InformationState where
  own := { agenda := [.greet] }

def withBeliefs (s : InformationState) (beliefs : List Proposition) : InformationState :=
  { s with own.bel := s.own.bel ++ beliefs }

def beginTurn (s : InformationState) : InformationState :=
  { s with nextMoves := [], turn := {} }

def endTurn (s : InformationState) : InformationState :=
  { s with turn := {} }

/-- The beliefs that are not commitments. -/
def unsharedBeliefs (s : InformationState) : List Proposition :=
  s.own.bel.filter fun b => !s.shared.com.contains b

/-- The utterance taken in during this cycle. -/
def latched? (s : InformationState) : Option Utterance :=
  if s.turn.latched then s.shared.lu else none

/-- The moves of this cycle not dealt with yet, each with its position. -/
def pendingMoves (s : InformationState) : List (Nat × Move) :=
  match s.latched? with
  | some u => (u.moves.zipIdx.map Prod.swap).filter fun e => !s.turn.consumed.contains e.1
  | none => []

def isResolved (s : InformationState) (q : Question) : Bool :=
  s.shared.com.any (·.resolves q)

end InformationState

end Dialogue
