import Dialogue.Content

/-! # Moves

Speech acts, how surely they were recognized, and the utterances they make up.
-/

namespace Dialogue

inductive Speaker where
  | usr
  | sys
  deriving DecidableEq

inductive Act where
  | greet
  /-- A request for a named action; without a name it asks for nothing known. -/
  | request (action : Option String)
  | ask (q : Question)
  | answer (a : Answer)
  /-- The speaker stayed silent. -/
  | noInput
  | inform (text : String)
  | acknowledge (text : String)

/-- A speech act with its recognition confidence. Acts that were typed or generated have none. -/
structure Move where
  act : Act
  confidence : Option Float32 := none

/-- The nearest number in `[0, 1]`. A NaN stays one. -/
def clampUnit (x : Float32) : Float32 :=
  if x < 0 then 0 else if 1 < x then 1 else x

namespace Move

def withConfidence (m : Move) (x : Float32) : Move :=
  { m with confidence := some (clampUnit x) }

/-- An act without confidence counts as fully certain. -/
def certainty (m : Move) : Float32 :=
  m.confidence.getD 1

def isNoInput (m : Move) : Bool :=
  match m.act with
  | .noInput => true
  | _ => false

/-- Recognized below the threshold. Silence holds nothing to misrecognize, and a NaN clears no
threshold. -/
def isUnclear (threshold : Float32) (m : Move) : Bool :=
  !m.isNoInput && !decide (threshold ≤ m.certainty)

/-- A move by which the speaker takes part: a question, an answer or a request. -/
def isContentful (m : Move) : Bool :=
  match m.act with
  | .ask _ | .answer _ | .request _ => true
  | _ => false

def asked? (m : Move) : Option Question :=
  match m.act with
  | .ask q => some q
  | _ => none

def answered? (m : Move) : Option Answer :=
  match m.act with
  | .answer a => some a
  | _ => none

end Move

/-- The moves one speaker made in one turn. -/
structure Utterance where
  speaker : Speaker
  moves : List Move

namespace Utterance

/-- Something was made of the turn, and it was silence throughout. -/
def isSilence (u : Utterance) : Bool :=
  !u.moves.isEmpty && u.moves.all (·.isNoInput)

def hasContentfulMove (u : Utterance) : Bool :=
  u.moves.any (·.isContentful)

/-- No move was recognized below the threshold. -/
def isIntelligible (threshold : Float32) (u : Utterance) : Bool :=
  !u.moves.any (·.isUnclear threshold)

end Utterance

end Dialogue
