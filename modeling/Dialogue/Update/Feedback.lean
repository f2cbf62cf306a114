import Dialogue.Contact
import Dialogue.Update.Rule

/-! # Feedback

What the system makes of how the user was heard: silence, unclear turns, answers in the wrong
format, and answers heard well enough to say so.
-/

namespace Dialogue.Update

/-- Silence counts while its moves are not dealt with, taking part only while silence was
counted. -/
def contactSignal? (c : Context) : Option Signal := do
  let u ← c.userTurn?
  if u.isSilence then
    if c.state.pendingMoves.any (·.2.isNoInput) then some .silence else none
  else if u.hasContentfulMove && c.state.own.noInputCount != 0 then some .engagement
  else none

/-- Says that nothing was heard and asks the question on top again. -/
def reprompt (c : Context) (count : UInt32) : List Delta :=
  .emit ⟨.noInput, none⟩ :: (c.qudTop?.toList.map fun q => .emit ⟨.ask q, none⟩) ++
    [.setNoInputCount count, .markSelected]

/-- The plan is at a step that asks this very question. -/
def planAsks (plan : Stack Action) (q : Question) : Bool :=
  match plan with
  | .findout p :: _ | .raise p :: _ => p == q
  | _ => false

/-- Answers the question for the user with a default. -/
def fallBack (c : Context) (q : Question) (p : Proposition) : List Delta :=
  [.emit ⟨.answer (.full p), none⟩, .commit p, .popQud, .clearAgenda] ++
    (if planAsks c.state.own.plan q then [.popPlan] else []) ++ [.setNoInputCount 0]

def fallback? (c : Context) : Option (Question × Proposition) := do
  let q ← c.qudTop?
  let p ← c.domain.default? q.predicate
  return (q, p)

/-- What a reaction changes. Without a default to fall back on the question is asked again. -/
def reactionDeltas (c : Context) : Reaction → List Delta
  | .reset => [.setNoInputCount 0]
  | .unchanged => []
  | .reprompt count => reprompt c count
  | .escalate count =>
    match fallback? c with
    | some (q, p) => fallBack c q p
    | none => reprompt c count

def integrateNoInput : Rule where
  name := "integrate_no_input"
  tier := .ground
  effect c := do
    let signal ← contactSignal? c
    let silent := c.state.pendingMoves.filter (·.2.isNoInput)
    return silent.map (fun e => .consume e.1) ++
      reactionDeltas c (react c.state.own.noInputCount c.config.escalation signal)

/-- Asks again after an unclear turn. -/
def integrateLowConfidence : Rule where
  name := "integrate_low_confidence"
  tier := .ground
  effect c := do
    let u ← c.userTurn?
    if c.state.turn.grounded || u.isIntelligible c.config.lowConfidence then none
    else some ((c.qudTop?.toList.map fun q => .emit ⟨.ask q, none⟩) ++
      [.emit ⟨.inform c.config.clarificationText, none⟩, .markGrounded, .markSelected])

def misformatted? (c : Context) (q : Question) (f : Format) (m : Move) : Option Unit := do
  let a ← m.answered?
  if c.domain.relevant a q && !f.accepts (q.combine a).argument then some () else none

/-- Asks again after an answer in the wrong format, with a hint at the right one. -/
def integratePartialUnderstanding : Rule where
  name := "integrate_partial_understanding"
  tier := .ground
  effect c :=
    if c.state.turn.grounded then none
    else do
      let _ ← c.intelligibleUserTurn?
      let q ← c.qudTop?
      let f ← c.domain.formats.get? q.predicate
      let (i, _) ← c.findPending? (misformatted? c q f)
      return [.emit ⟨.ask q, none⟩, .emit ⟨.inform f.hint, none⟩, .consume i, .markGrounded,
        .markSelected]

def isSureAnswer (c : Context) (m : Move) : Bool :=
  m.answered?.isSome && decide (c.config.acknowledge < m.certainty)

def integratePositiveGrounding : Rule where
  name := "integrate_positive_grounding"
  tier := .ground
  effect c := do
    let u ← c.intelligibleUserTurn?
    if !c.state.turn.acknowledged && !c.state.turn.grounded && u.moves.any (isSureAnswer c) then
      some [.emit ⟨.acknowledge c.config.acknowledgementText, none⟩, .markAcknowledged]
    else none

end Dialogue.Update
