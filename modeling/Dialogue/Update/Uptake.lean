import Dialogue.Update.Rule

/-! # Uptake

Taking in what was said. An utterance is first latched, then its moves are integrated one by one.
-/

namespace Dialogue.Update

def clearAgenda : Rule where
  name := "clear_agenda"
  tier := .reset
  effect c :=
    if c.input.resetAgenda && !c.state.own.agenda.isEmpty then some [.clearAgenda] else none

def getLatestMove : Rule where
  name := "get_latest_move"
  tier := .latch
  effect c :=
    if !c.input.moves.isEmpty && !c.state.turn.latched then
      some [.latch ⟨c.input.speaker, c.input.moves⟩]
    else none

def requestedSteps? (d : Domain) (m : Move) : Option (List Action) :=
  match m.act with
  | .request (some name) => (d.actionPlan? name).map (·.steps)
  | _ => none

/-- Puts the steps of a requested plan on the agenda. -/
def integrateUsrRequest : Rule where
  name := "integrate_usr_request"
  tier := .integrate
  effect c := do
    let _ ← c.intelligibleUserTurn?
    let (i, steps) ← c.findPending? (requestedSteps? c.domain)
    return [.prependAgenda steps, .consume i]

/-- A question the system asked comes under discussion. -/
def integrateSysAsk : Rule where
  name := "integrate_sys_ask"
  tier := .integrate
  effect c := do
    let _ ← c.state.latched?.filter fun u => u.speaker == .sys
    let (i, q) ← c.findPending? Move.asked?
    return [.pushQud q, .consume i]

/-- A question the user asked comes under discussion and is to be responded to. -/
def integrateUsrAsk : Rule where
  name := "integrate_usr_ask"
  tier := .integrate
  effect c := do
    let _ ← c.intelligibleUserTurn?
    let (i, q) ← c.findPending? Move.asked?
    return [.pushQud q, .pushAgenda (.respond q), .consume i]

/-- Whether answers of the latched utterance may be taken up: the system's always, the user's when
the turn is intelligible. -/
def mayTakeAnswers (c : Context) (u : Utterance) : Bool :=
  u.speaker == .sys || u.isIntelligible c.config.lowConfidence

/-- The fact a move states in answer to `q`. A user's answer must have the right format. -/
def acceptedFact? (c : Context) (u : Utterance) (q : Question) (m : Move) : Option Proposition := do
  let a ← m.answered?
  if c.domain.relevant a q && (u.speaker == .sys || c.domain.accepts (q.combine a)) then
    some (q.combine a)
  else none

def integrateAnswer : Rule where
  name := "integrate_answer"
  tier := .integrate
  effect c := do
    let u ← c.state.latched?.filter (mayTakeAnswers c)
    let q ← c.qudTop?
    let (i, p) ← c.findPending? (acceptedFact? c u q)
    return [.commit p, .consume i]

def greeting? (m : Move) : Option Unit :=
  match m.act with
  | .greet => some ()
  | _ => none

def integrateGreet : Rule where
  name := "integrate_greet"
  tier := .integrate
  effect c := do
    let (i, _) ← c.findPending? greeting?
    return [.consume i]

end Dialogue.Update
