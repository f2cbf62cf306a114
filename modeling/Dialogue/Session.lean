import Dialogue.Telemetry.Recorder

/-! # Sessions

One dialogue: an engine, the state it has reached, and what was recorded on the way. After a reply
the session hears itself, so that what it said becomes common ground.
-/

namespace Dialogue

structure Session where
  engine : Engine
  state : InformationState
  recorder : Recorder

/-- The moves of a reply, or why there is none. -/
abbrev Reply := Except NoProgress (List Move)

namespace Session

/-- A session that records with the engine's own threshold. -/
def ofEngine (engine : Engine) (initial : InformationState) : Session where
  engine := engine
  state := initial
  recorder := { threshold := engine.config.escalation }

def new (domain : Domain) (database : Database) (config : Config) (initial : InformationState) :
    Except ConfigError Session :=
  (Engine.new domain database config).map fun engine => ofEngine engine initial

/-- One cycle. A refused cycle is recorded but leaves the state as it was. -/
def step (s : Session) (input : TurnInput) : Reply × Session :=
  let result := s.engine.run s.state input
  let recorder := s.recorder.observeAll result.log
  match result.outcome with
  | .ok state => (.ok state.nextMoves, { s with state, recorder })
  | .error e => (.error e, { s with recorder })

/-- A cycle, and a second one on the reply if there is any. -/
def converse (s : Session) (input : TurnInput) : Reply × Session :=
  match s.step input with
  | (.error e, s) => (.error e, s)
  | (.ok [], s) => (.ok [], s)
  | (.ok reply, s) =>
    match s.step (.echo reply) with
    | (.error e, s) => (.error e, s)
    | (.ok _, s) => (.ok reply, s)

def start (s : Session) : Reply × Session :=
  s.converse (.user [])

def hear (s : Session) (moves : List Move) : Reply × Session :=
  s.converse (.user moves)

end Session

end Dialogue
