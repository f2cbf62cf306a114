import Dialogue.Saved.Move
import Dialogue.Saved.Plan
import Dialogue.State.Basic

/-! # Saved states

An information state is saved without its turn marks, which never outlive a cycle.
-/

namespace Dialogue

instance : Saved PrivateState where
  save s :=
    .obj [("agenda", save s.agenda), ("plan", save s.plan), ("bel", save s.bel),
      ("no_input_count", save s.noInputCount)]
  load? j := do
    let members ← j.members?
    let agenda ← members.field? ["agenda"]
    let plan ← members.field? ["plan"]
    let bel ← members.field? ["bel"]
    let noInputCount ← members.field? ["no_input_count"]
    return { agenda, plan, bel, noInputCount }

instance : Saved SharedState where
  save s := .obj [("lu", save s.lu), ("qud", save s.qud), ("com", save s.com)]
  load? j := do
    let members ← j.members?
    let lu ← members.fieldOr? "lu" none
    let qud ← members.field? ["qud"]
    let com ← members.field? ["com"]
    return { lu, qud, com }

instance : Saved InformationState where
  save s :=
    .obj [("private", save s.own), ("shared", save s.shared), ("next_moves", save s.nextMoves),
      ("version", save s.version)]
  load? j := do
    let members ← j.members?
    let own ← members.field? ["private"]
    let shared ← members.field? ["shared"]
    let nextMoves ← members.field? ["next_moves"]
    let version ← members.field? ["version"]
    return { own, shared, nextMoves, version }

end Dialogue
