import Dialogue.Plan
import Dialogue.Saved.Content
import Dialogue.Saved.Tagged

/-! # Saved plans

Actions and plans. The steps of a plan may be saved under `steps` or `plan`.
-/

namespace Dialogue

instance : Saved Action where
  save
    | .greet => Tagged.bare "greet"
    | .respond q => Tagged.holding "respond" (save q)
    | .raise q => Tagged.holding "raise" (save q)
    | .findout q => Tagged.holding "findout" (save q)
    | .consult q => Tagged.holding "consultDB" (save q)
  load? j := do
    let t ← Tagged.ofJson? j
    match t.tag with
    | "greet" => if t.isBare then some .greet else none
    | "respond" => t.content?.map .respond
    | "raise" => t.content?.map .raise
    | "findout" => t.content?.map .findout
    | "consultDB" => t.content?.map .consult
    | _ => none

instance : Saved PlanKind where
  save
    | .action => .str "action"
    | .issue => .str "issue"
  load? j :=
    match j.caseName? with
    | some "action" => some .action
    | some "issue" => some .issue
    | _ => none

/-- A goal has no tag of its own, so it is read whole before its case is known. -/
instance : Saved Goal where
  save
    | .question q => save q
    | .proposition p => save p
    | .name s => save s
  load? j :=
    if j.readable then
      ((load? j).map Goal.question).or
        (((load? j).map Goal.proposition).or ((load? j).map Goal.name))
    else none

instance : Saved Plan where
  save p := .obj [("kind", save p.kind), ("content", save p.goal), ("steps", save p.steps)]
  load? j := do
    let members ← j.members?
    let kind ← members.field? ["kind"]
    let goal ← members.fieldOr? "content" none
    let steps ← members.field? ["steps", "plan"]
    return ⟨kind, goal, steps⟩

end Dialogue
