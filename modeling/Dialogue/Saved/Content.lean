import Dialogue.Content
import Dialogue.Json.Saved

/-! # Saved content

Questions, propositions and answers.
-/

namespace Dialogue

instance : Saved Question where
  save q := .obj [("kind", .str "whq"), ("predicate", save q.predicate)]
  load? j := do
    let members ← j.members?
    let kind : Json ← members.field? ["kind"]
    let predicate ← members.field? ["predicate"]
    if kind.caseName? = some "whq" then some ⟨predicate⟩ else none

instance : Saved Proposition where
  save p := .obj [("predicate", save p.predicate), ("argument", save p.argument)]
  load? j := do
    let members ← j.members?
    let predicate ← members.field? ["predicate"]
    let argument ← members.field? ["argument"]
    return ⟨predicate, argument⟩

/-- An answer has no tag of its own, so it is read whole before its case is known. -/
instance : Saved Answer where
  save
    | .full p => save p
    | .short individual => save individual
  load? j :=
    if j.readable then
      ((load? j).map Answer.full).or ((load? j).map Answer.short)
    else none

end Dialogue
