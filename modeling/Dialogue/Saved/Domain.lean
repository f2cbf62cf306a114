import Dialogue.Domain.Basic
import Dialogue.Saved.Plan

/-! # Saved domains

Formats and blueprints. Plans, defaults and formats may be missing.
-/

namespace Dialogue

instance : Saved Format where
  save f := .obj [("allowed", save f.allowed.names), ("hint", save f.hint)]
  load? j := do
    let members ← j.members?
    let allowed ← members.field? ["allowed"]
    let hint ← members.field? ["hint"]
    return .ofValues allowed hint

instance : Saved Blueprint where
  save b :=
    .obj [("predicates", save b.predicates), ("individuals", save b.individuals),
      ("plans", save b.plans), ("defaults", save b.defaults), ("formats", save b.formats)]
  load? j := do
    let members ← j.members?
    let predicates ← members.field? ["predicates"]
    let individuals ← members.field? ["individuals"]
    let plans ← members.fieldOr? "plans" []
    let defaults ← members.fieldOr? "defaults" .empty
    let formats ← members.fieldOr? "formats" .empty
    return { predicates, individuals, plans, defaults, formats }

/-- The domain of a saved blueprint, or the blueprint's first fault. None for any other value. -/
def Domain.ofJson? (j : Json) : Option (Except DomainError Domain) :=
  (load? j).map Blueprint.build

end Dialogue
