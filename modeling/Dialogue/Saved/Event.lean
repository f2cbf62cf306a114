import Dialogue.Saved.Move
import Dialogue.Telemetry.Event

/-! # Saved events

An event is saved as an object with one member, named for its case.
-/

namespace Dialogue

instance : Saved Tier where
  save t := .str t.name
  load? j := do
    let name ← j.caseName?
    Tier.all.find? fun t => t.name == name

instance : Saved Contact where
  save
    | .listening => .str "Listening"
    | .waiting count => .obj [("Waiting", save count)]
    | .escalated count => .obj [("Escalated", save count)]
  load?
    | .obj [("Waiting", count)] => (load? count).map .waiting
    | .obj [("Escalated", count)] => (load? count).map .escalated
    | j => if j.caseName? = some "Listening" then some .listening else none

instance : Saved ContactChange where
  save
    | .reprompted => .str "Reprompted"
    | .escalated => .str "Escalated"
    | .reset => .str "Reset"
  load? j :=
    match j.caseName? with
    | some "Reprompted" => some .reprompted
    | some "Escalated" => some .escalated
    | some "Reset" => some .reset
    | _ => none

instance : Saved Event where
  save
    | .ruleFired rule tier iteration =>
      .obj [("RuleFired",
        .obj [("rule", save rule), ("tier", save tier), ("iteration", save iteration)])]
    | .contactTransition before after kind =>
      .obj [("ContactTransition",
        .obj [("from", save before), ("to", save after), ("kind", save kind)])]
    | .turnCompleted speaker firings outgoing =>
      .obj [("TurnCompleted",
        .obj [("speaker", save speaker), ("firings", save firings), ("outgoing", save outgoing)])]
  load?
    | .obj [("RuleFired", .obj members)] => do
      let rule ← Json.Members.field? members ["rule"]
      let tier ← Json.Members.field? members ["tier"]
      let iteration ← Json.Members.field? members ["iteration"]
      return .ruleFired rule tier iteration
    | .obj [("ContactTransition", .obj members)] => do
      let before ← Json.Members.field? members ["from"]
      let after ← Json.Members.field? members ["to"]
      let kind ← Json.Members.field? members ["kind"]
      return .contactTransition before after kind
    | .obj [("TurnCompleted", .obj members)] => do
      let speaker ← Json.Members.field? members ["speaker"]
      let firings ← Json.Members.field? members ["firings"]
      let outgoing ← Json.Members.field? members ["outgoing"]
      return .turnCompleted speaker firings outgoing
    | _ => none

end Dialogue
