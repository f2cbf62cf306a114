import Dialogue.Move
import Dialogue.Saved.Content
import Dialogue.Saved.Tagged

/-! # Saved moves

Acts, moves and utterances. A loaded confidence is brought into `[0, 1]`.
-/

namespace Dialogue

instance : Saved Speaker where
  save
    | .usr => .str "usr"
    | .sys => .str "sys"
  load? j :=
    match j.caseName? with
    | some "usr" => some .usr
    | some "sys" => some .sys
    | _ => none

instance : Saved Act where
  save
    | .greet => Tagged.bare "greet"
    | .request action => Tagged.holding "request" (save action)
    | .ask q => Tagged.holding "ask" (save q)
    | .answer a => Tagged.holding "answer" (save a)
    | .noInput => Tagged.bare "no_input"
    | .inform text => Tagged.holding "inform" (save text)
    | .acknowledge text => Tagged.holding "acknowledge" (save text)
  load? j := do
    let t ← Tagged.ofJson? j
    match t.tag with
    | "greet" => if t.isBare then some .greet else none
    | "request" => if t.isBare then some (.request none) else t.content?.map .request
    | "ask" => t.content?.map .ask
    | "answer" => t.content?.map .answer
    | "no_input" => if t.isBare then some .noInput else none
    | "inform" => t.content?.map .inform
    | "acknowledge" => t.content?.map .acknowledge
    | _ => none

instance : Saved Move where
  save m :=
    .obj (("act", save m.act) :: m.confidence.toList.map fun x => ("confidence", save x))
  load? j := do
    let members ← j.members?
    let act ← members.field? ["act"]
    let confidence : Option Float32 ← members.fieldOr? "confidence" none
    return ⟨act, confidence.map clampUnit⟩

instance : Saved Utterance where
  save u := .obj [("speaker", save u.speaker), ("moves", save u.moves)]
  load? j := do
    let members ← j.members?
    let speaker ← members.field? ["speaker"]
    let moves ← members.field? ["moves"]
    return ⟨speaker, moves⟩

end Dialogue
