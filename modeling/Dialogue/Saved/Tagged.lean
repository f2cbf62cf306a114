import Dialogue.Json.Saved

/-! # Tagged cases

A case is saved as an object with its tag under `type` and its content, if it has any, under
`content`.
-/

namespace Dialogue

/-- A case read from an object: its tag and, unless missing, its content. -/
structure Tagged where
  tag : String
  content : Option Json

namespace Tagged

/-- The two members of a case that count, in the order written. -/
def relevantMembers (members : Json.Members) : Json.Members :=
  members.filter fun m => m.1 == "type" || m.1 == "content"

/-- Content that comes before its tag is read whole before its case is known. -/
def ofJson? (j : Json) : Option Tagged := do
  let members ← j.members?
  match relevantMembers members with
  | [("type", tag)] => (tag.caseName?).map fun tag => ⟨tag, none⟩
  | [("type", tag), ("content", content)] => (tag.caseName?).map fun tag => ⟨tag, some content⟩
  | [("content", content), ("type", tag)] =>
    if content.readable then (tag.caseName?).map fun tag => ⟨tag, some content⟩ else none
  | _ => none

def bare (tag : String) : Json :=
  .obj [("type", .str tag)]

def holding (tag : String) (content : Json) : Json :=
  .obj [("type", .str tag), ("content", content)]

/-- The case has no content, or null. -/
def isBare (t : Tagged) : Bool :=
  match t.content with
  | none | some .null => true
  | _ => false

/-- The content of a case that must have one. -/
def content? {α : Type} [Saved α] (t : Tagged) : Option α :=
  t.content.bind load?

end Tagged

end Dialogue
